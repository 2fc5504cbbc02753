import Misokube.Device.Model
import Misokube.Lib.Command
import Misokube.Lib.Netlink

/-!
# Peers of a tenant

The operations of the network manager that lead from the VTEP of a tenant to the VTEPs of other
nodes, `EnsurePeer`, `RemovePeer` and `FlushTenant` of `internal/nmanager`, with the ARP, FDB and
route managers they call.  Of the records of the tenants they use the name of the VTEP and the
peers.  Each call of a manager may fail, and then changes nothing.
-/

namespace Peers

open Net

/-- A hardware address; nil is the empty list. -/
abbrev HardwareAddr := List UInt8

/-- What a node reports of a tenant. -/
structure RemoteTenantInfra where
  nodeName : String
  nodeIP : IP
  vtepIP : IP
  vtepMAC : HardwareAddr
  subnet : Option IPNet
  vni : UInt32
deriving DecidableEq

/-- The errors of the operations. -/
inductive Error where
  | emptyNodeName
  | tenantNotFound (tenantID : String)
  | managersNotInitialized
  | cleanupPreviousPeer (err : Error)
  | notVTEP
  | remoteInfoMissing
  | addARP
  | addFDB
  | addRoute
  | deleteARP
  | deleteFDB
  | deleteRoute
deriving DecidableEq

/-- Which calls of the managers succeed, in the removal of a peer and in the addition of one. -/
structure Outcomes where
  arpDelete : Bool
  fdbDelete : Bool
  routeDelete : Bool
  arpAdd : Bool
  fdbAdd : Bool
  routeUpdate : Bool
deriving DecidableEq

/-- All calls of the managers succeed. -/
def Outcomes.success : Outcomes :=
  ⟨true, true, true, true, true, true⟩

/-! ### The managers -/

/-- The kernel knows a destination by its address and the size of its mask. -/
abbrev Kernel := Netlink.Tables IP HardwareAddr (IP × ℕ × ℕ)

/-- A sequence of calls of the managers. -/
abbrev Command := EStateM Error Kernel

/-- The form in which an address is given to the kernel: 4 bytes if possible. -/
def kernelIP (ip : IP) : IP :=
  if to4 ip ≠ [] then to4 ip else ip

def kernelDst (dst : IPNet) : IP × ℕ × ℕ :=
  (kernelIP dst.ip, maskSize dst.mask)

/-- The remote address of a forwarding entry; nil is unspecified. -/
def kernelRemote (ip : IP) : Option IP :=
  if ip = [] then none else some (kernelIP ip)

namespace ARP

def add (ok : Bool) (device : String) (ip : IP) (mac : HardwareAddr) : Command Unit :=
  if device = "" ∨ ip = [] ∨ mac = [] ∨ ok = false then throw .addARP
  else modify (Netlink.neighSet device (kernelIP ip) mac)

/-- A neighbour that is not there is no error. -/
def delete (ok : Bool) (device : String) (ip : IP) : Command Unit :=
  if device = "" ∨ ip = [] ∨ ok = false then throw .deleteARP
  else modify (Netlink.neighDel device (kernelIP ip))

end ARP

namespace FDB

def add (ok : Bool) (device : String) (mac : HardwareAddr) (ip : IP) : Command Unit :=
  if ok = false then throw .addFDB
  else modify (Netlink.fdbSet device mac (kernelRemote ip))

/-- A forwarding entry that is not there is no error. -/
def delete (ok : Bool) (device : String) (mac : HardwareAddr) (ip : IP) : Command Unit :=
  if ok = false then throw .deleteFDB
  else modify (Netlink.fdbDel device mac (kernelRemote ip))

end FDB

namespace Route

/-- Deletes the routes of the device to the destination and adds the new one.  A route to the
destination on another device is no error. -/
def update (ok : Bool) (device : String) (dst : IPNet) (gateway : IP) : Command Unit :=
  if device = "" ∨ ok = false then throw .addRoute
  else modify (Netlink.routeReplace device (kernelDst dst) (kernelIP gateway))

/-- A route that is not there is no error. -/
def delete (ok : Bool) (device : String) (dst : IPNet) (gateway : IP) : Command Unit :=
  if device = "" ∨ ok = false then throw .deleteRoute
  else modify (Netlink.routeDel device (kernelDst dst) (kernelIP gateway))

end Route

/-! ### Records -/

/-- What the operations use of `TenantRecord`: the name of the VTEP of the backend, if it has one,
and the peers by the names of their nodes. -/
structure Record where
  vtep : Option String
  peers : GoMap String RemoteTenantInfra

/-- What the operations use of `NetworkManagerImpl`, and the tables of the kernel; `managers` is
false if a manager was not set. -/
structure Manager where
  managers : Bool
  tenantRecords : GoMap String Record
  kernel : Kernel

/-- Adds the entries of a peer. -/
def ensurePeerEntries (o : Outcomes) (ltr : Record) (remote : RemoteTenantInfra) : Command Unit :=
  match ltr.vtep, remote.subnet with
  | none, _ => throw .notVTEP
  | some _, none => throw .remoteInfoMissing
  | some lvtep, some subnet =>
    if remote.vtepIP = [] ∨ remote.vtepMAC = [] then throw .remoteInfoMissing
    else do
      ARP.add o.arpAdd lvtep remote.vtepIP remote.vtepMAC
      FDB.add o.fdbAdd lvtep remote.vtepMAC remote.nodeIP
      Route.update o.routeUpdate lvtep subnet remote.vtepIP

/-- Deletes the entries of a peer. -/
def removePeerEntries (o : Outcomes) (ltr : Record) (remote : RemoteTenantInfra) : Command Unit :=
  match ltr.vtep, remote.subnet with
  | none, _ => throw .notVTEP
  | some _, none => throw .remoteInfoMissing
  | some lvtep, some subnet =>
    if remote.vtepIP = [] ∨ remote.vtepMAC = [] then throw .remoteInfoMissing
    else do
      ARP.delete o.arpDelete lvtep remote.vtepIP
      FDB.delete o.fdbDelete lvtep remote.vtepMAC remote.nodeIP
      Route.delete o.routeDelete lvtep subnet remote.vtepIP

def cidrEqual : Option IPNet → Option IPNet → Bool
  | some a, some b => equalIP a.ip b.ip && a.mask == b.mask
  | none, none => true
  | _, _ => false

def ipEqual (a b : IP) : Bool :=
  if a = [] ∨ b = [] then decide (a = [] ∧ b = []) else equalIP a b

def macEqual (a b : HardwareAddr) : Bool :=
  if a = [] ∨ b = [] then decide (a = [] ∧ b = []) else a == b

def remotePeersEqual (a b : RemoteTenantInfra) : Bool :=
  if a.nodeName ≠ b.nodeName ∨ a.vni ≠ b.vni then false
  else if cidrEqual a.subnet b.subnet = false then false
  else if ipEqual a.nodeIP b.nodeIP = false ∨ ipEqual a.vtepIP b.vtepIP = false then false
  else if macEqual a.vtepMAC b.vtepMAC = false then false
  else true

namespace Manager

/-- Changes the peers of a tenant, if it has a record. -/
def modifyPeers (nm : Manager) (tenantID : String)
    (f : GoMap String RemoteTenantInfra → GoMap String RemoteTenantInfra) : Manager :=
  match nm.tenantRecords.lookup tenantID with
  | none => nm
  | some r =>
    { nm with tenantRecords := nm.tenantRecords.insert tenantID { r with peers := f r.peers } }

def getStoredPeer (nm : Manager) (tenantID remoteNode : String) : Option RemoteTenantInfra :=
  (nm.tenantRecords.lookup tenantID).bind fun r => r.peers.lookup remoteNode

/-- The stored peer of a node, and whether it is the desired one. -/
def lookupPeerState (nm : Manager) (tenantID remoteNode : String) (desired : RemoteTenantInfra) :
    Option RemoteTenantInfra × Bool :=
  match nm.getStoredPeer tenantID remoteNode with
  | none => (none, false)
  | some prev => (some prev, remotePeersEqual prev desired)

def storePeerState (nm : Manager) (tenantID : String) (remote : RemoteTenantInfra) : Manager :=
  nm.modifyPeers tenantID fun peers => peers.insert remote.nodeName remote

def deletePeerState (nm : Manager) (tenantID remoteNode : String) : Manager :=
  nm.modifyPeers tenantID fun peers => peers.erase remoteNode

/-- The end of `EnsurePeer`: adds the entries of the peer and stores it. -/
def addPeer (nm : Manager) (o : Outcomes) (tenantID : String) (ltr : Record)
    (remote : RemoteTenantInfra) : Except Error Unit × Manager :=
  match (ensurePeerEntries o ltr remote).run nm.kernel with
  | .error e kernel => (.error e, { nm with kernel := kernel })
  | .ok () kernel => (.ok (), storePeerState { nm with kernel := kernel } tenantID remote)

/-- Leads to a peer, unless the stored one is equal; the entries of a stored peer that is not equal
are deleted first. -/
def ensurePeer (nm : Manager) (o : Outcomes) (tenantID : String) (remote : RemoteTenantInfra) :
    Except Error Unit × Manager :=
  if remote.nodeName = "" then (.error .emptyNodeName, nm)
  else
    match nm.tenantRecords.lookup tenantID with
    | none => (.error (.tenantNotFound tenantID), nm)
    | some ltr =>
      if nm.managers = false then (.error .managersNotInitialized, nm)
      else
        match nm.lookupPeerState tenantID remote.nodeName remote with
        | (_, true) => (.ok (), nm)
        | (none, false) => nm.addPeer o tenantID ltr remote
        | (some prev, false) =>
          match (removePeerEntries o ltr prev).run nm.kernel with
          | .error e kernel => (.error (.cleanupPreviousPeer e), { nm with kernel := kernel })
          | .ok () kernel =>
            (deletePeerState { nm with kernel := kernel } tenantID prev.nodeName).addPeer o tenantID
              ltr remote

/-- Deletes the entries of the stored peer of a node and forgets it. -/
def removePeer (nm : Manager) (o : Outcomes) (tenantID : String) (remote : RemoteTenantInfra) :
    Except Error Unit × Manager :=
  if remote.nodeName = "" then (.error .emptyNodeName, nm)
  else
    match nm.tenantRecords.lookup tenantID with
    | none => (.ok (), nm)
    | some ltr =>
      if nm.managers = false then (.error .managersNotInitialized, nm)
      else
        match nm.getStoredPeer tenantID remote.nodeName with
        | none => (.ok (), nm)
        | some stored =>
          match (removePeerEntries o ltr stored).run nm.kernel with
          | .error e kernel => (.error e, { nm with kernel := kernel })
          | .ok () kernel =>
            (.ok (), deletePeerState { nm with kernel := kernel } tenantID stored.nodeName)

/-- Deletes the entries of peers one after the other, up to the first error. -/
def removeAll (o : String → Outcomes) (ltr : Record) : List RemoteTenantInfra → Command Unit
  | [] => pure ()
  | peer :: peers => do
    removePeerEntries (o peer.nodeName) ltr peer
    removeAll o ltr peers

/-- Forgets all peers of a tenant and deletes their entries. -/
def flushTenant (nm : Manager) (o : String → Outcomes) (tenantID : String) :
    Except Error Unit × Manager :=
  match nm.tenantRecords.lookup tenantID with
  | none => (.ok (), nm)
  | some ltr =>
    if nm.managers = false then (.error .managersNotInitialized, nm)
    else
      let peers := ltr.peers.entries.map fun e => e.2
      let nm := nm.modifyPeers tenantID fun _ => ∅
      match (removeAll o ltr peers).run nm.kernel with
      | .error e kernel => (.error e, { nm with kernel := kernel })
      | .ok () kernel => (.ok (), { nm with kernel := kernel })

/-- What `EnsureTenant` does to the records, and whether it told the operator; `created` says
whether all that is needed for a new tenant could be set up. -/
def ensureTenant (nm : Manager) (h : Device.Hashes) (created : Bool) (tenantID : String) :
    Bool × Manager :=
  if tenantID = "" ∨ (nm.tenantRecords.lookup tenantID).isSome ∨ created = false then (false, nm)
  else
    match Device.generateDeviceName h Device.vxlanPrefix tenantID with
    | .error _ => (false, nm)
    | .ok vtep =>
      (true, { nm with tenantRecords := nm.tenantRecords.insert tenantID ⟨some vtep, ∅⟩ })

end Manager

/-! ### Calls for a tenant -/

/-- A call for the tenant, with the outcomes of the calls of the managers in it. -/
inductive Call where
  | ensurePeer (remote : RemoteTenantInfra) (o : Outcomes)
  | removePeer (remote : RemoteTenantInfra) (o : Outcomes)
  | flushTenant (o : String → Outcomes)

def step (tenantID : String) (nm : Manager) : Call → Except Error Unit × Manager
  | .ensurePeer remote o => nm.ensurePeer o tenantID remote
  | .removePeer remote o => nm.removePeer o tenantID remote
  | .flushTenant o => nm.flushTenant o tenantID

end Peers
