import Misokube.Api.Types
import Misokube.Device.Model
import Misokube.Net.Text
import Misokube.Nmanager.Peers

/-!
# The operator of a daemon

The event handlers of `internal/daemon`, which turn events of the informers into work items, and
the functions that process the items and send commands to the dispatcher.  A function that
processes an item returns whether it succeeded and the commands it sent.  The functions of Go's
package `net` that parse addresses are parameters; `goParsers` are those of `Net`.
-/

namespace Daemon

open Net Api Peers

/-- What is known of the parsers of Go's package `net`: an address is parsed to its 16-byte form,
and the address and mask of a network have the same length. -/
structure Parsers where
  parseCIDR : String → Option IPNet
  parseIP : String → Option IP
  parseMAC : String → Option HardwareAddr
  length_cidr : ∀ {s n}, parseCIDR s = some n → n.ip.length = n.mask.length
  length_ip : ∀ {s ip}, parseIP s = some ip → ip.length = 16
  mac_ne_nil : ∀ {s mac}, parseMAC s = some mac → mac ≠ []

/-- The parsers of Go's package `net`. -/
def goParsers : Parsers where
  parseCIDR := parseCIDR
  parseIP := parseIP
  parseMAC := parseMAC
  length_cidr := length_parseCIDR
  length_ip := length_parseIP
  mac_ne_nil := parseMAC_ne_nil

/-- The errors of the functions that process items. -/
inductive Error where
  | notFound
  | snapshotEmpty
  | emptyTenantStatus (node : String)
  | missingCIDR (tenant : String)
  | parseTenantCIDR
  | invalidVtepIP
  | invalidNodeIP
  | parseVtepMAC
  | updateStatus
deriving DecidableEq

/-- Which calls of the API succeed. -/
structure StatusOutcomes where
  get : Bool
  updateStatus : Bool

/-- The kinds of the events. -/
inductive Event where
  | add
  | update
  | delete
deriving DecidableEq

/-- Where events come from. -/
inductive Source where
  | tenantCRD
  | nodeStoreCRD
  | networkManager
deriving DecidableEq

/-- Items of one resource differ in where the event comes from and in its kind. -/
structure WorkItem where
  source : Source
  event : Event
deriving DecidableEq

/-- The commands of the dispatcher. -/
inductive Command where
  | ensureTenant (tenantID : String)
  | removeTenant (tenantID : String)
  | ensurePeer (remote : RemoteTenantInfra) (tenantID : String)
  | removePeer (remote : RemoteTenantInfra) (tenantID : String)
  | ensureDefaultProxy (tenantID : String) (remote : RemoteTenantInfra)
deriving DecidableEq

namespace Command

/-- The tenant a command is for. -/
def tenantID : Command → String
  | .ensureTenant t => t
  | .removeTenant t => t
  | .ensurePeer _ t => t
  | .removePeer _ t => t
  | .ensureDefaultProxy t _ => t

/-- The adapter of the dispatcher drops commands for the empty name. -/
def send (c : Command) : List Command :=
  if c.tenantID = "" then [] else [c]

theorem send_of_ne {c : Command} (h : c.tenantID ≠ "") :
  c.send = [c]
  := if_neg h

end Command

/-! ### Events of tenants -/

def tenantAwaitingContains (t : Tenant) (node : String) : Bool :=
  t.awaitingNodeConfiguration.contains node

def tenantAssignedContains (t : Tenant) (node : String) : Bool :=
  t.assignedNodes.any fun n => n.name == node

def addEventTenantHandler (nodeName : String) (t : Tenant) : Option Event :=
  if nodeName = "" then none
  else if tenantAwaitingContains t nodeName then some .add
  else none

def updateEventTenantHandler (_newT : Tenant) : Option Event :=
  some .update

def deleteEventTenantHandler (_t : Tenant) : Option Event :=
  some .delete

def reconcileTenantSourceAdd (name : String) : Except Error Unit × List Command :=
  (.ok (), (Command.ensureTenant name).send)

/-- The commands for the nodes that have a tenant this node does not have; the bytes of the
hardware address are those of its text. -/
def defaultProxies (p : Parsers) (nodeName name : String) : List NodeInfo → List Command
  | [] => []
  | n :: rest =>
    if n.name = nodeName then defaultProxies p nodeName name rest
    else
      match p.parseCIDR n.tenantCIDR with
      | none => defaultProxies p nodeName name rest
      | some pCIDR =>
        (Command.ensureDefaultProxy name
          ⟨n.name, [], (p.parseIP n.vtepIP).getD [], Device.bytes n.vtepMAC, some pCIDR, 0⟩).send
          ++ defaultProxies p nodeName name rest

def reconcileTenantSourceUpdate (p : Parsers) (nodeName name : String) (lister : Option Tenant) :
    Except Error Unit × List Command :=
  match lister with
  | none => (.error .notFound, [])
  | some tenant =>
    if nodeName = "" then (.ok (), [])
    else if tenantAssignedContains tenant nodeName then (.ok (), [])
    else if tenantAwaitingContains tenant nodeName then
      (.ok (), (Command.ensureTenant name).send)
    else (.ok (), defaultProxies p nodeName name tenant.assignedNodes)

def reconcileTenantDelete (name : String) : Except Error Unit × List Command :=
  (.ok (), (Command.removeTenant name).send)

/-! ### Events of nodes -/

/-- The reports are equal in what peers use, and in the names and addresses of the bridge. -/
def equalInfraForPeers (a b : TenantInfra) : Bool :=
  a.tenantCIDR == b.tenantCIDR && a.vni == b.vni && a.vtepName == b.vtepName
    && a.vtepIP == b.vtepIP && a.vtepMAC == b.vtepMAC && a.bridgeName == b.bridgeName
    && a.bridgeIP == b.bridgeIP && a.bridgeMAC == b.bridgeMAC

/-- The maps have the same tenants, with equal reports apart from the pods. -/
def equalTenantInfraForPeers (a b : GoMap String TenantInfra) : Bool :=
  if a.entries.length ≠ b.entries.length then false
  else
    a.entries.all fun e =>
      match b.lookup e.1 with
      | none => false
      | some newInfo => equalInfraForPeers e.2 newInfo

def addNodestoreEventHandler (nodeName : String) (nodeStore : NodeStore) : Option WorkItem :=
  if nodeStore.specName = nodeName then some ⟨.nodeStoreCRD, .add⟩
  else some ⟨.nodeStoreCRD, .update⟩

def updateNodestoreEventHandler (nodeName : String) (oldNS newNS : NodeStore) : Option WorkItem :=
  if newNS.specName = nodeName then none
  else if equalTenantInfraForPeers oldNS.tenants newNS.tenants then none
  else some ⟨.nodeStoreCRD, .update⟩

def buildRemoteTenantInfra (p : Parsers) (ns : NodeStore) (info : TenantInfra) :
    Except Error RemoteTenantInfra :=
  if info.tenantCIDR = "" then .error (.missingCIDR info.name)
  else
    match p.parseCIDR info.tenantCIDR with
    | none => .error .parseTenantCIDR
    | some subnet =>
      match p.parseIP info.vtepIP with
      | none => .error .invalidVtepIP
      | some vtepIP =>
        match p.parseIP ns.nodeIP with
        | none => .error .invalidNodeIP
        | some nodeIP =>
          match p.parseMAC info.vtepMAC with
          | none => .error .parseVtepMAC
          | some mac =>
            .ok ⟨ns.specName, nodeIP, vtepIP, mac, some subnet,
              UInt32.ofNat (info.vni % 2 ^ 32).toNat⟩

/-- Leads to the node for each of its tenants that is there locally, up to the first report that
is not valid. -/
def ensurePeers (p : Parsers) (ns : NodeStore) (localSnaps : List String) :
    List ((_ : String) × TenantInfra) → Except Error Unit × List Command
  | [] => (.ok (), [])
  | ⟨tenantID, remoteInfo⟩ :: rest =>
    match buildRemoteTenantInfra p ns remoteInfo with
    | .error e => (.error e, [])
    | .ok remotePeer =>
      let cmds :=
        if tenantID ∈ localSnaps then (Command.ensurePeer remotePeer tenantID).send else []
      ((ensurePeers p ns localSnaps rest).1, cmds ++ (ensurePeers p ns localSnaps rest).2)

/-- Forgets the node for the local tenants it does not report. -/
def removePeers (ns : NodeStore) (localSnaps : List String) : List Command :=
  localSnaps.flatMap fun tenantID =>
    if (ns.tenants.lookup tenantID).isSome then []
    else (Command.removePeer ⟨ns.specName, [], [], [], none, 0⟩ tenantID).send

/-- Syncs the peers of the local tenants with what a node reports. -/
def reconcileNodeStoreUpdate (p : Parsers) (nodeName : String) (ns : NodeStore)
    (localSnaps : List String) : Except Error Unit × List Command :=
  if ns.specName = nodeName then (.ok (), [])
  else if localSnaps = [] then (.error .snapshotEmpty, [])
  else if ns.tenants.entries = [] then (.error (.emptyTenantStatus ns.specName), [])
  else
    match ensurePeers p ns localSnaps ns.tenants.entries with
    | (.error e, cmds) => (.error e, cmds)
    | (.ok (), cmds) => (.ok (), cmds ++ removePeers ns localSnaps)

end Daemon
