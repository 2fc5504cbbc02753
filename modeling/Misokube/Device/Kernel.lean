import Misokube.Device.Model
import Misokube.Lib.Faults
import Misokube.Lib.Links

/-!
# Devices in the kernel

The netlink calls of the packages `device`, `device/bridge` and `device/vtep`, and of the backend
over them, in the order the code makes them.  The kernel has a namespace for the host and one for
each pod.  Its netlink operations, and `ip.SetupVeth` of the CNI plugins, are those of a
configuration: any that keep the laws.  A call may be refused as the kernel says, or meet a fault.
-/

namespace Device

namespace Kernel

open Net Links

/-- The links of a namespace. -/
abbrev Netns := Namespace IPNet IP

/-- The namespace of the host, and those of the pods by their paths. -/
structure State where
  host : Netns
  netns : GoMap String Netns

/-- The prefix of the names that are chosen for the interfaces of the host to the pods. -/
def vethPrefix : String := "veth"

/-- A pair of interfaces is made, one in the namespace of the pod and one in that of the host, under
names that were free; `up` says whether the one of the host is up. -/
def Paired (path ifName hostIface : String) (mtu : ℤ) (up : Bool) (k k' : State) : Prop :=
  ∃ ns i j up', k.netns.lookup path = some ns ∧ ns.link ifName = none ∧
    k.host.link hostIface = none ∧ ns.Fresh i ∧ k.host.Fresh j ∧
    k' = { host := k.host.add hostIface ⟨j, .veth path ifName, mtu, up, []⟩
           netns := k.netns.insert path (ns.add ifName ⟨i, .veth "" hostIface, mtu, up', []⟩) }

/-- `ip.SetupVeth` of the CNI plugins, and what is assumed of it.  It is given the digits it draws,
one after the other, for the name of the interface of the host, and the fault that a call of it
meets. -/
structure Pairs where
  setupVeth : Option Errno → List String → String → String → ℤ → State → Except Errno String × State
  /-- It returns the name it has chosen; the interface of the host is up. -/
  setupVeth_ok : ∀ {fault suffixes path ifName mtu k hostIface k'},
    setupVeth fault suffixes path ifName mtu k = (.ok hostIface, k') →
    (∃ suffix ∈ suffixes, hostIface = vethPrefix ++ suffix) ∧
      Paired path ifName hostIface mtu true k k'
  /-- When it fails for another reason than a fault it has made nothing; after a fault the pair may
  be left. -/
  setupVeth_error : ∀ {fault suffixes path ifName mtu k e k'},
    setupVeth fault suffixes path ifName mtu k = (.error e, k') →
    k' = k ∨ fault ≠ none ∧ ∃ suffix ∈ suffixes, ∃ up,
      Paired path ifName (vethPrefix ++ suffix) mtu up k k'

/-- The gateway is a host in the subnet of the address: neither its network nor its broadcast
address. -/
def IsHost (a : IPNet) (gateway : IP) : Prop :=
  gateway.length = 4 ∧ base a < toNat gateway ∧ toNat gateway + 1 < base a + size a

instance (a : IPNet) (gateway : IP) : Decidable (IsHost a gateway) :=
  inferInstanceAs (Decidable (_ ∧ _ ∧ _))

/-- The kernel, and the faults of the calls to come. -/
abbrev System := Faulty Errno State

/-- The errors of the operations; `wrap` is an error with a context, and `panicked` a call that does
not return. -/
inductive Error where
  | errno (err : Errno)
  | wrap (context : String) (err : Error)
  | device (err : Device.Error)
  | notBridge (name : String)
  | notVxlan (name : String)
  | invalid (reason : String)
  | panicked
deriving DecidableEq

abbrev Command := EStateM Error System

/-- What is not decided by the program: the hash functions, the kernel, the library that makes pairs
of interfaces, and the destination that is reported for a default route. -/
structure Config where
  hashes : Hashes
  netlink : Netlink IPNet IP
  lawful : netlink.Lawful IsHost fun a gateway => a.ip = gateway
  pairs : Pairs
  defaultDst : Option IPNet

/-! ### Calls -/

/-- The namespace a call is made in. -/
inductive Scope where
  | host
  | pod (path : String)
deriving DecidableEq

namespace State

def get (k : State) : Scope → Option Netns
  | .host => some k.host
  | .pod path => k.netns.lookup path

def set (k : State) : Scope → Netns → State
  | .host, ns => { k with host := ns }
  | .pod path, ns => { k with netns := k.netns.insert path ns }

/-- An operation in a namespace, if it is there. -/
def perform {β : Type} (scope : Scope) (op : Operation IPNet IP β) (k : State) :
    Except Errno (β × State) :=
  match k.get scope with
  | none => .error (.other "unknown network namespace")
  | some ns =>
    match op ns with
    | .error e => .error e
    | .ok (b, ns) => .ok (b, k.set scope ns)

end State

/-- A netlink call, with its error as a value. -/
def netlink {β : Type} (scope : Scope) (op : Operation IPNet IP β) : Command (Except Errno β) :=
  Faulty.call (State.perform scope op)

/-- Fails with the error of a call, and the context. -/
def check {β : Type} (context : String) : Except Errno β → Command β
  | .ok b => pure b
  | .error e => throw (.wrap context (.errno e))

/-- A netlink call whose error is returned, with a context. -/
def must {β : Type} (context : String) (scope : Scope) (op : Operation IPNet IP β) : Command β := do
  check context (← netlink scope op)

/-- Adds a context to the error; a panic has none. -/
def wrap {β : Type} (context : String) (x : Command β) : Command β :=
  tryCatch x fun e => throw (if e = .panicked then e else .wrap context e)

/-- The value or the error of a computation without calls. -/
def pureOr {β : Type} : Except Device.Error β → Command β
  | .ok b => pure b
  | .error e => throw (.device e)

/-- The text occurs in the message. -/
def mentions (message text : String) : Bool :=
  decide (text.toList <:+: message.toList)

/-- `strings.ToLower` of the message. -/
def lower (e : Errno) : String :=
  String.ofList (e.message.toList.map Char.toLower)

def isLinkNotFound (e : Errno) : Bool :=
  mentions (lower e) "not found" || mentions (lower e) "no such device"
    || mentions (lower e) "does not exist"

def isAddrNotFound (e : Errno) : Bool :=
  mentions (lower e) "not found" || mentions (lower e) "cannot assign requested address"

/-! ### Bridges -/

/-- Deletes an address; an error that says that it is gone is ignored. -/
def delAddr (cfg : Config) (scope : Scope) (name : String) (ignored : Errno → Bool) (a : IPNet) :
    Command Unit := do
  match ← netlink scope (cfg.netlink.addrDel name a) with
  | .ok () => pure ()
  | .error e => if ignored e then pure () else throw (.errno e)

/-- Deletes the addresses of a link. -/
def flushAddrs (cfg : Config) (scope : Scope) (name : String) (ignored : Errno → Bool) :
    Command Unit := do
  match ← netlink scope (addrList name) with
  | .error e => throw (.errno e)
  | .ok addrs => addrs.forM (delAddr cfg scope name ignored)

def flushIPv4Addrs (cfg : Config) (name : String) : Command Unit :=
  flushAddrs cfg .host name isAddrNotFound

/-- The bridge of the name, which is made if there is no link of the name. -/
def bridgeByName (cfg : Config) (name : String) : Command (Link IPNet × Attrs) := do
  match ← netlink .host (cfg.netlink.linkByName name) with
  | .ok l => if l.1.kind = .bridge then pure l else throw (.notBridge name)
  | .error e =>
    if isLinkNotFound e then do
      must "link add" .host (cfg.netlink.linkAdd name .bridge none 0)
      must "link lookup after add" .host (cfg.netlink.linkByName name)
    else throw (.wrap "lookup" (.errno e))

/-- A bridge of the name with the first address of the subnet.  One that is there keeps the
addresses it has. -/
def ensureBridge (cfg : Config) (name : String) (subnet : IPNet) :
    Command ((Link IPNet × Attrs) × IPNet) := do
  let l ← bridgeByName cfg name
  let ipn ← pureOr (firstIP subnet)
  must "addr replace" .host (cfg.netlink.addrReplace name ipn)
  must "link up" .host (cfg.netlink.linkSetUp name)
  return (l, ipn)

def setupBridge (cfg : Config) (id : String) (subnet : IPNet) :
    Command (String × (Link IPNet × Attrs) × IPNet) := do
  let brName ← wrap "generate bridge name" (pureOr (generateDeviceName cfg.hashes brPrefix id))
  let r ← wrap "ensure bridge" (ensureBridge cfg brName subnet)
  return (brName, r)

/-- `bridge.Manager.Create`.  What is recorded is the hardware address the bridge reports then. -/
def createBridge (cfg : Config) (tenantID : String) (subnet : IPNet) : Command Bridge := do
  let (name, link, ip) ← setupBridge cfg tenantID subnet
  return ⟨name, ip, link.2.mac⟩

/-- Moves a bridge to the first address of the subnet, which is its only address then. -/
def updateBridgeIP (cfg : Config) (d : Option Bridge) (subnet : IPNet) : Command Unit := do
  match d with
  | none => throw (.device .nilDevice)
  | some br =>
    let ipNet ← wrap "compute bridge IP" (pureOr (firstIP subnet))
    let _ ← must "get link by name" .host (cfg.netlink.linkByName br.name)
    wrap "flush bridge addresses" (flushIPv4Addrs cfg br.name)
    must "replace bridge address" .host (cfg.netlink.addrReplace br.name ipNet)
    must "set link up" .host (cfg.netlink.linkSetUp br.name)

def deleteBridge (cfg : Config) (d : Option Bridge) : Command Unit := do
  match d with
  | none => throw (.device .nilDevice)
  | some br =>
    let _ ← must "get link by name" .host (cfg.netlink.linkByName br.name)
    must "delete bridge link" .host (cfg.netlink.linkDel br.name)

/-! ### VTEPs -/

def vxlanPort : ℕ := 8472

def encapOverhead : ℤ := 50

/-- The link of the default route, with what it reports. -/
def defaultGateway (cfg : Config) : Operation IPNet IP (String × Link IPNet × Attrs) := fun ns =>
  match ns.route with
  | none => .error (.other "unable to find default route")
  | some (name, _) =>
    match ns.link name with
    | none => .error (.other "found default route but could not determine interface")
    | some l => .ok ((name, l, cfg.netlink.attrs ns name), ns)

/-- A VXLAN link of the name, over the device of the index.  One that is there is taken over as it
is. -/
def ensureVxLan (cfg : Config) (name : String) (vni : ℕ) (mac : List UInt8) (dev : ℕ) (mtu : ℤ) :
    Command (Link IPNet × Attrs) := do
  match ← netlink .host (cfg.netlink.linkByName name) with
  | .ok l =>
    match l.1.kind with
    | .vxlan _ _ _ => pure l
    | _ => throw (.notVxlan name)
  | .error e =>
    if mentions e.message "Link not found" then do
      must "LinkAdd error" .host
        (cfg.netlink.linkAdd name (.vxlan vni vxlanPort mac) (some dev) mtu)
      must "LinkByName error" .host (cfg.netlink.linkByName name)
    else throw (.wrap "get link" (.errno e))

/-- The source address of the tunnel is the first one of the interface of the default route; the
code does not expect that there is none. -/
def newVxlanDevice (cfg : Config) (vtepName : String) (vni : ℕ) (vtepMac : List UInt8) :
    Command (Link IPNet × Attrs) := do
  let (gateway, l, attrs) ← must "getDefaultDefaultGatewayInterface" .host (defaultGateway cfg)
  let localhosts ← must "get addresses for gateway interface" .host (addrList gateway)
  if localhosts = [] then throw .panicked
  else ensureVxLan cfg vtepName vni vtepMac l.index (attrs.mtu - encapOverhead)

/-- The address of a VTEP: the network address of the subnet, with a mask of 32 ones. -/
def vtepAddr (subnet : IPNet) : IPNet :=
  ⟨(hostIP subnet).ip, cidrMask 32 32⟩

/-- Gives a link an address, if it has none. -/
def addFirstAddr (cfg : Config) (name : String) (existingAddrs : List IPNet) (a : IPNet) :
    Command Unit :=
  if existingAddrs = [] then must "add address" .host (cfg.netlink.addrAdd name a) else pure ()

/-- A VXLAN link for the tenant.  One that is there keeps the addresses it has. -/
def setupVxlan (cfg : Config) (subnet : IPNet) (id nodeName : String) :
    Command (String × (Link IPNet × Attrs) × IPNet) := do
  let vtepName ← wrap "generate VTEP name" (pureOr (generateDeviceName cfg.hashes vxlanPrefix id))
  let vxlanLink ← wrap "create vxlan device"
    (newVxlanDevice cfg vtepName (vni cfg.hashes id) (vtepMAC cfg.hashes id nodeName))
  let existingAddrs ← must "get existing addresses" .host (addrList vtepName)
  addFirstAddr cfg vtepName existingAddrs (vtepAddr subnet)
  must "set vxlan device up" .host (cfg.netlink.linkSetUp vtepName)
  return (vtepName, vxlanLink, vtepAddr subnet)

/-- `vtep.Manager.Create`. -/
def createVTEP (cfg : Config) (tenantID : String) (subnet : IPNet) (nodeName : String) :
    Command VTEP := do
  let (name, link, ip) ← setupVxlan cfg subnet tenantID nodeName
  match link.1.kind with
  | .vxlan id _ _ => return ⟨name, ip, link.2.mac, id⟩
  | _ => throw .panicked

/-- Sets the MTU of a VTEP again, whether this succeeds or not. -/
def refreshMTU (cfg : Config) (name : String) : Command Unit := do
  match ← netlink .host (defaultGateway cfg) with
  | .ok (_, _, gw) =>
    discard (netlink .host (cfg.netlink.linkSetMTU name (gw.mtu - encapOverhead)))
  | .error _ => pure ()

/-- Adds the address of another subnet to a VTEP, which keeps the addresses it has. -/
def updateIP (cfg : Config) (dv : Option VTEP) (subnet : IPNet) : Command IPNet := do
  match dv with
  | none => throw (.device .nilDevice)
  | some vt =>
    let l ← must "UpdateIP: link" .host (cfg.netlink.linkByName vt.name)
    match l.1.kind with
    | .vxlan _ _ _ =>
      refreshMTU cfg vt.name
      must "UpdateIP: AddrReplace" .host (cfg.netlink.addrReplace vt.name (vtepAddr subnet))
      must "UpdateIP: LinkSetUp" .host (cfg.netlink.linkSetUp vt.name)
      return vtepAddr subnet
    | _ => throw (.notVxlan vt.name)

/-- A VTEP that is not there counts as deleted. -/
def deleteVTEP (cfg : Config) (dv : Option VTEP) : Command Unit := do
  match dv with
  | none => throw (.device .nilDevice)
  | some vt =>
    match ← netlink .host (cfg.netlink.linkByName vt.name) with
    | .error e =>
      if mentions e.message "Link not found" then pure ()
      else throw (.wrap "Delete: link" (.errno e))
    | .ok _ => must "Delete: LinkDel" .host (cfg.netlink.linkDel vt.name)

/-! ### Interfaces of pods -/

/-- A call whose error is returned, unless it says that something is there already. -/
def mustUnlessExists (context : String) (scope : Scope) (op : Operation IPNet IP Unit) :
    Command Unit := do
  match ← netlink scope op with
  | .ok () => pure ()
  | .error e => if e = .fileExists then pure () else throw (.wrap context (.errno e))

/-- The interface of the pod has not the address yet; it is taken not to have it if its addresses
cannot be listed. -/
def needsAddr (path ifName : String) (want : IPNet) : Command Bool := do
  match ← netlink (.pod path) (addrList ifName) with
  | .error _ => return true
  | .ok addrs => return !addrs.any fun a => equalIP a.ip want.ip && a.mask == want.mask

def addMissingAddr (cfg : Config) (path ifName : String) (podIPNet : IPNet) (needed : Bool) :
    Command Unit :=
  if needed then mustUnlessExists "add addr" (.pod path) (cfg.netlink.addrAdd ifName podIPNet)
  else pure ()

def maxIfNameLen : ℕ := 15

/-- What is wrong with the arguments of `SetupVeth`, in the order of its checks. -/
def vethArgs (netnsPath bridgeName : String) (mtu : ℤ) (ifName : String) (podIPNet : IPNet)
    (gateway : IP) : Option String :=
  if netnsPath = "" then some "empty netnsPath"
  else if bridgeName = "" then some "empty bridgeName"
  else if ifName = "" then some "empty ifName"
  else if maxIfNameLen < ifName.utf8ByteSize then some "ifName longer than 15 chars"
  else if podIPNet.ip = [] ∨ podIPNet.mask = [] then some "invalid podIPNet"
  else if to4 podIPNet.ip = [] then some "only IPv4 supported"
  else if to4 gateway = [] then some "invalid gateway"
  else if contains podIPNet gateway = false then some "gateway not in pod subnet"
  else if mtu ≤ 0 then some "invalid MTU"
  else none

/-- The pair of interfaces, the other end of which has a name that is chosen. -/
def makePair (cfg : Config) (path : String) (mtu : ℤ) (ifName : String) (suffixes : List String) :
    Command String := do
  check "setup veth pair"
    (← Faulty.request fun fault => cfg.pairs.setupVeth fault suffixes path ifName mtu)

/-- The address, MTU and default route of the interface of a pod. -/
def configureContainer (cfg : Config) (path : String) (mtu : ℤ) (ifName : String) (podIPNet : IPNet)
    (gateway : IP) : Command Unit := do
  let _ ← must "lookup container link" (.pod path) (cfg.netlink.linkByName ifName)
  addMissingAddr cfg path ifName podIPNet (← needsAddr path ifName podIPNet)
  must "set MTU" (.pod path) (cfg.netlink.linkSetMTU ifName mtu)
  must "link up container veth" (.pod path) (cfg.netlink.linkSetUp ifName)
  mustUnlessExists "add default route" (.pod path) (cfg.netlink.routeAdd ifName gateway)

/-- Attaches the interface of the host to the bridge. -/
def attachHost (cfg : Config) (hostIface : String) (mtu : ℤ) (bridge : ℕ) : Command Unit := do
  let _ ← must "lookup host veth" .host (cfg.netlink.linkByName hostIface)
  must "set host veth MTU" .host (cfg.netlink.linkSetMTU hostIface mtu)
  must "attach to bridge" .host (cfg.netlink.linkSetMaster hostIface bridge)
  must "bring host veth up" .host (cfg.netlink.linkSetUp hostIface)

/-- The interface of a pod, with an address and a default route, attached to a bridge; `suffixes`
are the digits that are drawn for the name of the other end. -/
def setupVeth (cfg : Config) (netnsPath bridgeName : String) (mtu : ℤ) (ifName : String)
    (podIPNet : IPNet) (gateway : IP) (suffixes : List String) : Command Unit := do
  match vethArgs netnsPath bridgeName mtu ifName podIPNet gateway with
  | some reason => throw (.invalid reason)
  | none =>
    let brLink ← must "lookup bridge" .host (cfg.netlink.linkByName bridgeName)
    must "open netns" (.pod netnsPath) fun ns => .ok ((), ns)
    let hostIface ← makePair cfg netnsPath mtu ifName suffixes
    configureContainer cfg netnsPath mtu ifName podIPNet gateway
    attachHost cfg hostIface mtu brLink.1.index

/-! ### The backend -/

/-- A computation with its error as a value; a panic is not caught. -/
def attempt {β : Type} (x : Command β) : Command (Except Error β) :=
  tryCatch (Except.ok <$> x) fun e => if e = .panicked then throw e else pure (.error e)

/-- `bv_backend.Create`. -/
def create (cfg : Config) (be : Backend) (tenantID : String) (subnet : IPNet) (host : String) :
    Command Backend := do
  let br ← createBridge cfg tenantID subnet
  match ← attempt (createVTEP cfg tenantID subnet host) with
  | .error e =>
    deleteBridge cfg (some br)
    throw e
  | .ok vt => return { be with bridge := some br, vtep := some vt }

/-- `bv_backend.Update`, with the backend after it. -/
def update (cfg : Config) (be : Backend) (subnet : IPNet) :
    Command (Except Error Unit × Backend) := do
  match ← attempt (updateBridgeIP cfg be.bridge subnet) with
  | .error e => return (.error e, be)
  | .ok () =>
    -- the record of the bridge gets the address, that of the VTEP does not
    let ip := (firstIP subnet).toOption
    let be := { be with bridge := be.bridge.map fun br => { br with ip := ip.getD br.ip } }
    if be.managers = false then return (.error .panicked, be)
    match ← attempt (updateIP cfg be.vtep subnet) with
    | .error e => return (.error e, be)
    | .ok _ => return (.ok (), be)

/-- `bv_backend.Delete`, with the backend after it. -/
def delete (cfg : Config) (be : Backend) : Command (Except Error Unit × Backend) := do
  if be.managers = false then return (.error .panicked, be)
  match ← attempt (deleteVTEP cfg be.vtep) with
  | .error e => return (.error e, be)
  | .ok () =>
    match ← attempt (deleteBridge cfg be.bridge) with
    | .error e => return (.error e, be)
    | .ok () => return (.ok (), ⟨false, none, none⟩)

end Kernel

end Device
