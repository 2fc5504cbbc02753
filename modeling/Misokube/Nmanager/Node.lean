import Misokube.Device.Kernel
import Misokube.Nmanager.Model

/-!
# A node: the network manager over the kernel

The operations of `internal/nmanager` with the netlink calls they make, and the requests to the
tenant actors.  The policy manager answers as it is given; so are the order in which a loop visits
the allocations of an IPAM and the names that are drawn for an interface of the host.  Namespaces of
pods come and go.  A call may meet a fault, whatever the operation.
-/

namespace Nmanager

open Net Device Links

namespace Node

open Device.Kernel (State Scope Config Command netlink must wrap attempt flushAddrs mentions lower)

/-- The error of a device operation without its context. -/
def cause : Kernel.Error → Device.Error
  | .device err => err
  | .wrap _ err => cause err
  | .panicked => .nilManager
  | _ => .netlink

/-! ### Tenants -/

/-- Stores the record of a new tenant, and its actor. -/
def commit (nm : NetworkManager) (tenantID : String) (r : TenantRecord) : NetworkManager :=
  let nm := nm.put tenantID r
  if (nm.tenantActors.lookup tenantID).isSome then nm
  else { nm with tenantActors := nm.tenantActors.insert tenantID ⟨tenantID⟩ }

/-- The part of `EnsureTenant` after the devices are made. -/
def finishTenant (cfg : Config) (policy : PolicyCall → Bool) (nm : NetworkManager)
    (tenantID : String) (subnetNet : IPNet) (be : Backend) :
    Command (Except Error Unit × NetworkManager) := do
  if policy (nm.policyCall tenantID be) = false then
    let _ ← Kernel.delete cfg be
    return (.error (.policy (nm.policyCall tenantID be)), nm.deallocateSubnet tenantID)
  else
    match Ipam.newBitmapIPAM (some subnetNet) with
    | .error e =>
      let _ ← Kernel.delete cfg be
      return (.error (.ipamCreate e), nm.deallocateSubnet tenantID)
    | .ok ipm =>
      if (nm.tenantRecords.lookup tenantID).isSome then
        let _ ← Kernel.delete cfg be
        return (.ok (), nm.deallocateSubnet tenantID)
      else return (.ok (), commit nm tenantID ⟨subnetNet, be, ipm, .ready⟩)

/-- `EnsureTenant`. -/
def ensureTenant (cfg : Config) (policy : PolicyCall → Bool) (nm : NetworkManager)
    (tenantID : String) : Command (Except Error Unit × NetworkManager) := do
  if tenantID = "" then return (.error .emptyTenantID, nm)
  else if (nm.tenantRecords.lookup tenantID).isSome then return (.ok (), nm)
  else
    match nm.subnet.allocate tenantID with
    | (.error e, subnet) =>
      return (.error (.allocateSubnet tenantID e), { nm with subnet := subnet })
    | (.ok subnetNet, subnet) =>
      let nm := { nm with subnet := subnet }
      match ← attempt (Kernel.create cfg newBridgeVTEPBackend tenantID subnetNet nm.nodeName) with
      | .error e => return (.error (.backendCreate (cause e)), nm.deallocateSubnet tenantID)
      | .ok be => finishTenant cfg policy nm tenantID subnetNet be

/-- `RemoveTenant`. -/
def removeTenant (cfg : Config) (nm : NetworkManager) (tenantID : String) :
    Command (Except Error Unit × NetworkManager) := do
  if tenantID = "" then return (.error .emptyTenantID, nm)
  else
    match nm.tenantRecords.lookup tenantID with
    | none => return (.ok (), nm)
    | some r =>
      let nm := nm.put tenantID { r with state := .closing }
      match ← Kernel.delete cfg r.backend with
      | (.error .panicked, _) => return (.error .panicked, nm)
      | _ =>
        let nm := nm.deallocateSubnet tenantID
        return (.ok (), { nm with
          tenantActors := nm.tenantActors.erase tenantID
          tenantRecords := nm.tenantRecords.erase tenantID })

/-- `ExpandTenant`. -/
def expandTenant (cfg : Config) (nm : NetworkManager) (id : String) :
    Command (Except Error TenantRecord × NetworkManager) := do
  match nm.tenantRecords.lookup id with
  | none => return (.error (.noTenantRecord id), nm)
  | some r =>
    match nm.subnet.expand id with
    | (.error e, subnet) => return (.error (.subnetExpand e), { nm with subnet := subnet })
    | (.ok newNet, subnet) =>
      let nm := { nm with subnet := subnet }
      match ← Kernel.update cfg r.backend newNet with
      | (.error e, be) =>
        return (.error (.backendUpdate (cause e)), nm.put id { r with backend := be })
      | (.ok (), be) =>
        let r := { r with backend := be }
        match r.ipam.expand (some newNet) with
        | (.error e, ipam) => return (.error (.ipamExpand e), nm.put id { r with ipam := ipam })
        | (.ok (), ipam) =>
          let r := { r with ipam := ipam, subnet := newNet }
          return (.ok r, nm.put id r)

/-! ### Pods -/

/-- `EnsurePod`; `suffixes` are the digits that are drawn for the name of the host's interface. -/
def ensurePod (cfg : Config) (suffixes : List String) (nm : NetworkManager) (tenantID : String)
    (args : PodAttachArgs) : Command (Except Error PodAttachment × NetworkManager) := do
  match nm.tenantRecords.lookup tenantID with
  | none => return (.error .tenantActorNotFound, nm)
  | some r =>
    if r.state = .closing then return (.error .tenantClosing, nm)
    else
      let key := podKey args.namespaceName args.podName
      match r.ipam.allocate key args.containerID args.ifName args.netNS with
      | (.error e, ipam) => return (.error (.ipam e), nm.put tenantID { r with ipam := ipam })
      | (.ok ci, ipam) =>
        let r := { r with ipam := ipam }
        let nm := nm.put tenantID r
        match r.backend.bridge with
        | none => return (.error (.bridgeNotFound tenantID), nm)
        | some br =>
          let podIPNet := ⟨ci.ip, r.subnet.mask⟩
          match ← attempt (Kernel.setupVeth cfg args.netNS br.name 1500 args.ifName podIPNet
              br.ip.ip suffixes) with
          | .ok () => return (.ok ⟨podIPNet, br.ip.ip, args.ifName⟩, nm)
          | .error _ =>
            return (.error .setupVeth, nm.put tenantID { r with ipam := (r.ipam.free ci.ip).2 })

def isNetlinkNotFound (e : Errno) : Bool :=
  mentions (lower e) "not found" || mentions (lower e) "no such process"
    || mentions (lower e) "cannot assign requested address"

def flushLinkIPv4Addrs (cfg : Config) (path name : String) : Command Unit :=
  flushAddrs cfg (.pod path) name isNetlinkNotFound

/-- Deletes a default route; an error that says that it is gone is ignored. -/
def delRoute (cfg : Config) (path name : String) (gateway : IP) : Command Unit := do
  match ← netlink (.pod path) (cfg.netlink.routeDel name gateway) with
  | .ok () => pure ()
  | .error e =>
    if isNetlinkNotFound e then pure () else throw (.wrap "delete default route" (.errno e))

/-- Deletes the routes through the link that are listed without a destination; routes that cannot be
listed are left. -/
def delRoutes (cfg : Config) (path name : String) : Except Errno (List IP) → Command Unit
  | .error _ => pure ()
  | .ok gateways =>
      if cfg.defaultDst = none then gateways.forM (delRoute cfg path name) else pure ()

def replaceDefaultRoute (cfg : Config) (path name : String) (gw : IP) : Command Unit := do
  delRoutes cfg path name (← netlink (.pod path) (routeList name))
  must "route replace" (.pod path) (cfg.netlink.routeReplace name gw)

/-- The part of `UpdatePod` in the namespace of the pod. -/
def updateLink (cfg : Config) (path name : String) (podIPNet : IPNet) (gateway : IP) :
    Command Unit := do
  must "open netns" (.pod path) fun ns => .ok ((), ns)
  let _ ← must "lookup pod iface" (.pod path) (cfg.netlink.linkByName name)
  wrap "flush pod iface addresses" (flushLinkIPv4Addrs cfg path name)
  must "set mtu" (.pod path) (cfg.netlink.linkSetMTU name 1500)
  must "replace addr" (.pod path) (cfg.netlink.addrReplace name podIPNet)
  must "link up" (.pod path) (cfg.netlink.linkSetUp name)
  replaceDefaultRoute cfg path name gateway

/-- The errors of `UpdatePod`. -/
inductive UpdateError where
  | manager (err : Error)
  | allocationNotFound (key : String)
  | kernel (err : Kernel.Error)

/-- `UpdatePod`. -/
def updatePod (cfg : Config) (nm : NetworkManager) (tenantID : String) (args : PodAttachArgs) :
    Command (Except UpdateError Unit) := do
  match nm.tenantRecords.lookup tenantID with
  | none => return .error (.manager .tenantActorNotFound)
  | some r =>
    let key := podKey args.namespaceName args.podName
    match r.ipam.getAllocation key with
    | none => return .error (.allocationNotFound key)
    | some ci =>
      match r.backend.bridge with
      | none => return .error (.manager (.bridgeNotFound tenantID))
      | some br =>
        let r ← attempt (updateLink cfg ci.netns ci.ifname ⟨ci.ip, r.subnet.mask⟩ br.ip.ip)
        return r.mapError .kernel

/-! ### The tenant actor -/

/-- The order in which a loop over the allocations visits them. -/
structure Order where
  visit : List (String × Ipam.ContainerNetInfo) → List (String × Ipam.ContainerNetInfo)
  perm : ∀ allocs, (visit allocs).Perm allocs

/-- What an attempt to attach a pod chooses: the digits that are drawn, one after the other, for the
name of the interface of the host, and the order of the pods that are moved after an expansion. -/
structure Choice where
  suffixes : List String
  order : Order

/-- The name of an interface of the host. -/
def vethName (suffix : String) : String :=
  Kernel.vethPrefix ++ suffix

/-- `requestTenantExpansion`, when no other expansion is in flight. -/
def requestTenantExpansion (cfg : Config) (nm : NetworkManager) (tenantID : String) :
    Command (Except Error Unit × NetworkManager) := do
  match nm.tenantRecords.lookup tenantID with
  | none => return (.error .tenantActorNotFound, nm)
  | some r =>
    if r.state = .closing then return (.error .tenantClosing, nm)
    else
      let (result, nm) ← expandTenant cfg nm tenantID
      return (result.map fun _ => (), nm)

/-- Moves one pod.  A failure is only logged. -/
def reconcilePod (cfg : Config) (nm : NetworkManager) (tenantID : String)
    (alloc : String × Ipam.ContainerNetInfo) : Command Unit := do
  let (nsName, podName) := splitPodKey alloc.1
  let _ ← updatePod cfg nm tenantID
    ⟨nsName, podName, alloc.2.id, alloc.2.netns, alloc.2.ifname⟩

/-- `reconcileExistingPods`. -/
def reconcileExistingPods (cfg : Config) (order : Order) (nm : NetworkManager) (tenantID : String) :
    Command (Except Error Unit) := do
  match nm.tenantRecords.lookup tenantID with
  | none => return .error (.ipamMissing tenantID)
  | some r =>
    (order.visit r.ipam.listAllocations).forM (reconcilePod cfg nm tenantID)
    return .ok ()

/-- The attempts of `ensurePodWithExpansion`, with the number of retries that are left. -/
def ensurePodRetry (cfg : Config) (choices : ℕ → Choice) (tenantID : String)
    (args : PodAttachArgs) :
    ℕ → NetworkManager → Command (Except Error PodAttachment × NetworkManager)
  | 0, nm => ensurePod cfg (choices 0).suffixes nm tenantID args
  | retries + 1, nm => do
    match ← ensurePod cfg (choices (retries + 1)).suffixes nm tenantID args with
    | (.error (.ipam (.noAvailableIPs _)), nm) =>
      match ← requestTenantExpansion cfg nm tenantID with
      | (.error e, nm) => return (.error (.expandTenant e), nm)
      | (.ok (), nm) =>
        match ← reconcileExistingPods cfg (choices (retries + 1)).order nm tenantID with
        | .error e => return (.error (.reconcilePods e), nm)
        | .ok () => ensurePodRetry cfg choices tenantID args retries nm
    | result => return result

/-- What the tenant actor does with a request for a pod. -/
def actorEnsure (cfg : Config) (choices : ℕ → Choice) (nm : NetworkManager) (tenantID : String)
    (args : PodAttachArgs) : Command (Except Error PodAttachment × NetworkManager) := do
  match nm.tenantRecords.lookup tenantID with
  | none => ensurePodRetry cfg choices tenantID args NetworkManager.maxRetries nm
  | some r =>
    if r.state = .closing then return (.error .tenantClosing, nm)
    else ensurePodRetry cfg choices tenantID args NetworkManager.maxRetries nm

/-- What the tenant actor does with a request to move a pod. -/
def actorUpdate (cfg : Config) (nm : NetworkManager) (tenantID : String) (args : PodAttachArgs) :
    Command (Except UpdateError Unit) := do
  match nm.tenantRecords.lookup tenantID with
  | none => updatePod cfg nm tenantID args
  | some r =>
    if r.state = .closing then return .error (.manager .tenantClosing)
    else updatePod cfg nm tenantID args

/-! ### The node -/

end Node

/-- The network manager of a node, and the kernel. -/
structure Node where
  nm : NetworkManager
  kernel : Kernel.State

namespace Node

/-- What happens on a node: an operation on a tenant, a request to a tenant actor, or a namespace
that is made or dropped. -/
inductive Action where
  | ensureTenant (id : String) (policy : PolicyCall → Bool)
  | removeTenant (id : String)
  | ensure (id : String) (args : PodAttachArgs) (choices : ℕ → Choice)
  | remove (id : String) (args : PodAttachArgs)
  | update (id : String) (args : PodAttachArgs)
  | openNetns (path : String)
  | closeNetns (path : String)

/-- The answers. -/
inductive Answer where
  | tenant (result : Except Error Unit)
  | pod (result : Except Error PodAttachment)
  | updated (result : Except UpdateError Unit)
  | none
  | crashed

/-- A namespace with the loopback interface. -/
def newNetns : Kernel.Netns where
  links := (∅ : GoMap String (Link IPNet)).insert "lo" ⟨1, .other, 65536, false, []⟩
  master _ := none
  route := none

/-- An interface of the host whose other end is in the namespace. -/
def endsIn (path : String) (l : Link IPNet) : Bool :=
  match l.kind with
  | .veth netns _ => netns = path
  | _ => false

/-- Drops a namespace, and with it the interfaces of the host that have their other end there. -/
def closeNetns (k : Kernel.State) (path : String) : Kernel.State where
  host :=
    let links := GoMap.filter (fun l => !endsIn path l) k.host.links
    { links := links
      master name := (links.lookup name).bind fun _ => k.host.master name
      route := k.host.route.filter fun r => (links.lookup r.1).isSome }
  netns := k.netns.erase path

/-- Runs an operation, the calls of which meet the faults. -/
def perform (faults : List (Option Errno)) (n : Node)
    (x : Kernel.Command (Answer × NetworkManager)) : Answer × Node :=
  match x.run ⟨n.kernel, faults⟩ with
  | .ok (answer, nm) s => (answer, ⟨nm, s.system⟩)
  | .error _ s => (.crashed, ⟨n.nm, s.system⟩)

/-- An action, the calls of which meet the faults. -/
def step (cfg : Kernel.Config) (n : Node) : Action × List (Option Errno) → Answer × Node
  | (.ensureTenant id policy, faults) => n.perform faults do
    let (result, nm) ← ensureTenant cfg policy n.nm id
    return (.tenant result, nm)
  | (.removeTenant id, faults) => n.perform faults do
    let (result, nm) ← removeTenant cfg n.nm id
    return (.tenant result, nm)
  | (.ensure id args choices, faults) => n.perform faults do
    let (result, nm) ← actorEnsure cfg choices n.nm id args
    return (.pod result, nm)
  | (.remove id args, _) =>
      (.tenant (n.nm.removePod id args).1, ⟨(n.nm.removePod id args).2, n.kernel⟩)
  | (.update id args, faults) => n.perform faults do
    let result ← actorUpdate cfg n.nm id args
    return (.updated result, n.nm)
  | (.openNetns path, _) =>
    (.none, ⟨n.nm, { n.kernel with netns := n.kernel.netns.insert path newNetns }⟩)
  | (.closeNetns path, _) => (.none, ⟨n.nm, closeNetns n.kernel path⟩)

end Node

end Nmanager
