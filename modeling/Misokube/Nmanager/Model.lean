import Misokube.Device.Model
import Misokube.Ipam.Model
import Misokube.Trie.Model

/-!
# The network manager

The tenant and pod operations of `internal/nmanager`, run one after the other.  A record of a
tenant has its subnet, the backend with its devices, and the IPAM; the subnet manager is the one
over the trie.  What is outside of the package answers as `Outcomes` say: the device operations,
the policy manager, the set-up of a pod's interface, and the steps of the IPAM that its
interface allows to fail.  Events to the operator and log messages are left out.
-/

namespace Nmanager

open Net Device

/-- The calls to the policy manager whose result matters. -/
inductive PolicyCall where
  | ensureDefaultTenant (brIf vxIf : String)
  | ensureTenantIsolation (tenantID brIf vxIf : String) (extraIfaces : List String)
deriving DecidableEq

/-- The arguments of `device.SetupVeth`. -/
structure VethCall where
  netNS : String
  brName : String
  mtu : ℕ
  ifName : String
  podIPNet : IPNet
  gateway : IP
deriving DecidableEq

/-- What is answered from outside of the package during one call. -/
structure Outcomes extends Device.Outcomes where
  policy : PolicyCall → Bool
  setupVeth : VethCall → Bool
  ipamCreate : Bool
  ipamExpand : Bool

/-- Everything outside of the package succeeds. -/
def Outcomes.success : Outcomes where
  bridgeCreate := true
  vtepCreate := true
  bridgeUpdate := true
  vtepUpdate := true
  bridgeDelete := true
  vtepDelete := true
  bridgeMAC := []
  policy := fun _ => true
  setupVeth := fun _ => true
  ipamCreate := true
  ipamExpand := true

/-- The errors of the operations; `panicked` is a call that does not return. -/
inductive Error where
  | emptyTenantID
  | allocateSubnet (tenantID : String) (err : Trie.Error)
  | backendCreate (err : Device.Error)
  | policy (call : PolicyCall)
  | ipamCreate (err : Ipam.Error)
  | noTenantRecord (id : String)
  | subnetExpand (err : Trie.Error)
  | backendUpdate (err : Device.Error)
  | ipamExpand (err : Ipam.Error)
  | ipamFault
  | tenantActorNotFound
  | tenantClosing
  | ipam (err : Ipam.Error)
  | bridgeNotFound (tenantID : String)
  | setupVeth
  | expandTenant (err : Error)
  | reconcilePods (err : Error)
  | ipamMissing (tenantID : String)
  | unknownTenant (tenantID : String)
  | panicked
deriving DecidableEq

/-- Whether the tenant processes pod operations. -/
inductive TenantState where
  | ready
  | closing
deriving DecidableEq

/-- `TenantRecord`. -/
structure TenantRecord where
  subnet : IPNet
  backend : Backend
  ipam : Ipam.BitmapIPAM
  state : TenantState

/-- The handle of a tenant actor that was started. -/
structure TenantActor where
  tenantID : String
deriving DecidableEq

/-- `NetworkManagerImpl`. -/
structure NetworkManager where
  nodeName : String
  tenantRecords : GoMap String TenantRecord
  tenantActors : GoMap String TenantActor
  subnet : Trie.TrieManager

/-- `NewNetworkManagerWithDeps` over a subnet manager of the root network. -/
def newNetworkManager (nodeName : String) (subnet : Trie.TrieManager) : NetworkManager :=
  ⟨nodeName, ∅, ∅, subnet⟩

/-- `router.PodAttachArgs`. -/
structure PodAttachArgs where
  namespaceName : String
  podName : String
  containerID : String
  netNS : String
  ifName : String
deriving DecidableEq

/-- What `EnsurePod` returns. -/
structure PodAttachment where
  ipNet : IPNet
  gateway : IP
  ifName : String
deriving DecidableEq

def podKey (namespaceName pod : String) : String :=
  if namespaceName = "" then pod else namespaceName ++ "/" ++ pod

/-- The key split at its first slash. -/
def splitPodKey (key : String) : String × String :=
  match key.toList.span (· ≠ '/') with
  | (_, []) => ("", key)
  | (head, _ :: tail) => (String.ofList head, String.ofList tail)

namespace NetworkManager

/-- Stores a record. -/
def put (nm : NetworkManager) (tenantID : String) (r : TenantRecord) : NetworkManager :=
  { nm with tenantRecords := nm.tenantRecords.insert tenantID r }

/-- Frees the subnet of a tenant, whether this succeeds or not. -/
def deallocateSubnet (nm : NetworkManager) (tenantID : String) : NetworkManager :=
  { nm with subnet := (nm.subnet.deallocate tenantID).2 }

/-! ### Tenants -/

/-- The names of the devices of the default tenant. -/
def defaultTenantIfaces (nm : NetworkManager) : List String :=
  match nm.tenantRecords.lookup "default" with
  | none => []
  | some r => (r.backend.bridge.map Bridge.name).toList ++ (r.backend.vtep.map VTEP.name).toList

/-- The call to the policy manager for a tenant with new devices. -/
def policyCall (nm : NetworkManager) (tenantID : String) (be : Backend) : PolicyCall :=
  let brName := (be.bridge.map Bridge.name).getD ""
  let vxName := (be.vtep.map VTEP.name).getD ""
  if tenantID = "default" then .ensureDefaultTenant brName vxName
  else .ensureTenantIsolation tenantID brName vxName nm.defaultTenantIfaces

/-- Makes sure that the tenant has a record.  On any failure the devices are deleted and the
subnet is freed again; the results of both are ignored. -/
def ensureTenant (h : Hashes) (o : Outcomes) (nm : NetworkManager) (tenantID : String) :
    Except Error Unit × NetworkManager :=
  if tenantID = "" then (.error .emptyTenantID, nm)
  else if (nm.tenantRecords.lookup tenantID).isSome then (.ok (), nm)
  else
    match nm.subnet.allocate tenantID with
    | (.error e, subnet) => (.error (.allocateSubnet tenantID e), { nm with subnet := subnet })
    | (.ok subnetNet, subnet) =>
      let nm := { nm with subnet := subnet }
      match newBridgeVTEPBackend.create h o.toOutcomes tenantID subnetNet nm.nodeName with
      | (.error e, _) => (.error (.backendCreate e), nm.deallocateSubnet tenantID)
      | (.ok (), be) =>
        if o.policy (nm.policyCall tenantID be) = false then
          (.error (.policy (nm.policyCall tenantID be)), nm.deallocateSubnet tenantID)
        else if o.ipamCreate = false then (.error .ipamFault, nm.deallocateSubnet tenantID)
        else
          match Ipam.newBitmapIPAM (some subnetNet) with
          | .error e => (.error (.ipamCreate e), nm.deallocateSubnet tenantID)
          | .ok ipm =>
            -- the second check, for calls that run at the same time
            if (nm.tenantRecords.lookup tenantID).isSome then
              (.ok (), nm.deallocateSubnet tenantID)
            else
              let nm := nm.put tenantID ⟨subnetNet, be, ipm, .ready⟩
              if (nm.tenantActors.lookup tenantID).isSome then (.ok (), nm)
              else
                (.ok (), { nm with tenantActors := nm.tenantActors.insert tenantID ⟨tenantID⟩ })

/-- Removes the record of the tenant.  The results of the steps are ignored. -/
def removeTenant (o : Outcomes) (nm : NetworkManager) (tenantID : String) :
    Except Error Unit × NetworkManager :=
  if tenantID = "" then (.error .emptyTenantID, nm)
  else
    match nm.tenantRecords.lookup tenantID with
    | none => (.ok (), nm)
    | some r =>
      let nm := nm.put tenantID { r with state := .closing }
      match r.backend.delete o.toOutcomes with
      | (.error .nilManager, _) => (.error .panicked, nm)
      | _ =>
        let nm := nm.deallocateSubnet tenantID
        (.ok (), { nm with
          tenantActors := nm.tenantActors.erase tenantID
          tenantRecords := nm.tenantRecords.erase tenantID })

/-- Expands the subnet of the tenant, then moves the devices and the IPAM to it. -/
def expandTenant (o : Outcomes) (nm : NetworkManager) (id : String) :
    Except Error TenantRecord × NetworkManager :=
  match nm.tenantRecords.lookup id with
  | none => (.error (.noTenantRecord id), nm)
  | some r =>
    match nm.subnet.expand id with
    | (.error e, subnet) => (.error (.subnetExpand e), { nm with subnet := subnet })
    | (.ok newNet, subnet) =>
      let nm := { nm with subnet := subnet }
      match r.backend.update o.toOutcomes newNet with
      | (.error e, be) => (.error (.backendUpdate e), nm.put id { r with backend := be })
      | (.ok (), be) =>
        let r := { r with backend := be }
        if o.ipamExpand = false then (.error .ipamFault, nm.put id r)
        else
          match r.ipam.expand (some newNet) with
          | (.error e, ipam) => (.error (.ipamExpand e), nm.put id { r with ipam := ipam })
          | (.ok (), ipam) =>
            let r := { r with ipam := ipam, subnet := newNet }
            (.ok r, nm.put id r)

/-! ### Pods -/

/-- Allocates an address for the pod and sets up its interface.  If the latter fails the address
is freed again. -/
def ensurePod (o : Outcomes) (nm : NetworkManager) (tenantID : String) (args : PodAttachArgs) :
    Except Error PodAttachment × NetworkManager :=
  match nm.tenantRecords.lookup tenantID with
  | none => (.error .tenantActorNotFound, nm)
  | some r =>
    if r.state = .closing then (.error .tenantClosing, nm)
    else
      let key := podKey args.namespaceName args.podName
      match r.ipam.allocate key args.containerID args.ifName args.netNS with
      | (.error e, ipam) => (.error (.ipam e), nm.put tenantID { r with ipam := ipam })
      | (.ok ci, ipam) =>
        let r := { r with ipam := ipam }
        let nm := nm.put tenantID r
        match r.backend.bridge with
        | none => (.error (.bridgeNotFound tenantID), nm)
        | some br =>
          let podIPNet := ⟨ci.ip, r.subnet.mask⟩
          if o.setupVeth ⟨args.netNS, br.name, 1500, args.ifName, podIPNet, br.ip.ip⟩ then
            (.ok ⟨podIPNet, br.ip.ip, args.ifName⟩, nm)
          else
            (.error .setupVeth, nm.put tenantID { r with ipam := (r.ipam.free ci.ip).2 })

/-- Does not touch the IPAM. -/
def removePod (nm : NetworkManager) (tenantID : String) (_args : PodAttachArgs) :
    Except Error Unit × NetworkManager :=
  match nm.tenantRecords.lookup tenantID with
  | none => (.error .tenantActorNotFound, nm)
  | some _ => (.ok (), nm)

theorem removePod_self (nm : NetworkManager) (id : String) (args : PodAttachArgs) :
  (nm.removePod id args).2 = nm
  := by
  rw [removePod]
  split
  · rfl
  · rfl

/-- Expands the tenant, unless it is closing.  No other expansion is in flight. -/
def requestTenantExpansion (o : Outcomes) (nm : NetworkManager) (tenantID : String) :
    Except Error Unit × NetworkManager :=
  match nm.tenantRecords.lookup tenantID with
  | none => (.error .tenantActorNotFound, nm)
  | some r =>
    if r.state = .closing then (.error .tenantClosing, nm)
    else ((nm.expandTenant o tenantID).1.map fun _ => (), (nm.expandTenant o tenantID).2)

/-- Moves the interfaces of the pods to the new subnet.  A failure for a pod is only logged. -/
def reconcileExistingPods (nm : NetworkManager) (tenantID : String) : Except Error Unit :=
  match nm.tenantRecords.lookup tenantID with
  | none => .error (.ipamMissing tenantID)
  | some _ => .ok ()

/-- The attempts of `ensurePodWithExpansion`, with the number of retries that are left: when the
IPAM has no address, the tenant is expanded before the next attempt. -/
def ensurePodRetry (o : ℕ → Outcomes) (tenantID : String) (args : PodAttachArgs) :
    ℕ → NetworkManager → Except Error PodAttachment × NetworkManager
  | retries, nm =>
    match nm.ensurePod (o retries) tenantID args with
    | (.error (.ipam (.noAvailableIPs n)), nm) =>
      match retries with
      | 0 => (.error (.ipam (.noAvailableIPs n)), nm)
      | retries + 1 =>
        match nm.requestTenantExpansion (o (retries + 1)) tenantID with
        | (.error e, nm) => (.error (.expandTenant e), nm)
        | (.ok (), nm) =>
          match nm.reconcileExistingPods tenantID with
          | .error e => (.error (.reconcilePods e), nm)
          | .ok () => ensurePodRetry o tenantID args retries nm
    | result => result

def maxRetries : ℕ := 2

/-- `EnsurePod`, with an expansion of the tenant when the IPAM has no address. -/
def ensurePodWithExpansion (o : ℕ → Outcomes) (nm : NetworkManager) (tenantID : String)
    (args : PodAttachArgs) : Except Error PodAttachment × NetworkManager :=
  ensurePodRetry o tenantID args maxRetries nm

/-- What the tenant actor does with a request for a pod: it refuses it when the tenant is
closing. -/
def actorEnsure (o : ℕ → Outcomes) (nm : NetworkManager) (tenantID : String)
    (args : PodAttachArgs) : Except Error PodAttachment × NetworkManager :=
  match nm.tenantRecords.lookup tenantID with
  | none => nm.ensurePodWithExpansion o tenantID args
  | some r =>
    if r.state = .closing then (.error .tenantClosing, nm)
    else nm.ensurePodWithExpansion o tenantID args

end NetworkManager

/-! ### Snapshots -/

/-- `TenantInfraSnapshot`. -/
structure TenantInfraSnapshot where
  subnet : IPNet
  vni : ℕ
  vtepDev : String
  vtepIP : IP
  vtepMAC : List UInt8
  mtu : ℕ
  bridge : String
  bridgeIP : IP
  bridgeMAC : List UInt8
  pods : List (String × IP)

/-- What a record says about the tenant.  The fields of a missing device are zero. -/
def buildTenantSnapshot (r : TenantRecord) : TenantInfraSnapshot where
  subnet := r.subnet
  vni := (r.backend.vtep.map VTEP.vni).getD 0
  vtepDev := (r.backend.vtep.map VTEP.name).getD ""
  vtepIP := (r.backend.vtep.map (·.ip.ip)).getD []
  vtepMAC := (r.backend.vtep.map VTEP.mac).getD []
  mtu := 1500
  bridge := (r.backend.bridge.map Bridge.name).getD ""
  bridgeIP := (r.backend.bridge.map (·.ip.ip)).getD []
  bridgeMAC := (r.backend.bridge.map Bridge.mac).getD []
  pods := r.ipam.listAllocations.filterMap fun (key, info) =>
    if info.ip = [] then none
    else
      let (ns, name) := splitPodKey key
      some (if ns ≠ "" then ns ++ "/" ++ name else name, info.ip)

/-- `SnapshotTenantInfra`. -/
def NetworkManager.snapshotTenantInfra (nm : NetworkManager) (tenantID : String) :
    Except Error TenantInfraSnapshot :=
  match nm.tenantRecords.lookup tenantID with
  | none => .error (.unknownTenant tenantID)
  | some r => .ok (buildTenantSnapshot r)

end Nmanager
