import Mathlib.Data.Finset.Option
import Misokube.Lib.Threads
import Misokube.Nmanager.Model

/-!
# Calls for a tenant at the same time

`EnsureTenant` and `RemoveTenant` of one tenant as threads.  A section under the lock of the
network manager, a call of the subnet manager and a call of the backend are one step each.  The
records of tenants refer to their backends, which the threads share, and devices are known to the
kernel by their names.  The kernel calls for devices succeed, but a bridge that is not there cannot
be deleted; a call of the policy manager may fail.  Stopping an actor and the removal of the
policy of a tenant change nothing of what is modelled here.
-/

namespace Nmanager

open Net Device

/-- `TenantRecord`, with a reference to the backend. -/
structure SharedRecord where
  subnet : IPNet
  backend : ℕ
  ipam : Ipam.BitmapIPAM
  state : TenantState

/-- What the threads share: the network manager, the backends that were made, and the names of
the devices in the kernel. -/
structure Shared where
  tenantRecords : GoMap String SharedRecord
  tenantActors : GoMap String TenantActor
  subnet : Trie.TrieManager
  backends : List Backend
  links : Finset String

/-- A new network manager on a node without devices. -/
def newShared (subnet : Trie.TrieManager) : Shared :=
  ⟨∅, ∅, subnet, [], ∅⟩

namespace Shared

/-! ### Devices -/

/-- The name of the bridge of a backend, if it has one. -/
def bridgeName (s : Shared) (be : ℕ) : Option String :=
  s.backends[be]?.bind fun b => b.bridge.map Bridge.name

/-- The name of the VTEP of a backend, if it has one. -/
def vtepName (s : Shared) (be : ℕ) : Option String :=
  s.backends[be]?.bind fun b => b.vtep.map VTEP.name

/-- `NewBridgeVTEPBackend` and `Create`.  Devices of the same names are used if they exist.  If no
address can be found for the bridge, the bridge is there all the same. -/
def createDevices (h : Hashes) (s : Shared) (tenantID : String) (subnet : IPNet) (host : String) :
    Except Device.Error ℕ × Shared :=
  match newBridgeVTEPBackend.create h Outcomes.success.toOutcomes tenantID subnet host with
  | (.error e, _) =>
    (.error e, { s with
      links := s.links ∪ (generateDeviceName h brPrefix tenantID).toOption.toFinset })
  | (.ok (), be) =>
    (.ok s.backends.length, { s with
      backends := s.backends ++ [be]
      links := s.links ∪ (be.bridge.map Bridge.name).toFinset
        ∪ (be.vtep.map VTEP.name).toFinset })

/-- `Delete` of a backend: first the VTEP, which may be missing in the kernel, then the bridge,
which may not. -/
def deleteDevices (s : Shared) (be : ℕ) : Except Device.Error Unit × Shared :=
  match s.backends[be]? with
  | none => (.error .nilDevice, s)
  | some b =>
    let links := if b.managers then s.links \ (b.vtep.map VTEP.name).toFinset else s.links
    let found := decide ((b.bridge.map Bridge.name).toFinset ⊆ links)
    let (result, b') := b.delete { Outcomes.success.toOutcomes with bridgeDelete := found }
    (result, { s with
      backends := s.backends.set be b'
      links := if result = .ok () then links \ (b.bridge.map Bridge.name).toFinset else links })

/-- The names of the devices of the default tenant. -/
def defaultTenantIfaces (s : Shared) : List String :=
  match s.tenantRecords.lookup "default" with
  | none => []
  | some r => (s.bridgeName r.backend).toList ++ (s.vtepName r.backend).toList

/-- The call to the policy manager for a tenant with a new backend. -/
def policyCall (s : Shared) (tenantID : String) (be : ℕ) : PolicyCall :=
  let brName := (s.bridgeName be).getD ""
  let vxName := (s.vtepName be).getD ""
  if tenantID = "default" then .ensureDefaultTenant brName vxName
  else .ensureTenantIsolation tenantID brName vxName s.defaultTenantIfaces

end Shared

/-! ### Threads -/

/-- A call for the tenant. -/
inductive Call where
  | ensureTenant
  | removeTenant

/-- Where a call is, with the values of its local variables that it still needs. -/
inductive Thread where
  | ensureCheck
  | ensureAllocate
  | ensureCreate (subnetNet : IPNet)
  | ensurePolicy (subnetNet : IPNet) (be : ℕ)
  | ensureCommit (subnetNet : IPNet) (be : ℕ) (ipm : Ipam.BitmapIPAM)
  | ensureDelete (be : ℕ) (result : Except Error Unit)
  | ensureDeallocate (result : Except Error Unit)
  | ensureActor
  | removeRead
  | removeMark (be : ℕ)
  | removeDelete (be : ℕ)
  | removeDeallocate
  | removeActor
  | removeDropActor
  | removeDropRecord
  | returned (result : Except Error Unit)
  | panicked

/-- The thread of a call. -/
def Call.start : Call → Thread
  | .ensureTenant => .ensureCheck
  | .removeTenant => .removeRead

/-- The next step of a call for the tenant `id`.  A call of a nil manager is a panic; the other
errors of `Delete` and those of `Deallocate` are ignored. -/
def Thread.next (h : Hashes) (nodeName id : String) (policy : PolicyCall → Bool) (s : Shared) :
    Thread → Thread × Shared
  | .ensureCheck =>
    if id = "" then (.returned (.error .emptyTenantID), s)
    else if (s.tenantRecords.lookup id).isSome then (.returned (.ok ()), s)
    else (.ensureAllocate, s)
  | .ensureAllocate =>
    match s.subnet.allocate id with
    | (.error e, subnet) => (.returned (.error (.allocateSubnet id e)), { s with subnet := subnet })
    | (.ok subnetNet, subnet) => (.ensureCreate subnetNet, { s with subnet := subnet })
  | .ensureCreate subnetNet =>
    match s.createDevices h id subnetNet nodeName with
    | (.error e, s) => (.ensureDeallocate (.error (.backendCreate e)), s)
    | (.ok be, s) => (.ensurePolicy subnetNet be, s)
  | .ensurePolicy subnetNet be =>
    if policy (s.policyCall id be) = false then
      (.ensureDelete be (.error (.policy (s.policyCall id be))), s)
    else
      match Ipam.newBitmapIPAM (some subnetNet) with
      | .error e => (.ensureDelete be (.error (.ipamCreate e)), s)
      | .ok ipm => (.ensureCommit subnetNet be ipm, s)
  | .ensureCommit subnetNet be ipm =>
    if (s.tenantRecords.lookup id).isSome then (.ensureDelete be (.ok ()), s)
    else
      (.ensureActor,
        { s with tenantRecords := s.tenantRecords.insert id ⟨subnetNet, be, ipm, .ready⟩ })
  | .ensureDelete be result =>
    match s.deleteDevices be with
    | (.error .nilManager, s) => (.panicked, s)
    | (_, s) => (.ensureDeallocate result, s)
  | .ensureDeallocate result =>
    (.returned result, { s with subnet := (s.subnet.deallocate id).2 })
  | .ensureActor =>
    (.returned (.ok ()), if (s.tenantActors.lookup id).isSome then s
      else { s with tenantActors := s.tenantActors.insert id ⟨id⟩ })
  | .removeRead =>
    if id = "" then (.returned (.error .emptyTenantID), s)
    else
      match s.tenantRecords.lookup id with
      | none => (.returned (.ok ()), s)
      | some r => (.removeMark r.backend, s)
  | .removeMark be =>
    match s.tenantRecords.lookup id with
    | none => (.removeDelete be, s)
    | some r =>
      (.removeDelete be,
        { s with tenantRecords := s.tenantRecords.insert id { r with state := .closing } })
  | .removeDelete be =>
    match s.deleteDevices be with
    | (.error .nilManager, s) => (.panicked, s)
    | (_, s) => (.removeDeallocate, s)
  | .removeDeallocate => (.removeActor, { s with subnet := (s.subnet.deallocate id).2 })
  | .removeActor =>
    if (s.tenantActors.lookup id).isSome then (.removeDropActor, s) else (.removeDropRecord, s)
  | .removeDropActor =>
    (.removeDropRecord, { s with tenantActors := s.tenantActors.erase id })
  | .removeDropRecord =>
    (.returned (.ok ()), { s with tenantRecords := s.tenantRecords.erase id })
  | .returned result => (.returned result, s)
  | .panicked => (.panicked, s)

def Thread.isReturned : Thread → Bool
  | .returned _ => true
  | _ => false

def Thread.isPanicked : Thread → Bool
  | .panicked => true
  | _ => false

/-- The threads of the calls for the tenant, and an action of them. -/
abbrev Calls := Threads.System Shared Thread

/-- A new call, or the next step of one, with what the policy manager answers in it. -/
abbrev Action := Threads.Action Call (PolicyCall → Bool)

def act (h : Hashes) (nodeName id : String) : Calls → Action → Unit × Calls :=
  Threads.step Call.start (Thread.next h nodeName id)

end Nmanager
