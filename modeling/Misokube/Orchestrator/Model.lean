import Misokube.Api.Types
import Mathlib.Data.String.Basic

/-!
# The reconcilers of the orchestrator

What the orchestrator does with a tenant: the choice of the nodes, and the status that each
reconciler wants to write.  Both resources belong to the cluster, so objects are told apart by their
names.  The patch of the finalizers is left out: when it is not needed it does nothing, and after it
the status is written from an outdated object.
-/

namespace Orchestrator

open Api

inductive Error where
  | noNodeStores
  | awaitingFullZoneAssignment (zones : ℤ) (assigned availableStores : ℕ)
  | tenantNotFound (name : String)
deriving DecidableEq

/-- The identity of the node of a `NodeStore`. -/
def nodeID (ns : NodeStore) : String :=
  if ns.specName = "" then ns.name else ns.specName

/-! ### The choice of nodes -/

def selectInitialAwaitingNodes (t : Tenant) (stores : List NodeStore) :
    Except Error (List String) :=
  if t.zones ≤ 0 then .ok []
  else if stores = [] then .error .noNodeStores
  else .ok ((stores.map nodeID).take t.zones.toNat)

/-- The last of the nodes with the name. -/
def lastNamed (nodes : List NodeInfo) (name : String) : Option NodeInfo :=
  nodes.reverse.find? (fun ni => ni.name = name)

def equalNodeInfos (a b : List NodeInfo) : Bool :=
  a.length = b.length ∧ ∀ y ∈ b, lastNamed a y.name = some y

def equalNodeInfosByValue (a b : List NodeInfo) : Bool :=
  equalNodeInfos a b

/-- The loop over the candidates: `delta` of those that are not used are awaited. -/
def awaitMore : (delta : ℕ) → (used awaiting : List String) → (candidateIDs : List String) →
    List String
  | _, _, awaiting, [] => awaiting
  | 0, _, awaiting, _ :: _ => awaiting
  | delta + 1, used, awaiting, id :: candidateIDs =>
    if id ∈ used then awaitMore (delta + 1) used awaiting candidateIDs
    else awaitMore delta (id :: used) (awaiting ++ [id]) candidateIDs

/-- The candidates in the order in which they are taken. -/
def candidates (stores : List NodeStore) : List String :=
  ((stores.map nodeID).filter (fun id => id ≠ "")).mergeSort (fun a b => a ≤ b)

/-- The names of the assigned nodes. -/
def assignedIDs (assigned : List NodeInfo) : List String :=
  (assigned.map NodeInfo.name).filter (fun name => name ≠ "")

def recomputeAwaitingAndAssignedForZones (t : Tenant) (stores : List NodeStore) :
    List String × List NodeInfo × Bool :=
  let zones := max t.zones 0
  let assigned := t.assignedNodes
  let awaiting := t.awaitingNodeConfiguration.filter (fun id => id ∉ assignedIDs assigned)
  let delta := zones - (assigned.length + awaiting.length)
  let newAwaiting :=
    if 0 < delta then
      awaitMore delta.toNat (assignedIDs assigned ++ awaiting) awaiting (candidates stores)
    else awaiting
  -- trimmed from the end, all of them if there are too few
  let newAssigned :=
    if delta < 0 then assigned.take (assigned.length - (-delta).toNat) else assigned
  (newAwaiting, newAssigned,
    t.awaitingNodeConfiguration ≠ newAwaiting ∨ ¬ equalNodeInfos assigned newAssigned)

/-! ### The reconcilers -/

/-- The tenant that is written, if any, and how the reconciler ends when the write is accepted. -/
structure Outcome where
  write : Option Tenant
  result : Except Error Unit

def reconcileTenantAdd (t : Tenant) (stores : List NodeStore) : Outcome :=
  if t.awaitingNodeConfiguration ≠ [] ∨ t.assignedNodes ≠ [] then ⟨none, .ok ()⟩
  else
    match selectInitialAwaitingNodes t stores with
    | .error e => ⟨none, .error e⟩
    | .ok [] => ⟨none, .ok ()⟩
    | .ok seed => ⟨some { t with awaitingNodeConfiguration := seed }, .ok ()⟩

def reconcileTenantUpdate (t : Tenant) (stores : List NodeStore) : Outcome :=
  let (newAwaiting, newAssigned, changed) := recomputeAwaitingAndAssignedForZones t stores
  if changed then
    ⟨some { t with awaitingNodeConfiguration := newAwaiting, assignedNodes := newAssigned }, .ok ()⟩
  else ⟨none, .ok ()⟩

/-- The stores in the index for the tenant: those that report a tenant of that name. -/
def nodeStoresForTenant (stores : List NodeStore) (tenantName : String) : List NodeStore :=
  stores.filter (fun ns =>
    tenantName ≠ "" ∧ ∃ infra ∈ ns.tenants.entries.map Sigma.snd, infra.name = tenantName)

/-- What the tenant records of a store that reports it. -/
def nodeInfo (tenantName : String) (ns : NodeStore) : Option NodeInfo :=
  (ns.tenants.lookup tenantName).map fun infra =>
    ⟨ns.specName, ns.nodeIP, infra.tenantCIDR, infra.vtepIP, infra.vtepMAC⟩

/-- The index is read before the list of all stores, so the two may differ. -/
def reconcileNodestoreUpdate (t : Tenant) (indexed allStores : List NodeStore) : Outcome :=
  let newAssigned := (nodeStoresForTenant indexed t.name).filterMap (nodeInfo t.name)
  let (newAwaiting, newAssignedFinal, changedStructural) :=
    recomputeAwaitingAndAssignedForZones { t with assignedNodes := newAssigned } allStores
  if changedStructural ∨ t.awaitingNodeConfiguration ≠ newAwaiting
      ∨ ¬ equalNodeInfosByValue t.assignedNodes newAssignedFinal then
    ⟨some { t with awaitingNodeConfiguration := newAwaiting, assignedNodes := newAssignedFinal },
      if t.zones ≤ allStores.length ∧ (newAssignedFinal.length : ℤ) ≠ t.zones then
        .error (.awaitingFullZoneAssignment t.zones newAssignedFinal.length allStores.length)
      else .ok ()⟩
  else ⟨none, .ok ()⟩

def reconcileNodestoreAdd (t : Tenant) (indexed allStores : List NodeStore) : Outcome :=
  reconcileNodestoreUpdate t indexed allStores

def reconcileNodestoreDelete (refName : String) (t : Tenant) : Outcome :=
  let newAssigned := t.assignedNodes.filter (fun ni => ni.name ≠ refName)
  if equalNodeInfosByValue t.assignedNodes newAssigned then ⟨none, .ok ()⟩
  else ⟨some { t with assignedNodes := newAssigned }, .ok ()⟩

/-! ### The deletion of a `NodeStore` -/

/-- What the informer hands to a handler of deletions: the object, or a tombstone with the last
known object when the deletion itself was missed. -/
inductive Deleted where
  | object (ns : NodeStore)
  | finalStateUnknown (ns : NodeStore)

/-- The names of the tenants that are enqueued. -/
def deleteEventNodestoreHandler : Deleted → List String
  | .object ns => ns.tenants.keys
  | .finalStateUnknown _ => []

/-- The tenants of the cluster by their names. -/
abbrev Tenants := GoMap String Tenant

/-- One item of the deletion is processed. -/
def processDelete (tenants : Tenants) (refName : String) : Except Error Tenants :=
  match tenants.lookup refName with
  | none => .error (.tenantNotFound refName)
  | some t =>
    match (reconcileNodestoreDelete refName t).write with
    | none => .ok tenants
    | some written => .ok (tenants.insert refName written)

/-- All items are processed. -/
def processDeletes (tenants : Tenants) (items : List String) : Except Error Tenants :=
  items.foldlM processDelete tenants

end Orchestrator
