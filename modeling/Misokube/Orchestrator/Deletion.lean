import Misokube.Orchestrator.Model

/-!
# The deletion of a `NodeStore`

The item of a deletion has the name of the tenant, and the reconciler removes the node of that name.
So the tenants lose the node of the deleted `NodeStore` and nothing else exactly when, in each of
them, the nodes with the name of the deleted node are those with the name of the tenant
(`reflected_iff`).
-/

namespace Orchestrator

open Api

/-- The `NodeStore` that is deleted. -/
def Deleted.store : Deleted → NodeStore
  | .object ns => ns
  | .finalStateUnknown ns => ns

/-- The handler sees the object itself. -/
def Deleted.isObject : Deleted → Bool
  | .object _ => true
  | .finalStateUnknown _ => false

/-- The nodes of a list without those of a name. -/
def without (name : String) (nodes : List NodeInfo) : List NodeInfo :=
  nodes.filter (fun ni => ni.name ≠ name)

/-- The tenants that the store listed have lost its node, and all other entries are unchanged. -/
def Reflected (ns : NodeStore) (before after : Tenants) : Prop :=
  ∀ name, (after.lookup name).map Tenant.assignedNodes
    = (before.lookup name).map fun t =>
        if name ∈ ns.tenants.keys then without ns.specName t.assignedNodes else t.assignedNodes

/-- Nodes that are equal by value to those without a name have none of that name. -/
theorem without_of_equal {name : String} {nodes : List NodeInfo}
    (h : equalNodeInfosByValue nodes (without name nodes) = true) :
  without name nodes = nodes
  := by
  rw [equalNodeInfosByValue, equalNodeInfos, decide_eq_true_eq] at h
  apply List.filter_sublist.eq_of_length h.1.symm

/-- An item removes the nodes with the name of its tenant from this tenant. -/
theorem processDelete_spec {before after : Tenants} {refName : String}
    (h : processDelete before refName = .ok after) (name : String) :
  (after.lookup name).map Tenant.assignedNodes
    = (before.lookup name).map fun t =>
        if name = refName then without refName t.assignedNodes else t.assignedNodes
  := by
  rw [processDelete] at h
  split at h
  · cases h
  · next t ht =>
    simp only [reconcileNodestoreDelete] at h
    by_cases hname : name = refName
    · subst hname
      split at h
      · next hwrite =>
        cases h
        split at hwrite
        · next hequal => simp [ht, without_of_equal hequal]
        · cases hwrite
      · next written hwrite =>
        cases h
        split at hwrite
        · cases hwrite
        · cases hwrite
          simp [ht, without]
    · split at h
      · cases h
        simp [hname]
      · cases h
        simp [hname]

theorem processDeletes_cons {before after : Tenants} {item : String} {items : List String}
    (h : processDeletes before (item :: items) = .ok after) :
  ∃ between, processDelete before item = .ok between ∧ processDeletes between items = .ok after
  := by
  rw [processDeletes, List.foldlM_cons] at h
  cases hfirst : processDelete before item with
  | error e =>
    rw [hfirst] at h
    cases h
  | ok between =>
    rw [hfirst] at h
    exact ⟨between, rfl, h⟩

/-- All items remove the nodes with the names of their tenants. -/
theorem processDeletes_spec {items : List String} :
  ∀ {before after : Tenants}, processDeletes before items = .ok after → ∀ name,
    (after.lookup name).map Tenant.assignedNodes
      = (before.lookup name).map fun t =>
          if name ∈ items then without name t.assignedNodes else t.assignedNodes
  := by
  induction items with
  | nil =>
    rintro before after ⟨⟩ name
    simp
  | cons item items ih =>
    intro before after h name
    obtain ⟨between, hfirst, hrest⟩ := processDeletes_cons h
    have hitem := processDelete_spec hfirst name
    rw [ih hrest name]
    cases hbefore : before.lookup name with
    | none =>
      simp only [hbefore, Option.map_none, Option.map_eq_none_iff] at hitem
      simp [hitem]
    | some t =>
      rw [hbefore] at hitem
      obtain ⟨t', ht', hassigned⟩ := Option.map_eq_some_iff.mp hitem
      rw [ht']
      simp only [Option.map_some, hassigned, List.mem_cons, without]
      by_cases hname : name = item <;> by_cases hmem : name ∈ items <;> simp [hname, hmem]

/-- Two lists of nodes without a name are equal when they leave out the same nodes. -/
theorem without_eq_without_iff {name name' : String} {nodes : List NodeInfo} :
  without name nodes = without name' nodes ↔ ∀ ni ∈ nodes, (ni.name = name ↔ ni.name = name')
  := by
  constructor
  · intro h ni hni
    have hmem : ni ∈ without name nodes ↔ ni ∈ without name' nodes := by rw [h]
    simp only [without, List.mem_filter, hni, true_and, decide_eq_true_eq] at hmem
    exact not_iff_not.mp hmem
  · intro h
    apply List.filter_congr
    intro ni hni
    rw [decide_eq_decide, not_iff_not]
    apply h ni hni

theorem without_eq_self_iff {name : String} {nodes : List NodeInfo} :
  without name nodes = nodes ↔ ∀ ni ∈ nodes, ni.name ≠ name
  := by
  simp [without]

/-- In the tenants that the store listed, the nodes with the name of its node are those with the
name of the tenant, if the handler sees the object; otherwise there are none. -/
def NamedAlike (event : Deleted) (tenants : Tenants) : Prop :=
  ∀ name ∈ event.store.tenants.keys, ∀ t ∈ tenants.lookup name, ∀ ni ∈ t.assignedNodes,
    ni.name = event.store.specName ↔ event.isObject = true ∧ ni.name = name

instance (event : Deleted) (tenants : Tenants) : Decidable (NamedAlike event tenants) :=
  inferInstanceAs (Decidable (∀ name ∈ event.store.tenants.keys, ∀ t ∈ tenants.lookup name,
    ∀ ni ∈ t.assignedNodes, _))

/-- A tenant that the store listed loses its node and nothing else exactly if the names agree. -/
theorem lost_iff {event : Deleted} {name : String} (hlisted : name ∈ event.store.tenants.keys)
    (nodes : List NodeInfo) :
  (if name ∈ deleteEventNodestoreHandler event then without name nodes else nodes)
      = without event.store.specName nodes
    ↔ ∀ ni ∈ nodes, (ni.name = event.store.specName ↔ event.isObject = true ∧ ni.name = name)
  := by
  cases event with
  | object ns =>
    have hitem : name ∈ deleteEventNodestoreHandler (.object ns) := hlisted
    rw [if_pos hitem, without_eq_without_iff]
    simp [Deleted.isObject, iff_comm]
  | finalStateUnknown ns =>
    have hitem : name ∉ deleteEventNodestoreHandler (.finalStateUnknown ns) := List.not_mem_nil
    rw [if_neg hitem, eq_comm, without_eq_self_iff]
    simp [Deleted.isObject]

theorem listed_of_enqueued {event : Deleted} {name : String}
    (h : name ∈ deleteEventNodestoreHandler event) :
  name ∈ event.store.tenants.keys
  := by
  cases event with
  | object ns => exact h
  | finalStateUnknown ns => cases h

/-- When all items of a deletion are processed, the tenants have lost the node and nothing else
exactly if its name and theirs agree. -/
theorem reflected_iff (event : Deleted) {before after : Tenants}
    (h : processDeletes before (deleteEventNodestoreHandler event) = .ok after) :
  Reflected event.store before after ↔ NamedAlike event before
  := by
  rw [Reflected, NamedAlike]
  -- both sides speak of the tenants one by one
  apply forall_congr'
  intro name
  rw [processDeletes_spec h name]
  by_cases hlisted : name ∈ event.store.tenants.keys
  · cases before.lookup name with
    | none => simp
    | some t => simp [hlisted, lost_iff hlisted]
  · have hitem : name ∉ deleteEventNodestoreHandler event := fun h => hlisted (listed_of_enqueued h)
    simp [hlisted, hitem]

/-- What a node reports of the tenant. -/
def blueInfra : TenantInfra :=
  ⟨"blue", "10.0.0.0/28", "vtep", 1, "10.0.0.1", "02:00:00:00:00:01", "br", "10.0.0.2",
    "02:00:00:00:00:02", []⟩

/-- A node that reports the tenant `blue`. -/
def blueStore (node : String) : NodeStore :=
  ⟨node, node, "192.168.0.1", AList.singleton "blue" blueInfra⟩

/-- The cluster with the tenant `blue` on the nodes. -/
def blueOn (nodes : List String) : Tenants :=
  AList.singleton "blue" ⟨"blue", 2,
    nodes.map fun node => ⟨node, "192.168.0.1", "10.0.0.0/28", "10.0.0.1", "02:00:00:00:00:01"⟩, []⟩

/-- A node with the name of its tenant is removed. -/
theorem reflected_iff_blue :
  ∃ after, processDeletes (blueOn ["blue", "red"])
      (deleteEventNodestoreHandler (.object (blueStore "blue"))) = .ok after
    ∧ NamedAlike (.object (blueStore "blue")) (blueOn ["blue", "red"])
    ∧ Reflected (blueStore "blue") (blueOn ["blue", "red"]) after
  := by
  have halike : NamedAlike (.object (blueStore "blue")) (blueOn ["blue", "red"]) := by decide
  exact ⟨_, rfl, halike, (reflected_iff (.object (blueStore "blue")) rfl).mpr halike⟩

/-- A deleted node with another name stays assigned. -/
theorem deleted_node_stays :
  ∃ after, processDeletes (blueOn ["node1"])
      (deleteEventNodestoreHandler (.object (blueStore "node1"))) = .ok after
    ∧ (after.lookup "blue").map Tenant.assignedNodes
      = ((blueOn ["node1"]).lookup "blue").map Tenant.assignedNodes
    ∧ ¬ Reflected (blueStore "node1") (blueOn ["node1"]) after
  := by
  refine ⟨_, rfl, by decide, ?_⟩
  intro h
  have hblue := h "blue"
  revert hblue
  decide

end Orchestrator
