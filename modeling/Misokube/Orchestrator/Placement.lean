import Misokube.Lib.Machine
import Misokube.Orchestrator.Model

/-!
# The placement of a tenant

The reconcilers work on one tenant in any order, each on its own view of the `NodeStore`s, while the
number of zones changes.  The API server rejects a write that is computed from an outdated object.
From the empty status on, no node is both awaited and assigned, no node is listed twice, and a
recomputed status has no more assigned nodes than zones (`after_wellFormed`).
-/

namespace Orchestrator

open Api

/-- The `NodeStore`s that a reconciler sees. -/
structure Stores where
  list : List NodeStore
  named : ∀ ns ∈ list, ns.specName ≠ ""
  distinct : (list.map NodeStore.specName).Nodup

/-- A change of the zones, or a reconciler with the stores it sees; `fresh` tells whether it works
on the current object. -/
inductive Action where
  | setZones (zones : ℤ)
  | tenantAdd (stores : Stores) (fresh : Bool)
  | tenantUpdate (stores : Stores) (fresh : Bool)
  | nodestoreAdd (indexed allStores : Stores) (fresh : Bool)
  | nodestoreUpdate (indexed allStores : Stores) (fresh : Bool)
  | nodestoreDelete (fresh : Bool)

/-- The API server accepts a write that is computed from the current object. -/
def submit (t : Tenant) (fresh : Bool) (outcome : Outcome) : Bool × Tenant :=
  match outcome.write with
  | some written => if fresh then (true, written) else (false, t)
  | none => (false, t)

/-- The next tenant, and whether its status was written. -/
def step (t : Tenant) : Action → Bool × Tenant
  | .setZones zones => (false, { t with zones := zones })
  | .tenantAdd stores fresh => submit t fresh (reconcileTenantAdd t stores.list)
  | .tenantUpdate stores fresh => submit t fresh (reconcileTenantUpdate t stores.list)
  | .nodestoreAdd indexed allStores fresh =>
    submit t fresh (reconcileNodestoreAdd t indexed.list allStores.list)
  | .nodestoreUpdate indexed allStores fresh =>
    submit t fresh (reconcileNodestoreUpdate t indexed.list allStores.list)
  | .nodestoreDelete fresh => submit t fresh (reconcileNodestoreDelete t.name t)

/-- A tenant with the empty status. -/
def newTenant (name : String) (zones : ℤ) : Tenant :=
  ⟨name, zones, [], []⟩

/-- No node is listed twice, in one list or in both. -/
structure WellFormed (t : Tenant) : Prop where
  assigned : (t.assignedNodes.map NodeInfo.name).Nodup
  awaiting : t.awaitingNodeConfiguration.Nodup
  apart : ∀ id ∈ t.awaitingNodeConfiguration, id ∉ t.assignedNodes.map NodeInfo.name

/-- The number of assigned nodes is at most that of the zones. -/
def WithinZones (t : Tenant) : Prop :=
  (t.assignedNodes.length : ℤ) ≤ max t.zones 0

/-- The reconcilers that recompute both lists. -/
def Action.recomputes : Action → Bool
  | .tenantUpdate .. => true
  | .nodestoreAdd .. => true
  | .nodestoreUpdate .. => true
  | _ => false

/-- If the action recomputes the status and writes it, the status is within the zones. -/
def WritesWithinZones (t : Tenant) (a : Action) : Prop :=
  a.recomputes = true → (step t a).1 = true → WithinZones (step t a).2

/-! ### The recomputed status -/

/-- The nodes that are awaited in addition were not used, and none is awaited twice. -/
theorem awaitMore_spec (candidateIDs : List String) :
  ∀ (delta : ℕ) {used awaiting : List String}, awaiting.Nodup → (∀ id ∈ awaiting, id ∈ used) →
    (awaitMore delta used awaiting candidateIDs).Nodup
      ∧ ∀ id ∈ awaitMore delta used awaiting candidateIDs, id ∈ awaiting ∨ id ∉ used
  := by
  -- a node that is taken is used from then on, so what is awaited is always used
  induction candidateIDs with
  | nil =>
    intro delta used awaiting hnodup _
    rw [awaitMore]
    exact ⟨hnodup, fun id hid => Or.inl hid⟩
  | cons id candidateIDs ih =>
    intro delta used awaiting hnodup hused
    cases delta with
    | zero =>
      rw [awaitMore]
      exact ⟨hnodup, fun id hid => Or.inl hid⟩
    | succ delta =>
      rw [awaitMore]
      split
      · apply ih (delta + 1) hnodup hused
      · next hid =>
        have hnew : id ∉ awaiting := fun h => hid (hused id h)
        have hnodup' : (awaiting ++ [id]).Nodup := by
          rw [← List.concat_eq_append]
          apply hnodup.concat hnew
        have hused' : ∀ id' ∈ awaiting ++ [id], id' ∈ id :: used := by grind
        obtain ⟨hres, hmem⟩ := ih delta hnodup' hused'
        refine ⟨hres, ?_⟩
        intro id' hid'
        have := hmem id' hid'
        grind

theorem mem_assignedIDs {assigned : List NodeInfo} (hnamed : ∀ ni ∈ assigned, ni.name ≠ "")
    (id : String) :
  id ∈ assignedIDs assigned ↔ id ∈ assigned.map NodeInfo.name
  := by
  simp only [assignedIDs, List.mem_filter, decide_eq_true_eq, and_iff_left_iff_imp]
  intro hid
  obtain ⟨ni, hni, rfl⟩ := List.mem_map.mp hid
  apply hnamed ni hni

section

variable {t : Tenant} (stores : List NodeStore)

/-- The assigned nodes that are left are the first ones. -/
theorem recompute_assigned :
  (recomputeAwaitingAndAssignedForZones t stores).2.1 <+: t.assignedNodes
  := by
  simp only [recomputeAwaitingAndAssignedForZones]
  split
  · apply List.take_prefix
  · apply List.prefix_rfl

/-- At most as many nodes are left as there are zones. -/
theorem recompute_length :
  ((recomputeAwaitingAndAssignedForZones t stores).2.1.length : ℤ) ≤ max t.zones 0
  := by
  simp only [recomputeAwaitingAndAssignedForZones]
  split
  · rw [List.length_take]
    omega
  · omega

/-- The awaited nodes are distinct and not assigned. -/
theorem recompute_awaiting (hawaiting : t.awaitingNodeConfiguration.Nodup)
    (hnamed : ∀ ni ∈ t.assignedNodes, ni.name ≠ "") :
  (recomputeAwaitingAndAssignedForZones t stores).1.Nodup
    ∧ ∀ id ∈ (recomputeAwaitingAndAssignedForZones t stores).1,
        id ∉ t.assignedNodes.map NodeInfo.name
  := by
  simp only [recomputeAwaitingAndAssignedForZones, ← mem_assignedIDs hnamed]
  set kept := t.awaitingNodeConfiguration.filter (fun id => id ∉ assignedIDs t.assignedNodes)
  have hkept : kept.Nodup := hawaiting.filter _
  have hapart : ∀ id ∈ kept, id ∉ assignedIDs t.assignedNodes := by
    intro id hid
    simpa using (List.mem_filter.mp hid).2
  split
  · obtain ⟨hnodup, hmem⟩ := awaitMore_spec (candidates stores) _ hkept
      (fun id hid => List.mem_append_right (assignedIDs t.assignedNodes) hid)
    refine ⟨hnodup, ?_⟩
    intro id hid
    rcases hmem id hid with hold | hnew
    · apply hapart id hold
    · exact fun h => hnew (List.mem_append_left _ h)
  · exact ⟨hkept, hapart⟩

end

/-! ### The reconcilers -/

/-- The status is well formed, and the assigned nodes have names. -/
structure Inv (t : Tenant) : Prop where
  wellFormed : WellFormed t
  named : ∀ ni ∈ t.assignedNodes, ni.name ≠ ""

/-- A recomputed status is well formed, whatever was assigned. -/
theorem Inv.of_recompute {t : Tenant} (hawaiting : t.awaitingNodeConfiguration.Nodup)
    (hassigned : (t.assignedNodes.map NodeInfo.name).Nodup)
    (hnamed : ∀ ni ∈ t.assignedNodes, ni.name ≠ "") (stores : List NodeStore) :
  Inv { t with
    awaitingNodeConfiguration := (recomputeAwaitingAndAssignedForZones t stores).1
    assignedNodes := (recomputeAwaitingAndAssignedForZones t stores).2.1 }
  := by
  have hleft := recompute_assigned (t := t) stores
  obtain ⟨hnodup, hapart⟩ := recompute_awaiting stores hawaiting hnamed
  constructor
  · constructor
    · apply List.Nodup.sublist (hleft.sublist.map _) hassigned
    · exact hnodup
    · intro id hid hmem
      apply hapart id hid
      apply (hleft.sublist.map _).subset hmem
  · intro ni hni
    apply hnamed ni (hleft.subset hni)

/-- What the stores report of a tenant names different nodes. -/
theorem reported_nodup (stores : Stores) (name : String) :
  (((nodeStoresForTenant stores.list name).filterMap (nodeInfo name)).map NodeInfo.name).Nodup
    ∧ ∀ ni ∈ (nodeStoresForTenant stores.list name).filterMap (nodeInfo name), ni.name ≠ ""
  := by
  have hname : ∀ ns ni, nodeInfo name ns = some ni → ni.name = ns.specName := by
    intro ns ni h
    obtain ⟨infra, -, rfl⟩ := Option.map_eq_some_iff.mp h
    rfl
  have hsublist : ∀ list : List NodeStore,
      ((list.filterMap (nodeInfo name)).map NodeInfo.name).Sublist
        (list.map NodeStore.specName) := by
    intro list
    induction list with
    | nil => simp
    | cons ns list ih =>
      cases hns : nodeInfo name ns with
      | none =>
        rw [List.filterMap_cons_none hns]
        apply ih.cons
      | some ni =>
        rw [List.filterMap_cons_some hns, List.map_cons, List.map_cons, hname ns ni hns]
        apply ih.cons_cons
  constructor
  · apply List.Nodup.sublist _ stores.distinct
    apply (hsublist _).trans
    apply List.filter_sublist.map
  · intro ni hni
    obtain ⟨ns, hns, hinfo⟩ := List.mem_filterMap.mp hni
    rw [hname ns ni hinfo]
    apply stores.named ns (List.mem_of_mem_filter hns)

theorem map_nodeID (stores : Stores) :
  stores.list.map nodeID = stores.list.map NodeStore.specName
  := by
  apply List.map_congr_left
  intro ns hns
  rw [nodeID, if_neg (stores.named ns hns)]

section

variable {t written : Tenant}

/-- The first nodes are distinct, and none is assigned yet. -/
theorem reconcileTenantAdd_inv (stores : Stores)
    (hwrite : (reconcileTenantAdd t stores.list).write = some written) :
  Inv written
  := by
  rw [reconcileTenantAdd] at hwrite
  split at hwrite
  · cases hwrite
  · next hempty =>
    obtain ⟨-, hassigned⟩ := not_or.mp hempty
    rw [not_not] at hassigned
    split at hwrite
    · cases hwrite
    · cases hwrite
    · next seed _ hseed =>
      cases hwrite
      have hnodup : seed.Nodup := by
        rw [selectInitialAwaitingNodes, map_nodeID] at hseed
        split at hseed
        · cases hseed
          apply List.nodup_nil
        · split at hseed
          · cases hseed
          · cases hseed
            apply List.Nodup.sublist (List.take_sublist _ _) stores.distinct
      constructor
      · constructor
        · simp [hassigned]
        · exact hnodup
        · simp [hassigned]
      · simp [hassigned]

theorem reconcileTenantUpdate_inv (h : Inv t) (stores : List NodeStore)
    (hwrite : (reconcileTenantUpdate t stores).write = some written) :
  Inv written ∧ WithinZones written
  := by
  simp only [reconcileTenantUpdate] at hwrite
  split at hwrite
  · cases hwrite
    constructor
    · apply Inv.of_recompute h.wellFormed.awaiting h.wellFormed.assigned h.named
    · apply recompute_length stores
  · cases hwrite

theorem reconcileNodestoreUpdate_inv (h : Inv t) (indexed : Stores) (allStores : List NodeStore)
    (hwrite : (reconcileNodestoreUpdate t indexed.list allStores).write = some written) :
  Inv written ∧ WithinZones written
  := by
  simp only [reconcileNodestoreUpdate] at hwrite
  obtain ⟨hnodup, hnamed⟩ := reported_nodup indexed t.name
  split at hwrite
  · cases hwrite
    constructor
    · exact Inv.of_recompute
        (t := { t with assignedNodes :=
          (nodeStoresForTenant indexed.list t.name).filterMap (nodeInfo t.name) })
        h.wellFormed.awaiting hnodup hnamed allStores
    · exact recompute_length
        (t := { t with assignedNodes :=
          (nodeStoresForTenant indexed.list t.name).filterMap (nodeInfo t.name) }) allStores
  · cases hwrite

theorem reconcileNodestoreDelete_inv (h : Inv t) (refName : String)
    (hwrite : (reconcileNodestoreDelete refName t).write = some written) :
  Inv written
  := by
  simp only [reconcileNodestoreDelete] at hwrite
  split at hwrite
  · cases hwrite
  · cases hwrite
    have hleft := List.filter_sublist (p := fun ni => ni.name ≠ refName) (l := t.assignedNodes)
    constructor
    · constructor
      · apply List.Nodup.sublist (hleft.map _) h.wellFormed.assigned
      · exact h.wellFormed.awaiting
      · intro id hid hmem
        apply h.wellFormed.apart id hid ((hleft.map _).subset hmem)
    · intro ni hni
      apply h.named ni (hleft.subset hni)

end

/-! ### Runs -/

/-- A property of the current tenant and of what is written holds after a write or its rejection. -/
theorem submit_of {P : Tenant → Prop} {t : Tenant} (ht : P t) {outcome : Outcome}
    (hwrite : ∀ written, outcome.write = some written → P written) (fresh : Bool) :
  P (submit t fresh outcome).2
  := by
  rw [submit]
  split
  · next written hwritten =>
    cases fresh with
    | true => apply hwrite written hwritten
    | false => exact ht
  · exact ht

/-- After an accepted write the tenant is what was written. -/
theorem write_of_submit {t : Tenant} {fresh : Bool} {outcome : Outcome}
    (h : (submit t fresh outcome).1 = true) :
  outcome.write = some (submit t fresh outcome).2
  := by
  grind [submit]

theorem step_inv (t : Tenant) (a : Action) (h : Inv t) :
  Inv (step t a).2
  := by
  cases a with
  | setZones zones =>
    obtain ⟨⟨hassigned, hawaiting, hapart⟩, hnamed⟩ := h
    exact ⟨⟨hassigned, hawaiting, hapart⟩, hnamed⟩
  | tenantAdd stores fresh =>
    apply submit_of h
    intro written hwrite
    apply reconcileTenantAdd_inv stores hwrite
  | tenantUpdate stores fresh =>
    apply submit_of h
    intro written hwrite
    apply (reconcileTenantUpdate_inv h stores.list hwrite).1
  | nodestoreAdd indexed allStores fresh | nodestoreUpdate indexed allStores fresh =>
    apply submit_of h
    intro written hwrite
    apply (reconcileNodestoreUpdate_inv h indexed allStores.list hwrite).1
  | nodestoreDelete fresh =>
    apply submit_of h
    intro written hwrite
    apply reconcileNodestoreDelete_inv h t.name hwrite

theorem newTenant_inv (name : String) (zones : ℤ) :
  Inv (newTenant name zones)
  := by
  constructor
  · constructor <;> simp [newTenant]
  · simp [newTenant]

theorem Inv.writesWithinZones {t : Tenant} (h : Inv t) (a : Action) :
  WritesWithinZones t a
  := by
  intro hrecomputes hwritten
  cases a with
  | setZones | tenantAdd | nodestoreDelete => cases hrecomputes
  | tenantUpdate stores fresh =>
    exact (reconcileTenantUpdate_inv h stores.list (write_of_submit hwritten)).2
  | nodestoreAdd indexed allStores fresh | nodestoreUpdate indexed allStores fresh =>
    exact (reconcileNodestoreUpdate_inv h indexed allStores.list (write_of_submit hwritten)).2

/-- After every run from the empty status the status is well formed, and the next write of a
recomputed status is within the zones. -/
theorem after_wellFormed (name : String) (zones : ℤ) (actions : List Action) (a : Action) :
  WellFormed (Machine.after step (newTenant name zones) actions)
    ∧ WritesWithinZones (Machine.after step (newTenant name zones) actions) a
  := by
  have h : Inv (Machine.after step (newTenant name zones) actions) := by
    apply Machine.after_of_forall
    · intro t a h
      apply step_inv t a h
    · apply newTenant_inv
  constructor
  · exact h.wellFormed
  · apply h.writesWithinZones

end Orchestrator
