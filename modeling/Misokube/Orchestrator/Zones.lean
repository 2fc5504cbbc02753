import Misokube.Orchestrator.Placement
import Mathlib.Data.Finset.Card
import Mathlib.Data.Finset.Dedup
import Mathlib.Data.List.Sort

/-!
# The number of nodes of a tenant

`recomputeAwaitingAndAssignedForZones` in closed form (`recompute_eq`): it keeps the awaited nodes
that are not assigned, takes as many new ones in order as are missing, and keeps as many of the
assigned nodes as there is room for.  So it places a tenant on as many nodes as it has zones, as
far as there are nodes (`recompute_places`), and it does nothing to its own result
(`recompute_stable`).
-/

namespace Orchestrator

open Api

/-! ### Nodes that are not used -/

/-- The candidates that are not used, each at its first place. -/
def unused (used : List String) : List String → List String
  | [] => []
  | id :: candidateIDs =>
    if id ∈ used then unused used candidateIDs else id :: unused (id :: used) candidateIDs

/-- The loop takes the first candidates that are not used. -/
theorem awaitMore_eq (delta : ℕ) (used awaiting candidateIDs : List String) :
  awaitMore delta used awaiting candidateIDs
    = awaiting ++ (unused used candidateIDs).take delta
  := by
  induction candidateIDs generalizing delta used awaiting with
  | nil => simp [awaitMore, unused]
  | cons id candidateIDs ih =>
    cases delta with
    | zero => simp [awaitMore]
    | succ delta =>
      rw [awaitMore, unused]
      split
      · rw [ih]
      · rw [ih, List.take_succ_cons, List.append_assoc, List.singleton_append]

theorem mem_unused {used candidateIDs : List String} {id : String} :
  id ∈ unused used candidateIDs ↔ id ∈ candidateIDs ∧ id ∉ used
  := by
  induction candidateIDs generalizing used with
  | nil => simp [unused]
  | cons id' candidateIDs ih =>
    rw [unused]
    split
    case isTrue hused =>
      rw [ih, List.mem_cons]
      constructor
      · rintro ⟨hmem, hid⟩
        exact ⟨Or.inr hmem, hid⟩
      · rintro ⟨rfl | hmem, hid⟩
        · exact absurd hused hid
        · exact ⟨hmem, hid⟩
    case isFalse hused =>
      rw [List.mem_cons, ih, List.mem_cons, List.mem_cons, not_or]
      constructor
      · rintro (rfl | ⟨hmem, -, hid⟩)
        · exact ⟨Or.inl rfl, hused⟩
        · exact ⟨Or.inr hmem, hid⟩
      · rintro ⟨rfl | hmem, hid⟩
        · exact Or.inl rfl
        · by_cases heq : id = id'
          · exact Or.inl heq
          · exact Or.inr ⟨hmem, heq, hid⟩

/-- Candidates in order stay in order, without repetitions. -/
theorem unused_pairwise {used candidateIDs : List String}
    (h : candidateIDs.Pairwise (· ≤ ·)) :
  (unused used candidateIDs).Pairwise (· < ·)
  := by
  induction candidateIDs generalizing used with
  | nil => simp [unused]
  | cons id candidateIDs ih =>
    obtain ⟨hle, hrest⟩ := List.pairwise_cons.mp h
    rw [unused]
    split
    · apply ih hrest
    · apply List.pairwise_cons.mpr
      use ?_, ih hrest
      intro id' hid'
      obtain ⟨hmem, hnot⟩ := mem_unused.mp hid'
      rw [List.mem_cons, not_or] at hnot
      apply lt_of_le_of_ne (hle id' hmem) (Ne.symm hnot.1)

theorem mem_candidates {stores : List NodeStore} {id : String} :
  id ∈ candidates stores ↔ id ∈ stores.map nodeID ∧ id ≠ ""
  := by
  rw [candidates, List.mem_mergeSort, List.mem_filter, decide_eq_true_eq]

theorem candidates_pairwise (stores : List NodeStore) :
  (candidates stores).Pairwise (· ≤ ·)
  := List.pairwise_mergeSort' (· ≤ ·) _

/-- The order of the stores does not matter. -/
theorem candidates_perm {stores stores' : List NodeStore} (h : stores.Perm stores') :
  candidates stores = candidates stores'
  := by
  apply List.Perm.eq_of_pairwise' (candidates_pairwise stores) (candidates_pairwise stores')
  apply (List.mergeSort_perm _ _).trans
  apply List.Perm.trans _ (List.mergeSort_perm _ _).symm
  apply (h.map nodeID).filter

/-! ### The closed form -/

/-- The awaited nodes that are not assigned. -/
def keptAwaiting (t : Tenant) : List String :=
  t.awaitingNodeConfiguration.filter fun id => id ∉ assignedIDs t.assignedNodes

/-- The number of nodes the tenant is to have. -/
def zoneCount (t : Tenant) : ℕ :=
  (max t.zones 0).toNat

/-- The candidates that are neither assigned nor awaited, in order. -/
def freshNodes (t : Tenant) (stores : List NodeStore) : List String :=
  unused (assignedIDs t.assignedNodes ++ keptAwaiting t) (candidates stores)

/-- The awaited nodes after the recomputation. -/
def newAwaiting (t : Tenant) (stores : List NodeStore) : List String :=
  keptAwaiting t
    ++ (freshNodes t stores).take (zoneCount t - (t.assignedNodes.length + (keptAwaiting t).length))

/-- The assigned nodes after the recomputation. -/
def newAssigned (t : Tenant) : List NodeInfo :=
  t.assignedNodes.take (zoneCount t - (keptAwaiting t).length)

section

variable (t : Tenant) (stores : List NodeStore)

theorem natCast_zoneCount :
  (zoneCount t : ℤ) = max t.zones 0
  := Int.toNat_of_nonneg (le_max_right _ _)

theorem recompute_fst :
  (recomputeAwaitingAndAssignedForZones t stores).1 = newAwaiting t stores
  := by
  dsimp only [recomputeAwaitingAndAssignedForZones]
  rw [← keptAwaiting, ← natCast_zoneCount, newAwaiting]
  split
  case isTrue hpos =>
    rw [awaitMore_eq, freshNodes]
    congr 2
    omega
  case isFalse hneg =>
    have hzero : zoneCount t - (t.assignedNodes.length + (keptAwaiting t).length) = 0 := by omega
    rw [hzero, List.take_zero, List.append_nil]

theorem recompute_snd :
  (recomputeAwaitingAndAssignedForZones t stores).2.1 = newAssigned t
  := by
  dsimp only [recomputeAwaitingAndAssignedForZones]
  rw [← keptAwaiting, ← natCast_zoneCount, newAssigned]
  split
  case isTrue hneg =>
    congr 1
    omega
  case isFalse hpos =>
    symm
    apply List.take_of_length_le
    omega

/-- The nodes are kept and taken as the closed form says, and a change is reported if a list is not
what it was. -/
theorem recompute_eq :
  recomputeAwaitingAndAssignedForZones t stores
    = (newAwaiting t stores, newAssigned t,
      decide (t.awaitingNodeConfiguration ≠ newAwaiting t stores
        ∨ ¬ equalNodeInfos t.assignedNodes (newAssigned t)))
  := by
  have hfst := recompute_fst t stores
  have hsnd := recompute_snd t stores
  rw [← hfst, ← hsnd]
  rfl

end

/-! ### Nodes and zones -/

/-- The nodes of the stores that are neither assigned nor awaited. -/
def available (t : Tenant) (stores : List NodeStore) : Finset String :=
  ((stores.map nodeID).filter fun id =>
    id ≠ "" ∧ id ∉ t.assignedNodes.map NodeInfo.name ∧ id ∉ keptAwaiting t).toFinset

/-- The lists place the tenant: the assigned nodes are the first ones, the awaited nodes are kept
and followed by available ones in order, and together they are as many as there are zones, if there
are enough nodes and not too many are awaited already. -/
structure Places (t : Tenant) (stores : List NodeStore) (awaiting : List String)
    (assigned : List NodeInfo) : Prop where
  assigned_first : assigned <+: t.assignedNodes
  appended : ∃ more, awaiting = keptAwaiting t ++ more ∧ more.Pairwise (· < ·)
    ∧ ∀ id ∈ more, id ∈ available t stores
  apart : ∀ id, id ≠ "" → id ∈ awaiting → id ∉ assigned.map NodeInfo.name
  enough : (keptAwaiting t).length ≤ zoneCount t →
    zoneCount t ≤ t.assignedNodes.length + (keptAwaiting t).length + (available t stores).card →
      assigned.length + awaiting.length = zoneCount t
  short : t.assignedNodes.length + (keptAwaiting t).length + (available t stores).card
      < zoneCount t → assigned = t.assignedNodes ∧ assigned.length + awaiting.length
        = t.assignedNodes.length + (keptAwaiting t).length + (available t stores).card
  exceeded : zoneCount t < (keptAwaiting t).length → assigned = [] ∧ awaiting = keptAwaiting t

section

variable {t : Tenant} {stores : List NodeStore} {id : String}

theorem mem_assignedIDs_iff {assigned : List NodeInfo} :
  id ∈ assignedIDs assigned ↔ id ∈ assigned.map NodeInfo.name ∧ id ≠ ""
  := by
  rw [assignedIDs, List.mem_filter, decide_eq_true_eq]

theorem mem_available :
  id ∈ available t stores ↔ id ∈ freshNodes t stores
  := by
  rw [available, List.mem_toFinset, List.mem_filter, decide_eq_true_eq, freshNodes, mem_unused,
    mem_candidates, List.mem_append, mem_assignedIDs_iff, not_or, not_and, not_not]
  tauto

theorem freshNodes_pairwise (t : Tenant) (stores : List NodeStore) :
  (freshNodes t stores).Pairwise (· < ·)
  := unused_pairwise (candidates_pairwise stores)

theorem card_available (t : Tenant) (stores : List NodeStore) :
  (available t stores).card = (freshNodes t stores).length
  := by
  have hnodup : (freshNodes t stores).Nodup := (freshNodes_pairwise t stores).imp ne_of_lt
  have heq : available t stores = (freshNodes t stores).toFinset := by
    ext id
    rw [mem_available, List.mem_toFinset]
  rw [heq, List.toFinset_card_of_nodup hnodup]

theorem length_newAwaiting (t : Tenant) (stores : List NodeStore) :
  (newAwaiting t stores).length = (keptAwaiting t).length
    + min (zoneCount t - (t.assignedNodes.length + (keptAwaiting t).length))
      (freshNodes t stores).length
  := by
  rw [newAwaiting, List.length_append, List.length_take]

theorem length_newAssigned (t : Tenant) :
  (newAssigned t).length
    = min (zoneCount t - (keptAwaiting t).length) t.assignedNodes.length
  := List.length_take

theorem mem_keptAwaiting :
  id ∈ keptAwaiting t ↔ id ∈ t.awaitingNodeConfiguration ∧ id ∉ assignedIDs t.assignedNodes
  := by
  rw [keptAwaiting, List.mem_filter, decide_eq_true_eq]

/-- What is awaited was awaited or is available, and is not assigned. -/
theorem not_mem_assignedIDs_of_newAwaiting (hid : id ∈ newAwaiting t stores) :
  id ∉ assignedIDs t.assignedNodes
  := by
  rcases List.mem_append.mp hid with hid | hid
  · exact (mem_keptAwaiting.mp hid).2
  · have hnot := (mem_unused.mp (List.mem_of_mem_take hid)).2
    rw [List.mem_append, not_or] at hnot
    exact hnot.1

end

/-- The recomputation places the tenant. -/
theorem recompute_places (t : Tenant) (stores : List NodeStore) :
  Places t stores (recomputeAwaitingAndAssignedForZones t stores).1
    (recomputeAwaitingAndAssignedForZones t stores).2.1
  := by
  have hawaiting := length_newAwaiting t stores
  have hassigned := length_newAssigned t
  have hcard := card_available t stores
  rw [recompute_fst, recompute_snd]
  constructor
  · apply List.take_prefix
  · refine ⟨_, rfl, ?_⟩
    constructor
    · apply (freshNodes_pairwise t stores).sublist (List.take_sublist _ _)
    · intro id hid
      apply mem_available.mpr (List.mem_of_mem_take hid)
  · intro id hne hid hmem
    apply not_mem_assignedIDs_of_newAwaiting hid
    apply mem_assignedIDs_iff.mpr ⟨_, hne⟩
    apply ((List.take_sublist _ _).map _).subset hmem
  · intro hle henough
    omega
  · intro hshort
    constructor
    · apply List.take_of_length_le
      omega
    · omega
  · intro hover
    have hzero : zoneCount t - (keptAwaiting t).length = 0 := by omega
    have hzero' : zoneCount t - (t.assignedNodes.length + (keptAwaiting t).length) = 0 := by omega
    constructor
    · rw [newAssigned, hzero, List.take_zero]
    · rw [newAwaiting, hzero', List.take_zero, List.append_nil]

/-! ### Stability -/

section

variable {t : Tenant} {stores : List NodeStore}

/-- A list of nodes with different names is equal to itself as the comparison by names sees it. -/
theorem equalNodeInfos_self {nodes : List NodeInfo} (h : (nodes.map NodeInfo.name).Nodup) :
  equalNodeInfos nodes nodes = true
  := by
  rw [equalNodeInfos, decide_eq_true_eq]
  use rfl
  intro y hy
  rw [lastNamed, List.find?_eq_some_iff_append]
  use by simp
  obtain ⟨before, after, hsplit⟩ := List.append_of_mem hy
  use after.reverse, before.reverse
  rw [hsplit]
  constructor
  · simp
  · intro x hx
    rw [List.mem_reverse] at hx
    rw [hsplit, List.map_append, List.map_cons, List.nodup_append] at h
    have hne := (List.nodup_cons.mp h.2.1).1
    simp only [Bool.not_eq_true', decide_eq_false_iff_not]
    intro hname
    apply hne
    rw [← hname]
    apply List.mem_map_of_mem hx

/-- No change is reported exactly when both lists are what they were. -/
theorem recompute_changed_iff (hnames : (t.assignedNodes.map NodeInfo.name).Nodup)
    (stores : List NodeStore) :
  (recomputeAwaitingAndAssignedForZones t stores).2.2 = false
    ↔ newAwaiting t stores = t.awaitingNodeConfiguration ∧ newAssigned t = t.assignedNodes
  := by
  rw [recompute_eq, decide_eq_false_iff_not, not_or, not_not, not_not]
  apply and_congr
  · exact eq_comm
  · constructor
    · intro hequal
      rw [equalNodeInfos, decide_eq_true_eq] at hequal
      apply List.take_of_length_le
      have hlength := length_newAssigned t
      omega
    · intro heq
      rw [heq]
      apply equalNodeInfos_self hnames

/-- The tenant with the recomputed status. -/
def recomputed (t : Tenant) (stores : List NodeStore) : Tenant :=
  { t with
    awaitingNodeConfiguration := newAwaiting t stores
    assignedNodes := newAssigned t }

/-- All awaited nodes of a recomputed status are kept. -/
theorem keptAwaiting_recomputed (t : Tenant) (stores : List NodeStore) :
  keptAwaiting (recomputed t stores) = newAwaiting t stores
  := by
  apply List.filter_eq_self.mpr
  intro id hid
  have hnot := not_mem_assignedIDs_of_newAwaiting hid
  rw [decide_eq_true_eq]
  intro hmem
  apply hnot
  rw [mem_assignedIDs_iff] at hmem ⊢
  use ((List.take_sublist _ _).map _).subset hmem.1
  exact hmem.2

theorem newAssigned_recomputed (t : Tenant) (stores : List NodeStore) :
  newAssigned (recomputed t stores) = newAssigned t
  := by
  have hawaiting := length_newAwaiting t stores
  have hassigned := length_newAssigned t
  have hzones : zoneCount (recomputed t stores) = zoneCount t := rfl
  rw [newAssigned, keptAwaiting_recomputed, hzones]
  apply List.take_of_length_le
  dsimp only [recomputed]
  omega

theorem newAwaiting_recomputed (t : Tenant) (stores : List NodeStore) :
  newAwaiting (recomputed t stores) stores = newAwaiting t stores
  := by
  have hawaiting := length_newAwaiting t stores
  have hassigned := length_newAssigned t
  have hzones : zoneCount (recomputed t stores) = zoneCount t := rfl
  have hnodes : (recomputed t stores).assignedNodes = newAssigned t := rfl
  rw [newAwaiting, keptAwaiting_recomputed, hzones, hnodes]
  apply List.append_right_eq_self.mpr
  rw [List.take_eq_nil_iff]
  by_cases hshort : zoneCount t ≤ (newAssigned t).length + (newAwaiting t stores).length
  · left
    omega
  · -- nodes are still missing, so all that were available are awaited now
    right
    have hall : newAwaiting t stores = keptAwaiting t ++ freshNodes t stores := by
      rw [newAwaiting, List.take_of_length_le]
      omega
    have hsame : newAssigned t = t.assignedNodes := by
      apply List.take_of_length_le
      omega
    apply List.eq_nil_iff_forall_not_mem.mpr
    intro id hid
    rw [freshNodes, mem_unused, keptAwaiting_recomputed, hnodes, hsame, hall, List.mem_append,
      List.mem_append, not_or, not_or] at hid
    obtain ⟨hcandidate, hassigned, hkept, hfresh⟩ := hid
    apply hfresh
    apply mem_unused.mpr ⟨hcandidate, _⟩
    rw [List.mem_append, not_or]
    exact ⟨hassigned, hkept⟩

end

/-- For a tenant whose assigned nodes have different names, the result does not depend on the order
of the stores, the recomputation leaves its own result and reports no change to it, and it reports
no change exactly when it returns the lists it was given. -/
theorem recompute_stable {t : Tenant} (hnames : (t.assignedNodes.map NodeInfo.name).Nodup)
    (stores : List NodeStore) :
  (∀ stores', stores'.Perm stores →
      recomputeAwaitingAndAssignedForZones t stores'
        = recomputeAwaitingAndAssignedForZones t stores)
    ∧ (∀ awaiting assigned changed,
      recomputeAwaitingAndAssignedForZones t stores = (awaiting, assigned, changed) →
        recomputeAwaitingAndAssignedForZones
            { t with awaitingNodeConfiguration := awaiting, assignedNodes := assigned } stores
          = (awaiting, assigned, false)
        ∧ (changed = false
          ↔ awaiting = t.awaitingNodeConfiguration ∧ assigned = t.assignedNodes))
  := by
  constructor
  · intro stores' hperm
    rw [recompute_eq, recompute_eq, newAwaiting, newAwaiting, freshNodes, freshNodes,
      candidates_perm hperm]
  · intro awaiting assigned changed heq
    have hchanged := recompute_changed_iff hnames stores
    rw [heq] at hchanged
    rw [recompute_eq, Prod.mk.injEq, Prod.mk.injEq] at heq
    obtain ⟨rfl, rfl, -⟩ := heq
    constructor
    · have hnames' : ((recomputed t stores).assignedNodes.map NodeInfo.name).Nodup :=
        hnames.sublist ((List.take_sublist _ _).map _)
      have hsame := (recompute_changed_iff hnames' stores).mpr
        ⟨newAwaiting_recomputed t stores, newAssigned_recomputed t stores⟩
      apply Prod.ext
      · exact (recompute_fst _ _).trans (newAwaiting_recomputed t stores)
      apply Prod.ext
      · exact (recompute_snd _ _).trans (newAssigned_recomputed t stores)
      · exact hsame
    · exact hchanged

/-- A tenant of two zones that is assigned to one node. -/
def twoZones : Tenant :=
  ⟨"blue", 2, [⟨"a", "", "", "", ""⟩], []⟩

/-- One of two other nodes is awaited, the same one in either order, and once the status has it
nothing changes any more. -/
theorem recompute_stable_two_zones :
  recomputeAwaitingAndAssignedForZones twoZones [⟨"c", "c", "", ∅⟩, ⟨"b", "b", "", ∅⟩]
      = recomputeAwaitingAndAssignedForZones twoZones [⟨"b", "b", "", ∅⟩, ⟨"c", "c", "", ∅⟩]
    ∧ recomputeAwaitingAndAssignedForZones twoZones [⟨"b", "b", "", ∅⟩, ⟨"c", "c", "", ∅⟩]
      = (["b"], [⟨"a", "", "", "", ""⟩], true)
    ∧ recomputeAwaitingAndAssignedForZones { twoZones with awaitingNodeConfiguration := ["b"] }
        [⟨"b", "b", "", ∅⟩, ⟨"c", "c", "", ∅⟩]
      = (["b"], [⟨"a", "", "", "", ""⟩], false)
  := by
  have hnames : (twoZones.assignedNodes.map NodeInfo.name).Nodup := List.nodup_singleton "a"
  have hawaited : recomputeAwaitingAndAssignedForZones twoZones
      [⟨"b", "b", "", ∅⟩, ⟨"c", "c", "", ∅⟩] = (["b"], [⟨"a", "", "", "", ""⟩], true) := by
    have hsorted : candidates [⟨"b", "b", "", ∅⟩, ⟨"c", "c", "", ∅⟩] = ["b", "c"] :=
      List.mergeSort_of_pairwise (by decide +kernel)
    rw [recomputeAwaitingAndAssignedForZones, hsorted]
    decide +kernel
  obtain ⟨hperm, hagain⟩ := recompute_stable hnames [⟨"b", "b", "", ∅⟩, ⟨"c", "c", "", ∅⟩]
  refine ⟨hperm _ (List.Perm.swap _ _ _), hawaited, ?_⟩
  exact (hagain _ _ _ hawaited).1

end Orchestrator
