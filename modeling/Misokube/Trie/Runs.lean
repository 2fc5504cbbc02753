import Misokube.Lib.Machine
import Misokube.Trie.Refinement

/-!
# Runs of the subnet manager

The subnet manager as a machine, whose operations are `Allocate`, `Deallocate`, `Release`,
`Expand` and `Reduce`.  From a new manager on, every run of it is a run on trees of labels
(`after_models`, `replies_models`), and what `Get`, `List` and `FindAllFree` return is read off
the tree.
-/

namespace Trie

open Net BinaryTree Linked

/-- An operation of the subnet manager. -/
def step (tm : TrieManager) : Op → Reply × TrieManager
  | .allocate id => ((tm.allocate id).1.map some, (tm.allocate id).2)
  | .deallocate id => ((tm.deallocate id).1.map fun _ => none, (tm.deallocate id).2)
  | .release id => ((tm.release id).1.map fun _ => none, (tm.release id).2)
  | .expand id => ((tm.expand id).1.map some, (tm.expand id).2)
  | .reduce id => ((tm.reduce id).1.map some, (tm.reduce id).2)

theorem step_leafSize (tm : TrieManager) (op : Op) :
  (step tm op).2.leafSize = tm.leafSize
  := by
  cases op with
  | allocate id =>
    simp only [step, TrieManager.allocate]
    split
    · rfl
    split
    · rfl
    split <;> rfl
  | deallocate id =>
    simp only [step, TrieManager.deallocate]
    split
    · rfl
    split <;> rfl
  | release id =>
    simp only [step, TrieManager.release]
    split
    · rfl
    split
    · rfl
    split <;> rfl
  | expand id =>
    simp only [step, TrieManager.expand]
    split
    · rfl
    split
    · rfl
    split
    · rfl
    split
    · rfl
    split
    · rfl
    split
    · rfl
    split <;> rfl
  | reduce id =>
    simp only [step, TrieManager.reduce]
    split
    · rfl
    split
    · rfl
    split
    · rfl
    split
    · rfl
    split <;> rfl

/-- The manager represents the tree, which divides the network, and splits down to masks of
`leafSize` ones. -/
structure Refines (p : IPNet) (leafSize : ℤ) (tm : TrieManager) (T : BinaryTree Label) : Prop where
  models : Models tm T
  wellFormed : WellFormed p T
  leafSize_eq : tm.leafSize = leafSize

section

variable {p : IPNet} {leafSize : ℤ} {tm : TrieManager} {T : BinaryTree Label} {ones bits : ℕ}

/-- An operation answers as on the tree and leaves a manager that represents the new tree. -/
theorem step_models (hp : IsCIDR p ones bits) (h : Refines p leafSize tm T) (op : Op) :
  (step tm op).1 = (treeStep leafSize T op).1
    ∧ Refines p leafSize (step tm op).2 (treeStep leafSize T op).2
  := by
  obtain ⟨⟨t, ht, rfl⟩, hwf, hleaf⟩ := h
  have hreply : (step tm op).1 = (treeStep leafSize (labels t) op).1
      ∧ Models (step tm op).2 (treeStep leafSize (labels t) op).2 := by
    cases op with
    | allocate id =>
      obtain ⟨hresult, hmodels⟩ := allocate_models ht hwf id
      rw [step, treeStep, hresult]
      exact ⟨rfl, hmodels⟩
    | deallocate id =>
      obtain ⟨hresult, hmodels⟩ := deallocate_models ht hwf hp id
      rw [step, treeStep, hresult]
      exact ⟨rfl, hmodels⟩
    | release id =>
      obtain ⟨hresult, hmodels⟩ := release_models ht hwf hp id
      rw [step, treeStep, hresult]
      exact ⟨rfl, hmodels⟩
    | expand id =>
      obtain ⟨hresult, hmodels⟩ := expand_models ht hwf id
      rw [step, treeStep, hresult]
      exact ⟨rfl, hmodels⟩
    | reduce id =>
      obtain ⟨hresult, hmodels⟩ := reduce_models ht hwf id
      rw [hleaf] at hresult hmodels
      rw [step, treeStep, hresult]
      exact ⟨rfl, hmodels⟩
  refine ⟨hreply.1, hreply.2, treeStep_wellFormed hp hwf leafSize op, ?_⟩
  rw [step_leafSize, hleaf]

theorem Refines.deallocate (hp : IsCIDR p ones bits) (h : Refines p leafSize tm T) (id : String) :
  (tm.deallocate id).1 = (treeDeallocate id T).1
    ∧ Refines p leafSize (tm.deallocate id).2 (treeDeallocate id T).2
  := by
  constructor
  · obtain ⟨⟨t, ht, rfl⟩, hwf, -⟩ := h
    apply (deallocate_models ht hwf hp id).1
  · apply (step_models hp h (.deallocate id)).2

theorem Refines.release (hp : IsCIDR p ones bits) (h : Refines p leafSize tm T) (id : String) :
  (tm.release id).1 = (treeDeallocate id T).1
    ∧ Refines p leafSize (tm.release id).2 (treeDeallocate id T).2
  := by
  constructor
  · obtain ⟨⟨t, ht, rfl⟩, hwf, -⟩ := h
    apply (release_models ht hwf hp id).1
  · apply (step_models hp h (.release id)).2

/-- A run leaves a manager that represents the tree the run leaves. -/
theorem after_models (hp : IsCIDR p ones bits) (h : Refines p leafSize tm T) (ops : List Op) :
  Refines p leafSize (Machine.after step tm ops) (Machine.after (treeStep leafSize) T ops)
  := by
  apply Machine.after_of_simulation _ h
  intro tm T op h
  apply (step_models hp h op).2

/-- A run is answered as on the tree. -/
theorem replies_models (hp : IsCIDR p ones bits) (h : Refines p leafSize tm T) (ops : List Op) :
  Machine.replies step tm ops = Machine.replies (treeStep leafSize) T ops
  := by
  apply Machine.replies_eq_of_simulation _ h
  intro tm T op h
  apply step_models hp h op

/-- The new manager represents the free tree down to the leaf size; there is none beyond masks
of 32 ones. -/
theorem newTrieManager_models {root : IPNet} (hroot : IsCIDR root ones bits)
    (h : newTrieManager root leafSize = some tm) :
  ∃ k : ℕ, Refines root leafSize tm (fullTree k root)
    ∧ (k = 0 ∧ leafSize ≤ ones ∨ leafSize = ones + k ∧ ones + k ≤ 32)
  := by
  have hcell : [newTrieNode root none][0]? = some (newTrieNode root none) := rfl
  simp only [newTrieManager, IPTrie.build, newTrie, Option.map_map, Option.map_eq_some_iff] at h
  obtain ⟨heap, hheap, rfl⟩ := h
  have hlimit : leafSize ≤ ones ∨ leafSize ≤ 32 := by
    by_contra hnot
    push Not at hnot
    rw [buildRecursive_panics hnot.2 _ hcell hroot hnot.1] at hheap
    simp at hheap
  have hk : (leafSize - ones).toNat = 0 ∧ leafSize ≤ ones
      ∨ leafSize = ones + (leafSize - ones).toNat ∧ ones + (leafSize - ones).toNat ≤ 32 := by
    omega
  obtain ⟨heap', t, hbuild, built⟩ := buildRecursive_spec hcell hroot hk
    (show _ < leafSize.toNat + 1 by omega)
  rw [hheap, Option.some.injEq] at hbuild
  subst hbuild
  refine ⟨(leafSize - ones).toNat, ⟨⟨t, ?_, built.labels⟩, ?_, rfl⟩, hk⟩
  · refine ⟨built.holds, built.nodup, built.address_eq.symm, ?_⟩
    intro id x
    constructor
    · intro hlookup
      simp at hlookup
    · rintro ⟨a, ha, halloc, -⟩
      have hmem : a ∈ (fullTree (leafSize - ones).toNat root).values := by
        rw [← built.labels, values_map]
        apply List.mem_map_of_mem ha
      have hnil := holdings_fullTree (leafSize - ones).toNat root
      rw [holdings, allocatedNodes, List.map_eq_nil_iff, List.filter_eq_nil_iff] at hnil
      exact absurd halloc (hnil a hmem)
  · apply wellFormed_fullTree hroot
    omega

/-- There is a manager for every leaf size up to 32. -/
theorem exists_newTrieManager {root : IPNet} (hroot : IsCIDR root ones bits)
    (h : leafSize ≤ ones ∨ leafSize ≤ 32) :
  ∃ tm, newTrieManager root leafSize = some tm
  := by
  have hcell : [newTrieNode root none][0]? = some (newTrieNode root none) := rfl
  have hk : (leafSize - ones).toNat = 0 ∧ leafSize ≤ ones
      ∨ leafSize = ones + (leafSize - ones).toNat ∧ ones + (leafSize - ones).toNat ≤ 32 := by
    omega
  obtain ⟨heap, t, hbuild, -⟩ := buildRecursive_spec hcell hroot hk
    (show _ < leafSize.toNat + 1 by omega)
  use ⟨{ newTrie root with heap := heap }, leafSize⟩
  rw [newTrieManager, IPTrie.build]
  simp only [newTrie, hbuild, Option.map_some]

/-- There is a manager for every IPv4 network. -/
theorem exists_newTrieManager_ipv4 (ip : IP) (n : ℕ) (leafSize : ℤ) (hip : ip.length = 4)
    (hn : n ≤ 32) (hleaf : leafSize ≤ 32) :
  IsCIDR ⟨ip, cidrMask n 32⟩ n 32 ∧ ∃ tm, newTrieManager ⟨ip, cidrMask n 32⟩ leafSize = some tm
  := by
  have hroot : IsCIDR ⟨ip, cidrMask n 32⟩ n 32 := (isCIDR_mk (Or.inl rfl) hn (by omega)).1
  exact ⟨hroot, exists_newTrieManager hroot (Or.inr hleaf)⟩

end

/-! ### Reading the manager -/

/-- The networks of the free leaves that `FindAllFree` returns. -/
def IPTrie.freePrefixes (tr : IPTrie) : List IPNet :=
  tr.findAllFree.filterMap fun x => (tr.heap[x]?).map (·.value.pfx)

section

variable {tr : IPTrie} {tm : TrieManager} {t : BinaryTree (ℕ × Label)}

/-- The tree has a holding exactly when the map has an entry that leads to its node. -/
theorem Represents.mem_holdings_iff (h : Represents tr t) {id : String} {q : IPNet} :
  (id, q) ∈ holdings (labels t)
    ↔ ∃ x a, tr.allocMap.lookup id = some x ∧ (x, a) ∈ t.values ∧ a = allocatedLabel q id
  := by
  simp only [holdings, allocatedNodes, labels, values_map, List.mem_map, List.mem_filter]
  constructor
  · rintro ⟨a, ⟨⟨⟨x, b⟩, hx, rfl⟩, halloc⟩, heq⟩
    rw [Prod.mk.injEq] at heq
    obtain ⟨rfl, rfl⟩ := heq
    refine ⟨x, b, (h.alloc_iff _ _).mpr ⟨b, hx, halloc, rfl⟩, hx, ?_⟩
    rw [allocatedLabel, ← halloc]
  · rintro ⟨x, a, -, hx, rfl⟩
    exact ⟨_, ⟨⟨(x, allocatedLabel q id), hx, rfl⟩, rfl⟩, rfl⟩

/-- `List` returns the holdings. -/
theorem Represents.mem_list_iff (h : Represents tm.t t) {id : String} {q : IPNet} :
  (id, q) ∈ tm.list ↔ (id, q) ∈ holdings (labels t)
  := by
  rw [h.mem_holdings_iff, TrieManager.list, List.mem_filterMap]
  simp only [Option.map_eq_some_iff, Prod.mk.injEq]
  constructor
  · rintro ⟨⟨id', x⟩, hentry, n, hn, rfl, rfl⟩
    have hlookup := AList.mem_lookup_iff.mpr hentry
    obtain ⟨a, hx, halloc, rfl⟩ := (h.alloc_iff _ _).mp hlookup
    obtain ⟨cell, hcell, rfl⟩ := h.holds.get hx
    rw [hn, Option.some.injEq] at hcell
    subst hcell
    refine ⟨x, n.value, hlookup, hx, ?_⟩
    rw [allocatedLabel, ← halloc]
  · rintro ⟨x, a, hlookup, hx, rfl⟩
    obtain ⟨cell, hcell, hvalue⟩ := h.holds.get hx
    refine ⟨⟨id, x⟩, AList.mem_lookup_iff.mp hlookup, cell, hcell, rfl, ?_⟩
    rw [hvalue, allocatedLabel]

/-- An identifier has one holding. -/
theorem Represents.holdings_unique (h : Represents tr t) {id : String} {q q' : IPNet}
    (hq : (id, q) ∈ holdings (labels t)) (hq' : (id, q') ∈ holdings (labels t)) :
  q = q'
  := by
  obtain ⟨x, a, hx, ha, rfl⟩ := h.mem_holdings_iff.mp hq
  obtain ⟨y, b, hy, hb, rfl⟩ := h.mem_holdings_iff.mp hq'
  rw [hx, Option.some.injEq] at hy
  subst hy
  have heq := value_unique h.nodup ha hb
  exact congrArg Label.pfx heq

/-- `Get` returns the holding of the identifier. -/
theorem Represents.get_iff (h : Represents tm.t t) {id : String} {q : IPNet} :
  tm.get id = .ok q ↔ (id, q) ∈ holdings (labels t)
  := by
  rw [h.mem_holdings_iff, TrieManager.get]
  cases hget : tm.t.getNodeByID id with
  | none =>
    rw [IPTrie.getNodeByID] at hget
    simp [hget]
  | some x =>
    rw [IPTrie.getNodeByID] at hget
    obtain ⟨a, hx, halloc, hid⟩ := (h.alloc_iff _ _).mp hget
    obtain ⟨cell, hcell, hvalue⟩ := h.holds.get hx
    simp only [TrieManager.prefixOf, hcell, Except.ok.injEq, hget, Option.some.injEq]
    constructor
    · rintro rfl
      refine ⟨x, a, rfl, hx, ?_⟩
      rw [hvalue, allocatedLabel, ← halloc, ← hid]
    · rintro ⟨y, b, rfl, hy, rfl⟩
      rw [hvalue, value_unique h.nodup hx hy, allocatedLabel]

/-- The networks of the nodes `FindAllFree` returns are those of the free leaves. -/
theorem Represents.findAllFree_pfx (h : Represents tm.t t) :
  tm.t.freePrefixes = (freeLeaves (labels t)).map Label.pfx
  := by
  have hleaves := openLeaves_map Prod.snd Label.allocated [] t
  rw [Context.map_nil] at hleaves
  rw [IPTrie.freePrefixes, h.findAllFree_eq, freeLeaves, labels, hleaves, List.map_map,
    List.map_map, List.filterMap_map, ← List.filterMap_eq_map]
  apply List.filterMap_congr
  rintro ⟨c, x, a⟩ hmem
  obtain ⟨-, hplug⟩ := openLeaves_spec hmem
  rw [plug_nil] at hplug
  subst hplug
  simp only [Function.comp_apply, h.get_focus, Option.map_some]

end

end Trie
