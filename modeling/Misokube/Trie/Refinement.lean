import Misokube.Trie.Traversal

/-!
# The subnet manager refines the tree of blocks

`Represents tr t` says that the trie `tr` holds the tree `t`, whose labels carry the addresses
of the nodes, and that its map leads exactly from the identifiers of the allocated nodes to
these nodes.  An operation changes the nodes in one place of the tree (`Represents.replace`);
so every operation of the manager answers as it does on the tree of labels and leaves a trie
that represents the new tree.
-/

namespace Trie

open Net BinaryTree Linked

/-- The trie holds the tree, and its map leads from the identifiers of the allocated nodes to
their addresses. -/
structure Represents (tr : IPTrie) (t : BinaryTree (ℕ × Label)) : Prop where
  holds : Holds tr.heap none t
  nodup : (addresses t).Nodup
  root_eq : tr.root = address t
  alloc_iff : ∀ id x, tr.allocMap.lookup id = some x
    ↔ ∃ a, (x, a) ∈ t.values ∧ a.allocated = true ∧ a.id = id

/-- The labels of a tree, without the addresses. -/
def labels (t : BinaryTree (ℕ × Label)) : BinaryTree Label :=
  t.map Prod.snd

section

variable {tr : IPTrie} {t : BinaryTree (ℕ × Label)}

theorem isOf_iff {id : String} {a : Label} :
  isOf id a = true ↔ a.allocated = true ∧ a.id = id
  := by
  rw [isOf, Bool.and_eq_true, beq_iff_eq]

/-- An identifier without an entry has no node. -/
theorem Represents.locate_none (h : Represents tr t) {id : String}
    (hid : tr.getNodeByID id = none) :
  locate (isOf id) [] (labels t) = none
  := by
  apply locate_eq_none.mpr
  intro a ha
  rw [labels, values_map, List.mem_map] at ha
  obtain ⟨⟨x, a⟩, hx, rfl⟩ := ha
  by_contra hne
  rw [Bool.not_eq_false] at hne
  have hlookup := (h.alloc_iff id x).mpr ⟨a, hx, isOf_iff.mp hne⟩
  rw [IPTrie.getNodeByID] at hid
  rw [hid] at hlookup
  simp at hlookup

/-- The entry of an identifier leads to the node that is found for it. -/
theorem Represents.focus (h : Represents tr t) {id : String} {x : ℕ}
    (hid : tr.getNodeByID id = some x) :
  ∃ c a l r, t = plug c (.node (x, a) l r) ∧ isOf id a = true
    ∧ (∀ y ∈ Context.values c, isOf id y.2 = false)
    ∧ locate (isOf id) [] (labels t)
      = some (c.map Prod.snd, a, l.map Prod.snd, r.map Prod.snd)
  := by
  obtain ⟨a, hx, ha⟩ := (h.alloc_iff id x).mp hid
  obtain ⟨c, l, r, rfl⟩ := exists_plug_of_mem hx
  have hc : ∀ y ∈ Context.values c, isOf id y.2 = false := by
    -- another node of `id` would have the address `x` of the node in the hole
    rintro ⟨y, b⟩ hy
    by_contra hne
    rw [Bool.not_eq_false] at hne
    have hlookup := (h.alloc_iff id y).mpr ⟨b, mem_values_plug.mpr (Or.inr hy), isOf_iff.mp hne⟩
    rw [IPTrie.getNodeByID] at hid
    rw [hid, Option.some.injEq] at hlookup
    subst hlookup
    have hnodup := h.nodup
    rw [(addresses_plug _ _).nodup_iff, List.nodup_append] at hnodup
    apply hnodup.2.2 x (by simp) x _ rfl
    exact List.mem_map.mpr ⟨(x, b), hy, rfl⟩
  refine ⟨c, a, l, r, rfl, isOf_iff.mpr ha, hc, ?_⟩
  have hlocate := locate_map Prod.snd (isOf id) [] (plug c (.node (x, a) l r))
  rw [Context.map_nil] at hlocate
  rw [labels, hlocate, locate_plug (q := isOf id ∘ Prod.snd) hc, List.append_nil]
  simp [locate, isOf_iff.mpr ha]

/-- The addresses around the hole are not those in it. -/
theorem Represents.ne_of_mem_context {c : Context (ℕ × Label)} {s : BinaryTree (ℕ × Label)}
    (h : Represents tr (plug c s)) {x y : ℕ} (hx : x ∈ addresses s)
    (hy : y ∈ contextAddresses c) :
  y ≠ x
  := by
  have hnodup := h.nodup
  rw [(addresses_plug _ _).nodup_iff, List.nodup_append] at hnodup
  exact (hnodup.2.2 x hx y hy).symm

/-- Replacing the subtree in the hole, where only `id` has allocated nodes before and after. -/
theorem Represents.replace {c : Context (ℕ × Label)} {s s' : BinaryTree (ℕ × Label)}
    (h : Represents tr (plug c s)) {heap : Heap} {allocMap : GoMap String ℕ} (id : String)
    (hagree : ∀ x ∈ contextAddresses c, heap[x]? = tr.heap[x]?)
    (haddress : address s' = address s) (hholds : Holds heap (holder c) s')
    (hnodup : (addresses s').Nodup)
    (hfresh : ∀ x ∈ addresses s', x ∈ addresses s ∨ tr.heap.length ≤ x)
    (hc : ∀ y ∈ Context.values c, isOf id y.2 = false)
    (hs : ∀ y ∈ s.values, y.2.allocated = true → y.2.id = id)
    (hs' : ∀ y ∈ s'.values, y.2.allocated = true → y.2.id = id)
    (hother : ∀ id', id' ≠ id → allocMap.lookup id' = tr.allocMap.lookup id')
    (hself : ∀ x, allocMap.lookup id = some x ↔ ∃ a, (x, a) ∈ s'.values ∧ a.allocated = true) :
  Represents { tr with heap := heap, allocMap := allocMap } (plug c s')
  := by
  refine ⟨holds_plug_of_agree h.holds hagree haddress hholds,
    nodup_addresses_plug h.holds h.nodup hnodup hfresh, ?_, ?_⟩
  · rw [h.root_eq, address_plug c haddress]
  · intro id' x
    simp only [mem_values_plug]
    by_cases hid : id' = id
    · subst hid
      rw [hself]
      constructor
      · rintro ⟨a, ha, halloc⟩
        exact ⟨a, Or.inl ha, halloc, hs' _ ha halloc⟩
      · rintro ⟨a, ha | ha, halloc, haid⟩
        · exact ⟨a, ha, halloc⟩
        · have hne := hc _ ha
          rw [isOf_iff.mpr ⟨halloc, haid⟩] at hne
          simp at hne
    · rw [hother id' hid, h.alloc_iff]
      simp only [mem_values_plug]
      constructor
      · rintro ⟨a, ha | ha, halloc, haid⟩
        · exact absurd (haid.symm.trans (hs _ ha halloc)) hid
        · exact ⟨a, Or.inr ha, halloc, haid⟩
      · rintro ⟨a, ha | ha, halloc, haid⟩
        · exact absurd (haid.symm.trans (hs' _ ha halloc)) hid
        · exact ⟨a, Or.inr ha, halloc, haid⟩

/-- The node in the hole is the cell at its address. -/
theorem Represents.get_focus {c : Context (ℕ × Label)} {x : ℕ} {a : Label}
    {l r : BinaryTree (ℕ × Label)} (h : Represents tr (plug c (.node (x, a) l r))) :
  tr.heap[x]? = some ⟨a, holder c, address l, address r⟩
  := (holds_plug.mp h.holds).2.1

/-- In a well-formed tree the entry of an identifier leads to a leaf. -/
theorem Represents.focus_leaf (h : Represents tr t) {p : IPNet} (hwf : WellFormed p (labels t))
    {id : String} {x : ℕ} (hid : tr.getNodeByID id = some x) :
  ∃ c a, t = plug c (.node (x, a) .nil .nil) ∧ a = allocatedLabel a.pfx id
    ∧ (∀ y ∈ Context.values c, isOf id y.2 = false)
    ∧ locate (isOf id) [] (labels t) = some (c.map Prod.snd, a, .nil, .nil)
  := by
  obtain ⟨c, a, l, r, rfl, -, hc, hlocate⟩ := h.focus hid
  obtain ⟨-, ha, hl, hr⟩ := locate_wellFormed hwf hlocate
  rw [← isNil_iff, isNil_map, isNil_iff] at hl hr
  subst hl hr
  exact ⟨c, a, rfl, ha, hc, hlocate⟩

end

/-! ### Writing to a node -/

section

variable {h : Heap} {x y : ℕ} {n : TrieNode}

theorem setAllocation_self (hx : h[x]? = some n) (allocated : Bool) (id : String) :
  (setAllocation h x allocated id)[x]?
    = some { n with value := { n.value with allocated := allocated, id := id } }
  := by
  rw [setAllocation, List.getElem?_modify_eq, hx]
  rfl

theorem setAllocation_other (hne : y ≠ x) (allocated : Bool) (id : String) :
  (setAllocation h x allocated id)[y]? = h[y]?
  := by
  rw [setAllocation, List.getElem?_modify_ne _ _ hne.symm]

theorem clearChildren_self (hx : h[x]? = some n) :
  (clearChildren h x)[x]? = some { n with child0 := none, child1 := none }
  := by
  rw [clearChildren, List.getElem?_modify_eq, hx]
  rfl

theorem clearChildren_other (hne : y ≠ x) :
  (clearChildren h x)[y]? = h[y]?
  := by
  rw [clearChildren, List.getElem?_modify_ne _ _ hne.symm]

theorem length_setAllocation (allocated : Bool) (id : String) :
  (setAllocation h x allocated id).length = h.length
  := List.length_modify _ _ _

theorem length_clearChildren :
  (clearChildren h x).length = h.length
  := List.length_modify _ _ _

end

/-! ### The operations -/

/-- The manager represents a tree with the given labels. -/
def Models (tm : TrieManager) (T : BinaryTree Label) : Prop :=
  ∃ t, Represents tm.t t ∧ labels t = T

section

variable {tm : TrieManager} {t : BinaryTree (ℕ × Label)} {p : IPNet}

theorem Represents.findAllFree_eq (h : Represents tm.t t) :
  tm.t.findAllFree = (openLeaves isTaken [] t).map fun x => x.2.1
  := by
  rw [IPTrie.findAllFree, h.root_eq]
  apply findFreeLeavesRecursive_eq h.holds
  apply Nat.le_succ_of_le (h.holds.height_le h.nodup)

/-- The best free leaf of the labels is that of the tree. -/
theorem bestFree_labels (t : BinaryTree (ℕ × Label)) :
  bestFree (labels t)
    = ((openLeaves isTaken [] t).argmax fun x => clearance isTaken x.1).map
      fun x => (x.1.map Prod.snd, x.2.2)
  := by
  have hleaves := openLeaves_map Prod.snd Label.allocated [] t
  rw [Context.map_nil] at hleaves
  rw [bestFree, labels, hleaves]
  apply argmax_map
  intro x _
  apply clearance_map

/-- Giving the free leaf in the hole to an identifier without an entry. -/
theorem Represents.take {tr : IPTrie} {c : Context (ℕ × Label)} {x : ℕ} {a : Label} {id : String}
    (h : Represents tr (plug c (.node (x, a) .nil .nil))) (hfree : a.allocated = false)
    (hid : tr.getNodeByID id = none) :
  Represents
    { tr with heap := setAllocation tr.heap x true id, allocMap := tr.allocMap.insert id x }
    (plug c (.node (x, allocatedLabel a.pfx id) .nil .nil))
  := by
  apply h.replace id
  · intro y hy
    apply setAllocation_other
    apply h.ne_of_mem_context (by simp) hy
  · rfl
  · exact ⟨setAllocation_self h.get_focus true id, trivial, trivial⟩
  · simp
  · simp
  · rintro ⟨y, b⟩ hy
    by_contra hb
    rw [Bool.not_eq_false] at hb
    have hlookup := (h.alloc_iff id y).mpr
      ⟨b, mem_values_plug.mpr (Or.inr hy), isOf_iff.mp hb⟩
    rw [IPTrie.getNodeByID, hlookup] at hid
    simp at hid
  · intro y hy halloc
    simp only [values_node, values_nil, List.append_nil, List.mem_singleton] at hy
    subst hy
    exact absurd halloc (Bool.eq_false_iff.mp hfree)
  · simp [allocatedLabel]
  · intro id' hid'
    apply AList.lookup_insert_ne hid'
  · intro y
    rw [AList.lookup_insert, Option.some.injEq]
    constructor
    · rintro rfl
      exact ⟨allocatedLabel a.pfx id, by simp, rfl⟩
    · rintro ⟨b, hb, -⟩
      simp only [values_node, values_nil, List.append_nil, List.mem_singleton,
        Prod.mk.injEq] at hb
      exact hb.1.symm

/-- The state in which the free leaf `x` is given to the identifier. -/
def TrieManager.give (tm : TrieManager) (x : ℕ) (id : String) : TrieManager :=
  { tm with
    t := { tm.t with
      heap := setAllocation tm.t.heap x true id
      allocMap := tm.t.allocMap.insert id x } }

/-- For a new identifier, `Allocate` gives away the first free leaf of the largest clearance. -/
theorem Represents.allocate_eq (h : Represents tm.t t) (hwf : WellFormed p (labels t)) {id : String}
    (hid : id ≠ "") (hget : tm.t.getNodeByID id = none) :
  tm.allocate id
    = match (openLeaves isTaken [] t).argmax fun x => clearance isTaken x.1 with
      | none => (.error .noFreeSubnet, tm)
      | some x => (.ok x.2.2.pfx, tm.give x.2.1 id)
  := by
  have hroot : tm.t.root ≠ none := by
    rw [h.root_eq, ne_eq, address_eq_none]
    rintro rfl
    exact hwf
  have hlookup : (tm.t.allocMap.lookup id).isSome = false := by
    rw [IPTrie.getNodeByID] at hget
    rw [hget]
    rfl
  simp only [TrieManager.allocate, hid, hget, IPTrie.allocate, hroot, hlookup, if_false,
    Bool.false_eq_true, h.findAllFree_eq, bestLeaf_eq h.holds h.nodup, List.map_eq_nil_iff]
  cases hbest : (openLeaves isTaken [] t).argmax fun x => clearance isTaken x.1 with
  | none =>
    rw [List.argmax_eq_none] at hbest
    simp only [hbest, if_true]
  | some best =>
    obtain ⟨c, x, a⟩ := best
    have hmem := List.argmax_mem hbest
    obtain ⟨-, hplug⟩ := openLeaves_spec hmem
    rw [plug_nil] at hplug
    subst hplug
    have hx := setAllocation_self h.get_focus true id
    simp only [List.ne_nil_of_mem hmem, if_false, Option.map_some, TrieManager.prefixOf, hx]
    rfl

theorem allocate_models (h : Represents tm.t t) (hwf : WellFormed p (labels t)) (id : String) :
  (tm.allocate id).1 = (treeAllocate id (labels t)).1
    ∧ Models (tm.allocate id).2 (treeAllocate id (labels t)).2
  := by
  by_cases hid : id = ""
  · simp only [TrieManager.allocate, treeAllocate, hid, if_true]
    exact ⟨trivial, t, h, rfl⟩
  rw [treeAllocate, if_neg hid]
  cases hget : tm.t.getNodeByID id with
  | some x =>
    obtain ⟨c, a, l, r, rfl, -, -, hlocate⟩ := h.focus hget
    simp only [TrieManager.allocate, hid, hget, hlocate, TrieManager.prefixOf, h.get_focus,
      if_false]
    exact ⟨trivial, _, h, rfl⟩
  | none =>
    rw [h.allocate_eq hwf hid hget, h.locate_none hget, bestFree_labels]
    cases hbest : (openLeaves isTaken [] t).argmax fun x => clearance isTaken x.1 with
    | none => exact ⟨rfl, t, h, rfl⟩
    | some best =>
      obtain ⟨c, x, a⟩ := best
      obtain ⟨hfree, hplug⟩ := openLeaves_spec (List.argmax_mem hbest)
      rw [plug_nil] at hplug
      subst hplug
      refine ⟨rfl, _, h.take hfree hget, ?_⟩
      rw [labels, plug_map]
      rfl

/-- Freeing the node in the hole: the new nodes in the hole are free, and the entry is gone. -/
theorem Represents.vacate {tr : IPTrie} {c : Context (ℕ × Label)} {x : ℕ} {a : Label} {id : String}
    (h : Represents tr (plug c (.node (x, a) .nil .nil))) (ha : a = allocatedLabel a.pfx id)
    (hc : ∀ y ∈ Context.values c, isOf id y.2 = false) {heap : Heap}
    {s : BinaryTree (ℕ × Label)}
    (hagree : ∀ y, y < tr.heap.length → y ≠ x → heap[y]? = tr.heap[y]?)
    (haddress : address s = some x) (hholds : Holds heap (holder c) s)
    (hnodup : (addresses s).Nodup) (hfresh : ∀ y ∈ addresses s, y = x ∨ tr.heap.length ≤ y)
    (hfree : ∀ y ∈ s.values, y.2.allocated = false) :
  Represents { tr with heap := heap, allocMap := tr.allocMap.erase id } (plug c s)
  := by
  apply h.replace id
  · intro y hy
    apply hagree y _ (h.ne_of_mem_context (by simp) hy)
    apply h.holds.lt_length
    rw [(addresses_plug _ _).mem_iff, List.mem_append]
    exact Or.inr hy
  · exact haddress
  · exact hholds
  · exact hnodup
  · simpa using hfresh
  · exact hc
  · simp only [values_node, values_nil, List.append_nil, List.mem_singleton]
    rintro y rfl -
    rw [ha, allocatedLabel]
  · intro y hy halloc
    exact absurd halloc (Bool.eq_false_iff.mp (hfree y hy))
  · intro id' hid'
    apply AList.lookup_erase_ne hid'
  · intro y
    rw [AList.lookup_erase]
    constructor
    · simp
    · rintro ⟨b, hb, halloc⟩
      exact absurd halloc (Bool.eq_false_iff.mp (hfree _ hb))

/-- Freeing the node of an identifier below the root leaves the free tree in its place. -/
theorem Represents.deallocate {tr : IPTrie} {f : Frame (ℕ × Label)} {c : Context (ℕ × Label)}
    {x : ℕ} {a : Label} {id : String}
    (h : Represents tr (plug (f :: c) (.node (x, a) .nil .nil)))
    (hget : tr.getNodeByID id = some x) (ha : a = allocatedLabel a.pfx id)
    (hc : ∀ y ∈ Context.values (f :: c), isOf id y.2 = false) {ones bits : ℕ}
    (hcidr : IsCIDR a.pfx ones bits) :
  (tr.deallocate id).1 = .ok ()
    ∧ ∃ t, Represents (tr.deallocate id).2 t
      ∧ labels t = plug (Context.map Prod.snd (f :: c)) (rebuilt a .nil .nil)
  := by
  have hx := h.get_focus
  have hx₁ := setAllocation_self hx false ""
  have hparent : holder (f :: c) ≠ none := by
    simp [holder]
  rw [IPTrie.deallocate, hget]
  simp only [hx, hparent, if_false, rebuilt, hcidr.maskSize]
  by_cases h30 : ones < 30
  · simp only [h30, if_true]
    have hleaf : (clearChildren (setAllocation tr.heap x false "") x)[x]?
        = some (newTrieNode a.pfx (holder (f :: c))) := clearChildren_self hx₁
    have hlength : (clearChildren (setAllocation tr.heap x false "") x).length
        = tr.heap.length := by
      rw [length_clearChildren, length_setAllocation]
    obtain ⟨h', s, hbuild, built⟩ := buildRecursive_spec (k := 30 - ones) hleaf hcidr
      (Or.inr ⟨show (30 : ℤ) = _ by omega, by omega⟩) (show _ < 31 by omega)
    simp only [build_eq_buildRecursive, hbuild]
    refine ⟨trivial, plug (f :: c) s, ?_, ?_⟩
    · apply h.vacate ha hc _ built.address_eq built.holds built.nodup
      · rw [← hlength]
        exact built.fresh
      · intro y hy
        have hmem : y.2 ∈ (fullTree (30 - ones) a.pfx).values := by
          rw [← built.labels, values_map]
          apply List.mem_map_of_mem hy
        have hnil := holdings_fullTree (30 - ones) a.pfx
        rw [holdings, allocatedNodes, List.map_eq_nil_iff, List.filter_eq_nil_iff] at hnil
        exact Bool.eq_false_iff.mpr (hnil _ hmem)
      · intro y hy hne
        rw [built.agree y (by omega) hne, clearChildren_other hne, setAllocation_other hne]
    · rw [labels, plug_map, built.labels]
  · simp only [h30, if_false]
    refine ⟨trivial, plug (f :: c) (.node (x, freeLabel a.pfx) .nil .nil), ?_, ?_⟩
    · apply h.vacate ha hc
      · intro y _ hne
        apply setAllocation_other hne
      · rfl
      · exact ⟨hx₁, trivial, trivial⟩
      · simp
      · simp
      · simp [freeLabel]
    · rw [labels, plug_map]
      rfl

/-- The network of the node in the hole has one bit of mask for every frame. -/
theorem isCIDR_focus {c : Context (ℕ × Label)} {x : ℕ} {a : Label} {l r : BinaryTree (ℕ × Label)}
    {ones bits : ℕ} (hp : IsCIDR p ones bits)
    (hwf : WellFormed p (labels (plug c (.node (x, a) l r)))) :
  IsCIDR a.pfx (ones + c.length) bits
  := by
  rw [labels, plug_map] at hwf
  obtain ⟨hcontext, hpfx, -⟩ := (wellFormed_plug_iff (by simp)).mp hwf
  have hcidr := (hcontext.isCIDR hp).1
  rwa [← hpfx, Context.map, List.length_map] at hcidr

theorem deallocate_models (h : Represents tm.t t) (hwf : WellFormed p (labels t))
    {ones bits : ℕ} (hp : IsCIDR p ones bits) (id : String) :
  (tm.deallocate id).1 = (treeDeallocate id (labels t)).1
    ∧ Models (tm.deallocate id).2 (treeDeallocate id (labels t)).2
  := by
  rw [TrieManager.deallocate, treeDeallocate]
  split
  · exact ⟨rfl, t, h, rfl⟩
  cases hget : tm.t.getNodeByID id with
  | none =>
    simp only [h.locate_none hget, if_true]
    exact ⟨trivial, t, h, rfl⟩
  | some x =>
    obtain ⟨c, a, rfl, ha, hc, hlocate⟩ := h.focus_leaf hwf hget
    simp only [hlocate, reduceCtorEq, if_false]
    cases c with
    | nil =>
      have hx := h.get_focus
      simp only [IPTrie.deallocate, hget, hx, holder, List.head?_nil, Option.map_none, if_true,
        Context.map_nil]
      exact ⟨trivial, _, h, rfl⟩
    | cons f c =>
      obtain ⟨hok, t', ht', hlabels⟩ := h.deallocate hget ha hc (isCIDR_focus hp hwf)
      exact ⟨hok, t', ht', hlabels⟩

/-- Merging reads the sibling, and fails if this or the parent is not free. -/
theorem Represents.merge_eq {tr : IPTrie} {f : Frame (ℕ × Label)} {c : Context (ℕ × Label)}
    {x : ℕ} {a : Label} {id : String} {l r : BinaryTree (ℕ × Label)}
    (h : Represents tr (plug (f :: c) (.node (x, a) l r)))
    (hget : tr.getNodeByID id = some x) {z : ℕ × Label} {sl sr : BinaryTree (ℕ × Label)}
    (hsibling : f.sibling = .node z sl sr) :
  tr.merge id
    = if f.sibling.values.any isTaken then
        (.error (.mergeAllocated a.id a.pfx z.2.id z.2.pfx), tr)
      else if f.value.2.allocated then (.error .unstableState, tr)
      else
        (.ok (),
          { tr with
            heap := setAllocation (setAllocation (clearChildren
              (setAllocation tr.heap f.value.1 true id) f.value.1) x false "") z.1 false ""
            allocMap := tr.allocMap.insert id f.value.1 })
  := by
  obtain ⟨⟨hf, hholds, -⟩, hx, -⟩ := holds_plug.mp h.holds
  have hnodup := h.nodup
  rw [(addresses_plug _ _).nodup_iff, List.nodup_append, contextAddresses_cons,
    List.nodup_cons, List.nodup_append] at hnodup
  obtain ⟨-, ⟨-, hsnodup, -⟩, hdisjoint⟩ := hnodup
  have hne : x ∉ addresses f.sibling := by
    intro hmem
    apply hdisjoint x (by simp) x _ rfl
    rw [List.mem_cons, List.mem_append]
    exact Or.inr (Or.inl hmem)
  have hheight := hholds.height_le hsnodup
  have hsearch := hasAllocatedDescendant_eq hholds (Nat.le_succ_of_le hheight)
  have hz : tr.heap[z.1]? = some ⟨z.2, some f.value.1, address sl, address sr⟩ := by
    rw [hsibling] at hholds
    exact hholds.1
  have hvalue : (frameCell f (holder c) (some x)).value = f.value.2 := by
    rw [frameCell]
    split <;> rfl
  have hroot : z.2.allocated = true → f.sibling.values.any isTaken = true := by
    intro halloc
    rw [hsibling]
    simp [isTaken, halloc]
  have haddress : address f.sibling = some z.1 := by
    rw [hsibling, address_node]
  rw [haddress] at hsearch
  rw [IPTrie.merge, hget]
  simp only [hx, holder, List.head?_cons, Option.map_some]
  simp only [address_node, holder] at hf hvalue
  have hother := frameCell_other (p := holder c) hne
  rw [holder] at hother
  simp only [hf, hother, haddress, hz, hasAllocatedDescendants_eq, hsearch, hvalue]
  have hor : (z.2.allocated = true ∨ f.sibling.values.any isTaken = true)
      ↔ f.sibling.values.any isTaken = true := or_iff_right_of_imp hroot
  simp only [hor]

/-- The parent of a leaf is not the leaf, and not below its sibling. -/
theorem Represents.parent_ne {tr : IPTrie} {f : Frame (ℕ × Label)} {c : Context (ℕ × Label)}
    {x : ℕ} {a : Label} (h : Represents tr (plug (f :: c) (.node (x, a) .nil .nil))) :
  f.value.1 ≠ x ∧ f.value.1 ∉ addresses f.sibling
  := by
  have hnodup := h.nodup
  rw [plug_cons, (addresses_plug _ _).nodup_iff, List.nodup_append] at hnodup
  have hfill := hnodup.1
  rw [addresses, ((f.values_fill _).map _).nodup_iff] at hfill
  simp only [values_node, values_nil, List.append_nil, List.map_cons, List.cons_append,
    List.nil_append, Frame.values, List.nodup_cons, List.mem_cons, not_or] at hfill
  exact ⟨Ne.symm hfill.1.1, hfill.2.1⟩

/-- Merging gives the parent to the identifier, without children. -/
theorem Represents.merged {tr : IPTrie} {f : Frame (ℕ × Label)} {c : Context (ℕ × Label)}
    {x : ℕ} {a : Label} {id : String}
    (h : Represents tr (plug (f :: c) (.node (x, a) .nil .nil)))
    (ha : a = allocatedLabel a.pfx id) (hc : ∀ y ∈ Context.values (f :: c), isOf id y.2 = false)
    {z : ℕ × Label} {sl sr : BinaryTree (ℕ × Label)} (hsibling : f.sibling = .node z sl sr)
    (hfree : f.sibling.values.any isTaken = false) (hparent : f.value.2.allocated = false) :
  Represents
    { tr with
      heap := setAllocation (setAllocation (clearChildren
        (setAllocation tr.heap f.value.1 true id) f.value.1) x false "") z.1 false ""
      allocMap := tr.allocMap.insert id f.value.1 }
    (plug c (.node (f.value.1, allocatedLabel f.value.2.pfx id) .nil .nil))
  := by
  have hf : tr.heap[f.value.1]? = some (frameCell f (holder c) (some x)) := by
    obtain ⟨⟨hf, -⟩, -⟩ := holds_plug.mp h.holds
    exact hf
  obtain ⟨hnex, hsiblings⟩ := h.parent_ne
  rw [plug_cons] at h
  have hvalues : ∀ y, y ∈ (f.fill (.node (x, a) .nil .nil)).values
      ↔ y = (x, a) ∨ y ∈ f.values := by
    intro y
    rw [(f.values_fill _).mem_iff, List.mem_append, values_node, values_nil, List.append_nil,
      List.mem_singleton]
  have haddresses : ∀ y, y = x ∨ y = f.value.1 ∨ y ∈ addresses f.sibling →
      y ∈ addresses (f.fill (.node (x, a) .nil .nil)) := by
    intro y hy
    rw [addresses, ((f.values_fill _).map _).mem_iff]
    simpa [Frame.values, addresses] using hy
  have hz : z.1 ∈ addresses f.sibling := by
    rw [hsibling]
    simp
  have hnez : f.value.1 ≠ z.1 := by
    intro heq
    apply hsiblings
    rw [heq]
    exact hz
  apply h.replace id
  · intro y hy
    have hne : ∀ w, w = x ∨ w = f.value.1 ∨ w ∈ addresses f.sibling → y ≠ w := by
      intro w hw
      apply h.ne_of_mem_context (haddresses w hw) hy
    rw [setAllocation_other (hne _ (Or.inr (Or.inr hz))),
      setAllocation_other (hne _ (Or.inl rfl)),
      clearChildren_other (hne _ (Or.inr (Or.inl rfl))),
      setAllocation_other (hne _ (Or.inr (Or.inl rfl)))]
  · rw [address_node, address_fill]
  · refine ⟨?_, trivial, trivial⟩
    rw [setAllocation_other hnez, setAllocation_other hnex,
      clearChildren_self (setAllocation_self hf true id), frameCell]
    split <;> rfl
  · simp
  · simp only [addresses_node, addresses_nil, List.append_nil, List.mem_singleton]
    rintro y rfl
    left
    apply haddresses
    exact Or.inr (Or.inl rfl)
  · intro y hy
    apply hc
    rw [Context.values_cons, List.mem_append]
    exact Or.inr hy
  · intro y hy halloc
    rw [hvalues, Frame.values, List.mem_cons] at hy
    obtain rfl | rfl | hy := hy
    · rw [ha, allocatedLabel]
    · exact absurd halloc (Bool.eq_false_iff.mp hparent)
    · exact absurd halloc (List.any_eq_false.mp hfree y hy)
  · simp [allocatedLabel]
  · intro id' hid'
    apply AList.lookup_insert_ne hid'
  · intro y
    rw [AList.lookup_insert, Option.some.injEq]
    constructor
    · rintro rfl
      exact ⟨allocatedLabel f.value.2.pfx id, by simp, rfl⟩
    · rintro ⟨b, hb, -⟩
      simp only [values_node, values_nil, List.append_nil, List.mem_singleton,
        Prod.mk.injEq] at hb
      exact hb.1.symm

theorem expand_models (h : Represents tm.t t) (hwf : WellFormed p (labels t)) (id : String) :
  (tm.expand id).1 = (treeExpand id (labels t)).1
    ∧ Models (tm.expand id).2 (treeExpand id (labels t)).2
  := by
  rw [TrieManager.expand, treeExpand]
  split
  · exact ⟨rfl, t, h, rfl⟩
  cases hget : tm.t.getNodeByID id with
  | none =>
    simp only [h.locate_none hget]
    exact ⟨trivial, t, h, rfl⟩
  | some x =>
    obtain ⟨c, a, rfl, ha, hc, hlocate⟩ := h.focus_leaf hwf hget
    simp only [hlocate, h.get_focus]
    cases c with
    | nil =>
      simp only [holder, List.head?_nil, Option.map_none, if_true, Context.map_nil]
      exact ⟨trivial, _, h, rfl⟩
    | cons f c =>
      have hparent : holder (f :: c) ≠ none := by
        simp [holder]
      have hroot : some x ≠ tm.t.root := by
        rw [h.root_eq]
        obtain ⟨y, hy, haddress⟩ := address_plug_cons f c (.node (x, a) .nil .nil)
        rw [haddress, ne_eq, Option.some.injEq]
        exact (h.ne_of_mem_context (by simp) hy).symm
      simp only [hparent, hroot, if_false, Context.map_cons, Frame.map]
      have hne : f.sibling ≠ .nil := by
        rw [labels, plug_map, wellFormed_plug_iff (by simp)] at hwf
        obtain ⟨⟨-, -, hsibling, -⟩, -⟩ := hwf
        rintro heq
        apply hsibling.ne_nil
        rw [Frame.map, heq, map_nil]
      obtain ⟨z, sl, sr, hsibling⟩ : ∃ z sl sr, f.sibling = .node z sl sr := by
        cases hcases : f.sibling with
        | nil => exact absurd hcases hne
        | node z sl sr => exact ⟨z, sl, sr, rfl⟩
      have hany : (f.sibling.map Prod.snd).values.any Label.allocated
          = f.sibling.values.any isTaken := by
        rw [values_map, List.any_map]
        rfl
      rw [hsibling, map_node] at hany
      simp only [h.merge_eq hget hsibling, hsibling, map_node, hany]
      by_cases hfree : (BinaryTree.node z sl sr).values.any isTaken = true
      · simp only [hfree, if_true]
        exact ⟨trivial, _, h, rfl⟩
      by_cases hvalue : f.value.2.allocated = true
      · simp only [hfree, hvalue, if_true, if_false, Bool.false_eq_true]
        exact ⟨trivial, _, h, rfl⟩
      simp only [hfree, hvalue, if_false, Bool.false_eq_true]
      rw [Bool.not_eq_true] at hfree hvalue
      rw [← hsibling] at hfree
      have hmerged := h.merged ha hc hsibling hfree hvalue
      simp only [IPTrie.getNodeByID, AList.lookup_insert, TrieManager.prefixOf,
        hmerged.get_focus]
      refine ⟨rfl, _, hmerged, ?_⟩
      rw [labels, plug_map]
      rfl

/-- Splitting the node of an identifier gives the lower half to the identifier. -/
theorem Represents.split {tr : IPTrie} {c : Context (ℕ × Label)} {x : ℕ} {a : Label} {id : String}
    (h : Represents tr (plug c (.node (x, a) .nil .nil))) (ha : a = allocatedLabel a.pfx id)
    (hc : ∀ y ∈ Context.values c, isOf id y.2 = false) (p₀ p₁ : IPNet) :
  Represents
    { tr with
      heap := setAllocation (setAllocation
        ((tr.heap ++ [newTrieNode p₀ (some x), newTrieNode p₁ (some x)]).modify x
          fun n => { n with child0 := some tr.heap.length, child1 := some (tr.heap.length + 1) })
        x false "") tr.heap.length true id
      allocMap := tr.allocMap.insert id tr.heap.length }
    (plug c (.node (x, freeLabel a.pfx)
      (.node (tr.heap.length, allocatedLabel p₀ id) .nil .nil)
      (.node (tr.heap.length + 1, freeLabel p₁) .nil .nil)))
  := by
  have hx := h.get_focus
  have hlt : x < tr.heap.length := (List.getElem?_eq_some_iff.mp hx).1
  have hne : x ≠ tr.heap.length := Nat.ne_of_lt hlt
  apply h.replace id
  · intro y hy
    have hyx := h.ne_of_mem_context (x := x) (by simp) hy
    have hylt : y < tr.heap.length := by
      apply h.holds.lt_length
      rw [(addresses_plug _ _).mem_iff, List.mem_append]
      exact Or.inr hy
    rw [setAllocation_other (Nat.ne_of_lt hylt), setAllocation_other hyx,
      List.getElem?_modify_ne _ _ hyx.symm, List.getElem?_append_left hylt]
  · rfl
  · refine ⟨?_, ⟨?_, trivial, trivial⟩, ⟨?_, trivial, trivial⟩⟩
    · have hlinked : ((tr.heap ++ [newTrieNode p₀ (some x), newTrieNode p₁ (some x)]).modify x
          fun n => { n with child0 := some tr.heap.length,
                            child1 := some (tr.heap.length + 1) })[x]?
          = some ⟨a, holder c, some tr.heap.length, some (tr.heap.length + 1)⟩ := by
        rw [List.getElem?_modify_eq, List.getElem?_append_left hlt, hx]
        rfl
      rw [setAllocation_other hne, setAllocation_self hlinked]
      rfl
    · apply setAllocation_self (n := newTrieNode p₀ (some x))
      rw [setAllocation_other hne.symm, List.getElem?_modify_ne _ _ hne,
        List.getElem?_append_right (le_refl _), Nat.sub_self]
      rfl
    · rw [setAllocation_other (Nat.succ_ne_self _), setAllocation_other (by omega),
        List.getElem?_modify_ne _ _ (by omega), List.getElem?_append_right (Nat.le_add_right _ 1),
        Nat.add_sub_cancel_left]
      rfl
  · simp
    omega
  · simp
  · exact hc
  · simp only [values_node, values_nil, List.append_nil, List.mem_singleton]
    rintro y rfl -
    rw [ha, allocatedLabel]
  · simp [freeLabel, allocatedLabel]
  · intro id' hid'
    apply AList.lookup_insert_ne hid'
  · intro y
    rw [AList.lookup_insert, Option.some.injEq]
    constructor
    · rintro rfl
      exact ⟨allocatedLabel p₀ id, by simp, rfl⟩
    · rintro ⟨b, hb, halloc⟩
      simp only [values_node, values_nil, List.append_nil, List.mem_cons, List.nil_append,
        List.not_mem_nil, or_false, List.cons_append, Prod.mk.injEq] at hb
      obtain ⟨-, rfl⟩ | ⟨rfl, -⟩ | ⟨-, rfl⟩ := hb
      · simp [freeLabel] at halloc
      · rfl
      · simp [freeLabel] at halloc

theorem reduce_models (h : Represents tm.t t) (hwf : WellFormed p (labels t)) (id : String) :
  (tm.reduce id).1 = (treeReduce tm.leafSize id (labels t)).1
    ∧ Models (tm.reduce id).2 (treeReduce tm.leafSize id (labels t)).2
  := by
  rw [TrieManager.reduce, treeReduce]
  split
  · exact ⟨rfl, t, h, rfl⟩
  cases hget : tm.t.getNodeByID id with
  | none =>
    simp only [h.locate_none hget]
    exact ⟨trivial, t, h, rfl⟩
  | some x =>
    obtain ⟨c, a, rfl, ha, hc, hlocate⟩ := h.focus_leaf hwf hget
    have hid : a.id = id := by
      rw [ha, allocatedLabel]
    simp only [hlocate, h.get_focus, splitSubnet_eq, hid]
    split
    · exact ⟨rfl, _, h, rfl⟩
    by_cases hsize : 32 ≤ (maskSize a.pfx.mask).1
    · have hsize' : (32 : ℤ) ≤ (maskSize a.pfx.mask).1 := by exact_mod_cast hsize
      simp only [hsize, hsize', or_true, if_true]
      exact ⟨trivial, _, h, rfl⟩
    · have hsize' : ¬ (32 : ℤ) ≤ (maskSize a.pfx.mask).1 := by exact_mod_cast hsize
      have hlt : ¬ ((maskSize a.pfx.mask).1 + 1 : ℤ) ≤ (maskSize a.pfx.mask).1 := by omega
      simp only [hsize, hsize', hlt, or_false, if_false]
      refine ⟨trivial, _, h.split ha hc (lower a.pfx) (upper a.pfx), ?_⟩
      rw [labels, plug_map]
      rfl

theorem release_models (h : Represents tm.t t) (hwf : WellFormed p (labels t))
    {ones bits : ℕ} (hp : IsCIDR p ones bits) (id : String) :
  (tm.release id).1 = (treeDeallocate id (labels t)).1
    ∧ Models (tm.release id).2 (treeDeallocate id (labels t)).2
  := by
  have heq : tm.release id = tm.deallocate id := by
    rw [TrieManager.release, TrieManager.deallocate]
    split
    · rfl
    cases hget : tm.t.getNodeByID id with
    | none => simp
    | some x =>
      simp only [reduceCtorEq, if_false]
      obtain ⟨result, tr⟩ := tm.t.deallocate id
      cases result <;> rfl
  rw [heq]
  apply deallocate_models h hwf hp

end

end Trie
