import Misokube.Trie.Subnets

/-!
# Releasing a network

`Deallocate` and `Release` of an identifier free its network: the identifier is no longer listed,
the other networks stay, every address of the network is in a free leaf inside it, and new
identifiers get these leaves (`Released`).  They do so exactly when the network is not the whole
root network, which the code refuses to free.
-/

namespace Trie

open Net BinaryTree

/-! ### Blocks around a hole -/

/-- The blocks of the subtrees beside the hole. -/
def contextBlocks (c : Context Label) : List IPNet :=
  c.flatMap fun f => blocks f.sibling

section

variable {p : IPNet} {ones bits : ℕ} {T : BinaryTree Label} {id : String}

theorem blocks_leaf (a : Label) :
  blocks (leaf a) = [a.pfx]
  := by
  rw [blocks, leaf, freeLeaves_leaf, allocatedNodes_node]
  cases a.allocated <;> rfl

/-- The blocks of a filled context are those of the subtree and those around the hole. -/
theorem blocks_plug {c : Context Label} {t : BinaryTree Label} (hc : WellFormedContext p c)
    (ht : t ≠ .nil) :
  (blocks (plug c t)).Perm (blocks t ++ contextBlocks c)
  := by
  induction c generalizing t with
  | nil =>
    rw [plug_nil, contextBlocks, List.flatMap_nil, List.append_nil]
  | cons f c ih =>
    obtain ⟨hvalue, -, hsibling, hc⟩ := hc
    have hfree : f.value.allocated = false := by
      rw [hvalue, freeLabel]
    have hfill : (blocks (f.fill t)).Perm (blocks t ++ blocks f.sibling) := by
      rw [Frame.fill]
      split
      · apply (blocks_node hfree hsibling.ne_nil).trans
        apply List.perm_append_comm
      · apply blocks_node hfree ht
    have hne : f.fill t ≠ .nil := by
      rw [Frame.fill]
      split <;> simp
    rw [plug_cons, contextBlocks, List.flatMap_cons, ← List.append_assoc]
    apply (ih hc hne).trans
    apply hfill.append_right

/-- At most one block of a well-formed tree covers an address. -/
theorem WellFormed.block_unique (hp : IsCIDR p ones bits) (h : WellFormed p T) {q : IPNet}
    {rest : List IPNet} (hperm : (blocks T).Perm (q :: rest)) {a : ℕ} (ha : Covers q a) :
  ∀ x ∈ rest, ¬ Covers x a
  := by
  intro x hx hcovers
  have hone := countP_blocks hp h a
  rw [hperm.countP_eq, List.countP_cons, if_pos (by simpa using ha)] at hone
  have hpos : 0 < rest.countP (Covers · a) := by
    apply List.countP_pos_iff.mpr
    use x, hx
    simpa using hcovers
  split at hone <;> omega

/-- Some block of a well-formed tree covers an address of its network. -/
theorem WellFormed.exists_block (hp : IsCIDR p ones bits) (h : WellFormed p T) {a : ℕ}
    (ha : Covers p a) :
  ∃ x ∈ blocks T, Covers x a
  := by
  have hone := countP_blocks hp h a
  rw [if_pos ha] at hone
  have hpos : 0 < (blocks T).countP (Covers · a) := by
    rw [hone]
    apply Nat.one_pos
  obtain ⟨x, hx, hcovers⟩ := List.countP_pos_iff.mp hpos
  use x, hx
  simpa using hcovers

/-- A block of a well-formed tree is inside its network. -/
theorem WellFormed.covers_of_block (hp : IsCIDR p ones bits) (h : WellFormed p T) {x : IPNet}
    (hx : x ∈ blocks T) {a : ℕ} (ha : Covers x a) :
  Covers p a
  := by
  have hone := countP_blocks hp h a
  by_contra hnot
  rw [if_neg hnot, List.countP_eq_zero] at hone
  apply hone x hx
  simpa using ha

/-- A block is the network of a free leaf or of a holding. -/
theorem mem_blocks {x : IPNet} :
  x ∈ blocks T ↔ x ∈ (freeLeaves T).map Label.pfx ∨ ∃ e ∈ holdings T, e.2 = x
  := by
  rw [blocks, List.map_append, List.mem_append, holdings]
  simp

/-! ### Releasing in a tree -/

/-- The blocks after the release of a network below the root are those of the rebuilt subtree,
which are inside the network, and the other blocks from before. -/
theorem release_blocks {f : Frame Label} {c : Context Label} {q : IPNet}
    (hp : IsCIDR p ones bits) (hwf : WellFormed p (plug (f :: c) (leaf (allocatedLabel q id)))) :
  (blocks (plug (f :: c) (leaf (allocatedLabel q id)))).Perm (q :: contextBlocks (f :: c))
    ∧ (blocks (plug (f :: c) (rebuilt (allocatedLabel q id) .nil .nil))).Perm
      (blocks (rebuilt (allocatedLabel q id) .nil .nil) ++ contextBlocks (f :: c))
    ∧ ∀ x ∈ blocks (rebuilt (allocatedLabel q id) .nil .nil), ∀ a, Covers x a → Covers q a
  := by
  obtain ⟨hc, hq, -⟩ := (wellFormed_plug_iff (by simp [leaf])).mp hwf
  have hcidr := (hc.isCIDR hp).1
  rw [← hq, allocatedLabel] at hcidr
  have hrebuilt : WellFormed q (rebuilt (allocatedLabel q id) .nil .nil) :=
    wellFormed_rebuilt (a := allocatedLabel q id) hcidr
  constructor
  · have hperm := blocks_plug hc (t := leaf (allocatedLabel q id)) (by simp [leaf])
    rw [blocks_leaf] at hperm
    exact hperm
  · constructor
    · apply blocks_plug hc (rebuilt_ne_nil _ _ _)
    · intro x hx a ha
      apply hrebuilt.covers_of_block hcidr hx ha

/-- After the release of a network below the root, the blocks that cover one of its addresses are
inside it. -/
theorem release_inside {f : Frame Label} {c : Context Label} {q : IPNet}
    (hp : IsCIDR p ones bits) (hwf : WellFormed p (plug (f :: c) (leaf (allocatedLabel q id))))
    {x : IPNet} (hx : x ∈ blocks (plug (f :: c) (rebuilt (allocatedLabel q id) .nil .nil)))
    {a : ℕ} (ha : Covers q a) (hxa : Covers x a) :
  ∀ b, Covers x b → Covers q b
  := by
  obtain ⟨hbefore, hafter, hinside⟩ := release_blocks hp hwf
  rw [hafter.mem_iff, List.mem_append] at hx
  rcases hx with hx | hx
  · apply hinside x hx
  · exact absurd hxa (hwf.block_unique hp hbefore ha x hx)

/-! ### Allocating in a tree -/

/-- An allocation keeps the blocks and takes one of the free leaves, if there is one. -/
theorem treeAllocate_fresh (hwf : WellFormed p T) (hid : id ≠ "")
    (hfresh : ∀ q, (id, q) ∉ holdings T) :
  (blocks (treeAllocate id T).2).Perm (blocks T)
    ∧ (freeLeaves (treeAllocate id T).2).length = (freeLeaves T).length - 1
  := by
  rw [treeAllocate, if_neg hid, locate_eq_none_iff.mpr hfresh]
  cases hbest : bestFree T with
  | none =>
    have hnil : freeLeaves T = [] := by
      rw [bestFree, List.argmax_eq_none] at hbest
      rw [freeLeaves, hbest, List.map_nil]
    simp [hnil]
  | some x =>
    obtain ⟨hT, -⟩ := openLeaves_wellFormed hwf (List.argmax_mem hbest)
    generalize hq : x.2.pfx = q at hT
    simp only [hq]
    have hc : WellFormedContext p x.1 := by
      rw [hT] at hwf
      exact ((wellFormed_plug_iff (by simp [leaf])).mp hwf).1
    have hplug : ∀ a : Label, (blocks (plug x.1 (leaf a))).Perm (a.pfx :: contextBlocks x.1) := by
      intro a
      have hperm := blocks_plug hc (t := leaf a) (by simp [leaf])
      rw [blocks_leaf] at hperm
      exact hperm
    have hblocks : (blocks (plug x.1 (leaf (allocatedLabel q id)))).Perm (blocks T) := by
      rw [hT]
      apply (hplug (allocatedLabel q id)).trans (hplug (freeLabel q)).symm
    use hblocks
    -- the blocks are the free leaves and the holdings, and there is one holding more
    have hlength : ∀ t : BinaryTree Label,
        (blocks t).length = (freeLeaves t).length + (holdings t).length := by
      intro t
      rw [blocks, List.length_map, List.length_append, holdings, List.length_map]
    have hholdings : (holdings (plug x.1 (leaf (allocatedLabel q id)))).length
        = (holdings T).length + 1 := by
      rw [hT, (holdings_plug _ _).length_eq, (holdings_plug _ _).length_eq, holdings_leaf,
        holdings_leaf]
      simp [allocatedLabel, freeLabel]
    have hsame := hblocks.length_eq
    rw [hlength, hlength, hholdings] at hsame
    rw [leaf] at hsame
    omega

/-- Allocations for new identifiers keep the blocks, and take all the free leaves if there are
enough identifiers. -/
theorem allocateAll_fresh (hp : IsCIDR p ones bits) (hwf : WellFormed p T) (leafSize : ℤ)
    {ids : List String} (hnodup : ids.Nodup)
    (hfresh : ∀ i ∈ ids, i ≠ "" ∧ ∀ q, (i, q) ∉ holdings T) :
  (blocks (Machine.after (treeStep leafSize) T (ids.map .allocate))).Perm (blocks T)
    ∧ (freeLeaves (Machine.after (treeStep leafSize) T (ids.map .allocate))).length
      = (freeLeaves T).length - ids.length
    ∧ ∀ e ∈ holdings (Machine.after (treeStep leafSize) T (ids.map .allocate)),
      e ∈ holdings T ∨ e.1 ∈ ids
  := by
  induction ids generalizing T with
  | nil => simp
  | cons i ids ih =>
    obtain ⟨hi, hnodup⟩ := List.nodup_cons.mp hnodup
    obtain ⟨hempty, hnone⟩ := hfresh i List.mem_cons_self
    obtain ⟨hblocks, hlength⟩ := treeAllocate_fresh hwf hempty hnone
    have hother : ∀ e : String × IPNet, e.1 ≠ i →
        (e ∈ holdings (treeAllocate i T).2 ↔ e ∈ holdings T) := by
      intro e he
      rcases treeAllocate_change hwf i with heq | hchange
      · rw [heq]
      · apply hchange.mem_holdings_iff hwf he
    have hfresh' : ∀ j ∈ ids, j ≠ "" ∧ ∀ q, (j, q) ∉ holdings (treeAllocate i T).2 := by
      intro j hj
      obtain ⟨hj', hnone'⟩ := hfresh j (List.mem_cons_of_mem i hj)
      use hj'
      intro q
      rw [hother (j, q) (fun h => hi (h ▸ hj))]
      apply hnone'
    have hwf' := treeStep_wellFormed hp hwf leafSize (.allocate i)
    obtain ⟨hblocks', hlength', hmem'⟩ := ih hwf' hnodup hfresh'
    rw [List.map_cons, Machine.after_cons]
    constructor
    · apply hblocks'.trans hblocks
    · constructor
      · rw [hlength', List.length_cons]
        show (freeLeaves (treeAllocate i T).2).length - _ = _
        rw [hlength]
        omega
      · intro e he
        by_cases hei : e.1 = i
        · right
          rw [hei]
          apply List.mem_cons_self
        · rcases hmem' e he with hmem | hmem
          · left
            apply (hother e hei).mp hmem
          · right
            apply List.mem_cons_of_mem i hmem

end

/-! ### Releasing in the manager -/

/-- The identifier is released from its network: the call succeeds, the identifier is no longer
listed and the other entries are, every address of the network is in a free leaf inside it, and if
as many new identifiers are allocated as there are free leaves, one of them is inside it. -/
structure Released (tm : TrieManager) (id : String) (q : IPNet)
    (result : Except Error Unit × TrieManager) : Prop where
  ok : result.1 = .ok ()
  list_perm : result.2.list.Perm (tm.list.filter fun e => e.1 ≠ id)
  free : ∀ a, Covers q a →
    ∃ x ∈ result.2.t.freePrefixes, Covers x a ∧ ∀ b, Covers x b → Covers q b
  allocatable : ∀ ids : List String, ids.Nodup →
    (∀ i ∈ ids, i ≠ "" ∧ ∀ q', (i, q') ∉ result.2.list) →
    result.2.t.freePrefixes.length ≤ ids.length →
    ∃ e ∈ (Machine.after step result.2 (ids.map .allocate)).list,
      e.1 ∈ ids ∧ ∀ b, Covers e.2 b → Covers q b

section

variable {p q : IPNet} {ones bits : ℕ} {leafSize : ℤ} {tm tm' : TrieManager}
  {T : BinaryTree Label} {id : String} {f : Frame Label} {c : Context Label}

theorem Refines.mem_list_iff (h : Refines p leafSize tm T) {e : String × IPNet} :
  e ∈ tm.list ↔ e ∈ holdings T
  := by
  obtain ⟨⟨t, ht, rfl⟩, -, -⟩ := h
  apply ht.mem_list_iff

theorem Refines.freePrefixes_eq (h : Refines p leafSize tm T) :
  tm.t.freePrefixes = (freeLeaves T).map Label.pfx
  := by
  obtain ⟨⟨t, ht, rfl⟩, -, -⟩ := h
  apply ht.findAllFree_pfx

/-- The holdings around the hole are not of the identifier in it. -/
theorem Refines.ne_of_mem_context
    (h : Refines p leafSize tm (plug (f :: c) (leaf (allocatedLabel q id))))
    {e : String × IPNet} (he : e ∈ contextHoldings (f :: c)) :
  e.1 ≠ id
  := by
  obtain ⟨⟨t, ht, hlabels⟩, -, -⟩ := h
  have hnodup := ht.nodup_holdings
  rw [hlabels, (holdings_plug _ _).nodup_iff, holdings_leaf] at hnodup
  intro hid
  have hq : (id, q) ∈ holdings (labels t) := by
    rw [hlabels]
    apply mem_holdings_of_plug
  have he' : (id, e.2) ∈ holdings (labels t) := by
    rw [hlabels, mem_holdings_plug, ← hid]
    right
    exact he
  have heq : (id, q) = e := by
    rw [ht.holdings_unique hq he', ← hid]
  apply (List.nodup_append.mp hnodup).2.2 (id, q) (by simp [allocatedLabel]) e he heq

/-- The holding in the hole is the only one that covers its addresses. -/
theorem not_covers_of_mem_context (hp : IsCIDR p ones bits)
    (h : Refines p leafSize tm (plug (f :: c) (leaf (allocatedLabel q id))))
    {e : String × IPNet} (he : e ∈ contextHoldings (f :: c)) {a : ℕ} (ha : Covers q a) :
  ¬ Covers e.2 a
  := by
  intro hea
  have heq := h.wellFormed.holding_unique hp (mem_holdings_of_plug (f :: c))
    (mem_holdings_plug.mpr (Or.inr he)) ha hea
  apply h.ne_of_mem_context he
  rw [← heq]

/-- After the release of a network below the root, an entry is listed if it was listed for another
identifier. -/
theorem release_list_perm
    (h : Refines p leafSize tm (plug (f :: c) (leaf (allocatedLabel q id))))
    (h' : Refines p leafSize tm' (plug (f :: c) (rebuilt (allocatedLabel q id) .nil .nil))) :
  tm'.list.Perm (tm.list.filter fun e => e.1 ≠ id)
  := by
  apply (List.perm_ext_iff_of_nodup (nodup_list tm') ((nodup_list tm).filter _)).mpr
  intro e
  rw [h'.mem_list_iff, List.mem_filter, h.mem_list_iff, mem_holdings_plug, mem_holdings_plug,
    holdings_rebuilt, holdings_leaf, decide_eq_true_eq]
  constructor
  · rintro (hnil | he)
    · simp at hnil
    · use Or.inr he
      apply h.ne_of_mem_context he
  · rintro ⟨hleaf | he, hne⟩
    · simp only [allocatedLabel, ↓reduceIte, List.mem_singleton] at hleaf
      rw [hleaf] at hne
      exact absurd rfl hne
    · right
      exact he

/-- After the release of a network below the root, its addresses are free. -/
theorem release_free (hp : IsCIDR p ones bits)
    (h : Refines p leafSize tm (plug (f :: c) (leaf (allocatedLabel q id))))
    (h' : Refines p leafSize tm' (plug (f :: c) (rebuilt (allocatedLabel q id) .nil .nil)))
    {a : ℕ} (ha : Covers q a) :
  ∃ x ∈ tm'.t.freePrefixes, Covers x a ∧ ∀ b, Covers x b → Covers q b
  := by
  have hroot := h.wellFormed.covers_of_holding hp (mem_holdings_of_plug (f :: c)) ha
  obtain ⟨x, hx, hxa⟩ := h'.wellFormed.exists_block hp hroot
  have hinside := release_inside hp h.wellFormed hx ha hxa
  rcases mem_blocks.mp hx with hfree | ⟨e, he, rfl⟩
  · use x
    rw [h'.freePrefixes_eq]
    exact ⟨hfree, hxa, hinside⟩
  · rw [mem_holdings_plug, holdings_rebuilt] at he
    rcases he with hnil | he
    · simp at hnil
    · exact absurd hxa (not_covers_of_mem_context hp h he ha)

/-- After the release of a network below the root, new identifiers get its leaves. -/
theorem release_allocatable (hp : IsCIDR p ones bits)
    (h : Refines p leafSize tm (plug (f :: c) (leaf (allocatedLabel q id))))
    (h' : Refines p leafSize tm' (plug (f :: c) (rebuilt (allocatedLabel q id) .nil .nil)))
    {a : ℕ} (ha : Covers q a) {ids : List String} (hnodup : ids.Nodup)
    (hfresh : ∀ i ∈ ids, i ≠ "" ∧ ∀ q', (i, q') ∉ tm'.list)
    (hlength : tm'.t.freePrefixes.length ≤ ids.length) :
  ∃ e ∈ (Machine.after step tm' (ids.map .allocate)).list,
    e.1 ∈ ids ∧ ∀ b, Covers e.2 b → Covers q b
  := by
  simp only [h'.mem_list_iff] at hfresh
  rw [h'.freePrefixes_eq, List.length_map] at hlength
  have h'' := after_models hp h' (ids.map .allocate)
  obtain ⟨hblocks, hfree, hmem⟩ := allocateAll_fresh hp h'.wellFormed leafSize hnodup hfresh
  generalize Machine.after (treeStep leafSize) _ (ids.map .allocate) = T'' at h'' hblocks hfree hmem
  -- no leaf is free any more, so the address is in the network of a holding
  have hnil : freeLeaves T'' = [] := by
    apply List.eq_nil_of_length_eq_zero
    omega
  have hroot := h.wellFormed.covers_of_holding hp (mem_holdings_of_plug (f :: c)) ha
  obtain ⟨e, he, hea⟩ := (freeLeaves_eq_nil_iff hp h''.wellFormed).mp hnil a hroot
  use e
  rw [h''.mem_list_iff]
  use he
  constructor
  · rcases hmem e he with hold | hnew
    · rw [mem_holdings_plug, holdings_rebuilt] at hold
      rcases hold with hnil | hold
      · simp at hnil
      · exact absurd hea (not_covers_of_mem_context hp h hold ha)
    · exact hnew
  · have hblock : e.2 ∈ blocks (plug (f :: c) (rebuilt (allocatedLabel q id) .nil .nil)) := by
      rw [← hblocks.mem_iff]
      apply mem_blocks.mpr
      right
      use e
    apply release_inside hp h.wellFormed hblock ha hea

/-- An identifier is released exactly when its network is not the root network. -/
theorem Refines.released_iff (hp : IsCIDR p ones bits) (h : Refines p leafSize tm T)
    (hid : id ≠ "") (hmem : (id, q) ∈ tm.list) {result : Except Error Unit × TrieManager}
    (hreply : result.1 = (treeDeallocate id T).1)
    (hafter : Refines p leafSize result.2 (treeDeallocate id T).2) :
  Released tm id q result ↔ q ≠ p
  := by
  rw [h.mem_list_iff] at hmem
  rw [treeDeallocate, if_neg hid] at hreply hafter
  rcases hlocate : locate (isOf id) [] T with _ | ⟨c, a, l, r⟩
  · exact absurd hmem (locate_eq_none_iff.mp hlocate q)
  · obtain ⟨hT, ha, rfl, rfl⟩ := locate_wellFormed h.wellFormed hlocate
    obtain rfl : a.pfx = q := by
      obtain ⟨⟨t, ht, rfl⟩, -, -⟩ := h
      apply ht.holdings_unique _ hmem
      rw [hT, ha]
      apply mem_holdings_of_plug
    have hwf := h.wellFormed
    rw [hT] at hwf
    obtain ⟨hc, hpfx, -⟩ := (wellFormed_plug_iff (by simp [leaf])).mp hwf
    have hcidr := (hc.isCIDR hp).1
    rw [← hpfx] at hcidr
    rw [hlocate] at hreply hafter
    cases c with
    | nil =>
      constructor
      · intro hreleased
        rw [hreleased.ok] at hreply
        simp at hreply
      · intro hne
        exact absurd hpfx hne
    | cons f c =>
      rw [ha] at hT hafter
      generalize a.pfx = q at *
      subst hT
      constructor
      · intro _ heq
        -- the masks of the root and of a network below it differ
        have hsize := hcidr.maskSize
        rw [heq, hp.maskSize, Prod.mk.injEq, List.length_cons] at hsize
        omega
      · intro _
        constructor
        · exact hreply
        · apply release_list_perm h hafter
        · intro b hb
          apply release_free hp h hafter hb
        · intro ids hnodup hfresh hlength
          apply release_allocatable hp h hafter (covers_base q) hnodup hfresh hlength

/-- An operation for the empty identifier changes nothing. -/
theorem step_empty {op : Op} (hop : op.id = "") :
  (step tm op).2 = tm
  := by
  cases op with
  | allocate id => simp_all [Op.id, step, TrieManager.allocate]
  | deallocate id => simp_all [Op.id, step, TrieManager.deallocate]
  | release id => simp_all [Op.id, step, TrieManager.release]
  | expand id => simp_all [Op.id, step, TrieManager.expand]
  | reduce id => simp_all [Op.id, step, TrieManager.reduce]

/-- The empty identifier never holds a network. -/
theorem after_held_empty (hp : IsCIDR p ones bits) (hnew : newTrieManager p leafSize = some tm)
    (ops : List Op) :
  Managed p leafSize (Machine.after step tm ops) ∧ (Machine.after step tm ops).held "" = none
  := by
  obtain ⟨hmanaged, hheld⟩ := newTrieManager_held hp hnew
  apply Machine.after_of_forall (P := fun tm => Managed p leafSize tm ∧ tm.held "" = none)
  · rintro tm op ⟨⟨T, h⟩, hnone⟩
    use ⟨_, (step_models hp h op).2⟩
    by_cases hop : op.id = ""
    · rw [step_empty hop]
      exact hnone
    · rw [step_held hp h op, Function.update_of_ne (Ne.symm hop)]
      exact hnone
  · rw [hheld]
    exact ⟨hmanaged, rfl⟩

end

/-- After every run of a new manager, `Deallocate` and `Release` of a listed identifier release it
exactly when its network is not the root network. -/
theorem after_released_iff {root : IPNet} {ones bits : ℕ} (hroot : IsCIDR root ones bits)
    {tm : TrieManager} (hnew : newTrieManager root 30 = some tm) (ops : List Op) {id : String}
    {q : IPNet} (hmem : (id, q) ∈ (Machine.after step tm ops).list) :
  (Released (Machine.after step tm ops) id q ((Machine.after step tm ops).deallocate id)
      ∧ Released (Machine.after step tm ops) id q ((Machine.after step tm ops).release id))
    ↔ q ≠ root
  := by
  obtain ⟨⟨T, h⟩, hnone⟩ := after_held_empty hroot hnew ops
  have hid : id ≠ "" := by
    rintro rfl
    rw [h.mem_list_iff, ← h.held_iff, hnone] at hmem
    simp at hmem
  obtain ⟨hreply, hafter⟩ := h.deallocate hroot id
  obtain ⟨hreply', hafter'⟩ := h.release hroot id
  rw [h.released_iff hroot hid hmem hreply hafter, h.released_iff hroot hid hmem hreply' hafter',
    and_self]

/-- An expanded network is released. -/
theorem after_released_iff_slash28 :
  ∃ tm, newTrieManager ⟨[10, 0, 0, 0], cidrMask 28 32⟩ 30 = some tm
    ∧ Released (Machine.after step tm [.allocate "a", .expand "a"]) "a"
      ⟨[10, 0, 0, 0], cidrMask 29 32⟩
      ((Machine.after step tm [.allocate "a", .expand "a"]).deallocate "a")
  := by
  obtain ⟨hroot, tm, hnew⟩ :=
    exists_newTrieManager_ipv4 [10, 0, 0, 0] 28 30 rfl (by decide) (by decide)
  use tm, hnew
  have hlist : (newTrieManager ⟨[10, 0, 0, 0], cidrMask 28 32⟩ 30).map (fun tm =>
      decide (("a", ⟨[10, 0, 0, 0], cidrMask 29 32⟩)
        ∈ (Machine.after step tm [.allocate "a", .expand "a"]).list)) = some true := by
    decide +kernel
  rw [hnew, Option.map_some, Option.some.injEq, decide_eq_true_eq] at hlist
  apply ((after_released_iff hroot hnew _ hlist).mpr _).1
  decide

/-- An identifier that was expanded to the root network is listed, and neither `Deallocate` nor
`Release` frees it. -/
theorem expand_root_not_released :
  ∃ tm, newTrieManager ⟨[10, 0, 0, 0], cidrMask 28 32⟩ 30 = some tm
    ∧ (Machine.after step tm [.allocate "a", .expand "a", .expand "a"]).list
      = [("a", ⟨[10, 0, 0, 0], cidrMask 28 32⟩)]
    ∧ ((Machine.after step tm [.allocate "a", .expand "a", .expand "a"]).deallocate "a").1
      = .error .rootDeallocation
    ∧ ((Machine.after step tm [.allocate "a", .expand "a", .expand "a"]).release "a").1
      = .error .rootDeallocation
  := by
  obtain ⟨-, tm, hnew⟩ :=
    exists_newTrieManager_ipv4 [10, 0, 0, 0] 28 30 rfl (by decide) (by decide)
  use tm, hnew
  have hrun : (newTrieManager ⟨[10, 0, 0, 0], cidrMask 28 32⟩ 30).map (fun tm =>
      let tm' := Machine.after step tm [.allocate "a", .expand "a", .expand "a"]
      (tm'.list, (tm'.deallocate "a").1, (tm'.release "a").1))
      = some ([("a", ⟨[10, 0, 0, 0], cidrMask 28 32⟩)], .error .rootDeallocation,
        .error .rootDeallocation) := by
    decide +kernel
  simpa [hnew] using hrun

end Trie
