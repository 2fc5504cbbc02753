import Misokube.Trie.Release

/-!
# Expanding a network

`Expand` gives an identifier the network one bit larger that contains its own.  It succeeds
exactly when the identifier does not hold the root network and no tenant has an address in the
other half, the buddy (`after_expands`).  `MaxExpandableDepth` predicts how often a free leaf could
be expanded, so `Allocate` chooses a leaf with the most room to grow, the leftmost of those
(`after_roomiest`).
-/

namespace Trie

open Net BinaryTree

/-! ### Buddies -/

/-- The network one bit larger that contains the network. -/
def enclosing (q : IPNet) : IPNet :=
  ⟨network q, cidrMask ((maskSize q.mask).1 - 1) (maskSize q.mask).2⟩

/-- The number is in the buddy of the network: the other half of the enclosing network. -/
def InBuddy (q : IPNet) (a : ℕ) : Prop :=
  Covers (enclosing q) a ∧ ¬ Covers q a

section

variable {p q r : IPNet} {ones bits n : ℕ}

/-- A network that starts inside another one, with one more bit of mask, is enclosed by it. -/
theorem covers_enclosing_iff (hr : IsCIDR r n bits) (hq : IsCIDR q (n + 1) bits)
    (hbase : Covers r (base q)) (a : ℕ) :
  Covers (enclosing q) a ↔ Covers r a
  := by
  have hmk := isCIDR_mk hr.family hr.ones_le hq.length_eq
  have henclosing : enclosing q = ⟨network q, cidrMask n bits⟩ := by
    rw [enclosing, hq.maskSize, Nat.add_sub_cancel]
  rw [Covers, Covers, henclosing, hmk.2, hmk.1.size, hr.base_of_covers hbase, hr.size]
  rfl

theorem covers_enclosing_lower (hr : IsCIDR r n bits) (h : n < bits) (a : ℕ) :
  Covers (enclosing (lower r)) a ↔ Covers r a
  := by
  apply covers_enclosing_iff hr (lower_isCIDR hr h)
  exact ((covers_lower_iff hr h _).mp (covers_base _)).1

theorem covers_enclosing_upper (hr : IsCIDR r n bits) (h : n < bits) (a : ℕ) :
  Covers (enclosing (upper r)) a ↔ Covers r a
  := by
  apply covers_enclosing_iff hr (upper_isCIDR hr h)
  exact ((covers_upper_iff hr h _).mp (covers_base _)).1

/-- Below the root, the network of a context is enclosed by that of its parent. -/
theorem WellFormedContext.covers_enclosing (hp : IsCIDR p ones bits) {f : Frame Label}
    {c : Context Label} (h : WellFormedContext p (f :: c)) (a : ℕ) :
  Covers (enclosing (holePrefix p (f :: c))) a ↔ Covers (holePrefix p c) a
  := by
  have hcidr := (h.2.2.2.isCIDR hp).1
  have hlt := h.2.1
  rw [hcidr.maskSize] at hlt
  have hbits := hp.family
  rw [holePrefix]
  split
  · apply covers_enclosing_upper hcidr (by omega)
  · apply covers_enclosing_lower hcidr (by omega)

theorem WellFormedContext.covers_parent (hp : IsCIDR p ones bits) {f : Frame Label}
    {c : Context Label} (h : WellFormedContext p (f :: c)) {a : ℕ}
    (ha : Covers (holePrefix p (f :: c)) a) :
  Covers (holePrefix p c) a
  := by
  have hcidr := (h.2.2.2.isCIDR hp).1
  have hlt := h.2.1
  rw [hcidr.maskSize] at hlt
  have hbits := hp.family
  rw [holePrefix] at ha
  split at ha
  · exact ((covers_upper_iff hcidr (by omega) a).mp ha).1
  · exact ((covers_lower_iff hcidr (by omega) a).mp ha).1

/-- The other child of a frame has the buddy of the network in the hole. -/
theorem WellFormedContext.covers_sibling_iff (hp : IsCIDR p ones bits) {f : Frame Label}
    {c : Context Label} (h : WellFormedContext p (f :: c)) (a : ℕ) :
  Covers (siblingPrefix p f c) a ↔ InBuddy (holePrefix p (f :: c)) a
  := by
  have hcidr := (h.2.2.2.isCIDR hp).1
  have hlt := h.2.1
  rw [hcidr.maskSize] at hlt
  have hbits := hp.family
  have hlt' : ones + c.length < bits := by omega
  rw [InBuddy, h.covers_enclosing hp, siblingPrefix, holePrefix]
  split
  · rw [covers_lower_iff hcidr hlt', covers_upper_iff hcidr hlt', ← Nat.not_lt]
    tauto
  · rw [covers_lower_iff hcidr hlt', covers_upper_iff hcidr hlt', ← Nat.not_lt]
    tauto

end

/-! ### Holdings around a hole -/

section

variable {p : IPNet} {ones bits : ℕ} {T : BinaryTree Label} {id : String} {q : IPNet}
  {f : Frame Label} {c : Context Label}

/-- The network of the hole is in the network of the context. -/
theorem WellFormedContext.covers_root (hp : IsCIDR p ones bits) (h : WellFormedContext p c) {a : ℕ}
    (ha : Covers (holePrefix p c) a) :
  Covers p a
  := by
  have hwf : WellFormed p (plug c (leaf (allocatedLabel (holePrefix p c) ""))) :=
    (wellFormed_plug_iff (by simp [leaf])).mpr
      ⟨h, wellFormed_leaf (a := allocatedLabel _ "") (by simp [allocatedLabel])⟩
  apply hwf.covers_of_holding hp (mem_holdings_of_plug c) ha

/-- The holdings around a hole have no address in the network of the hole. -/
theorem WellFormedContext.not_covers (hp : IsCIDR p ones bits) (h : WellFormedContext p c)
    {e : String × IPNet} (he : e ∈ contextHoldings c) {a : ℕ} (ha : Covers (holePrefix p c) a) :
  ¬ Covers e.2 a
  := by
  intro hea
  -- with the hole given to another identifier, two holdings would have the address
  have hwf : WellFormed p (plug c (leaf (allocatedLabel (holePrefix p c) (e.1 ++ "'")))) :=
    (wellFormed_plug_iff (by simp [leaf])).mpr
      ⟨h, wellFormed_leaf (a := allocatedLabel _ _) (by simp [allocatedLabel])⟩
  have heq := hwf.holding_unique hp (mem_holdings_plug.mpr (Or.inr he)) (mem_holdings_of_plug c)
    hea ha
  have hlength := congrArg (fun e : String × IPNet => e.1.length) heq
  simp at hlength

/-- An address of the network is in a free leaf exactly when it is in no holding. -/
theorem WellFormed.free_iff (hp : IsCIDR p ones bits) (h : WellFormed p T) (a : ℕ) :
  (∃ x ∈ (freeLeaves T).map Label.pfx, Covers x a)
    ↔ Covers p a ∧ ∀ e ∈ holdings T, ¬ Covers e.2 a
  := by
  have hcount := countP_free_add_holdings hp h a
  have hfree : (∃ x ∈ (freeLeaves T).map Label.pfx, Covers x a)
      ↔ 0 < ((freeLeaves T).map Label.pfx).countP (Covers · a) := by
    simp [List.countP_pos_iff]
  have hheld : (∀ e ∈ holdings T, ¬ Covers e.2 a)
      ↔ (holdings T).countP (fun e => Covers e.2 a) = 0 := by
    simp [List.countP_eq_zero]
  rw [hfree, hheld]
  by_cases hcovers : Covers p a
  · rw [if_pos hcovers] at hcount
    constructor
    · intro hpos
      use hcovers
      omega
    · rintro ⟨-, hzero⟩
      omega
  · rw [if_neg hcovers] at hcount
    constructor
    · intro hpos
      omega
    · rintro ⟨hcovers', -⟩
      exact absurd hcovers' hcovers

/-! ### Expanding in a tree -/

theorem contextHoldings_eq (f : Frame Label) (c : Context Label) :
  contextHoldings (f :: c)
    = (if f.value.allocated then [(f.value.id, f.value.pfx)] else []) ++ holdings f.sibling
      ++ contextHoldings c
  := by
  rw [contextHoldings, Context.values_cons, List.filter_append, List.map_append, Frame.values,
    List.filter_cons]
  cases f.value.allocated <;> rfl

/-- An allocated node in the sibling is a holding in the buddy, and no other holding is. -/
theorem any_sibling_iff (hp : IsCIDR p ones bits) (h : WellFormedContext p (f :: c)) :
  f.sibling.values.any Label.allocated = true
    ↔ ∃ e ∈ contextHoldings (f :: c), ∃ a, Covers e.2 a ∧ InBuddy (holePrefix p (f :: c)) a
  := by
  constructor
  · intro hany
    obtain ⟨b, hb, halloc⟩ := List.any_eq_true.mp hany
    have hmem : (b.id, b.pfx) ∈ holdings f.sibling := by
      rw [holdings, allocatedNodes]
      exact List.mem_map_of_mem (List.mem_filter.mpr ⟨hb, halloc⟩)
    have hcidr : ∃ n, IsCIDR (siblingPrefix p f c) n bits := by
      have hcidr := (h.2.2.2.isCIDR hp).1
      have hlt := h.2.1
      rw [hcidr.maskSize] at hlt
      have hbits := hp.family
      use ones + c.length + 1
      rw [siblingPrefix]
      split
      · apply lower_isCIDR hcidr (by omega)
      · apply upper_isCIDR hcidr (by omega)
    obtain ⟨n, hcidr⟩ := hcidr
    refine ⟨(b.id, b.pfx), ?_, base b.pfx, covers_base _, ?_⟩
    · rw [contextHoldings_eq]
      simp [hmem]
    · rw [← h.covers_sibling_iff hp]
      apply h.2.2.1.covers_of_holding hcidr hmem (covers_base _)
  · rintro ⟨e, he, a, hea, hbuddy⟩
    by_contra hany
    rw [Bool.not_eq_true] at hany
    have hvalue : f.value.allocated = false := by
      rw [h.1, freeLabel]
    rw [contextHoldings_cons hvalue hany] at he
    apply h.2.2.2.not_covers hp he _ hea
    exact (h.covers_enclosing hp a).mp hbuddy.1

/-- The answer of `Expand` for an identifier below the root. -/
theorem treeExpand_plug (hid : id ≠ "")
    (hwf : WellFormed p (plug (f :: c) (leaf (allocatedLabel q id))))
    (hlocate : locate (isOf id) [] (plug (f :: c) (leaf (allocatedLabel q id)))
      = some (f :: c, allocatedLabel q id, .nil, .nil)) :
  (f.sibling.values.any Label.allocated = true →
      ∃ e, treeExpand id (plug (f :: c) (leaf (allocatedLabel q id)))
        = (.error e, plug (f :: c) (leaf (allocatedLabel q id))))
    ∧ (f.sibling.values.any Label.allocated = false →
      treeExpand id (plug (f :: c) (leaf (allocatedLabel q id)))
        = (.ok (holePrefix p c), plug c (leaf (allocatedLabel (holePrefix p c) id))))
  := by
  obtain ⟨⟨hvalue, -, hsibling, -⟩, -⟩ := (wellFormed_plug_iff (by simp [leaf])).mp hwf
  rw [treeExpand, if_neg hid, hlocate]
  dsimp only
  cases hcases : f.sibling with
  | nil => exact absurd hcases hsibling.ne_nil
  | node s l r =>
    dsimp only
    constructor
    · intro hany
      rw [if_pos hany]
      exact ⟨_, rfl⟩
    · intro hany
      rw [hvalue]
      simp only [hany, freeLabel, Bool.false_eq_true, if_false]
      rfl

end

/-! ### The manager -/

/-- The address is in a free leaf of the manager. -/
def TrieManager.IsFree (tm : TrieManager) (a : ℕ) : Prop :=
  ∃ x ∈ tm.t.freePrefixes, Covers x a

section

variable {p : IPNet} {ones bits : ℕ} {leafSize : ℤ} {tm tm' : TrieManager} {T : BinaryTree Label}
  {id : String} {q : IPNet} {f : Frame Label} {c : Context Label}

theorem Refines.isFree_iff (hp : IsCIDR p ones bits) (h : Refines p leafSize tm T) (a : ℕ) :
  tm.IsFree a ↔ Covers p a ∧ ∀ e ∈ holdings T, ¬ Covers e.2 a
  := by
  rw [TrieManager.IsFree, h.freePrefixes_eq]
  apply h.wellFormed.free_iff hp

theorem Refines.expand (hp : IsCIDR p ones bits) (h : Refines p leafSize tm T) (id : String) :
  (tm.expand id).1 = (treeExpand id T).1
    ∧ Refines p leafSize (tm.expand id).2 (treeExpand id T).2
  := by
  constructor
  · obtain ⟨⟨t, ht, rfl⟩, hwf, -⟩ := h
    apply (expand_models ht hwf id).1
  · apply (step_models hp h (.expand id)).2

/-- The node of an identifier is found where it stands. -/
theorem Refines.locate_eq (h : Refines p leafSize tm (plug c (leaf (allocatedLabel q id)))) :
  locate (isOf id) [] (plug c (leaf (allocatedLabel q id)))
    = some (c, allocatedLabel q id, .nil, .nil)
  := by
  obtain ⟨⟨t, ht, hlabels⟩, -, -⟩ := h
  have hnodup := ht.nodup_holdings
  rw [hlabels, (holdings_plug _ _).nodup_iff, holdings_leaf] at hnodup
  have hcontext : ∀ a ∈ c.values, isOf id a = false := by
    intro a ha
    by_contra hof
    rw [Bool.not_eq_false] at hof
    obtain ⟨halloc, hid⟩ := isOf_iff.mp hof
    have hmem : (id, a.pfx) ∈ contextHoldings c := by
      rw [← hid, contextHoldings]
      exact List.mem_map_of_mem (List.mem_filter.mpr ⟨ha, halloc⟩)
    have hheld : (id, a.pfx) ∈ holdings (labels t) := by
      rw [hlabels]
      exact mem_holdings_plug.mpr (Or.inr hmem)
    have heq : a.pfx = q := by
      apply ht.holdings_unique hheld
      rw [hlabels]
      apply mem_holdings_of_plug
    rw [heq] at hmem
    exact (List.nodup_cons.mp hnodup).1 hmem
  rw [locate_plug hcontext, List.append_nil, leaf, locate]
  simp [isOf, allocatedLabel]

/-- `Expand` of the identifier succeeds exactly when it is listed below the root and no tenant
has an address in its buddy.  Then it returns the network one bit larger, only its entry changes,
and exactly the addresses of the buddy, which were free, are free no more.  Otherwise nothing
changes. -/
structure Expands (root : IPNet) (bits : ℕ) (tm : TrieManager) (id : String) : Prop where
  succeeds_iff : (∃ r, (tm.expand id).1 = .ok r)
    ↔ ∃ q, (id, q) ∈ tm.list ∧ q ≠ root ∧ ∀ e ∈ tm.list, ∀ a, Covers e.2 a → ¬ InBuddy q a
  enlarged : ∀ r, (tm.expand id).1 = .ok r →
    ∃ q n, (id, q) ∈ tm.list ∧ IsCIDR q (n + 1) bits ∧ IsCIDR r n bits
      ∧ (∀ a, Covers q a → Covers r a)
      ∧ (tm.expand id).2.list.Perm ((id, r) :: tm.list.filter fun e => e.1 ≠ id)
      ∧ (∀ a, InBuddy q a → tm.IsFree a)
      ∧ ∀ a, (tm.expand id).2.IsFree a ↔ tm.IsFree a ∧ ¬ InBuddy q a
  unchanged : ∀ e, (tm.expand id).1 = .error e →
    (tm.expand id).2.list.Perm tm.list ∧ (tm.expand id).2.t.freePrefixes = tm.t.freePrefixes

/-- Two managers of one tree have the same lists and free leaves. -/
theorem Refines.list_perm (h : Refines p leafSize tm T) (h' : Refines p leafSize tm' T) :
  tm'.list.Perm tm.list ∧ tm'.t.freePrefixes = tm.t.freePrefixes
  := by
  constructor
  · apply (List.perm_ext_iff_of_nodup (nodup_list tm') (nodup_list tm)).mpr
    intro e
    rw [h'.mem_list_iff, h.mem_list_iff]
  · rw [h'.freePrefixes_eq, h.freePrefixes_eq]

/-- A call that is refused, as it has to be, changes nothing. -/
theorem Refines.expands_of_error (hp : IsCIDR p ones bits) (h : Refines p leafSize tm T)
    {e : Error} (herror : treeExpand id T = (.error e, T))
    (hnot : ∀ q, (id, q) ∈ holdings T → q ≠ p →
      ∃ e ∈ holdings T, ∃ a, Covers e.2 a ∧ InBuddy q a) :
  Expands p bits tm id
  := by
  obtain ⟨hreply, hafter⟩ := h.expand hp id
  rw [herror] at hreply hafter
  constructor
  · rw [hreply]
    constructor
    · rintro ⟨r, hr⟩
      simp at hr
    · rintro ⟨q, hq, hne, hfree⟩
      obtain ⟨e, he, a, hea, hbuddy⟩ := hnot q (h.mem_list_iff.mp hq) hne
      exact absurd hbuddy (hfree e (h.mem_list_iff.mpr he) a hea)
  · intro r hr
    rw [hreply] at hr
    simp at hr
  · intro _ _
    apply h.list_perm hafter

/-- The holdings of a tree around the node of an identifier. -/
theorem mem_holdings_leaf_iff {e : String × IPNet} :
  e ∈ holdings (plug c (leaf (allocatedLabel q id))) ↔ e = (id, q) ∨ e ∈ contextHoldings c
  := by
  rw [mem_holdings_plug, holdings_leaf, allocatedLabel, if_pos rfl, List.mem_singleton]

/-- After an expansion an entry is listed if it is the new one of the identifier, or was listed
for another one. -/
theorem expand_list_perm {r : IPNet} (hvalue : f.value.allocated = false)
    (hany : f.sibling.values.any Label.allocated = false)
    (h : Refines p leafSize tm (plug (f :: c) (leaf (allocatedLabel q id))))
    (h' : Refines p leafSize tm' (plug c (leaf (allocatedLabel r id)))) :
  tm'.list.Perm ((id, r) :: tm.list.filter fun e => e.1 ≠ id)
  := by
  have hcontext := contextHoldings_cons (c := c) hvalue hany
  apply (List.perm_ext_iff_of_nodup (nodup_list tm') _).mpr
  · intro e
    rw [h'.mem_list_iff, mem_holdings_leaf_iff, List.mem_cons, List.mem_filter, h.mem_list_iff,
      mem_holdings_leaf_iff, hcontext, decide_eq_true_eq]
    constructor
    · rintro (rfl | he)
      · exact Or.inl rfl
      · right
        use Or.inr he
        apply h.ne_of_mem_context
        rw [hcontext]
        exact he
    · rintro (rfl | ⟨rfl | he, hne⟩)
      · exact Or.inl rfl
      · exact absurd rfl hne
      · exact Or.inr he
  · apply List.nodup_cons.mpr
    use by simp
    apply (nodup_list tm).filter

/-- The addresses that are free after an expansion. -/
theorem expand_isFree_iff (hp : IsCIDR p ones bits)
    (hany : f.sibling.values.any Label.allocated = false)
    (h : Refines p leafSize tm (plug (f :: c) (leaf (allocatedLabel q id))))
    (h' : Refines p leafSize tm' (plug c (leaf (allocatedLabel (holePrefix p c) id)))) :
  (∀ a, InBuddy q a → tm.IsFree a) ∧ ∀ a, tm'.IsFree a ↔ tm.IsFree a ∧ ¬ InBuddy q a
  := by
  obtain ⟨hc, hq, -⟩ := (wellFormed_plug_iff (by simp [leaf])).mp h.wellFormed
  have hvalue : f.value.allocated = false := by
    rw [hc.1, freeLabel]
  have hcontext := contextHoldings_cons (c := c) hvalue hany
  rw [allocatedLabel] at hq
  have henclosing : ∀ a, Covers (enclosing q) a ↔ Covers (holePrefix p c) a := by
    rw [show q = _ from hq]
    apply hc.covers_enclosing hp
  have hinside : ∀ a, Covers q a → Covers (holePrefix p c) a := by
    rw [show q = _ from hq]
    intro a ha
    apply hc.covers_parent hp ha
  constructor
  · intro a ha
    rw [h.isFree_iff hp]
    have hcovers := (henclosing a).mp ha.1
    use hc.2.2.2.covers_root hp hcovers
    intro e he
    rw [mem_holdings_leaf_iff, hcontext] at he
    rcases he with rfl | he
    · exact ha.2
    · apply hc.2.2.2.not_covers hp he hcovers
  · intro a
    rw [h.isFree_iff hp, h'.isFree_iff hp]
    simp only [mem_holdings_leaf_iff, hcontext, forall_eq_or_imp, InBuddy, henclosing]
    constructor
    · rintro ⟨hroot, hr, hother⟩
      exact ⟨⟨hroot, fun hqa => hr (hinside a hqa), hother⟩, fun hbuddy => hr hbuddy.1⟩
    · rintro ⟨⟨hroot, hqa, hother⟩, hbuddy⟩
      exact ⟨hroot, fun hr => hbuddy ⟨hr, hqa⟩, hother⟩

/-- A call that takes the buddy of the network of the identifier, which is free. -/
theorem Refines.expands_of_ok (hp : IsCIDR p ones bits)
    (h : Refines p leafSize tm (plug (f :: c) (leaf (allocatedLabel q id))))
    (hany : f.sibling.values.any Label.allocated = false)
    (hok : treeExpand id (plug (f :: c) (leaf (allocatedLabel q id)))
      = (.ok (holePrefix p c), plug c (leaf (allocatedLabel (holePrefix p c) id)))) :
  Expands p bits tm id
  := by
  obtain ⟨hc, hq, -⟩ := (wellFormed_plug_iff (by simp [leaf])).mp h.wellFormed
  rw [show (allocatedLabel q id).pfx = q from rfl] at hq
  obtain ⟨hreply, hafter⟩ := h.expand hp id
  rw [hok] at hreply hafter
  have hcidr := (hc.isCIDR hp).1
  have hcidr' := (hc.2.2.2.isCIDR hp).1
  rw [← hq, List.length_cons, ← Nat.add_assoc] at hcidr
  constructor
  · apply iff_of_true ⟨_, hreply⟩
    refine ⟨q, h.mem_list_iff.mpr (mem_holdings_of_plug _), ?_, ?_⟩
    · intro heq
      have hsize := hcidr.maskSize
      rw [heq, hp.maskSize, Prod.mk.injEq] at hsize
      omega
    · intro e he a hea hbuddy
      rw [h.mem_list_iff, mem_holdings_leaf_iff] at he
      rcases he with rfl | he
      · exact hbuddy.2 hea
      · rw [← Bool.not_eq_true, any_sibling_iff hp hc] at hany
        rw [hq] at hbuddy
        exact hany ⟨e, he, a, hea, hbuddy⟩
  · intro r hr
    rw [hreply, Except.ok.injEq] at hr
    subst hr
    have hvalue : f.value.allocated = false := by
      rw [hc.1, freeLabel]
    refine ⟨q, ones + c.length, h.mem_list_iff.mpr (mem_holdings_of_plug _), hcidr, hcidr', ?_,
      expand_list_perm hvalue hany h hafter, expand_isFree_iff hp hany h hafter⟩
    intro a ha
    rw [hq] at ha
    apply hc.covers_parent hp ha
  · intro e he
    rw [hreply] at he
    simp at he

/-- `Expand` does to a manager what its tree says. -/
theorem Refines.expands (hp : IsCIDR p ones bits) (h : Refines p leafSize tm T)
    (hempty : tm.held "" = none) (id : String) :
  Expands p bits tm id
  := by
  rcases hlocate : locate (isOf id) [] T with _ | ⟨c, a, l, r⟩
  · have hnone := locate_eq_none_iff.mp hlocate
    have herror : ∃ e, treeExpand id T = (.error e, T) := by
      rw [treeExpand, hlocate]
      split <;> exact ⟨_, rfl⟩
    obtain ⟨e, herror⟩ := herror
    apply h.expands_of_error hp herror
    intro q hq
    exact absurd hq (hnone q)
  obtain ⟨rfl, ha, rfl, rfl⟩ := locate_wellFormed h.wellFormed hlocate
  rw [ha] at h hlocate
  generalize a.pfx = q at h hlocate
  have hid : id ≠ "" := by
    rintro rfl
    rw [h.held_iff.mpr (mem_holdings_of_plug c)] at hempty
    simp at hempty
  have hunique : ∀ q', (id, q') ∈ holdings (plug c (leaf (allocatedLabel q id))) → q' = q := by
    intro q' hq'
    obtain ⟨⟨t, ht, hlabels⟩, -, -⟩ := h
    rw [← hlabels] at hq'
    apply ht.holdings_unique hq'
    rw [hlabels]
    apply mem_holdings_of_plug
  obtain ⟨hc, hq, -⟩ := (wellFormed_plug_iff (by simp [leaf])).mp h.wellFormed
  rw [show (allocatedLabel q id).pfx = q from rfl] at hq
  cases c with
  | nil =>
    -- the identifier holds the root network
    have herror : treeExpand id (plug [] (leaf (allocatedLabel q id)))
        = (.error (.notFound id), plug [] (leaf (allocatedLabel q id))) := by
      rw [treeExpand, if_neg hid, hlocate]
    apply h.expands_of_error hp herror
    intro q' hq' hne
    exact absurd ((hunique q' hq').trans hq) hne
  | cons f c =>
    obtain ⟨herror, hok⟩ := treeExpand_plug hid h.wellFormed hlocate
    cases hany : f.sibling.values.any Label.allocated with
    | true =>
      obtain ⟨e, herror⟩ := herror hany
      apply h.expands_of_error hp herror
      intro q' hq' _
      rw [hunique q' hq', hq]
      obtain ⟨e, he, hcovers⟩ := (any_sibling_iff hp hc).mp hany
      exact ⟨e, mem_holdings_plug.mpr (Or.inr he), hcovers⟩
    | false => apply h.expands_of_ok hp hany (hok hany)

/-- After every run of a new manager, `Expand` succeeds exactly when the buddy is free, and then
takes it. -/
theorem after_expands {root : IPNet} (hroot : IsCIDR root ones bits)
    (hnew : newTrieManager root leafSize = some tm) (ops : List Op) (id : String) :
  Expands root bits (Machine.after step tm ops) id
  := by
  obtain ⟨⟨T, h⟩, hempty⟩ := after_held_empty hroot hnew ops
  apply h.expands hroot hempty

theorem after_expands_slash28 :
  ∃ tm, newTrieManager ⟨[10, 0, 0, 0], cidrMask 28 32⟩ 30 = some tm
    ∧ Expands ⟨[10, 0, 0, 0], cidrMask 28 32⟩ 32
      (Machine.after step tm [.allocate "a", .allocate "b", .expand "a"]) "a"
  := by
  obtain ⟨hroot, tm, hnew⟩ :=
    exists_newTrieManager_ipv4 [10, 0, 0, 0] 28 30 rfl (by decide) (by decide)
  use tm, hnew
  apply after_expands hroot hnew

/-! ### Room to grow -/

/-- The next `d` expansions of the identifier succeed, and the one after them fails. -/
def Grows (tm : TrieManager) (id : String) : ℕ → Prop
  | 0 => ∃ e, (tm.expand id).1 = .error e
  | d + 1 => (∃ q, (tm.expand id).1 = .ok q) ∧ Grows (tm.expand id).2 id d

/-- An identifier can be expanded as often as its ancestors have free siblings. -/
theorem Refines.grows (hp : IsCIDR p ones bits) (hid : id ≠ "")
    (h : Refines p leafSize tm (plug c (leaf (allocatedLabel q id)))) :
  Grows tm id (clearance Label.allocated c)
  := by
  induction c generalizing tm q with
  | nil =>
    use .notFound id
    rw [(h.expand hp id).1, treeExpand, if_neg hid, h.locate_eq]
  | cons f c ih =>
    obtain ⟨herror, hok⟩ := treeExpand_plug hid h.wellFormed h.locate_eq
    obtain ⟨hreply, hafter⟩ := h.expand hp id
    rw [clearance]
    cases hany : f.sibling.values.any Label.allocated with
    | true =>
      obtain ⟨e, herror⟩ := herror hany
      use e
      rw [hreply, herror]
    | false =>
      rw [hok hany] at hreply hafter
      constructor
      · exact ⟨_, hreply⟩
      · apply ih hafter

/-- `MaxExpandableDepth` of a node of the manager. -/
def TrieManager.room (tm : TrieManager) (x : ℕ) : ℕ :=
  maxExpandableDepth tm.t.heap (tm.t.heap.length + 1) x

/-- Of the elements of an ordered list with the largest value, `argmax` is the first. -/
theorem argmax_first {α : Type*} {f : α → ℕ} {R : α → α → Prop} {l : List α} (hl : l.Pairwise R)
    {m : α} (hm : m ∈ l.argmax f) {y : α} (hy : y ∈ l) (hle : f m ≤ f y) :
  y = m ∨ R m y
  := by
  classical
  have hm' := List.argmax_mem hm
  rcases (List.index_of_argmax hm hy hle).eq_or_lt with heq | hlt
  · left
    exact ((List.idxOf_inj hm').mp heq).symm
  · right
    have h := List.pairwise_iff_getElem.mp hl _ _ (List.idxOf_lt_length_of_mem hm')
      (List.idxOf_lt_length_of_mem hy) hlt
    rwa [List.getElem_idxOf, List.getElem_idxOf] at h

/-- The free leaves stand in the order of their addresses. -/
theorem WellFormed.pairwise_freeLeaves (hp : IsCIDR p ones bits) (h : WellFormed p T) :
  ((freeLeaves T).map Label.pfx).Pairwise fun x y => base x < base y
  := by
  induction T generalizing p ones with
  | nil => exact h.elim
  | node b l r hl hr =>
    obtain ⟨rfl, -, ⟨rfl, rfl⟩ | ⟨hb, hlt, hwl, hwr⟩⟩ := h
    · rw [freeLeaves_leaf]
      split <;> simp
    · have hbits := hp.family
      rw [hp.maskSize] at hlt
      have hlt' : ones < bits := by omega
      have hlower := lower_isCIDR hp hlt'
      have hupper := upper_isCIDR hp hlt'
      rw [freeLeaves_node hb hwl.ne_nil, List.map_append]
      apply List.pairwise_append.mpr
      refine ⟨hl hlower hwl, hr hupper hwr, ?_⟩
      intro x hx y hy
      have hx' := ((hwl.free_iff hlower _).mp ⟨x, hx, covers_base x⟩).1
      have hy' := ((hwr.free_iff hupper _).mp ⟨y, hy, covers_base y⟩).1
      rw [covers_lower_iff hp hlt'] at hx'
      rw [covers_upper_iff hp hlt'] at hy'
      omega

/-- The room of a free leaf is the number of its ancestors with a free sibling. -/
theorem Represents.room_eq {t : BinaryTree (ℕ × Label)} (h : Represents tm.t t)
    {x : Context (ℕ × Label) × ℕ × Label} (hx : x ∈ openLeaves isTaken [] t) :
  tm.room x.2.1 = clearance Label.allocated (x.1.map Prod.snd)
  := by
  obtain ⟨c, y⟩ := x
  obtain ⟨-, hplug⟩ := openLeaves_spec hx
  rw [plug_nil] at hplug
  subst hplug
  rw [TrieManager.room, maxExpandableDepth_eq h.holds h.nodup]
  · rw [clearance_map]
    rfl
  · apply h.holds.length_context_le h.nodup

/-- Giving a free leaf to a new identifier. -/
theorem Represents.give_refines {t : BinaryTree (ℕ × Label)} (h : Represents tm.t t)
    (hwf : WellFormed p (labels t)) (hnone : tm.t.getNodeByID id = none)
    {x : Context (ℕ × Label) × ℕ × Label} (hx : x ∈ openLeaves isTaken [] t) :
  Refines p tm.leafSize (tm.give x.2.1 id)
    (plug (x.1.map Prod.snd) (leaf (allocatedLabel x.2.2.pfx id)))
  := by
  obtain ⟨c, y, a⟩ := x
  obtain ⟨hfree, hplug⟩ := openLeaves_spec hx
  rw [plug_nil] at hplug
  subst hplug
  refine ⟨⟨_, h.take hfree hnone, ?_⟩, ?_, rfl⟩
  · rw [labels, plug_map]
    rfl
  · rw [labels, plug_map] at hwf
    obtain ⟨hc, hpfx, -⟩ := (wellFormed_plug_iff (by simp)).mp hwf
    apply (wellFormed_plug_iff (by simp [leaf])).mpr
    use hc
    rw [← hpfx]
    exact wellFormed_leaf (a := allocatedLabel _ id) (by simp [allocatedLabel])

/-- The free leaves of the manager stand in the order of their addresses. -/
theorem pairwise_openLeaves {t : BinaryTree (ℕ × Label)} (hp : IsCIDR p ones bits)
    (h : WellFormed p (labels t)) :
  (openLeaves isTaken [] t).Pairwise fun x y => base x.2.2.pfx < base y.2.2.pfx
  := by
  have hleaves := openLeaves_map Prod.snd Label.allocated [] t
  rw [Context.map_nil] at hleaves
  have hsorted := h.pairwise_freeLeaves hp
  rw [freeLeaves, labels, hleaves, List.map_map, List.map_map, List.pairwise_map] at hsorted
  exact hsorted

/-- `Allocate` gave the identifier the free leaf `n`: from then on the identifier can be expanded
exactly as often as `MaxExpandableDepth` of the leaf said before, no other free leaf would have
given it more, and of those that would have given it as much, the leaf has the lowest address. -/
def Roomiest (tm : TrieManager) (id : String) (n : ℕ) : Prop :=
  n ∈ tm.t.findAllFree ∧ (tm.allocate id).1 = tm.prefixOf n ∧ (tm.allocate id).2 = tm.give n id
    ∧ Grows (tm.allocate id).2 id (tm.room n)
    ∧ ∀ y ∈ tm.t.findAllFree, Grows (tm.give y id) id (tm.room y) ∧ tm.room y ≤ tm.room n
      ∧ (tm.room y = tm.room n → ∀ q q', tm.prefixOf n = .ok q → tm.prefixOf y = .ok q' →
        base q ≤ base q')

/-- After every run of a new manager, an allocation for a new identifier takes a leaf with the most
room to grow, the leftmost of those. -/
theorem after_roomiest {root : IPNet} (hroot : IsCIDR root ones bits)
    (hnew : newTrieManager root leafSize = some tm) (ops : List Op)
    (hfresh : ∀ q, (id, q) ∉ (Machine.after step tm ops).list)
    (hok : ((Machine.after step tm ops).allocate id).1 = .ok q) :
  ∃ n, Roomiest (Machine.after step tm ops) id n
  := by
  obtain ⟨k, hrefines, -⟩ := newTrieManager_models hroot hnew
  obtain ⟨⟨t, ht, hlabels⟩, hwf, -⟩ := after_models hroot hrefines ops
  rw [← hlabels] at hwf
  generalize Machine.after step tm ops = tm at *
  have hid : id ≠ "" := by
    rintro rfl
    simp [TrieManager.allocate] at hok
  have hnone := ht.getNodeByID_of_not_mem_list hfresh
  have hallocate := ht.allocate_eq hwf hid hnone
  cases hbest : (openLeaves isTaken [] t).argmax fun x => clearance isTaken x.1 with
  | none =>
    rw [hallocate, hbest] at hok
    simp at hok
  | some best =>
    rw [hbest] at hallocate
    have hmem := List.argmax_mem hbest
    have hroom : ∀ x ∈ openLeaves isTaken [] t, tm.room x.2.1 = clearance isTaken x.1 := by
      intro x hx
      rw [ht.room_eq hx, clearance_map]
      rfl
    have hgrows : ∀ x ∈ openLeaves isTaken [] t, Grows (tm.give x.2.1 id) id (tm.room x.2.1) := by
      intro x hx
      rw [ht.room_eq hx]
      apply (ht.give_refines hwf hnone hx).grows hroot hid
    have hpfx : ∀ x ∈ openLeaves isTaken [] t, tm.prefixOf x.2.1 = .ok x.2.2.pfx := by
      rintro ⟨c, y, a⟩ hx
      obtain ⟨-, hplug⟩ := openLeaves_spec hx
      rw [plug_nil] at hplug
      subst hplug
      rw [TrieManager.prefixOf, ht.get_focus]
    use best.2.1
    rw [Roomiest, ht.findAllFree_eq, hallocate, hpfx best hmem]
    refine ⟨List.mem_map_of_mem hmem, rfl, rfl, hgrows best hmem, ?_⟩
    intro y hy
    obtain ⟨x, hx, rfl⟩ := List.mem_map.mp hy
    refine ⟨hgrows x hx, ?_, ?_⟩
    · rw [hroom x hx, hroom best hmem]
      apply List.le_of_mem_argmax hx hbest
    · rw [hroom x hx, hroom best hmem, hpfx x hx]
      rintro hequal q q' hq hq'
      rw [Except.ok.injEq] at hq hq'
      subst hq hq'
      rcases argmax_first (pairwise_openLeaves hroot hwf) hbest hx hequal.ge with rfl | hlt
      · exact Nat.le_refl _
      · exact hlt.le

theorem after_roomiest_slash28 :
  ∃ tm, newTrieManager ⟨[10, 0, 0, 0], cidrMask 28 32⟩ 30 = some tm
    ∧ ∃ n, Roomiest (Machine.after step tm [.allocate "a"]) "b" n
  := by
  obtain ⟨hroot, tm, hnew⟩ :=
    exists_newTrieManager_ipv4 [10, 0, 0, 0] 28 30 rfl (by decide) (by decide)
  have hrun : (newTrieManager ⟨[10, 0, 0, 0], cidrMask 28 32⟩ 30).map (fun tm =>
      decide ((∀ e ∈ (Machine.after step tm [.allocate "a"]).list, e.1 ≠ "b")
        ∧ ((Machine.after step tm [.allocate "a"]).allocate "b").1.toOption
          = some ⟨[10, 0, 0, 8], cidrMask 30 32⟩)) = some true := by
    decide +kernel
  rw [hnew, Option.map_some, Option.some.injEq, decide_eq_true_eq] at hrun
  use tm, hnew
  apply after_roomiest (q := ⟨[10, 0, 0, 8], cidrMask 30 32⟩) hroot hnew
  · intro q hq
    exact hrun.1 _ hq rfl
  · have hok := hrun.2
    revert hok
    cases ((Machine.after step tm [.allocate "a"]).allocate "b").1 with
    | error e => simp [Except.toOption]
    | ok q => simp [Except.toOption]

end

end Trie
