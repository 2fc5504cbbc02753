import Misokube.Trie.Partition

/-!
# The networks of the tenants

What the callers of the subnet manager rely on: the network each identifier holds, and how
`Allocate`, `Deallocate` and `Expand` change it.  An operation that fails changes nothing, and
no operation touches the network of another identifier.
-/

namespace Trie

open Net BinaryTree Linked

/-- The network the manager holds for the identifier. -/
def TrieManager.held (tm : TrieManager) (id : String) : Option IPNet :=
  (tm.get id).toOption

theorem TrieManager.held_eq_some {tm : TrieManager} {id : String} {q : IPNet} :
  tm.held id = some q ↔ tm.get id = .ok q
  := by
  rw [TrieManager.held]
  cases tm.get id with
  | ok q' => simp [Except.toOption]
  | error e => simp [Except.toOption]

/-- The manager is one of the network `p` with leaves of `leafSize` ones. -/
def Managed (p : IPNet) (leafSize : ℤ) (tm : TrieManager) : Prop :=
  ∃ T, Refines p leafSize tm T

/-! ### Changes of the holdings -/

/-- The identifier an operation is about. -/
def Op.id : Op → String
  | .allocate id => id
  | .deallocate id => id
  | .release id => id
  | .expand id => id
  | .reduce id => id

theorem mem_holdings_plug {c : Context Label} {t : BinaryTree Label} {e : String × IPNet} :
  e ∈ holdings (plug c t) ↔ e ∈ holdings t ∨ e ∈ contextHoldings c
  := by
  rw [(holdings_plug c t).mem_iff, List.mem_append]

theorem holdings_leaf (a : Label) :
  holdings (leaf a) = if a.allocated then [(a.id, a.pfx)] else []
  := by
  rw [leaf, holdings_node]
  apply List.append_nil

/-- A free node has no holding, however it is rebuilt. -/
theorem holdings_rebuilt (a : Label) :
  holdings (rebuilt a .nil .nil) = []
  := by
  rw [rebuilt]
  split
  · apply holdings_fullTree
  · apply holdings_leaf

/-- The frame above a network without allocated sibling has no holding. -/
theorem contextHoldings_cons {f : Frame Label} {c : Context Label}
    (hvalue : f.value.allocated = false) (hsibling : f.sibling.values.any Label.allocated = false) :
  contextHoldings (f :: c) = contextHoldings c
  := by
  have hframe : f.values.filter Label.allocated = [] := by
    rw [List.any_eq_false] at hsibling
    rw [List.filter_eq_nil_iff]
    intro a ha
    rw [Frame.values, List.mem_cons] at ha
    obtain rfl | ha := ha
    · simp [hvalue]
    · exact hsibling a ha
  rw [contextHoldings, Context.values_cons, List.filter_append, hframe, List.nil_append]
  rfl

/-- A change leaves the holdings of other identifiers. -/
theorem Change.mem_holdings_iff {p : IPNet} {op : Op} {t t' : BinaryTree Label}
    (h : Change op t t') (hwf : WellFormed p t) {e : String × IPNet} (he : e.1 ≠ op.id) :
  e ∈ holdings t' ↔ e ∈ holdings t
  := by
  have hleaf : ∀ q id, id = op.id → e ∉ holdings (leaf (allocatedLabel q id)) := by
    intro q id hid hmem
    rw [holdings_leaf, allocatedLabel, if_pos rfl, List.mem_singleton] at hmem
    rw [hmem] at he
    exact he hid
  have hfree : ∀ q, e ∉ holdings (leaf (freeLabel q)) := by
    intro q
    simp [holdings_leaf, freeLabel]
  cases h with
  | @take id c q =>
    rw [mem_holdings_plug, mem_holdings_plug, or_iff_right (hleaf _ id rfl),
      or_iff_right (hfree _)]
  | @free _ id hop f c q =>
    have hid : id = op.id := by
      obtain rfl | rfl := hop
      · rfl
      · rfl
    rw [mem_holdings_plug, mem_holdings_plug, holdings_rebuilt, or_iff_right (hleaf _ _ hid),
      or_iff_right List.not_mem_nil]
  | @merge id f c q hsibling =>
    obtain ⟨⟨hvalue, -⟩, -⟩ := (wellFormed_plug_iff (by simp [leaf])).mp hwf
    have hcontext := contextHoldings_cons (c := c) (by rw [hvalue, freeLabel]) hsibling
    rw [mem_holdings_plug, mem_holdings_plug, or_iff_right (hleaf _ id rfl),
      or_iff_right (hleaf _ id rfl), hcontext]
  | @split id c q hq =>
    have hhalves : e ∉ holdings (.node (freeLabel q) (leaf (allocatedLabel (lower q) id))
        (leaf (freeLabel (upper q)))) := by
      rw [holdings_node, List.mem_append, List.mem_append, not_or, not_or]
      exact ⟨List.not_mem_nil, hleaf _ id rfl, hfree _⟩
    rw [mem_holdings_plug, mem_holdings_plug, or_iff_right hhalves, or_iff_right (hleaf _ id rfl)]

/-! ### The answers on trees -/

section

variable {p : IPNet} {T : BinaryTree Label} {id : String}

theorem mem_holdings_of_plug {q : IPNet} (c : Context Label) :
  (id, q) ∈ holdings (plug c (leaf (allocatedLabel q id)))
  := by
  rw [mem_holdings_plug, holdings_leaf]
  left
  apply List.mem_singleton_self

/-- A network that is returned is held; an allocation that fails changes nothing. -/
theorem treeAllocate_cases (hwf : WellFormed p T) (id : String) :
  (∃ e, treeAllocate id T = (.error e, T))
    ∨ ∃ q, (treeAllocate id T).1 = .ok q ∧ (id, q) ∈ holdings (treeAllocate id T).2
  := by
  rw [treeAllocate]
  split
  · exact Or.inl ⟨_, rfl⟩
  split
  case h_1 x hlocate =>
    obtain ⟨c, a, l, r⟩ := x
    obtain ⟨hT, ha, -, -⟩ := locate_wellFormed hwf hlocate
    right
    use a.pfx, rfl
    nth_rewrite 1 [hT]
    rw [ha]
    apply mem_holdings_of_plug
  split
  · exact Or.inl ⟨_, rfl⟩
  case h_2 x hbest =>
    right
    use x.2.pfx, rfl
    apply mem_holdings_of_plug

/-- A tree in which `id` has a node below the root, as `Deallocate` and `Expand` find it. -/
theorem locate_cons_cases {f : Frame Label} {c : Context Label} {a : Label}
    {l r : BinaryTree Label} (hwf : WellFormed p T)
    (hlocate : locate (isOf id) [] T = some (f :: c, a, l, r)) :
  (holdings T).Perm ((id, a.pfx) :: contextHoldings (f :: c))
    ∧ f.value.pfx = holePrefix p c ∧ a.pfx = holePrefix p (f :: c) ∧ WellFormedContext p (f :: c)
    ∧ l = .nil ∧ r = .nil
  := by
  obtain ⟨hT, ha, hl, hr⟩ := locate_wellFormed hwf hlocate
  rw [hT] at hwf
  obtain ⟨hc, hpfx, -⟩ := (wellFormed_plug_iff (by simp [leaf])).mp hwf
  refine ⟨?_, ?_, hpfx, hc, hl, hr⟩
  · rw [hT]
    apply (holdings_plug _ _).trans
    rw [holdings_leaf, ha]
    rfl
  · rw [hc.1, freeLabel]

/-- An identifier has no node exactly when it has no holding. -/
theorem locate_eq_none_iff :
  locate (isOf id) [] T = none ↔ ∀ q, (id, q) ∉ holdings T
  := by
  rw [locate_eq_none]
  simp only [isOf, holdings, allocatedNodes, List.mem_map, List.mem_filter, Prod.mk.injEq]
  constructor
  · rintro hnone q ⟨a, ⟨ha, halloc⟩, rfl, -⟩
    have := hnone a ha
    simp [halloc] at this
  · intro hnone a ha
    by_contra hof
    rw [Bool.not_eq_false, Bool.and_eq_true, beq_iff_eq] at hof
    apply hnone a.pfx
    use a
    exact ⟨⟨ha, hof.1⟩, hof.2, rfl⟩

/-- After `Deallocate` the identifier holds nothing, or the call failed and changed nothing. -/
theorem treeDeallocate_cases (hwf : WellFormed p T) (id : String) :
  (∃ e, treeDeallocate id T = (.error e, T))
    ∨ ((treeDeallocate id T).1 = .ok () ∧ (treeDeallocate id T).2 = T
      ∧ ∀ q, (id, q) ∉ holdings T)
    ∨ ∃ q rest, (treeDeallocate id T).1 = .ok ()
      ∧ (holdings T).Perm ((id, q) :: rest) ∧ (holdings (treeDeallocate id T).2).Perm rest
  := by
  rw [treeDeallocate]
  split
  · exact Or.inl ⟨_, rfl⟩
  split
  case h_1 hlocate =>
    exact Or.inr (Or.inl ⟨rfl, rfl, locate_eq_none_iff.mp hlocate⟩)
  · exact Or.inl ⟨_, rfl⟩
  case h_3 f c a l r hlocate =>
    obtain ⟨hperm, -, -, -, rfl, rfl⟩ := locate_cons_cases hwf hlocate
    refine Or.inr (Or.inr ⟨a.pfx, contextHoldings (f :: c), rfl, hperm, ?_⟩)
    apply (holdings_plug _ _).trans
    rw [holdings_rebuilt]
    rfl

/-- An expansion that succeeds replaces the network by the one it is a half of; one that fails
changes nothing. -/
theorem treeExpand_cases {ones bits : ℕ} (hp : IsCIDR p ones bits) (hwf : WellFormed p T)
    (id : String) :
  (∃ e, treeExpand id T = (.error e, T))
    ∨ ∃ q n, (treeExpand id T).1 = .ok q ∧ (id, q) ∈ holdings (treeExpand id T).2
      ∧ IsCIDR q n bits ∧ n < bits ∧ ((id, lower q) ∈ holdings T ∨ (id, upper q) ∈ holdings T)
  := by
  rw [treeExpand]
  split
  · exact Or.inl ⟨_, rfl⟩
  split
  · exact Or.inl ⟨_, rfl⟩
  · exact Or.inl ⟨_, rfl⟩
  case h_3 f c a l r hlocate =>
    obtain ⟨hperm, hvalue, hpfx, hcontext, -, -⟩ := locate_cons_cases hwf hlocate
    split
    · exact Or.inl ⟨_, rfl⟩
    split
    · exact Or.inl ⟨_, rfl⟩
    split
    · exact Or.inl ⟨_, rfl⟩
    right
    have hcidr := (hcontext.isCIDR hp).1
    have hle := hcidr.ones_le
    rw [List.length_cons] at hle
    refine ⟨f.value.pfx, ones + c.length, rfl, mem_holdings_of_plug c, ?_, by omega, ?_⟩
    · rw [hvalue]
      apply (hcontext.2.2.2.isCIDR hp).1
    · rw [hperm.mem_iff, hperm.mem_iff, hvalue, hpfx, holePrefix]
      split
      · right
        apply List.mem_cons_self
      · left
        apply List.mem_cons_self

end

/-! ### The manager -/

section

variable {p : IPNet} {ones bits : ℕ} {leafSize : ℤ} {tm tm' : TrieManager}
  {T T' : BinaryTree Label}

theorem Refines.held_iff (h : Refines p leafSize tm T) {id : String} {q : IPNet} :
  tm.held id = some q ↔ (id, q) ∈ holdings T
  := by
  obtain ⟨⟨t, ht, rfl⟩, -, -⟩ := h
  rw [← ht.get_iff, TrieManager.held_eq_some]

/-- Only the network of `id` differs when the other holdings are the same. -/
theorem held_eq_update (h : Refines p leafSize tm T) (h' : Refines p leafSize tm' T') {id : String}
    (hother : ∀ e : String × IPNet, e.1 ≠ id → (e ∈ holdings T' ↔ e ∈ holdings T)) :
  tm'.held = Function.update tm.held id (tm'.held id)
  := by
  funext id'
  by_cases hid : id' = id
  · rw [hid, Function.update_self]
  · rw [Function.update_of_ne hid]
    apply Option.ext
    intro q
    rw [h'.held_iff, h.held_iff]
    apply hother (id', q) hid

/-- An operation touches only the network of its identifier. -/
theorem step_held (hp : IsCIDR p ones bits) (h : Refines p leafSize tm T) (op : Op) :
  (step tm op).2.held = Function.update tm.held op.id ((step tm op).2.held op.id)
  := by
  apply held_eq_update h (step_models hp h op).2
  intro e he
  obtain heq | hchange := treeStep_change h.wellFormed leafSize op
  · rw [heq]
  · apply hchange.mem_holdings_iff h.wellFormed he

/-- Two managers of one tree hold the same networks. -/
theorem held_eq (h : Refines p leafSize tm T) (h' : Refines p leafSize tm' T) :
  tm'.held = tm.held
  := by
  funext id
  apply Option.ext
  intro q
  rw [h'.held_iff, h.held_iff]

/-- A new manager holds no network. -/
theorem newTrieManager_held (hp : IsCIDR p ones bits) (hnew : newTrieManager p leafSize = some tm) :
  Managed p leafSize tm ∧ tm.held = fun _ => none
  := by
  obtain ⟨k, h, -⟩ := newTrieManager_models hp hnew
  refine ⟨⟨_, h⟩, ?_⟩
  funext id
  apply Option.eq_none_iff_forall_ne_some.mpr
  intro q hq
  rw [h.held_iff, holdings_fullTree] at hq
  exact List.not_mem_nil hq

/-- Held networks are in CIDR form. -/
theorem Managed.isCIDR (h : Managed p leafSize tm) (hp : IsCIDR p ones bits) {id : String}
    {q : IPNet} (hq : tm.held id = some q) :
  ∃ n, IsCIDR q n bits
  := by
  obtain ⟨T, h⟩ := h
  apply h.wellFormed.isCIDR_of_holding hp (h.held_iff.mp hq)

/-- Held networks are in the root network. -/
theorem Managed.covers_root (h : Managed p leafSize tm) (hp : IsCIDR p ones bits) {id : String}
    {q : IPNet} (hq : tm.held id = some q) {a : ℕ} (ha : Covers q a) :
  Covers p a
  := by
  obtain ⟨T, h⟩ := h
  exact h.wellFormed.covers_of_holding hp (h.held_iff.mp hq) ha

/-- No address is in the networks of two identifiers. -/
theorem Managed.held_unique (h : Managed p leafSize tm) (hp : IsCIDR p ones bits)
    {id id' : String} {q q' : IPNet} (hq : tm.held id = some q) (hq' : tm.held id' = some q')
    {a : ℕ} (ha : Covers q a) (ha' : Covers q' a) :
  id = id'
  := by
  obtain ⟨T, h⟩ := h
  have heq := h.wellFormed.holding_unique hp (h.held_iff.mp hq) (h.held_iff.mp hq') ha ha'
  exact congrArg Prod.fst heq

/-- `Allocate` fails and changes nothing, or returns the network the identifier then holds. -/
theorem Managed.allocate (h : Managed p leafSize tm) (hp : IsCIDR p ones bits) (id : String) :
  Managed p leafSize (tm.allocate id).2
    ∧ ((∃ e, (tm.allocate id).1 = .error e ∧ (tm.allocate id).2.held = tm.held)
      ∨ ∃ q, (tm.allocate id).1 = .ok q
        ∧ (tm.allocate id).2.held = Function.update tm.held id (some q))
  := by
  obtain ⟨T, h⟩ := h
  have h' : Refines p leafSize (tm.allocate id).2 (treeAllocate id T).2 :=
    (step_models hp h (.allocate id)).2
  have hother := step_held hp h (.allocate id)
  have hreply : (tm.allocate id).1 = (treeAllocate id T).1 := by
    obtain ⟨⟨t, ht, rfl⟩, hwf, -⟩ := h
    apply (allocate_models ht hwf id).1
  refine ⟨⟨_, h'⟩, ?_⟩
  obtain ⟨e, he⟩ | ⟨q, hq, hmem⟩ := treeAllocate_cases h.wellFormed id
  · left
    rw [he] at h' hreply
    exact ⟨e, hreply, held_eq h h'⟩
  · right
    rw [← h'.held_iff] at hmem
    use q, hreply.trans hq
    rw [← hmem]
    exact hother

/-- `Deallocate` fails and changes nothing, or the identifier holds nothing after it. -/
theorem Managed.deallocate (h : Managed p leafSize tm) (hp : IsCIDR p ones bits) (id : String) :
  Managed p leafSize (tm.deallocate id).2
    ∧ ((∃ e, (tm.deallocate id).1 = .error e ∧ (tm.deallocate id).2.held = tm.held)
      ∨ ((tm.deallocate id).1 = .ok ()
        ∧ (tm.deallocate id).2.held = Function.update tm.held id none))
  := by
  obtain ⟨T, h⟩ := h
  obtain ⟨hreply, h'⟩ := h.deallocate hp id
  have hother : (tm.deallocate id).2.held = _ := step_held hp h (.deallocate id)
  refine ⟨⟨_, h'⟩, ?_⟩
  have hnone : (∀ q, (id, q) ∉ holdings (treeDeallocate id T).2) →
      (tm.deallocate id).2.held = Function.update tm.held id none := by
    intro hgone
    have hheld : (tm.deallocate id).2.held id = none := by
      apply Option.eq_none_iff_forall_ne_some.mpr
      intro q hq
      apply hgone q (h'.held_iff.mp hq)
    rw [← hheld]
    exact hother
  obtain ⟨e, he⟩ | ⟨hok, heq, hgone⟩ | ⟨q, rest, hok, hperm, hrest⟩ :=
    treeDeallocate_cases h.wellFormed id
  · left
    rw [he] at h' hreply
    exact ⟨e, hreply, held_eq h h'⟩
  · right
    use hreply.trans hok
    apply hnone
    rw [heq]
    exact hgone
  · right
    use hreply.trans hok
    apply hnone
    -- the identifier had this holding only, and only once
    intro q' hq'
    rw [hrest.mem_iff] at hq'
    obtain ⟨⟨t, ht, rfl⟩, -, -⟩ := h
    have hnodup := hperm.nodup_iff.mp ht.nodup_holdings
    have heq := ht.holdings_unique (hperm.mem_iff.mpr (List.mem_cons_of_mem _ hq'))
      (hperm.mem_iff.mpr List.mem_cons_self)
    rw [heq] at hq'
    exact (List.nodup_cons.mp hnodup).1 hq'

/-- `Expand` fails and changes nothing, or returns the network of which the identifier held a
half, which it then holds. -/
theorem Managed.expand (h : Managed p leafSize tm) (hp : IsCIDR p ones bits) (id : String) :
  Managed p leafSize (tm.expand id).2
    ∧ ((∃ e, (tm.expand id).1 = .error e ∧ (tm.expand id).2.held = tm.held)
      ∨ ∃ q n, (tm.expand id).1 = .ok q
        ∧ (tm.expand id).2.held = Function.update tm.held id (some q)
        ∧ IsCIDR q n bits ∧ n < bits
        ∧ (tm.held id = some (lower q) ∨ tm.held id = some (upper q)))
  := by
  obtain ⟨T, h⟩ := h
  have h' : Refines p leafSize (tm.expand id).2 (treeExpand id T).2 :=
    (step_models hp h (.expand id)).2
  have hother := step_held hp h (.expand id)
  have hreply : (tm.expand id).1 = (treeExpand id T).1 := by
    obtain ⟨⟨t, ht, rfl⟩, hwf, -⟩ := h
    apply (expand_models ht hwf id).1
  refine ⟨⟨_, h'⟩, ?_⟩
  obtain ⟨e, he⟩ | ⟨q, n, hq, hmem, hcidr, hlt, hhalf⟩ := treeExpand_cases hp h.wellFormed id
  · left
    rw [he] at h' hreply
    exact ⟨e, hreply, held_eq h h'⟩
  · right
    rw [← h'.held_iff] at hmem
    rw [← h.held_iff, ← h.held_iff] at hhalf
    refine ⟨q, n, hreply.trans hq, ?_, hcidr, hlt, hhalf⟩
    rw [← hmem]
    exact hother

/-! ### Managers of a network larger than their leaves -/

/-- The root of the tree has children. -/
def Inner : BinaryTree Label → Prop
  | .nil => False
  | .node _ l r => l ≠ .nil ∨ r ≠ .nil

theorem not_inner_leaf (a : Label) :
  ¬ Inner (leaf a)
  := by
  simp [leaf, Inner]

theorem inner_plug {f : Frame Label} {c : Context Label} {t : BinaryTree Label} (ht : t ≠ .nil) :
  Inner (plug (f :: c) t)
  := by
  induction c generalizing f t with
  | nil =>
    rw [plug_cons, plug_nil, Frame.fill]
    split
    · right
      exact ht
    · left
      exact ht
  | cons g c ih =>
    rw [plug_cons]
    apply ih
    rw [Frame.fill]
    split <;> simp

theorem rebuilt_ne_nil (a : Label) (l r : BinaryTree Label) :
  rebuilt a l r ≠ .nil
  := by
  rw [rebuilt]
  split
  · apply fullTree_ne_nil
  · simp

theorem treeAllocate_inner {T : BinaryTree Label} (hwf : WellFormed p T) (h : Inner T)
    (id : String) :
  Inner (treeAllocate id T).2
  := by
  rcases treeAllocate_change hwf id with heq | hchange
  · rw [heq]
    exact h
  · generalize (treeAllocate id T).2 = T' at hchange ⊢
    cases hchange with
    | @take _ c q =>
      cases c with
      | nil => exact absurd h (not_inner_leaf _)
      | cons f c =>
        apply inner_plug
        simp [leaf]
    | free hop => simp at hop

/-- Below the root, `Deallocate` does not fail. -/
theorem treeDeallocate_inner {T : BinaryTree Label} (hwf : WellFormed p T) (h : Inner T)
    {id : String} (hid : id ≠ "") :
  (treeDeallocate id T).1 = .ok () ∧ Inner (treeDeallocate id T).2
  := by
  rw [treeDeallocate, if_neg hid]
  split
  · exact ⟨rfl, h⟩
  · next hlocate =>
    rw [(locate_wellFormed hwf hlocate).1] at h
    exact absurd h (not_inner_leaf _)
  · refine ⟨rfl, ?_⟩
    apply inner_plug
    apply rebuilt_ne_nil

/-- The manager is one of a network that is divided, so that no identifier holds all of it. -/
def Divided (p : IPNet) (leafSize : ℤ) (tm : TrieManager) : Prop :=
  ∃ T, Refines p leafSize tm T ∧ Inner T

theorem Divided.managed (h : Divided p leafSize tm) :
  Managed p leafSize tm
  := by
  obtain ⟨T, h, -⟩ := h
  use T

/-- A new manager of a network larger than its leaves. -/
theorem newTrieManager_divided (hp : IsCIDR p ones bits)
    (hnew : newTrieManager p leafSize = some tm) (hlt : ones < leafSize) :
  Divided p leafSize tm
  := by
  obtain ⟨k, h, hk⟩ := newTrieManager_models hp hnew
  use fullTree k p, h
  cases k with
  | zero => omega
  | succ k =>
    left
    cases k <;> simp [fullTree]

theorem Divided.allocate (h : Divided p leafSize tm) (hp : IsCIDR p ones bits) (id : String) :
  Divided p leafSize (tm.allocate id).2
  := by
  obtain ⟨T, h, hinner⟩ := h
  use (treeAllocate id T).2, (step_models hp h (.allocate id)).2
  apply treeAllocate_inner h.wellFormed hinner

/-- After `Deallocate` the identifier holds nothing. -/
theorem Divided.deallocate (h : Divided p leafSize tm) (hp : IsCIDR p ones bits) {id : String}
    (hid : id ≠ "") :
  Divided p leafSize (tm.deallocate id).2
    ∧ (tm.deallocate id).2.held = Function.update tm.held id none
  := by
  have hcases := (h.managed.deallocate hp id).2
  obtain ⟨T, h, hinner⟩ := h
  obtain ⟨hok, hinner'⟩ := treeDeallocate_inner h.wellFormed hinner hid
  constructor
  · use (treeDeallocate id T).2, (step_models hp h (.deallocate id)).2
  · rcases hcases with ⟨e, he, -⟩ | ⟨-, hheld⟩
    · have hreply := (h.deallocate hp id).1
      rw [hok, he] at hreply
      simp at hreply
    · exact hheld

end

end Trie
