import Misokube.Lib.Zipper
import Mathlib.Algebra.Order.BigOperators.Group.List
import Mathlib.Algebra.Order.Ring.Nat

/-!
# Marking the leaves of a perfect tree

In a `Perfect` tree all leaves have the same depth and only leaves are marked.  Marking, again and
again, an unmarked leaf with the largest clearance keeps the marks spread out (`Spread.mark`): as
long as there are at most `2 ^ k` marks, every subtree at depth `k` has at most one.  With exactly
`2 ^ k` marks every such subtree has one (`Spread.marks_eq_one`), and every marked leaf has the
subtree at depth `k` around it for itself, but no more (`Spread.clearance_eq`).

A tree is `Grown` to a depth by a relation between the value of a node and those of its children if
all leaves have this depth and the relation holds at every other node.
-/

namespace BinaryTree

variable {α : Type*}

/-! ### Levels -/

/-- The subtrees at depth `k`, from left to right. -/
def level : ℕ → BinaryTree α → List (BinaryTree α)
  | 0, t => [t]
  | _ + 1, nil => []
  | k + 1, node _ l r => level k l ++ level k r

/-- A subtree at depth `k` stands in a context of `k` frames. -/
theorem exists_plug_of_mem_level {k : ℕ} {s t : BinaryTree α} (h : s ∈ level k t) :
  ∃ c, c.length = k ∧ t = plug c s
  := by
  induction k generalizing t with
  | zero =>
    rw [level, List.mem_singleton] at h
    exact ⟨[], rfl, h.symm⟩
  | succ k ih =>
    cases t with
    | nil => simp [level] at h
    | node a l r =>
      rw [level, List.mem_append] at h
      rcases h with h | h
      · obtain ⟨c, hc, rfl⟩ := ih h
        use c ++ [⟨false, a, r⟩]
        constructor
        · simp [hc]
        · rw [plug_append]
          rfl
      · obtain ⟨c, hc, rfl⟩ := ih h
        use c ++ [⟨true, a, l⟩]
        constructor
        · simp [hc]
        · rw [plug_append]
          rfl

/-- Another subtree in the hole changes one subtree at the depth of the hole. -/
theorem exists_level_plug (c : Context α) :
  ∃ before after, ∀ t, level c.length (plug c t) = before ++ t :: after
  := by
  induction c using List.reverseRecOn with
  | nil => exact ⟨[], [], fun _ => rfl⟩
  | append_singleton c f ih =>
    obtain ⟨before, after, h⟩ := ih
    obtain ⟨right, value, sibling⟩ := f
    cases right with
    | false =>
      use before, after ++ level c.length sibling
      intro t
      rw [List.length_append, plug_append, plug_cons, plug_nil]
      simp [Frame.fill, level, h]
    | true =>
      use level c.length sibling ++ before, after
      intro t
      rw [List.length_append, plug_append, plug_cons, plug_nil]
      simp [Frame.fill, level, h]

theorem mem_level_plug (c : Context α) (t : BinaryTree α) :
  t ∈ level c.length (plug c t)
  := by
  obtain ⟨before, after, h⟩ := exists_level_plug c
  rw [h]
  simp

/-- The sibling of the hole is at the depth of the hole. -/
theorem sibling_mem_level (f : Frame α) (c : Context α) (t : BinaryTree α) :
  f.sibling ∈ level (c.length + 1) (plug (f :: c) t)
  := by
  have hfill : (⟨!f.right, f.value, t⟩ : Frame α).fill f.sibling = f.fill t := by
    obtain ⟨right, value, sibling⟩ := f
    cases right <;> rfl
  have hmem := mem_level_plug (⟨!f.right, f.value, t⟩ :: c) f.sibling
  rw [plug_cons, hfill] at hmem
  exact hmem

/-! ### Perfect trees -/

section

variable (q : α → Bool)

/-- All leaves have depth `h`, and no inner node is marked. -/
def Perfect : ℕ → BinaryTree α → Prop
  | _, nil => False
  | 0, node _ l r => l = nil ∧ r = nil
  | h + 1, node a l r => q a = false ∧ Perfect h l ∧ Perfect h r

/-- The number of marked nodes. -/
def marks (t : BinaryTree α) : ℕ :=
  t.values.countP q

end

variable {q : α → Bool} {h k : ℕ} {t : BinaryTree α}

theorem marks_node (a : α) (l r : BinaryTree α) :
  marks q (node a l r) = marks q l + marks q r + if q a then 1 else 0
  := by
  rw [marks, values_node, List.countP_cons, List.countP_append]
  rfl

theorem marks_eq_zero_iff :
  marks q t = 0 ↔ t.values.any q = false
  := by
  rw [marks, List.countP_eq_zero, List.any_eq_false]

theorem Perfect.ne_nil (ht : Perfect q h t) :
  t ≠ nil
  := by
  rintro rfl
  cases h <;> exact ht

theorem Perfect.eq_zero {a : α} (ht : Perfect q h (node a nil nil)) :
  h = 0
  := by
  cases h with
  | zero => rfl
  | succ h => exact absurd rfl ht.2.1.ne_nil

theorem Perfect.of_mem_level (ht : Perfect q h t) (hk : k ≤ h) {s : BinaryTree α}
    (hs : s ∈ level k t) :
  Perfect q (h - k) s
  := by
  induction k generalizing h t with
  | zero =>
    rw [level, List.mem_singleton] at hs
    subst hs
    exact ht
  | succ k ih =>
    obtain ⟨h, rfl⟩ := Nat.exists_eq_add_of_lt hk
    cases t with
    | nil => simp [level] at hs
    | node a l r =>
      obtain ⟨-, hl, hr⟩ := ht
      rw [level, List.mem_append] at hs
      rw [show k + h + 1 - (k + 1) = k + h - k by omega]
      rcases hs with hs | hs
      · apply ih hl (by omega) hs
      · apply ih hr (by omega) hs

/-- There are `2 ^ k` subtrees at depth `k`, and they have all marks. -/
theorem Perfect.level_spec (ht : Perfect q h t) (hk : k ≤ h) :
  (level k t).length = 2 ^ k ∧ ((level k t).map (marks q)).sum = marks q t
  := by
  induction k generalizing h t with
  | zero => simp [level]
  | succ k ih =>
    obtain ⟨h, rfl⟩ := Nat.exists_eq_add_of_lt hk
    cases t with
    | nil => exact ht.elim
    | node a l r =>
      obtain ⟨ha, hl, hr⟩ := ht
      obtain ⟨hlength, hsum⟩ := ih hl (by omega)
      obtain ⟨hlength', hsum'⟩ := ih hr (by omega)
      constructor
      · rw [level, List.length_append, hlength, hlength', pow_succ]
        omega
      · rw [level, List.map_append, List.sum_append, hsum, hsum', marks_node, ha]
        simp

/-! ### Contexts in perfect trees -/

theorem marks_plug (c : Context α) (t : BinaryTree α) :
  marks q (plug c t) = marks q t + c.values.countP q
  := by
  rw [marks, (values_plug c t).countP_eq, List.countP_append]
  rfl

/-- A subtree of a perfect tree is perfect, its ancestors are not marked, and any perfect tree of
the same depth can take its place. -/
theorem Perfect.plug_inv {c : Context α} {s : BinaryTree α} (ht : Perfect q h (plug c s))
    (hs : s ≠ nil) :
  ∃ k, h = k + c.length ∧ Perfect q k s ∧ (∀ f ∈ c, q f.value = false)
    ∧ ∀ s', Perfect q k s' → Perfect q h (plug c s')
  := by
  induction c generalizing s with
  | nil => exact ⟨h, rfl, ht, by simp, fun _ hs' => hs'⟩
  | cons f c ih =>
    have hfill : f.fill s ≠ nil := by
      rw [Frame.fill]
      split <;> simp
    obtain ⟨k, rfl, hk, hvalues, hreplace⟩ := ih ht hfill
    obtain ⟨right, value, sibling⟩ := f
    cases right with
    | false =>
      cases k with
      | zero => exact absurd hk.1 hs
      | succ k =>
        obtain ⟨hvalue, hs', hsibling⟩ := hk
        refine ⟨k, by rw [List.length_cons]; omega, hs',
          List.forall_mem_cons.mpr ⟨hvalue, hvalues⟩, ?_⟩
        intro s' hs'
        apply hreplace
        exact ⟨hvalue, hs', hsibling⟩
    | true =>
      cases k with
      | zero => exact absurd hk.2 hs
      | succ k =>
        obtain ⟨hvalue, hsibling, hs'⟩ := hk
        refine ⟨k, by rw [List.length_cons]; omega, hs',
          List.forall_mem_cons.mpr ⟨hvalue, hvalues⟩, ?_⟩
        intro s' hs'
        apply hreplace
        exact ⟨hvalue, hsibling, hs'⟩

/-- The leftmost leaf of a perfect tree without marks. -/
theorem Perfect.exists_leaf (ht : Perfect q h t) (hzero : marks q t = 0) :
  ∃ c a, c.length = h ∧ t = plug c (node a nil nil) ∧ q a = false ∧ c.values.countP q = 0
  := by
  induction h generalizing t with
  | zero =>
    cases t with
    | nil => exact ht.elim
    | node a l r =>
      obtain ⟨rfl, rfl⟩ := ht
      refine ⟨[], a, rfl, rfl, ?_, rfl⟩
      rw [marks_eq_zero_iff] at hzero
      simpa using hzero
  | succ h ih =>
    cases t with
    | nil => exact ht.elim
    | node a l r =>
      obtain ⟨ha, hl, -⟩ := ht
      rw [marks_node, ha] at hzero
      obtain ⟨c, b, hc, rfl, hb, hzero'⟩ := ih hl (by omega)
      refine ⟨c ++ [⟨false, a, r⟩], b, by simp [hc], ?_, hb, ?_⟩
      · rw [plug_append]
        rfl
      · have hr : r.values.countP q = 0 := by
          rw [← marks]
          omega
        rw [Context.values, List.flatMap_append, List.countP_append, List.flatMap_singleton,
          Frame.values, List.countP_cons, hr, ha]
        exact hzero'

/-- The open leaves of a subtree below unmarked nodes are open leaves of the tree. -/
theorem mem_openLeaves_plug {c d : Context α} (hc : ∀ f ∈ c, q f.value = false) (ht : t ≠ nil)
    {x : Context α × α} (hx : x ∈ openLeaves q (c ++ d) t) :
  x ∈ openLeaves q d (plug c t)
  := by
  induction c generalizing t with
  | nil => exact hx
  | cons f c ih =>
    have hvalue : q f.value = false := hc f List.mem_cons_self
    have hnil : t.isNil = false := by
      rw [← Bool.not_eq_true, isNil_iff]
      exact ht
    apply ih (fun g hg => hc g (List.mem_cons_of_mem _ hg))
    · rw [Frame.fill]
      split <;> simp
    · obtain ⟨right, value, sibling⟩ := f
      cases right with
      | false =>
        simp only [Frame.fill, openLeaves, hvalue, hnil, Bool.false_eq_true, if_false,
          Bool.false_and, List.mem_append]
        exact Or.inl hx
      | true =>
        simp only [Frame.fill, openLeaves, hvalue, hnil, Bool.false_eq_true, if_false, if_true,
          Bool.and_false, List.mem_append]
        exact Or.inr hx

/-! ### Clearance -/

theorem clearance_append {c d : Context α} (hc : c.values.countP q = 0) :
  clearance q (c ++ d) = c.length + clearance q d
  := by
  induction c with
  | nil => simp
  | cons f c ih =>
    rw [Context.values_cons, List.countP_append, Nat.add_eq_zero_iff] at hc
    have hsibling : f.sibling.values.any q = false := by
      rw [List.any_eq_false]
      intro a ha
      apply List.countP_eq_zero.mp hc.1
      exact List.mem_cons_of_mem _ ha
    rw [List.cons_append, clearance, hsibling, List.length_cons, ih hc.2]
    simp only [Bool.false_eq_true, if_false]
    omega

/-- Up to the clearance there are no marks around the hole. -/
theorem countP_take_clearance {c : Context α} (hc : ∀ f ∈ c, q f.value = false)
    (hk : k ≤ clearance q c) :
  (Context.values (c.take k)).countP q = 0
  := by
  induction c generalizing k with
  | nil => simp
  | cons f c ih =>
    cases k with
    | zero => simp
    | succ k =>
      rw [clearance] at hk
      split at hk
      · omega
      case isFalse hany =>
        have hvalue := hc f List.mem_cons_self
        have hsibling : f.sibling.values.countP q = 0 := by
          rw [← marks, marks_eq_zero_iff]
          simpa using hany
        rw [List.take_succ_cons, Context.values_cons, List.countP_append, Frame.values,
          List.countP_cons, hvalue, hsibling,
          ih (fun g hg => hc g (List.mem_cons_of_mem _ hg)) (by omega)]
        simp

/-! ### Spreading marks -/

/-- As long as there are at most `2 ^ k` marks, the subtrees at depth `k` have at most one each. -/
def Spread (q : α → Bool) (h : ℕ) (t : BinaryTree α) : Prop :=
  ∀ k ≤ h, marks q t ≤ 2 ^ k → ∀ s ∈ level k t, marks q s ≤ 1

/-- While there are fewer than `2 ^ k` marks, some open leaf has the subtree at depth `k` around it
for itself. -/
theorem Perfect.exists_openLeaf (ht : Perfect q h t) (hk : k ≤ h) (hlt : marks q t < 2 ^ k) :
  ∃ x ∈ openLeaves q [] t, h - k ≤ clearance q x.1
  := by
  obtain ⟨hlength, hsum⟩ := ht.level_spec hk
  have hzero : ∃ s ∈ level k t, marks q s = 0 := by
    by_contra hnone
    push Not at hnone
    have hle : ((level k t).map (marks q)).length ≤ ((level k t).map (marks q)).sum := by
      apply List.length_le_sum_of_one_le
      intro i hi
      obtain ⟨s, hs, rfl⟩ := List.mem_map.mp hi
      apply Nat.one_le_iff_ne_zero.mpr (hnone s hs)
    rw [List.length_map, hlength, hsum] at hle
    omega
  obtain ⟨s, hs, hs0⟩ := hzero
  have hperfect := ht.of_mem_level hk hs
  obtain ⟨c, -, rfl⟩ := exists_plug_of_mem_level hs
  obtain ⟨-, -, -, hvalues, -⟩ := ht.plug_inv hperfect.ne_nil
  obtain ⟨d, a, hd, rfl, ha, hzero⟩ := hperfect.exists_leaf hs0
  use (d ++ c, a)
  constructor
  · apply mem_openLeaves_plug hvalues hperfect.ne_nil
    obtain ⟨-, -, -, hvalues', -⟩ := hperfect.plug_inv (by simp)
    apply mem_openLeaves_plug hvalues' (by simp)
    simp [openLeaves, ha]
  · rw [clearance_append hzero, hd]
    apply Nat.le_add_right

/-- Marking an open leaf with the largest clearance keeps the marks spread. -/
theorem Spread.mark (ht : Perfect q h t) (hspread : Spread q h t) {x : Context α × α}
    (hx : x ∈ (openLeaves q [] t).argmax fun x => clearance q x.1) {b : α} (hb : q b = true) :
  Perfect q h (plug x.1 (node b nil nil)) ∧ Spread q h (plug x.1 (node b nil nil))
    ∧ marks q (plug x.1 (node b nil nil)) = marks q t + 1
  := by
  obtain ⟨c, a⟩ := x
  obtain ⟨ha, hplug⟩ := openLeaves_spec (List.argmax_mem hx)
  rw [plug_nil] at hplug
  subst hplug
  obtain ⟨j, hj, hleaf, hvalues, hreplace⟩ := ht.plug_inv (by simp)
  obtain rfl := hleaf.eq_zero
  have hmarks : marks q (plug c (node b nil nil)) = marks q (plug c (node a nil nil)) + 1 := by
    rw [marks_plug, marks_plug, marks_node, marks_node, ha, hb]
    simp [marks]
    omega
  refine ⟨hreplace _ ⟨rfl, rfl⟩, ?_, hmarks⟩
  intro k hk hle s hs
  rw [hmarks] at hle
  obtain ⟨y, hy, hclear⟩ := ht.exists_openLeaf hk (by omega)
  have hmax : h - k ≤ clearance q c := by
    apply hclear.trans
    exact List.le_of_mem_argmax (f := fun x : Context α × α => clearance q x.1) hy hx
  -- the subtree at depth `k` around the leaf, before and after
  have hsplit : ∀ d : α, plug c (node d nil nil)
      = plug (c.drop (h - k)) (plug (c.take (h - k)) (node d nil nil)) := by
    intro d
    rw [← plug_append, List.take_append_drop]
  have hlength : (c.drop (h - k)).length = k := by
    rw [List.length_drop]
    omega
  obtain ⟨before, after, hlevel⟩ := exists_level_plug (c.drop (h - k))
  rw [hlength] at hlevel
  rw [hsplit, hlevel, List.mem_append, List.mem_cons] at hs
  have hother : ∀ s ∈ before ++ after, marks q s ≤ 1 := by
    intro s hs
    apply hspread k hk (by omega)
    rw [hsplit, hlevel]
    simp only [List.mem_append, List.mem_cons] at hs ⊢
    tauto
  rcases hs with hs | rfl | hs
  · apply hother s (List.mem_append_left _ hs)
  · rw [marks_plug, countP_take_clearance hvalues hmax, marks_node, hb]
    simp [marks]
  · apply hother s (List.mem_append_right _ hs)

/-- With `2 ^ k` marks every subtree at depth `k` has one. -/
theorem Spread.marks_eq_one (ht : Perfect q h t) (hspread : Spread q h t) (hk : k ≤ h)
    (hmarks : marks q t = 2 ^ k) {s : BinaryTree α} (hs : s ∈ level k t) :
  marks q s = 1
  := by
  obtain ⟨hlength, hsum⟩ := ht.level_spec hk
  have hle := hspread k hk hmarks.le
  obtain ⟨before, after, hlevel⟩ := List.append_of_mem hs
  have hbound : ∀ l : List (BinaryTree α), (∀ s ∈ l, marks q s ≤ 1) →
      (l.map (marks q)).sum ≤ l.length := by
    intro l hl
    have := List.sum_le_card_nsmul (l.map (marks q)) 1 (by simpa using hl)
    simpa using this
  have hbefore := hbound before fun s hs => hle s (by simp [hlevel, hs])
  have hafter := hbound after fun s hs => hle s (by simp [hlevel, hs])
  have hs1 := hle s hs
  rw [hlevel] at hlength hsum
  simp only [List.length_append, List.length_cons, List.map_append, List.map_cons,
    List.sum_append, List.sum_cons] at hlength hsum
  omega

/-- With `2 ^ k` marks every marked leaf has the subtree at depth `k` around it for itself, and
no more. -/
theorem Spread.clearance_eq {c : Context α} {b : α} (ht : Perfect q h (plug c (node b nil nil)))
    (hspread : Spread q h (plug c (node b nil nil))) (hb : q b = true) (hk : k ≤ h)
    (hmarks : marks q (plug c (node b nil nil)) = 2 ^ k) :
  clearance q c = h - k
  := by
  have hone := fun s hs => hspread.marks_eq_one ht hk hmarks (s := s) hs
  obtain ⟨j, hj, hleaf, -, -⟩ := ht.plug_inv (by simp)
  obtain rfl := hleaf.eq_zero
  have hlength : (c.drop (h - k)).length = k := by
    rw [List.length_drop]
    omega
  have hsplit : plug c (node b nil nil)
      = plug (c.drop (h - k)) (plug (c.take (h - k)) (node b nil nil)) := by
    rw [← plug_append, List.take_append_drop]
  have hfree : (Context.values (c.take (h - k))).countP q = 0 := by
    have hmem := mem_level_plug (c.drop (h - k)) (plug (c.take (h - k)) (node b nil nil))
    rw [hlength, ← hsplit] at hmem
    have hself := hone _ hmem
    rw [marks_plug, marks_node, hb] at hself
    simp only [if_true] at hself
    omega
  have htop : clearance q (c.drop (h - k)) = 0 := by
    cases hdrop : c.drop (h - k) with
    | nil => rfl
    | cons f d =>
      have hmem := sibling_mem_level f d (plug (c.take (h - k)) (node b nil nil))
      rw [← hdrop, ← hsplit, show d.length + 1 = k by rw [← hlength, hdrop]; rfl] at hmem
      have hsibling : f.sibling.values.any q = true := by
        rw [← Bool.not_eq_false, ← marks_eq_zero_iff, hone _ hmem]
        simp
      rw [clearance, if_pos hsibling]
  rw [← List.take_append_drop (h - k) c, clearance_append hfree, htop, List.length_take]
  omega

/-! ### Grown trees -/

/-- The value of the root. -/
def root? : BinaryTree α → Option α
  | nil => none
  | node a _ _ => some a

/-- The values of the nodes without children, from left to right. -/
def leaves : BinaryTree α → List α
  | nil => []
  | node a l r => if l.isNil && r.isNil then [a] else l.leaves ++ r.leaves

/-- All leaves have depth `k`, and at every other node the relation holds of its value and those of
its children. -/
def Grown (R : α → α → α → Prop) : ℕ → BinaryTree α → Prop
  | _, nil => False
  | 0, node _ l r => l = nil ∧ r = nil
  | k + 1, node a l r => (∃ b ∈ l.root?, ∃ c ∈ r.root?, R a b c) ∧ Grown R k l ∧ Grown R k r

theorem leaves_leaf (a : α) :
  (node a nil nil).leaves = [a]
  := rfl

theorem leaves_node (a : α) {l r : BinaryTree α} (hl : l ≠ nil) :
  (node a l r).leaves = l.leaves ++ r.leaves
  := by
  have hnil : l.isNil = false := by
    rw [← Bool.not_eq_true, isNil_iff]
    exact hl
  rw [leaves, if_neg (by simp [hnil])]

end BinaryTree
