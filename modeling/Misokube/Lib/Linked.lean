import Misokube.Lib.Zipper
import Mathlib.Logic.Relation
import Mathlib.Data.List.Nodup
import Mathlib.Data.List.Perm.Subperm
import Mathlib.Data.List.Range

/-!
# Parent-linked binary trees in memory

A memory is a list of cells, and a pointer an index into it.  A cell holds a value, a pointer
to its parent and pointers to its two children.  `Holds m p t` says that the memory `m` holds
the tree `t`, each of whose values carries the address of its cell, below the parent `p`.
`holds_plug` splits this at a hole into the cells around the hole and those in it, and
`holds_plug_of_agree` replaces the subtree in the hole: a memory that agrees around the hole and
holds another subtree with the same address there holds the tree with that subtree.
-/

namespace Linked

open BinaryTree

variable {α : Type*}

/-- A node in memory. -/
structure Cell (α : Type*) where
  value : α
  parent : Option ℕ
  child0 : Option ℕ
  child1 : Option ℕ
deriving DecidableEq

/-- The cells that were allocated, in the order of their allocation. -/
abbrev Memory (α : Type*) := List (Cell α)

/-- The pointer to the root of a tree, nil for the empty tree. -/
def address : BinaryTree (ℕ × α) → Option ℕ
  | .nil => none
  | .node x _ _ => some x.1

/-- The addresses of the nodes of a tree. -/
def addresses (t : BinaryTree (ℕ × α)) : List ℕ :=
  t.values.map Prod.fst

/-- The memory holds the tree below the parent `p`. -/
def Holds (m : Memory α) : Option ℕ → BinaryTree (ℕ × α) → Prop
  | _, .nil => True
  | p, .node x l r =>
    m[x.1]? = some ⟨x.2, p, address l, address r⟩
      ∧ Holds m (some x.1) l ∧ Holds m (some x.1) r

/-- The pointer to the parent of the hole. -/
def holder (c : Context (ℕ × α)) : Option ℕ :=
  c.head?.map fun f => f.value.1

/-- The cell of a frame, with parent `p` and with `o` in the hole. -/
def frameCell (f : Frame (ℕ × α)) (p o : Option ℕ) : Cell α :=
  if f.right then ⟨f.value.2, p, address f.sibling, o⟩ else ⟨f.value.2, p, o, address f.sibling⟩

/-- The memory holds the context with the pointer `o` in the hole. -/
def HoldsContext (m : Memory α) : Context (ℕ × α) → Option ℕ → Prop
  | [], _ => True
  | f :: c, o =>
    m[f.value.1]? = some (frameCell f (holder c) o)
      ∧ Holds m (some f.value.1) f.sibling ∧ HoldsContext m c (some f.value.1)

@[simp]
theorem address_nil :
  address (.nil : BinaryTree (ℕ × α)) = none
  := rfl

@[simp]
theorem address_node (x : ℕ × α) (l r : BinaryTree (ℕ × α)) :
  address (.node x l r) = some x.1
  := rfl

@[simp]
theorem address_fill (f : Frame (ℕ × α)) (t : BinaryTree (ℕ × α)) :
  address (f.fill t) = some f.value.1
  := by
  unfold Frame.fill
  split <;> rfl

@[simp]
theorem address_eq_none {t : BinaryTree (ℕ × α)} :
  address t = none ↔ t = .nil
  := by
  cases t <;> simp

/-- Replacing the subtree in the hole by one with the same address keeps the address of the
tree. -/
theorem address_plug (c : Context (ℕ × α)) {t t' : BinaryTree (ℕ × α)}
    (h : address t' = address t) :
  address (plug c t') = address (plug c t)
  := by
  induction c generalizing t t' with
  | nil => exact h
  | cons f c ih =>
    apply ih
    rw [address_fill, address_fill]

@[simp]
theorem addresses_nil :
  addresses (.nil : BinaryTree (ℕ × α)) = []
  := rfl

@[simp]
theorem addresses_node (x : ℕ × α) (l r : BinaryTree (ℕ × α)) :
  addresses (.node x l r) = x.1 :: (addresses l ++ addresses r)
  := by
  simp [addresses]

theorem mem_addresses_of_address {t : BinaryTree (ℕ × α)} {x : ℕ} (h : address t = some x) :
  x ∈ addresses t
  := by
  cases t with
  | nil => simp at h
  | node y l r =>
    simp only [address_node, Option.some.injEq] at h
    simp [h]

/-! ### Reading -/

/-- A filled frame is held exactly when its cell, its sibling and the subtree are. -/
theorem holds_fill {m : Memory α} {p : Option ℕ} {f : Frame (ℕ × α)} {t : BinaryTree (ℕ × α)} :
  Holds m p (f.fill t)
    ↔ m[f.value.1]? = some (frameCell f p (address t))
      ∧ Holds m (some f.value.1) f.sibling ∧ Holds m (some f.value.1) t
  := by
  obtain ⟨right, value, sibling⟩ := f
  cases right
  · simp only [Frame.fill, frameCell, Bool.false_eq_true, ↓reduceIte, Holds]
    rw [and_comm (a := Holds m (some value.1) t)]
  · simp only [Frame.fill, frameCell, ↓reduceIte, Holds]

/-- A filled context is held exactly when the context and the subtree are. -/
theorem holds_plug {m : Memory α} {c : Context (ℕ × α)} {t : BinaryTree (ℕ × α)} :
  Holds m none (plug c t) ↔ HoldsContext m c (address t) ∧ Holds m (holder c) t
  := by
  induction c generalizing t with
  | nil => simp [HoldsContext, holder]
  | cons f c ih =>
    rw [plug_cons, ih, holds_fill, address_fill, HoldsContext]
    simp only [holder, List.head?_cons, Option.map_some]
    tauto

/-- A value of a held tree is stored at its address. -/
theorem Holds.get {m : Memory α} {p : Option ℕ} {t : BinaryTree (ℕ × α)} (h : Holds m p t)
    {x : ℕ} {a : α} (hx : (x, a) ∈ t.values) :
  ∃ cell, m[x]? = some cell ∧ cell.value = a
  := by
  induction t generalizing p with
  | nil => simp at hx
  | node y l r hl hr =>
    obtain ⟨hy, hl', hr'⟩ := h
    rw [values_node, List.mem_cons, List.mem_append] at hx
    obtain rfl | hx | hx := hx
    · exact ⟨_, hy, rfl⟩
    · apply hl hl' hx
    · apply hr hr' hx

/-- The addresses of a held tree are in the memory. -/
theorem Holds.lt_length {m : Memory α} {p : Option ℕ} {t : BinaryTree (ℕ × α)} (h : Holds m p t)
    {x : ℕ} (hx : x ∈ addresses t) :
  x < m.length
  := by
  obtain ⟨⟨y, a⟩, hy, rfl⟩ := List.mem_map.mp hx
  obtain ⟨cell, hcell, -⟩ := h.get hy
  apply (List.getElem?_eq_some_iff.mp hcell).1

/-- A held tree whose nodes have different addresses has no more nodes than the memory has
cells. -/
theorem Holds.length_addresses_le {m : Memory α} {p : Option ℕ} {t : BinaryTree (ℕ × α)}
    (h : Holds m p t) (hnodup : (addresses t).Nodup) :
  (addresses t).length ≤ m.length
  := by
  have hsub : (addresses t).Subperm (List.range m.length) := by
    apply hnodup.subperm
    intro x hx
    rw [List.mem_range]
    apply h.lt_length hx
  have hlength := hsub.length_le
  rwa [List.length_range] at hlength

/-- A held tree whose nodes have different addresses is no higher than the memory is long. -/
theorem Holds.height_le {m : Memory α} {p : Option ℕ} {t : BinaryTree (ℕ × α)}
    (h : Holds m p t) (hnodup : (addresses t).Nodup) :
  t.height ≤ m.length
  := by
  calc t.height ≤ t.numNodes := t.height_le_numNodes
    _ = (addresses t).length := by rw [addresses, List.length_map, length_values]
    _ ≤ m.length := h.length_addresses_le hnodup

/-- An address determines the value stored there. -/
theorem value_unique {t : BinaryTree (ℕ × α)} (hnodup : (addresses t).Nodup) {x : ℕ} {a b : α}
    (ha : (x, a) ∈ t.values) (hb : (x, b) ∈ t.values) :
  a = b
  := by
  have h := List.inj_on_of_nodup_map hnodup ha hb rfl
  exact congrArg Prod.snd h

/-! ### Writing -/

/-- A memory that agrees on the addresses of a held tree holds it. -/
theorem Holds.of_agree {m m' : Memory α} {p : Option ℕ} {t : BinaryTree (ℕ × α)}
    (h : Holds m p t) (hagree : ∀ x ∈ addresses t, m'[x]? = m[x]?) :
  Holds m' p t
  := by
  induction t generalizing p with
  | nil => trivial
  | node y l r hl hr =>
    obtain ⟨hy, hl', hr'⟩ := h
    simp only [addresses_node, List.mem_cons, List.mem_append] at hagree
    and_intros
    · rw [hagree _ (Or.inl rfl), hy]
    · apply hl hl' fun x hx => hagree x (Or.inr (Or.inl hx))
    · apply hr hr' fun x hx => hagree x (Or.inr (Or.inr hx))

/-- The addresses around the hole. -/
def contextAddresses (c : Context (ℕ × α)) : List ℕ :=
  c.values.map Prod.fst

@[simp]
theorem contextAddresses_nil :
  contextAddresses ([] : Context (ℕ × α)) = []
  := rfl

@[simp]
theorem contextAddresses_cons (f : Frame (ℕ × α)) (c : Context (ℕ × α)) :
  contextAddresses (f :: c) = f.value.1 :: (addresses f.sibling ++ contextAddresses c)
  := by
  simp [contextAddresses, addresses, Frame.values]

/-- A filled context has the addresses of the subtree and those around the hole. -/
theorem addresses_plug (c : Context (ℕ × α)) (t : BinaryTree (ℕ × α)) :
  (addresses (plug c t)).Perm (addresses t ++ contextAddresses c)
  := by
  rw [addresses, addresses, contextAddresses, ← List.map_append]
  apply (values_plug c t).map

/-- A context of a held tree whose nodes have different addresses is no longer than the
memory. -/
theorem Holds.length_context_le {m : Memory α} {c : Context (ℕ × α)} {t : BinaryTree (ℕ × α)}
    (h : Holds m none (plug c t)) (hnodup : (addresses (plug c t)).Nodup) :
  c.length ≤ m.length
  := by
  have hframes : c.length ≤ (contextAddresses c).length := by
    clear h hnodup
    induction c with
    | nil => apply le_refl
    | cons f c ih =>
      simp only [contextAddresses_cons, List.length_cons, List.length_append]
      omega
  have hplug := (addresses_plug c t).length_eq
  have hlength := h.length_addresses_le hnodup
  rw [List.length_append] at hplug
  omega

/-- The root of a tree with a hole below it is around the hole. -/
theorem address_plug_cons (f : Frame (ℕ × α)) (c : Context (ℕ × α)) (t : BinaryTree (ℕ × α)) :
  ∃ x ∈ contextAddresses (f :: c), address (plug (f :: c) t) = some x
  := by
  induction c generalizing f t with
  | nil => exact ⟨f.value.1, by simp, address_fill f t⟩
  | cons g c ih =>
    obtain ⟨x, hx, haddress⟩ := ih g (f.fill t)
    refine ⟨x, ?_, haddress⟩
    rw [contextAddresses_cons, List.mem_cons, List.mem_append]
    exact Or.inr (Or.inr hx)

/-- A memory that agrees around the hole of a held context holds it. -/
theorem HoldsContext.of_agree {m m' : Memory α} {c : Context (ℕ × α)} {o : Option ℕ}
    (h : HoldsContext m c o) (hagree : ∀ x ∈ contextAddresses c, m'[x]? = m[x]?) :
  HoldsContext m' c o
  := by
  induction c generalizing o with
  | nil => trivial
  | cons f c ih =>
    obtain ⟨hf, hsib, hc⟩ := h
    simp only [contextAddresses_cons, List.mem_cons, List.mem_append] at hagree
    and_intros
    · rw [hagree _ (Or.inl rfl), hf]
    · apply hsib.of_agree fun x hx => hagree x (Or.inr (Or.inl hx))
    · apply ih hc fun x hx => hagree x (Or.inr (Or.inr hx))

/-- Replacing the subtree in the hole: a memory that agrees around the hole and holds another
subtree with the same address in the hole holds the tree with that subtree. -/
theorem holds_plug_of_agree {m m' : Memory α} {c : Context (ℕ × α)} {t t' : BinaryTree (ℕ × α)}
    (h : Holds m none (plug c t)) (hagree : ∀ x ∈ contextAddresses c, m'[x]? = m[x]?)
    (haddress : address t' = address t) (ht' : Holds m' (holder c) t') :
  Holds m' none (plug c t')
  := by
  rw [holds_plug] at h ⊢
  rw [haddress]
  exact ⟨h.1.of_agree hagree, ht'⟩

/-- Replacing the subtree in the hole keeps the addresses different if those of the new subtree
are different, and are addresses of the old one or not in the memory. -/
theorem nodup_addresses_plug {m : Memory α} {c : Context (ℕ × α)} {t t' : BinaryTree (ℕ × α)}
    (h : Holds m none (plug c t)) (hnodup : (addresses (plug c t)).Nodup)
    (ht' : (addresses t').Nodup)
    (hfresh : ∀ x ∈ addresses t', x ∈ addresses t ∨ m.length ≤ x) :
  (addresses (plug c t')).Nodup
  := by
  rw [(addresses_plug c t).nodup_iff, List.nodup_append] at hnodup
  obtain ⟨-, hc, hdisjoint⟩ := hnodup
  rw [(addresses_plug c t').nodup_iff, List.nodup_append]
  refine ⟨ht', hc, ?_⟩
  intro x hx y hy
  obtain hx | hx := hfresh x hx
  · apply hdisjoint x hx y hy
  · rintro rfl
    have hmem : x ∈ addresses (plug c t) := by
      rw [(addresses_plug c t).mem_iff, List.mem_append]
      exact Or.inr hy
    have := h.lt_length hmem
    omega

/-! ### Reachability -/

/-- One of the children pointers of `x` is `y`. -/
def Child (m : Memory α) (x y : ℕ) : Prop :=
  ∃ cell, m[x]? = some cell ∧ (cell.child0 = some y ∨ cell.child1 = some y)

/-- The children of a node of a held tree are nodes of it. -/
theorem Holds.child_mem {m : Memory α} {p : Option ℕ} {t : BinaryTree (ℕ × α)} (h : Holds m p t)
    {x y : ℕ} (hx : x ∈ addresses t) (hxy : Child m x y) :
  y ∈ addresses t
  := by
  induction t generalizing p with
  | nil => simp at hx
  | node z l r hl hr =>
    obtain ⟨hz, hl', hr'⟩ := h
    simp only [addresses_node, List.mem_cons, List.mem_append] at hx ⊢
    obtain rfl | hx | hx := hx
    · obtain ⟨cell, hcell, hchild⟩ := hxy
      rw [hz, Option.some.injEq] at hcell
      subst hcell
      obtain hy | hy := hchild
      · exact Or.inr (Or.inl (mem_addresses_of_address hy))
      · exact Or.inr (Or.inr (mem_addresses_of_address hy))
    · exact Or.inr (Or.inl (hl hl' hx))
    · exact Or.inr (Or.inr (hr hr' hx))

/-- The addresses of a held tree are those reachable from its root. -/
theorem Holds.reachable_iff {m : Memory α} {p : Option ℕ} {t : BinaryTree (ℕ × α)}
    (h : Holds m p t) {root x : ℕ} (hroot : address t = some root) :
  Relation.ReflTransGen (Child m) root x ↔ x ∈ addresses t
  := by
  constructor
  · intro hreach
    induction hreach with
    | refl => apply mem_addresses_of_address hroot
    | tail _ hchild ih => apply h.child_mem ih hchild
  · intro hx
    induction t generalizing p root with
    | nil => simp at hx
    | node z l r hl hr =>
      obtain ⟨hz, hl', hr'⟩ := h
      rw [address_node, Option.some.injEq] at hroot
      subst hroot
      simp only [addresses_node, List.mem_cons, List.mem_append] at hx
      obtain rfl | hx | hx := hx
      · apply Relation.ReflTransGen.refl
      · obtain ⟨y, hy⟩ : ∃ y, address l = some y := by
          cases l with
          | nil => simp at hx
          | node y _ _ => exact ⟨y.1, rfl⟩
        apply Relation.ReflTransGen.head _ (hl hl' hy hx)
        exact ⟨_, hz, Or.inl hy⟩
      · obtain ⟨y, hy⟩ : ∃ y, address r = some y := by
          cases r with
          | nil => simp at hx
          | node y _ _ => exact ⟨y.1, rfl⟩
        apply Relation.ReflTransGen.head _ (hr hr' hy hx)
        exact ⟨_, hz, Or.inr hy⟩

end Linked
