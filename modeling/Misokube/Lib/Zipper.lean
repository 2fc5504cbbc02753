import Mathlib.Data.Tree.Basic
import Mathlib.Data.List.MinMax

/-!
# Binary trees with a focus

A `Context` is a binary tree with one subtree taken out, listed from the hole up to the
root; `plug` puts a subtree back.  `locate` finds the first node with a given property and
the context it stands in, `openLeaves` lists the leaves that are reached without passing a
node with a given property, and `clearance` counts the ancestors of the hole up to the first
one whose other subtree has a node with the property.  All of these commute with relabelling
the nodes.
-/

namespace BinaryTree

variable {α β : Type*}

/-! ### Values -/

/-- The values of the nodes, a node before its left and its right subtree. -/
def values : BinaryTree α → List α
  | nil => []
  | node a l r => a :: (l.values ++ r.values)

/-- The tree has no node. -/
def isNil : BinaryTree α → Bool
  | nil => true
  | node _ _ _ => false

@[simp]
theorem values_nil :
  (nil : BinaryTree α).values = []
  := rfl

@[simp]
theorem values_node (a : α) (l r : BinaryTree α) :
  (node a l r).values = a :: (l.values ++ r.values)
  := rfl

@[simp]
theorem map_nil (f : α → β) :
  (nil : BinaryTree α).map f = nil
  := rfl

@[simp]
theorem map_node (f : α → β) (a : α) (l r : BinaryTree α) :
  (node a l r).map f = node (f a) (l.map f) (r.map f)
  := rfl

@[simp]
theorem isNil_nil :
  (nil : BinaryTree α).isNil = true
  := rfl

@[simp]
theorem isNil_node (a : α) (l r : BinaryTree α) :
  (node a l r).isNil = false
  := rfl

theorem isNil_iff {t : BinaryTree α} :
  t.isNil = true ↔ t = nil
  := by
  cases t <;> simp

@[simp]
theorem isNil_map (f : α → β) (t : BinaryTree α) :
  (t.map f).isNil = t.isNil
  := by
  cases t <;> rfl

/-- The values of a relabelled tree. -/
theorem values_map (f : α → β) (t : BinaryTree α) :
  (t.map f).values = t.values.map f
  := by
  induction t with
  | nil => rfl
  | node a l r hl hr => simp [hl, hr]

/-- Every node has one value. -/
theorem length_values (t : BinaryTree α) :
  t.values.length = t.numNodes
  := by
  induction t with
  | nil => rfl
  | node a l r hl hr => simp [hl, hr]

/-! ### Contexts -/

/-- One level of a context: whether the hole is in the right subtree, the value of the node,
and its other subtree. -/
structure Frame (α : Type*) where
  right : Bool
  value : α
  sibling : BinaryTree α

/-- A tree with a hole, from the parent of the hole up to the root. -/
abbrev Context (α : Type*) := List (Frame α)

/-- The node of a frame with the given subtree in the hole. -/
def Frame.fill (f : Frame α) (t : BinaryTree α) : BinaryTree α :=
  if f.right then node f.value f.sibling t else node f.value t f.sibling

/-- The values of a frame. -/
def Frame.values (f : Frame α) : List α :=
  f.value :: f.sibling.values

/-- The tree with the given subtree in the hole. -/
def plug : Context α → BinaryTree α → BinaryTree α
  | [], t => t
  | f :: c, t => plug c (f.fill t)

/-- The values around the hole. -/
def Context.values (c : Context α) : List α :=
  c.flatMap Frame.values

@[simp]
theorem Context.values_nil :
  Context.values ([] : Context α) = []
  := rfl

@[simp]
theorem Context.values_cons (f : Frame α) (c : Context α) :
  Context.values (f :: c) = f.values ++ Context.values c
  := rfl

@[simp]
theorem plug_nil (t : BinaryTree α) :
  plug [] t = t
  := rfl

@[simp]
theorem plug_cons (f : Frame α) (c : Context α) (t : BinaryTree α) :
  plug (f :: c) t = plug c (f.fill t)
  := rfl

/-- Contexts are filled one after the other, from the inside. -/
theorem plug_append (c d : Context α) (t : BinaryTree α) :
  plug (c ++ d) t = plug d (plug c t)
  := by
  induction c generalizing t with
  | nil => rfl
  | cons f c ih => apply ih

/-- A frame has the values of its subtree and its own. -/
theorem Frame.values_fill (f : Frame α) (t : BinaryTree α) :
  (f.fill t).values.Perm (t.values ++ f.values)
  := by
  unfold fill values
  split
  · rw [values_node]
    apply List.Perm.trans _ List.perm_middle.symm
    apply List.Perm.cons
    apply List.perm_append_comm
  · rw [values_node]
    apply List.perm_middle.symm

/-- A filled context has the values of the subtree and those around the hole. -/
theorem values_plug (c : Context α) (t : BinaryTree α) :
  (plug c t).values.Perm (t.values ++ c.values)
  := by
  induction c generalizing t with
  | nil => simp
  | cons f c ih =>
    apply (ih (f.fill t)).trans
    rw [Context.values_cons, ← List.append_assoc]
    apply (f.values_fill t).append_right

/-- A value of the whole tree is one of the subtree or one of the context. -/
theorem mem_values_plug {c : Context α} {t : BinaryTree α} {a : α} :
  a ∈ (plug c t).values ↔ a ∈ t.values ∨ a ∈ c.values
  := by
  rw [(values_plug c t).mem_iff, List.mem_append]

/-- Every value of a tree is the root of a subtree in some context. -/
theorem exists_plug_of_mem {t : BinaryTree α} {a : α} (h : a ∈ t.values) :
  ∃ c l r, t = plug c (node a l r)
  := by
  induction t with
  | nil => simp at h
  | node b l r hl hr =>
    rw [values_node, List.mem_cons, List.mem_append] at h
    obtain rfl | h | h := h
    · use [], l, r
      rfl
    · obtain ⟨c, l', r', rfl⟩ := hl h
      use c ++ [⟨false, b, r⟩], l', r'
      rw [plug_append]
      rfl
    · obtain ⟨c, l', r', rfl⟩ := hr h
      use c ++ [⟨true, b, l⟩], l', r'
      rw [plug_append]
      rfl

/-! ### Finding a node -/

/-- The first node whose value satisfies `q`, with its subtrees and its context, which
continues the context `c`. -/
def locate (q : α → Bool) :
    Context α → BinaryTree α → Option (Context α × α × BinaryTree α × BinaryTree α)
  | _, nil => none
  | c, node a l r =>
    if q a then some (c, a, l, r)
    else (locate q (⟨false, a, r⟩ :: c) l).or (locate q (⟨true, a, l⟩ :: c) r)

/-- No node is found exactly when no value satisfies `q`. -/
theorem locate_eq_none {q : α → Bool} {c : Context α} {t : BinaryTree α} :
  locate q c t = none ↔ ∀ a ∈ t.values, q a = false
  := by
  induction t generalizing c with
  | nil => simp [locate]
  | node b l r hl hr =>
    by_cases hb : q b = true
    · simp [locate, hb]
    · simp only [Bool.not_eq_true] at hb
      simp only [locate, hb, Bool.false_eq_true, ↓reduceIte, Option.or_eq_none_iff, hl, hr,
        values_node, List.mem_cons, List.mem_append]
      grind

/-- A node is found where it stands if no value around it satisfies `q`. -/
theorem locate_plug {q : α → Bool} {c d : Context α} {t : BinaryTree α}
    (h : ∀ a ∈ c.values, q a = false) :
  locate q d (plug c t) = locate q (c ++ d) t
  := by
  induction c generalizing t with
  | nil => rfl
  | cons f c ih =>
    rw [Context.values_cons] at h
    have hf : q f.value = false := h f.value (by simp [Frame.values])
    have hs : ∀ c', locate q c' f.sibling = none := by
      intro c'
      apply locate_eq_none.mpr
      intro a ha
      apply h a (by simp [Frame.values, ha])
    rw [plug_cons, ih (fun a ha => h a (by simp [ha]))]
    obtain ⟨right, value, sibling⟩ := f
    cases right
    · simp [Frame.fill, locate, hf, hs]
    · simp [Frame.fill, locate, hf, hs]

/-- The node that is found satisfies `q` and stands in the context it is found in. -/
theorem locate_eq_some {q : α → Bool} {c d : Context α} {t l r : BinaryTree α} {a : α}
    (h : locate q c t = some (d, a, l, r)) :
  q a = true ∧ plug d (node a l r) = plug c t
  := by
  induction t generalizing c with
  | nil => simp [locate] at h
  | node b l' r' hl hr =>
    rw [locate] at h
    split at h
    case isTrue hb =>
      simp only [Option.some.injEq, Prod.mk.injEq] at h
      obtain ⟨rfl, rfl, rfl, rfl⟩ := h
      exact ⟨hb, rfl⟩
    case isFalse hb =>
      rw [Option.or_eq_some_iff] at h
      obtain h | ⟨-, h⟩ := h
      · apply hl h
      · apply hr h

/-! ### Leaves outside marked nodes -/

/-- The leaves below which and above which no value satisfies `q`, from left to right, each
with its context, which continues the context `c`. -/
def openLeaves (q : α → Bool) : Context α → BinaryTree α → List (Context α × α)
  | _, nil => []
  | c, node a l r =>
    if q a then []
    else if l.isNil && r.isNil then [(c, a)]
    else openLeaves q (⟨false, a, r⟩ :: c) l ++ openLeaves q (⟨true, a, l⟩ :: c) r

/-- An open leaf is a node without children and not marked, in its context. -/
theorem openLeaves_spec {q : α → Bool} {c d : Context α} {t : BinaryTree α} {a : α}
    (h : (d, a) ∈ openLeaves q c t) :
  q a = false ∧ plug d (node a nil nil) = plug c t
  := by
  induction t generalizing c with
  | nil => simp [openLeaves] at h
  | node b l r hl hr =>
    rw [openLeaves] at h
    split at h
    case isTrue => simp at h
    case isFalse hb =>
      split at h
      case isTrue hnil =>
        simp only [Bool.and_eq_true, isNil_iff] at hnil
        obtain ⟨rfl, rfl⟩ := hnil
        simp only [List.mem_singleton, Prod.mk.injEq] at h
        obtain ⟨rfl, rfl⟩ := h
        exact ⟨by simpa using hb, rfl⟩
      case isFalse =>
        rw [List.mem_append] at h
        obtain h | h := h
        · apply hl h
        · apply hr h

/-- The number of ancestors of the hole below the first one whose other subtree has a value
that satisfies `q`. -/
def clearance (q : α → Bool) : Context α → ℕ
  | [] => 0
  | f :: c => if f.sibling.values.any q then 0 else clearance q c + 1

/-! ### Relabelling -/

/-- The frame with its values relabelled. -/
def Frame.map (g : α → β) (f : Frame α) : Frame β :=
  ⟨f.right, g f.value, f.sibling.map g⟩

/-- The context with its values relabelled. -/
def Context.map (g : α → β) (c : Context α) : Context β :=
  List.map (Frame.map g) c

@[simp]
theorem Context.map_nil (g : α → β) :
  Context.map g ([] : Context α) = []
  := rfl

@[simp]
theorem Context.map_cons (g : α → β) (f : Frame α) (c : Context α) :
  Context.map g (f :: c) = f.map g :: Context.map g c
  := rfl

/-- Relabelling goes through a frame. -/
theorem Frame.fill_map (g : α → β) (f : Frame α) (t : BinaryTree α) :
  (f.fill t).map g = (f.map g).fill (t.map g)
  := by
  unfold fill Frame.map
  cases f.right <;> rfl

/-- Relabelling goes through a context. -/
theorem plug_map (g : α → β) (c : Context α) (t : BinaryTree α) :
  (plug c t).map g = plug (c.map g) (t.map g)
  := by
  induction c generalizing t with
  | nil => rfl
  | cons f c ih => rw [plug_cons, ih, Frame.fill_map, Context.map_cons, plug_cons]

/-- Relabelling before a node is looked for. -/
theorem clearance_map (g : α → β) (q : β → Bool) (c : Context α) :
  clearance q (c.map g) = clearance (q ∘ g) c
  := by
  induction c with
  | nil => rfl
  | cons f c ih => simp [clearance, Frame.map, values_map, List.any_map, ih]

/-- A node is found at the same place in a relabelled tree. -/
theorem locate_map (g : α → β) (q : β → Bool) (c : Context α) (t : BinaryTree α) :
  locate q (c.map g) (t.map g)
    = (locate (q ∘ g) c t).map fun x => (x.1.map g, g x.2.1, x.2.2.1.map g, x.2.2.2.map g)
  := by
  induction t generalizing c with
  | nil => rfl
  | node a l r hl hr =>
    have hl' := hl (⟨false, a, r⟩ :: c)
    have hr' := hr (⟨true, a, l⟩ :: c)
    rw [Context.map_cons] at hl' hr'
    simp only [map_node, locate, Function.comp_apply]
    split
    · rfl
    · rw [Option.map_or, ← hl', ← hr']
      rfl

/-- The open leaves of a relabelled tree are at the same places. -/
theorem openLeaves_map (g : α → β) (q : β → Bool) (c : Context α) (t : BinaryTree α) :
  openLeaves q (c.map g) (t.map g)
    = (openLeaves (q ∘ g) c t).map fun x => (x.1.map g, g x.2)
  := by
  induction t generalizing c with
  | nil => rfl
  | node a l r hl hr =>
    have hl' := hl (⟨false, a, r⟩ :: c)
    have hr' := hr (⟨true, a, l⟩ :: c)
    rw [Context.map_cons] at hl' hr'
    simp only [map_node, openLeaves, Function.comp_apply, isNil_map]
    split
    · rfl
    · split
      · rfl
      · rw [List.map_append, ← hl', ← hr']
        rfl

end BinaryTree
