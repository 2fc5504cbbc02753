import Misokube.Trie.Spec

/-!
# Walking over the nodes of a held trie

On a memory that holds a tree of labels, the recursive functions of the package compute what
the tree says: whether a node below is allocated, the free leaves, the room a leaf has to
expand, and the best leaf; and the two build functions build the free tree.  The bounds on the
number of levels that the callers pass are large enough.
-/

namespace Trie

open Net BinaryTree Linked

/-- The node is allocated, in a tree whose labels carry addresses. -/
def isTaken (x : ℕ × Label) : Bool :=
  x.2.allocated

/-! ### Searching -/

/-- The search for an allocated node finds one exactly if the tree has one. -/
theorem hasAllocatedDescendant_eq {h : Heap} {p : Option ℕ} {t : BinaryTree (ℕ × Label)}
    (ht : Holds h p t) {fuel : ℕ} (hfuel : t.height ≤ fuel) :
  hasAllocatedDescendant h fuel (address t) = t.values.any isTaken
  := by
  induction t generalizing p fuel with
  | nil => cases fuel <;> rfl
  | node x l r hl hr =>
    obtain ⟨hx, hl', hr'⟩ := ht
    rw [height] at hfuel
    obtain ⟨fuel, rfl⟩ : ∃ k, fuel = k + 1 := ⟨fuel - 1, by omega⟩
    simp only [address_node, hasAllocatedDescendant, hx]
    rw [hl hl' (by omega), hr hr' (by omega), values_node, List.any_cons, List.any_append,
      Bool.or_assoc]
    rfl

/-- The method is the function. -/
theorem hasAllocatedDescendants_eq (h : Heap) (fuel : ℕ) (o : Option ℕ) :
  hasAllocatedDescendants h fuel o = hasAllocatedDescendant h fuel o
  := by
  induction fuel generalizing o with
  | zero => rfl
  | succ fuel ih =>
    cases o with
    | none => rfl
    | some x => simp only [hasAllocatedDescendants, hasAllocatedDescendant, ih]

/-- Below an allocated ancestor no leaf is free. -/
theorem findFreeLeavesRecursive_true (h : Heap) (fuel : ℕ) (o : Option ℕ) :
  findFreeLeavesRecursive h fuel o true = []
  := by
  induction fuel generalizing o with
  | zero => rfl
  | succ fuel ih =>
    cases o with
    | none => rfl
    | some x =>
      rw [findFreeLeavesRecursive]
      split
      · rfl
      · simp [ih]

/-- The free leaves that are found are the open leaves of the tree. -/
theorem findFreeLeavesRecursive_eq {h : Heap} {p : Option ℕ} {t : BinaryTree (ℕ × Label)}
    (ht : Holds h p t) {fuel : ℕ} (hfuel : t.height ≤ fuel) (c : Context (ℕ × Label)) :
  findFreeLeavesRecursive h fuel (address t) false
    = (openLeaves isTaken c t).map fun x => x.2.1
  := by
  induction t generalizing p fuel c with
  | nil => cases fuel <;> rfl
  | node x l r hl hr =>
    obtain ⟨hx, hl', hr'⟩ := ht
    rw [height] at hfuel
    obtain ⟨fuel, rfl⟩ : ∃ k, fuel = k + 1 := ⟨fuel - 1, by omega⟩
    simp only [address_node, findFreeLeavesRecursive, hx, openLeaves, Bool.false_or]
    have hnil : (address l = none ∧ address r = none) ↔ (l.isNil && r.isNil) = true := by
      rw [address_eq_none, address_eq_none, Bool.and_eq_true, isNil_iff, isNil_iff]
    rw [show x.2.allocated = isTaken x from rfl]
    cases hx : isTaken x with
    | true =>
      simp only [findFreeLeavesRecursive_true, List.append_nil, if_true, ite_self, List.map_nil]
    | false =>
      simp only [hnil, Bool.false_eq_true, if_false]
      split
      · rfl
      · rw [List.map_append, hl hl' (by omega), hr hr' (by omega)]

/-! ### Climbing -/

/-- The child of a frame that is not in the hole is the other subtree. -/
theorem frameCell_other {f : Frame (ℕ × Label)} {p : Option ℕ} {x : ℕ}
    (hne : x ∉ addresses f.sibling) :
  (if (frameCell f p (some x)).child0 = some x then (frameCell f p (some x)).child1
      else (frameCell f p (some x)).child0) = address f.sibling
  := by
  rw [frameCell]
  cases f.right with
  | true =>
    have hchild : address f.sibling ≠ some x := by
      intro heq
      apply hne
      apply mem_addresses_of_address heq
    simp [hchild]
  | false => simp

/-- The sibling of the node in the hole is the other subtree of the first frame. -/
theorem getSibling_eq {h : Heap} {f : Frame (ℕ × Label)} {c : Context (ℕ × Label)} {x : ℕ}
    {n : TrieNode} (hcontext : HoldsContext h (f :: c) (some x)) (hx : h[x]? = some n)
    (hparent : n.parent = some f.value.1) (hne : x ∉ addresses f.sibling) :
  getSibling h x = address f.sibling
  := by
  obtain ⟨hf, -, -⟩ := hcontext
  rw [getSibling, hx, Option.bind_some, hparent]
  simp only [hf, frameCell_other hne]

/-- An allocated node is found by the search below it. -/
theorem isAllocated_le {h : Heap} {p : Option ℕ} {t : BinaryTree (ℕ × Label)}
    (ht : Holds h p t) (halloc : isAllocated h (address t) = true) :
  t.values.any isTaken = true
  := by
  cases t with
  | nil => simp [isAllocated] at halloc
  | node x l r =>
    obtain ⟨hx, -, -⟩ := ht
    simp only [isAllocated, address_node, Option.bind_some, hx] at halloc
    simp [isTaken, halloc]

/-- The room a node has to expand is the clearance of its context. -/
theorem maxExpandableDepth_eq {h : Heap} {c : Context (ℕ × Label)} {x : ℕ × Label}
    {l r : BinaryTree (ℕ × Label)} (hholds : Holds h none (plug c (.node x l r)))
    (hnodup : (addresses (plug c (.node x l r))).Nodup) {fuel : ℕ} (hfuel : c.length ≤ fuel) :
  maxExpandableDepth h (fuel + 1) x.1 = clearance isTaken c
  := by
  -- induction up the context, with the node in the hole growing
  induction c generalizing x l r fuel with
  | nil =>
    obtain ⟨hx, -, -⟩ := hholds
    simp [maxExpandableDepth, hx, clearance]
  | cons f c ih =>
    obtain ⟨hcontext, hx, -, -⟩ := holds_plug.mp hholds
    have hfill : ∃ l' r', plug c (.node f.value l' r') = plug (f :: c) (.node x l r) := by
      rw [plug_cons, Frame.fill]
      split
      · exact ⟨_, _, rfl⟩
      · exact ⟨_, _, rfl⟩
    obtain ⟨l', r', heq⟩ := hfill
    have hne : x.1 ∉ addresses f.sibling := by
      rw [(addresses_plug _ _).nodup_iff, List.nodup_append] at hnodup
      intro hmem
      apply hnodup.2.2 x.1 (by simp) x.1 _ rfl
      rw [contextAddresses_cons, List.mem_cons, List.mem_append]
      exact Or.inr (Or.inl hmem)
    have hsibling : getSibling h x.1 = address f.sibling :=
      getSibling_eq hcontext hx rfl hne
    have hheight : f.sibling.height ≤ h.length := by
      apply hcontext.2.1.height_le
      rw [(addresses_plug _ _).nodup_iff, List.nodup_append] at hnodup
      have hc := hnodup.2.1
      rw [contextAddresses_cons, List.nodup_cons, List.nodup_append] at hc
      exact hc.2.1
    have hsearch := hasAllocatedDescendant_eq hcontext.2.1 (Nat.le_succ_of_le hheight)
    rw [List.length_cons] at hfuel
    obtain ⟨fuel, rfl⟩ : ∃ k, fuel = k + 1 := ⟨fuel - 1, by omega⟩
    have hrec := ih (x := f.value) (l := l') (r := r') (heq ▸ hholds) (heq ▸ hnodup)
      (show c.length ≤ fuel by omega)
    rw [maxExpandableDepth, hx, Option.bind_some]
    simp only [holder, List.head?_cons, Option.map_some, hsibling, hsearch, hrec, clearance]
    split
    case isTrue halloc => rw [isAllocated_le hcontext.2.1 halloc, if_pos rfl]
    case isFalse => rfl

/-- Choosing the best element by a loop that keeps the first of the largest. -/
theorem foldl_best {α : Type*} (f : α → ℕ) (l : List α) (b : Option α) :
  (l.foldl (fun best a => if best.2 < (f a : ℤ) then (some a, (f a : ℤ)) else best)
      (b, (b.elim (-1) fun a => (f a : ℤ)))).1
    = l.foldl (List.argAux fun b c => f c < f b) b
  := by
  induction l generalizing b with
  | nil => rfl
  | cons a l ih =>
    rw [List.foldl_cons, List.foldl_cons, ← ih]
    cases b with
    | none =>
      have hlt : (-1 : ℤ) < f a := by omega
      simp [List.argAux, hlt]
    | some b =>
      simp only [Option.elim_some, List.argAux, Nat.cast_lt]
      split <;> rfl

/-- The first of the largest elements of an image is the image of the first of the largest. -/
theorem argmax_map {α β : Type*} {g : β → ℕ} {φ : α → β} {f : α → ℕ} {l : List α}
    (h : ∀ a ∈ l, g (φ a) = f a) :
  (l.map φ).argmax g = (l.argmax f).map φ
  := by
  induction l using List.reverseRecOn with
  | nil => rfl
  | append_singleton l a ih =>
    have hl : ∀ b ∈ l, g (φ b) = f b := fun b hb => h b (by simp [hb])
    rw [List.map_append, List.map_singleton, List.argmax_concat, List.argmax_concat, ih hl]
    cases hmax : l.argmax f with
    | none => rfl
    | some b =>
      simp only [Option.map_some]
      rw [hl b (List.argmax_mem hmax), h a (by simp)]
      split <;> rfl

/-- The loop of the allocation chooses the first free leaf of the largest clearance. -/
theorem bestLeaf_eq {h : Heap} {t : BinaryTree (ℕ × Label)} (ht : Holds h none t)
    (hnodup : (addresses t).Nodup) :
  (bestLeaf h ((openLeaves isTaken [] t).map fun x => x.2.1)).1
    = ((openLeaves isTaken [] t).argmax fun x => clearance isTaken x.1).map fun x => x.2.1
  := by
  have hbest := foldl_best (maxExpandableDepth h (h.length + 1))
    ((openLeaves isTaken [] t).map fun x => x.2.1) none
  rw [bestLeaf]
  apply hbest.trans
  apply argmax_map
  rintro ⟨c, x⟩ hmem
  obtain ⟨-, hplug⟩ := openLeaves_spec hmem
  rw [plug_nil] at hplug
  subst hplug
  apply maxExpandableDepth_eq ht hnodup
  apply ht.length_context_le hnodup

/-! ### Building -/

/-- The method is the function. -/
theorem build_eq_buildRecursive (maxMaskSize : ℤ) (fuel : ℕ) (h : Heap) (x : ℕ) :
  build maxMaskSize fuel h x = buildRecursive maxMaskSize fuel h x
  := by
  induction fuel generalizing h x with
  | zero => rfl
  | succ fuel ih => simp only [build, buildRecursive, ih]

section AddChild

variable {h : Heap} {x : ℕ} (hx : x < h.length) (subnet : IPNet)
include hx

theorem addChild0_new :
  (addChild0 h x subnet)[h.length]? = some (newTrieNode subnet (some x))
  := by
  rw [addChild0, List.getElem?_modify_ne _ _ (by omega), List.getElem?_concat_length]

theorem addChild0_node :
  (addChild0 h x subnet)[x]? = (h[x]?).map fun n => { n with child0 := some h.length }
  := by
  rw [addChild0, List.getElem?_modify_eq, List.getElem?_append_left hx]
  rfl

theorem addChild1_new :
  (addChild1 h x subnet)[h.length]? = some (newTrieNode subnet (some x))
  := by
  rw [addChild1, List.getElem?_modify_ne _ _ (by omega), List.getElem?_concat_length]

theorem addChild1_node :
  (addChild1 h x subnet)[x]? = (h[x]?).map fun n => { n with child1 := some h.length }
  := by
  rw [addChild1, List.getElem?_modify_eq, List.getElem?_append_left hx]
  rfl

omit hx

theorem addChild0_other {y : ℕ} (hy : y < h.length) (hne : y ≠ x) :
  (addChild0 h x subnet)[y]? = h[y]?
  := by
  rw [addChild0, List.getElem?_modify_ne _ _ hne.symm, List.getElem?_append_left hy]

theorem addChild1_other {y : ℕ} (hy : y < h.length) (hne : y ≠ x) :
  (addChild1 h x subnet)[y]? = h[y]?
  := by
  rw [addChild1, List.getElem?_modify_ne _ _ hne.symm, List.getElem?_append_left hy]

theorem length_addChild0 :
  (addChild0 h x subnet).length = h.length + 1
  := by
  simp [addChild0]

theorem length_addChild1 :
  (addChild1 h x subnet).length = h.length + 1
  := by
  simp [addChild1]

end AddChild

/-- The free tree of `k` levels stands at `x` in the memory `h'`, below the parent `p`; its other
nodes are new, and the nodes of `h` other than `x` are as before. -/
structure Built (h h' : Heap) (p : Option ℕ) (x : ℕ) (k : ℕ) (pfx : IPNet)
    (t : BinaryTree (ℕ × Label)) : Prop where
  holds : Holds h' p t
  address_eq : address t = some x
  nodup : (addresses t).Nodup
  labels : t.map Prod.snd = fullTree k pfx
  fresh : ∀ y ∈ addresses t, y = x ∨ h.length ≤ y
  length_le : h.length ≤ h'.length
  agree : ∀ y, y < h.length → y ≠ x → h'[y]? = h[y]?

theorem built_leaf {h : Heap} {x : ℕ} {p : Option ℕ} {pfx : IPNet}
    (hx : h[x]? = some (newTrieNode pfx p)) :
  Built h h p x 0 pfx (.node (x, freeLabel pfx) .nil .nil)
  where
  holds := ⟨hx, trivial, trivial⟩
  address_eq := rfl
  nodup := by simp
  labels := rfl
  fresh := by simp
  length_le := le_refl _
  agree _ _ _ := rfl

/-- The first child is added and built, and then the second. -/
theorem Built.node {h h₂ h₄ : Heap} {x k : ℕ} {p : Option ℕ} {pfx : IPNet}
    {t₀ t₁ : BinaryTree (ℕ × Label)} (hx : h[x]? = some (newTrieNode pfx p))
    (built₀ : Built (addChild0 h x (lower pfx)) h₂ (some x) h.length k (lower pfx) t₀)
    (built₁ : Built (addChild1 h₂ x (upper pfx)) h₄ (some x) h₂.length k (upper pfx) t₁) :
  Built h h₄ p x (k + 1) pfx (.node (x, freeLabel pfx) t₀ t₁)
  := by
  have hxlt : x < h.length := (List.getElem?_eq_some_iff.mp hx).1
  have hlen₁ := length_addChild0 (h := h) (x := x) (lower pfx)
  have hlen₂ := built₀.length_le
  have hxlt₂ : x < h₂.length := by omega
  have hlen₃ := length_addChild1 (h := h₂) (x := x) (upper pfx)
  have hlen₄ := built₁.length_le
  -- the node gets its children
  have hx₂ : h₂[x]? = some { newTrieNode pfx p with child0 := some h.length } := by
    rw [built₀.agree x (by omega) (by omega), addChild0_node hxlt, hx]
    rfl
  have hx₄ : h₄[x]? = some ⟨freeLabel pfx, p, address t₀, address t₁⟩ := by
    rw [built₁.agree x (by omega) (by omega), addChild1_node hxlt₂, hx₂, built₀.address_eq,
      built₁.address_eq]
    rfl
  -- where the nodes below the children are
  have hlt₀ : ∀ y ∈ addresses t₀, h.length ≤ y ∧ y < h₂.length := by
    intro y hy
    have := built₀.holds.lt_length hy
    obtain rfl | hle := built₀.fresh y hy
    · omega
    · omega
  have hge₁ : ∀ y ∈ addresses t₁, h₂.length ≤ y := by
    intro y hy
    obtain rfl | hle := built₁.fresh y hy
    · omega
    · omega
  refine ⟨⟨hx₄, ?_, built₁.holds⟩, rfl, ?_, ?_, ?_, by omega, ?_⟩
  · apply built₀.holds.of_agree
    intro y hy
    have := hlt₀ y hy
    rw [built₁.agree y (by omega) (by omega), addChild1_other _ (by omega) (by omega)]
  · rw [addresses_node, List.nodup_cons, List.nodup_append, List.mem_append]
    refine ⟨?_, built₀.nodup, built₁.nodup, ?_⟩
    · rintro (hmem | hmem)
      · have := hlt₀ x hmem
        omega
      · have := hge₁ x hmem
        omega
    · intro y hy z hz
      have := hlt₀ y hy
      have := hge₁ z hz
      omega
  · rw [map_node, built₀.labels, built₁.labels, fullTree]
  · intro y hy
    rw [addresses_node, List.mem_cons, List.mem_append] at hy
    obtain rfl | hy | hy := hy
    · exact Or.inl rfl
    · exact Or.inr (hlt₀ y hy).1
    · have := hge₁ y hy
      right
      omega
  · intro y hy hne
    rw [built₁.agree y (by omega) (by omega), addChild1_other _ (by omega) hne,
      built₀.agree y (by omega) (by omega), addChild0_other _ hy hne]

/-- From a free node without children, `buildRecursive` builds the free tree down to the
limit. -/
theorem buildRecursive_spec {maxMaskSize : ℤ} {k : ℕ} :
  ∀ {h : Heap} {x : ℕ} {p : Option ℕ} {pfx : IPNet} {ones bits fuel : ℕ},
    h[x]? = some (newTrieNode pfx p) → IsCIDR pfx ones bits →
    (k = 0 ∧ maxMaskSize ≤ ones ∨ maxMaskSize = ones + k ∧ ones + k ≤ 32) → k < fuel →
    ∃ h' t, buildRecursive maxMaskSize fuel h x = some h' ∧ Built h h' p x k pfx t
  := by
  induction k with
  | zero =>
    intro h x p pfx ones bits fuel hx hp hk hfuel
    obtain ⟨fuel, rfl⟩ : ∃ j, fuel = j + 1 := ⟨fuel - 1, by omega⟩
    have hle : maxMaskSize ≤ (maskSize pfx.mask).1 := by
      rw [hp.maskSize]
      omega
    refine ⟨h, .node (x, freeLabel pfx) .nil .nil, ?_, built_leaf hx⟩
    simp only [buildRecursive, hx, newTrieNode, if_pos hle]
  | succ k ih =>
    intro h x p pfx ones bits fuel hx hp hk hfuel
    obtain ⟨fuel, rfl⟩ : ∃ j, fuel = j + 1 := ⟨fuel - 1, by omega⟩
    have hxlt : x < h.length := (List.getElem?_eq_some_iff.mp hx).1
    have hbits := hp.family
    have hones : ones < bits := by omega
    have hgt : ¬ maxMaskSize ≤ (maskSize pfx.mask).1 := by
      rw [hp.maskSize]
      omega
    have hsplit : splitSubnet pfx maxMaskSize = .ok (lower pfx, upper pfx) := by
      rw [splitSubnet_eq, if_neg]
      rw [hp.maskSize] at hgt ⊢
      omega
    obtain ⟨h₂, t₀, hbuild₀, built₀⟩ := ih (addChild0_new hxlt (lower pfx))
      (lower_isCIDR hp hones) (by push_cast; omega) (show k < fuel by omega)
    have hxlt₂ : x < h₂.length := by
      have hlen₁ := length_addChild0 (h := h) (x := x) (lower pfx)
      have hlen₂ := built₀.length_le
      omega
    obtain ⟨h₄, t₁, hbuild₁, built₁⟩ := ih (addChild1_new hxlt₂ (upper pfx))
      (upper_isCIDR hp hones) (by push_cast; omega) (show k < fuel by omega)
    refine ⟨h₄, .node (x, freeLabel pfx) t₀ t₁, ?_, built₀.node hx built₁⟩
    simp only [buildRecursive, hx, newTrieNode, if_neg hgt, hsplit, hbuild₀, Option.bind_some,
      hbuild₁]

/-- Beyond masks of 32 ones, `buildRecursive` panics. -/
theorem buildRecursive_panics {maxMaskSize : ℤ} (hmax : 32 < maxMaskSize) (fuel : ℕ) :
  ∀ {h : Heap} {x : ℕ} {n : TrieNode} {ones bits : ℕ},
    h[x]? = some n → IsCIDR n.value.pfx ones bits → ones < maxMaskSize →
    buildRecursive maxMaskSize fuel h x = none
  := by
  induction fuel with
  | zero =>
    intros
    rfl
  | succ fuel ih =>
    intro h x n ones bits hx hp hlt
    have hxlt : x < h.length := (List.getElem?_eq_some_iff.mp hx).1
    have hgt : ¬ maxMaskSize ≤ (maskSize n.value.pfx.mask).1 := by
      rw [hp.maskSize]
      omega
    simp only [buildRecursive, hx, if_neg hgt, splitSubnet_eq]
    by_cases h32 : 32 ≤ ones
    · rw [if_pos]
      rw [hp.maskSize]
      exact Or.inr h32
    · have hbits := hp.family
      rw [if_neg]
      · simp only
        rw [ih (addChild0_new hxlt (lower n.value.pfx)) (lower_isCIDR hp (by omega))
          (by push_cast; omega)]
        rfl
      · rw [hp.maskSize] at hgt ⊢
        omega

end Trie
