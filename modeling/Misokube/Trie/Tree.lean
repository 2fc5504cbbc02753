import Misokube.Trie.Model

/-!
# The trie as a tree of blocks

The trie without its memory: a binary tree of labels, and what each operation of the subnet
manager does to it.  A tree is `WellFormed` below a network when the children of every inner
node have the two halves of its network and inner nodes are not allocated.  Then the free
leaves and the allocated nodes partition the network (`countP_blocks`).
-/

namespace Trie

open Net BinaryTree

/-! ### Halves of a network -/

/-- The lower half of a network. -/
def lower (p : IPNet) : IPNet :=
  ⟨network p, cidrMask ((maskSize p.mask).1 + 1) (maskSize p.mask).2⟩

/-- The upper half of a network. -/
def upper (p : IPNet) : IPNet :=
  ⟨setBit (network p) (maskSize p.mask).1, cidrMask ((maskSize p.mask).1 + 1) (maskSize p.mask).2⟩

/-- A network is split into its halves unless its mask has reached the limit. -/
theorem splitSubnet_eq (p : IPNet) (maskMaxSize : ℤ) :
  splitSubnet p maskMaxSize
    = if maskMaxSize ≤ (maskSize p.mask).1 ∨ 32 ≤ (maskSize p.mask).1
      then .error (.maxSubnetSize maskMaxSize) else .ok (lower p, upper p)
  := rfl

section Halves

variable {p : IPNet} {ones bits : ℕ}

theorem lower_isCIDR (hp : IsCIDR p ones bits) (h : ones < bits) :
  IsCIDR (lower p) (ones + 1) bits
  := by
  rw [lower, hp.maskSize]
  apply (isCIDR_mk hp.family h hp.length_eq).1

theorem upper_isCIDR (hp : IsCIDR p ones bits) (h : ones < bits) :
  IsCIDR (upper p) (ones + 1) bits
  := by
  rw [upper, hp.maskSize]
  apply (isCIDR_mk hp.family h _).1
  rw [length_setBit, hp.length_eq]

theorem base_lower (hp : IsCIDR p ones bits) (h : ones < bits) :
  base (lower p) = base p
  := by
  have hdvd : 2 ^ (bits - (ones + 1)) ∣ base p := by
    apply dvd_trans _ hp.size_dvd_base
    apply pow_dvd_pow
    omega
  rw [lower, hp.maskSize, (isCIDR_mk hp.family h hp.length_eq).2]
  apply Nat.div_mul_cancel hdvd

theorem base_upper (hp : IsCIDR p ones bits) (h : ones < bits) :
  base (upper p) = base p + 2 ^ (bits - (ones + 1))
  := by
  have hlength : 8 * (network p).length = bits := by
    rw [Nat.mul_comm, hp.length_eq]
  have hset : toNat (setBit (network p) ones) = base p + 2 ^ (bits - (ones + 1)) := by
    rw [toNat_setBit (network p) (by omega), hlength, Nat.sub_sub, Nat.add_comm 1]
    · rfl
    · rw [hlength]
      apply hp.size_dvd_base
  have hdvd : 2 ^ (bits - (ones + 1)) ∣ base p := by
    apply dvd_trans _ hp.size_dvd_base
    apply pow_dvd_pow
    omega
  rw [upper, hp.maskSize, (isCIDR_mk hp.family h _).2]
  · rw [hset]
    apply Nat.div_mul_cancel
    apply Nat.dvd_add hdvd (dvd_refl _)
  · rw [length_setBit, hp.length_eq]

/-- The lower half covers the numbers of the network below its middle. -/
theorem covers_lower_iff (hp : IsCIDR p ones bits) (h : ones < bits) (a : ℕ) :
  Covers (lower p) a ↔ Covers p a ∧ a < base p + 2 ^ (bits - (ones + 1))
  := by
  have hpow : 2 ^ (bits - ones) = 2 ^ (bits - (ones + 1)) + 2 ^ (bits - (ones + 1)) := by
    rw [← two_mul, ← pow_succ']
    congr 1
    omega
  rw [Covers, Covers, base_lower hp h, (lower_isCIDR hp h).size, hp.size]
  omega

/-- The upper half covers the numbers of the network from its middle on. -/
theorem covers_upper_iff (hp : IsCIDR p ones bits) (h : ones < bits) (a : ℕ) :
  Covers (upper p) a ↔ Covers p a ∧ base p + 2 ^ (bits - (ones + 1)) ≤ a
  := by
  have hpow : 2 ^ (bits - ones) = 2 ^ (bits - (ones + 1)) + 2 ^ (bits - (ones + 1)) := by
    rw [← two_mul, ← pow_succ']
    congr 1
    omega
  rw [Covers, Covers, base_upper hp h, (upper_isCIDR hp h).size, hp.size]
  omega

end Halves

/-! ### Trees -/

/-- The label of a free node. -/
def freeLabel (p : IPNet) : Label :=
  ⟨p, false, ""⟩

/-- The label of a node allocated to `id`. -/
def allocatedLabel (p : IPNet) (id : String) : Label :=
  ⟨p, true, id⟩

/-- The label is of a node allocated to `id`. -/
def isOf (id : String) (a : Label) : Bool :=
  a.allocated && a.id == id

/-- The free tree of `k` levels below a network. -/
def fullTree : ℕ → IPNet → BinaryTree Label
  | 0, p => .node (freeLabel p) .nil .nil
  | k + 1, p => .node (freeLabel p) (fullTree k (lower p)) (fullTree k (upper p))

theorem fullTree_ne_nil (k : ℕ) (p : IPNet) :
  fullTree k p ≠ .nil
  := by
  cases k <;> simp [fullTree]

/-- The labels of the tree divide the network: the children of a node have the halves of its
network, an inner node is free, and a free node has no identifier. -/
def WellFormed : IPNet → BinaryTree Label → Prop
  | _, .nil => False
  | p, .node a l r =>
    a.pfx = p ∧ (a.allocated = false → a.id = "")
      ∧ ((l = .nil ∧ r = .nil)
        ∨ (a.allocated = false ∧ (maskSize p.mask).1 < 32
          ∧ WellFormed (lower p) l ∧ WellFormed (upper p) r))

theorem WellFormed.ne_nil {p : IPNet} {t : BinaryTree Label} (h : WellFormed p t) :
  t ≠ .nil
  := by
  rintro rfl
  exact h

/-- A node without children is well formed. -/
theorem wellFormed_leaf {a : Label} (h : a.allocated = false → a.id = "") :
  WellFormed a.pfx (.node a .nil .nil)
  := ⟨rfl, h, Or.inl ⟨rfl, rfl⟩⟩

/-- The free tree is well formed as long as its leaves have masks of at most 32 ones. -/
theorem wellFormed_fullTree {p : IPNet} {ones bits k : ℕ} (hp : IsCIDR p ones bits)
    (hk : k = 0 ∨ ones + k ≤ 32) :
  WellFormed p (fullTree k p)
  := by
  induction k generalizing p ones with
  | zero => apply wellFormed_leaf fun _ => rfl
  | succ k ih =>
    have hbits := hp.family
    have hlt : ones < bits := by omega
    refine ⟨rfl, fun _ => rfl, Or.inr ⟨rfl, ?_, ?_, ?_⟩⟩
    · rw [hp.maskSize]
      omega
    · apply ih (lower_isCIDR hp hlt)
      omega
    · apply ih (upper_isCIDR hp hlt)
      omega

/-! ### Contexts -/

/-- The network at the hole of a context below `p`. -/
def holePrefix (p : IPNet) : Context Label → IPNet
  | [] => p
  | f :: c => if f.right then upper (holePrefix p c) else lower (holePrefix p c)

/-- The network of the other child of the first frame of a context below `p`. -/
def siblingPrefix (p : IPNet) (f : Frame Label) (c : Context Label) : IPNet :=
  if f.right then lower (holePrefix p c) else upper (holePrefix p c)

/-- The frames of the context divide the networks above the hole. -/
def WellFormedContext (p : IPNet) : Context Label → Prop
  | [] => True
  | f :: c =>
    f.value = freeLabel (holePrefix p c) ∧ (maskSize (holePrefix p c).mask).1 < 32
      ∧ WellFormed (siblingPrefix p f c) f.sibling ∧ WellFormedContext p c

theorem wellFormed_fill_iff {p : IPNet} {f : Frame Label} {t : BinaryTree Label} (ht : t ≠ .nil) :
  WellFormed p (f.fill t)
    ↔ f.value = freeLabel p ∧ (maskSize p.mask).1 < 32
      ∧ WellFormed (if f.right then lower p else upper p) f.sibling
      ∧ WellFormed (if f.right then upper p else lower p) t
  := by
  obtain ⟨right, ⟨pfx, allocated, id⟩, sibling⟩ := f
  cases right
  · simp only [Frame.fill, Bool.false_eq_true, ↓reduceIte, WellFormed, freeLabel, Label.mk.injEq]
    grind
  · simp only [Frame.fill, ↓reduceIte, WellFormed, freeLabel, Label.mk.injEq]
    grind

/-- A filled context is well formed exactly when the context and the subtree are. -/
theorem wellFormed_plug_iff {p : IPNet} {c : Context Label} {t : BinaryTree Label}
    (ht : t ≠ .nil) :
  WellFormed p (plug c t) ↔ WellFormedContext p c ∧ WellFormed (holePrefix p c) t
  := by
  induction c generalizing t with
  | nil => simp [WellFormedContext, holePrefix]
  | cons f c ih =>
    have hfill : f.fill t ≠ .nil := by
      rw [Frame.fill]
      split <;> simp
    rw [plug_cons, ih hfill, wellFormed_fill_iff ht, WellFormedContext, holePrefix, siblingPrefix]
    tauto

/-- The network at the hole of a well-formed context is in CIDR form, with one bit of mask for
every frame. -/
theorem WellFormedContext.isCIDR {p : IPNet} {ones bits : ℕ} (hp : IsCIDR p ones bits)
    {c : Context Label} (h : WellFormedContext p c) :
  IsCIDR (holePrefix p c) (ones + c.length) bits ∧ (c = [] ∨ ones + c.length ≤ 32)
  := by
  induction c with
  | nil => exact ⟨hp, Or.inl rfl⟩
  | cons f c ih =>
    obtain ⟨-, hlt, -, hc⟩ := h
    have hcidr := (ih hc).1
    rw [hcidr.maskSize] at hlt
    have hbits := hp.family
    rw [holePrefix, List.length_cons, ← Nat.add_assoc]
    constructor
    · split
      · apply upper_isCIDR hcidr (by omega)
      · apply lower_isCIDR hcidr (by omega)
    · right
      omega

/-! ### Blocks -/

/-- The labels of the free leaves. -/
def freeLeaves (t : BinaryTree Label) : List Label :=
  (openLeaves Label.allocated [] t).map Prod.snd

/-- The labels of the allocated nodes. -/
def allocatedNodes (t : BinaryTree Label) : List Label :=
  t.values.filter Label.allocated

/-- The networks of the free leaves and of the allocated nodes. -/
def blocks (t : BinaryTree Label) : List IPNet :=
  (freeLeaves t ++ allocatedNodes t).map Label.pfx

theorem openLeaves_map_snd (q : Label → Bool) (c d : Context Label) (t : BinaryTree Label) :
  (openLeaves q c t).map Prod.snd = (openLeaves q d t).map Prod.snd
  := by
  induction t generalizing c d with
  | nil => rfl
  | node a l r hl hr =>
    simp only [openLeaves]
    split
    · rfl
    · split
      · rfl
      · rw [List.map_append, List.map_append, hl _ (⟨false, a, r⟩ :: d),
          hr _ (⟨true, a, l⟩ :: d)]

theorem freeLeaves_leaf (a : Label) :
  freeLeaves (.node a .nil .nil) = if a.allocated then [] else [a]
  := by
  simp only [freeLeaves, openLeaves, isNil_nil, Bool.and_self, ↓reduceIte]
  split <;> rfl

theorem freeLeaves_node {a : Label} {l r : BinaryTree Label} (ha : a.allocated = false)
    (hl : l ≠ .nil) :
  freeLeaves (.node a l r) = freeLeaves l ++ freeLeaves r
  := by
  have hnil : l.isNil = false := by
    rw [← Bool.not_eq_true, isNil_iff]
    exact hl
  rw [freeLeaves, openLeaves, if_neg (by simp [ha]), if_neg (by simp [hnil]), List.map_append,
    openLeaves_map_snd _ _ [] l, openLeaves_map_snd _ _ [] r]
  rfl

theorem allocatedNodes_node (a : Label) (l r : BinaryTree Label) :
  allocatedNodes (.node a l r)
    = (if a.allocated then [a] else []) ++ (allocatedNodes l ++ allocatedNodes r)
  := by
  rw [allocatedNodes, values_node, List.filter_cons, List.filter_append]
  split <;> rfl

/-- The blocks of a free inner node are those of its children. -/
theorem blocks_node {a : Label} {l r : BinaryTree Label} (ha : a.allocated = false)
    (hl : l ≠ .nil) :
  (blocks (.node a l r)).Perm (blocks l ++ blocks r)
  := by
  rw [blocks, freeLeaves_node ha hl, allocatedNodes_node, ha]
  simp only [Bool.false_eq_true, ↓reduceIte, List.nil_append, blocks, ← List.map_append]
  apply List.Perm.map
  rw [List.append_assoc, List.append_assoc]
  apply List.Perm.append_left
  rw [← List.append_assoc, ← List.append_assoc]
  apply List.Perm.append_right
  apply List.perm_append_comm

/-- The free leaves and the allocated nodes of a well-formed tree partition its network: every
number of the network is covered by one of them, and every other number by none. -/
theorem countP_blocks {p : IPNet} {ones bits : ℕ} (hp : IsCIDR p ones bits)
    {t : BinaryTree Label} (h : WellFormed p t) (a : ℕ) :
  (blocks t).countP (Covers · a) = if Covers p a then 1 else 0
  := by
  induction t generalizing p ones with
  | nil => exact h.elim
  | node b l r hl hr =>
    obtain ⟨rfl, -, ⟨rfl, rfl⟩ | ⟨hb, hlt, hwl, hwr⟩⟩ := h
    · -- a leaf is its own block, free or allocated
      rw [blocks, freeLeaves_leaf, allocatedNodes_node]
      cases b.allocated <;> simp [allocatedNodes]
    · have hbits := hp.family
      rw [hp.maskSize] at hlt
      have hlt' : ones < bits := by omega
      rw [(blocks_node hb hwl.ne_nil).countP_eq, List.countP_append,
        hl (lower_isCIDR hp hlt') hwl, hr (upper_isCIDR hp hlt') hwr]
      simp only [covers_lower_iff hp hlt', covers_upper_iff hp hlt']
      by_cases hcov : Covers b.pfx a
      · obtain hmid | hmid := Nat.lt_or_ge a (base b.pfx + 2 ^ (bits - (ones + 1)))
        · simp [hcov, hmid, Nat.not_le.mpr hmid]
        · simp [hcov, hmid, Nat.not_lt.mpr hmid]
      · simp [hcov]

end Trie
