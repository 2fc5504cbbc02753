import Misokube.Trie.Expansion

/-!
# The size of new networks

A new manager is divided down to its leaf mask.  Two calls create other free leaves: `Deallocate`
and `Release` rebuild the freed network down to /30, whatever the leaf mask is, and `Reduce` leaves
the upper half of the network as one free leaf.  In every run in which a network is freed only
when the leaf mask is 30, and halved only into leaves, a new identifier gets a network with the
leaf mask (`after_leafSized`).
-/

namespace Trie

open Net BinaryTree

/-! ### Free leaves of a tree -/

section

variable {p : IPNet} {ones bits : ℕ} {T : BinaryTree Label}

/-- The free leaves of a filled context are those of the subtree and of the siblings. -/
theorem mem_freeLeaves_plug {c : Context Label} {t : BinaryTree Label}
    (hc : WellFormedContext p c) (ht : t ≠ .nil) {a : Label} :
  a ∈ freeLeaves (plug c t) ↔ a ∈ freeLeaves t ∨ ∃ f ∈ c, a ∈ freeLeaves f.sibling
  := by
  induction c generalizing t with
  | nil => simp
  | cons f c ih =>
    obtain ⟨hvalue, -, hsibling, hc⟩ := hc
    have hfree : f.value.allocated = false := by
      rw [hvalue, freeLabel]
    have hfill : a ∈ freeLeaves (f.fill t) ↔ a ∈ freeLeaves t ∨ a ∈ freeLeaves f.sibling := by
      rw [Frame.fill]
      split
      · rw [freeLeaves_node hfree hsibling.ne_nil, List.mem_append, or_comm]
      · rw [freeLeaves_node hfree ht, List.mem_append]
    have hne : f.fill t ≠ .nil := by
      rw [Frame.fill]
      split <;> simp
    rw [plug_cons, ih hc hne, hfill, or_assoc]
    simp only [List.mem_cons, exists_eq_or_imp]

/-- The leaves of the free tree of `k` levels have `k` more bits of mask. -/
theorem maskSize_fullTree {k : ℕ} (hp : IsCIDR p ones bits) (hk : ones + k ≤ bits) {a : Label}
    (ha : a ∈ freeLeaves (fullTree k p)) :
  (maskSize a.pfx.mask).1 = ones + k
  := by
  induction k generalizing p ones with
  | zero =>
    rw [fullTree, freeLeaves_leaf] at ha
    simp only [freeLabel, Bool.false_eq_true, if_false, List.mem_singleton] at ha
    rw [ha, hp.maskSize]
    rfl
  | succ k ih =>
    rw [fullTree, freeLeaves_node rfl (fullTree_ne_nil k (lower p)), List.mem_append] at ha
    rcases ha with ha | ha
    · rw [ih (lower_isCIDR hp (by omega)) (by omega) ha]
      omega
    · rw [ih (upper_isCIDR hp (by omega)) (by omega) ha]
      omega

/-- All free leaves have masks of `leafMask` ones, and no holding has more. -/
def TreeLeafSized (leafMask : ℕ) (T : BinaryTree Label) : Prop :=
  (∀ a ∈ freeLeaves T, (maskSize a.pfx.mask).1 = leafMask)
    ∧ ∀ e ∈ holdings T, (maskSize e.2.mask).1 ≤ leafMask

variable {leafMask : ℕ} {id : String} {q : IPNet} {c : Context Label}

/-- The other free leaves and holdings have the sizes they had. -/
theorem TreeLeafSized.plug {t t' : BinaryTree Label} (hwf : WellFormed p (plug c t))
    (ht : t ≠ .nil) (ht' : t' ≠ .nil) (h : TreeLeafSized leafMask (BinaryTree.plug c t))
    (h' : TreeLeafSized leafMask t') :
  TreeLeafSized leafMask (BinaryTree.plug c t')
  := by
  obtain ⟨hc, -⟩ := (wellFormed_plug_iff ht).mp hwf
  constructor
  · intro a ha
    rw [mem_freeLeaves_plug hc ht'] at ha
    rcases ha with ha | ha
    · apply h'.1 a ha
    · apply h.1
      rw [mem_freeLeaves_plug hc ht]
      exact Or.inr ha
  · intro e he
    rw [mem_holdings_plug] at he
    rcases he with he | he
    · apply h'.2 e he
    · apply h.2
      rw [mem_holdings_plug]
      exact Or.inr he

theorem treeLeafSized_allocated (hq : (maskSize q.mask).1 ≤ leafMask) :
  TreeLeafSized leafMask (leaf (allocatedLabel q id))
  := by
  constructor
  · intro a ha
    rw [leaf, freeLeaves_leaf] at ha
    simp [allocatedLabel] at ha
  · intro e he
    rw [holdings_leaf, allocatedLabel, if_pos rfl, List.mem_singleton] at he
    rw [he]
    exact hq

theorem treeLeafSized_free (hq : (maskSize q.mask).1 = leafMask) :
  TreeLeafSized leafMask (leaf (freeLabel q))
  := by
  constructor
  · intro a ha
    rw [leaf, freeLeaves_leaf] at ha
    simp only [freeLabel, Bool.false_eq_true, if_false, List.mem_singleton] at ha
    rw [ha]
    exact hq
  · intro e he
    rw [holdings_leaf] at he
    simp [freeLabel] at he

/-- A freed network is divided into leaves of the leaf mask 30. -/
theorem treeLeafSized_rebuilt (hq : IsCIDR q ones bits) (hle : ones ≤ 30) :
  TreeLeafSized 30 (rebuilt (allocatedLabel q id) .nil .nil)
  := by
  constructor
  · intro a ha
    have hbits := hq.family
    rw [rebuilt, allocatedLabel, hq.maskSize] at ha
    split at ha
    case isTrue hlt =>
      rw [maskSize_fullTree hq (by omega) ha]
      omega
    case isFalse hge =>
      rw [freeLeaves_leaf] at ha
      simp only [freeLabel, Bool.false_eq_true, if_false, List.mem_singleton] at ha
      rw [ha, hq.maskSize]
      omega
  · intro e he
    rw [holdings_rebuilt] at he
    simp at he

/-- The network of the identifier in the hole. -/
theorem isCIDR_of_plug (hp : IsCIDR p ones bits)
    (hwf : WellFormed p (plug c (leaf (allocatedLabel q id)))) :
  q = holePrefix p c ∧ IsCIDR q (ones + c.length) bits
  := by
  obtain ⟨hc, hq, -⟩ := (wellFormed_plug_iff (by simp [leaf])).mp hwf
  rw [show (allocatedLabel q id).pfx = q from rfl] at hq
  use hq
  rw [hq]
  apply (hc.isCIDR hp).1

/-! ### Operations -/

/-- The condition under which an operation creates only free leaves of the leaf mask: networks below
the root are freed only when the leaf mask is 30, and reduced only into two leaves. -/
def Op.KeepsLeaves (root : IPNet) (leafMask : ℕ) (tm : TrieManager) : Op → Prop
  | .deallocate id => ∀ e ∈ tm.list, e.1 = id → leafMask = 30 ∨ e.2 = root
  | .release id => ∀ e ∈ tm.list, e.1 = id → leafMask = 30 ∨ e.2 = root
  | .reduce id => ∀ e ∈ tm.list, e.1 = id → leafMask ≤ (maskSize e.2.mask).1 + 1
  | .allocate _ => True
  | .expand _ => True

instance (root : IPNet) (leafMask : ℕ) (tm : TrieManager) :
  ∀ op : Op, Decidable (op.KeepsLeaves root leafMask tm)
  | .deallocate id => inferInstanceAs (Decidable (∀ e ∈ tm.list, e.1 = id → _ ∨ _))
  | .release id => inferInstanceAs (Decidable (∀ e ∈ tm.list, e.1 = id → _ ∨ _))
  | .reduce id => inferInstanceAs (Decidable (∀ e ∈ tm.list, e.1 = id → _ ≤ _))
  | .allocate _ => inferInstanceAs (Decidable True)
  | .expand _ => inferInstanceAs (Decidable True)

theorem treeAllocate_leafSized (hwf : WellFormed p T) (h : TreeLeafSized leafMask T) (id : String) :
  TreeLeafSized leafMask (treeAllocate id T).2
  := by
  rcases treeAllocate_change hwf id with heq | hchange
  · rw [heq]
    exact h
  generalize (treeAllocate id T).2 = T' at hchange ⊢
  cases hchange with
  | @take _ c q =>
    apply h.plug hwf (by simp [leaf]) (by simp [leaf])
    apply treeLeafSized_allocated
    apply le_of_eq
    obtain ⟨hc, -⟩ := (wellFormed_plug_iff (by simp [leaf])).mp hwf
    apply h.1 (freeLabel q)
    rw [mem_freeLeaves_plug hc (by simp [leaf]), leaf, freeLeaves_leaf]
    simp [freeLabel]
  | free hop => simp at hop

theorem treeExpand_leafSized (hp : IsCIDR p ones bits) (hwf : WellFormed p T)
    (h : TreeLeafSized leafMask T) (id : String) :
  TreeLeafSized leafMask (treeExpand id T).2
  := by
  rcases treeExpand_change hwf id with heq | hchange
  · rw [heq]
    exact h
  generalize (treeExpand id T).2 = T' at hchange ⊢
  cases hchange with
  | free hop => simp at hop
  | @merge _ f c q hsibling =>
    obtain ⟨hc, -⟩ := (wellFormed_plug_iff (by simp [leaf])).mp hwf
    have hle := h.2 _ (mem_holdings_of_plug (f :: c))
    rw [(isCIDR_of_plug hp hwf).2.maskSize, List.length_cons] at hle
    have hfill : f.fill (leaf (allocatedLabel q id)) ≠ .nil := by
      rw [Frame.fill]
      split <;> simp
    rw [plug_cons] at hwf h
    apply h.plug hwf hfill (by simp [leaf])
    apply treeLeafSized_allocated
    -- the mask of the parent is one bit shorter than that of a holding
    rw [hc.1, freeLabel, (hc.2.2.2.isCIDR hp).1.maskSize]
    dsimp only at hle ⊢
    omega

theorem treeDeallocate_leafSized (hp : IsCIDR p ones bits) (hwf : WellFormed p T)
    (h : TreeLeafSized leafMask T) {id : String}
    (hcond : ∀ q, (id, q) ∈ holdings T → leafMask = 30 ∨ q = p) :
  TreeLeafSized leafMask (treeDeallocate id T).2
  := by
  have hcases : _ ∨ Change (.deallocate id) T _ := treeDeallocate_change hwf (Or.inl rfl)
  rcases hcases with heq | hchange
  · rw [heq]
    exact h
  generalize (treeDeallocate id T).2 = T' at hchange ⊢
  cases hchange with
  | @free _ id' hop f c q =>
    obtain rfl : id = id' := by simpa using hop
    have hcidr := (isCIDR_of_plug hp hwf).2
    have hle := h.2 _ (mem_holdings_of_plug (f :: c))
    rw [hcidr.maskSize] at hle
    rcases hcond q (mem_holdings_of_plug _) with rfl | rfl
    · apply h.plug hwf (by simp [leaf]) (rebuilt_ne_nil _ _ _)
      apply treeLeafSized_rebuilt hcidr hle
    · -- a network below the root has a longer mask than the root network
      have hsize := hp.maskSize
      rw [hcidr.maskSize, List.length_cons, Prod.mk.injEq] at hsize
      omega

theorem treeReduce_leafSized (hp : IsCIDR p ones bits) (hwf : WellFormed p T)
    (h : TreeLeafSized leafMask T) {id : String}
    (hcond : ∀ q, (id, q) ∈ holdings T → leafMask ≤ (maskSize q.mask).1 + 1) :
  TreeLeafSized leafMask (treeReduce leafMask id T).2
  := by
  rcases treeReduce_cases hwf leafMask id with heq | ⟨c, q, rfl, hlt, hlt32, heq⟩
  · rw [heq]
    exact h
  · rw [heq]
    have hcidr := (isCIDR_of_plug hp hwf).2
    have hge := hcond q (mem_holdings_of_plug c)
    have hbits := hp.family
    rw [hcidr.maskSize] at hlt hlt32 hge
    have hlt' : ones + c.length < bits := by omega
    have hlower : TreeLeafSized leafMask (leaf (allocatedLabel (lower q) id)) := by
      apply treeLeafSized_allocated
      rw [(lower_isCIDR hcidr hlt').maskSize]
      dsimp only at hlt ⊢
      omega
    have hupper : TreeLeafSized leafMask (leaf (freeLabel (upper q))) := by
      apply treeLeafSized_free
      rw [(upper_isCIDR hcidr hlt').maskSize]
      dsimp only at hlt hge ⊢
      omega
    apply h.plug hwf (by simp [leaf]) (by simp)
    constructor
    · intro a ha
      rw [freeLeaves_node rfl (by simp [leaf]), List.mem_append] at ha
      rcases ha with ha | ha
      · apply hlower.1 a ha
      · apply hupper.1 a ha
    · intro e he
      rw [holdings_node, List.mem_append, List.mem_append] at he
      rcases he with he | he | he
      · simp [freeLabel] at he
      · apply hlower.2 e he
      · apply hupper.2 e he

end

/-! ### Runs -/

/-- An allocation for a new identifier returns a network with the leaf mask. -/
def LeafSized (leafMask : ℕ) (tm : TrieManager) : Prop :=
  ∀ id q, (∀ q, (id, q) ∉ tm.list) → (tm.allocate id).1 = .ok q → (maskSize q.mask).1 = leafMask

section

variable {root : IPNet} {m leafMask : ℕ} {tm : TrieManager}

theorem Refines.leafSized {leafSize : ℤ} {T : BinaryTree Label} (h : Refines root leafSize tm T)
    (hT : TreeLeafSized leafMask T) :
  LeafSized leafMask tm
  := by
  intro id q hfresh hok
  have hreply : (tm.allocate id).1 = (treeAllocate id T).1 := by
    obtain ⟨⟨t, ht, rfl⟩, hwf, -⟩ := h
    apply (allocate_models ht hwf id).1
  simp only [h.mem_list_iff] at hfresh
  rw [hreply, treeAllocate, locate_eq_none_iff.mpr hfresh] at hok
  split at hok
  · simp at hok
  cases hbest : bestFree T with
  | none => simp [hbest] at hok
  | some x =>
    rw [hbest, Except.ok.injEq] at hok
    rw [← hok]
    apply hT.1
    rw [freeLeaves]
    exact List.mem_map_of_mem (List.argmax_mem hbest)

/-- An operation that meets the condition creates only free leaves of the leaf mask. -/
theorem step_leafSized (hroot : IsCIDR root m 32) {T : BinaryTree Label}
    (h : Refines root leafMask tm T) (hT : TreeLeafSized leafMask T) {op : Op}
    (hop : op.KeepsLeaves root leafMask tm) :
  TreeLeafSized leafMask (treeStep leafMask T op).2
  := by
  cases op with
  | allocate id => apply treeAllocate_leafSized h.wellFormed hT
  | deallocate id =>
    apply treeDeallocate_leafSized hroot h.wellFormed hT
    intro q hq
    exact hop (id, q) (h.mem_list_iff.mpr hq) rfl
  | release id =>
    apply treeDeallocate_leafSized hroot h.wellFormed hT
    intro q hq
    exact hop (id, q) (h.mem_list_iff.mpr hq) rfl
  | expand id => apply treeExpand_leafSized hroot h.wellFormed hT
  | reduce id =>
    apply treeReduce_leafSized hroot h.wellFormed hT
    intro q hq
    exact hop (id, q) (h.mem_list_iff.mpr hq) rfl

/-- In every run in which networks are freed only when the leaf mask is 30 and halved only into
leaves, a new identifier gets a network with the leaf mask. -/
theorem after_leafSized (hroot : IsCIDR root m 32) (hle : m ≤ leafMask) (hmax : leafMask ≤ 30)
    (hnew : newTrieManager root leafMask = some tm) {ops : List Op}
    (hops : Machine.Meets step (Op.KeepsLeaves root leafMask) tm ops) :
  LeafSized leafMask (Machine.after step tm ops)
  := by
  obtain ⟨k, hrefines, hk⟩ := newTrieManager_models hroot hnew
  have hfull : TreeLeafSized leafMask (fullTree k root) := by
    constructor
    · intro a ha
      rw [maskSize_fullTree hroot (by omega) ha]
      omega
    · simp [holdings_fullTree]
  obtain ⟨T, hafter, hT⟩ : ∃ T, Refines root leafMask (Machine.after step tm ops) T
      ∧ TreeLeafSized leafMask T := by
    apply Machine.after_of_meets (P := fun tm => ∃ T, Refines root leafMask tm T
      ∧ TreeLeafSized leafMask T) _ ⟨_, hrefines, hfull⟩ hops
    rintro tm op ⟨T, h, hT⟩ hop
    exact ⟨_, (step_models hroot h op).2, step_leafSized hroot h hT hop⟩
  apply hafter.leafSized hT

theorem after_leafSized_slash28 :
  ∃ tm, newTrieManager ⟨[10, 0, 0, 0], cidrMask 28 32⟩ (30 : ℕ) = some tm
    ∧ LeafSized 30 (Machine.after step tm [.allocate "a", .expand "a", .reduce "a", .release "a"])
  := by
  obtain ⟨hroot, tm, hnew⟩ :=
    exists_newTrieManager_ipv4 [10, 0, 0, 0] 28 (30 : ℕ) rfl (by decide) (by decide)
  have hmeets : (newTrieManager ⟨[10, 0, 0, 0], cidrMask 28 32⟩ (30 : ℕ)).map (fun tm =>
      decide (Machine.Meets step (Op.KeepsLeaves ⟨[10, 0, 0, 0], cidrMask 28 32⟩ 30) tm
        [.allocate "a", .expand "a", .reduce "a", .release "a"])) = some true := by
    decide +kernel
  rw [hnew, Option.map_some, Option.some.injEq, decide_eq_true_eq] at hmeets
  exact ⟨tm, hnew, after_leafSized hroot (by decide) (by decide) hnew hmeets⟩

theorem not_leafSized {id : String} {q : IPNet} (hfresh : ∀ e ∈ tm.list, e.1 ≠ id)
    (hok : (tm.allocate id).1.toOption = some q) (hq : (maskSize q.mask).1 ≠ leafMask) :
  ¬ LeafSized leafMask tm
  := by
  intro h
  apply hq
  apply h id q
  · intro q' hmem
    exact hfresh _ hmem rfl
  · revert hok
    cases (tm.allocate id).1 with
    | error e => simp [Except.toOption]
    | ok q => simp [Except.toOption]

/-- With the leaf mask 30, a network reduced once after two expansions leaves a free leaf of 29
ones, which the next identifier gets; with the leaf mask 26, a network that is freed is divided
into leaves of 30 ones, and the next identifier gets one of them. -/
theorem reduce_release_not_leafSized :
  (∃ tm, newTrieManager ⟨[10, 0, 0, 0], cidrMask 28 32⟩ 30 = some tm
      ∧ ¬ LeafSized 30 (Machine.after step tm
        [.allocate "a", .expand "a", .expand "a", .reduce "a"]))
    ∧ ∃ tm, newTrieManager ⟨[10, 0, 0, 0], cidrMask 24 32⟩ 26 = some tm
      ∧ ¬ LeafSized 26 (Machine.after step tm [.allocate "a", .deallocate "a"])
  := by
  constructor
  · obtain ⟨-, tm, hnew⟩ :=
      exists_newTrieManager_ipv4 [10, 0, 0, 0] 28 30 rfl (by decide) (by decide)
    have hrun : (newTrieManager ⟨[10, 0, 0, 0], cidrMask 28 32⟩ 30).map (fun tm =>
        let tm' := Machine.after step tm [.allocate "a", .expand "a", .expand "a", .reduce "a"]
        decide ((∀ e ∈ tm'.list, e.1 ≠ "b")
          ∧ (tm'.allocate "b").1.toOption = some ⟨[10, 0, 0, 8], cidrMask 29 32⟩))
        = some true := by
      decide +kernel
    rw [hnew, Option.map_some, Option.some.injEq, decide_eq_true_eq] at hrun
    exact ⟨tm, hnew, not_leafSized hrun.1 hrun.2 (by decide)⟩
  · obtain ⟨-, tm, hnew⟩ :=
      exists_newTrieManager_ipv4 [10, 0, 0, 0] 24 26 rfl (by decide) (by decide)
    have hrun : (newTrieManager ⟨[10, 0, 0, 0], cidrMask 24 32⟩ 26).map (fun tm =>
        let tm' := Machine.after step tm [.allocate "a", .deallocate "a"]
        decide ((∀ e ∈ tm'.list, e.1 ≠ "b")
          ∧ (tm'.allocate "b").1.toOption = some ⟨[10, 0, 0, 0], cidrMask 30 32⟩))
        = some true := by
      decide +kernel
    rw [hnew, Option.map_some, Option.some.injEq, decide_eq_true_eq] at hrun
    exact ⟨tm, hnew, not_leafSized hrun.1 hrun.2 (by decide)⟩

end

end Trie
