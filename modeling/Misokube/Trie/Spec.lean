import Misokube.Trie.Tree

/-!
# What the operations do to the tree of blocks

Each operation of the subnet manager as a function on trees of labels: an identifier is looked
up among the allocated nodes, and the answer and the new tree follow from the node and its
context.  An operation makes one of four changes to the tree (`treeStep_change`), and these keep
trees well formed.
-/

namespace Trie

open Net BinaryTree

/-- An operation of the subnet manager. -/
inductive Op where
  | allocate (id : String)
  | deallocate (id : String)
  | release (id : String)
  | expand (id : String)
  | reduce (id : String)

/-- The answer of an operation: the network it returns, if any, or an error. -/
abbrev Reply := Except Error (Option IPNet)

/-- The free leaf with the most room to expand, the leftmost of those. -/
def bestFree (t : BinaryTree Label) : Option (Context Label × Label) :=
  (openLeaves Label.allocated [] t).argmax fun x => clearance Label.allocated x.1

/-- The network of `id`, which is allocated if it has none. -/
def treeAllocate (id : String) (t : BinaryTree Label) : Except Error IPNet × BinaryTree Label :=
  if id = "" then (.error .emptyID, t)
  else
    match locate (isOf id) [] t with
    | some x => (.ok x.2.1.pfx, t)
    | none =>
      match bestFree t with
      | none => (.error .noFreeSubnet, t)
      | some x => (.ok x.2.pfx, plug x.1 (.node (allocatedLabel x.2.pfx id) .nil .nil))

/-- The tree below a freed node: the free tree down to /30, or the children the node has. -/
def rebuilt (a : Label) (l r : BinaryTree Label) : BinaryTree Label :=
  if (maskSize a.pfx.mask).1 < 30 then fullTree (30 - (maskSize a.pfx.mask).1) a.pfx
  else .node (freeLabel a.pfx) l r

/-- Frees the network of `id`. -/
def treeDeallocate (id : String) (t : BinaryTree Label) :
    Except Error Unit × BinaryTree Label :=
  if id = "" then (.error .emptyID, t)
  else
    match locate (isOf id) [] t with
    | none => (.ok (), t)
    | some ([], _) => (.error .rootDeallocation, t)
    | some (f :: c, a, l, r) => (.ok (), plug (f :: c) (rebuilt a l r))

/-- Merges the network of `id` with the other half of its parent. -/
def treeExpand (id : String) (t : BinaryTree Label) : Except Error IPNet × BinaryTree Label :=
  if id = "" then (.error .emptyID, t)
  else
    match locate (isOf id) [] t with
    | none => (.error (.notFound id), t)
    | some ([], _) => (.error (.notFound id), t)
    | some (f :: c, a, _, _) =>
      match f.sibling with
      | .nil => (.error .nilSibling, t)
      | .node s l r =>
        if (BinaryTree.node s l r).values.any Label.allocated then
          (.error (.mergeAllocated a.id a.pfx s.id s.pfx), t)
        else if f.value.allocated then (.error .unstableState, t)
        else (.ok f.value.pfx, plug c (.node (allocatedLabel f.value.pfx id) .nil .nil))

/-- Splits the network of `id`, which keeps the lower half. -/
def treeReduce (leafSize : ℤ) (id : String) (t : BinaryTree Label) :
    Except Error IPNet × BinaryTree Label :=
  if id = "" then (.error .emptyID, t)
  else
    match locate (isOf id) [] t with
    | none => (.error (.notFound id), t)
    | some (c, a, _, _) =>
      let size : ℤ := (maskSize a.pfx.mask).1
      if leafSize ≤ size then (.error (.alreadyAtLeaf leafSize a.pfx), t)
      else if 32 ≤ size then (.error (.reduceSplit a.pfx (.maxSubnetSize (size + 1))), t)
      else
        (.ok (lower a.pfx),
          plug c (.node (freeLabel a.pfx)
            (.node (allocatedLabel (lower a.pfx) a.id) .nil .nil)
            (.node (freeLabel (upper a.pfx)) .nil .nil)))

/-- An operation on trees of labels. -/
def treeStep (leafSize : ℤ) (t : BinaryTree Label) : Op → Reply × BinaryTree Label
  | .allocate id => ((treeAllocate id t).1.map some, (treeAllocate id t).2)
  | .deallocate id => ((treeDeallocate id t).1.map fun _ => none, (treeDeallocate id t).2)
  | .release id => ((treeDeallocate id t).1.map fun _ => none, (treeDeallocate id t).2)
  | .expand id => ((treeExpand id t).1.map some, (treeExpand id t).2)
  | .reduce id => ((treeReduce leafSize id t).1.map some, (treeReduce leafSize id t).2)

/-! ### Holdings -/

/-- The allocated networks with their identifiers. -/
def holdings (t : BinaryTree Label) : List (String × IPNet) :=
  (allocatedNodes t).map fun a => (a.id, a.pfx)

/-- The networks allocated around the hole, with their identifiers. -/
def contextHoldings (c : Context Label) : List (String × IPNet) :=
  (c.values.filter Label.allocated).map fun a => (a.id, a.pfx)

/-- A filled context has the holdings of the subtree and those around the hole. -/
theorem holdings_plug (c : Context Label) (t : BinaryTree Label) :
  (holdings (plug c t)).Perm (holdings t ++ contextHoldings c)
  := by
  rw [holdings, holdings, contextHoldings, ← List.map_append, allocatedNodes, allocatedNodes,
    ← List.filter_append]
  apply List.Perm.map
  apply (values_plug c t).filter

theorem holdings_node (a : Label) (l r : BinaryTree Label) :
  holdings (.node a l r)
    = (if a.allocated then [(a.id, a.pfx)] else []) ++ (holdings l ++ holdings r)
  := by
  rw [holdings, allocatedNodes_node, List.map_append, List.map_append]
  split <;> rfl

theorem holdings_fullTree (k : ℕ) (p : IPNet) :
  holdings (fullTree k p) = []
  := by
  induction k generalizing p with
  | zero => rfl
  | succ k ih =>
    rw [fullTree, holdings_node, ih, ih]
    rfl

/-! ### Changes -/

/-- A node without children. -/
def leaf (a : Label) : BinaryTree Label :=
  .node a .nil .nil

/-- The changes the operations make to a tree: take a free leaf, free a node below the root,
merge a node with its free sibling into their parent, and split a node. -/
inductive Change : Op → BinaryTree Label → BinaryTree Label → Prop where
  | take {id : String} {c : Context Label} {q : IPNet} :
      Change (.allocate id) (plug c (leaf (freeLabel q))) (plug c (leaf (allocatedLabel q id)))
  | free {op : Op} {id : String} (hop : op = .deallocate id ∨ op = .release id)
      {f : Frame Label} {c : Context Label} {q : IPNet} :
      Change op (plug (f :: c) (leaf (allocatedLabel q id)))
        (plug (f :: c) (rebuilt (allocatedLabel q id) .nil .nil))
  | merge {id : String} {f : Frame Label} {c : Context Label} {q : IPNet}
      (hsibling : f.sibling.values.any Label.allocated = false) :
      Change (.expand id) (plug (f :: c) (leaf (allocatedLabel q id)))
        (plug c (leaf (allocatedLabel f.value.pfx id)))
  | split {id : String} {c : Context Label} {q : IPNet} (hq : (maskSize q.mask).1 < 32) :
      Change (.reduce id) (plug c (leaf (allocatedLabel q id)))
        (plug c (.node (freeLabel q) (leaf (allocatedLabel (lower q) id))
          (leaf (freeLabel (upper q)))))

/-- A well-formed tree has its node of `id` as a leaf of its context. -/
theorem locate_wellFormed {p : IPNet} {t l r : BinaryTree Label} {id : String}
    {c : Context Label} {a : Label} (hwf : WellFormed p t)
    (h : locate (isOf id) [] t = some (c, a, l, r)) :
  t = plug c (leaf a) ∧ a = allocatedLabel a.pfx id ∧ l = .nil ∧ r = .nil
  := by
  obtain ⟨hq, hplug⟩ := locate_eq_some h
  rw [plug_nil] at hplug
  rw [isOf, Bool.and_eq_true, beq_iff_eq] at hq
  subst hplug
  obtain ⟨-, hnode⟩ := (wellFormed_plug_iff (by simp)).mp hwf
  obtain ⟨-, -, ⟨rfl, rfl⟩ | ⟨hfree, -⟩⟩ := hnode
  · refine ⟨rfl, ?_, rfl, rfl⟩
    rw [allocatedLabel, ← hq.1, ← hq.2]
  · rw [hq.1] at hfree
    simp at hfree

/-- An open leaf of a well-formed tree is a free leaf of its context. -/
theorem openLeaves_wellFormed {p : IPNet} {t : BinaryTree Label} {c : Context Label} {a : Label}
    (hwf : WellFormed p t) (h : (c, a) ∈ openLeaves Label.allocated [] t) :
  t = plug c (leaf (freeLabel a.pfx)) ∧ a = freeLabel a.pfx
  := by
  obtain ⟨ha, hplug⟩ := openLeaves_spec h
  rw [plug_nil] at hplug
  subst hplug
  obtain ⟨-, -, hid, -⟩ := (wellFormed_plug_iff (by simp)).mp hwf
  have hlabel : a = freeLabel a.pfx := by
    rw [freeLabel, ← ha, ← hid ha]
  rw [leaf, ← hlabel]
  exact ⟨rfl, rfl⟩

theorem treeAllocate_change {p : IPNet} {t : BinaryTree Label} (hwf : WellFormed p t)
    (id : String) :
  (treeAllocate id t).2 = t ∨ Change (.allocate id) t (treeAllocate id t).2
  := by
  rw [treeAllocate]
  split
  · exact Or.inl rfl
  split
  · exact Or.inl rfl
  split
  · exact Or.inl rfl
  case h_2 x hbest =>
    obtain ⟨c, a⟩ := x
    obtain ⟨ht, -⟩ := openLeaves_wellFormed hwf (List.argmax_mem hbest)
    right
    nth_rewrite 1 [ht]
    apply Change.take

theorem treeDeallocate_change {p : IPNet} {t : BinaryTree Label} (hwf : WellFormed p t)
    {op : Op} {id : String} (hop : op = .deallocate id ∨ op = .release id) :
  (treeDeallocate id t).2 = t ∨ Change op t (treeDeallocate id t).2
  := by
  rw [treeDeallocate]
  split
  · exact Or.inl rfl
  split
  · exact Or.inl rfl
  · exact Or.inl rfl
  case h_3 f c a l r hlocate =>
    obtain ⟨ht, ha, rfl, rfl⟩ := locate_wellFormed hwf hlocate
    right
    nth_rewrite 1 [ht]
    rw [ha]
    apply Change.free hop

theorem treeExpand_change {p : IPNet} {t : BinaryTree Label} (hwf : WellFormed p t)
    (id : String) :
  (treeExpand id t).2 = t ∨ Change (.expand id) t (treeExpand id t).2
  := by
  rw [treeExpand]
  split
  · exact Or.inl rfl
  split
  · exact Or.inl rfl
  · exact Or.inl rfl
  case h_3 f c a l r hlocate =>
    obtain ⟨ht, ha, rfl, rfl⟩ := locate_wellFormed hwf hlocate
    split
    · exact Or.inl rfl
    case h_2 s sl sr hsibling =>
      split
      · exact Or.inl rfl
      case isFalse hany =>
        split
        · exact Or.inl rfl
        · right
          nth_rewrite 1 [ht]
          rw [ha]
          apply Change.merge
          rw [hsibling]
          simpa using hany

/-- `Reduce` leaves a tree as it is or splits the network of the identifier, if it is larger than
the leaves. -/
theorem treeReduce_cases {p : IPNet} {t : BinaryTree Label} (hwf : WellFormed p t)
    (leafSize : ℤ) (id : String) :
  (treeReduce leafSize id t).2 = t
    ∨ ∃ c q, t = plug c (leaf (allocatedLabel q id)) ∧ ((maskSize q.mask).1 : ℤ) < leafSize
      ∧ (maskSize q.mask).1 < 32
      ∧ (treeReduce leafSize id t).2
        = plug c (.node (freeLabel q) (leaf (allocatedLabel (lower q) id))
          (leaf (freeLabel (upper q))))
  := by
  rw [treeReduce]
  split
  · exact Or.inl rfl
  split
  · exact Or.inl rfl
  case h_2 c a l r hlocate =>
    obtain ⟨ht, ha, rfl, rfl⟩ := locate_wellFormed hwf hlocate
    dsimp only
    split
    · exact Or.inl rfl
    split
    · exact Or.inl rfl
    case isFalse hleaf hsize =>
      right
      refine ⟨c, a.pfx, ?_, by omega, by omega, ?_⟩
      · rw [← ha]
        exact ht
      · rw [show a.id = id from congrArg Label.id ha]
        rfl

theorem treeReduce_change {p : IPNet} {t : BinaryTree Label} (hwf : WellFormed p t)
    (leafSize : ℤ) (id : String) :
  (treeReduce leafSize id t).2 = t ∨ Change (.reduce id) t (treeReduce leafSize id t).2
  := by
  rcases treeReduce_cases hwf leafSize id with heq | ⟨c, q, ht, -, hq, heq⟩
  · exact Or.inl heq
  · right
    rw [heq, ht]
    apply Change.split hq

/-- An operation leaves a well-formed tree as it is or makes its change to it. -/
theorem treeStep_change {p : IPNet} {t : BinaryTree Label} (hwf : WellFormed p t)
    (leafSize : ℤ) (op : Op) :
  (treeStep leafSize t op).2 = t ∨ Change op t (treeStep leafSize t op).2
  := by
  cases op with
  | allocate id => apply treeAllocate_change hwf
  | deallocate id => apply treeDeallocate_change hwf (Or.inl rfl)
  | release id => apply treeDeallocate_change hwf (Or.inr rfl)
  | expand id => apply treeExpand_change hwf
  | reduce id => apply treeReduce_change hwf

theorem wellFormed_rebuilt {a : Label} {ones bits : ℕ} (ha : IsCIDR a.pfx ones bits) :
  WellFormed a.pfx (rebuilt a .nil .nil)
  := by
  rw [rebuilt]
  split
  case isTrue h =>
    apply wellFormed_fullTree ha
    rw [ha.maskSize] at h ⊢
    omega
  case isFalse => exact wellFormed_leaf fun _ => rfl

/-- Changes keep trees well formed. -/
theorem Change.wellFormed {p : IPNet} {ones bits : ℕ} (hp : IsCIDR p ones bits) {op : Op}
    {t t' : BinaryTree Label} (h : Change op t t') (hwf : WellFormed p t) :
  WellFormed p t'
  := by
  cases h with
  | @take id c q =>
    obtain ⟨hc, hq, -, -⟩ := (wellFormed_plug_iff (by simp [leaf])).mp hwf
    apply (wellFormed_plug_iff (by simp [leaf])).mpr
    use hc
    rw [← hq]
    exact wellFormed_leaf (a := allocatedLabel _ id) (by simp [allocatedLabel])
  | @free id hop f c q =>
    obtain ⟨hc, hq, -, -⟩ := (wellFormed_plug_iff (by simp [leaf])).mp hwf
    have hcidr := (hc.isCIDR hp).1
    rw [← hq] at hcidr
    have hrebuilt := wellFormed_rebuilt hcidr
    apply (wellFormed_plug_iff hrebuilt.ne_nil).mpr
    use hc
    rw [← hq]
    exact hrebuilt
  | @merge id f c q hsibling =>
    obtain ⟨⟨hf, -, -, hc⟩, -⟩ := (wellFormed_plug_iff (by simp [leaf])).mp hwf
    apply (wellFormed_plug_iff (by simp [leaf])).mpr
    use hc
    rw [hf]
    exact wellFormed_leaf (a := allocatedLabel _ id) (by simp [allocatedLabel])
  | @split id c q hq =>
    obtain ⟨hc, hpfx, -, -⟩ := (wellFormed_plug_iff (by simp [leaf])).mp hwf
    apply (wellFormed_plug_iff (by simp [leaf])).mpr
    use hc
    rw [← hpfx]
    refine ⟨rfl, fun _ => rfl, Or.inr ⟨rfl, hq, ?_, ?_⟩⟩
    · exact wellFormed_leaf (a := allocatedLabel _ id) (by simp [allocatedLabel])
    · exact wellFormed_leaf (a := freeLabel _) fun _ => rfl

/-- Operations keep trees well formed. -/
theorem treeStep_wellFormed {p : IPNet} {ones bits : ℕ} (hp : IsCIDR p ones bits)
    {t : BinaryTree Label} (hwf : WellFormed p t) (leafSize : ℤ) (op : Op) :
  WellFormed p (treeStep leafSize t op).2
  := by
  obtain h | h := treeStep_change hwf leafSize op
  · rw [h]
    exact hwf
  · apply h.wellFormed hp hwf

end Trie
