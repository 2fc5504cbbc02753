import Misokube.Trie.Subnets

/-!
# Networks with room for a gateway

If a new manager is divided down to /30 at most, no network it ever allocates is smaller than that:
`Deallocate` divides what it frees down to /30, and `Expand` takes the network of a parent.  Only
`Reduce` makes smaller networks.
-/

namespace Trie

open Net BinaryTree

/-- No network of the tree has a mask of more ones. -/
def Bounded (limit : ℕ) (T : BinaryTree Label) : Prop :=
  ∀ a ∈ T.values, (maskSize a.pfx.mask).1 ≤ limit

section

variable {p : IPNet} {ones bits limit : ℕ} {T T' : BinaryTree Label}

theorem bounded_fullTree {k : ℕ} (hp : IsCIDR p ones bits) (hk : ones + k ≤ bits)
    (hlimit : ones + k ≤ limit) :
  Bounded limit (fullTree k p)
  := by
  induction k generalizing p ones with
  | zero =>
    intro a ha
    rw [fullTree, values_node, values_nil, List.append_nil, List.mem_singleton] at ha
    rw [ha, freeLabel, hp.maskSize]
    exact hlimit
  | succ k ih =>
    intro a ha
    rw [fullTree, values_node, List.mem_cons, List.mem_append] at ha
    obtain rfl | ha | ha := ha
    · rw [freeLabel, hp.maskSize]
      dsimp only
      omega
    · apply ih (lower_isCIDR hp (by omega)) (by omega) (by omega) a ha
    · apply ih (upper_isCIDR hp (by omega)) (by omega) (by omega) a ha

/-- A freed network is divided down to /30. -/
theorem bounded_rebuilt {q : IPNet} {id : String} (hq : IsCIDR q ones bits) (hlimit : 30 ≤ limit)
    (hle : ones ≤ limit) :
  Bounded limit (rebuilt (allocatedLabel q id) .nil .nil)
  := by
  have hbits := hq.family
  rw [rebuilt, allocatedLabel, hq.maskSize]
  split
  case isTrue hlt => exact bounded_fullTree hq (by omega) (by omega)
  case isFalse hge =>
    intro a ha
    rw [values_node, values_nil, List.append_nil, List.mem_singleton] at ha
    rw [ha, freeLabel, hq.maskSize]
    exact hle

/-- The change at a hole. -/
theorem Bounded.plug {c : Context Label} {t t' : BinaryTree Label}
    (h : Bounded limit (BinaryTree.plug c t)) (h' : Bounded limit t') :
  Bounded limit (BinaryTree.plug c t')
  := by
  intro a ha
  obtain ha | ha := mem_values_plug.mp ha
  · exact h' a ha
  · exact h a (mem_values_plug.mpr (.inr ha))

/-- Networks are taken, freed and expanded without making smaller ones. -/
theorem Change.bounded (hp : IsCIDR p ones bits) (hwf : WellFormed p T) (hlimit : 30 ≤ limit)
    (hT : Bounded limit T) {op : Op} (hchange : Change op T T') (hop : ∀ id, op ≠ .reduce id) :
  Bounded limit T'
  := by
  cases hchange with
  | @take id c q =>
    apply hT.plug
    intro a ha
    obtain rfl : a = allocatedLabel q id := by simpa [leaf] using ha
    apply hT (freeLabel q)
    exact mem_values_plug.mpr (.inl (by simp [leaf]))
  | @free _ id _ f c q =>
    have hle := hT (allocatedLabel q id) (mem_values_plug.mpr (.inl (by simp [leaf])))
    obtain ⟨hc, hq, -⟩ := (wellFormed_plug_iff (by simp [leaf])).mp hwf
    have hcidr : IsCIDR q (ones + (f :: c).length) bits := by
      rw [show q = holePrefix p (f :: c) from hq]
      apply (hc.isCIDR hp).1
    apply hT.plug
    apply bounded_rebuilt hcidr hlimit
    rwa [allocatedLabel, hcidr.maskSize] at hle
  | @merge id f c q _ =>
    rw [plug_cons] at hT
    apply hT.plug
    intro a ha
    obtain rfl : a = allocatedLabel f.value.pfx id := by simpa [leaf] using ha
    apply hT f.value
    apply mem_values_plug.mpr (.inl ((f.values_fill _).mem_iff.mpr _))
    simp [Frame.values]
  | split => exact absurd rfl (hop _)

end

/-! ### The manager -/

/-- The manager of a network, of which none that it knows has a mask of more ones. -/
def ManagedUpTo (limit : ℕ) (p : IPNet) (leafSize : ℤ) (tm : TrieManager) : Prop :=
  ∃ T, Refines p leafSize tm T ∧ Bounded limit T

section

variable {p : IPNet} {ones bits limit : ℕ} {leafSize : ℤ} {tm : TrieManager}

theorem newTrieManager_managedUpTo (hp : IsCIDR p ones bits)
    (hnew : newTrieManager p leafSize = some tm) (hones : ones ≤ limit) (hleaf : leafSize ≤ limit) :
  ManagedUpTo limit p leafSize tm
  := by
  have hbits := hp.family
  obtain ⟨k, h, hk⟩ := newTrieManager_models hp hnew
  have hle := hp.ones_le
  exact ⟨_, h, bounded_fullTree hp (by omega) (by omega)⟩

theorem ManagedUpTo.managed (h : ManagedUpTo limit p leafSize tm) :
  Managed p leafSize tm
  := by
  obtain ⟨T, h, -⟩ := h
  exact ⟨T, h⟩

/-- No network gets smaller, unless one is reduced. -/
theorem ManagedUpTo.step (h : ManagedUpTo limit p leafSize tm) (hp : IsCIDR p ones bits)
    (hlimit : 30 ≤ limit) (op : Op) (hop : ∀ id, op ≠ .reduce id) :
  ManagedUpTo limit p leafSize (step tm op).2
  := by
  obtain ⟨T, h, hT⟩ := h
  refine ⟨_, (step_models hp h op).2, ?_⟩
  obtain heq | hchange := treeStep_change h.wellFormed leafSize op
  · rwa [heq]
  · apply hchange.bounded hp h.wellFormed hlimit hT hop

/-- A network that is held is not smaller. -/
theorem ManagedUpTo.held_le (h : ManagedUpTo limit p leafSize tm) {id : String} {q : IPNet}
    (hq : tm.held id = some q) :
  (maskSize q.mask).1 ≤ limit
  := by
  obtain ⟨T, h, hT⟩ := h
  have hmem := h.held_iff.mp hq
  rw [holdings, List.mem_map] at hmem
  obtain ⟨a, ha, heq⟩ := hmem
  obtain ⟨-, rfl⟩ := Prod.mk.inj heq
  exact hT a (List.mem_of_mem_filter ha)

end

end Trie
