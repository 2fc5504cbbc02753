import Misokube.Lib.Levels
import Misokube.Trie.Traversal

/-!
# Building the tree of a network

`buildRecursive` and `TrieNode.Build` build the same nodes below a node without children
(`build_divides`).  The children of an inner node have the lower and the upper half of its network,
and the leaves have the subnets of the given length in the order of their addresses.
-/

namespace Trie

open Net BinaryTree Linked

/-- The second network is the lower half of the first one and the third the upper half: their masks
are one bit longer, and they start at the base and at the middle of the first. -/
def Halves (a b c : Label) : Prop :=
  ∃ ones < 32, IsCIDR a.pfx ones 32
    ∧ IsCIDR b.pfx (ones + 1) 32 ∧ base b.pfx = base a.pfx
    ∧ IsCIDR c.pfx (ones + 1) 32 ∧ base c.pfx = base a.pfx + 2 ^ (32 - (ones + 1))

/-- A full binary tree for a network of mask `m`: its inner nodes are halved, and its leaves are the
`2 ^ (L - m)` subnets of length `L` in increasing order. -/
structure Subdivided (p : IPNet) (m L : ℕ) (t : BinaryTree Label) : Prop where
  root : t.root?.map Label.pfx = some p
  halves : Grown Halves (L - m) t
  cidr : ∀ a ∈ t.leaves, IsCIDR a.pfx L 32
  bases : t.leaves.map (fun a => base a.pfx)
    = (List.range (2 ^ (L - m))).map fun i => base p + i * 2 ^ (32 - L)

section

variable {p : IPNet} {m k : ℕ}

theorem root_fullTree (k : ℕ) (p : IPNet) :
  (fullTree k p).root? = some (freeLabel p)
  := by
  cases k <;> rfl

theorem leaves_fullTree_succ (k : ℕ) (p : IPNet) :
  (fullTree (k + 1) p).leaves = (fullTree k (lower p)).leaves ++ (fullTree k (upper p)).leaves
  := by
  rw [fullTree, leaves_node _ (fullTree_ne_nil k (lower p))]

theorem grown_fullTree (hp : IsCIDR p m 32) (hk : m + k ≤ 32) :
  Grown Halves k (fullTree k p)
  := by
  induction k generalizing p m with
  | zero => exact ⟨rfl, rfl⟩
  | succ k ih =>
    have hlt : m < 32 := by omega
    have hlower := lower_isCIDR hp hlt
    have hupper := upper_isCIDR hp hlt
    refine ⟨⟨_, root_fullTree k _, _, root_fullTree k _, ?_⟩, ih hlower (by omega),
      ih hupper (by omega)⟩
    exact ⟨m, hlt, hp, hlower, base_lower hp hlt, hupper, base_upper hp hlt⟩

theorem isCIDR_of_mem_leaves (hp : IsCIDR p m 32) (hk : m + k ≤ 32) :
  ∀ a ∈ (fullTree k p).leaves, IsCIDR a.pfx (m + k) 32
  := by
  induction k generalizing p m with
  | zero =>
    intro a ha
    rw [fullTree, leaves_leaf, List.mem_singleton] at ha
    subst ha
    exact hp
  | succ k ih =>
    have hlt : m < 32 := by omega
    intro a ha
    rw [leaves_fullTree_succ, List.mem_append] at ha
    rw [← Nat.add_assoc, Nat.add_right_comm]
    rcases ha with ha | ha
    · apply ih (lower_isCIDR hp hlt) (by omega) a ha
    · apply ih (upper_isCIDR hp hlt) (by omega) a ha

/-- The bases of the leaves, which are those of the two halves one after the other. -/
theorem bases_fullTree (hp : IsCIDR p m 32) (hk : m + k ≤ 32) :
  (fullTree k p).leaves.map (fun a => base a.pfx)
    = (List.range (2 ^ k)).map fun i => base p + i * 2 ^ (32 - (m + k))
  := by
  induction k generalizing p m with
  | zero => simp [fullTree, leaves_leaf, freeLabel]
  | succ k ih =>
    have hlt : m < 32 := by omega
    have hmiddle : 2 ^ (32 - (m + 1)) = 2 ^ k * 2 ^ (32 - (m + 1 + k)) := by
      rw [← pow_add]
      congr 1
      omega
    rw [leaves_fullTree_succ, List.map_append, ih (lower_isCIDR hp hlt) (by omega),
      ih (upper_isCIDR hp hlt) (by omega), base_lower hp hlt, base_upper hp hlt, pow_succ,
      Nat.mul_two, List.range_add, List.map_append, List.map_map, Nat.add_right_comm m 1 k]
    congr 1
    apply List.map_congr_left
    intro i _
    rw [Nat.add_right_comm m 1 k] at hmiddle
    rw [Function.comp_apply, hmiddle, Nat.add_mul, Nat.add_assoc]
    rfl

end

/-- From a node without children, for a network of mask `m ≤ L ≤ 32`, both functions return, with
the same memory, in which the node is the root of the divided network. -/
theorem build_divides {p : IPNet} {m L : ℕ} (hp : IsCIDR p m 32) (hm : m ≤ L) (hL : L ≤ 32)
    {h : Heap} {x : ℕ} {parent : Option ℕ} (hx : h[x]? = some (newTrieNode p parent)) {fuel : ℕ}
    (hfuel : L - m < fuel) :
  ∃ h' t, buildRecursive L fuel h x = some h' ∧ build L fuel h x = some h'
    ∧ Built h h' parent x (L - m) p t ∧ Subdivided p m L (t.map Prod.snd)
  := by
  have hlimit : (L : ℤ) = m + (L - m : ℕ) := by omega
  obtain ⟨h', t, hbuild, built⟩ := buildRecursive_spec hx hp
    (Or.inr ⟨hlimit, by omega⟩) hfuel
  refine ⟨h', t, hbuild, ?_, built, ?_⟩
  · rw [build_eq_buildRecursive, hbuild]
  · have hsum : m + (L - m) = L := by omega
    have hcidr := isCIDR_of_mem_leaves hp (k := L - m) (by omega)
    have hbases := bases_fullTree hp (k := L - m) (by omega)
    rw [hsum] at hcidr hbases
    rw [built.labels]
    constructor
    · rw [root_fullTree]
      rfl
    · apply grown_fullTree hp (by omega)
    · exact hcidr
    · exact hbases

/-- The tree of a network with host bits, across the border of two bytes. -/
theorem build_divides_slash14 :
  ∃ h' t, buildRecursive (18 : ℕ) 5 [newTrieNode ⟨[10, 7, 1, 9], cidrMask 14 32⟩ none] 0 = some h'
    ∧ build (18 : ℕ) 5 [newTrieNode ⟨[10, 7, 1, 9], cidrMask 14 32⟩ none] 0 = some h'
    ∧ Built [newTrieNode ⟨[10, 7, 1, 9], cidrMask 14 32⟩ none] h' none 0 4
      ⟨[10, 7, 1, 9], cidrMask 14 32⟩ t
    ∧ Subdivided ⟨[10, 7, 1, 9], cidrMask 14 32⟩ 14 18 (t.map Prod.snd)
  := by
  have hp : IsCIDR ⟨[10, 7, 1, 9], cidrMask 14 32⟩ 14 32 :=
    (isCIDR_mk (Or.inl rfl) (by decide) rfl).1
  apply build_divides hp (by decide) (by decide) rfl (by decide)

end Trie
