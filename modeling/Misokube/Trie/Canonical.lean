import Misokube.Trie.Partition

/-!
# The subnet manager does not remember its history

Without `Reduce`, the leaves of a trie built down to /30 stay at /30 wherever they are free.
Such a tree is `Canonical`: it is the full tree down to /30 with the subtrees below the networks
of the tenants removed (`eq_carve`).  So two managers that list the same networks answer alike
from then on.
-/

namespace Trie

open Net BinaryTree Linked

/-- Every leaf has a mask of at most 30 ones, and a free leaf has one of 30 ones. -/
def Canonical : BinaryTree Label → Prop
  | .nil => True
  | .node a l r =>
    (l = .nil → r = .nil → (maskSize a.pfx.mask).1 ≤ 30
        ∧ (a.allocated = false → (maskSize a.pfx.mask).1 = 30))
      ∧ Canonical l ∧ Canonical r

theorem canonical_leaf_iff {a : Label} :
  Canonical (leaf a) ↔ (maskSize a.pfx.mask).1 ≤ 30
    ∧ (a.allocated = false → (maskSize a.pfx.mask).1 = 30)
  := by
  simp [leaf, Canonical]

theorem canonical_fill_iff {f : Frame Label} {t : BinaryTree Label} (ht : t ≠ .nil) :
  Canonical (f.fill t) ↔ Canonical f.sibling ∧ Canonical t
  := by
  rw [Frame.fill]
  split
  · simp [Canonical, ht]
  · simp [Canonical, ht, and_comm]

/-- A filled context is canonical exactly when its other subtrees and the subtree are. -/
theorem canonical_plug_iff {c : Context Label} {t : BinaryTree Label} (ht : t ≠ .nil) :
  Canonical (plug c t) ↔ (∀ f ∈ c, Canonical f.sibling) ∧ Canonical t
  := by
  induction c generalizing t with
  | nil => simp
  | cons f c ih =>
    have hfill : f.fill t ≠ .nil := by
      rw [Frame.fill]
      split <;> simp
    rw [plug_cons, ih hfill, canonical_fill_iff ht]
    simp only [List.mem_cons, forall_eq_or_imp]
    tauto

section

variable {p : IPNet} {n bits : ℕ} {T : BinaryTree Label}

/-- The free tree down to /30 is canonical. -/
theorem canonical_fullTree {k : ℕ} (hp : IsCIDR p n bits) (hk : n + k = 30) :
  Canonical (fullTree k p)
  := by
  have hbits := hp.family
  induction k generalizing p n with
  | zero =>
    apply canonical_leaf_iff.mpr
    rw [freeLabel, hp.maskSize]
    exact ⟨by omega, fun _ => hk⟩
  | succ k ih =>
    have hlt : n < bits := by omega
    refine ⟨?_, ?_, ?_⟩
    · intro hnil
      exact absurd hnil (fullTree_ne_nil k _)
    · apply ih (lower_isCIDR hp hlt) (by omega)
    · apply ih (upper_isCIDR hp hlt) (by omega)

/-- A canonical tree is below a network with a mask of at most 30 ones. -/
theorem Canonical.le (hp : IsCIDR p n bits) (hwf : WellFormed p T) (h : Canonical T) :
  n ≤ 30
  := by
  induction T generalizing p n with
  | nil => exact hwf.elim
  | node a l r hl hr =>
    obtain ⟨hleaf, hcl, -⟩ := h
    obtain ⟨rfl, -, ⟨rfl, rfl⟩ | ⟨-, hlt, hwl, -⟩⟩ := hwf
    · have hle := (hleaf rfl rfl).1
      rwa [hp.maskSize] at hle
    · have hbits := hp.family
      rw [hp.maskSize] at hlt
      have hle := hl (lower_isCIDR hp (by omega)) hwl hcl
      omega

/-- Operations other than `Reduce` keep trees canonical. -/
theorem Change.canonical (hp : IsCIDR p n bits) {op : Op} {T' : BinaryTree Label}
    (h : Change op T T') (hop : ∀ id, op ≠ .reduce id) (hwf : WellFormed p T)
    (hcanonical : Canonical T) :
  Canonical T'
  := by
  cases h with
  | @take id c q =>
    rw [canonical_plug_iff (by simp [leaf]), canonical_leaf_iff] at hcanonical ⊢
    obtain ⟨hc, hle, -⟩ := hcanonical
    refine ⟨hc, hle, ?_⟩
    intro hfree
    simp [allocatedLabel] at hfree
  | @free op id _ f c q =>
    obtain ⟨hcontext, hq, -⟩ := (wellFormed_plug_iff (by simp [leaf])).mp hwf
    have hcidr := (hcontext.isCIDR hp).1
    rw [← hq] at hcidr
    rw [canonical_plug_iff (by simp [leaf]), canonical_leaf_iff] at hcanonical
    obtain ⟨hc, hle, -⟩ := hcanonical
    rw [canonical_plug_iff (wellFormed_rebuilt hcidr).ne_nil]
    use hc
    rw [rebuilt]
    split
    case isTrue hlt =>
      apply canonical_fullTree hcidr
      rw [hcidr.maskSize] at hlt ⊢
      omega
    case isFalse hge =>
      apply canonical_leaf_iff.mpr
      rw [freeLabel]
      exact ⟨hle, fun _ => le_antisymm hle (Nat.le_of_not_lt hge)⟩
  | @merge id f c q hsibling =>
    obtain ⟨hcontext, hq, -⟩ := (wellFormed_plug_iff (by simp [leaf])).mp hwf
    have hcidr := (hcontext.isCIDR hp).1
    obtain ⟨hf, -, -, hcontext'⟩ := hcontext
    have hparent := (hcontext'.isCIDR hp).1
    rw [canonical_plug_iff (by simp [leaf]), canonical_leaf_iff, hq, hcidr.maskSize] at hcanonical
    obtain ⟨hc, hle, -⟩ := hcanonical
    rw [canonical_plug_iff (by simp [leaf]), canonical_leaf_iff, hf, freeLabel, allocatedLabel,
      hparent.maskSize]
    rw [List.length_cons] at hle
    refine ⟨?_, by omega, by simp⟩
    intro g hg
    apply hc g
    apply List.mem_cons_of_mem f hg
  | @split id c q hq => exact absurd rfl (hop id)

end

/-! ### The tree of a list of networks -/

/-- The first identifier listed with the network. -/
def owner (nets : List (String × IPNet)) (p : IPNet) : Option String :=
  (nets.find? fun e => e.2 = p).map Prod.fst

/-- The full tree of `k` levels below a network, with the subtrees below the listed networks
removed. -/
def carve (nets : List (String × IPNet)) : ℕ → IPNet → BinaryTree Label
  | 0, p =>
    match owner nets p with
    | some id => leaf (allocatedLabel p id)
    | none => leaf (freeLabel p)
  | k + 1, p =>
    match owner nets p with
    | some id => leaf (allocatedLabel p id)
    | none => .node (freeLabel p) (carve nets k (lower p)) (carve nets k (upper p))

/-- The network `q` starts in the network `p` and is no larger. -/
def Within (p q : IPNet) : Prop :=
  Covers p (base q) ∧ (maskSize p.mask).1 ≤ (maskSize q.mask).1

section

variable {p : IPNet} {n bits : ℕ} {T : BinaryTree Label} {nets : List (String × IPNet)}

theorem carve_of_owner {id : String} (h : owner nets p = some id) (k : ℕ) :
  carve nets k p = leaf (allocatedLabel p id)
  := by
  cases k <;> simp only [carve, h]

theorem owner_eq_some {id : String} (h : owner nets p = some id) :
  (id, p) ∈ nets
  := by
  rw [owner, Option.map_eq_some_iff] at h
  obtain ⟨⟨id', q⟩, hfind, rfl⟩ := h
  have hq := List.find?_some hfind
  rw [decide_eq_true_eq] at hq
  subst hq
  apply List.mem_of_find?_eq_some hfind

theorem owner_eq_none (h : owner nets p = none) (id : String) :
  (id, p) ∉ nets
  := by
  rw [owner, Option.map_eq_none_iff, List.find?_eq_none] at h
  intro hmem
  apply h (id, p) hmem
  simp

theorem within_refl (p : IPNet) :
  Within p p
  := ⟨covers_base p, le_refl _⟩

/-- The holdings of a well-formed tree are within its network. -/
theorem WellFormed.within (hp : IsCIDR p n bits) (h : WellFormed p T) {e : String × IPNet}
    (he : e ∈ holdings T) :
  Within p e.2
  := by
  rw [holdings, List.mem_map] at he
  obtain ⟨a, ha, rfl⟩ := he
  obtain ⟨c, l, r, rfl⟩ := exists_plug_of_mem (List.mem_of_mem_filter ha)
  obtain ⟨hc, hpfx, -⟩ := (wellFormed_plug_iff (by simp)).mp h
  have hcidr := (hc.isCIDR hp).1
  rw [← hpfx] at hcidr
  constructor
  · apply h.covers_of_holding hp (List.mem_map_of_mem ha)
    exact (within_refl a.pfx).1
  · rw [hp.maskSize, hcidr.maskSize]
    apply Nat.le_add_right

/-- The holdings of the children are the holdings of the node within their networks. -/
theorem mem_holdings_children (hp : IsCIDR p n bits) {l r : BinaryTree Label} {a : Label}
    (hlt : n < bits) (ha : a.allocated = false) (hl : WellFormed (lower p) l)
    (hr : WellFormed (upper p) r) (e : String × IPNet) :
  (e ∈ holdings l ↔ e ∈ holdings (.node a l r) ∧ Within (lower p) e.2)
    ∧ (e ∈ holdings r ↔ e ∈ holdings (.node a l r) ∧ Within (upper p) e.2)
  := by
  have hmem : e ∈ holdings (.node a l r) ↔ e ∈ holdings l ∨ e ∈ holdings r := by
    simp [holdings_node, ha]
  have hdisjoint : Within (lower p) e.2 → ¬ Within (upper p) e.2 := by
    rintro ⟨hlower, -⟩ ⟨hupper, -⟩
    rw [covers_lower_iff hp hlt] at hlower
    rw [covers_upper_iff hp hlt] at hupper
    omega
  rw [hmem]
  constructor
  · constructor
    · intro he
      exact ⟨Or.inl he, hl.within (lower_isCIDR hp hlt) he⟩
    · rintro ⟨he | he, hwithin⟩
      · exact he
      · exact absurd (hr.within (upper_isCIDR hp hlt) he) (hdisjoint hwithin)
  · constructor
    · intro he
      exact ⟨Or.inr he, hr.within (upper_isCIDR hp hlt) he⟩
    · rintro ⟨he | he, hwithin⟩
      · exact absurd hwithin (hdisjoint (hl.within (lower_isCIDR hp hlt) he))
      · exact he

/-- What is within a network with a longer mask is within the network, but not the network. -/
theorem within_of_longer (hp : IsCIDR p n bits) {q q' : IPNet} (hsize : n < (maskSize q'.mask).1)
    (hcovers : Covers p (base q)) (hwithin : Within q' q) :
  Within p q ∧ q ≠ p
  := by
  obtain ⟨-, hle⟩ := hwithin
  refine ⟨⟨hcovers, ?_⟩, ?_⟩
  · rw [hp.maskSize]
    exact Nat.le_of_lt (Nat.lt_of_lt_of_le hsize hle)
  · rintro rfl
    rw [hp.maskSize] at hle
    exact absurd hsize (Nat.not_lt.mpr hle)

/-- A network is within neither of its halves, and what is within a half is within it. -/
theorem within_halves (hp : IsCIDR p n bits) (hlt : n < bits) (q : IPNet) :
  (Within (lower p) q → Within p q ∧ q ≠ p) ∧ (Within (upper p) q → Within p q ∧ q ≠ p)
  := by
  constructor
  · intro hwithin
    apply within_of_longer hp _ _ hwithin
    · rw [(lower_isCIDR hp hlt).maskSize]
      exact Nat.lt_succ_self n
    · exact ((covers_lower_iff hp hlt _).mp hwithin.1).1
  · intro hwithin
    apply within_of_longer hp _ _ hwithin
    · rw [(upper_isCIDR hp hlt).maskSize]
      exact Nat.lt_succ_self n
    · exact ((covers_upper_iff hp hlt _).mp hwithin.1).1

/-- The owner of the network of a tree holds it in the tree. -/
theorem mem_holdings_of_owner (hnets : ∀ e, e ∈ holdings T ↔ e ∈ nets ∧ Within p e.2)
    {id : String} (hown : owner nets p = some id) :
  (id, p) ∈ holdings T
  := by
  apply (hnets _).mpr
  exact ⟨owner_eq_some hown, within_refl p⟩

theorem eq_carve_leaf {k : ℕ} {a : Label} (hp : IsCIDR a.pfx n bits) (hk : n + k = 30)
    (hid : a.allocated = false → a.id = "")
    (hleaf : a.allocated = false → (maskSize a.pfx.mask).1 = 30)
    (hnets : ∀ e, e ∈ holdings (.node a .nil .nil) ↔ e ∈ nets ∧ Within a.pfx e.2) :
  .node a .nil .nil = carve nets k a.pfx
  := by
  cases halloc : a.allocated with
  | true =>
    have hholdings : holdings (.node a .nil .nil) = [(a.id, a.pfx)] := by
      rw [holdings_node, halloc]
      rfl
    have hmem := ((hnets (a.id, a.pfx)).mp (by simp [hholdings])).1
    cases hown : owner nets a.pfx with
    | none => exact absurd hmem (owner_eq_none hown _)
    | some id =>
      have heq := mem_holdings_of_owner hnets hown
      rw [hholdings, List.mem_singleton, Prod.mk.injEq] at heq
      rw [carve_of_owner hown, leaf, allocatedLabel, heq.1, ← halloc]
  | false =>
    have h30 := hleaf halloc
    rw [hp.maskSize] at h30
    obtain rfl : k = 0 := by omega
    cases hown : owner nets a.pfx with
    | none =>
      simp only [carve, hown]
      rw [leaf, freeLabel, ← hid halloc, ← halloc]
    | some id =>
      have hmem := mem_holdings_of_owner hnets hown
      rw [holdings_node, halloc] at hmem
      simp [holdings, allocatedNodes] at hmem

/-- The holdings of a half are the networks within it. -/
theorem mem_holdings_half {S : BinaryTree Label} {q : IPNet}
    (hS : ∀ e, e ∈ holdings S ↔ e ∈ holdings T ∧ Within q e.2)
    (hnets : ∀ e, e ∈ holdings T ↔ e ∈ nets ∧ Within p e.2)
    (hq : ∀ q', Within q q' → Within p q' ∧ q' ≠ p) (e : String × IPNet) :
  e ∈ holdings S ↔ e ∈ nets ∧ Within q e.2
  := by
  rw [hS, hnets, and_assoc]
  apply and_congr_right
  intro _
  apply and_iff_right_of_imp
  intro hwithin
  apply (hq e.2 hwithin).1

/-- A canonical tree is the full tree down to /30 with the subtrees below its holdings
removed. -/
theorem eq_carve {k : ℕ} (hp : IsCIDR p n bits) (hk : n + k = 30) (hwf : WellFormed p T)
    (h : Canonical T) (hnets : ∀ e, e ∈ holdings T ↔ e ∈ nets ∧ Within p e.2) :
  T = carve nets k p
  := by
  have hbits := hp.family
  induction T generalizing p n k with
  | nil => exact hwf.elim
  | node a l r hl hr =>
    obtain ⟨hleaf, hcl, hcr⟩ := h
    obtain ⟨rfl, hid, hnode⟩ := hwf
    obtain ⟨rfl, rfl⟩ | ⟨hfree, hlt, hwl, hwr⟩ := hnode
    · apply eq_carve_leaf hp hk hid (hleaf rfl rfl).2 hnets
    · rw [hp.maskSize] at hlt
      have hlt' : n < bits := by omega
      have hchildren := mem_holdings_children hp hlt' hfree hwl hwr
      have hhalves := within_halves hp hlt'
      have hle := Canonical.le (lower_isCIDR hp hlt') hwl hcl
      obtain ⟨k, rfl⟩ : ∃ j, k = j + 1 := ⟨k - 1, by omega⟩
      cases hown : owner nets a.pfx with
      | none =>
        have hlower : l = carve nets k (lower a.pfx) := by
          apply hl (lower_isCIDR hp hlt') (by omega) hwl hcl
          apply mem_holdings_half (fun e => (hchildren e).1) hnets fun q => (hhalves q).1
        have hupper : r = carve nets k (upper a.pfx) := by
          apply hr (upper_isCIDR hp hlt') (by omega) hwr hcr
          apply mem_holdings_half (fun e => (hchildren e).2) hnets fun q => (hhalves q).2
        simp only [carve, hown]
        rw [← hlower, ← hupper, freeLabel, ← hid hfree, ← hfree]
      | some id =>
        -- no holding of the children is the whole network
        have hmem := mem_holdings_of_owner hnets hown
        rw [holdings_node, hfree] at hmem
        simp only [Bool.false_eq_true, if_false, List.nil_append, List.mem_append] at hmem
        obtain hmem | hmem := hmem
        · have hwithin := hwl.within (lower_isCIDR hp hlt') hmem
          exact absurd rfl ((hhalves _).1 hwithin).2
        · have hwithin := hwr.within (upper_isCIDR hp hlt') hmem
          exact absurd rfl ((hhalves _).2 hwithin).2

end

/-! ### Runs without `Reduce` -/

/-- After a run without `Reduce`, the manager represents the tree of the networks it lists. -/
theorem after_models_carve {root : IPNet} {n : ℕ} (hroot : IsCIDR root n 32) (hn : n ≤ 30)
    {tm : TrieManager} (hnew : newTrieManager root 30 = some tm) {ops : List Op}
    (hops : ∀ op ∈ ops, ∀ id, op ≠ .reduce id) {nets : List (String × IPNet)}
    (hnets : ∀ e, e ∈ (Machine.after step tm ops).list ↔ e ∈ nets) :
  Refines root 30 (Machine.after step tm ops) (carve nets (30 - n) root)
  := by
  obtain ⟨k, hrefines, hk⟩ := newTrieManager_models hroot hnew
  have hk' : n + k = 30 := by omega
  have hafter := after_models hroot hrefines ops
  have hcanonical : WellFormed root (Machine.after (treeStep 30) (fullTree k root) ops)
      ∧ Canonical (Machine.after (treeStep 30) (fullTree k root) ops) := by
    apply Machine.after_of_forall_mem (P := fun T => WellFormed root T ∧ Canonical T) _ _ hops
    · rintro T op ⟨hwf, hT⟩ hop
      use treeStep_wellFormed hroot hwf 30 op
      obtain hsame | hchange := treeStep_change hwf 30 op
      · rw [hsame]
        exact hT
      · apply hchange.canonical hroot hop hwf hT
    · exact ⟨hrefines.wellFormed, canonical_fullTree hroot hk'⟩
  obtain ⟨⟨t, ht, hlabels⟩, -, -⟩ := hafter
  have heq : Machine.after (treeStep 30) (fullTree k root) ops = carve nets (30 - n) root := by
    apply eq_carve hroot (by omega) hcanonical.1 hcanonical.2
    rintro ⟨id, q⟩
    rw [← hnets, ht.mem_list_iff, hlabels]
    constructor
    · intro he
      exact ⟨he, hcanonical.1.within hroot he⟩
    · rintro ⟨he, -⟩
      exact he
  rw [← heq]
  exact after_models hroot hrefines ops

/-- The manager does not remember its history: after runs without `Reduce` of a new manager of
an IPv4 network that end with equal lists, further operations are answered alike; and the tree
is the full tree down to /30 with the subtrees below the listed networks removed. -/
theorem replies_eq_of_list_eq {root : IPNet} {n : ℕ} (hroot : IsCIDR root n 32) (hn : n ≤ 30)
    {tm : TrieManager} (hnew : newTrieManager root 30 = some tm) {ops ops' : List Op}
    (hops : ∀ op ∈ ops, ∀ id, op ≠ .reduce id) (hops' : ∀ op ∈ ops', ∀ id, op ≠ .reduce id)
    (hlist : ∀ e, e ∈ (Machine.after step tm ops).list ↔ e ∈ (Machine.after step tm ops').list) :
  (∀ more, Machine.replies step (Machine.after step tm ops) more
      = Machine.replies step (Machine.after step tm ops') more)
    ∧ Models (Machine.after step tm ops)
      (carve (Machine.after step tm ops).list (30 - n) root)
  := by
  have h := after_models_carve hroot hn hnew hops hlist
  have h' := after_models_carve hroot hn hnew hops'
    (fun e => (Iff.rfl : e ∈ (Machine.after step tm ops').list ↔ _))
  constructor
  · intro more
    rw [replies_models hroot h, replies_models hroot h']
  · apply (after_models_carve hroot hn hnew hops fun e => Iff.rfl).models

theorem replies_eq_of_list_eq_slash28 :
  ∃ tm, newTrieManager ⟨[10, 0, 0, 0], cidrMask 28 32⟩ 30 = some tm
    ∧ ∀ more, Machine.replies step
        (Machine.after step tm [.allocate "a", .expand "a", .deallocate "a", .allocate "b"]) more
      = Machine.replies step (Machine.after step tm [.allocate "b"]) more
  := by
  have hroot : IsCIDR ⟨[10, 0, 0, 0], cidrMask 28 32⟩ 28 32 :=
    (isCIDR_mk (Or.inl rfl) (by decide) rfl).1
  have hsome : (newTrieManager ⟨[10, 0, 0, 0], cidrMask 28 32⟩ 30).isSome := by decide +kernel
  have hlist : (Machine.after step ((newTrieManager ⟨[10, 0, 0, 0], cidrMask 28 32⟩ 30).get hsome)
        [.allocate "a", .expand "a", .deallocate "a", .allocate "b"]).list
      = (Machine.after step ((newTrieManager ⟨[10, 0, 0, 0], cidrMask 28 32⟩ 30).get hsome)
        [.allocate "b"]).list := by
    clear hroot
    decide +kernel +revert
  have hnew := (Option.some_get hsome).symm
  use (newTrieManager ⟨[10, 0, 0, 0], cidrMask 28 32⟩ 30).get hsome, hnew
  apply (replies_eq_of_list_eq hroot (by decide) hnew (by simp) (by simp) _).1
  rw [hlist]
  simp

end Trie
