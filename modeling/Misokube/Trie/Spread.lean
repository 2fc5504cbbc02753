import Misokube.Lib.Levels
import Misokube.Trie.Expansion

/-!
# Allocating from a new manager

The tree of a new manager is perfect, and `Allocate` marks a leaf with the largest clearance.  So
the tenants are spread evenly: after `2 ^ k` of them, each of the `2 ^ k` networks with `k` more
bits of mask has one (`after_spread`).
-/

namespace Trie

open Net BinaryTree

section

variable {p : IPNet} {ones bits h k : ℕ} {T : BinaryTree Label} {id : String}

theorem perfect_fullTree (h : ℕ) (p : IPNet) :
  Perfect Label.allocated h (fullTree h p)
  := by
  induction h generalizing p with
  | zero => exact ⟨rfl, rfl⟩
  | succ h ih => exact ⟨rfl, ih _, ih _⟩

theorem length_holdings (T : BinaryTree Label) :
  (holdings T).length = marks Label.allocated T
  := by
  rw [holdings, List.length_map, allocatedNodes, marks, List.countP_eq_length_filter]

theorem marks_fullTree (h : ℕ) (p : IPNet) :
  marks Label.allocated (fullTree h p) = 0
  := by
  rw [← length_holdings, holdings_fullTree]
  rfl

/-- The tree of a new manager has no marks to spread. -/
theorem spread_fullTree (h : ℕ) (p : IPNet) :
  Spread Label.allocated h (fullTree h p)
  := by
  intro k hk _ s hs
  obtain ⟨c, -, hplug⟩ := exists_plug_of_mem_level hs
  have hzero := marks_fullTree h p
  rw [hplug, marks_plug] at hzero
  omega

/-- An allocation for a new identifier fails and changes nothing, or adds a mark and keeps the
marks spread. -/
theorem treeAllocate_spread (hperfect : Perfect Label.allocated h T)
    (hspread : Spread Label.allocated h T) (hfresh : ∀ q, (id, q) ∉ holdings T) :
  Perfect Label.allocated h (treeAllocate id T).2
    ∧ Spread Label.allocated h (treeAllocate id T).2
    ∧ marks Label.allocated (treeAllocate id T).2
      = marks Label.allocated T + if (treeAllocate id T).1.isOk then 1 else 0
  := by
  rw [treeAllocate, locate_eq_none_iff.mpr hfresh]
  split
  · exact ⟨hperfect, hspread, rfl⟩
  cases hbest : bestFree T with
  | none => exact ⟨hperfect, hspread, rfl⟩
  | some x => exact hspread.mark hperfect hbest rfl

/-- The allocations of new identifiers from a tree with spread marks keep the marks spread, and
each one that succeeds adds a mark. -/
theorem allocateAll_spread (leafSize : ℤ) (hwf : WellFormed p T)
    (hp : IsCIDR p ones bits) (hperfect : Perfect Label.allocated h T)
    (hspread : Spread Label.allocated h T) {ids : List String} (hnodup : ids.Nodup)
    (hfresh : ∀ i ∈ ids, ∀ q, (i, q) ∉ holdings T) :
  Perfect Label.allocated h (Machine.after (treeStep leafSize) T (ids.map .allocate))
    ∧ Spread Label.allocated h (Machine.after (treeStep leafSize) T (ids.map .allocate))
    ∧ marks Label.allocated (Machine.after (treeStep leafSize) T (ids.map .allocate))
      = marks Label.allocated T
        + (Machine.replies (treeStep leafSize) T (ids.map .allocate)).countP Except.isOk
  := by
  induction ids generalizing T with
  | nil => exact ⟨hperfect, hspread, rfl⟩
  | cons i ids ih =>
    obtain ⟨hi, hnodup⟩ := List.nodup_cons.mp hnodup
    obtain ⟨hperfect', hspread', hmarks'⟩ := treeAllocate_spread hperfect hspread
      (hfresh i List.mem_cons_self)
    have hfresh' : ∀ j ∈ ids, ∀ q, (j, q) ∉ holdings (treeAllocate i T).2 := by
      intro j hj q hq
      have hne : j ≠ i := by
        rintro rfl
        exact hi hj
      apply hfresh j (List.mem_cons_of_mem _ hj) q
      rcases treeAllocate_change hwf i with heq | hchange
      · rwa [heq] at hq
      · exact (hchange.mem_holdings_iff hwf hne).mp hq
    have hwf' := treeStep_wellFormed hp hwf leafSize (.allocate i)
    obtain ⟨hperfect'', hspread'', hmarks''⟩ := ih hwf' hperfect' hspread' hnodup hfresh'
    refine ⟨hperfect'', hspread'', ?_⟩
    rw [List.map_cons, Machine.after_cons, Machine.replies, List.countP_cons]
    apply hmarks''.trans
    rw [treeStep, hmarks']
    have hisOk : (Except.map some (treeAllocate i T).1).isOk = (treeAllocate i T).1.isOk := by
      cases (treeAllocate i T).1 <;> rfl
    rw [hisOk]
    omega

/-- Every address of the network is in the network of a subtree at depth `k`. -/
theorem WellFormed.exists_level (hp : IsCIDR p ones bits) (hwf : WellFormed p T)
    (hperfect : Perfect Label.allocated h T) (hk : k ≤ h) {a : ℕ} (ha : Covers p a) :
  ∃ c s, T = plug c s ∧ c.length = k ∧ s ≠ .nil ∧ Covers (holePrefix p c) a
  := by
  induction k with
  | zero => exact ⟨[], T, rfl, rfl, hwf.ne_nil, ha⟩
  | succ k ih =>
    obtain ⟨c, s, rfl, rfl, hs, ha⟩ := ih (by omega)
    obtain ⟨hc, hwf⟩ := (wellFormed_plug_iff hs).mp hwf
    have hcidr := (hc.isCIDR hp).1
    have hsub := hperfect.of_mem_level (by omega) (mem_level_plug c s)
    rw [show h - c.length = (h - c.length - 1) + 1 by omega] at hsub
    cases s with
    | nil => exact absurd rfl hs
    | node b l r =>
      obtain ⟨-, hl, hr⟩ := hsub
      obtain ⟨-, -, ⟨rfl, -⟩ | ⟨-, hlt, -, -⟩⟩ := hwf
      · exact absurd rfl hl.ne_nil
      rw [hcidr.maskSize] at hlt
      have hbits := hp.family
      have hlt' : ones + c.length < bits := by omega
      rcases Nat.lt_or_ge a (base (holePrefix p c) + 2 ^ (bits - (ones + c.length + 1)))
        with hlow | hhigh
      · refine ⟨⟨false, b, r⟩ :: c, l, rfl, rfl, hl.ne_nil, ?_⟩
        exact (covers_lower_iff hcidr hlt' a).mpr ⟨ha, hlow⟩
      · refine ⟨⟨true, b, l⟩ :: c, r, rfl, rfl, hr.ne_nil, ?_⟩
        exact (covers_upper_iff hcidr hlt' a).mpr ⟨ha, hhigh⟩

/-- With `2 ^ k` spread marks, each network with `k` more bits of mask has one holding. -/
theorem WellFormed.existsUnique_holding (hp : IsCIDR p ones bits) (hwf : WellFormed p T)
    (hperfect : Perfect Label.allocated h T) (hspread : Spread Label.allocated h T) (hk : k ≤ h)
    (hmarks : marks Label.allocated T = 2 ^ k) {q : IPNet} (hq : IsCIDR q (ones + k) bits)
    (hinside : ∀ a, Covers q a → Covers p a) :
  ∃! e, e ∈ holdings T ∧ ∀ a, Covers e.2 a → Covers q a
  := by
  obtain ⟨c, s, rfl, rfl, hs, hbase⟩ := hwf.exists_level hp hperfect hk
    (hinside _ (covers_base q))
  obtain ⟨hc, hwf⟩ := (wellFormed_plug_iff hs).mp hwf
  have hcidr := (hc.isCIDR hp).1
  have hcovers := hq.covers_iff hcidr (covers_base q) hbase
  have hone := hspread.marks_eq_one hperfect hk hmarks (mem_level_plug c s)
  rw [← length_holdings, List.length_eq_one_iff] at hone
  obtain ⟨e, he⟩ := hone
  use e
  constructor
  · constructor
    · rw [mem_holdings_plug, he]
      exact Or.inl (List.mem_singleton_self e)
    · intro a ha
      rw [hcovers]
      apply hwf.covers_of_holding hcidr _ ha
      rw [he]
      apply List.mem_singleton_self
  · rintro e' ⟨he', hinside'⟩
    rw [mem_holdings_plug, he, List.mem_singleton] at he'
    rcases he' with rfl | he'
    · rfl
    · have hbase' := (hcovers _).mp (hinside' _ (covers_base _))
      exact absurd (covers_base _) (hc.not_covers hp he' hbase')

end

/-- After the first `2 ^ k` successful allocations with distinct identifiers from a new manager,
every network with `k` more bits of mask than the root network has exactly one tenant in it, which
can be expanded until it fills the network, but no further. -/
theorem after_spread {root : IPNet} {m : ℕ} (hroot : IsCIDR root m 32) {leafMask k : ℕ}
    (hk : m + k ≤ leafMask) {tm : TrieManager} (hnew : newTrieManager root leafMask = some tm)
    {ids : List String} (hnodup : ids.Nodup)
    (hcount : (Machine.replies step tm (ids.map .allocate)).countP Except.isOk = 2 ^ k) :
  (∀ q, IsCIDR q (m + k) 32 → (∀ a, Covers q a → Covers root a) →
      ∃! e, e ∈ (Machine.after step tm (ids.map .allocate)).list
        ∧ ∀ a, Covers e.2 a → Covers q a)
    ∧ ∀ e ∈ (Machine.after step tm (ids.map .allocate)).list,
      Grows (Machine.after step tm (ids.map .allocate)) e.1 (leafMask - m - k)
  := by
  obtain ⟨h, hrefines, hh⟩ := newTrieManager_models hroot hnew
  obtain rfl : leafMask = m + h := by omega
  have hafter := after_models hroot hrefines (ids.map .allocate)
  have hempty := (after_held_empty hroot hnew (ids.map .allocate)).2
  obtain ⟨hperfect, hspread, hmarks⟩ := allocateAll_spread (m + h : ℕ) hrefines.wellFormed hroot
    (perfect_fullTree h root) (spread_fullTree h root) hnodup (by simp [holdings_fullTree])
  rw [marks_fullTree, Nat.zero_add, ← replies_models hroot hrefines, hcount] at hmarks
  generalize Machine.after step tm (ids.map .allocate) = tm' at hafter hempty ⊢
  generalize Machine.after (treeStep (m + h : ℕ)) (fullTree h root) (ids.map .allocate) = T
    at hafter hperfect hspread hmarks
  simp only [hafter.mem_list_iff]
  constructor
  · intro q hq hinside
    apply hafter.wellFormed.existsUnique_holding hroot hperfect hspread (by omega) hmarks hq hinside
  · rintro ⟨id, q⟩ he
    have hid : id ≠ "" := by
      rintro rfl
      rw [hafter.held_iff.mpr he] at hempty
      simp at hempty
    rcases hlocate : locate (isOf id) [] T with _ | ⟨c, a, l, r⟩
    · exact absurd he (locate_eq_none_iff.mp hlocate q)
    · obtain ⟨rfl, ha, -, -⟩ := locate_wellFormed hafter.wellFormed hlocate
      have halloc : a.allocated = true := by
        rw [ha, allocatedLabel]
      rw [show m + h - m - k = h - k by omega,
        ← hspread.clearance_eq hperfect halloc (by omega) hmarks]
      rw [ha] at hafter
      apply hafter.grows hroot hid

theorem after_spread_slash28 :
  ∃ tm, newTrieManager ⟨[10, 0, 0, 0], cidrMask 28 32⟩ 30 = some tm
    ∧ ∃! e, e ∈ (Machine.after step tm [.allocate "a", .allocate "b"]).list
      ∧ ∀ a, Covers e.2 a → Covers ⟨[10, 0, 0, 8], cidrMask 29 32⟩ a
  := by
  obtain ⟨hroot, tm, hnew⟩ :=
    exists_newTrieManager_ipv4 [10, 0, 0, 0] 28 (30 : ℕ) rfl (by decide) (by decide)
  have hq : IsCIDR ⟨[10, 0, 0, 8], cidrMask 29 32⟩ 29 32 :=
    (isCIDR_mk (Or.inl rfl) (by decide) rfl).1
  have hcount : (newTrieManager ⟨[10, 0, 0, 0], cidrMask 28 32⟩ 30).map (fun tm =>
      (Machine.replies step tm (["a", "b"].map .allocate)).countP Except.isOk) = some (2 ^ 1) := by
    decide +kernel
  rw [show (30 : ℤ) = (30 : ℕ) by rfl, hnew, Option.map_some, Option.some.injEq] at hcount
  use tm, hnew
  apply (after_spread (k := 1) hroot (by decide) hnew (by decide) hcount).1 _ hq
  have hblocks : base ⟨[10, 0, 0, 8], cidrMask 29 32⟩ = base ⟨[10, 0, 0, 0], cidrMask 28 32⟩ + 8
      ∧ size ⟨[10, 0, 0, 8], cidrMask 29 32⟩ = 8
      ∧ size ⟨[10, 0, 0, 0], cidrMask 28 32⟩ = 16 := by
    decide
  intro a ha
  rw [Covers] at ha ⊢
  omega

end Trie
