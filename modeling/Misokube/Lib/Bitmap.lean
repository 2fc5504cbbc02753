import Mathlib.Algebra.GroupWithZero.Nat
import Mathlib.Data.Finset.Card
import Mathlib.Data.Finset.Dedup
import Mathlib.Data.List.Range

/-!
# Bitmaps

A bitmap is a list of words of `w` bits; its position `i` is bit `i % w` of word `i / w`, and
positions beyond the last word are not set.  `marked` is the set of the positions that are set,
which `set` and `clear` change at one position, and `used`, the sum of the numbers of ones of
the words, is its size (`used_eq_card`).
-/

namespace Bitmap

variable {w : ℕ}

/-- Position `i` is set. -/
def test (m : List (BitVec w)) (i : ℕ) : Bool :=
  ((m[i / w]?).getD 0).getLsbD (i % w)

/-- The bitmap with position `i` set. -/
def set (m : List (BitVec w)) (i : ℕ) : List (BitVec w) :=
  m.modify (i / w) (· ||| 1#w <<< (i % w))

/-- The bitmap with position `i` not set. -/
def clear (m : List (BitVec w)) (i : ℕ) : List (BitVec w) :=
  m.modify (i / w) (· &&& ~~~(1#w <<< (i % w)))

/-- The number of ones of a word. -/
def onesCount (v : BitVec w) : ℕ :=
  (List.range w).countP v.getLsbD

/-- The number of zeros before the lowest one of a word, `w` if it has no one. -/
def trailingZeros (v : BitVec w) : ℕ :=
  ((List.range w).find? v.getLsbD).getD w

/-- The number of ones of all words. -/
def used (m : List (BitVec w)) : ℕ :=
  (m.map onesCount).sum

/-- The positions that are set. -/
def marked (m : List (BitVec w)) : Finset ℕ :=
  ((List.range (w * m.length)).filter (test m)).toFinset

/-! ### Positions -/

@[simp]
theorem length_set (m : List (BitVec w)) (i : ℕ) :
  (set m i).length = m.length
  := List.length_modify _ _ _

@[simp]
theorem length_clear (m : List (BitVec w)) (i : ℕ) :
  (clear m i).length = m.length
  := List.length_modify _ _ _

/-- A position that is set is in a word. -/
theorem lt_of_test {m : List (BitVec w)} {i : ℕ} (h : test m i = true) :
  i < w * m.length
  := by
  rw [test] at h
  have hw : 0 < w := by
    have := BitVec.lt_of_getLsbD h
    omega
  by_contra hle
  have hword : m.length ≤ i / w := by
    rw [Nat.le_div_iff_mul_le hw, Nat.mul_comm]
    omega
  rw [List.getElem?_eq_none hword] at h
  simp at h

theorem eq_of_div_mod {i j : ℕ} (hdiv : i / w = j / w) (hmod : i % w = j % w) :
  i = j
  := by
  rw [← Nat.div_add_mod i w, ← Nat.div_add_mod j w, hdiv, hmod]

theorem getLsbD_one_shiftLeft (i : ℕ) {j : ℕ} (hj : j < w) :
  (1#w <<< i).getLsbD j = decide (j = i)
  := by
  have hw : 0 < w := by omega
  simp only [BitVec.getLsbD_shiftLeft, BitVec.getLsbD_one, hj, decide_true, Bool.true_and, hw]
  by_cases h : j < i
  · simp [h]
    omega
  · simp [h]
    omega

theorem test_set {m : List (BitVec w)} {i : ℕ} (hi : i < w * m.length) (j : ℕ) :
  test (set m i) j = (decide (j = i) || test m j)
  := by
  have hw : 0 < w := Nat.pos_of_mul_pos_right (by omega : 0 < w * m.length)
  have hword : i / w < m.length := by
    rw [Nat.div_lt_iff_lt_mul hw, Nat.mul_comm]
    exact hi
  have hmod := Nat.mod_lt j hw
  rw [test, test, set]
  by_cases hdiv : i / w = j / w
  · have hget : m[j / w]? = some m[i / w] := by
      rw [← hdiv, List.getElem?_eq_getElem hword]
    rw [hdiv, List.getElem?_modify_eq, hget]
    simp only [Option.map_eq_map, Option.map_some, Option.getD_some, BitVec.getLsbD_or,
      getLsbD_one_shiftLeft _ hmod]
    rw [Bool.or_comm]
    congr 1
    simp only [decide_eq_decide]
    constructor
    · intro h
      apply eq_of_div_mod hdiv.symm h
    · rintro rfl
      rfl
  · rw [List.getElem?_modify_ne _ _ hdiv]
    have hne : j ≠ i := by
      rintro rfl
      exact hdiv rfl
    simp [hne]

theorem test_clear (m : List (BitVec w)) (i j : ℕ) :
  test (clear m i) j = (decide (j ≠ i) && test m j)
  := by
  rw [test, test, clear]
  by_cases hdiv : i / w = j / w
  · rw [hdiv, List.getElem?_modify_eq]
    cases hget : m[j / w]? with
    | none => simp
    | some v =>
      simp only [Option.map_eq_map, Option.map_some, Option.getD_some, BitVec.getLsbD_and,
        BitVec.getLsbD_not]
      by_cases hw : 0 < w
      · have hmod := Nat.mod_lt j hw
        have hiff : j % w = i % w ↔ j = i := by
          constructor
          · intro h
            apply eq_of_div_mod hdiv.symm h
          · rintro rfl
            rfl
        rw [getLsbD_one_shiftLeft _ hmod, Bool.and_comm]
        simp [hmod, hiff]
      · obtain rfl : w = 0 := by omega
        simp
  · rw [List.getElem?_modify_ne _ _ hdiv]
    have hne : j ≠ i := by
      rintro rfl
      exact hdiv rfl
    simp [hne]

/-- Clearing a position that was set before undoes it, if it was not set. -/
theorem clear_set {m : List (BitVec w)} {i : ℕ} (h : test m i = false) :
  clear (set m i) i = m
  := by
  apply List.ext_getElem?
  intro k
  rw [clear, set]
  by_cases hk : i / w = k
  · subst hk
    rw [List.getElem?_modify_eq, List.getElem?_modify_eq]
    cases hget : m[i / w]? with
    | none => rfl
    | some v =>
      rw [test, hget, Option.getD_some] at h
      simp only [Option.map_eq_map, Option.map_some, Option.some.injEq]
      apply BitVec.eq_of_getLsbD_eq
      intro j hj
      rw [BitVec.getLsbD_and, BitVec.getLsbD_or, BitVec.getLsbD_not, getLsbD_one_shiftLeft _ hj]
      by_cases hji : j = i % w
      · simp [hji, h]
      · simp [hji, hj]
  · rw [List.getElem?_modify_ne _ _ hk, List.getElem?_modify_ne _ _ hk]

theorem test_replicate (n i : ℕ) :
  test (List.replicate n (0 : BitVec w)) i = false
  := by
  rw [test, List.getElem?_replicate]
  split <;> simp

/-- The positions of the first word. -/
theorem test_cons_low (v : BitVec w) (m : List (BitVec w)) {i : ℕ} (hi : i < w) :
  test (v :: m) i = v.getLsbD i
  := by
  simp [test, Nat.div_eq_of_lt hi, Nat.mod_eq_of_lt hi]

/-- The positions of the other words. -/
theorem test_cons_high (v : BitVec w) (m : List (BitVec w)) (hw : 0 < w) (i : ℕ) :
  test (v :: m) (w + i) = test m i
  := by
  simp [test, Nat.add_div_left i hw]

/-! ### The set of marked positions -/

@[simp]
theorem mem_marked {m : List (BitVec w)} {i : ℕ} :
  i ∈ marked m ↔ test m i = true
  := by
  rw [marked, List.mem_toFinset, List.mem_filter, List.mem_range]
  apply and_iff_right_of_imp lt_of_test

/-- The number of ones is the number of marked positions. -/
theorem used_eq_card (m : List (BitVec w)) :
  used m = (marked m).card
  := by
  have hcount : used m = (List.range (w * m.length)).countP (test m) := by
    induction m with
    | nil => rfl
    | cons v m ih =>
      -- the positions of the first word, and those of the other words moved up by `w`
      have hlow : (List.range w).countP (test (v :: m)) = onesCount v := by
        apply List.countP_congr
        intro i hi
        rw [test_cons_low v m (List.mem_range.mp hi)]
      have hhigh : ((List.range (w * m.length)).map (w + ·)).countP (test (v :: m)) = used m := by
        rw [List.countP_map, ih]
        apply List.countP_congr
        intro i hi
        rw [List.mem_range] at hi
        have hw : 0 < w := Nat.pos_of_mul_pos_right (by omega : 0 < w * m.length)
        rw [Function.comp_apply, test_cons_high v m hw]
      rw [List.length_cons, Nat.mul_succ, Nat.add_comm, List.range_add, List.countP_append, hlow,
        hhigh, used, List.map_cons, List.sum_cons]
      rfl
  rw [hcount, marked, List.toFinset_card_of_nodup (List.nodup_range.filter _),
    List.countP_eq_length_filter]

/-! ### The lowest zero of a word -/

/-- A word that is not all ones has a lowest zero. -/
theorem trailingZeros_not {v : BitVec w} (h : ~~~v ≠ 0) :
  trailingZeros (~~~v) < w ∧ v.getLsbD (trailingZeros (~~~v)) = false
    ∧ ∀ j < trailingZeros (~~~v), v.getLsbD j = true
  := by
  rw [trailingZeros]
  cases hfind : (List.range w).find? (~~~v).getLsbD with
  | none =>
    exfalso
    apply h
    rw [List.find?_eq_none] at hfind
    ext i hi
    have hbit := hfind i (List.mem_range.mpr hi)
    rw [BitVec.getLsbD_eq_getElem hi] at hbit
    simpa using hbit
  | some i =>
    rw [List.find?_range_eq_some] at hfind
    obtain ⟨hbit, hi, hlow⟩ := hfind
    rw [List.mem_range] at hi
    simp only [Option.getD_some]
    refine ⟨hi, ?_, ?_⟩
    · simpa [hi] using hbit
    · intro j hj
      have hlt : j < w := by omega
      simpa [hlt] using hlow j hj

end Bitmap
