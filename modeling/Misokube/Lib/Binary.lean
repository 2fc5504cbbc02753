import Mathlib.Tactic.Ring
import Misokube.Lib.Decoder

/-!
# Numbers as bytes

Two encodings of Go's package `encoding/binary`.  A 32-bit number is 4 bytes, the most significant
first.  A 64-bit number of variable length is in groups of 7 bits, the lowest first; all bytes but
the last have their highest bit set.  Every number is read back from its encoding
(`uint32_putUint32`, `readUvarint_reads`).
-/

namespace Binary

open Decoder

variable {ε : Type}

/-! ### Numbers of 32 bits -/

/-- The bytes of a number, the most significant first. -/
def putUint32 (v : UInt32) : List UInt8 :=
  [(v >>> 24).toUInt8, (v >>> 16).toUInt8, (v >>> 8).toUInt8, v.toUInt8]

def uint32 (a b c d : UInt8) : UInt32 :=
  d.toUInt32 ||| c.toUInt32 <<< 8 ||| b.toUInt32 <<< 16 ||| a.toUInt32 <<< 24

/-- A byte is added in front of lower bits. -/
theorem toNat_or_byte {x s : UInt32} (b : UInt8) (hs : s.toNat ≤ 24)
    (hx : x.toNat < 2 ^ s.toNat) :
  (x ||| b.toUInt32 <<< s).toNat = x.toNat + b.toNat * 2 ^ s.toNat
  := by
  have hb : b.toNat < 2 ^ 8 := b.toNat_lt
  have hs' : s.toNat % 32 = s.toNat := Nat.mod_eq_of_lt (by omega)
  have hfits : b.toNat * 2 ^ s.toNat < 2 ^ 32 := by
    calc b.toNat * 2 ^ s.toNat < 2 ^ 8 * 2 ^ s.toNat :=
          Nat.mul_lt_mul_of_pos_right hb (Nat.two_pow_pos _)
      _ = 2 ^ (8 + s.toNat) := (Nat.pow_add 2 8 s.toNat).symm
      _ ≤ 2 ^ 32 := Nat.pow_le_pow_right (by decide) (by omega)
  rw [UInt32.toNat_or, UInt32.toNat_shiftLeft, UInt8.toNat_toUInt32, hs', Nat.shiftLeft_eq,
    Nat.mod_eq_of_lt hfits, Nat.or_comm, Nat.mul_comm, ← Nat.two_pow_add_eq_or_of_lt hx,
    Nat.add_comm]

theorem toNat_uint32 (a b c d : UInt8) :
  (uint32 a b c d).toNat = d.toNat + c.toNat * 2 ^ 8 + b.toNat * 2 ^ 16 + a.toNat * 2 ^ 24
  := by
  have hd : d.toUInt32.toNat < 2 ^ 8 := by
    rw [UInt8.toNat_toUInt32]
    apply d.toNat_lt
  have hc := c.toNat_lt
  have hb := b.toNat_lt
  have hlow : (d.toUInt32 ||| c.toUInt32 <<< 8).toNat = d.toNat + c.toNat * 2 ^ 8 := by
    apply (toNat_or_byte c (by decide) hd).trans
    rw [UInt8.toNat_toUInt32]
    rfl
  have hmid : (d.toUInt32 ||| c.toUInt32 <<< 8 ||| b.toUInt32 <<< 16).toNat
      = d.toNat + c.toNat * 2 ^ 8 + b.toNat * 2 ^ 16 := by
    rw [← hlow]
    apply toNat_or_byte b (by decide)
    change _ < 2 ^ 16
    rw [UInt8.toNat_toUInt32] at hd
    omega
  rw [uint32, ← hmid]
  apply toNat_or_byte a (by decide)
  change _ < 2 ^ 24
  rw [UInt8.toNat_toUInt32] at hd
  omega

/-- A number is read back from its bytes. -/
theorem uint32_putUint32 (v : UInt32) :
  uint32 (v >>> 24).toUInt8 (v >>> 16).toUInt8 (v >>> 8).toUInt8 v.toUInt8 = v
  := by
  have hv := v.toNat_lt
  have hshift : ∀ s : UInt32, s.toNat < 32 → (v >>> s).toUInt8.toNat
      = v.toNat / 2 ^ s.toNat % 2 ^ 8 := by
    intro s hs
    rw [UInt32.toNat_toUInt8, UInt32.toNat_shiftRight, Nat.mod_eq_of_lt hs,
      Nat.shiftRight_eq_div_pow]
  apply UInt32.toNat_inj.mp
  rw [toNat_uint32, hshift 8 (by decide), hshift 16 (by decide), hshift 24 (by decide),
    UInt32.toNat_toUInt8]
  change _ + v.toNat / 2 ^ 8 % 2 ^ 8 * 2 ^ 8 + v.toNat / 2 ^ 16 % 2 ^ 8 * 2 ^ 16
    + v.toNat / 2 ^ 24 % 2 ^ 8 * 2 ^ 24 = _
  omega

/-! ### Numbers of variable length -/

/-- The bytes of a number. -/
def putUvarint (x : UInt64) : List UInt8 :=
  if 0x80 ≤ x then (x.toUInt8 ||| 0x80) :: putUvarint (x >>> 7)
  else [x.toUInt8]
termination_by x.toNat
decreasing_by
  rename_i h
  have h' : 128 ≤ x.toNat := UInt64.le_iff_toNat_le.mp h
  have hshift : (x >>> 7).toNat = x.toNat / 128 := Nat.shiftRight_eq_div_pow x.toNat 7
  omega

def maxVarintLen64 : ℕ := 10

/-- Reads the bytes of a number from the `i`-th on, at most as many as the first argument says; `x`
is the number so far. -/
def readUvarintFrom : ℕ → ℕ → UInt64 → Decoder ε UInt64
  | 0, _, _ => throw .overflow
  | fuel + 1, i, x => do
    let b ← readByte (if 0 < i then .unexpectedEOF else .eof)
    if b < 0x80 then
      if i = maxVarintLen64 - 1 ∧ 1 < b then throw .overflow
      else pure (x ||| b.toUInt64 <<< UInt64.ofNat (7 * i))
    else readUvarintFrom fuel (i + 1) (x ||| (b &&& 0x7f).toUInt64 <<< UInt64.ofNat (7 * i))

def readUvarint : Decoder ε UInt64 :=
  readUvarintFrom maxVarintLen64 0 0

/-- A byte with the highest bit set. -/
theorem continued (c : UInt8) :
  ¬ c ||| 0x80 < 0x80 ∧ ((c ||| 0x80) &&& 0x7f).toNat = c.toNat % 128
  := by
  have h : ∀ c : Fin 256, ¬ UInt8.ofFin c ||| 0x80 < 0x80
      ∧ ((UInt8.ofFin c ||| 0x80) &&& 0x7f).toNat = c.val % 128 := by
    decide +kernel
  apply h c.toFin

/-- Higher bits are added to a number. -/
theorem toNat_or_shiftLeft {x y : UInt64} {s : ℕ} (hs : s < 64) (hx : x.toNat < 2 ^ s)
    (hy : y.toNat * 2 ^ s < 2 ^ 64) :
  (x ||| y <<< UInt64.ofNat s).toNat = x.toNat + y.toNat * 2 ^ s
  := by
  have hs' : s % 2 ^ 64 % 64 = s := by omega
  rw [UInt64.toNat_or, UInt64.toNat_shiftLeft, UInt64.toNat_ofNat', hs', Nat.shiftLeft_eq,
    Nat.mod_eq_of_lt hy, Nat.or_comm, Nat.mul_comm, ← Nat.two_pow_add_eq_or_of_lt hx, Nat.add_comm]

section

variable {fuel i : ℕ} {x y z : UInt64}

/-- The last byte of a number. -/
theorem readUvarintFrom_last (hi : i < maxVarintLen64) (hx : x.toNat < 2 ^ (7 * i))
    (hy : y.toNat * 2 ^ (7 * i) < 2 ^ 64) (hz : z.toNat = x.toNat + y.toNat * 2 ^ (7 * i))
    (hsmall : y.toNat < 128) :
  Reads (readUvarintFrom (fuel + 1) i x : Decoder ε UInt64) [y.toUInt8] z
  := by
  rw [maxVarintLen64] at hi
  have hbyte : y.toUInt8.toNat = y.toNat := by
    rw [UInt64.toNat_toUInt8]
    omega
  have hlast : y.toUInt8 < 0x80 := by
    apply UInt8.lt_iff_toNat_lt.mpr
    rw [hbyte]
    exact hsmall
  have hfits : ¬ (i = maxVarintLen64 - 1 ∧ 1 < y.toUInt8) := by
    rintro ⟨rfl, hone⟩
    have hone' := UInt8.lt_iff_toNat_lt.mp hone
    rw [hbyte, UInt8.toNat_one] at hone'
    rw [maxVarintLen64] at hy
    omega
  have hvalue : x ||| y.toUInt8.toUInt64 <<< UInt64.ofNat (7 * i) = z := by
    have hy' : y.toUInt8.toUInt64 = y := by
      apply UInt64.toNat_inj.mp
      rw [UInt8.toNat_toUInt64, hbyte]
    apply UInt64.toNat_inj.mp
    rw [hy', toNat_or_shiftLeft (by omega) hx hy, hz]
  rw [readUvarintFrom]
  apply Reads.cons
  rw [if_pos hlast, if_neg hfits, hvalue]
  apply Reads.pure

/-- From the `i`-th byte on, the bytes of `y` are read as the higher bits. -/
theorem readUvarintFrom_reads (hfuel : fuel + i = maxVarintLen64) (hi : i < maxVarintLen64)
    (hx : x.toNat < 2 ^ (7 * i)) (hy : y.toNat * 2 ^ (7 * i) < 2 ^ 64)
    (hz : z.toNat = x.toNat + y.toNat * 2 ^ (7 * i)) :
  Reads (readUvarintFrom fuel i x : Decoder ε UInt64) (putUvarint y) z
  := by
  induction fuel generalizing i x y with
  | zero => omega
  | succ fuel ih =>
    rw [putUvarint.eq_def]
    by_cases hlarge : 0x80 ≤ y
    · rw [if_pos hlarge, readUvarintFrom]
      rw [maxVarintLen64] at hfuel hi
      have hlarge' : 128 ≤ y.toNat := UInt64.le_iff_toNat_le.mp hlarge
      have hhigh : (y >>> 7).toNat = y.toNat / 128 := Nat.shiftRight_eq_div_pow y.toNat 7
      obtain ⟨hcontinued, hlow⟩ := continued y.toUInt8
      have hlow' : ((y.toUInt8 ||| 0x80) &&& 0x7f).toUInt64.toNat = y.toNat % 128 := by
        rw [UInt8.toNat_toUInt64, hlow, UInt64.toNat_toUInt8]
        omega
      have hpow : 2 ^ (7 * (i + 1)) = 128 * 2 ^ (7 * i) := by
        rw [Nat.mul_add, Nat.pow_add, Nat.mul_comm]
      -- the bits of `y` are the low ones and the others
      have hsplit : y.toNat * 2 ^ (7 * i)
          = y.toNat % 128 * 2 ^ (7 * i) + y.toNat / 128 * 2 ^ (7 * (i + 1)) := by
        rw [hpow, ← Nat.mul_assoc, ← Nat.add_mul]
        congr 1
        omega
      have hx' : (x ||| ((y.toUInt8 ||| 0x80) &&& 0x7f).toUInt64 <<< UInt64.ofNat (7 * i)).toNat
          = x.toNat + y.toNat % 128 * 2 ^ (7 * i) := by
        have hfits : ((y.toUInt8 ||| 0x80) &&& 0x7f).toUInt64.toNat * 2 ^ (7 * i) < 2 ^ 64 := by
          rw [hlow']
          omega
        rw [toNat_or_shiftLeft (by omega) hx hfits, hlow']
      have hbound : y.toNat % 128 * 2 ^ (7 * i) ≤ 127 * 2 ^ (7 * i) := by
        apply Nat.mul_le_mul_right
        omega
      have hmore : i + 1 < 10 := by
        by_contra hnot
        obtain rfl : i = 9 := by omega
        omega
      apply Reads.cons
      rw [if_neg hcontinued]
      apply ih
      · rw [maxVarintLen64]
        omega
      · exact hmore
      · rw [hx', hpow]
        omega
      · rw [hhigh]
        omega
      · rw [hx', hhigh]
        omega
    · rw [if_neg hlarge]
      apply readUvarintFrom_last hi hx hy hz
      apply Nat.lt_of_not_le
      intro hnot
      apply hlarge
      apply UInt64.le_iff_toNat_le.mpr
      exact hnot

end

theorem readUvarint_reads (x : UInt64) :
  Reads (readUvarint : Decoder ε UInt64) (putUvarint x) x
  := by
  apply readUvarintFrom_reads
  · rfl
  · decide
  · decide
  · simpa using x.toNat_lt
  · simp

end Binary
