import Mathlib.Data.Nat.ModEq
import Mathlib.Tactic.Ring
import Mathlib.Data.List.Basic

/-!
# IP addresses, masks and networks

The types and functions of Go's package `net` that the program uses, over byte slices: a nil
slice is the empty list.  Addresses are read as numbers, the most significant byte first.  A
network in CIDR form with `ones` leading mask bits out of `bits` covers the numbers from its
`base` on, `2 ^ (bits - ones)` many; for an IPv4 network these are exactly the addresses
`contains` accepts.
-/

namespace Net

/-- An IP address: 4 or 16 bytes, or nil. -/
abbrev IP := List UInt8

/-- An IP mask: 4 or 16 bytes, or nil. -/
abbrev IPMask := List UInt8

/-- A network: an address and a mask. -/
structure IPNet where
  ip : IP
  mask : IPMask
deriving DecidableEq

/-- The first 12 bytes of an IPv4 address in 16-byte form. -/
def v4InV6Prefix : List UInt8 :=
  [0, 0, 0, 0, 0, 0, 0, 0, 0, 0, 0xff, 0xff]

/-- The 4-byte form of an IPv4 address, nil for any other address. -/
def to4 (ip : IP) : IP :=
  if ip.length = 4 then ip
  else if ip.length = 16 ∧ ip.take 12 = v4InV6Prefix then ip.drop 12
  else []

/-- The bytes of the address and the mask, one by one; nil if their lengths do not fit. -/
def maskIP (ip : IP) (mask : IPMask) : IP :=
  let mask :=
    if mask.length = 16 ∧ ip.length = 4 ∧ (mask.take 12).all (· == 0xff) then mask.drop 12
    else mask
  let ip :=
    if mask.length = 4 ∧ ip.length = 16 ∧ ip.take 12 = v4InV6Prefix then ip.drop 12
    else ip
  if ip.length ≠ mask.length then [] else List.zipWith (· &&& ·) ip mask

/-- Equality of addresses, the 4-byte and the 16-byte form of an IPv4 address being equal. -/
def equalIP (ip x : IP) : Bool :=
  if ip.length = x.length then ip == x
  else if ip.length = 4 ∧ x.length = 16 then x.take 12 == v4InV6Prefix && ip == x.drop 12
  else if ip.length = 16 ∧ x.length = 4 then ip.take 12 == v4InV6Prefix && ip.drop 12 == x
  else false

/-- `l` bytes of which the first `n` bits are set. -/
def maskBytes : ℕ → ℕ → List UInt8
  | 0, _ => []
  | l + 1, n =>
    if 8 ≤ n then 0xff :: maskBytes l (n - 8)
    else ~~~(0xff >>> UInt8.ofNat n) :: maskBytes l 0

/-- The mask of `bits` bits with `ones` leading ones. -/
def cidrMask (ones bits : ℕ) : IPMask :=
  if bits ≠ 32 ∧ bits ≠ 128 then []
  else if bits < ones then []
  else maskBytes (bits / 8) ones

/-- Shifts out the leading ones of a byte, at most `fuel` many, and counts them. -/
def shiftOnes : ℕ → UInt8 → ℕ × UInt8
  | 0, v => (0, v)
  | fuel + 1, v =>
    if v &&& 0x80 ≠ 0 then ((shiftOnes fuel (v <<< 1)).1 + 1, (shiftOnes fuel (v <<< 1)).2)
    else (0, v)

/-- The number of leading ones of a mask in which only zeros follow them. -/
def simpleMaskLength : IPMask → Option ℕ
  | [] => some 0
  | v :: mask =>
    if v = 0xff then (simpleMaskLength mask).map (8 + ·)
    else if (shiftOnes 8 v).2 ≠ 0 then none
    else if mask.all (· == 0) then some (shiftOnes 8 v).1
    else none

/-- The number of leading ones of a mask and its number of bits; `(0, 0)` if the ones are not
followed by zeros only. -/
def maskSize (mask : IPMask) : ℕ × ℕ :=
  match simpleMaskLength mask with
  | none => (0, 0)
  | some ones => (ones, mask.length * 8)

/-- The address of a network in its shortest form, and the mask of that length. -/
def networkNumberAndMask (n : IPNet) : IP × IPMask :=
  let ip := if to4 n.ip ≠ [] then to4 n.ip else n.ip
  if ip.length ≠ 4 ∧ ip.length ≠ 16 then ([], [])
  else if n.mask.length = 4 then (if ip.length ≠ 4 then ([], []) else (ip, n.mask))
  else if n.mask.length = 16 then (ip, if ip.length = 4 then n.mask.drop 12 else n.mask)
  else ([], [])

/-- The network includes the address. -/
def contains (n : IPNet) (ip : IP) : Bool :=
  let nm := networkNumberAndMask n
  let ip := if to4 ip ≠ [] then to4 ip else ip
  if ip.length ≠ nm.1.length then false
  else List.zipWith (· &&& ·) nm.1 nm.2 == List.zipWith (· &&& ·) ip nm.2

/-! ### Addresses as numbers -/

/-- The number with the given bytes, the most significant byte first. -/
def toNat : IP → ℕ
  | [] => 0
  | b :: ip => b.toNat * 256 ^ ip.length + toNat ip

@[simp]
theorem toNat_nil :
  toNat [] = 0
  := rfl

theorem toNat_cons (b : UInt8) (ip : IP) :
  toNat (b :: ip) = b.toNat * 256 ^ ip.length + toNat ip
  := rfl

theorem toNat_lt (ip : IP) :
  toNat ip < 256 ^ ip.length
  := by
  induction ip with
  | nil => simp
  | cons b ip ih =>
    have hb : b.toNat + 1 ≤ 256 := b.toNat_lt
    calc toNat (b :: ip) < b.toNat * 256 ^ ip.length + 256 ^ ip.length := by
          rw [toNat_cons]
          omega
      _ = (b.toNat + 1) * 256 ^ ip.length := by ring
      _ ≤ 256 * 256 ^ ip.length := Nat.mul_le_mul_right _ hb
      _ = 256 ^ (b :: ip).length := by rw [List.length_cons, pow_succ']

/-- Addresses of one length are determined by their numbers. -/
theorem toNat_injective {ip x : IP} (hlength : ip.length = x.length) (h : toNat ip = toNat x) :
  ip = x
  := by
  induction ip generalizing x with
  | nil =>
    symm
    apply List.eq_nil_of_length_eq_zero hlength.symm
  | cons b ip ih =>
    obtain _ | ⟨c, x⟩ := x
    · simp at hlength
    rw [List.length_cons, List.length_cons, Nat.add_right_cancel_iff] at hlength
    rw [toNat_cons, toNat_cons, hlength] at h
    have hip := toNat_lt ip
    have hx := toNat_lt x
    rw [hlength] at hip
    have hdiv := congrArg (· / 256 ^ x.length) h
    have hmod := congrArg (· % 256 ^ x.length) h
    simp only [Nat.mul_add_mod', Nat.mod_eq_of_lt hip, Nat.mod_eq_of_lt hx] at hmod
    have hpos : 0 < 256 ^ x.length := Nat.pow_pos (by decide)
    simp only [Nat.add_comm (_ * _), Nat.add_mul_div_right _ _ hpos, Nat.div_eq_of_lt hip,
      Nat.div_eq_of_lt hx, Nat.zero_add] at hdiv
    rw [UInt8.toNat_inj.mp hdiv, ih hlength hmod]

/-! ### Masks -/

/-- An address and a mask of one length are combined byte by byte. -/
theorem maskIP_of_length_eq {ip : IP} {mask : IPMask} (h : ip.length = mask.length) :
  maskIP ip mask = List.zipWith (· &&& ·) ip mask
  := by
  have hmask : ¬ (mask.length = 16 ∧ ip.length = 4 ∧ (mask.take 12).all (· == 0xff)) := by
    omega
  have hip : ¬ (mask.length = 4 ∧ ip.length = 16 ∧ ip.take 12 = v4InV6Prefix) := by
    omega
  simp only [maskIP, if_neg hmask, if_neg hip]
  rw [if_neg (not_not.mpr h)]

theorem length_maskBytes (l n : ℕ) :
  (maskBytes l n).length = l
  := by
  induction l generalizing n with
  | zero => rfl
  | succ l ih =>
    rw [maskBytes]
    split <;> simp [ih]

theorem and_ones (b : UInt8) :
  b &&& 0xff = b
  := by
  apply UInt8.toNat_inj.mp
  rw [UInt8.toNat_and]
  apply Nat.and_two_pow_sub_one_of_lt_two_pow (n := 8) b.toNat_lt

/-- A byte and the byte of `n` leading ones is the byte rounded down to a multiple of
`2 ^ (8 - n)`. -/
theorem toNat_and_leadingOnes (b : UInt8) {n : ℕ} (hn : n < 8) :
  (b &&& ~~~(0xff >>> UInt8.ofNat n)).toNat = b.toNat / 2 ^ (8 - n) * 2 ^ (8 - n)
  := by
  have h : ∀ b : Fin 256, ∀ n : Fin 8,
      (UInt8.ofFin b &&& ~~~(0xff >>> UInt8.ofNat n.val)).toNat
        = b.val / 2 ^ (8 - n.val) * 2 ^ (8 - n.val) := by
    decide +kernel
  apply h b.toFin ⟨n, hn⟩

/-- Masking rounds an address down to a multiple of the number of addresses that share its
masked bits. -/
theorem toNat_and_maskBytes (ip : IP) {n : ℕ} (hn : n ≤ 8 * ip.length) :
  toNat (List.zipWith (· &&& ·) ip (maskBytes ip.length n))
    = toNat ip / 2 ^ (8 * ip.length - n) * 2 ^ (8 * ip.length - n)
  := by
  induction ip generalizing n with
  | nil => simp
  | cons b ip ih =>
    have hlt := toNat_lt ip
    have hpow : 256 ^ ip.length = 2 ^ (8 * ip.length) := pow_mul 2 8 ip.length |>.symm
    rw [List.length_cons] at hn ⊢
    rw [maskBytes]
    split
    case isTrue h8 =>
      -- the first byte is kept, and the remaining ones mask the remaining bytes
      have hn' : n - 8 ≤ 8 * ip.length := by omega
      have hexp : 8 * (ip.length + 1) - n = 8 * ip.length - (n - 8) := by omega
      rw [List.zipWith_cons_cons, toNat_cons, toNat_cons, and_ones, ih hn', hexp, hpow,
        List.length_zipWith, length_maskBytes, Nat.min_self, hpow]
      obtain ⟨k, hk⟩ := Nat.exists_eq_add_of_le (Nat.sub_le (8 * ip.length) (n - 8))
      have hsplit : 2 ^ (8 * ip.length) = 2 ^ (8 * ip.length - (n - 8)) * 2 ^ k := by
        rw [← pow_add, ← hk]
      set d := 2 ^ (8 * ip.length - (n - 8)) with hd
      have hdpos : 0 < d := Nat.two_pow_pos _
      rw [hsplit, show b.toNat * (d * 2 ^ k) + toNat ip = toNat ip + d * (b.toNat * 2 ^ k) by ring,
        Nat.add_mul_div_left _ _ hdpos]
      ring
    case isFalse h8 =>
      -- the remaining bytes are cleared
      have hexp : 8 * (ip.length + 1) - n = 8 * ip.length + (8 - n) := by omega
      rw [List.zipWith_cons_cons, toNat_cons, toNat_cons,
        toNat_and_leadingOnes b (by omega), ih (Nat.zero_le _), hexp, Nat.sub_zero, hpow,
        List.length_zipWith, length_maskBytes, Nat.min_self, hpow, pow_add]
      have hzero : toNat ip / 2 ^ (8 * ip.length) = 0 := by
        apply Nat.div_eq_of_lt
        rw [← hpow]
        exact hlt
      have hdiv : (b.toNat * 2 ^ (8 * ip.length) + toNat ip) / 2 ^ (8 * ip.length) = b.toNat := by
        rw [Nat.add_comm, Nat.add_mul_div_right _ _ (Nat.two_pow_pos _), hzero, Nat.zero_add]
      rw [hzero, ← Nat.div_div_eq_div_mul, hdiv]
      ring

/-- The complement of an address. -/
theorem toNat_complement (ip : IP) :
  toNat (ip.map (~~~·)) = 256 ^ ip.length - 1 - toNat ip
  := by
  induction ip with
  | nil => rfl
  | cons b ip ih =>
    have hlt := toNat_lt ip
    have hb := b.toNat_lt
    rw [List.map_cons, toNat_cons, toNat_cons, List.length_map, List.length_cons, ih,
      UInt8.toNat_not, pow_succ]
    set N := 256 ^ ip.length
    have hsplit : 256 * N = b.toNat * N + (256 - 1 - b.toNat) * N + N := by
      rw [← Nat.add_mul, Nat.add_sub_cancel' (by omega)]
      omega
    rw [UInt8.size]
    omega

/-- Setting the bits outside of the mask rounds an address up to the last one that shares its
masked bits. -/
theorem toNat_or_complement_maskBytes (ip : IP) {n : ℕ} (hn : n ≤ 8 * ip.length) :
  toNat (List.zipWith (fun b m => b ||| ~~~m) ip (maskBytes ip.length n))
    = toNat ip / 2 ^ (8 * ip.length - n) * 2 ^ (8 * ip.length - n)
      + (2 ^ (8 * ip.length - n) - 1)
  := by
  -- by De Morgan, the complement of the masked complement
  have hmorgan : List.zipWith (fun b m => b ||| ~~~m) ip (maskBytes ip.length n)
      = (List.zipWith (· &&& ·) (ip.map (~~~·)) (maskBytes ip.length n)).map (~~~·) := by
    rw [List.zipWith_map_left, List.map_zipWith]
    congr 1
    funext b m
    apply UInt8.toBitVec_inj.mp
    ext i
    simp
  have hn' : n ≤ 8 * (ip.map (~~~·)).length := by
    rwa [List.length_map]
  have hmasked := toNat_and_maskBytes (ip.map (~~~·)) hn'
  rw [List.length_map, toNat_complement] at hmasked
  have hlength : (List.zipWith (· &&& ·) (ip.map (~~~·)) (maskBytes ip.length n)).length
      = ip.length := by
    rw [List.length_zipWith, List.length_map, length_maskBytes, Nat.min_self]
  rw [hmorgan, toNat_complement, hlength, hmasked]
  have hlt := toNat_lt ip
  obtain ⟨k, hk⟩ := Nat.exists_eq_add_of_le (Nat.sub_le (8 * ip.length) n)
  have hsplit : 256 ^ ip.length = 2 ^ (8 * ip.length - n) * 2 ^ k := by
    rw [← pow_add, ← hk, pow_mul]
    rfl
  rw [hsplit] at hlt ⊢
  set s := 2 ^ (8 * ip.length - n)
  have hs : 0 < s := Nat.two_pow_pos _
  have hdiv := Nat.div_add_mod (toNat ip) s
  have hmod := Nat.mod_lt (toNat ip) hs
  set c := toNat ip / s
  set d := toNat ip % s
  have hc : c < 2 ^ k := Nat.div_lt_of_lt_mul hlt
  obtain ⟨e, he⟩ := Nat.exists_eq_add_of_lt hc
  have hblocks : s * 2 ^ k = s * c + s * e + s := by
    rw [he]
    ring
  have hcomplement : (s * 2 ^ k - 1 - toNat ip) / s = e := by
    apply Nat.div_eq_of_lt_le
    · rw [Nat.mul_comm]
      omega
    · rw [Nat.add_mul, Nat.one_mul, Nat.mul_comm e]
      omega
  rw [hcomplement, Nat.mul_comm e, Nat.mul_comm c]
  omega

theorem shiftOnes_leadingOnes {n : ℕ} (hn : n < 8) :
  shiftOnes 8 (~~~(0xff >>> UInt8.ofNat n)) = (n, 0)
  := by
  have h : ∀ n : Fin 8, shiftOnes 8 (~~~(0xff >>> UInt8.ofNat n.val)) = (n.val, 0) := by
    decide +kernel
  apply h ⟨n, hn⟩

theorem leadingOnes_ne {n : ℕ} (hn : n < 8) :
  (~~~(0xff >>> UInt8.ofNat n) : UInt8) ≠ 0xff
  := by
  have h : ∀ n : Fin 8, (~~~(0xff >>> UInt8.ofNat n.val) : UInt8) ≠ 0xff := by
    decide +kernel
  apply h ⟨n, hn⟩

theorem maskBytes_zero (l : ℕ) :
  maskBytes l 0 = List.replicate l 0
  := by
  induction l with
  | zero => rfl
  | succ l ih =>
    rw [maskBytes, if_neg (by decide), ih, List.replicate_succ]
    rfl

theorem simpleMaskLength_maskBytes {l n : ℕ} (hn : n ≤ 8 * l) :
  simpleMaskLength (maskBytes l n) = some n
  := by
  induction l generalizing n with
  | zero =>
    obtain rfl : n = 0 := by omega
    rfl
  | succ l ih =>
    rw [maskBytes]
    split
    case isTrue h8 =>
      rw [simpleMaskLength, if_pos rfl, ih (by omega), Option.map_some]
      congr 1
      omega
    case isFalse h8 =>
      rw [simpleMaskLength, if_neg (leadingOnes_ne (by omega)), shiftOnes_leadingOnes (by omega)]
      simp [maskBytes_zero]

/-- A byte whose leading ones are followed by zeros only. -/
theorem eq_leadingOnes {v : UInt8} (hv : v ≠ 0xff) (hshift : (shiftOnes 8 v).2 = 0) :
  (shiftOnes 8 v).1 < 8 ∧ v = ~~~(0xff >>> UInt8.ofNat (shiftOnes 8 v).1)
  := by
  have h : ∀ v : Fin 256, UInt8.ofFin v ≠ 0xff → (shiftOnes 8 (UInt8.ofFin v)).2 = 0 →
      (shiftOnes 8 (UInt8.ofFin v)).1 < 8
        ∧ UInt8.ofFin v = ~~~(0xff >>> UInt8.ofNat (shiftOnes 8 (UInt8.ofFin v)).1) := by
    decide +kernel
  apply h v.toFin hv hshift

/-- A mask with a length is the one of that many leading ones. -/
theorem eq_maskBytes {mask : IPMask} {n : ℕ} (h : simpleMaskLength mask = some n) :
  n ≤ 8 * mask.length ∧ mask = maskBytes mask.length n
  := by
  induction mask generalizing n with
  | nil =>
    rw [simpleMaskLength, Option.some.injEq] at h
    subst h
    exact ⟨Nat.le_refl _, rfl⟩
  | cons v mask ih =>
    rw [simpleMaskLength] at h
    split at h
    case isTrue hv =>
      obtain ⟨k, hk, rfl⟩ := Option.map_eq_some_iff.mp h
      obtain ⟨hle, hmask⟩ := ih hk
      rw [List.length_cons]
      constructor
      · omega
      · rw [maskBytes, if_pos (by omega), Nat.add_sub_cancel_left, hv, ← hmask]
    case isFalse hv =>
      split at h
      · simp at h
      case isFalse hshift =>
        split at h
        case isFalse => simp at h
        case isTrue hzero =>
          rw [Option.some.injEq] at h
          subst h
          obtain ⟨hlt, hbyte⟩ := eq_leadingOnes hv (not_not.mp hshift)
          have hmask : mask = maskBytes mask.length 0 := by
            rw [maskBytes_zero]
            apply List.eq_replicate_of_mem
            intro b hb
            simpa using List.all_eq_true.mp hzero b hb
          rw [List.length_cons]
          constructor
          · omega
          · rw [maskBytes, if_neg (by omega), ← hbyte, ← hmask]

/-- The size of a mask is what it was built from. -/
theorem maskSize_cidrMask {ones bits : ℕ} (hbits : bits = 32 ∨ bits = 128) (hones : ones ≤ bits) :
  maskSize (cidrMask ones bits) = (ones, bits)
  := by
  have hlength : bits / 8 * 8 = bits := by
    obtain rfl | rfl := hbits <;> rfl
  rw [cidrMask, if_neg (by omega), if_neg (by omega), maskSize,
    simpleMaskLength_maskBytes (by omega)]
  simp only [length_maskBytes, hlength]

end Net
