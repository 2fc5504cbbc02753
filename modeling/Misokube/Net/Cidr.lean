import Misokube.Net.IP

/-!
# Networks as blocks of numbers

A network in CIDR form is a block of `2 ^ (bits - ones)` numbers that starts at a multiple of
its size.  Setting the bit after the mask in the network address moves it to the upper half of
the block (`toNat_setBit`), and an IPv4 network contains an address exactly when the block
covers its number (`IsCIDR.contains_iff`).
-/

namespace Net

/-- The network address, the address of the network with the host bits cleared. -/
def network (n : IPNet) : IP :=
  maskIP n.ip n.mask

/-- The number of the network address. -/
def base (n : IPNet) : ℕ :=
  toNat (network n)

/-- The number of addresses of the network. -/
def size (n : IPNet) : ℕ :=
  2 ^ ((maskSize n.mask).2 - (maskSize n.mask).1)

/-- The network covers the number `a`. -/
def Covers (n : IPNet) (a : ℕ) : Prop :=
  base n ≤ a ∧ a < base n + size n

instance (n : IPNet) (a : ℕ) : Decidable (Covers n a) :=
  inferInstanceAs (Decidable (_ ∧ _))

theorem covers_base (n : IPNet) :
  Covers n (base n)
  := by
  use Nat.le_refl _
  apply Nat.lt_add_of_pos_right
  apply Nat.two_pow_pos

/-- The network has a mask of `ones` leading ones out of `bits`, and an address of its family,
in any of its forms and with any host bits. -/
structure IsCIDR (n : IPNet) (ones bits : ℕ) : Prop where
  family : bits = 32 ∨ bits = 128
  ones_le : ones ≤ bits
  mask_eq : n.mask = cidrMask ones bits
  length_eq : (network n).length * 8 = bits

theorem cidrMask_eq {ones bits : ℕ} (family : bits = 32 ∨ bits = 128) (ones_le : ones ≤ bits) :
  cidrMask ones bits = maskBytes (bits / 8) ones
  := by
  rw [cidrMask, if_neg (by omega), if_neg (by omega)]

theorem IsCIDR.maskSize {n : IPNet} {ones bits : ℕ} (h : IsCIDR n ones bits) :
  Net.maskSize n.mask = (ones, bits)
  := by
  rw [h.mask_eq]
  apply maskSize_cidrMask h.family h.ones_le

theorem IsCIDR.size {n : IPNet} {ones bits : ℕ} (h : IsCIDR n ones bits) :
  Net.size n = 2 ^ (bits - ones)
  := by
  rw [Net.size, h.maskSize]

/-- A network that covers another one is at least as large. -/
theorem size_le_of_covers {p q : IPNet} (h : ∀ a, Covers p a → Covers q a) :
  Net.size p ≤ Net.size q
  := by
  have hpos : 0 < Net.size p := Nat.two_pow_pos _
  have hfirst := h (base p)
  have hlast := h (base p + Net.size p - 1)
  simp only [Covers] at hfirst hlast
  omega

/-- The network address is an address of the family with the host bits masked. -/
theorem IsCIDR.exists_address {n : IPNet} {ones bits : ℕ} (h : IsCIDR n ones bits) :
  ∃ ip : IP, ip.length * 8 = bits ∧ (bits = 32 → ip = to4 n.ip)
    ∧ network n = List.zipWith (· &&& ·) ip (maskBytes ip.length ones)
  := by
  have hlength := h.length_eq
  have hmask : n.mask = maskBytes (bits / 8) ones := by
    rw [h.mask_eq, cidrMask_eq h.family h.ones_le]
  have hmaskLength : n.mask.length = bits / 8 := by
    rw [hmask, length_maskBytes]
  have hfamily := h.family
  rw [network, maskIP] at hlength
  rw [network, maskIP]
  by_cases hwide : n.mask.length = 16 ∧ n.ip.length = 4 ∧ (n.mask.take 12).all (· == 0xff)
  · -- a 4-byte address under a 16-byte mask leaves 4 bytes, not the 16 of the family
    have hdrop : (n.mask.drop 12).length = 4 := by
      rw [List.length_drop, hwide.1]
    simp only [if_pos hwide] at hlength
    split at hlength
    · simp at hlength
      omega
    · split at hlength
      · omega
      · rw [List.length_zipWith] at hlength
        omega
  simp only [if_neg hwide] at hlength ⊢
  by_cases hmapped : n.mask.length = 4 ∧ n.ip.length = 16 ∧ n.ip.take 12 = v4InV6Prefix
  · rw [if_pos hmapped] at hlength ⊢
    have hdrop : (n.ip.drop 12).length = 4 := by
      rw [List.length_drop, hmapped.2.1]
    use n.ip.drop 12
    refine ⟨by omega, ?_, ?_⟩
    · intro
      rw [to4, if_neg (by omega), if_pos hmapped.2]
    · rw [if_neg (by omega), hmask, hdrop, ← hmaskLength, hmapped.1]
  · rw [if_neg hmapped] at hlength ⊢
    split at hlength
    · simp at hlength
      omega
    case isFalse heq =>
      rw [not_not] at heq
      use n.ip
      refine ⟨by omega, ?_, ?_⟩
      · intro
        rw [to4, if_pos (by omega)]
      · rw [if_neg (by simpa using heq), hmask, heq, hmaskLength]

/-- The base is an address of the family rounded down to a multiple of the size. -/
theorem IsCIDR.base_eq {n : IPNet} {ones bits : ℕ} (h : IsCIDR n ones bits) :
  ∃ ip : IP, ip.length * 8 = bits ∧ (bits = 32 → ip = to4 n.ip)
    ∧ base n = toNat ip / 2 ^ (bits - ones) * 2 ^ (bits - ones)
  := by
  obtain ⟨ip, hlength, hto4, hnetwork⟩ := h.exists_address
  use ip, hlength, hto4
  have hones := h.ones_le
  rw [base, hnetwork, toNat_and_maskBytes ip (by omega), Nat.mul_comm 8, hlength]

theorem IsCIDR.size_dvd_base {n : IPNet} {ones bits : ℕ} (h : IsCIDR n ones bits) :
  2 ^ (bits - ones) ∣ base n
  := by
  obtain ⟨ip, -, -, hbase⟩ := h.base_eq
  rw [hbase]
  exact Dvd.intro_left _ rfl

/-- Each number of the block determines where it starts. -/
theorem IsCIDR.base_of_covers {n : IPNet} {ones bits a : ℕ} (h : IsCIDR n ones bits)
    (ha : Covers n a) :
  base n = a / 2 ^ (bits - ones) * 2 ^ (bits - ones)
  := by
  obtain ⟨k, hk⟩ := h.size_dvd_base
  rw [Covers, h.size, hk, Nat.mul_comm] at ha
  rw [hk, Nat.mul_comm, Nat.div_eq_of_lt_le ha.1]
  rw [Nat.add_mul, Nat.one_mul]
  exact ha.2

/-- Blocks of the same size that share a number are equal. -/
theorem IsCIDR.covers_iff {n n' : IPNet} {ones bits a : ℕ} (h : IsCIDR n ones bits)
    (h' : IsCIDR n' ones bits) (ha : Covers n a) (ha' : Covers n' a) (b : ℕ) :
  Covers n b ↔ Covers n' b
  := by
  rw [Covers, Covers, h.base_of_covers ha, h'.base_of_covers ha', h.size, h'.size]

/-- The block ends within the addresses of the family. -/
theorem IsCIDR.base_add_size_le {n : IPNet} {ones bits : ℕ} (h : IsCIDR n ones bits) :
  base n + 2 ^ (bits - ones) ≤ 2 ^ bits
  := by
  have hlt : base n < 2 ^ bits := by
    have := toNat_lt (network n)
    rwa [show 256 = 2 ^ 8 by rfl, ← pow_mul, Nat.mul_comm, h.length_eq] at this
  obtain ⟨k, hk⟩ := h.size_dvd_base
  have hones := h.ones_le
  have hpow : 2 ^ bits = 2 ^ (bits - ones) * 2 ^ ones := by
    rw [← pow_add, Nat.sub_add_cancel hones]
  rw [hk, hpow] at hlt ⊢
  have hk' : k + 1 ≤ 2 ^ ones := Nat.lt_of_mul_lt_mul_left hlt
  calc 2 ^ (bits - ones) * k + 2 ^ (bits - ones) = 2 ^ (bits - ones) * (k + 1) := by ring
    _ ≤ 2 ^ (bits - ones) * 2 ^ ones := Nat.mul_le_mul_left _ hk'

/-- An address of the family with a mask is a network in CIDR form. -/
theorem isCIDR_mk {ip : IP} {ones bits : ℕ} (family : bits = 32 ∨ bits = 128)
    (ones_le : ones ≤ bits) (hip : ip.length * 8 = bits) :
  IsCIDR ⟨ip, cidrMask ones bits⟩ ones bits
    ∧ base ⟨ip, cidrMask ones bits⟩ = toNat ip / 2 ^ (bits - ones) * 2 ^ (bits - ones)
  := by
  have hmask : cidrMask ones bits = maskBytes ip.length ones := by
    rw [cidrMask_eq family ones_le]
    congr 1
    omega
  have hnetwork : network ⟨ip, cidrMask ones bits⟩
      = List.zipWith (· &&& ·) ip (maskBytes ip.length ones) := by
    rw [network, hmask, maskIP_of_length_eq]
    rw [length_maskBytes]
  constructor
  · refine ⟨family, ones_le, rfl, ?_⟩
    rw [hnetwork, List.length_zipWith, length_maskBytes, Nat.min_self, hip]
  · rw [base, hnetwork, toNat_and_maskBytes ip (by omega), Nat.mul_comm 8, hip]

/-- The network address with the mask is the same block. -/
theorem IsCIDR.masked {n : IPNet} {ones bits : ℕ} (h : IsCIDR n ones bits) :
  IsCIDR ⟨network n, n.mask⟩ ones bits ∧ base ⟨network n, n.mask⟩ = base n
  := by
  obtain ⟨hcidr, hbase⟩ := isCIDR_mk h.family h.ones_le h.length_eq
  rw [h.mask_eq]
  refine ⟨hcidr, hbase.trans ?_⟩
  exact Nat.div_mul_cancel h.size_dvd_base

/-! ### Setting a bit -/

/-- The address with the bit at the given position set, counting from the most significant. -/
def setBit (ip : IP) (position : ℕ) : IP :=
  ip.modify (position / 8) (· ||| 1 <<< UInt8.ofNat (7 - position % 8))

theorem length_setBit (ip : IP) (position : ℕ) :
  (setBit ip position).length = ip.length
  := List.length_modify _ _ _

theorem toNat_or_bit (b : UInt8) {p : ℕ} (hp : p < 8) (h : 2 ^ (8 - p) ∣ b.toNat) :
  (b ||| 1 <<< UInt8.ofNat (7 - p % 8)).toNat = b.toNat + 2 ^ (7 - p)
  := by
  have hall : ∀ b : Fin 256, ∀ p : Fin 8, b.val % 2 ^ (8 - p.val) = 0 →
      (UInt8.ofFin b ||| 1 <<< UInt8.ofNat (7 - p.val % 8)).toNat = b.val + 2 ^ (7 - p.val) := by
    decide +kernel
  apply hall b.toFin ⟨p, hp⟩
  apply Nat.mod_eq_zero_of_dvd h

/-- Setting a bit of an address that is zero from this bit on adds the weight of the bit. -/
theorem toNat_setBit (ip : IP) {p : ℕ} (hp : p < 8 * ip.length)
    (h : 2 ^ (8 * ip.length - p) ∣ toNat ip) :
  toNat (setBit ip p) = toNat ip + 2 ^ (8 * ip.length - 1 - p)
  := by
  induction ip generalizing p with
  | nil => simp at hp
  | cons b ip ih =>
    have hlt := toNat_lt ip
    have hpow : 256 ^ ip.length = 2 ^ (8 * ip.length) := pow_mul 2 8 ip.length |>.symm
    rw [List.length_cons] at hp h ⊢
    by_cases hp8 : p < 8
    · -- the bit is in the first byte, and the others are zero
      have hdvd : 2 ^ (8 - p) * 2 ^ (8 * ip.length) ∣ toNat (b :: ip) := by
        rw [← pow_add]
        convert h using 2
        omega
      have hrest : toNat ip = 0 := by
        have h' : 2 ^ (8 * ip.length) ∣ toNat (b :: ip) := dvd_trans (Dvd.intro_left _ rfl) hdvd
        rw [toNat_cons, hpow, Nat.dvd_add_right (Dvd.intro_left _ rfl)] at h'
        apply Nat.eq_zero_of_dvd_of_lt h'
        rwa [← hpow]
      have hb : 2 ^ (8 - p) ∣ b.toNat := by
        rw [toNat_cons, hpow, hrest, Nat.add_zero] at hdvd
        apply Nat.dvd_of_mul_dvd_mul_right (Nat.two_pow_pos _) hdvd
      have hset : setBit (b :: ip) p = (b ||| 1 <<< UInt8.ofNat (7 - p % 8)) :: ip := by
        rw [setBit, Nat.div_eq_of_lt hp8, List.modify_zero_cons]
      have hexp : 8 * (ip.length + 1) - 1 - p = 7 - p + 8 * ip.length := by omega
      rw [hset, toNat_cons, toNat_cons, toNat_or_bit b hp8 hb, hpow, hexp, pow_add]
      ring
    · have hset : setBit (b :: ip) p = b :: setBit ip (p - 8) := by
        obtain ⟨k, rfl⟩ : ∃ k, p = k + 8 := ⟨p - 8, by omega⟩
        rw [setBit, setBit, Nat.add_div_right _ (by decide), List.modify_succ_cons,
          Nat.add_mod_right, Nat.add_sub_cancel]
      have hexp : 8 * (ip.length + 1) - p = 8 * ip.length - (p - 8) := by omega
      have hexp' : 8 * (ip.length + 1) - 1 - p = 8 * ip.length - 1 - (p - 8) := by omega
      have hdvd : 2 ^ (8 * ip.length - (p - 8)) ∣ toNat ip := by
        rw [hexp, toNat_cons, hpow] at h
        rwa [Nat.dvd_add_right (Dvd.dvd.mul_left (pow_dvd_pow 2 (by omega)) _)] at h
      rw [hset, toNat_cons, toNat_cons, length_setBit, ih (by omega) hdvd, hexp', Nat.add_assoc]

/-! ### IPv4 addresses -/

/-- The 4-byte form has 4 bytes, unless it is nil. -/
theorem length_to4 (ip : IP) :
  to4 ip = [] ∨ (to4 ip).length = 4
  := by
  rw [to4]
  split
  case isTrue h => exact Or.inr h
  case isFalse =>
    split
    case isTrue h =>
      right
      rw [List.length_drop, h.1]
    case isFalse => exact Or.inl rfl

theorem to4_of_length {ip : IP} (h : ip.length = 4) :
  to4 ip = ip
  := by
  rw [to4, if_pos h]

theorem equalIP_trans {a b c : IP} (h : equalIP a b = true) (h' : equalIP b c = true) :
  equalIP a c = true
  := by
  have ha := List.take_append_drop 12 a
  have hc := List.take_append_drop 12 c
  simp only [equalIP] at *
  split_ifs at * <;> grind

/-- An address in 4-byte form is equal to the addresses with this 4-byte form. -/
theorem equalIP_iff {x : IP} (hx : x.length = 4) (ip : IP) :
  equalIP x ip = true ↔ to4 ip = x
  := by
  have hnil : x ≠ [] := by
    rintro rfl
    simp at hx
  rw [equalIP, to4, hx]
  by_cases h4 : ip.length = 4
  · rw [if_pos h4.symm, if_pos h4, beq_iff_eq]
    exact eq_comm
  rw [if_neg (Ne.symm h4), if_neg h4]
  by_cases h16 : ip.length = 16
  · rw [if_pos ⟨rfl, h16⟩, Bool.and_eq_true, beq_iff_eq, beq_iff_eq]
    by_cases hmapped : ip.take 12 = v4InV6Prefix
    · rw [if_pos ⟨h16, hmapped⟩, and_iff_right hmapped]
      exact eq_comm
    · rw [if_neg fun h => hmapped h.2]
      constructor
      · rintro ⟨h, -⟩
        exact absurd h hmapped
      · intro h
        exact absurd h.symm hnil
  · rw [if_neg fun h => h16 h.2, if_neg (by omega), if_neg fun h => h16 h.1]
    constructor
    · intro h
      simp at h
    · intro h
      exact absurd h.symm hnil

theorem length_network {n : IPNet} {ones : ℕ} (h : IsCIDR n ones 32) :
  (network n).length = 4
  := by
  have hlength := h.length_eq
  omega

/-- An IPv4 network contains an address exactly when this is an IPv4 address and the block of
the network covers its number. -/
theorem IsCIDR.contains_iff {n : IPNet} {ones : ℕ} (h : IsCIDR n ones 32) (ip : IP) :
  contains n ip = true ↔ (to4 ip).length = 4 ∧ Covers n (toNat (to4 ip))
  := by
  obtain ⟨x, hx, hto4, hnetwork⟩ := h.exists_address
  obtain ⟨x', hx', hto4', hbase⟩ := h.base_eq
  obtain rfl := (hto4 rfl).trans (hto4' rfl).symm
  have hx4 : x.length = 4 := by omega
  have hx0 : to4 n.ip ≠ [] := by
    rw [← hto4 rfl]
    rintro rfl
    simp at hx4
  have hmask : n.mask = maskBytes 4 ones := by
    rw [h.mask_eq, cidrMask_eq h.family h.ones_le]
  have hmask4 : n.mask.length = 4 := by
    rw [hmask, length_maskBytes]
  have hnumber : networkNumberAndMask n = (x, n.mask) := by
    rw [networkNumberAndMask, if_pos hx0, ← hto4 rfl, if_neg (by omega), if_pos hmask4,
      if_neg (by omega)]
  have hones := h.ones_le
  -- both sides of the comparison are numbers rounded down to a multiple of the size
  have hcompare : ∀ y : IP, y.length = 4 →
      ((List.zipWith (· &&& ·) x n.mask == List.zipWith (· &&& ·) y n.mask) = true
        ↔ Covers n (toNat y)) := by
    intro y hy
    have hzip : ∀ z : IP, z.length = 4 → toNat (List.zipWith (· &&& ·) z n.mask)
        = toNat z / 2 ^ (32 - ones) * 2 ^ (32 - ones) := by
      intro z hz
      rw [hmask, ← hz, toNat_and_maskBytes z (by omega), hz]
    have hsize : 0 < 2 ^ (32 - ones) := Nat.two_pow_pos _
    rw [beq_iff_eq, Covers, h.size, hbase]
    constructor
    · intro heq
      have heq' := congrArg toNat heq
      rw [hzip x hx4, hzip y hy] at heq'
      rw [heq']
      have := Nat.div_add_mod (toNat y) (2 ^ (32 - ones))
      have := Nat.mod_lt (toNat y) hsize
      rw [Nat.mul_comm]
      omega
    · rintro ⟨hle, hlt⟩
      apply toNat_injective
      · simp [hx4, hy]
      · rw [hzip x hx4, hzip y hy]
        congr 1
        symm
        apply Nat.div_eq_of_lt_le hle
        rwa [Nat.add_mul, Nat.one_mul]
  rw [contains, hnumber]
  obtain hip | hip := length_to4 ip
  · -- neither form of an IPv4 address: the lengths differ
    have hlength : ip.length ≠ 4 := by
      intro h4
      rw [to4_of_length h4] at hip
      simp [hip] at h4
    simp [hip, hx4, hlength]
  · have hne : to4 ip ≠ [] := by
      intro hnil
      simp [hnil] at hip
    simp only [ne_eq, hne, not_false_eq_true, ↓reduceIte, hip, hx4, not_true_eq_false, true_and]
    apply hcompare _ hip

end Net
