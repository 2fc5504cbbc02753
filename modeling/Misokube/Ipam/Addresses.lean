import Misokube.Ipam.Model

/-!
# The addresses of an IPAM

For an IPv4 subnet, the bitmap index `idx` below the capacity stands for the address two after
the base of the subnet plus `idx` (`toNat_indexToIP`), and `ipToIndex` computes the index of an
address, although it joins the differences of the bytes by a bitwise or (`ipToIndex_eq`): within
the subnet no byte is smaller than that of the base, and a negative difference of some byte makes
the whole offset negative.
-/

namespace Ipam

open Net

/-! ### Joining differences of bytes -/

theorem lor_neg_left {a : ℤ} (ha : a < 0) (b : ℤ) :
  a.lor b < 0
  := by
  obtain ⟨m, rfl⟩ := Int.eq_negSucc_of_lt_zero ha
  cases b with
  | ofNat n => apply Int.negSucc_lt_zero
  | negSucc n => apply Int.negSucc_lt_zero

theorem lor_neg_right (a : ℤ) {b : ℤ} (hb : b < 0) :
  a.lor b < 0
  := by
  obtain ⟨n, rfl⟩ := Int.eq_negSucc_of_lt_zero hb
  cases a with
  | ofNat m => apply Int.negSucc_lt_zero
  | negSucc m => apply Int.negSucc_lt_zero

/-- Joining a multiple of `2 ^ i` and a smaller number is adding them. -/
theorem lor_eq_add {a b : ℤ} {i : ℕ} (ha : 0 ≤ a) (hdvd : 2 ^ i ∣ a) (hb : 0 ≤ b)
    (hlt : b < 2 ^ i) :
  a.lor b = a + b
  := by
  obtain ⟨m, rfl⟩ := Int.eq_ofNat_of_zero_le ha
  obtain ⟨n, rfl⟩ := Int.eq_ofNat_of_zero_le hb
  have hdvd' : 2 ^ i ∣ m := by exact_mod_cast hdvd
  have hlt' : n < 2 ^ i := by exact_mod_cast hlt
  obtain ⟨k, rfl⟩ := hdvd'
  have hor := Nat.two_pow_add_eq_or_of_lt hlt' k
  have hlor : ((2 ^ i * k : ℕ) : ℤ).lor (n : ℕ) = ((2 ^ i * k ||| n : ℕ) : ℤ) := rfl
  rw [hlor, ← hor]
  push_cast
  rfl

/-- Four differences of bytes joined by a bitwise or: their weighted sum if none is negative. -/
theorem lor_bytes (d₀ : ℤ) {d₁ d₂ d₃ : ℤ} (h₁ : d₁ < 256) (h₂ : d₂ < 256) (h₃ : d₃ < 256) :
  (0 ≤ d₀ ∧ 0 ≤ d₁ ∧ 0 ≤ d₂ ∧ 0 ≤ d₃
      ∧ (((d₀ * 2 ^ 24).lor (d₁ * 2 ^ 16)).lor (d₂ * 2 ^ 8)).lor d₃
        = d₀ * 2 ^ 24 + d₁ * 2 ^ 16 + d₂ * 2 ^ 8 + d₃)
    ∨ (¬ (0 ≤ d₀ ∧ 0 ≤ d₁ ∧ 0 ≤ d₂ ∧ 0 ≤ d₃)
      ∧ (((d₀ * 2 ^ 24).lor (d₁ * 2 ^ 16)).lor (d₂ * 2 ^ 8)).lor d₃ < 0)
  := by
  by_cases hd₃ : d₃ < 0
  · right
    exact ⟨by omega, lor_neg_right _ hd₃⟩
  by_cases hd₂ : d₂ < 0
  · right
    exact ⟨by omega, lor_neg_left (lor_neg_right _ (by omega)) _⟩
  by_cases hd₁ : d₁ < 0
  · right
    exact ⟨by omega, lor_neg_left (lor_neg_left (lor_neg_right _ (by omega)) _) _⟩
  by_cases hd₀ : d₀ < 0
  · right
    exact ⟨by omega, lor_neg_left (lor_neg_left (lor_neg_left (by omega) _) _) _⟩
  left
  refine ⟨by omega, by omega, by omega, by omega, ?_⟩
  have hfirst : (d₀ * 2 ^ 24).lor (d₁ * 2 ^ 16) = d₀ * 2 ^ 24 + d₁ * 2 ^ 16 := by
    apply lor_eq_add (i := 24) <;> omega
  have hsecond : (d₀ * 2 ^ 24 + d₁ * 2 ^ 16).lor (d₂ * 2 ^ 8)
      = d₀ * 2 ^ 24 + d₁ * 2 ^ 16 + d₂ * 2 ^ 8 := by
    apply lor_eq_add (i := 16) <;> omega
  rw [hfirst, hsecond]
  apply lor_eq_add (i := 8) <;> omega

/-- The joined differences are the difference of the addresses if no byte is smaller than that
of the base, and negative otherwise. -/
theorem ipv4Diff_eq {b x : IP} (hb : b.length = 4) (hx : x.length = 4) :
  ∃ d : ℤ, ipv4Diff b x = some d ∧ (d < 0 ∨ d = (toNat x : ℤ) - toNat b)
    ∧ (List.Forall₂ (· ≤ ·) b x → d = (toNat x : ℤ) - toNat b)
  := by
  obtain ⟨b₀, b₁, b₂, b₃, rfl⟩ := List.length_eq_four.mp hb
  obtain ⟨x₀, x₁, x₂, x₃, rfl⟩ := List.length_eq_four.mp hx
  have hx₁ := x₁.toNat_lt
  have hx₂ := x₂.toNat_lt
  have hx₃ := x₃.toNat_lt
  have hsum : (toNat [x₀, x₁, x₂, x₃] : ℤ) - toNat [b₀, b₁, b₂, b₃]
      = ((x₀.toNat : ℤ) - b₀.toNat) * 2 ^ 24 + ((x₁.toNat : ℤ) - b₁.toNat) * 2 ^ 16
        + ((x₂.toNat : ℤ) - b₂.toNat) * 2 ^ 8 + ((x₃.toNat : ℤ) - b₃.toNat) := by
    simp only [Net.toNat, List.length_cons, List.length_nil]
    push_cast
    ring
  refine ⟨_, rfl, ?_⟩
  rw [hsum]
  have hd₁ : (x₁.toNat : ℤ) - b₁.toNat < 256 := by omega
  have hd₂ : (x₂.toNat : ℤ) - b₂.toNat < 256 := by omega
  have hd₃ : (x₃.toNat : ℤ) - b₃.toNat < 256 := by omega
  obtain ⟨-, -, -, -, heq⟩ | ⟨hneg, hlt⟩ := lor_bytes ((x₀.toNat : ℤ) - b₀.toNat) hd₁ hd₂ hd₃
  · exact ⟨Or.inr heq, fun _ => heq⟩
  · refine ⟨Or.inl hlt, ?_⟩
    intro hle
    exfalso
    apply hneg
    simp only [List.forall₂_cons, UInt8.le_iff_toNat_le] at hle
    omega

/-! ### Networks -/

section

variable {n : IPNet} {ones : ℕ}

/-- No byte of an address of a network is smaller than that of the network address. -/
theorem network_le (hn : IsCIDR n ones 32) {x : IP} (hx : x.length = 4)
    (hcovers : Covers n (toNat x)) :
  List.Forall₂ (· ≤ ·) (network n) x
  := by
  have hones := hn.ones_le
  obtain ⟨ip, -, -, hbase⟩ := hn.base_eq
  -- masking the address gives the network address
  have hmasked : network n = List.zipWith (· &&& ·) x (maskBytes 4 ones) := by
    apply toNat_injective
    · rw [length_network hn, List.length_zipWith, length_maskBytes, hx, Nat.min_self]
    · rw [← hx, toNat_and_maskBytes x (by omega), hx, ← base]
      rw [Covers, hn.size] at hcovers
      rw [hbase] at hcovers ⊢
      have hdiv : toNat x / 2 ^ (32 - ones) = toNat ip / 2 ^ (32 - ones) := by
        apply Nat.div_eq_of_lt_le hcovers.1
        rw [Nat.add_mul, Nat.one_mul]
        exact hcovers.2
      rw [hdiv]
  rw [hmasked]
  have hlength : x.length = (maskBytes 4 ones).length := by
    rw [hx, length_maskBytes]
  clear hmasked hcovers hx
  generalize maskBytes 4 ones = mask at hlength
  induction x generalizing mask with
  | nil => simp
  | cons b x ih =>
    obtain _ | ⟨m, mask⟩ := mask
    · simp at hlength
    rw [List.zipWith_cons_cons, List.forall₂_cons]
    constructor
    · rw [UInt8.le_iff_toNat_le, UInt8.toNat_and]
      apply Nat.and_le_left
    · apply ih
      simpa using hlength

theorem capacity_eq (hn : IsCIDR n ones 32) :
  capacity n = size n - 3
  := by
  simp only [capacity, hn.maskSize, hn.size]
  split <;> omega

/-- The last address of a network. -/
theorem lastIP_eq (hn : IsCIDR n ones 32) :
  ∃ ip, lastIP n = some ip ∧ ip.length = 4 ∧ toNat ip = base n + (2 ^ (32 - ones) - 1)
  := by
  obtain ⟨ip, hlength, hto4, hbase⟩ := hn.base_eq
  have hip : ip.length = 4 := by omega
  have hones := hn.ones_le
  have hmask : n.mask = maskBytes 4 ones := by
    rw [hn.mask_eq, cidrMask_eq hn.family hones]
  have hne : ip ≠ [] := by
    rintro rfl
    simp at hip
  refine ⟨List.zipWith (fun b m => b ||| ~~~m) ip (maskBytes 4 ones), ?_, ?_, ?_⟩
  · simp only [lastIP]
    rw [← hto4 rfl, if_pos hne, if_neg hne, hmask, length_maskBytes, if_neg (by omega)]
  · rw [List.length_zipWith, length_maskBytes, hip, Nat.min_self]
  · have hlast := toNat_or_complement_maskBytes ip (n := ones) (by omega)
    rw [hip] at hlast
    rw [hlast, hbase]

/-- The address after a base, while it does not exceed 32 bits. -/
theorem toNat_addIPv4 {b : IP} (hb : b.length = 4) {delta : ℕ}
    (hlt : toNat b + delta < 2 ^ 32) :
  (addIPv4 b delta).length = 4 ∧ toNat (addIPv4 b delta) = toNat b + delta
  := by
  have hne : to4 b ≠ [] := by
    rw [to4_of_length hb]
    rintro rfl
    simp at hb
  simp only [addIPv4, if_neg hne]
  rw [to4_of_length hb]
  refine ⟨rfl, ?_⟩
  simp only [Net.toNat, List.length_cons, List.length_nil, UInt8.toNat_ofNat',
    Nat.shiftRight_eq_div_pow]
  omega

/-- The address of an index below the capacity. -/
theorem toNat_indexToIP (hn : IsCIDR n ones 32) {idx : ℕ} (hidx : idx < capacity n) :
  (indexToIP n idx).length = 4 ∧ toNat (indexToIP n idx) = base n + 2 + idx
  := by
  have hbound := hn.base_add_size_le
  rw [capacity_eq hn, hn.size] at hidx
  have hnetwork : to4 (maskIP n.ip n.mask) = network n := to4_of_length (length_network hn)
  rw [indexToIP, hnetwork, Nat.add_assoc, base]
  apply toNat_addIPv4 (length_network hn)
  rw [base] at hbound
  omega

/-- Different indices stand for different addresses. -/
theorem indexToIP_injective (hn : IsCIDR n ones 32) {i j : ℕ} (hi : i < capacity n)
    (hj : j < capacity n) (h : indexToIP n i = indexToIP n j) :
  i = j
  := by
  have hi' := (toNat_indexToIP hn hi).2
  have hj' := (toNat_indexToIP hn hj).2
  rw [h] at hi'
  omega

/-- The index of an address of the pod range is its distance from the first pod address, and
other addresses have none. -/
theorem ipToIndex_eq (hn : IsCIDR n ones 32) (ip : IP) :
  ipToIndex n ip
    = some (if (to4 ip).length = 4 ∧ base n + 2 ≤ toNat (to4 ip)
          ∧ toNat (to4 ip) < base n + 2 + capacity n
        then (toNat (to4 ip) : ℤ) - base n - 2 else -1)
  := by
  have hnetwork : to4 (maskIP n.ip n.mask) = network n := to4_of_length (length_network hn)
  obtain hip | hip := length_to4 ip
  · simp [ipToIndex, hip]
  have hne : to4 ip ≠ [] := by
    intro hnil
    simp [hnil] at hip
  obtain ⟨d, hd, hcases, hle⟩ := ipv4Diff_eq (length_network hn) hip
  simp only [ipToIndex, if_neg hne, hnetwork, hd, hn.maskSize, hip, true_and, capacity_eq hn,
    hn.size]
  have hcast : ((2 ^ (32 - ones) : ℕ) : ℤ) = 2 ^ (32 - ones) := by
    push_cast
    rfl
  rw [← base] at hle hcases
  by_cases hrange : base n + 2 ≤ toNat (to4 ip)
      ∧ toNat (to4 ip) < base n + 2 + (2 ^ (32 - ones) - 3)
  · -- no byte is smaller than that of the network address, so the offset is the difference
    have hcovers : Covers n (toNat (to4 ip)) := by
      rw [Covers, hn.size]
      omega
    have heq := hle (network_le hn hip hcovers)
    have hin : ¬ (d < 2 ∨ 2 ^ (32 - ones) - 1 ≤ d) := by omega
    rw [if_neg hin, if_pos hrange, heq]
  · -- the offset is negative or the difference, which is not in the range
    have hout : d < 2 ∨ 2 ^ (32 - ones) - 1 ≤ d := by omega
    rw [if_pos hout, if_neg hrange]

/-- An address has the index it is the address of, or none. -/
theorem ipToIndex_cases (hn : IsCIDR n ones 32) (ip : IP) :
  (∃ idx < capacity n, to4 ip = indexToIP n idx ∧ ipToIndex n ip = some (idx : ℤ))
    ∨ (ipToIndex n ip = some (-1) ∧ ∀ idx < capacity n, to4 ip ≠ indexToIP n idx)
  := by
  rw [ipToIndex_eq hn]
  by_cases hrange : (to4 ip).length = 4 ∧ base n + 2 ≤ toNat (to4 ip)
      ∧ toNat (to4 ip) < base n + 2 + capacity n
  · left
    obtain ⟨hlength, hlow, hhigh⟩ := hrange
    obtain ⟨idx, hidx⟩ := Nat.exists_eq_add_of_le hlow
    have hlt : idx < capacity n := by omega
    obtain ⟨hlength', hnat⟩ := toNat_indexToIP hn hlt
    refine ⟨idx, hlt, ?_, ?_⟩
    · apply toNat_injective
      · rw [hlength, hlength']
      · rw [hnat, hidx]
    · rw [if_pos ⟨hlength, hlow, hhigh⟩, Option.some.injEq]
      omega
  · right
    rw [if_neg hrange]
    refine ⟨rfl, ?_⟩
    intro idx hidx heq
    obtain ⟨hlength, hnat⟩ := toNat_indexToIP hn hidx
    rw [heq, hnat] at hrange
    apply hrange
    exact ⟨hlength, by omega, by omega⟩

/-- The pod range: from two after the network address to one before the last address. -/
theorem podRange_iff (hn : IsCIDR n ones 32) {broadcast : IP} (hlast : lastIP n = some broadcast)
    (a : ℕ) :
  (base n + 2 ≤ a ∧ a ≤ toNat broadcast - 1) ↔ base n + 2 ≤ a ∧ a < base n + 2 + capacity n
  := by
  obtain ⟨ip, hip, -, hnat⟩ := lastIP_eq hn
  rw [hip, Option.some.injEq] at hlast
  subst hlast
  rw [hnat, capacity_eq hn, hn.size]
  omega

end

/-- The indices below the capacity correspond to the addresses of the pod range. -/
structure Indexed (n : IPNet) (broadcast : IP) : Prop where
  index : ∀ i < capacity n, ipToIndex n (indexToIP n i) = some (i : ℤ)
  address : ∀ a, (to4 a).length = 4 → ∃ idx : ℤ, ipToIndex n a = some idx
    ∧ (0 ≤ idx ↔ base n + 2 ≤ toNat (to4 a) ∧ toNat (to4 a) ≤ toNat broadcast - 1)
    ∧ (0 ≤ idx → idx < capacity n ∧ equalIP (indexToIP n idx.toNat) a = true)
    ∧ (idx < 0 → idx = -1)

/-- The computations of indices and addresses are inverse to each other, in every IPv4 network. -/
theorem ipToIndex_indexed {n : IPNet} {ones : ℕ} (hn : IsCIDR n ones 32) :
  ∃ broadcast, lastIP n = some broadcast ∧ Indexed n broadcast
  := by
  obtain ⟨broadcast, hlast, -, -⟩ := lastIP_eq hn
  use broadcast, hlast
  constructor
  · intro i hi
    obtain ⟨hlength, -⟩ := toNat_indexToIP hn hi
    obtain ⟨idx, hidx, heq, hindex⟩ | ⟨-, hnone⟩ := ipToIndex_cases hn (indexToIP n i)
    · rw [to4_of_length hlength] at heq
      rw [hindex, indexToIP_injective hn hi hidx heq]
    · exact absurd (to4_of_length hlength) (hnone i hi)
  · intro a ha
    obtain ⟨idx, hidx, heq, hindex⟩ | ⟨hindex, hnone⟩ := ipToIndex_cases hn a
    · obtain ⟨hlength, hnat⟩ := toNat_indexToIP hn hidx
      refine ⟨idx, hindex, ?_, ?_, by omega⟩
      · rw [podRange_iff hn hlast, heq, hnat]
        omega
      · intro _
        rw [Int.toNat_natCast]
        constructor
        · exact_mod_cast hidx
        · rw [equalIP_iff hlength, heq]
    · refine ⟨-1, hindex, ?_, by omega, fun _ => rfl⟩
      rw [podRange_iff hn hlast]
      apply iff_of_false (by omega)
      rintro ⟨hlow, hhigh⟩
      -- an address of the pod range is that of an index
      obtain ⟨idx, hidx⟩ := Nat.exists_eq_add_of_le hlow
      have hlt : idx < capacity n := by omega
      obtain ⟨hlength, hnat⟩ := toNat_indexToIP hn hlt
      apply hnone idx hlt
      apply toNat_injective (ha.trans hlength.symm)
      rw [hnat, hidx]

/-- A subnet with host bits, whose addresses differ in two bytes. -/
theorem ipToIndex_indexed_slash20 :
  ∃ broadcast, lastIP ⟨[10, 1, 31, 254], cidrMask 20 32⟩ = some broadcast
    ∧ Indexed ⟨[10, 1, 31, 254], cidrMask 20 32⟩ broadcast
  := by
  have hn : IsCIDR ⟨[10, 1, 31, 254], cidrMask 20 32⟩ 20 32 :=
    (isCIDR_mk (Or.inl rfl) (by decide) rfl).1
  apply ipToIndex_indexed hn

end Ipam
