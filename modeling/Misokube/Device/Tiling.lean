import Misokube.Device.Addresses
import Misokube.Ipam.Addresses

/-!
# Who has the addresses of a subnet

The VTEP has the network address of a subnet, the bridge the one after it, the last one is the
broadcast address, and the IPAM gives the others to pods.  These are computed in three ways, by
masking, by adding one to the bytes with carry and by splitting a sum into bytes, and together they
are the addresses of the subnet, each of them once (`addresses_tile`).
-/

namespace Device

open Net Ipam

/-- The addresses are different, and they are those that the network contains. -/
structure Tiles (n : IPNet) (ips : List IP) : Prop where
  different : ips.Pairwise fun a b => equalIP a b = false
  contains_iff : ∀ ip, contains n ip = true ↔ to4 ip ∈ ips

/-- The addresses of the pods. -/
def podIPs (n : IPNet) : List IP :=
  (List.range (capacity n)).map (indexToIP n)

theorem equalIP_eq_false {a b : IP} (ha : a.length = 4) (hb : b.length = 4)
    (h : toNat a ≠ toNat b) :
  equalIP a b = false
  := by
  rw [← Bool.not_eq_true, equalIP_iff ha, to4_of_length hb]
  rintro rfl
  exact h rfl

section

variable {n : IPNet} {ones : ℕ}

theorem mem_podIPs (hn : IsCIDR n ones 32) {ip : IP} (hip : ip.length = 4) :
  ip ∈ podIPs n ↔ base n + 2 ≤ toNat ip ∧ toNat ip < base n + 2 + capacity n
  := by
  rw [podIPs, List.mem_map]
  constructor
  · rintro ⟨idx, hidx, rfl⟩
    rw [List.mem_range] at hidx
    rw [(toNat_indexToIP hn hidx).2]
    omega
  · rintro ⟨hlow, hhigh⟩
    obtain ⟨idx, hidx⟩ := Nat.exists_eq_add_of_le hlow
    have hlt : idx < capacity n := by omega
    obtain ⟨hlength, hnat⟩ := toNat_indexToIP hn hlt
    use idx, List.mem_range.mpr hlt
    apply toNat_injective
    · rw [hlength, hip]
    · rw [hnat, hidx]

theorem length_of_mem_podIPs (hn : IsCIDR n ones 32) {ip : IP} (hip : ip ∈ podIPs n) :
  ip.length = 4
  := by
  obtain ⟨idx, hidx, rfl⟩ := List.mem_map.mp hip
  apply (toNat_indexToIP hn (List.mem_range.mp hidx)).1

theorem podIPs_different (hn : IsCIDR n ones 32) :
  (podIPs n).Pairwise fun a b => equalIP a b = false
  := by
  rw [podIPs, List.pairwise_map]
  apply List.Pairwise.imp_of_mem _ List.pairwise_lt_range
  intro i j hi hj hlt
  obtain ⟨hlength, hnat⟩ := toNat_indexToIP hn (List.mem_range.mp hi)
  obtain ⟨hlength', hnat'⟩ := toNat_indexToIP hn (List.mem_range.mp hj)
  apply equalIP_eq_false hlength hlength'
  omega

/-- Addresses at the two ends of a subnet and the addresses of the pods make up the subnet. -/
theorem tiles_of_toNat (hn : IsCIDR n ones 32) (hones : ones ≤ 30) {host first broadcast : IP}
    (hhost : host.length = 4 ∧ toNat host = base n)
    (hfirst : first.length = 4 ∧ toNat first = base n + 1)
    (hbroadcast : broadcast.length = 4 ∧ toNat broadcast = base n + (2 ^ (32 - ones) - 1)) :
  Tiles n (host :: first :: broadcast :: podIPs n)
  := by
  have hcapacity := capacity_eq hn
  rw [hn.size] at hcapacity
  have hsize : 2 ^ 2 ≤ 2 ^ (32 - ones) := Nat.pow_le_pow_right (by decide) (by omega)
  constructor
  · -- the addresses of the pods are after the first two and before the last one
    have hpods : ∀ x : IP, x.length = 4 →
        (toNat x < base n + 2 ∨ base n + 2 + capacity n ≤ toNat x) →
          ∀ ip ∈ podIPs n, equalIP x ip = false := by
      intro x hx hout ip hip
      have hlength := length_of_mem_podIPs hn hip
      rw [mem_podIPs hn hlength] at hip
      apply equalIP_eq_false hx hlength
      omega
    simp only [List.pairwise_cons, List.mem_cons, forall_eq_or_imp]
    refine ⟨⟨?_, ?_, ?_⟩, ⟨?_, ?_⟩, ?_, podIPs_different hn⟩
    · apply equalIP_eq_false hhost.1 hfirst.1
      omega
    · apply equalIP_eq_false hhost.1 hbroadcast.1
      omega
    · apply hpods host hhost.1
      omega
    · apply equalIP_eq_false hfirst.1 hbroadcast.1
      omega
    · apply hpods first hfirst.1
      omega
    · apply hpods broadcast hbroadcast.1
      omega
  · intro ip
    have hmem : ∀ x : IP, x.length = 4 → (to4 ip).length = 4 →
        (to4 ip = x ↔ toNat (to4 ip) = toNat x) := by
      intro x hx hip
      constructor
      · intro heq
        rw [heq]
      · apply toNat_injective (hip.trans hx.symm)
    rw [hn.contains_iff, Covers, hn.size]
    simp only [List.mem_cons]
    constructor
    · rintro ⟨hip, hlow, hhigh⟩
      rw [hmem host hhost.1 hip, hmem first hfirst.1 hip, hmem broadcast hbroadcast.1 hip,
        mem_podIPs hn hip]
      omega
    · intro hip
      have hlength : (to4 ip).length = 4 := by
        rcases hip with hip | hip | hip | hip
        · rw [hip, hhost.1]
        · rw [hip, hfirst.1]
        · rw [hip, hbroadcast.1]
        · apply length_of_mem_podIPs hn hip
      rw [hmem host hhost.1 hlength, hmem first hfirst.1 hlength,
        hmem broadcast hbroadcast.1 hlength, mem_podIPs hn hlength] at hip
      use hlength
      omega

/-- The address after the only one of a network is not in it. -/
theorem firstIP_error (hn : IsCIDR n 32 32) :
  ∃ e, firstIP n = .error e
  := by
  have hlength : (carry (network n).reverse).reverse.length = 4 := by
    rw [List.length_reverse, length_carry, List.length_reverse, length_network hn]
  have hnat : toNat (carry (network n).reverse).reverse = (base n + 1) % 2 ^ 32 := by
    rw [toNat_carry, List.reverse_reverse, List.length_reverse, length_network hn]
    rfl
  have hcontains : ¬ contains n (carry (network n).reverse).reverse = true := by
    rw [hn.contains_iff, to4_of_length hlength, Covers, hnat, hn.size]
    rintro ⟨-, hlow, hhigh⟩
    omega
  simp only [firstIP, if_neg hcontains]
  exact ⟨_, rfl⟩

end

/-- The addresses of the VTEP, the bridge, the broadcast and the pods make up every IPv4 subnet
that an IPAM can have, and the bridge has an address in every IPv4 network of more than one
address. -/
theorem addresses_tile {n : IPNet} {ones : ℕ} (hn : IsCIDR n ones 32) :
  (ones ≤ 30 → ∃ first broadcast, firstIP n = .ok ⟨first, n.mask⟩ ∧ lastIP n = some broadcast
      ∧ Tiles n ((hostIP n).ip :: first :: broadcast :: podIPs n))
    ∧ ((∃ e, firstIP n = .error e) ↔ ones = 32)
  := by
  constructor
  · intro hones
    obtain ⟨first, hfirst, hfirst'⟩ := firstIP_eq hn (by omega)
    obtain ⟨broadcast, hbroadcast, hbroadcast'⟩ := lastIP_eq hn
    use first, broadcast, hfirst, hbroadcast
    apply tiles_of_toNat hn hones (hostIP_eq hn) hfirst' hbroadcast'
  · constructor
    · rintro ⟨e, he⟩
      by_contra hne
      have hones := hn.ones_le
      obtain ⟨first, hfirst, -⟩ := firstIP_eq hn (by omega)
      rw [hfirst] at he
      cases he
    · rintro rfl
      apply firstIP_error hn

theorem addresses_tile_slash29 :
  ∃ first broadcast, firstIP ⟨[10, 0, 255, 254], cidrMask 29 32⟩ = .ok ⟨first, cidrMask 29 32⟩
    ∧ lastIP ⟨[10, 0, 255, 254], cidrMask 29 32⟩ = some broadcast
    ∧ Tiles ⟨[10, 0, 255, 254], cidrMask 29 32⟩
      ((hostIP ⟨[10, 0, 255, 254], cidrMask 29 32⟩).ip :: first :: broadcast
        :: podIPs ⟨[10, 0, 255, 254], cidrMask 29 32⟩)
  := by
  have hn : IsCIDR ⟨[10, 0, 255, 254], cidrMask 29 32⟩ 29 32 :=
    (isCIDR_mk (Or.inl rfl) (by decide) rfl).1
  apply (addresses_tile hn).1 (by decide)

end Device
