import Misokube.Device.Model

/-!
# The addresses of the devices

In an IPv4 network the VTEP gets the network address and the bridge the address after it.  The
latter is in the network unless its mask has 32 ones.  A backend keeps the addresses its devices
were created with; an update moves that of the bridge only.
-/

namespace Device

open Net

theorem toNat_concat (ip : IP) (b : UInt8) :
  toNat (ip ++ [b]) = toNat ip * 256 + b.toNat
  := by
  induction ip with
  | nil => simp [toNat_cons]
  | cons c ip ih =>
    rw [List.cons_append, toNat_cons, ih, toNat_cons, List.length_append, List.length_singleton]
    ring

theorem length_carry (bs : List UInt8) :
  (carry bs).length = bs.length
  := by
  induction bs with
  | nil => rfl
  | cons b bs ih =>
    rw [carry]
    split
    · rw [List.length_cons, List.length_cons, ih]
    · rfl

/-- The loop adds one, modulo the numbers of that length. -/
theorem toNat_carry (bs : List UInt8) :
  toNat (carry bs).reverse = (toNat bs.reverse + 1) % 256 ^ bs.length
  := by
  induction bs with
  | nil => rfl
  | cons b bs ih =>
    have hlt := toNat_lt bs.reverse
    rw [List.length_reverse] at hlt
    have hb := b.toNat_lt
    rw [carry, List.reverse_cons, toNat_concat, List.length_cons, pow_succ]
    split
    case isTrue hzero =>
      have hmax : b.toNat = 255 := by
        have hmod := congrArg UInt8.toNat hzero
        rw [UInt8.toNat_add, UInt8.toNat_one, UInt8.toNat_zero] at hmod
        omega
      have hsucc : toNat bs.reverse * 256 + b.toNat + 1 = (toNat bs.reverse + 1) * 256 := by
        omega
      rw [List.reverse_cons, toNat_concat, ih, UInt8.toNat_zero, hsucc, Nat.mul_mod_mul_right,
        Nat.add_zero]
    case isFalse hne =>
      have hsucc : (b + 1).toNat = b.toNat + 1 := by
        have hne' : (b + 1).toNat ≠ 0 := by
          intro h
          apply hne
          apply UInt8.toNat_inj.mp h
        rw [UInt8.toNat_add, UInt8.toNat_one] at hne' ⊢
        omega
      have hb' := (b + 1).toNat_lt
      rw [List.reverse_cons, toNat_concat, hsucc, Nat.mod_eq_of_lt, Nat.add_assoc]
      omega

section

variable {n : IPNet} {ones : ℕ}

/-- The address of the bridge is the one after the network address. -/
theorem firstIP_eq (hn : IsCIDR n ones 32) (hones : ones < 32) :
  ∃ ip, firstIP n = .ok ⟨ip, n.mask⟩ ∧ ip.length = 4 ∧ toNat ip = base n + 1
  := by
  have hbound := hn.base_add_size_le
  have hpos : 2 ^ 1 ≤ 2 ^ (32 - ones) := Nat.pow_le_pow_right (by decide) (by omega)
  have hlength : (carry (network n).reverse).reverse.length = 4 := by
    rw [List.length_reverse, length_carry, List.length_reverse, length_network hn]
  have hnat : toNat (carry (network n).reverse).reverse = base n + 1 := by
    rw [toNat_carry, List.reverse_reverse, List.length_reverse, length_network hn, ← base]
    apply Nat.mod_eq_of_lt
    omega
  refine ⟨(carry (network n).reverse).reverse, ?_, hlength, hnat⟩
  have hcontains : contains n (carry (network n).reverse).reverse = true := by
    rw [hn.contains_iff, to4_of_length hlength, Covers, hnat, hn.size]
    exact ⟨hlength, by omega, by omega⟩
  simp only [firstIP, hcontains, ↓reduceIte]

/-- The address of the VTEP is the network address. -/
theorem hostIP_eq (hn : IsCIDR n ones 32) :
  (hostIP n).ip.length = 4 ∧ toNat (hostIP n).ip = base n
  := ⟨length_network hn, rfl⟩

end

/-! ### Names -/

/-- Bridge and VTEP names leave room for the digits of the hash. -/
theorem generateDeviceName_eq (h : Hashes) {pfx : String} (hpfx : pfx.utf8ByteSize ≤ 6)
    (name : String) :
  generateDeviceName h pfx name
    = .ok (pfx ++ String.ofList ((hexEncode (h.sha1 (bytes name))).toList.take 9))
  := by
  rw [generateDeviceName, maxDeviceNameLength, if_neg (by omega), if_neg (by omega)]

/-- The name of a VTEP begins with its prefix. -/
theorem ne_empty_of_generateDeviceName {h : Hashes} {name device : String}
    (hdevice : generateDeviceName h vxlanPrefix name = .ok device) :
  device ≠ ""
  := by
  rw [generateDeviceName_eq h (by decide +kernel), Except.ok.injEq] at hdevice
  rintro rfl
  have hlength := congrArg String.length hdevice
  rw [String.length_append] at hlength
  simp [vxlanPrefix] at hlength

/-! ### The backend -/

theorem createBridge_ip {h : Hashes} {o : Outcomes} {tenantID : String} {subnet : IPNet}
    {br : Bridge} (hcreate : createBridge h o tenantID subnet = .ok br) :
  firstIP subnet = .ok br.ip
  := by
  rw [createBridge, generateDeviceName_eq h (by decide +kernel)] at hcreate
  cases hfirst : firstIP subnet with
  | error e =>
    rw [hfirst] at hcreate
    simp [bind, Except.bind] at hcreate
  | ok ip =>
    rw [hfirst] at hcreate
    simp only [bind, Except.bind] at hcreate
    split at hcreate
    · cases hcreate
      rfl
    · simp at hcreate

theorem createVTEP_ip {h : Hashes} {o : Outcomes} {tenantID nodeName : String} {subnet : IPNet}
    {vt : VTEP} (hcreate : createVTEP h o tenantID subnet nodeName = .ok vt) :
  vt.ip.ip = (hostIP subnet).ip
  := by
  rw [createVTEP, generateDeviceName_eq h (by decide +kernel)] at hcreate
  simp only [bind, Except.bind] at hcreate
  split at hcreate
  · cases hcreate
    rfl
  · simp at hcreate

/-- A new backend has both devices, with the addresses of the subnet. -/
theorem create_spec {h : Hashes} {o : Outcomes} {tenantID host : String} {subnet : IPNet}
    {be : Backend}
    (hcreate : newBridgeVTEPBackend.create h o tenantID subnet host = (.ok (), be)) :
  ∃ br vt, be = ⟨true, some br, some vt⟩ ∧ firstIP subnet = .ok br.ip
    ∧ vt.ip.ip = (hostIP subnet).ip
  := by
  rw [Backend.create] at hcreate
  split at hcreate
  · simp at hcreate
  case h_2 br hbr =>
    split at hcreate
    · simp at hcreate
    case h_2 vt hvt =>
      cases hcreate
      exact ⟨br, vt, rfl, createBridge_ip hbr, createVTEP_ip hvt⟩

/-- An update keeps the devices; if it succeeds the bridge has the address of the subnet. -/
theorem update_spec {o : Outcomes} {be : Backend} {br : Bridge} {vt : VTEP}
    (hbe : be = ⟨true, some br, some vt⟩) (subnet : IPNet) :
  ∃ br', (be.update o subnet).2 = ⟨true, some br', some vt⟩
    ∧ ((be.update o subnet).1 = .ok () → firstIP subnet = .ok br'.ip)
  := by
  subst hbe
  simp only [Backend.update, updateBridge]
  cases hfirst : firstIP subnet with
  | error e =>
    refine ⟨br, rfl, ?_⟩
    simp [bind, Except.bind]
  | ok ip =>
    simp only [bind, Except.bind]
    cases o.bridgeUpdate with
    | false =>
      refine ⟨br, rfl, ?_⟩
      simp
    | true =>
      use { br with ip := ip }
      cases o.vtepUpdate with
      | false => simp
      | true => simp

/-- An update succeeds if its calls do and the subnet has an address for the bridge. -/
theorem update_ok {o : Outcomes} {be : Backend} {br : Bridge} {vt : VTEP} {subnet ip : IPNet}
    (hbe : be = ⟨true, some br, some vt⟩) (hfirst : firstIP subnet = .ok ip)
    (hbridge : o.bridgeUpdate = true) (hvtep : o.vtepUpdate = true) :
  (be.update o subnet).1 = .ok ()
  := by
  subst hbe
  simp [Backend.update, updateBridge, hfirst, hbridge, hvtep, bind, Except.bind]

end Device
