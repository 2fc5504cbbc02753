import Misokube.Nmanager.Steps

/-!
# Pods are inside the networks of their tenants

Whatever fails outside of the network manager, the network of a tenant's IPAM stays inside the
one the subnet manager holds for the tenant.  So the addresses of pods are inside the network of
their tenant, and pods of different tenants have different addresses (`Contained`).
-/

namespace Nmanager

open Net Device Trie

/-! ### Records -/

/-- What the operations keep of a record: its IPAM is sound, both devices are there, and the
tenant is ready.  Only IPv4 networks have records. -/
structure Valid (bits : ℕ) (r : TenantRecord) : Prop where
  family : bits = 32
  sound : Ipam.Sound r.ipam
  devices : ∃ br vt, r.backend = ⟨true, some br, some vt⟩
  ready : r.state = .ready

section

variable {h : Hashes} {nodeName : String} {bits : ℕ} {grants : IPNet → Prop} {r r' : TenantRecord}

/-- The half of a network is inside the network. -/
theorem covers_of_half {p q : IPNet} {n : ℕ} (hcidr : IsCIDR q n bits) (hlt : n < bits)
    (hhalf : p = lower q ∨ p = upper q) {a : ℕ} (ha : Covers p a) :
  Covers q a
  := by
  obtain rfl | rfl := hhalf
  · apply ((covers_lower_iff hcidr hlt a).mp ha).1
  · apply ((covers_upper_iff hcidr hlt a).mp ha).1

/-- However far an expansion gets, it keeps the record valid. -/
theorem Expanded.valid {o : Outcomes} {q : IPNet} {n : ℕ} {reply : Reply}
    (hexpanded : Expanded o q r reply r') (hcidr : IsCIDR q n bits) (hvalid : Valid bits r) :
  Valid bits r'
  := by
  obtain ⟨rfl, hsound, ⟨br, vt, hdevices⟩, hready⟩ := hvalid
  obtain ⟨br', hupdate, -⟩ := update_spec (o := o.toOutcomes) hdevices q
  have hsound' := Ipam.expand_sound hsound hcidr
  cases hexpanded with
  | backend hbackend =>
    rw [hbackend] at hupdate
    exact ⟨rfl, hsound, ⟨br', vt, hupdate⟩, hready⟩
  | fault hbackend =>
    rw [hbackend] at hupdate
    exact ⟨rfl, hsound, ⟨br', vt, hupdate⟩, hready⟩
  | ipam hbackend hipam =>
    rw [hbackend] at hupdate
    rw [hipam] at hsound'
    exact ⟨rfl, hsound', ⟨br', vt, hupdate⟩, hready⟩
  | done hbackend hipam =>
    rw [hbackend] at hupdate
    rw [hipam] at hsound'
    exact ⟨rfl, hsound', ⟨br', vt, hupdate⟩, hready⟩

/-- Another sound IPAM keeps the record valid. -/
theorem Valid.with_ipam (hvalid : Valid bits r) {ipam : Ipam.BitmapIPAM}
    (hsound : Ipam.Sound ipam) :
  Valid bits { r with ipam := ipam }
  := ⟨hvalid.family, hsound, hvalid.devices, hvalid.ready⟩

/-! ### The network of the IPAM -/

/-- A record is valid, and the network of its IPAM is inside the one that is held. -/
def Inside (bits : ℕ) (v : View) : Prop :=
  ∀ r, v.record = some r → Valid bits r
    ∧ ∃ q, v.held = some q ∧ ∀ a, Covers r.ipam.network a → Covers q a

/-- The network of the IPAM after an expansion is the old one or the new one. -/
theorem Expanded.network {o : Outcomes} {q : IPNet} {n : ℕ} {reply : Reply}
    (hexpanded : Expanded o q r reply r') (hcidr : IsCIDR q n bits) (hvalid : Valid bits r) :
  r'.ipam.network = r.ipam.network ∨ r'.ipam.network = q
  := by
  obtain ⟨rfl, hsound, -, -⟩ := hvalid
  cases hexpanded with
  | backend hbackend => exact Or.inl rfl
  | fault hbackend => exact Or.inl rfl
  | ipam hbackend hipam =>
    obtain ⟨e, heq, -⟩ | ⟨bitmap, heq, -⟩ := Ipam.expand_cases hsound hcidr
    · rw [heq, Prod.mk.injEq] at hipam
      left
      rw [hipam.2]
    · simp [heq] at hipam
  | done hbackend hipam =>
    obtain ⟨e, heq, -⟩ | ⟨bitmap, heq, -⟩ := Ipam.expand_cases hsound hcidr
    · simp [heq] at hipam
    · rw [heq, Prod.mk.injEq] at hipam
      right
      rw [← hipam.2]

/-- The IPAM of a record after an attempt to attach a pod. -/
theorem Inside.with_ipam {p : Option IPNet} (hv : Inside bits ⟨some r, p⟩)
    {ipam : Ipam.BitmapIPAM} (hsound : Ipam.Sound ipam) (hnetwork : ipam.network = r.ipam.network) :
  Inside bits ⟨some { r with ipam := ipam }, p⟩
  := by
  obtain ⟨hvalid, q, hheld, hcovers⟩ := hv r rfl
  rintro _ ⟨⟩
  use hvalid.with_ipam hsound, q, hheld
  rw [hnetwork]
  exact hcovers

/-- Every effect keeps the network of the IPAM inside the one that is held. -/
theorem Effect.inside {op : Op} {v v' : View} {reply : Reply}
    (heffect : Effect h nodeName bits grants op v reply v') (hv : Inside bits v) :
  Inside bits v'
  := by
  cases heffect with
  | same => exact hv
  | exhausted => exact hv
  | failed =>
    intro r hr
    simp at hr
  | created hcidr hcreate hipam =>
    obtain ⟨hbits, -, hnetwork, -, hsound, -⟩ := Ipam.newBitmapIPAM_ok hcidr hipam
    obtain ⟨br, vt, hbe, -⟩ := create_spec hcreate
    rintro _ ⟨⟩
    refine ⟨⟨hbits, hsound, ⟨br, vt, hbe⟩, rfl⟩, _, rfl, ?_⟩
    rw [hnetwork]
    intro a ha
    exact ha
  | removed =>
    intro r hr
    simp at hr
  | panicked hmanagers =>
    obtain ⟨⟨-, -, ⟨br, vt, hbe⟩, -⟩, -⟩ := hv _ rfl
    rw [hbe] at hmanagers
    simp at hmanagers
  | expanded hgrants hcidr hlt hhalf hexpanded =>
    obtain ⟨hvalid, p, ⟨⟩, hcovers⟩ := hv _ rfl
    rintro _ ⟨⟩
    refine ⟨hexpanded.valid hcidr hvalid, _, rfl, ?_⟩
    intro a ha
    obtain hnetwork | hnetwork := hexpanded.network hcidr hvalid
    · rw [hnetwork] at ha
      apply covers_of_half hcidr hlt hhalf (hcovers a ha)
    · rw [hnetwork] at ha
      exact ha
  | attached hready halloc =>
    obtain ⟨hsound, hnetwork⟩ := Ipam.allocate_spec (hv _ rfl).1.sound halloc
    apply hv.with_ipam hsound hnetwork
  | bridgeless hready halloc =>
    obtain ⟨hsound, hnetwork⟩ := Ipam.allocate_spec (hv _ rfl).1.sound halloc
    apply hv.with_ipam hsound hnetwork
  | detached hready halloc =>
    obtain ⟨hsound, hnetwork⟩ := Ipam.allocate_spec (hv _ rfl).1.sound halloc
    apply hv.with_ipam
    · apply Ipam.free_sound hsound
    · apply (Ipam.free_network _ _).trans hnetwork

end

/-! ### Pods -/

/-- The addresses of the pods are inside the networks the subnet manager holds for their tenants,
and pods of different tenants have different addresses. -/
structure Contained (nm : NetworkManager) : Prop where
  inside : ∀ id r key info, nm.tenantRecords.lookup id = some r →
    (key, info) ∈ r.ipam.listAllocations →
      ∃ q, nm.subnet.get id = .ok q ∧ contains q info.ip = true
  distinct : ∀ id id' r r' key key' info info', id ≠ id' →
    nm.tenantRecords.lookup id = some r → nm.tenantRecords.lookup id' = some r' →
      (key, info) ∈ r.ipam.listAllocations → (key', info') ∈ r'.ipam.listAllocations →
        equalIP info.ip info'.ip = false

/-- The address of a pod is covered by the network of the IPAM. -/
theorem covers_of_mem_listAllocations {s : Ipam.BitmapIPAM} (h : Ipam.Sound s) {key : String}
    {info : Ipam.ContainerNetInfo} (hmem : (key, info) ∈ s.listAllocations) :
  info.ip.length = 4 ∧ Covers s.network (toNat info.ip)
  := by
  have hkey := Ipam.mem_listAllocations.mp hmem
  obtain ⟨n, hcidr⟩ := h.cidr
  obtain ⟨idx, hidx, hip, -⟩ := h.slot hkey
  obtain ⟨hlength, hnat⟩ := Ipam.toNat_indexToIP hcidr hidx
  rw [Ipam.BitmapIPAM.capacity, Ipam.capacity_eq hcidr] at hidx
  use h.length_ip hkey
  rw [hip, hnat, Covers]
  omega

section

variable {root : IPNet} {ones bits : ℕ} {leafSize : ℤ} {nodeName : String} {nm : NetworkManager}

/-- The address of a pod is covered by the network that is held for its tenant. -/
theorem Throughout.held_covers (hnm : Throughout root leafSize nodeName (Inside bits) nm)
    {id key : String} {r : TenantRecord} {info : Ipam.ContainerNetInfo}
    (hr : nm.tenantRecords.lookup id = some r) (hmem : (key, info) ∈ r.ipam.listAllocations) :
  ∃ q, nm.subnet.held id = some q ∧ bits = 32 ∧ info.ip.length = 4 ∧ Covers q (toNat info.ip)
  := by
  obtain ⟨hvalid, q, hheld, hcovers⟩ := hnm.views id r hr
  obtain ⟨hlength, hip⟩ := covers_of_mem_listAllocations hvalid.sound hmem
  exact ⟨q, hheld, hvalid.family, hlength, hcovers _ hip⟩

theorem Throughout.contained (hroot : IsCIDR root ones bits)
    (hnm : Throughout root leafSize nodeName (Inside bits) nm) :
  Contained nm
  := by
  constructor
  · intro id r key info hr hmem
    obtain ⟨q, hheld, rfl, hlength, hcovers⟩ := hnm.held_covers hr hmem
    obtain ⟨n, hcidr⟩ := hnm.managed.isCIDR hroot hheld
    use q, TrieManager.held_eq_some.mp hheld
    rw [hcidr.contains_iff, to4_of_length hlength]
    exact ⟨hlength, hcovers⟩
  · intro id id' r r' key key' info info' hid hr hr' hmem hmem'
    obtain ⟨q, hheld, -, hlength, hcovers⟩ := hnm.held_covers hr hmem
    obtain ⟨q', hheld', -, hlength', hcovers'⟩ := hnm.held_covers hr' hmem'
    by_contra hequal
    rw [Bool.not_eq_false, equalIP_iff hlength, to4_of_length hlength'] at hequal
    rw [hequal] at hcovers'
    exact hid (hnm.managed.held_unique hroot hheld hheld' hcovers hcovers')

end

/-- After every run of a new network manager, whatever fails outside of it, the networks of the
IPAMs are inside those that are held. -/
theorem after_inside {root : IPNet} {ones bits : ℕ} (hroot : IsCIDR root ones bits)
    {leafMask : ℤ} {tm : TrieManager} (hnew : newTrieManager root leafMask = some tm)
    (h : Hashes) (nodeName : String) (ops : List Op) :
  Throughout root leafMask nodeName (Inside bits)
    (Machine.after (step h) (newNetworkManager nodeName tm) ops)
  := by
  apply after_newNetworkManager hroot hnew _ _ (Machine.meets_true _ ops)
  · intro r hr
    simp at hr
  · intro nm op reply v _ hv heffect
    apply heffect.inside hv

/-- After every run of a new network manager, whatever fails outside of it, pods are inside the
networks of their tenants. -/
theorem after_contained {root : IPNet} {ones bits : ℕ} (hroot : IsCIDR root ones bits)
    {leafMask : ℤ} {tm : TrieManager} (hnew : newTrieManager root leafMask = some tm)
    (h : Hashes) (nodeName : String) (ops : List Op) :
  Contained (Machine.after (step h) (newNetworkManager nodeName tm) ops)
  := by
  apply (after_inside hroot hnew h nodeName ops).contained hroot

theorem after_contained_slash24 :
  ∃ tm, newTrieManager ⟨[10, 0, 0, 0], cidrMask 24 32⟩ 30 = some tm
    ∧ ∀ h nodeName ops, Contained (Machine.after (step h) (newNetworkManager nodeName tm) ops)
  := by
  obtain ⟨hroot, tm, hnew⟩ :=
    exists_newTrieManager_ipv4 [10, 0, 0, 0] 24 30 rfl (by decide) (by decide)
  use tm, hnew
  intro h nodeName ops
  apply after_contained hroot hnew

end Nmanager
