import Misokube.Nmanager.Agreement

/-!
# The addresses of the devices

The VTEP and the bridge of a tenant have the first two addresses of its network, and the IPAM
gives pods the others.  An expansion moves the bridge but not the recorded address of the VTEP.
So the addresses of pods stay apart from those of the devices (`Apart`) as long as tenants are
expanded from the lower half of the larger network, which keeps the network address.
-/

namespace Nmanager

open Net Device Trie

/-- The network is the lower half of the next larger one. -/
def IsLowerHalf (p : IPNet) : Prop :=
  2 * size p ∣ base p

/-- If the operation is the expansion of a tenant for which the subnet manager has room, its other
steps do not fail and the network of the tenant is the lower half of the larger one. -/
def Op.KeepsBase (nm : NetworkManager) : Op → Prop
  | .expandTenant id o => ∀ r p q, nm.tenantRecords.lookup id = some r → nm.subnet.get id = .ok p →
      nm.Grants id q → o.CanMove ∧ IsLowerHalf p
  | _ => True

/-- A lower half has the network address of the larger network. -/
theorem IsLowerHalf.base_eq {p q : IPNet} {n bits : ℕ} (hlower : IsLowerHalf p)
    (hcidr : IsCIDR q n bits) (hlt : n < bits) (hhalf : p = lower q ∨ p = upper q) :
  base q = base p
  := by
  obtain rfl | rfl := hhalf
  · rw [base_lower hcidr hlt]
  · -- the size of the larger network would divide that of its half
    exfalso
    have hsize : 2 * 2 ^ (bits - (n + 1)) = 2 ^ (bits - n) := by
      rw [← pow_succ']
      congr 1
      omega
    rw [IsLowerHalf, (upper_isCIDR hcidr hlt).size, hsize, base_upper hcidr hlt,
      ← Nat.dvd_add_iff_right hcidr.size_dvd_base, ← hsize] at hlower
    have hle := Nat.le_of_dvd (Nat.two_pow_pos _) hlower
    have hpos := Nat.two_pow_pos (bits - (n + 1))
    omega

/-! ### Placement of the devices -/

/-- The bridge has the first address of the network after the network address, which the VTEP
has. -/
def Placed (v : View) : Prop :=
  ∀ r, v.record = some r → ∃ br vt, r.backend = ⟨true, some br, some vt⟩
    ∧ firstIP r.subnet = .ok br.ip ∧ vt.ip.ip.length = 4 ∧ toNat vt.ip.ip = base r.subnet

section

variable {h : Hashes} {nodeName : String} {bits : ℕ} {grants : IPNet → Prop} {r r' : TenantRecord}

/-- An expansion that succeeds moves the bridge and leaves the VTEP. -/
theorem Expanded.placed {o : Outcomes} {q : IPNet} {br : Bridge} {vt : VTEP}
    (hexpanded : Expanded o q r (.ok none) r') (hdevices : r.backend = ⟨true, some br, some vt⟩) :
  ∃ br', r'.backend = ⟨true, some br', some vt⟩ ∧ firstIP q = .ok br'.ip
  := by
  obtain ⟨br', hupdate, hok⟩ := update_spec (o := o.toOutcomes) hdevices q
  cases hexpanded with
  | done hbackend hipam =>
    rw [hbackend] at hupdate hok
    exact ⟨br', hupdate, hok rfl⟩

theorem Placed.with_ipam {p : Option IPNet} (hv : Placed ⟨some r, p⟩) (ipam : Ipam.BitmapIPAM) :
  Placed ⟨some { r with ipam := ipam }, p⟩
  := by
  rintro _ ⟨⟩
  apply hv r rfl

/-- An effect whose expansions move everything and keep the network address keeps the devices
placed. -/
theorem Effect.placed {op : Op} {v v' : View} {reply : Reply}
    (heffect : Effect h nodeName bits grants op v reply v') (hv : Placed v)
    (hagree : Agreeing bits v)
    (hbase : ∀ id o r p q, op = .expandTenant id o → v.record = some r → v.held = some p →
      grants q → o.CanMove ∧ IsLowerHalf p) :
  Placed v'
  := by
  cases heffect with
  | same => exact hv
  | exhausted => exact hv
  | failed =>
    intro r hr
    simp at hr
  | created hcidr hcreate hipam =>
    obtain ⟨rfl, -⟩ := Ipam.newBitmapIPAM_ok hcidr hipam
    obtain ⟨br, vt, hbe, hfirst, hhost⟩ := create_spec hcreate
    rintro _ ⟨⟩
    use br, vt, hbe, hfirst
    rw [hhost]
    apply hostIP_eq hcidr
  | removed =>
    intro r hr
    simp at hr
  | panicked hmanagers =>
    obtain ⟨br, vt, hbe, -⟩ := hv _ rfl
    rw [hbe] at hmanagers
    simp at hmanagers
  | @expanded _ o r r' p q _ _ hgrants hcidr hlt hhalf hexpanded =>
    obtain ⟨hmove, hlower⟩ := hbase _ _ r p q rfl rfl rfl hgrants
    obtain ⟨hvalid, hheld, hnetwork⟩ := hagree _ rfl
    cases hheld
    have hcovers : ∀ a, Covers r.ipam.network a → Covers q a := by
      rw [hnetwork]
      intro a
      apply covers_of_half hcidr hlt hhalf
    obtain ⟨rfl, hsubnet, -⟩ := hexpanded.moves hcidr hlt hvalid hmove hcovers
    obtain ⟨br, vt, hbe, -, hlength, hvtep⟩ := hv _ rfl
    obtain ⟨br', hbe', hfirst⟩ := hexpanded.placed hbe
    rintro _ ⟨⟩
    use br', vt, hbe'
    rw [hsubnet, hlower.base_eq hcidr hlt hhalf]
    exact ⟨hfirst, hlength, hvtep⟩
  | attached => apply hv.with_ipam
  | bridgeless => apply hv.with_ipam
  | detached => apply hv.with_ipam

end

/-! ### Pods and devices -/

/-- No pod has the address that a snapshot reports for the VTEP or the bridge of its tenant. -/
def Apart (nm : NetworkManager) : Prop :=
  ∀ id r snap key info, nm.tenantRecords.lookup id = some r → nm.snapshotTenantInfra id = .ok snap →
    (key, info) ∈ r.ipam.listAllocations →
      equalIP info.ip snap.vtepIP = false ∧ equalIP info.ip snap.bridgeIP = false

/-- The addresses of pods start after those of the devices. -/
theorem Placed.apart {nm : NetworkManager} (hplaced : ∀ id, Placed (nm.view id)) {bits : ℕ}
    (hagree : ∀ id, Agreeing bits (nm.view id)) :
  Apart nm
  := by
  intro id r snap key info hr hsnap hmem
  obtain ⟨br, vt, hbe, hfirst, hlength, hvtep⟩ := hplaced id r hr
  obtain ⟨hvalid, -, hnetwork⟩ := hagree id r hr
  have hkey := Ipam.mem_listAllocations.mp hmem
  obtain ⟨n, hcidr⟩ := hvalid.sound.cidr
  obtain ⟨idx, hidx, hip, -⟩ := hvalid.sound.slot hkey
  obtain ⟨hpod, hnat⟩ := Ipam.toNat_indexToIP hcidr hidx
  have hn : n < 32 := by
    have hle := hcidr.ones_le
    by_contra hmax
    obtain rfl : n = 32 := by omega
    rw [Ipam.BitmapIPAM.capacity, Ipam.capacity_eq hcidr, hcidr.size] at hidx
    simp at hidx
  rw [← hip] at hpod hnat
  rw [hnetwork] at hcidr hnat
  obtain ⟨ip, hbridge, hlength', hbr⟩ := firstIP_eq hcidr hn
  rw [hfirst, Except.ok.injEq] at hbridge
  rw [NetworkManager.snapshotTenantInfra, hr, Except.ok.injEq] at hsnap
  subst hsnap
  simp only [buildTenantSnapshot, hbe, Option.map_some, Option.getD_some, hbridge]
  constructor
  · by_contra hequal
    rw [Bool.not_eq_false, equalIP_iff hpod, to4_of_length hlength] at hequal
    rw [hequal, hnat] at hvtep
    omega
  · by_contra hequal
    rw [Bool.not_eq_false, equalIP_iff hpod, to4_of_length hlength'] at hequal
    rw [hequal, hnat] at hbr
    omega

/-- After every run of a new network manager in which tenants are only expanded from the lower
half of the larger network, without failures, no pod has the address of a device of its
tenant. -/
theorem after_apart {root : IPNet} {ones bits : ℕ} (hroot : IsCIDR root ones bits)
    {leafMask : ℤ} {tm : TrieManager} (hnew : newTrieManager root leafMask = some tm)
    (h : Hashes) (nodeName : String) (ops : List Op)
    (hmeets : Machine.Meets (step h) Op.KeepsBase (newNetworkManager nodeName tm) ops) :
  Apart (Machine.after (step h) (newNetworkManager nodeName tm) ops)
  := by
  have hafter : Throughout root leafMask nodeName (fun v => Agreeing bits v ∧ Placed v)
      (Machine.after (step h) (newNetworkManager nodeName tm) ops) := by
    apply after_newNetworkManager hroot hnew _ _ hmeets
    · constructor <;>
      · intro r hr
        simp at hr
    · intro nm op reply v hkeeps ⟨hagree, hplaced⟩ heffect
      have hbase : ∀ id o r p q, op = .expandTenant id o → (nm.view op.id).record = some r →
          (nm.view op.id).held = some p → nm.Grants op.id q → o.CanMove ∧ IsLowerHalf p := by
        rintro id o r p q rfl hr hp hq
        apply hkeeps r p q hr (TrieManager.held_eq_some.mp hp) hq
      constructor
      · apply (heffect.agreeing hagree _).1
        intro id o r q hop hr hq
        apply (hbase id o r r.subnet q hop hr (hagree r hr).2.1 hq).1
      · apply heffect.placed hplaced hagree hbase
  apply Placed.apart (fun id => (hafter.views id).2) (fun id => (hafter.views id).1)

theorem after_apart_slash28 :
  ∃ tm, newTrieManager ⟨[10, 0, 0, 0], cidrMask 28 32⟩ 30 = some tm
    ∧ Apart (Machine.after (step ⟨fun _ => [], fun _ => []⟩) (newNetworkManager "node" tm)
      [.ensureTenant "a" .success, .expandTenant "a" .success,
        .ensurePod "a" ⟨"", "pod", "c1", "ns", "eth0"⟩ .success])
  := by
  obtain ⟨hroot, tm, hnew⟩ :=
    exists_newTrieManager_ipv4 [10, 0, 0, 0] 28 30 rfl (by decide) (by decide)
  use tm, hnew
  apply after_apart hroot hnew
  refine ⟨trivial, ?_, trivial, trivial⟩
  intro r p q _ hget _
  refine ⟨⟨rfl, rfl, rfl⟩, ?_⟩
  -- the tenant has the first network of the root network
  have hrun : (newTrieManager ⟨[10, 0, 0, 0], cidrMask 28 32⟩ 30).map (fun tm =>
      (step ⟨fun _ => [], fun _ => []⟩ (newNetworkManager "node" tm)
        (.ensureTenant "a" .success)).2.subnet.get "a")
      = some (.ok ⟨[10, 0, 0, 0], cidrMask 30 32⟩) := by
    decide +kernel
  rw [hnew, Option.map_some, hget, Option.some.injEq, Except.ok.injEq] at hrun
  rw [hrun, IsLowerHalf]
  decide +kernel

/-- A tenant in the upper half of a network is expanded to it; one of the next pods gets the
address that is still reported for the VTEP. -/
theorem expandTenant_not_apart :
  ∃ h tm, newTrieManager ⟨[10, 0, 0, 0], cidrMask 29 32⟩ 30 = some tm
    ∧ ¬ Apart (Machine.after (step h) (newNetworkManager "node" tm)
      [.ensureTenant "a" .success, .ensureTenant "b" .success, .removeTenant "a" .success,
        .expandTenant "b" .success, .ensurePod "b" ⟨"", "p1", "c1", "ns1", "eth0"⟩ .success,
        .ensurePod "b" ⟨"", "p2", "c2", "ns2", "eth0"⟩ .success,
        .ensurePod "b" ⟨"", "p3", "c3", "ns3", "eth0"⟩ .success])
  := by
  obtain ⟨-, tm, hnew⟩ :=
    exists_newTrieManager_ipv4 [10, 0, 0, 0] 29 30 rfl (by decide) (by decide)
  refine ⟨⟨fun _ => [], fun _ => []⟩, tm, hnew, ?_⟩
  -- the address of the third pod and that of the VTEP after the run
  have hrun : (newTrieManager ⟨[10, 0, 0, 0], cidrMask 29 32⟩ 30).map (fun tm =>
      let nm := Machine.after (step ⟨fun _ => [], fun _ => []⟩) (newNetworkManager "node" tm)
        [.ensureTenant "a" .success, .ensureTenant "b" .success, .removeTenant "a" .success,
          .expandTenant "b" .success, .ensurePod "b" ⟨"", "p1", "c1", "ns1", "eth0"⟩ .success,
          .ensurePod "b" ⟨"", "p2", "c2", "ns2", "eth0"⟩ .success,
          .ensurePod "b" ⟨"", "p3", "c3", "ns3", "eth0"⟩ .success]
      ((nm.tenantRecords.lookup "b").map fun r =>
        ((r.ipam.getAllocation "p3").map (·.ip), (buildTenantSnapshot r).vtepIP)))
      = some (some (some [10, 0, 0, 4], [10, 0, 0, 4])) := by
    decide +kernel
  rw [hnew, Option.map_some, Option.some.injEq, Option.map_eq_some_iff] at hrun
  obtain ⟨r, hr, hpair⟩ := hrun
  rw [Prod.mk.injEq, Option.map_eq_some_iff] at hpair
  obtain ⟨⟨info, hinfo, hip⟩, hvtep⟩ := hpair
  intro hapart
  have hne := (hapart "b" r _ "p3" info hr (by
    rw [NetworkManager.snapshotTenantInfra, hr]) (Ipam.mem_listAllocations.mpr hinfo)).1
  rw [hip, hvtep] at hne
  simp [equalIP] at hne

end Nmanager
