import Misokube.Ipam.Accounting

/-!
# Runs of the IPAM

The IPAM as a machine with the operations `Allocate`, `Free` and `Expand`.  Every operation keeps
it sound.  An allocation for a pod key that has an address already leaves the bit of the old
address set without a pod key; every other operation keeps the accounting exact, and a
successful expansion makes it exact again.
-/

namespace Ipam

open Net

section

variable {s : BitmapIPAM}

/-! ### Soundness of the operations -/

theorem allocate_sound (h : Sound s) (podKey containerID ifName netns : String) :
  Sound (s.allocate podKey containerID ifName netns).2
  := by
  obtain ⟨ones, hcidr⟩ := h.cidr
  obtain ⟨e, heq, -⟩ | ⟨pos, hpos, hfree, -, heq⟩ :=
    allocate_cases h podKey containerID ifName netns
  · rw [heq]
    exact h
  rw [heq]
  have hwords := h.words
  have hlt : pos < 64 * s.bitmap.length := by omega
  -- the addresses of the other pod keys are not the new one, whose bit was not set
  have hnew : ∀ {key info}, s.ips.lookup key = some info → info.ip ≠ indexToIP s.network pos := by
    intro key info hkey hip
    obtain ⟨idx, hidx, hslot, htest⟩ := h.slot hkey
    rw [hslot] at hip
    rw [indexToIP_injective hcidr hidx hpos hip, hfree] at htest
    simp at htest
  constructor
  · exact ⟨ones, hcidr⟩
  · rw [Bitmap.length_set]
    exact hwords
  · intro idx hidx
    rw [Bitmap.test_set hlt, Bool.or_eq_true, decide_eq_true_eq] at hidx
    obtain rfl | hidx := hidx
    · exact hpos
    · apply h.below hidx
  · intro key info hkey
    rw [GoMap.lookup_insert_eq] at hkey
    split at hkey
    · obtain rfl := Option.some.inj hkey
      refine ⟨pos, hpos, rfl, ?_⟩
      rw [Bitmap.test_set hlt]
      simp
    · obtain ⟨idx, hidx, hip, htest⟩ := h.slot hkey
      refine ⟨idx, hidx, hip, ?_⟩
      rw [Bitmap.test_set hlt, htest, Bool.or_true]
  · intro key key' info info' hkey hkey' hip
    rw [GoMap.lookup_insert_eq] at hkey hkey'
    split at hkey
    case isTrue hk =>
      split at hkey'
      case isTrue hk' => rw [hk, hk']
      case isFalse =>
        obtain rfl := Option.some.inj hkey
        exact absurd hip.symm (hnew hkey')
    case isFalse =>
      split at hkey'
      case isTrue =>
        obtain rfl := Option.some.inj hkey'
        exact absurd hip (hnew hkey)
      case isFalse => apply h.injective hkey hkey' hip

theorem free_sound (h : Sound s) (ip : IP) :
  Sound (s.free ip).2
  := by
  obtain ⟨ones, hcidr⟩ := h.cidr
  obtain ⟨e, heq, -⟩ | ⟨idx, hidx, hip, heq⟩ := free_cases h ip
  · rw [heq]
    exact h
  rw [heq]
  have hlookup : ∀ {key info}, (BitmapIPAM.deleteIP s.ips ip).lookup key = some info →
      s.ips.lookup key = some info ∧ info.ip ≠ indexToIP s.network idx := by
    intro key info hkey
    rw [h.lookup_deleteIP, Option.filter_eq_some_iff] at hkey
    obtain ⟨hkey, hne⟩ := hkey
    use hkey
    intro hequal
    rw [← hip] at hequal
    have hequal' := (equalIP_iff (h.length_ip hkey) ip).mpr hequal.symm
    simp [hequal'] at hne
  constructor
  · exact ⟨ones, hcidr⟩
  · rw [Bitmap.length_clear]
    exact h.words
  · intro j hj
    rw [Bitmap.test_clear, Bool.and_eq_true] at hj
    apply h.below hj.2
  · intro key info hkey
    obtain ⟨hkey, hne⟩ := hlookup hkey
    obtain ⟨j, hj, hslot, htest⟩ := h.slot hkey
    refine ⟨j, hj, hslot, ?_⟩
    have hj' : j ≠ idx := by
      rintro rfl
      exact hne hslot
    rw [Bitmap.test_clear, htest]
    simpa using hj'
  · intro key key' info info' hkey hkey'
    apply h.injective (hlookup hkey).1 (hlookup hkey').1

theorem expand_sound (h : Sound s) {newSubnet : IPNet} {ones : ℕ}
    (hnew : IsCIDR newSubnet ones 32) :
  Sound (s.expand (some newSubnet)).2
  := by
  obtain ⟨e, heq, -⟩ | ⟨bitmap, heq, -, hwords, hslots, htest⟩ := expand_cases h hnew
  · rw [heq]
    exact h
  rw [heq]
  constructor
  · exact ⟨ones, hnew⟩
  · exact hwords
  · intro idx hidx
    apply ((htest idx).mp hidx).1
  · intro key info hkey
    obtain ⟨idx, hidx, hip⟩ := hslots key info hkey
    exact ⟨idx, hidx, hip, (htest idx).mpr ⟨hidx, key, info, hkey, hip⟩⟩
  · intro key key' info info' hkey hkey'
    apply h.injective hkey hkey'

/-! ### The network of the IPAM -/

theorem allocate_network (s : BitmapIPAM) (podKey containerID ifName netns : String) :
  (s.allocate podKey containerID ifName netns).2.network = s.network
  := by
  rw [BitmapIPAM.allocate]
  split
  · rfl
  split <;> rfl

/-- An allocation keeps the IPAM sound and its network. -/
theorem allocate_spec (h : Sound s) {podKey containerID ifName netns : String}
    {result : Except Error ContainerNetInfo} {s' : BitmapIPAM}
    (halloc : s.allocate podKey containerID ifName netns = (result, s')) :
  Sound s' ∧ s'.network = s.network
  := by
  have hsound := allocate_sound h podKey containerID ifName netns
  have hnetwork := allocate_network s podKey containerID ifName netns
  rw [halloc] at hsound hnetwork
  exact ⟨hsound, hnetwork⟩

theorem free_network (s : BitmapIPAM) (ip : IP) :
  (s.free ip).2.network = s.network
  := by
  rw [BitmapIPAM.free]
  split
  · rfl
  split
  · rfl
  split <;> rfl

/-! ### Tightness of the operations -/

/-- An allocation for a pod key without an address keeps the IPAM tight. -/
theorem allocate_tight (h : Sound s) (htight : Tight s) {podKey : String}
    (hfresh : s.getAllocation podKey = none ∨ s.remaining = 0)
    (containerID ifName netns : String) :
  Tight (s.allocate podKey containerID ifName netns).2
  := by
  obtain ⟨e, heq, -⟩ | ⟨pos, hpos, hfree, -, heq⟩ :=
    allocate_cases h podKey containerID ifName netns
  · rw [heq]
    exact htight
  have hlookup : s.ips.lookup podKey = none := by
    obtain hnone | hzero := hfresh
    · exact hnone
    · rw [h.remaining_eq_zero_iff] at hzero
      rw [hzero pos hpos] at hfree
      simp at hfree
  rw [heq]
  have hwords := h.words
  have hlt : pos < 64 * s.bitmap.length := by omega
  intro idx hidx
  rw [Bitmap.test_set hlt, Bool.or_eq_true, decide_eq_true_eq] at hidx
  obtain rfl | hidx := hidx
  · exact ⟨podKey, _, AList.lookup_insert _, rfl⟩
  · obtain ⟨key, info, hkey, hip⟩ := htight idx hidx
    refine ⟨key, info, ?_, hip⟩
    have hne : key ≠ podKey := by
      rintro rfl
      simp [hlookup] at hkey
    simp only [AList.lookup_insert_ne hne, hkey]

theorem free_tight (h : Sound s) (htight : Tight s) (ip : IP) :
  Tight (s.free ip).2
  := by
  obtain ⟨ones, hcidr⟩ := h.cidr
  obtain ⟨e, heq, -⟩ | ⟨idx, hidx, hip, heq⟩ := free_cases h ip
  · rw [heq]
    exact htight
  rw [heq]
  intro j hj
  rw [Bitmap.test_clear, Bool.and_eq_true, decide_eq_true_eq] at hj
  obtain ⟨hne, hj⟩ := hj
  obtain ⟨key, info, hkey, hslot⟩ := htight j hj
  refine ⟨key, info, ?_, hslot⟩
  simp only [h.lookup_deleteIP, hkey, Option.filter_some]
  have hequal : equalIP info.ip ip = false := by
    rw [← Bool.not_eq_true, equalIP_iff (h.length_ip hkey), hip, hslot]
    intro heq'
    exact hne (indexToIP_injective hcidr (h.below hj) hidx heq'.symm)
  simp [hequal]

/-- A successful expansion makes the IPAM tight. -/
theorem expand_tight (h : Sound s) {newSubnet : IPNet} {ones : ℕ}
    (hnew : IsCIDR newSubnet ones 32) (hok : (s.expand (some newSubnet)).1 = .ok ()) :
  Tight (s.expand (some newSubnet)).2
  := by
  obtain ⟨e, heq, -⟩ | ⟨bitmap, heq, -, -, -, htest⟩ := expand_cases h hnew
  · rw [heq] at hok
    simp at hok
  rw [heq]
  intro idx hidx
  apply ((htest idx).mp hidx).2

/-! ### Exact accounting -/

/-- The accounting is exact: as many addresses are set as are listed, and an address is set
exactly when one pod key has it. -/
structure Exact (s : BitmapIPAM) : Prop where
  count_eq : s.capacity - s.remaining = s.listAllocations.length
  test_iff : ∀ idx < s.capacity, Bitmap.test s.bitmap idx = true
    ↔ ∃! key, ∃ info, (key, info) ∈ s.listAllocations
      ∧ equalIP info.ip (indexToIP s.network idx) = true

theorem mem_listAllocations {key : String} {info : ContainerNetInfo} :
  (key, info) ∈ s.listAllocations ↔ s.ips.lookup key = some info
  := by
  rw [BitmapIPAM.listAllocations, List.mem_map, ← Option.mem_def, AList.mem_lookup_iff]
  constructor
  · rintro ⟨⟨key', info'⟩, he, heq⟩
    obtain ⟨rfl, rfl⟩ := Prod.mk.inj heq
    exact he
  · intro he
    exact ⟨_, he, rfl⟩

/-- The bitmap index of the address of an entry. -/
def entryIndex (s : BitmapIPAM) (e : Σ _ : String, ContainerNetInfo) : ℕ :=
  toNat e.2.ip - (base s.network + 2)

theorem Sound.entryIndex_spec (h : Sound s) {e : Σ _ : String, ContainerNetInfo}
    (he : e ∈ s.ips.entries) :
  entryIndex s e < s.capacity ∧ e.2.ip = indexToIP s.network (entryIndex s e)
    ∧ Bitmap.test s.bitmap (entryIndex s e) = true
  := by
  obtain ⟨ones, hcidr⟩ := h.cidr
  obtain ⟨idx, hidx, hip, htest⟩ := h.slot (AList.mem_lookup_iff.mpr he)
  have heq : entryIndex s e = idx := by
    rw [entryIndex, hip, (toNat_indexToIP hcidr hidx).2, Nat.add_sub_cancel_left]
  rw [heq]
  exact ⟨hidx, hip, htest⟩

/-- The entries have different indices. -/
theorem Sound.nodup_entryIndex (h : Sound s) :
  (s.ips.entries.map (entryIndex s)).Nodup
  := by
  apply List.Nodup.map_on _ s.ips.nodupKeys.nodup
  rintro ⟨key, info⟩ he ⟨key', info'⟩ he' heq
  have hip : info.ip = info'.ip := by
    have hspec := (h.entryIndex_spec he).2.1
    have hspec' := (h.entryIndex_spec he').2.1
    rw [heq, ← hspec'] at hspec
    exact hspec
  have hkey : s.ips.lookup key = some info := AList.mem_lookup_iff.mpr he
  have hkey' : s.ips.lookup key' = some info' := AList.mem_lookup_iff.mpr he'
  have hsame := h.injective hkey hkey' hip
  subst hsame
  rw [hkey, Option.some.injEq] at hkey'
  rw [hkey']

/-- As many addresses are set as are listed. -/
theorem Tight.used_eq (htight : Tight s) (h : Sound s) :
  Bitmap.used s.bitmap = s.listAllocations.length
  := by
  obtain ⟨ones, hcidr⟩ := h.cidr
  have hmarked : Bitmap.marked s.bitmap = (s.ips.entries.map (entryIndex s)).toFinset := by
    ext idx
    rw [Bitmap.mem_marked, List.mem_toFinset, List.mem_map]
    constructor
    · intro htest
      obtain ⟨key, info, hkey, hip⟩ := htight idx htest
      have hmem := AList.mem_lookup_iff.mp hkey
      obtain ⟨hlt, hip', -⟩ := h.entryIndex_spec hmem
      refine ⟨_, hmem, ?_⟩
      apply indexToIP_injective hcidr hlt (h.below htest)
      rw [← hip', hip]
    · rintro ⟨e, he, rfl⟩
      apply (h.entryIndex_spec he).2.2
  rw [Bitmap.used_eq_card, hmarked, List.toFinset_card_of_nodup h.nodup_entryIndex,
    List.length_map, BitmapIPAM.listAllocations, List.length_map]

/-- No more addresses are listed than there are. -/
theorem Sound.length_listAllocations_le (h : Sound s) :
  s.listAllocations.length ≤ s.capacity
  := by
  have hsub : (s.ips.entries.map (entryIndex s)).toFinset ⊆ Finset.range s.capacity := by
    intro idx hidx
    rw [List.mem_toFinset, List.mem_map] at hidx
    obtain ⟨e, he, rfl⟩ := hidx
    rw [Finset.mem_range]
    apply (h.entryIndex_spec he).1
  have hcard := Finset.card_le_card hsub
  rw [List.toFinset_card_of_nodup h.nodup_entryIndex, Finset.card_range, List.length_map] at hcard
  rw [BitmapIPAM.listAllocations, List.length_map]
  exact hcard

/-- A successful expansion to a subnet with more addresses leaves some of them: only what is
listed, which had room before, is in use. -/
theorem expand_remaining (h : Sound s) {newSubnet : IPNet} {ones : ℕ}
    (hnew : IsCIDR newSubnet ones 32) (hmore : s.capacity < capacity newSubnet)
    (hok : (s.expand (some newSubnet)).1 = .ok ()) :
  (s.expand (some newSubnet)).2.remaining ≠ 0
  := by
  have hsound := expand_sound h hnew
  have hused := (expand_tight h hnew hok).used_eq hsound
  have hle := h.length_listAllocations_le
  rw [hsound.remaining_eq, hused]
  obtain ⟨e, heq, -⟩ | ⟨bitmap, heq, -⟩ := expand_cases h hnew
  · simp [heq] at hok
  rw [heq]
  simp only [BitmapIPAM.capacity, BitmapIPAM.listAllocations] at hmore hle ⊢
  omega

/-- The accounting of a sound and tight IPAM is exact. -/
theorem Tight.exact (htight : Tight s) (h : Sound s) :
  Exact s
  := by
  obtain ⟨ones, hcidr⟩ := h.cidr
  constructor
  · have hle := h.used_le
    rw [h.remaining_eq, ← htight.used_eq h]
    omega
  · intro idx hidx
    simp only [mem_listAllocations]
    have hlength := (toNat_indexToIP hcidr hidx).1
    constructor
    · intro htest
      obtain ⟨key, info, hkey, hip⟩ := htight idx htest
      refine ⟨key, ⟨info, hkey, ?_⟩, ?_⟩
      · rw [equalIP_iff (h.length_ip hkey), to4_of_length hlength, hip]
      · rintro key' ⟨info', hkey', hequal⟩
        rw [equalIP_iff (h.length_ip hkey'), to4_of_length hlength] at hequal
        apply h.injective hkey' hkey
        rw [← hequal, hip]
    · rintro ⟨key, ⟨info, hkey, hequal⟩, -⟩
      rw [equalIP_iff (h.length_ip hkey), to4_of_length hlength] at hequal
      obtain ⟨j, hj, hip, htest⟩ := h.slot hkey
      rw [hip] at hequal
      rw [indexToIP_injective hcidr hidx hj hequal]
      exact htest

end

/-! ### Runs -/

/-- An operation of the IPAM. -/
inductive Op where
  | allocate (podKey containerID ifName netns : String)
  | free (ip : IP)
  | expand (newSubnet : Option IPNet)

/-- The answer of an operation: what `Allocate` returns about the container, or an error. -/
abbrev Reply := Except Error (Option ContainerNetInfo)

/-- An operation of the IPAM. -/
def step (s : BitmapIPAM) : Op → Reply × BitmapIPAM
  | .allocate podKey containerID ifName netns =>
    ((s.allocate podKey containerID ifName netns).1.map some,
      (s.allocate podKey containerID ifName netns).2)
  | .free ip => ((s.free ip).1.map fun _ => none, (s.free ip).2)
  | .expand newSubnet => ((s.expand newSubnet).1.map fun _ => none, (s.expand newSubnet).2)

/-- Subnets that are passed to `Expand` are nil or IPv4 subnets. -/
def Op.IsIPv4 : Op → Prop
  | .expand (some newSubnet) => ∃ ones, IsCIDR newSubnet ones 32
  | _ => True

/-- An allocation is for a pod key that has no address, or fails because no address remains. -/
def Op.IsFresh (s : BitmapIPAM) : Op → Prop
  | .allocate podKey _ _ _ => s.getAllocation podKey = none ∨ s.remaining = 0
  | _ => True

/-- Every operation keeps the IPAM sound. -/
theorem step_sound {s : BitmapIPAM} (h : Sound s) {op : Op} (hop : op.IsIPv4) :
  Sound (step s op).2
  := by
  cases op with
  | allocate podKey containerID ifName netns => apply allocate_sound h
  | free ip => apply free_sound h
  | expand newSubnet =>
    cases newSubnet with
    | none => exact h
    | some newSubnet =>
      obtain ⟨ones, hnew⟩ := hop
      apply expand_sound h hnew

/-- Every operation but a repeated allocation keeps the IPAM tight. -/
theorem step_tight {s : BitmapIPAM} (h : Sound s) (htight : Tight s) {op : Op} (hop : op.IsIPv4)
    (hfresh : op.IsFresh s) :
  Tight (step s op).2
  := by
  cases op with
  | allocate podKey containerID ifName netns => apply allocate_tight h htight hfresh
  | free ip => apply free_tight h htight
  | expand newSubnet =>
    cases newSubnet with
    | none => exact htight
    | some newSubnet =>
      obtain ⟨ones, hnew⟩ := hop
      cases hresult : (s.expand (some newSubnet)).1 with
      | ok => apply expand_tight h hnew hresult
      | error e =>
        obtain ⟨e', heq, -⟩ | ⟨bitmap, heq, -⟩ := expand_cases h hnew
        · simp only [step, heq]
          exact htight
        · rw [heq] at hresult
          simp at hresult

/-- A new IPAM of an IPv4 subnet of mask at most 30 is sound and tight. -/
theorem newBitmapIPAM_sound {subnet : IPNet} {ones : ℕ} (hsubnet : IsCIDR subnet ones 32)
    (hones : ones ≤ 30) :
  ∃ s, newBitmapIPAM (some subnet) = .ok s ∧ s.network = subnet ∧ s.ips = ∅ ∧ Sound s ∧ Tight s
  := by
  have hpow : 2 ^ 2 ≤ 2 ^ (32 - ones) := by
    apply Nat.pow_le_pow_right (by decide)
    omega
  have hsmall : ¬ 2 ^ (32 - ones) < 4 := by omega
  have hpods : ¬ 2 ^ (32 - ones) - 2 - 1 = 0 := by omega
  refine ⟨⟨subnet, List.replicate ((2 ^ (32 - ones) - 2 - 1 + 63) / 64) 0, ∅⟩, ?_, rfl, rfl,
    ⟨⟨ones, hsubnet⟩, ?_, ?_, ?_, ?_⟩, ?_⟩
  · simp only [newBitmapIPAM, hsubnet.maskSize, ne_eq, not_true_eq_false, if_false,
      if_neg hsmall, if_neg hpods]
  · rw [BitmapIPAM.capacity, capacity_eq hsubnet, hsubnet.size, List.length_replicate]
    omega
  · intro idx hidx
    rw [Bitmap.test_replicate] at hidx
    simp at hidx
  · intro key info hkey
    simp at hkey
  · intro key key' info info' hkey
    simp at hkey
  · intro idx hidx
    rw [Bitmap.test_replicate] at hidx
    simp at hidx

/-- There is an IPAM of IPv4 subnets only, and only if the mask is at most 30. -/
theorem newBitmapIPAM_ok {subnet : IPNet} {ones bits : ℕ} (hsubnet : IsCIDR subnet ones bits)
    {s : BitmapIPAM} (h : newBitmapIPAM (some subnet) = .ok s) :
  bits = 32 ∧ ones ≤ 30 ∧ s.network = subnet ∧ s.ips = ∅ ∧ Sound s ∧ Tight s
  := by
  have hnew := h
  simp only [newBitmapIPAM, hsubnet.maskSize] at h
  split at h
  · simp at h
  case isFalse hbits =>
    rw [not_not] at hbits
    subst hbits
    split at h
    · simp at h
    case isFalse hsmall =>
      have hones : ones ≤ 30 := by
        by_contra hlarge
        apply hsmall
        have hpow : 2 ^ (32 - ones) ≤ 2 ^ 1 := Nat.pow_le_pow_right (by decide) (by omega)
        omega
      obtain ⟨s', hs', hnetwork, hips, hsound, htight⟩ := newBitmapIPAM_sound hsubnet hones
      rw [hnew, Except.ok.injEq] at hs'
      subst hs'
      exact ⟨rfl, hones, hnetwork, hips, hsound, htight⟩

/-- After every run of a new IPAM of an IPv4 subnet of mask at most 30 in which no pod key that
has an address is given another one, the accounting is exact. -/
theorem after_exact {subnet : IPNet} {ones : ℕ} (hsubnet : IsCIDR subnet ones 32)
    (hones : ones ≤ 30) :
  ∃ s, newBitmapIPAM (some subnet) = .ok s
    ∧ ∀ ops, Machine.Meets step (fun s op => op.IsIPv4 ∧ op.IsFresh s) s ops →
      Exact (Machine.after step s ops)
  := by
  obtain ⟨s, hs, -, -, hsound, htight⟩ := newBitmapIPAM_sound hsubnet hones
  use s, hs
  intro ops hmeets
  have hafter : Sound (Machine.after step s ops) ∧ Tight (Machine.after step s ops) := by
    apply Machine.after_of_meets (P := fun s => Sound s ∧ Tight s) _ ⟨hsound, htight⟩ hmeets
    rintro s op ⟨hsound, htight⟩ ⟨hipv4, hfresh⟩
    exact ⟨step_sound hsound hipv4, step_tight hsound htight hipv4 hfresh⟩
  apply hafter.2.exact hafter.1

/-- Two pods get addresses, one address is freed and given out again, and the subnet grows. -/
def freedAndExpanded : List Op :=
  [.allocate "p" "c1" "eth0" "ns1", .allocate "q" "c2" "eth0" "ns2", .free [10, 0, 0, 2],
    .allocate "r" "c3" "eth0" "ns3", .expand (some ⟨[10, 0, 0, 0], cidrMask 23 32⟩)]

theorem after_exact_slash24 :
  ∃ s, newBitmapIPAM (some ⟨[10, 0, 0, 0], cidrMask 24 32⟩) = .ok s
    ∧ (Machine.after step s freedAndExpanded).capacity = 509
    ∧ (Machine.after step s freedAndExpanded).listAllocations.length = 2
    ∧ Exact (Machine.after step s freedAndExpanded)
  := by
  have hsubnet : IsCIDR ⟨[10, 0, 0, 0], cidrMask 24 32⟩ 24 32 :=
    (isCIDR_mk (Or.inl rfl) (by decide) rfl).1
  have hexpanded : IsCIDR ⟨[10, 0, 0, 0], cidrMask 23 32⟩ 23 32 :=
    (isCIDR_mk (Or.inl rfl) (by decide) rfl).1
  have hnew : newBitmapIPAM (some ⟨[10, 0, 0, 0], cidrMask 24 32⟩)
      = .ok ⟨⟨[10, 0, 0, 0], cidrMask 24 32⟩, [0, 0, 0, 0], ∅⟩ := rfl
  obtain ⟨s, hs, hafter⟩ := after_exact hsubnet (by decide)
  cases hs.symm.trans hnew
  refine ⟨_, hnew, by decide +kernel, by decide +kernel, hafter freedAndExpanded ?_⟩
  exact ⟨⟨trivial, .inl (by decide +kernel)⟩, ⟨trivial, .inl (by decide +kernel)⟩,
    ⟨trivial, trivial⟩, ⟨trivial, .inl (by decide +kernel)⟩, ⟨⟨23, hexpanded⟩, trivial⟩, trivial⟩

/-- Allocating twice for a pod key leaves two bits set and one pod key listed. -/
theorem allocate_twice_not_exact :
  ∃ s, newBitmapIPAM (some ⟨[10, 0, 0, 0], cidrMask 29 32⟩) = .ok s
    ∧ ¬ Exact (Machine.after step s
      [.allocate "pod" "c1" "eth0" "ns1", .allocate "pod" "c2" "eth0" "ns2"])
  := by
  refine ⟨⟨⟨[10, 0, 0, 0], cidrMask 29 32⟩, [0], ∅⟩, rfl, ?_⟩
  intro hexact
  have hcount := hexact.count_eq
  revert hcount
  decide +kernel

end Ipam
