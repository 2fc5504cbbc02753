import Misokube.Ipam.Invariant

/-!
# What the calls of the IPAM answer

`Allocate` gives out the smallest address of the pod range whose bit is not set, and fails exactly
when none remains; `Free` accepts exactly the addresses of the pod range; and freeing the address
that was just allocated for a new pod key restores the IPAM (`Reachable.behaves`).
-/

namespace Ipam

open Net

/-- The address is between that of the bridge and the broadcast address of the IPAM's subnet. -/
def InPodRange (s : BitmapIPAM) (ip : IP) : Prop :=
  (to4 ip).length = 4 ∧ base s.network + 2 ≤ toNat (to4 ip)
    ∧ toNat (to4 ip) ≤ base s.network + size s.network - 1 - 1

/-- The address has a bit, which is not set. -/
def IsClear (s : BitmapIPAM) (ip : IP) : Prop :=
  ∃ idx : ℕ, ipToIndex s.network ip = some (idx : ℤ) ∧ Bitmap.test s.bitmap idx = false

/-- What an allocation does when an address remains. -/
structure Serves (s : BitmapIPAM) (podKey : String) (ci : ContainerNetInfo) (s' : BitmapIPAM) :
    Prop where
  range : InPodRange s ci.ip
  clear : IsClear s ci.ip
  least : ∀ ip, InPodRange s ip → IsClear s ip → toNat (to4 ci.ip) ≤ toNat (to4 ip)
  drops : s'.remaining + 1 = s.remaining
  others : ∀ key, key ≠ podKey → s'.getAllocation key = s.getAllocation key

/-- The calls of the IPAM in a state. -/
structure Behaves (s : BitmapIPAM) : Prop where
  exhausted_iff : ∀ podKey containerID ifName netns,
    (∃ n, (s.allocate podKey containerID ifName netns).1 = .error (.noAvailableIPs n))
      ↔ s.remaining = 0
  exhausted : ∀ podKey containerID ifName netns, s.remaining = 0 →
    (s.allocate podKey containerID ifName netns).2 = s
  serves : ∀ podKey containerID ifName netns, s.remaining ≠ 0 →
    ∃ ci s', s.allocate podKey containerID ifName netns = (.ok ci, s') ∧ Serves s podKey ci s'
  refuses : ∀ ip, ¬ InPodRange s ip → ∃ e, s.free ip = (.error e, s)
  accepts : ∀ ip, InPodRange s ip → (s.free ip).1 = .ok ()
  restores : ∀ podKey containerID ifName netns ci s', s.getAllocation podKey = none →
    s.allocate podKey containerID ifName netns = (.ok ci, s') → s'.free ci.ip = (.ok (), s)

section

variable {s s' : BitmapIPAM}

/-! ### Sound states -/

/-- The addresses of the pod range are those of the indices. -/
theorem Sound.inPodRange_iff (h : Sound s) {ip : IP} :
  InPodRange s ip ↔ ∃ idx < s.capacity, to4 ip = indexToIP s.network idx
  := by
  obtain ⟨ones, hcidr⟩ := h.cidr
  have hcapacity : s.capacity = size s.network - 3 := capacity_eq hcidr
  constructor
  · rintro ⟨hlength, hlow, hhigh⟩
    obtain ⟨idx, hidx⟩ := Nat.exists_eq_add_of_le hlow
    have hlt : idx < s.capacity := by omega
    obtain ⟨hlength', hnat⟩ := toNat_indexToIP hcidr hlt
    use idx, hlt
    apply toNat_injective
    · rw [hlength, hlength']
    · rw [hnat, hidx]
  · rintro ⟨idx, hidx, hip⟩
    obtain ⟨hlength, hnat⟩ := toNat_indexToIP hcidr hidx
    rw [InPodRange, hip, hnat]
    exact ⟨hlength, by omega, by omega⟩

/-- The bit of an address of the pod range is that of its index. -/
theorem Sound.isClear_iff (h : Sound s) {ip : IP} {idx : ℕ} (hidx : idx < s.capacity)
    (hip : to4 ip = indexToIP s.network idx) :
  IsClear s ip ↔ Bitmap.test s.bitmap idx = false
  := by
  obtain ⟨ones, hcidr⟩ := h.cidr
  obtain ⟨j, hj, hslot, hindex⟩ | ⟨-, hnone⟩ := ipToIndex_cases hcidr ip
  · obtain rfl := indexToIP_injective hcidr hj hidx (hslot.symm.trans hip)
    simp [IsClear, hindex]
  · exact absurd hip (hnone idx hidx)

/-- An allocation that finds an address gives out the least one that is not set. -/
theorem Sound.serves (h : Sound s) {podKey containerID ifName netns : String}
    (hremaining : s.remaining ≠ 0) :
  ∃ ci s', s.allocate podKey containerID ifName netns = (.ok ci, s') ∧ Serves s podKey ci s'
  := by
  obtain ⟨ones, hcidr⟩ := h.cidr
  obtain ⟨e, -, hzero⟩ | ⟨pos, hpos, hfree, hlow, heq⟩ :=
    allocate_cases h podKey containerID ifName netns
  · exact absurd hzero hremaining
  refine ⟨_, _, heq, ?_⟩
  obtain ⟨hlength, hnat⟩ := toNat_indexToIP hcidr hpos
  have hto4 := to4_of_length hlength
  constructor
  · exact h.inPodRange_iff.mpr ⟨pos, hpos, hto4⟩
  · exact (h.isClear_iff hpos hto4).mpr hfree
  · intro ip hrange hclear
    obtain ⟨idx, hidx, hip⟩ := h.inPodRange_iff.mp hrange
    rw [h.isClear_iff hidx hip] at hclear
    -- all bits before the one that is found are set
    have hle : pos ≤ idx := by
      by_contra hlt
      rw [hlow idx (by omega)] at hclear
      simp at hclear
    rw [hto4, hip, hnat, (toNat_indexToIP hcidr hidx).2]
    omega
  · exact h.remaining_allocate heq
  · intro key hkey
    apply AList.lookup_insert_ne hkey

/-- Deleting the address of an entry that was just added restores the map. -/
theorem deleteIP_insert {ips : GoMap String ContainerNetInfo} {podKey : String}
    (hnone : ips.lookup podKey = none) (ci : ContainerNetInfo) :
  BitmapIPAM.deleteIP (ips.insert podKey ci) ci.ip = ips
  := by
  have hnot : podKey ∉ ips := AList.lookup_eq_none.mp hnone
  have hentries : (ips.insert podKey ci).entries = ⟨podKey, ci⟩ :: ips.entries :=
    AList.entries_insert_of_notMem hnot
  have hfind : (⟨podKey, ci⟩ :: ips.entries : List (Σ _ : String, ContainerNetInfo)).find?
      (fun e => equalIP e.2.ip ci.ip) = some ⟨podKey, ci⟩ := by
    simp [equalIP]
  rw [BitmapIPAM.deleteIP, hentries, hfind]
  apply AList.ext
  dsimp only [AList.erase]
  rw [hentries]
  simp [List.kerase]

theorem Sound.restores (h : Sound s) {podKey containerID ifName netns : String}
    {ci : ContainerNetInfo} (hnew : s.getAllocation podKey = none)
    (halloc : s.allocate podKey containerID ifName netns = (.ok ci, s')) :
  s'.free ci.ip = (.ok (), s)
  := by
  obtain ⟨ones, hcidr⟩ := h.cidr
  have hsound : Sound s' := (allocate_spec h halloc).1
  obtain ⟨e, heq, -⟩ | ⟨pos, hpos, hfree, -, heq⟩ :=
    allocate_cases h podKey containerID ifName netns
  · simp [heq] at halloc
  rw [heq] at halloc
  obtain ⟨hci, rfl⟩ := Prod.mk.inj halloc
  obtain rfl := Except.ok.inj hci
  have hto4 := to4_of_length (toNat_indexToIP hcidr hpos).1
  obtain ⟨e, -, hnone⟩ | ⟨idx, hidx, hip, heq'⟩ := free_cases hsound (indexToIP s.network pos)
  · exact absurd hto4 (hnone pos hpos)
  obtain rfl := indexToIP_injective hcidr hpos hidx (hto4.symm.trans hip)
  dsimp only at heq' ⊢
  rw [heq', Bitmap.clear_set hfree]
  have hdelete := deleteIP_insert hnew ⟨containerID, ifName, netns, indexToIP s.network pos⟩
  dsimp only at hdelete
  rw [hdelete]

/-- When no address is left, nothing is allocated. -/
theorem Sound.allocate_exhausted (h : Sound s) (hzero : s.remaining = 0)
    {podKey containerID ifName netns : String} :
  s.allocate podKey containerID ifName netns = (.error (.noAvailableIPs s.network), s)
  := by
  obtain ⟨e, heq, -⟩ | ⟨pos, hpos, hfree, -⟩ := allocate_cases h podKey containerID ifName netns
  · obtain ⟨rfl, -⟩ := allocate_error heq
    exact heq
  · rw [h.remaining_eq_zero_iff] at hzero
    rw [hzero pos hpos] at hfree
    cases hfree

theorem Sound.behaves (h : Sound s) :
  Behaves s
  := by
  constructor
  · intro podKey containerID ifName netns
    constructor
    · rintro ⟨n, hn⟩
      by_contra hremaining
      obtain ⟨ci, s', heq, -⟩ := h.serves hremaining
      rw [heq] at hn
      cases hn
    · intro hzero
      use s.network
      rw [h.allocate_exhausted hzero]
  · intro podKey containerID ifName netns hzero
    rw [h.allocate_exhausted hzero]
  · intro podKey containerID ifName netns hremaining
    apply h.serves hremaining
  · intro ip hrange
    obtain ⟨e, heq, -⟩ | ⟨idx, hidx, hip, -⟩ := free_cases h ip
    · exact ⟨e, heq⟩
    · exact absurd (h.inPodRange_iff.mpr ⟨idx, hidx, hip⟩) hrange
  · intro ip hrange
    obtain ⟨idx, hidx, hip⟩ := h.inPodRange_iff.mp hrange
    obtain ⟨e, -, hnone⟩ | ⟨j, -, -, heq⟩ := free_cases h ip
    · exact absurd hip (hnone idx hidx)
    · rw [heq]
  · intro podKey containerID ifName netns ci s' hnew halloc
    apply h.restores hnew halloc

/-! ### States without addresses -/

theorem Void.not_inPodRange (h : Void s) (ip : IP) :
  ¬ InPodRange s ip
  := by
  rintro ⟨-, hlow, hhigh⟩
  have hsize : size s.network = 1 := by
    rw [size, h.broken.size_eq]
    rfl
  omega

theorem Void.behaves (h : Void s) :
  Behaves s
  := by
  have hexhausted : ∀ podKey containerID ifName netns,
      s.allocate podKey containerID ifName netns = (.error (.noAvailableIPs s.network), s) := by
    intro podKey containerID ifName netns
    rw [BitmapIPAM.allocate, if_pos h.capacity_eq]
  constructor
  · intro podKey containerID ifName netns
    apply iff_of_true _ h.remaining_eq
    use s.network
    rw [hexhausted]
  · intro podKey containerID ifName netns _
    rw [hexhausted]
  · intro podKey containerID ifName netns hremaining
    exact absurd h.remaining_eq hremaining
  · intro ip _
    use .ipNotInRange ip s.network
    simp [BitmapIPAM.free, ipToIndex_broken h.broken]
  · intro ip hrange
    exact absurd hrange (h.not_inPodRange ip)
  · intro podKey containerID ifName netns ci s' _ halloc
    rw [hexhausted] at halloc
    cases halloc

end

/-- The calls of an IPAM behave in every state it reaches. -/
theorem reachable_behaves {s : BitmapIPAM} (h : Reachable s) :
  Behaves s
  := by
  rcases h.sound_or_void with hsound | hvoid
  · exact hsound.behaves
  · exact hvoid.behaves

theorem reachable_behaves_slash29 :
  ∃ s, newBitmapIPAM (some ⟨[10, 0, 0, 0], cidrMask 29 32⟩) = .ok s
    ∧ Behaves (Machine.after step s
      [.allocate "p" "c1" "eth0" "ns1", .allocate "p" "c2" "eth0" "ns2", .free [10, 0, 0, 2]])
  := by
  have hnew : newBitmapIPAM (some ⟨[10, 0, 0, 0], cidrMask 29 32⟩)
      = .ok ⟨⟨[10, 0, 0, 0], cidrMask 29 32⟩, [0], ∅⟩ := rfl
  refine ⟨_, hnew, reachable_behaves ?_⟩
  exact ⟨_, _, [.allocate "p" "c1" "eth0" "ns1", .allocate "p" "c2" "eth0" "ns2",
    .free [10, 0, 0, 2]], by decide, hnew, by decide, rfl⟩

end Ipam
