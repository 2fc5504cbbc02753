import Misokube.Ipam.Runs

/-!
# The invariant of the IPAM

After every run of an IPAM different pod keys have different addresses, each with its bit set and
between the addresses of the bridge and of the broadcast, no bit beyond the capacity is set, and
the bitmap has as many words as the capacity needs (`after_placed`).  The subnets that are passed
to the IPAM are arbitrary, as long as the address and the mask are of one family: an IPv6 subnet
and one of another place are refused, and after the expansion to an IPv4 mask whose ones are not
followed by zeros only, which has no address to give out, the IPAM is `Void`.
-/

namespace Ipam

open Net

/-! ### Subnets of one family -/

/-- The address and the mask are both of IPv4 or both of IPv6. -/
def SameFamily (n : IPNet) : Prop :=
  (to4 n.ip ≠ [] ∧ n.mask.length = 4) ∨ (to4 n.ip = [] ∧ n.mask.length = 16)

instance (n : IPNet) : Decidable (SameFamily n) :=
  inferInstanceAs (Decidable (_ ∨ _))

/-- The mask of an IPv4 subnet has ones that are not followed by zeros only. -/
structure Broken (n : IPNet) : Prop where
  address : to4 n.ip ≠ []
  length_eq : n.mask.length = 4
  size_eq : maskSize n.mask = (0, 0)

/-- The network address of an IPv4 subnet has 4 bytes. -/
theorem length_maskIP {n : IPNet} (hip : to4 n.ip ≠ []) (hmask : n.mask.length = 4) :
  (maskIP n.ip n.mask).length = 4
  := by
  by_cases h4 : n.ip.length = 4
  · rw [maskIP_of_length_eq (h4.trans hmask.symm), List.length_zipWith, h4, hmask]
    rfl
  · rw [to4, if_neg h4] at hip
    split at hip
    case isFalse => exact absurd rfl hip
    case isTrue hmapped =>
      simp only [maskIP, hmask, hmapped, Nat.reduceEqDiff, false_and,
        if_false, and_self, if_true, List.length_drop, ne_eq, not_true_eq_false,
        List.length_zipWith]
      rfl

/-- A network of one family is an IPv4 network in CIDR form, or it has a broken mask, or it is not
of IPv4. -/
theorem SameFamily.cases {n : IPNet} (h : SameFamily n) :
  (∃ ones, IsCIDR n ones 32) ∨ Broken n ∨ to4 n.ip = []
  := by
  rcases h with ⟨hip, hlength⟩ | ⟨hip, -⟩
  · cases hmask : simpleMaskLength n.mask with
    | none =>
      right
      left
      refine ⟨hip, hlength, ?_⟩
      rw [maskSize, hmask]
    | some ones =>
      left
      obtain ⟨hle, heq⟩ := eq_maskBytes hmask
      rw [hlength] at hle heq
      refine ⟨ones, Or.inl rfl, hle, ?_, ?_⟩
      · rw [cidrMask_eq (Or.inl rfl) hle]
        exact heq
      · rw [network, length_maskIP hip hlength]
  · exact Or.inr (Or.inr hip)

/-- A network that is not of IPv4 includes no IPv4 address. -/
theorem contains_of_to4_nil {n : IPNet} (hn : to4 n.ip = []) {ip : IP} (hip : to4 ip ≠ []) :
  contains n ip = false
  := by
  have hlength : (to4 ip).length = 4 := (length_to4 ip).resolve_left hip
  have h4 : n.ip.length ≠ 4 := by
    intro h4
    rw [to4_of_length h4] at hn
    simp [hn] at h4
  have hnumber : (networkNumberAndMask n).1.length ≠ 4 := by
    simp only [networkNumberAndMask, hn, ne_eq, not_true_eq_false, if_false]
    split
    · simp
    split
    · simp
    split
    · exact h4
    · simp
  simp only [contains, if_pos hip, hlength, Ne.symm hnumber, ne_eq, not_false_eq_true, if_true]

/-! ### Broken masks -/

section

variable {s : BitmapIPAM} {n : IPNet}

theorem capacity_broken (h : Broken n) :
  capacity n = 0
  := by
  simp [capacity, h.size_eq]

/-- No address is in the pod range. -/
theorem ipToIndex_broken (h : Broken n) (ip : IP) :
  ipToIndex n ip = some (-1)
  := by
  have hbase : (to4 (maskIP n.ip n.mask)).length = 4 := by
    rw [to4_of_length (length_maskIP h.address h.length_eq), length_maskIP h.address h.length_eq]
  rcases length_to4 ip with hip | hip
  · simp [ipToIndex, hip]
  · have hne : to4 ip ≠ [] := by
      intro hnil
      simp [hnil] at hip
    obtain ⟨d, hd, -⟩ := ipv4Diff_eq hbase hip
    simp only [ipToIndex, if_neg hne, hd, h.size_eq]
    rw [if_pos (by omega)]

/-- The IPAM of a broken mask: it has no address to give out, and has given out none. -/
structure Void (s : BitmapIPAM) : Prop where
  broken : Broken s.network
  bitmap_eq : s.bitmap = []
  entries_eq : s.ips.entries = []

/-- The address of the IPAM's subnet is an IPv4 address. -/
theorem to4_network (h : Sound s ∨ Void s) :
  to4 s.network.ip ≠ []
  := by
  rcases h with h | h
  · obtain ⟨ones, hcidr⟩ := h.cidr
    obtain ⟨ip, hlength, hto4, -⟩ := hcidr.exists_address
    rw [← hto4 rfl]
    rintro rfl
    simp at hlength
  · exact h.broken.address

/-- A subnet that is not of IPv4 is refused. -/
theorem expand_of_to4_nil (h : Sound s ∨ Void s) (hn : to4 n.ip = []) :
  (s.expand (some n)).2 = s
  := by
  simp only [BitmapIPAM.expand, cidrContains, contains_of_to4_nil hn (to4_network h),
    Bool.false_eq_true, if_false]

theorem free_void (h : Void s) (ip : IP) :
  (s.free ip).2 = s
  := by
  simp [BitmapIPAM.free, ipToIndex_broken h.broken]

theorem Void.capacity_eq (h : Void s) :
  s.capacity = 0
  := capacity_broken h.broken

theorem Void.remaining_eq (h : Void s) :
  s.remaining = 0
  := by
  rw [BitmapIPAM.remaining, h.capacity_eq, Nat.zero_sub]

theorem Void.allocate_error (h : Void s) (podKey containerID ifName netns : String) :
  ∃ e, s.allocate podKey containerID ifName netns = (.error e, s)
  := by
  rw [BitmapIPAM.allocate, if_pos h.capacity_eq]
  exact ⟨_, rfl⟩

/-- An IPAM without entries changes its subnet and starts with no bit set, or refuses. -/
theorem expand_of_entries_nil (hentries : s.ips.entries = []) (n : IPNet) :
  (s.expand (some n)).2 = s
    ∨ (s.expand (some n)).2
      = { s with network := n, bitmap := List.replicate ((capacity n + 63) / 64) 0 }
  := by
  rw [BitmapIPAM.expand]
  split
  · exact Or.inl rfl
  · exact Or.inl rfl
  · right
    rw [hentries, BitmapIPAM.expandLoop]
    have hwords : (if 0 < capacity n then (capacity n + 63) / 64 else 0)
        = (capacity n + 63) / 64 := by
      split <;> omega
    rw [hwords]

/-- The expansion of an IPAM without entries to an IPv4 subnet gives a sound IPAM. -/
theorem sound_of_entries_nil {ones : ℕ} (hentries : s.ips.entries = []) (hn : IsCIDR n ones 32) :
  Sound { s with network := n, bitmap := List.replicate ((capacity n + 63) / 64) 0 }
  := by
  have hlookup : ∀ key, s.ips.lookup key = none := by
    intro key
    apply Option.eq_none_iff_forall_ne_some.mpr
    intro info hinfo
    have hmem := AList.mem_lookup_iff.mp hinfo
    simp [hentries] at hmem
  constructor
  · exact ⟨ones, hn⟩
  · rw [List.length_replicate]
    rfl
  · intro idx hidx
    rw [Bitmap.test_replicate] at hidx
    simp at hidx
  · intro key info hkey
    simp [hlookup] at hkey
  · intro key key' info info' hkey
    simp [hlookup] at hkey

/-- The expansion to a broken mask is refused if there are entries. -/
theorem expand_broken (h : Sound s) (hn : Broken n) :
  (s.expand (some n)).2 = s ∨ Void (s.expand (some n)).2
  := by
  cases hentries : s.ips.entries with
  | nil =>
    rcases expand_of_entries_nil hentries n with heq | heq
    · exact Or.inl heq
    · right
      rw [heq, capacity_broken hn]
      exact ⟨hn, rfl, hentries⟩
  | cons e entries =>
    left
    obtain ⟨podName, info⟩ := e
    have hmem : (⟨podName, info⟩ : Σ _ : String, ContainerNetInfo) ∈ s.ips.entries := by
      rw [hentries]
      apply List.mem_cons_self
    have hlength := h.length_ip (AList.mem_lookup_iff.mpr hmem)
    have hne : info.ip ≠ [] := by
      intro hnil
      simp [hnil] at hlength
    rw [BitmapIPAM.expand]
    split
    · rfl
    · rfl
    · simp only [hentries, BitmapIPAM.expandLoop, if_neg hne, ipToIndex_broken hn]
      rfl

end

/-! ### Runs -/

/-- The subnet passed to `Expand` is nil or of one family. -/
def Op.SameFamily : Op → Prop
  | .expand (some newSubnet) => Ipam.SameFamily newSubnet
  | _ => True

instance : ∀ op : Op, Decidable op.SameFamily
  | .expand (some newSubnet) => inferInstanceAs (Decidable (Ipam.SameFamily newSubnet))
  | .expand none => inferInstanceAs (Decidable True)
  | .allocate _ _ _ _ => inferInstanceAs (Decidable True)
  | .free _ => inferInstanceAs (Decidable True)

theorem step_sound_or_void {s : BitmapIPAM} (h : Sound s ∨ Void s) {op : Op}
    (hop : op.SameFamily) :
  Sound (step s op).2 ∨ Void (step s op).2
  := by
  cases op with
  | allocate podKey containerID ifName netns =>
    rcases h with h | h
    · exact Or.inl (allocate_sound h podKey containerID ifName netns)
    · obtain ⟨e, halloc⟩ := h.allocate_error podKey containerID ifName netns
      rw [step, halloc]
      exact Or.inr h
  | free ip =>
    rcases h with h | h
    · exact Or.inl (free_sound h ip)
    · rw [step, free_void h]
      exact Or.inr h
  | expand newSubnet =>
    cases newSubnet with
    | none => exact h
    | some n =>
      rcases Ipam.SameFamily.cases hop with ⟨ones, hcidr⟩ | hbroken | hnil
      · rcases h with h | h
        · exact Or.inl (expand_sound h hcidr)
        · rcases expand_of_entries_nil h.entries_eq n with heq | heq
          · rw [step, heq]
            exact Or.inr h
          · rw [step, heq]
            exact Or.inl (sound_of_entries_nil h.entries_eq hcidr)
      · rcases h with h | h
        · rcases expand_broken h hbroken with heq | hvoid
          · rw [step, heq]
            exact Or.inl h
          · exact Or.inr hvoid
        · rcases expand_of_entries_nil h.entries_eq n with heq | heq
          · rw [step, heq]
            exact Or.inr h
          · rw [step, heq, capacity_broken hbroken]
            exact Or.inr ⟨hbroken, rfl, h.entries_eq⟩
      · rw [step, expand_of_to4_nil h hnil]
        exact h

/-- Different pod keys have different addresses, each with its bit set and strictly between the
address of the bridge and the broadcast address; no bit beyond the capacity is set; and the bitmap
has one word for 64 addresses. -/
structure Placed (s : BitmapIPAM) : Prop where
  different : ∀ {key key' info info'}, (key, info) ∈ s.listAllocations →
    (key', info') ∈ s.listAllocations → key ≠ key' → equalIP info.ip info'.ip = false
  between : ∀ {key info}, (key, info) ∈ s.listAllocations →
    (∃ idx : ℕ, ipToIndex s.network info.ip = some (idx : ℤ) ∧ Bitmap.test s.bitmap idx = true)
      ∧ base s.network + 1 < toNat (to4 info.ip)
      ∧ toNat (to4 info.ip) < base s.network + size s.network - 1
  below : ∀ {idx}, Bitmap.test s.bitmap idx = true → idx < s.capacity
  words : s.bitmap.length = (s.capacity + 63) / 64

theorem Sound.placed {s : BitmapIPAM} (h : Sound s) :
  Placed s
  := by
  obtain ⟨ones, hcidr⟩ := h.cidr
  constructor
  · intro key key' info info' hkey hkey' hne
    rw [mem_listAllocations] at hkey hkey'
    rw [← Bool.not_eq_true, equalIP_iff (h.length_ip hkey), to4_of_length (h.length_ip hkey')]
    intro hip
    exact hne (h.injective hkey hkey' hip.symm)
  · intro key info hkey
    rw [mem_listAllocations] at hkey
    obtain ⟨idx, hidx, hip, htest⟩ := h.slot hkey
    have hto4 := to4_of_length (h.length_ip hkey)
    constructor
    · rcases ipToIndex_cases hcidr info.ip with ⟨j, hj, hslot, hindex⟩ | ⟨-, hnone⟩
      · use j, hindex
        rw [hto4, hip] at hslot
        rw [← indexToIP_injective hcidr hidx hj hslot]
        exact htest
      · exact absurd (hto4.trans hip) (hnone idx hidx)
    · have hnat := (toNat_indexToIP hcidr hidx).2
      rw [BitmapIPAM.capacity, capacity_eq hcidr] at hidx
      rw [hto4, hip, hnat]
      omega
  · intro idx hidx
    apply h.below hidx
  · exact h.words

theorem Void.placed {s : BitmapIPAM} (h : Void s) :
  Placed s
  := by
  have hnil : s.listAllocations = [] := by
    rw [BitmapIPAM.listAllocations, h.entries_eq]
    rfl
  constructor
  · intro key key' info info' hkey
    simp [hnil] at hkey
  · intro key info hkey
    simp [hnil] at hkey
  · intro idx hidx
    rw [h.bitmap_eq] at hidx
    simp [Bitmap.test] at hidx
  · rw [h.bitmap_eq, h.capacity_eq]
    rfl

/-- A state that an IPAM reaches by its operations. -/
def Reachable (s : BitmapIPAM) : Prop :=
  ∃ subnet s₀ ops, SameFamily subnet ∧ newBitmapIPAM (some subnet) = .ok s₀
    ∧ (∀ op ∈ ops, op.SameFamily) ∧ s = Machine.after step s₀ ops

theorem newBitmapIPAM_sound_of_sameFamily {subnet : IPNet} (hfamily : SameFamily subnet)
    {s : BitmapIPAM} (hnew : newBitmapIPAM (some subnet) = .ok s) :
  Sound s
  := by
  rcases hfamily with h4 | ⟨-, h16⟩
  · rcases SameFamily.cases (Or.inl h4) with ⟨ones, hcidr⟩ | hbroken | hnil
    · obtain ⟨-, -, -, -, hsound, -⟩ := newBitmapIPAM_ok hcidr hnew
      exact hsound
    · simp [newBitmapIPAM, hbroken.size_eq] at hnew
    · exact absurd hnil h4.1
  · have hbits : (maskSize subnet.mask).2 ≠ 32 := by
      rw [maskSize]
      split
      · simp
      · simp [h16]
    simp [newBitmapIPAM, hbits] at hnew

theorem Reachable.sound_or_void {s : BitmapIPAM} (h : Reachable s) :
  Sound s ∨ Void s
  := by
  obtain ⟨subnet, s₀, ops, hfamily, hnew, hops, rfl⟩ := h
  apply Machine.after_of_forall_mem (P := fun s => Sound s ∨ Void s) (q := Op.SameFamily) _ _ hops
  · intro s op hs hop
    apply step_sound_or_void hs hop
  · exact Or.inl (newBitmapIPAM_sound_of_sameFamily hfamily hnew)

/-- After every run of an IPAM the addresses of the pod keys are placed. -/
theorem after_placed {subnet : IPNet} (hfamily : SameFamily subnet) {s : BitmapIPAM}
    (hnew : newBitmapIPAM (some subnet) = .ok s) {ops : List Op}
    (hops : ∀ op ∈ ops, op.SameFamily) :
  Placed (Machine.after step s ops)
  := by
  have hreach : Reachable (Machine.after step s ops) := ⟨subnet, s, ops, hfamily, hnew, hops, rfl⟩
  rcases hreach.sound_or_void with h | h
  · exact h.placed
  · exact h.placed

theorem after_placed_slash29 :
  ∃ s, newBitmapIPAM (some ⟨[10, 0, 0, 0], cidrMask 29 32⟩) = .ok s
    ∧ Placed (Machine.after step s
      [.allocate "p" "c1" "eth0" "ns1", .allocate "p" "c2" "eth0" "ns2", .free [10, 0, 0, 2],
        .expand (some ⟨[10, 0, 0, 0], cidrMask 28 32⟩),
        .expand (some ⟨[10, 0, 0, 0], [255, 0, 255, 0]⟩)])
  := by
  have hnew : newBitmapIPAM (some ⟨[10, 0, 0, 0], cidrMask 29 32⟩)
      = .ok ⟨⟨[10, 0, 0, 0], cidrMask 29 32⟩, [0], ∅⟩ := rfl
  exact ⟨_, hnew, after_placed (by decide) hnew (by decide)⟩

/-! ### Undoing an allocation -/

/-- The address the next allocation gives out. -/
def BitmapIPAM.nextIP (s : BitmapIPAM) : IP :=
  match firstFree s.capacity 0 s.bitmap with
  | none => []
  | some pos => indexToIP s.network pos

/-- The IPAM lists the same entries and has as many addresses left. -/
def SameAllocations (s s' : BitmapIPAM) : Prop :=
  s'.listAllocations.Perm s.listAllocations ∧ s'.remaining = s.remaining

section

variable {s s' : BitmapIPAM}

theorem SameAllocations.refl (s : BitmapIPAM) :
  SameAllocations s s
  := ⟨List.Perm.refl _, rfl⟩

theorem listAllocations_perm_iff :
  s'.listAllocations.Perm s.listAllocations ↔ ∀ key, s'.ips.lookup key = s.ips.lookup key
  := by
  have hnodup : ∀ s : BitmapIPAM, s.listAllocations.Nodup := by
    intro s
    apply s.ips.nodupKeys.nodup.map
    rintro ⟨key, info⟩ ⟨key', info'⟩ heq
    obtain ⟨rfl, rfl⟩ := Prod.mk.inj heq
    rfl
  rw [List.perm_ext_iff_of_nodup (hnodup s') (hnodup s), Prod.forall]
  simp only [mem_listAllocations]
  constructor
  · intro h key
    apply Option.ext
    apply h key
  · intro h key info
    rw [h key]

theorem allocate_ok {podKey containerID ifName netns : String} {ci : ContainerNetInfo}
    (halloc : s.allocate podKey containerID ifName netns = (.ok ci, s')) :
  ci.ip = s.nextIP
  := by
  rw [BitmapIPAM.allocate] at halloc
  split at halloc
  · simp at halloc
  · rw [BitmapIPAM.nextIP]
    cases hpos : firstFree s.capacity 0 s.bitmap with
    | none => simp [hpos] at halloc
    | some pos =>
      rw [hpos] at halloc
      cases halloc
      rfl

/-- An allocation takes one address. -/
theorem Sound.remaining_allocate (h : Sound s) {podKey containerID ifName netns : String}
    {ci : ContainerNetInfo} (halloc : s.allocate podKey containerID ifName netns = (.ok ci, s')) :
  s'.remaining + 1 = s.remaining
  := by
  have hsound : Sound s' := (allocate_spec h halloc).1
  obtain ⟨e, heq, -⟩ | ⟨pos, hpos, hfree, -, heq⟩ :=
    allocate_cases h podKey containerID ifName netns
  · simp [heq] at halloc
  rw [heq] at halloc
  obtain ⟨-, rfl⟩ := Prod.mk.inj halloc
  have hwords := h.words
  have hle := hsound.used_le
  -- the position that is set is a new one
  have hmarked : Bitmap.marked (Bitmap.set s.bitmap pos) = insert pos (Bitmap.marked s.bitmap) := by
    ext idx
    rw [Finset.mem_insert, Bitmap.mem_marked, Bitmap.mem_marked, Bitmap.test_set (by omega),
      Bool.or_eq_true, decide_eq_true_eq]
  have hnew : pos ∉ Bitmap.marked s.bitmap := by
    rw [Bitmap.mem_marked, hfree]
    simp
  have hused : Bitmap.used (Bitmap.set s.bitmap pos) = Bitmap.used s.bitmap + 1 := by
    rw [Bitmap.used_eq_card, Bitmap.used_eq_card, hmarked, Finset.card_insert_of_notMem hnew]
  rw [hsound.remaining_eq, h.remaining_eq]
  dsimp only at hle ⊢
  rw [hused] at hle ⊢
  simp only [BitmapIPAM.capacity] at hle ⊢
  omega

/-- Freeing the address that was allocated clears its bit again, and deletes the entry of the pod
key, whether the allocation had replaced one or not. -/
theorem Sound.free_allocate (h : Sound s) {podKey containerID ifName netns : String}
    {ci : ContainerNetInfo} (halloc : s.allocate podKey containerID ifName netns = (.ok ci, s')) :
  (s'.free ci.ip).2.remaining = s.remaining
    ∧ ∀ key, (s'.free ci.ip).2.ips.lookup key
      = if key = podKey then none else s.ips.lookup key
  := by
  have hsound : Sound s' := (allocate_spec h halloc).1
  have hfreed : Sound (s'.free ci.ip).2 := free_sound hsound ci.ip
  obtain ⟨ones, hcidr⟩ := h.cidr
  obtain ⟨e, heq, -⟩ | ⟨pos, hpos, hfree, -, heq⟩ :=
    allocate_cases h podKey containerID ifName netns
  · simp [heq] at halloc
  rw [heq] at halloc
  obtain ⟨hci, rfl⟩ := Prod.mk.inj halloc
  obtain rfl := Except.ok.inj hci
  have hwords := h.words
  have hlength := (toNat_indexToIP hcidr hpos).1
  have hto4 := to4_of_length hlength
  obtain ⟨e, -, hnone⟩ | ⟨idx, hidx, hip, heq'⟩ := free_cases hsound (indexToIP s.network pos)
  · exact absurd hto4 (hnone pos hpos)
  obtain rfl := indexToIP_injective hcidr hpos hidx (hto4.symm.trans hip)
  dsimp only at hfreed ⊢
  rw [heq'] at hfreed ⊢
  constructor
  · have hmarked : Bitmap.marked (Bitmap.clear (Bitmap.set s.bitmap pos) pos)
        = Bitmap.marked s.bitmap := by
      ext idx
      rw [Bitmap.mem_marked, Bitmap.mem_marked, Bitmap.test_clear, Bitmap.test_set (by omega)]
      by_cases hidx : idx = pos
      · rw [hidx, hfree]
        simp
      · simp [hidx]
    rw [hfreed.remaining_eq, h.remaining_eq, Bitmap.used_eq_card, Bitmap.used_eq_card, hmarked]
    rfl
  · intro key
    dsimp only
    rw [hsound.lookup_deleteIP, GoMap.lookup_insert_eq]
    split
    case isTrue => simp [equalIP]
    case isFalse hne =>
      cases hkey : s.ips.lookup key with
      | none => rfl
      | some info =>
        -- the address of another entry has a bit that was set
        have hother : equalIP info.ip (indexToIP s.network pos) = false := by
          rw [← Bool.not_eq_true, equalIP_iff (h.length_ip hkey), hto4]
          intro hip
          obtain ⟨j, hj, hslot, htest⟩ := h.slot hkey
          rw [← hip] at hslot
          rw [← indexToIP_injective hcidr hpos hj hslot, hfree] at htest
          simp at htest
        rw [Option.filter_some, hother]
        rfl

end

end Ipam
