import Misokube.Ipam.Addresses
import Misokube.Lib.Machine

/-!
# The accounting of the IPAM

In a `Sound` IPAM every pod key has an address of its own whose bit is set, and in a `Tight` one
every bit that is set is that of a pod key.  This says what each operation can do to a sound
IPAM: `allocate_cases`, `free_cases` and `expand_cases`.
-/

namespace Ipam

open Net

/-! ### The first free position -/

/-- The search finds the first position that is not set. -/
theorem firstFree_eq_some {limit idx : ℕ} {words : List (BitVec 64)} {pos : ℕ}
    (h : firstFree limit idx words = some pos) :
  ∃ i, pos = idx * 64 + i ∧ i < 64 * words.length ∧ pos < limit
    ∧ Bitmap.test words i = false ∧ ∀ j < i, Bitmap.test words j = true
  := by
  induction words generalizing idx with
  | nil => simp [firstFree] at h
  | cons word words ih =>
    by_cases hfull : ~~~word = 0
    · -- the positions of a full word are passed
      rw [firstFree, if_pos hfull] at h
      obtain ⟨i, rfl, hi, hlimit, htest, hlow⟩ := ih h
      have hones : ∀ j < 64, word.getLsbD j = true := by
        intro j hj
        have hbit := congrArg (fun v : BitVec 64 => v.getLsbD j) hfull
        simpa [hj] using hbit
      refine ⟨64 + i, by ring, ?_, hlimit, ?_, ?_⟩
      · rw [List.length_cons]
        omega
      · rw [Bitmap.test_cons_high _ _ (by decide), htest]
      · intro j hj
        by_cases hj' : j < 64
        · rw [Bitmap.test_cons_low _ _ hj', hones j hj']
        · obtain ⟨k, rfl⟩ : ∃ k, j = 64 + k := ⟨j - 64, by omega⟩
          rw [Bitmap.test_cons_high _ _ (by decide), hlow k (by omega)]
    · obtain ⟨hbit, hzero, hlow⟩ := Bitmap.trailingZeros_not hfull
      rw [firstFree, if_neg hfull] at h
      simp only [Nat.not_le.mpr hbit, if_false] at h
      split at h
      · simp at h
      case isFalse hlimit =>
        rw [Option.some.injEq] at h
        subst h
        refine ⟨_, rfl, ?_, by omega, ?_, ?_⟩
        · rw [List.length_cons]
          omega
        · rw [Bitmap.test_cons_low _ _ hbit, hzero]
        · intro j hj
          rw [Bitmap.test_cons_low _ _ (by omega), hlow j hj]

/-- If the search finds none, then all positions below the limit are set. -/
theorem firstFree_eq_none {limit idx : ℕ} {words : List (BitVec 64)}
    (h : firstFree limit idx words = none) {i : ℕ} (hi : i < 64 * words.length)
    (hlimit : idx * 64 + i < limit) :
  Bitmap.test words i = true
  := by
  induction words generalizing idx i with
  | nil => simp at hi
  | cons word words ih =>
    rw [List.length_cons] at hi
    by_cases hfull : ~~~word = 0
    · rw [firstFree, if_pos hfull] at h
      by_cases hi' : i < 64
      · have hbit := congrArg (fun v : BitVec 64 => v.getLsbD i) hfull
        rw [Bitmap.test_cons_low _ _ hi']
        simpa [hi'] using hbit
      · obtain ⟨k, rfl⟩ : ∃ k, i = 64 + k := ⟨i - 64, by omega⟩
        rw [Bitmap.test_cons_high _ _ (by decide)]
        apply ih h (by omega)
        omega
    · obtain ⟨hbit, -, hlow⟩ := Bitmap.trailingZeros_not hfull
      rw [firstFree, if_neg hfull] at h
      simp only [Nat.not_le.mpr hbit, if_false] at h
      split at h
      case isTrue hle =>
        rw [Bitmap.test_cons_low _ _ (by omega), hlow i (by omega)]
      case isFalse => simp at h

/-! ### Soundness -/

/-- Every pod key has an address of its own, whose bit is set, only bits of addresses are set,
and the bitmap has no more words than the addresses need. -/
structure Sound (s : BitmapIPAM) : Prop where
  cidr : ∃ ones, IsCIDR s.network ones 32
  words : s.bitmap.length = (s.capacity + 63) / 64
  below : ∀ {idx}, Bitmap.test s.bitmap idx = true → idx < s.capacity
  slot : ∀ {key info}, s.ips.lookup key = some info →
    ∃ idx < s.capacity, info.ip = indexToIP s.network idx ∧ Bitmap.test s.bitmap idx = true
  injective : ∀ {key key' info info'}, s.ips.lookup key = some info →
    s.ips.lookup key' = some info' → info.ip = info'.ip → key = key'

/-- Every bit that is set is that of a pod key. -/
def Tight (s : BitmapIPAM) : Prop :=
  ∀ idx, Bitmap.test s.bitmap idx = true →
    ∃ key info, s.ips.lookup key = some info ∧ info.ip = indexToIP s.network idx

section

variable {s : BitmapIPAM}

/-- The addresses that are set are at most as many as there are addresses. -/
theorem Sound.used_le (h : Sound s) :
  Bitmap.used s.bitmap ≤ s.capacity
  := by
  rw [Bitmap.used_eq_card]
  have hsub : Bitmap.marked s.bitmap ⊆ Finset.range s.capacity := by
    intro idx hidx
    rw [Finset.mem_range]
    apply h.below (Bitmap.mem_marked.mp hidx)
  have hcard := Finset.card_le_card hsub
  rwa [Finset.card_range] at hcard

theorem Sound.remaining_eq (h : Sound s) :
  s.remaining = s.capacity - Bitmap.used s.bitmap
  := by
  have hle := h.used_le
  rw [BitmapIPAM.remaining]
  simp only [Nat.not_lt.mpr hle, if_false]

/-- If all addresses are set, then none remains. -/
theorem Sound.remaining_eq_zero_iff (h : Sound s) :
  s.remaining = 0 ↔ ∀ idx < s.capacity, Bitmap.test s.bitmap idx = true
  := by
  have hle := h.used_le
  rw [h.remaining_eq]
  have hsub : Bitmap.marked s.bitmap ⊆ Finset.range s.capacity := by
    intro idx hidx
    rw [Finset.mem_range]
    apply h.below (Bitmap.mem_marked.mp hidx)
  constructor
  · intro hzero idx hidx
    have heq : Bitmap.marked s.bitmap = Finset.range s.capacity := by
      apply Finset.eq_of_subset_of_card_le hsub
      rw [Finset.card_range, ← Bitmap.used_eq_card]
      omega
    apply Bitmap.mem_marked.mp
    rw [heq, Finset.mem_range]
    exact hidx
  · intro hall
    have heq : Bitmap.marked s.bitmap = Finset.range s.capacity := by
      apply Finset.Subset.antisymm hsub
      intro idx hidx
      rw [Finset.mem_range] at hidx
      apply Bitmap.mem_marked.mpr (hall idx hidx)
    rw [Bitmap.used_eq_card, heq, Finset.card_range, Nat.sub_self]

/-- An allocation takes the first address that is not set, and fails if there is none. -/
theorem allocate_cases (h : Sound s) (podKey containerID ifName netns : String) :
  (∃ e, s.allocate podKey containerID ifName netns = (.error e, s) ∧ s.remaining = 0)
    ∨ ∃ pos < s.capacity, Bitmap.test s.bitmap pos = false
      ∧ (∀ j < pos, Bitmap.test s.bitmap j = true)
      ∧ s.allocate podKey containerID ifName netns
        = (.ok ⟨containerID, ifName, netns, indexToIP s.network pos⟩,
          { s with
            bitmap := Bitmap.set s.bitmap pos
            ips := s.ips.insert podKey ⟨containerID, ifName, netns, indexToIP s.network pos⟩ })
  := by
  rw [BitmapIPAM.allocate]
  by_cases hcapacity : s.capacity = 0
  · left
    rw [if_pos hcapacity]
    refine ⟨_, rfl, ?_⟩
    rw [h.remaining_eq, hcapacity, Nat.zero_sub]
  rw [if_neg hcapacity]
  cases hfree : firstFree s.capacity 0 s.bitmap with
  | none =>
    left
    refine ⟨_, rfl, ?_⟩
    rw [h.remaining_eq_zero_iff]
    intro idx hidx
    have hwords := h.words
    apply firstFree_eq_none hfree (by omega)
    omega
  | some pos =>
    right
    obtain ⟨i, hpos, -, hlt, htest, hlow⟩ := firstFree_eq_some hfree
    obtain rfl : pos = i := by omega
    exact ⟨pos, hlt, htest, hlow, rfl⟩

/-- An allocation that fails changes nothing. -/
theorem allocate_error {s' : BitmapIPAM} {podKey containerID ifName netns : String} {e : Error}
    (h : s.allocate podKey containerID ifName netns = (.error e, s')) :
  e = .noAvailableIPs s.network ∧ s' = s
  := by
  rw [BitmapIPAM.allocate] at h
  split at h
  · cases h
    exact ⟨rfl, rfl⟩
  · split at h
    · cases h
      exact ⟨rfl, rfl⟩
    · simp at h

theorem Sound.length_ip (h : Sound s) {key : String} {info : ContainerNetInfo}
    (hkey : s.ips.lookup key = some info) :
  info.ip.length = 4
  := by
  obtain ⟨ones, hcidr⟩ := h.cidr
  obtain ⟨idx, hidx, hip, -⟩ := h.slot hkey
  rw [hip]
  apply (toNat_indexToIP hcidr hidx).1

/-- Deleting an address deletes the pod key that has it. -/
theorem Sound.lookup_deleteIP (h : Sound s) (ip : IP) (key : String) :
  (BitmapIPAM.deleteIP s.ips ip).lookup key
    = (s.ips.lookup key).filter fun info => !equalIP info.ip ip
  := by
  rw [BitmapIPAM.deleteIP]
  cases hfind : s.ips.entries.find? fun e => equalIP e.2.ip ip with
  | none =>
    rw [List.find?_eq_none] at hfind
    cases hkey : s.ips.lookup key with
    | none => rfl
    | some info =>
      have hentry := hfind ⟨key, info⟩ (AList.mem_lookup_iff.mp hkey)
      rw [Bool.not_eq_true] at hentry
      rw [Option.filter_some, hentry]
      rfl
  | some e =>
    obtain ⟨key', info'⟩ := e
    have hequal := List.find?_some hfind
    have hkey' : s.ips.lookup key' = some info' :=
      AList.mem_lookup_iff.mpr (List.mem_of_find?_eq_some hfind)
    simp only [GoMap.lookup_erase_eq]
    split
    case isTrue heq =>
      subst heq
      rw [hkey', Option.filter_some, hequal]
      rfl
    case isFalse hne =>
      cases hkey : s.ips.lookup key with
      | none => rfl
      | some info =>
        -- another pod key with the address would be the same
        have hother : equalIP info.ip ip = false := by
          by_contra hequal'
          rw [Bool.not_eq_false] at hequal'
          rw [equalIP_iff (h.length_ip hkey)] at hequal'
          rw [equalIP_iff (h.length_ip hkey')] at hequal
          exact hne (h.injective hkey hkey' (hequal'.symm.trans hequal))
        rw [Option.filter_some, hother]
        rfl

/-- Freeing an address of the pod range clears its bit and deletes its pod key, and freeing
another address fails. -/
theorem free_cases (h : Sound s) (ip : IP) :
  (∃ e, s.free ip = (.error e, s) ∧ ∀ idx < s.capacity, to4 ip ≠ indexToIP s.network idx)
    ∨ ∃ idx < s.capacity, to4 ip = indexToIP s.network idx
      ∧ s.free ip = (.ok (),
        { s with bitmap := Bitmap.clear s.bitmap idx, ips := BitmapIPAM.deleteIP s.ips ip })
  := by
  obtain ⟨ones, hcidr⟩ := h.cidr
  rw [BitmapIPAM.free]
  obtain ⟨idx, hidx, hip, hindex⟩ | ⟨hindex, hnone⟩ := ipToIndex_cases hcidr ip
  · right
    refine ⟨idx, hidx, hip, ?_⟩
    have hwords := h.words
    have hlt : idx < s.capacity := hidx
    have hword : ¬ s.bitmap.length ≤ idx / 64 := by omega
    simp only [hindex, if_neg (show ¬ (idx : ℤ) < 0 by omega), Int.toNat_natCast, if_neg hword]
  · left
    rw [hindex]
    exact ⟨_, rfl, hnone⟩

/-- The loop of an expansion sets the bits of the addresses of the entries in the new bitmap, or
fails because an address is not in the new subnet. -/
theorem expandLoop_cases (oldNet : IPNet) {s : BitmapIPAM} {ones : ℕ}
    (hcidr : IsCIDR s.network ones 32) {entries : List (Σ _ : String, ContainerNetInfo)}
    (hentries : ∀ e ∈ entries, e.2.ip.length = 4) {newBitmap : List (BitVec 64)}
    (hwords : s.capacity ≤ 64 * newBitmap.length) :
  (∃ e, BitmapIPAM.expandLoop oldNet s entries newBitmap = (.error e, { s with network := oldNet })
      ∧ e ≠ .panicked
      ∧ ∃ entry ∈ entries, ∀ idx < s.capacity, entry.2.ip ≠ indexToIP s.network idx)
    ∨ ∃ bitmap, BitmapIPAM.expandLoop oldNet s entries newBitmap
        = (.ok (), { s with bitmap := bitmap })
      ∧ bitmap.length = newBitmap.length
      ∧ (∀ e ∈ entries, ∃ idx < s.capacity, e.2.ip = indexToIP s.network idx)
      ∧ ∀ j, Bitmap.test bitmap j = true ↔ Bitmap.test newBitmap j = true
        ∨ j < s.capacity ∧ ∃ e ∈ entries, e.2.ip = indexToIP s.network j
  := by
  induction entries generalizing newBitmap with
  | nil =>
    right
    refine ⟨newBitmap, rfl, rfl, by simp, ?_⟩
    simp
  | cons e entries ih =>
    obtain ⟨podName, info⟩ := e
    have hlength : info.ip.length = 4 := hentries _ List.mem_cons_self
    have hne : info.ip ≠ [] := by
      intro hnil
      simp [hnil] at hlength
    rw [BitmapIPAM.expandLoop, if_neg hne]
    obtain ⟨idx, hidx, hip, hindex⟩ | ⟨hindex, hnone⟩ := ipToIndex_cases hcidr info.ip
    · rw [to4_of_length hlength] at hip
      have hlt : idx < s.capacity := hidx
      have hword : ¬ newBitmap.length ≤ idx / 64 := by omega
      simp only [hindex, if_neg (show ¬ (idx : ℤ) < 0 by omega), Int.toNat_natCast, if_neg hword]
      have hset : s.capacity ≤ 64 * (Bitmap.set newBitmap idx).length := by
        rw [Bitmap.length_set]
        exact hwords
      obtain ⟨e, heq, hpanic, entry, hentry, hout⟩ | ⟨bitmap, heq, hbitmap, hslots, htest⟩ :=
        ih (fun e he => hentries e (List.mem_cons_of_mem _ he)) hset
      · left
        exact ⟨e, heq, hpanic, entry, List.mem_cons_of_mem _ hentry, hout⟩
      · right
        rw [Bitmap.length_set] at hbitmap
        refine ⟨bitmap, heq, hbitmap, ?_, ?_⟩
        · intro e he
          rw [List.mem_cons] at he
          obtain rfl | he := he
          · exact ⟨idx, hlt, hip⟩
          · apply hslots e he
        · intro j
          rw [htest, Bitmap.test_set (by omega), Bool.or_eq_true, decide_eq_true_eq]
          constructor
          · rintro ((rfl | hj) | ⟨hj, e, he, heq⟩)
            · exact Or.inr ⟨hlt, _, List.mem_cons_self, hip⟩
            · exact Or.inl hj
            · exact Or.inr ⟨hj, e, List.mem_cons_of_mem _ he, heq⟩
          · rintro (hj | ⟨hj, e, he, heq⟩)
            · exact Or.inl (Or.inr hj)
            · rw [List.mem_cons] at he
              obtain rfl | he := he
              · left
                left
                apply indexToIP_injective hcidr hj hidx
                rw [← heq, hip]
              · exact Or.inr ⟨hj, e, he, heq⟩
    · left
      rw [to4_of_length hlength] at hnone
      rw [hindex]
      exact ⟨_, rfl, by simp, ⟨podName, info⟩, List.mem_cons_self, hnone⟩

theorem cidrContains_ne_none (outer : IPNet) {inner : IPNet} {ones : ℕ}
    (hinner : IsCIDR inner ones 32) :
  cidrContains outer inner ≠ none
  := by
  obtain ⟨last, hlast, -⟩ := lastIP_eq hinner
  rw [cidrContains, hlast]
  split <;> simp

/-- A network that covers another one is found to include it. -/
theorem cidrContains_of_covers {outer inner : IPNet} {n n' : ℕ} (houter : IsCIDR outer n 32)
    (hinner : IsCIDR inner n' 32) (h : ∀ a, Covers inner a → Covers outer a) :
  cidrContains outer inner = some true
  := by
  have hpos : 0 < 2 ^ (32 - n') := Nat.two_pow_pos _
  obtain ⟨ip, hip, hto4, hbase⟩ := hinner.base_eq
  have hmod := Nat.mod_lt (toNat ip) hpos
  have hdiv := Nat.div_add_mod (toNat ip) (2 ^ (32 - n'))
  obtain ⟨last, hlast, hlength, hnat⟩ := lastIP_eq hinner
  have hfirst : contains outer inner.ip = true := by
    rw [houter.contains_iff, ← hto4 rfl]
    use by omega
    apply h
    rw [Covers, hinner.size, hbase, Nat.mul_comm]
    omega
  have hend : contains outer last = true := by
    rw [houter.contains_iff, to4_of_length hlength, hnat]
    use hlength
    apply h
    rw [Covers, hinner.size]
    omega
  rw [cidrContains, if_pos hfirst, hlast, Option.map_some, hend]

/-- An expansion to an IPv4 subnet keeps the addresses and sets exactly their bits, or fails and
changes nothing. -/
theorem expand_cases (h : Sound s) {newSubnet : IPNet} {ones : ℕ}
    (hnew : IsCIDR newSubnet ones 32) :
  (∃ e, s.expand (some newSubnet) = (.error e, s) ∧ e ≠ .panicked
      ∧ (cidrContains newSubnet s.network = some true → ∃ key info, s.ips.lookup key = some info
        ∧ ∀ idx < capacity newSubnet, info.ip ≠ indexToIP newSubnet idx))
    ∨ ∃ bitmap, s.expand (some newSubnet)
        = (.ok (), { s with network := newSubnet, bitmap := bitmap })
      ∧ cidrContains newSubnet s.network = some true
      ∧ bitmap.length = (capacity newSubnet + 63) / 64
      ∧ (∀ key info, s.ips.lookup key = some info →
        ∃ idx < capacity newSubnet, info.ip = indexToIP newSubnet idx)
      ∧ ∀ j, Bitmap.test bitmap j = true ↔ j < capacity newSubnet
        ∧ ∃ key info, s.ips.lookup key = some info ∧ info.ip = indexToIP newSubnet j
  := by
  obtain ⟨oldOnes, hold⟩ := h.cidr
  rw [BitmapIPAM.expand]
  cases hcontains : cidrContains newSubnet s.network with
  | none => exact absurd hcontains (cidrContains_ne_none newSubnet hold)
  | some included =>
    cases included with
    | false =>
      left
      exact ⟨_, rfl, by simp, by simp⟩
    | true =>
      set words := if 0 < capacity newSubnet then (capacity newSubnet + 63) / 64 else 0 with hw
      have hwords : capacity newSubnet
          ≤ 64 * (List.replicate words (0 : BitVec 64)).length := by
        rw [List.length_replicate, hw]
        split <;> omega
      have hentries : ∀ e ∈ s.ips.entries, e.2.ip.length = 4 := by
        intro e he
        apply h.length_ip (AList.mem_lookup_iff.mpr he)
      obtain ⟨e, heq, hpanic, entry, hentry, hout⟩ | ⟨bitmap, heq, hbitmap, hslots, htest⟩ :=
        expandLoop_cases s.network (s := { s with network := newSubnet }) hnew hentries hwords
      · left
        exact ⟨e, heq, hpanic, fun _ =>
          ⟨entry.1, entry.2, AList.mem_lookup_iff.mpr hentry, hout⟩⟩
      · right
        refine ⟨bitmap, heq, rfl, ?_, ?_, ?_⟩
        · rw [hbitmap, List.length_replicate, hw]
          split <;> omega
        · intro key info hkey
          apply hslots ⟨key, info⟩ (AList.mem_lookup_iff.mp hkey)
        · intro j
          rw [htest, Bitmap.test_replicate]
          constructor
          · rintro (hj | ⟨hj, ⟨key, info⟩, he, hip⟩)
            · simp at hj
            · exact ⟨hj, key, info, AList.mem_lookup_iff.mpr he, hip⟩
          · rintro ⟨hj, key, info, hkey, hip⟩
            exact Or.inr ⟨hj, ⟨key, info⟩, AList.mem_lookup_iff.mp hkey, hip⟩

/-- An expansion to a network that covers the old one succeeds. -/
theorem expand_of_covers (h : Sound s) {newSubnet : IPNet} {ones : ℕ}
    (hnew : IsCIDR newSubnet ones 32) (hcovers : ∀ a, Covers s.network a → Covers newSubnet a) :
  (s.expand (some newSubnet)).1 = .ok ()
  := by
  obtain ⟨n, hold⟩ := h.cidr
  obtain ⟨e, -, -, hout⟩ | ⟨bitmap, heq, -⟩ := expand_cases h hnew
  · obtain ⟨key, info, hkey, hout⟩ := hout (cidrContains_of_covers hnew hold hcovers)
    obtain ⟨idx, hidx, hip, -⟩ := h.slot hkey
    obtain ⟨hlength, hnat⟩ := toNat_indexToIP hold hidx
    -- the address is between the ends of the new network as well
    have hfirst := hcovers (base s.network)
    have hlast := hcovers (base s.network + size s.network - 1)
    have hsize : capacity newSubnet = size newSubnet - 3 := capacity_eq hnew
    rw [BitmapIPAM.capacity, capacity_eq hold] at hidx
    simp only [Covers] at hfirst hlast
    obtain ⟨idx', hidx'⟩ : ∃ idx', base s.network + 2 + idx = base newSubnet + 2 + idx' :=
      ⟨base s.network + idx - base newSubnet, by omega⟩
    have hlt : idx' < capacity newSubnet := by omega
    obtain ⟨hlength', hnat'⟩ := toNat_indexToIP hnew hlt
    exfalso
    apply hout idx' hlt
    rw [hip]
    apply toNat_injective
    · rw [hlength, hlength']
    · rw [hnat, hnat', hidx']
  · rw [heq]

end

end Ipam
