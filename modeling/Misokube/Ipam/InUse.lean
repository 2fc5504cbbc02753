import Misokube.Ipam.Runs

/-!
# Addresses in use

An address is in use when its bit is set.  `Allocate` returns an address that was not in use and
keeps the others in use.  An expansion keeps in use what is listed, so it keeps all addresses in
use if they are as many as are listed.
-/

namespace Ipam

open Net

/-- The bit of the address is set. -/
def InUse (s : BitmapIPAM) (ip : IP) : Prop :=
  ∃ idx, Bitmap.test s.bitmap idx = true ∧ indexToIP s.network idx = ip

section

variable {s s' : BitmapIPAM}

/-- An allocation returns an address that was not in use and then is; the others stay in use. -/
theorem allocate_inUse (h : Sound s) {podKey containerID ifName netns : String}
    {ci : ContainerNetInfo}
    (halloc : s.allocate podKey containerID ifName netns = (.ok ci, s')) :
  ¬ InUse s ci.ip ∧ InUse s' ci.ip ∧ ci.ip.length = 4 ∧ ∀ ip, InUse s ip → InUse s' ip
  := by
  obtain ⟨ones, hcidr⟩ := h.cidr
  obtain ⟨e, heq, -⟩ | ⟨pos, hpos, hfree, -, heq⟩ :=
    allocate_cases h podKey containerID ifName netns
  · simp [heq] at halloc
  rw [heq, Prod.mk.injEq, Except.ok.injEq] at halloc
  obtain ⟨rfl, rfl⟩ := halloc
  have hwords := h.words
  have hbit : pos < 64 * s.bitmap.length := by omega
  refine ⟨?_, ?_, (toNat_indexToIP hcidr hpos).1, ?_⟩
  · rintro ⟨idx, htest, hip⟩
    have hsame := indexToIP_injective hcidr (h.below htest) hpos hip
    rw [hsame, hfree] at htest
    simp at htest
  · use pos
    rw [Bitmap.test_set hbit]
    simp
  · rintro ip ⟨idx, htest, hip⟩
    use idx
    rw [Bitmap.test_set hbit, htest, Bool.or_true]
    exact ⟨rfl, hip⟩

/-- Freeing an address keeps the others in use. -/
theorem free_inUse (h : Sound s) {ip x : IP} (hx : InUse s x) (hne : to4 ip ≠ x) :
  InUse (s.free ip).2 x
  := by
  obtain ⟨e, heq, -⟩ | ⟨idx, -, hip, heq⟩ := free_cases h ip
  · rw [heq]
    exact hx
  rw [heq]
  obtain ⟨j, htest, rfl⟩ := hx
  use j
  rw [Bitmap.test_clear, htest, Bool.and_true, decide_eq_true_eq]
  refine ⟨?_, rfl⟩
  rintro rfl
  exact hne hip

/-- An expansion of a tight IPAM keeps all addresses in use. -/
theorem expand_inUse (h : Sound s) (htight : Tight s) {newSubnet : IPNet} {ones : ℕ}
    (hnew : IsCIDR newSubnet ones 32) {ip : IP} (hip : InUse s ip) :
  InUse (s.expand (some newSubnet)).2 ip
  := by
  obtain ⟨e, heq, -⟩ | ⟨bitmap, heq, -, -, hslots, htest⟩ := expand_cases h hnew
  · rw [heq]
    exact hip
  rw [heq]
  obtain ⟨idx, hidx, rfl⟩ := hip
  obtain ⟨key, info, hkey, hinfo⟩ := htight idx hidx
  obtain ⟨j, hj, hinfo'⟩ := hslots key info hkey
  use j
  constructor
  · apply (htest j).mpr
    exact ⟨hj, key, info, hkey, hinfo'⟩
  · rw [← hinfo', hinfo]

/-- If as many addresses are in use as are listed, then each of them is listed. -/
theorem tight_of_count (h : Sound s)
    (hcount : s.capacity - s.remaining = s.listAllocations.length) :
  Tight s
  := by
  have hle := h.used_le
  rw [h.remaining_eq, BitmapIPAM.listAllocations, List.length_map] at hcount
  have hsub : (s.ips.entries.map (entryIndex s)).toFinset ⊆ Bitmap.marked s.bitmap := by
    intro idx hidx
    rw [List.mem_toFinset, List.mem_map] at hidx
    obtain ⟨e, he, rfl⟩ := hidx
    apply Bitmap.mem_marked.mpr (h.entryIndex_spec he).2.2
  have hmarked : (s.ips.entries.map (entryIndex s)).toFinset = Bitmap.marked s.bitmap := by
    apply Finset.eq_of_subset_of_card_le hsub
    rw [List.toFinset_card_of_nodup h.nodup_entryIndex, List.length_map, ← Bitmap.used_eq_card]
    omega
  intro idx htest
  rw [← Bitmap.mem_marked, ← hmarked, List.mem_toFinset, List.mem_map] at htest
  obtain ⟨⟨key, info⟩, he, rfl⟩ := htest
  exact ⟨key, info, AList.mem_lookup_iff.mpr he, (h.entryIndex_spec he).2.1⟩

end

end Ipam
