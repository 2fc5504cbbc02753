import Misokube.Ipam.InUse
import Misokube.Ipam.Invariant

/-!
# Expansions of the IPAM

Subnets without host bits, as they are parsed and as the subnet manager gives them out, are included
in another one exactly when their first and last addresses are (`cidrContains_iff`).  So an IPAM
that only ever has such subnets moves to every subnet that includes its own, keeps what is listed
in use, and refuses all others (`expand_spec`).
-/

namespace Ipam

open Net

/-! ### Subnets without host bits -/

/-- An IPv4 subnet whose address is the network address. -/
structure Masked (n : IPNet) : Prop where
  cidr : ∃ ones, IsCIDR n ones 32
  address : to4 n.ip = network n

/-- The subnet passed to `Expand` is nil, not of IPv4, or without host bits. -/
def Op.Masked : Op → Prop
  | .expand (some newSubnet) => Ipam.Masked newSubnet ∨ to4 newSubnet.ip = []
  | _ => True

/-- The network covers all that the other one covers. -/
def Includes (outer inner : IPNet) : Prop :=
  ∀ a, Covers inner a → Covers outer a

theorem includes_iff {outer inner : IPNet} :
  Includes outer inner ↔ Covers outer (base inner) ∧ Covers outer (base inner + (size inner - 1))
  := by
  have hpos : 0 < size inner := Nat.two_pow_pos _
  constructor
  · intro h
    use h _ (covers_base inner)
    apply h
    rw [Covers]
    omega
  · rintro ⟨hfirst, hlast⟩ a ha
    rw [Covers] at hfirst hlast ha ⊢
    omega

/-- The comparison of the ends finds out whether a subnet includes one without host bits. -/
theorem cidrContains_iff {outer inner : IPNet} {ones : ℕ} (houter : IsCIDR outer ones 32)
    (hinner : Masked inner) :
  cidrContains outer inner = some true ↔ Includes outer inner
  := by
  obtain ⟨n, hcidr⟩ := hinner.cidr
  obtain ⟨last, hlast, hlength, hnat⟩ := lastIP_eq hcidr
  have hfirst : contains outer inner.ip = true ↔ Covers outer (base inner) := by
    rw [houter.contains_iff, hinner.address, and_iff_right (length_network hcidr), base]
  have hend : contains outer last = true ↔ Covers outer (base inner + (size inner - 1)) := by
    rw [houter.contains_iff, to4_of_length hlength, and_iff_right hlength, hnat, hcidr.size]
  rw [includes_iff, ← hfirst, ← hend, cidrContains, hlast, Option.map_some]
  split
  case isTrue h => simp [h]
  case isFalse h => simp [h]

/-! ### The operations -/

/-- The subnet of the IPAM is without host bits, and large enough for an address. -/
structure Tidy (s : BitmapIPAM) : Prop where
  sound : Sound s
  masked : Masked s.network
  large : 4 ≤ size s.network

section

variable {s : BitmapIPAM} {newSubnet : IPNet}

/-- An expansion moves the IPAM to a subnet that includes its own. -/
theorem Tidy.expand_included (h : Tidy s) (hnew : Masked newSubnet)
    (hincludes : Includes newSubnet s.network) :
  ∃ bitmap, s.expand (some newSubnet) = (.ok (), { s with network := newSubnet, bitmap := bitmap })
  := by
  obtain ⟨ones, hcidr⟩ := hnew.cidr
  have hok := expand_of_covers h.sound hcidr hincludes
  obtain ⟨e, heq, -⟩ | ⟨bitmap, heq, -⟩ := expand_cases h.sound hcidr
  · simp [heq] at hok
  · exact ⟨bitmap, heq⟩

/-- An expansion to a subnet that does not include the one of the IPAM is refused. -/
theorem Tidy.expand_refused (h : Tidy s) (hnew : Masked newSubnet)
    (hincludes : ¬ Includes newSubnet s.network) :
  ∃ e, s.expand (some newSubnet) = (.error e, s)
  := by
  obtain ⟨ones, hcidr⟩ := hnew.cidr
  obtain ⟨e, heq, -⟩ | ⟨bitmap, -, hcontains, -⟩ := expand_cases h.sound hcidr
  · exact ⟨e, heq⟩
  · exact absurd ((cidrContains_iff hcidr h.masked).mp hcontains) hincludes

theorem Tidy.expand (h : Tidy s) (hnew : Masked newSubnet) :
  Tidy (s.expand (some newSubnet)).2
  := by
  obtain ⟨ones, hcidr⟩ := hnew.cidr
  by_cases hincludes : Includes newSubnet s.network
  · have hsound := expand_sound h.sound hcidr
    obtain ⟨bitmap, heq⟩ := h.expand_included hnew hincludes
    rw [heq] at hsound ⊢
    exact ⟨hsound, hnew, h.large.trans (size_le_of_covers hincludes)⟩
  · obtain ⟨e, heq⟩ := h.expand_refused hnew hincludes
    rw [heq]
    exact h

theorem step_tidy (h : Tidy s) {op : Op} (hop : op.Masked) :
  Tidy (step s op).2
  := by
  cases op with
  | allocate podKey containerID ifName netns =>
    have hnetwork := allocate_network s podKey containerID ifName netns
    have hsound := allocate_sound h.sound podKey containerID ifName netns
    rw [step]
    refine ⟨hsound, ?_, ?_⟩
    · rw [hnetwork]
      exact h.masked
    · rw [hnetwork]
      exact h.large
  | free ip =>
    have hnetwork := free_network s ip
    rw [step]
    refine ⟨free_sound h.sound ip, ?_, ?_⟩
    · rw [hnetwork]
      exact h.masked
    · rw [hnetwork]
      exact h.large
  | expand newSubnet =>
    cases newSubnet with
    | none => exact h
    | some newSubnet =>
      obtain hnew | hnil := hop
      · apply h.expand hnew
      · rw [step, expand_of_to4_nil (Or.inl h.sound) hnil]
        exact h

theorem newBitmapIPAM_tidy (hsubnet : Masked newSubnet)
    (hs : newBitmapIPAM (some newSubnet) = .ok s) :
  Tidy s
  := by
  obtain ⟨ones, hcidr⟩ := hsubnet.cidr
  obtain ⟨-, hones, hnetwork, -, hsound, -⟩ := newBitmapIPAM_ok hcidr hs
  refine ⟨hsound, ?_, ?_⟩
  · rw [hnetwork]
    exact hsubnet
  · rw [hnetwork, hcidr.size]
    calc 4 = 2 ^ 2 := rfl
      _ ≤ 2 ^ (32 - ones) := Nat.pow_le_pow_right (by decide) (by omega)

end

/-! ### Addresses that are in use -/

/-- The call allocates, or frees another address. -/
def Op.Spares (ip : IP) : Op → Prop
  | .allocate _ _ _ _ => True
  | .free ip' => equalIP ip ip' = false
  | .expand _ => False

/-- The reply is not about the address. -/
def Avoids (ip : IP) (reply : Reply) : Prop :=
  ∀ ci, reply = .ok (some ci) → equalIP ip ci.ip = false

/-- An address in use is not given out until it is freed. -/
theorem replies_avoid {s : BitmapIPAM} (h : Sound s) {ip : IP} (hlength : ip.length = 4)
    (hip : InUse s ip) {ops : List Op} (hops : ∀ op ∈ ops, op.Spares ip) :
  ∀ reply ∈ Machine.replies step s ops, Avoids ip reply
  := by
  refine Machine.replies_of_forall_mem (P := fun s => Sound s ∧ InUse s ip) (q := Op.Spares ip)
    (Q := Avoids ip) ?_ ⟨h, hip⟩ hops
  rintro s op ⟨h, hip⟩ hop
  cases op with
  | allocate podKey containerID ifName netns =>
    have hsound := allocate_sound h podKey containerID ifName netns
    rw [step]
    cases hresult : s.allocate podKey containerID ifName netns with
    | mk result s' =>
      rw [hresult] at hsound
      cases result with
      | error e =>
        obtain ⟨-, rfl⟩ := allocate_error hresult
        refine ⟨?_, h, hip⟩
        rintro ci ⟨⟩
      | ok ci =>
        obtain ⟨hnew, -, hlength', hkeep⟩ := allocate_inUse h hresult
        refine ⟨?_, hsound, hkeep ip hip⟩
        rintro _ ⟨⟩
        rw [← Bool.not_eq_true, equalIP_iff hlength, to4_of_length hlength']
        rintro rfl
        exact hnew hip
  | free ip' =>
    rw [step]
    refine ⟨?_, free_sound h ip', ?_⟩
    · intro ci hci
      cases hresult : (s.free ip').1 <;> rw [hresult] at hci <;> cases hci
    · apply free_inUse h hip
      rw [ne_eq, ← equalIP_iff hlength, Bool.not_eq_true]
      exact hop
  | expand newSubnet => exact hop.elim

/-! ### Expansions -/

/-- A state that an IPAM reaches by its operations, with subnets without host bits. -/
def ReachableMasked (s : BitmapIPAM) : Prop :=
  ∃ subnet s₀ ops, Masked subnet ∧ newBitmapIPAM (some subnet) = .ok s₀
    ∧ (∀ op ∈ ops, op.Masked) ∧ s = Machine.after step s₀ ops

theorem ReachableMasked.tidy {s : BitmapIPAM} (h : ReachableMasked s) :
  Tidy s
  := by
  obtain ⟨subnet, s₀, ops, hsubnet, hnew, hops, rfl⟩ := h
  apply Machine.after_of_forall_mem (P := Tidy) (q := Op.Masked) _ _ hops
  · intro s op hs hop
    apply step_tidy hs hop
  · apply newBitmapIPAM_tidy hsubnet hnew

/-- What an expansion to a subnet that includes the old one does: it succeeds, the same is listed,
what is listed is not given out again until it is freed or the IPAM is expanded again, and a larger
subnet leaves addresses. -/
structure Moves (s s' : BitmapIPAM) (newSubnet : IPNet) : Prop where
  expand_eq : s.expand (some newSubnet) = (.ok (), s')
  network_eq : s'.network = newSubnet
  listed : s'.listAllocations = s.listAllocations
  kept : ∀ key info, (key, info) ∈ s'.listAllocations → ∀ ops : List Op,
    (∀ op ∈ ops, op.Spares info.ip) → ∀ reply ∈ Machine.replies step s' ops, Avoids info.ip reply
  room : size s.network < size newSubnet → 0 < s'.remaining

theorem Tidy.moves {s : BitmapIPAM} (h : Tidy s) {newSubnet : IPNet} (hnew : Masked newSubnet)
    (hincludes : Includes newSubnet s.network) :
  Moves s (s.expand (some newSubnet)).2 newSubnet
  := by
  obtain ⟨ones, hcidr⟩ := hnew.cidr
  obtain ⟨n, hold⟩ := h.masked.cidr
  obtain ⟨bitmap, heq⟩ := h.expand_included hnew hincludes
  have hsound := expand_sound h.sound hcidr
  constructor
  · rw [heq]
  · rw [heq]
  · rw [heq]
    rfl
  · intro key info hkey ops hops
    rw [mem_listAllocations] at hkey
    obtain ⟨idx, hidx, hip, htest⟩ := hsound.slot hkey
    apply replies_avoid hsound (hsound.length_ip hkey) ⟨idx, htest, hip.symm⟩ hops
  · intro hlt
    apply Nat.pos_of_ne_zero
    apply expand_remaining h.sound hcidr
    · have hlarge := h.large
      rw [BitmapIPAM.capacity, capacity_eq hold, capacity_eq hcidr]
      omega
    · rw [heq]

/-- An expansion to a subnet without host bits succeeds exactly when the subnet includes the old
one, and otherwise changes nothing. -/
theorem expand_spec {s : BitmapIPAM} (h : ReachableMasked s) {newSubnet : IPNet}
    (hnew : Masked newSubnet) :
  (Includes newSubnet s.network → ∃ s', Moves s s' newSubnet)
    ∧ (¬ Includes newSubnet s.network → ∃ e, s.expand (some newSubnet) = (.error e, s))
  := by
  constructor
  · intro hincludes
    exact ⟨_, h.tidy.moves hnew hincludes⟩
  · intro hincludes
    apply h.tidy.expand_refused hnew hincludes

theorem expand_spec_slash30 :
  ∃ s, newBitmapIPAM (some ⟨[10, 0, 0, 4], cidrMask 30 32⟩) = .ok s
    ∧ (∃ s', Moves (Machine.after step s [.allocate "pod" "c1" "eth0" "ns1"]) s'
      ⟨[10, 0, 0, 0], cidrMask 29 32⟩)
    ∧ ∃ e, (Machine.after step s [.allocate "pod" "c1" "eth0" "ns1"]).expand
        (some ⟨[10, 0, 0, 8], cidrMask 29 32⟩)
      = (.error e, Machine.after step s [.allocate "pod" "c1" "eth0" "ns1"])
  := by
  have hmasked : ∀ ip ones, ip.length = 4 → ones ≤ 32 →
      network ⟨ip, cidrMask ones 32⟩ = ip → Masked ⟨ip, cidrMask ones 32⟩ := by
    intro ip ones hip hones hnetwork
    refine ⟨⟨ones, (isCIDR_mk (Or.inl rfl) hones (by omega)).1⟩, ?_⟩
    rw [hnetwork]
    apply to4_of_length hip
  have hsubnet := hmasked [10, 0, 0, 4] 30 rfl (by decide) (by decide +kernel)
  have hlarger := hmasked [10, 0, 0, 0] 29 rfl (by decide) (by decide +kernel)
  have hother := hmasked [10, 0, 0, 8] 29 rfl (by decide) (by decide +kernel)
  refine ⟨⟨⟨[10, 0, 0, 4], cidrMask 30 32⟩, [0], ∅⟩, rfl, ?_⟩
  have hreach : ReachableMasked (Machine.after step ⟨⟨[10, 0, 0, 4], cidrMask 30 32⟩, [0], ∅⟩
      [.allocate "pod" "c1" "eth0" "ns1"]) := by
    refine ⟨_, _, [.allocate "pod" "c1" "eth0" "ns1"], hsubnet, rfl, ?_, rfl⟩
    simp [Op.Masked]
  constructor
  · apply (expand_spec hreach hlarger).1
    rw [includes_iff]
    decide +kernel
  · apply (expand_spec hreach hother).2
    rw [includes_iff]
    decide +kernel

end Ipam
