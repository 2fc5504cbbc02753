import Misokube.Device.Kernel
import Misokube.Lib.Linux

/-!
# A kernel for the device operations

The operations of `Links.Linux` for IPv4 addresses, and `ip.SetupVeth` over them: a namespace, names
that are drawn until one is free, and a fault that is met when the pair is there but the interface
of the host is not up yet.
-/

namespace Device

namespace Kernel

open Net Links

/-- IPv4 addresses; the hardware address of a link has its index. -/
def linux : Linux IPNet IP where
  sameSubnet a b := a.mask == b.mask && contains a b.ip
  hosts a gateway := decide (IsHost a gateway)
  isAt a gateway := decide (a.ip = gateway)
  macOf index := [0x02, 0, 0, 0, 0, UInt8.ofNat index]
  promote := false

theorem linux_lawful :
  linux.netlink.Lawful IsHost fun a gateway => a.ip = gateway
  := by
  have hlaws := linux.lawful
  simp only [linux, decide_eq_true_eq] at hlaws
  exact hlaws

/-- The state with a pair of interfaces. -/
def withPair (k : State) (path ifName hostIface : String) (ns : Netns) (mtu : ℤ) (up : Bool) :
    State where
  host := k.host.add hostIface ⟨Linux.nextIndex k.host, .veth path ifName, mtu, up, []⟩
  netns := k.netns.insert path
    (ns.add ifName ⟨Linux.nextIndex ns, .veth "" hostIface, mtu, false, []⟩)

/-- The first of the names that is free for an interface of the host. -/
def freeSuffix (k : State) (suffixes : List String) : Option String :=
  suffixes.find? fun suffix => (k.host.link (vethPrefix ++ suffix)).isNone

/-- `ip.SetupVeth`. -/
def makeVeth (fault : Option Errno) (suffixes : List String) (path ifName : String) (mtu : ℤ)
    (k : State) : Except Errno String × State :=
  match k.netns.lookup path with
  | none => (.error (.other "unknown network namespace"), k)
  | some ns =>
    if (ns.link ifName).isSome then (.error .fileExists, k)
    else
      match freeSuffix k suffixes with
      | none => (.error .fileExists, k)
      | some suffix =>
        match fault with
        | none =>
          (.ok (vethPrefix ++ suffix), withPair k path ifName (vethPrefix ++ suffix) ns mtu true)
        | some e => (.error e, withPair k path ifName (vethPrefix ++ suffix) ns mtu false)

theorem paired_withPair {k : State} {path ifName suffix : String} {suffixes : List String}
    {ns : Netns} (mtu : ℤ) (up : Bool) (hns : k.netns.lookup path = some ns)
    (hfree : ¬ (ns.link ifName).isSome) (hsuffix : freeSuffix k suffixes = some suffix) :
  suffix ∈ suffixes ∧ Paired path ifName (vethPrefix ++ suffix) mtu up k
    (withPair k path ifName (vethPrefix ++ suffix) ns mtu up)
  := by
  have hnone := List.find?_some hsuffix
  rw [Option.isNone_iff_eq_none] at hnone
  exact ⟨List.mem_of_find?_eq_some hsuffix, ns, _, _, _, hns,
    Option.not_isSome_iff_eq_none.mp hfree, hnone, Linux.fresh_nextIndex ns,
    Linux.fresh_nextIndex k.host, rfl⟩

/-- What a call of `makeVeth` does: it makes nothing, or the pair. -/
theorem makeVeth_cases {fault : Option Errno} {suffixes : List String} {path ifName : String}
    {mtu : ℤ} {k k' : State} {r : Except Errno String}
    (h : makeVeth fault suffixes path ifName mtu k = (r, k')) :
  (∃ e, r = .error e ∧ k' = k) ∨ ∃ suffix ∈ suffixes,
    (fault = none ∧ r = .ok (vethPrefix ++ suffix) ∧
      Paired path ifName (vethPrefix ++ suffix) mtu true k k') ∨
    ∃ e, fault = some e ∧ r = .error e ∧ Paired path ifName (vethPrefix ++ suffix) mtu false k k'
  := by
  rw [makeVeth] at h
  split at h
  · cases h
    exact .inl ⟨_, rfl, rfl⟩
  case h_2 ns hns =>
    split at h
    · cases h
      exact .inl ⟨_, rfl, rfl⟩
    case isFalse hfree =>
      split at h
      · cases h
        exact .inl ⟨_, rfl, rfl⟩
      case h_2 suffix hsuffix =>
        obtain ⟨hmem, hpaired⟩ := paired_withPair mtu fault.isNone hns hfree hsuffix
        refine .inr ⟨suffix, hmem, ?_⟩
        cases fault with
        | none =>
          cases h
          exact .inl ⟨rfl, rfl, hpaired⟩
        | some e =>
          cases h
          exact .inr ⟨e, rfl, rfl, hpaired⟩

def linuxPairs : Pairs where
  setupVeth := makeVeth
  setupVeth_ok := by
    intro fault suffixes path ifName mtu k hostIface k' h
    obtain ⟨e, ⟨⟩, -⟩ | ⟨suffix, hmem, ⟨-, ⟨⟩, hpaired⟩ | ⟨e, -, ⟨⟩, -⟩⟩ := makeVeth_cases h
    exact ⟨⟨suffix, hmem, rfl⟩, hpaired⟩
  setupVeth_error := by
    intro fault suffixes path ifName mtu k e k' h
    obtain ⟨e, ⟨⟩, heq⟩ | ⟨suffix, hmem, ⟨-, ⟨⟩, -⟩ | ⟨e, rfl, ⟨⟩, hpaired⟩⟩ := makeVeth_cases h
    · exact .inl heq
    · exact .inr ⟨by simp, suffix, hmem, false, hpaired⟩

/-- A configuration with this kernel.  The library reports no destination for a default route. -/
def linuxConfig (hashes : Hashes) : Config where
  hashes := hashes
  netlink := linux.netlink
  lawful := linux_lawful
  pairs := linuxPairs
  defaultDst := none

end Kernel

end Device
