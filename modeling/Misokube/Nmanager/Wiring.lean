import Misokube.Nmanager.Calm
import Misokube.Nmanager.Reserved
import Misokube.Nmanager.Rollback
import Misokube.Trie.Sizes

/-!
# What a node has set up when nothing fails

The invariant of a node whose calls meet no faults.  The devices of a tenant with a record serve its
subnet, and a tenant without record has none.  A pod that is listed and whose namespace is there has
its address with the mask of the subnet, and a default route to the gateway, through an interface
whose other end is attached to the bridge of the tenant.  While the pods of a tenant are moved after
an expansion some have the old mask and gateway still, so the invariant is one of the pods that are
settled.  The bridge of a tenant is found by its index, so no two links of the host may have one.
-/

namespace Nmanager

open Net Device Trie Links Command

namespace Node

open Device.Kernel (State System Config Scope Changes Footprint Runs Fails Uplink Absent Serves
  Foreign BridgeServes VTEPServes Configured Plugged)

/-! ### Keys of pods -/

/-- A key that does not begin with a slash is found again when its parts are joined. -/
theorem podKey_splitPodKey {key : String} (hkey : key.toList.head? ≠ some '/') :
  podKey (splitPodKey key).1 (splitPodKey key).2 = key
  := by
  rw [splitPodKey, List.span_eq_takeWhile_dropWhile]
  cases hrest : key.toList.dropWhile (· ≠ '/') with
  | nil => simp [podKey]
  | cons c tail =>
    have hsplit := List.takeWhile_append_dropWhile (p := (· ≠ '/')) (l := key.toList)
    have hc := List.head?_dropWhile_not (· ≠ '/') key.toList
    rw [hrest] at hsplit hc
    obtain rfl : c = '/' := by simpa using hc
    have hhead : String.ofList (key.toList.takeWhile (· ≠ '/')) ≠ "" := by
      intro hnil
      apply hkey
      rw [← hsplit]
      have hnil' := congrArg String.toList hnil
      rw [String.toList_ofList] at hnil'
      rw [hnil']
      rfl
    dsimp only
    rw [podKey, if_neg hhead]
    apply String.ext
    simp only [String.toList_append, String.toList_ofList, List.append_assoc]
    exact hsplit

/-! ### The invariant -/

/-- If the namespace of the pod is there, its interface is attached to the bridge of the tenant. -/
def Wired (h : Hashes) (k : State) (id : String) (ci : Ipam.ContainerNetInfo) : Prop :=
  ∀ ns, k.netns.lookup ci.netns = some ns → ∃ lb, k.host.link (bridgeName h id) = some lb ∧
    Plugged k ci.netns ns ci.ifname lb.index

/-- If the namespace of the pod is there, its interface has its address in the subnet, and the
default route goes to the gateway of the subnet. -/
def Addressed (k : State) (q : IPNet) (ci : Ipam.ContainerNetInfo) : Prop :=
  ∀ ns, k.netns.lookup ci.netns = some ns → ∃ gw, firstIP q = .ok gw ∧
    Configured ns ci.ifname ⟨ci.ip, q.mask⟩ gw.ip

/-- No other interface of the namespace has an address of the root network. -/
def Alone (root : IPNet) (ns : Kernel.Netns) (ifName : String) : Prop :=
  ∀ n l, n ≠ ifName → ns.link n = some l → ∀ a ∈ l.addrs, ¬ Covers root (toNat a.ip)

/-- Tenants with a record have devices that serve their subnet, the others have none. -/
structure Devices (h : Hashes) (tenants : Set String) (nm : NetworkManager) (k : State) : Prop where
  uplink : Uplink h k
  consistent : k.host.Consistent
  serves : ∀ id r, nm.tenantRecords.lookup id = some r →
    id ∈ tenants ∧ Serves h nm.nodeName id r.backend r.subnet k
  absent : ∀ id ∈ tenants, nm.tenantRecords.lookup id = none → Absent h id k

/-- The pods that are listed are attached, each in a namespace of its own; those that are settled
have their address. -/
structure Pods (h : Hashes) (root : IPNet) (settled : String → String → Prop) (nm : NetworkManager)
    (k : State) : Prop where
  keys : ∀ {id key ci q}, Lists nm id key ci q → key.toList.head? ≠ some '/'
  wired : ∀ {id key ci q}, Lists nm id key ci q → Wired h k id ci
  apart : ∀ {id key ci q id' key' ci' q'}, Lists nm id key ci q → Lists nm id' key' ci' q' →
    ci.netns = ci'.netns → (k.netns.lookup ci.netns).isSome → id = id' ∧ key = key'
  alone : ∀ {id key ci q}, Lists nm id key ci q → ∀ ns, k.netns.lookup ci.netns = some ns →
    Alone root ns ci.ifname
  addressed : ∀ {id key ci q}, Lists nm id key ci q → settled id key → Addressed k q ci

section

variable {h : Hashes} {tenants : Set String} {root : IPNet} {nm nm' : NetworkManager} {k k' : State}
  {F : Footprint}

/-- The interfaces of the host to the pods are not touched. -/
def SparesVeths (F : Footprint) (k : State) : Prop :=
  ∀ suffix l, k.host.link (vethName suffix) = some l → vethName suffix ∉ F.names

/-- A change that leaves the devices of a tenant alone, or has them serve its subnet. -/
theorem Devices.of_changes (hdevices : Devices h tenants nm k) (hchanges : Changes F k k')
    (hforeign : ∀ name ∈ F.names, ¬ Foreign h name) (hnode : nm'.nodeName = nm.nodeName)
    (hrecords : ∀ id r', nm'.tenantRecords.lookup id = some r' →
      (id ∈ tenants ∧ Serves h nm.nodeName id r'.backend r'.subnet k') ∨
        (∃ r, nm.tenantRecords.lookup id = some r ∧ r'.backend = r.backend ∧ r'.subnet = r.subnet) ∧
          bridgeName h id ∉ F.names ∧ vtepName h id ∉ F.names)
    (habsent : ∀ id ∈ tenants, nm'.tenantRecords.lookup id = none → Absent h id k' ∨
      nm.tenantRecords.lookup id = none ∧ bridgeName h id ∉ F.names ∧ vtepName h id ∉ F.names) :
  Devices h tenants nm' k'
  := by
  constructor
  · apply hdevices.uplink.of_changes hchanges hforeign
  · exact hchanges.consistent hdevices.consistent
  · intro id r' hr'
    rw [hnode]
    obtain hserves | ⟨⟨r, hr, hbackend, hsubnet⟩, hbridge, hvtep⟩ := hrecords id r' hr'
    · exact hserves
    · obtain ⟨hid, hmanagers, ⟨br, hbr, hserves⟩, vt, hvt, hserves'⟩ := hdevices.serves id r hr
      rw [hbackend, hsubnet]
      exact ⟨hid, hmanagers, ⟨br, hbr, hserves.of_changes hchanges hbridge⟩, vt, hvt,
        hserves'.of_changes hdevices.uplink hchanges hvtep hforeign⟩
  · intro id hid hnone'
    obtain habsent | ⟨hnone, hbridge, hvtep⟩ := habsent id hid hnone'
    · exact habsent
    · obtain ⟨hb, hv⟩ := hdevices.absent id hid hnone
      constructor
      · rw [hchanges.others _ hbridge]
        exact hb
      · rw [hchanges.others _ hvtep]
        exact hv

/-- A change that leaves the bridge and the interfaces of a pod where they are. -/
theorem Wired.of_changes {id : String} {ci : Ipam.ContainerNetInfo} (hwired : Wired h k id ci)
    (hconsistent : k.host.Consistent) (hchanges : Changes F k k') (hpath : ci.netns ∉ F.paths)
    (hspares : SparesVeths F k) (hbridge : bridgeName h id ∉ F.deletes) :
  Wired h k' id ci
  := by
  intro ns hns
  rw [hchanges.netns _ hpath] at hns
  obtain ⟨lb, hlb, l, suffix, lh, hl, hkind, hlh, hlhkind, hup, hmaster⟩ := hwired ns hns
  obtain ⟨lb', hlb', hsame⟩ := hchanges.kept _ hbridge lb hlb
  have hveth : vethName suffix ∉ F.names := hspares suffix lh hlh
  refine ⟨lb', hlb', l, suffix, lh, hl, hkind, (hchanges.others _ hveth).trans hlh, hlhkind, hup,
    ?_⟩
  rw [hsame.index]
  exact hchanges.attached hconsistent _ hveth _ hbridge lb hlb hmaster

/-- A pod whose namespace is left alone keeps its address and route. -/
theorem Addressed.of_changes {q : IPNet} {ci : Ipam.ContainerNetInfo}
    (haddressed : Addressed k q ci) (hchanges : Changes F k k') (hpath : ci.netns ∉ F.paths) :
  Addressed k' q ci
  := by
  intro ns hns
  rw [hchanges.netns _ hpath] at hns
  exact haddressed ns hns

/-- A change elsewhere, when no pod is listed that was not; those that are settled then have the
subnet they had. -/
theorem Pods.of_changes {settled settled' : String → String → Prop}
    (hpods : Pods h root settled nm k) (hconsistent : k.host.Consistent) (hchanges : Changes F k k')
    (hlists : ∀ {id key ci q'}, Lists nm' id key ci q' → ∃ q, Lists nm id key ci q ∧
      ci.netns ∉ F.paths ∧ bridgeName h id ∉ F.deletes ∧
      (settled' id key → settled id key ∧ q = q'))
    (hspares : SparesVeths F k) :
  Pods h root settled' nm' k'
  := by
  constructor
  · intro id key ci q' hlist'
    obtain ⟨q, hlist, -⟩ := hlists hlist'
    exact hpods.keys hlist
  · intro id key ci q' hlist'
    obtain ⟨q, hlist, hpath, hbridge, -⟩ := hlists hlist'
    exact (hpods.wired hlist).of_changes hconsistent hchanges hpath hspares hbridge
  · intro id key ci q id' key' ci' q' hlist hlist' hnetns hopen
    obtain ⟨q₁, hlist₁, hpath, -⟩ := hlists hlist
    obtain ⟨q₂, hlist₂, -⟩ := hlists hlist'
    rw [hchanges.netns _ hpath] at hopen
    exact hpods.apart hlist₁ hlist₂ hnetns hopen
  · intro id key ci q' hlist' ns hns
    obtain ⟨q, hlist, hpath, -⟩ := hlists hlist'
    rw [hchanges.netns _ hpath] at hns
    exact hpods.alone hlist ns hns
  · intro id key ci q' hlist' hsettled'
    obtain ⟨q, hlist, hpath, -, hsettled⟩ := hlists hlist'
    obtain ⟨hbefore, rfl⟩ := hsettled hsettled'
    exact (hpods.addressed hlist hbefore).of_changes hchanges hpath

end

/-! ### The manager -/

/-- The recorded address of the VTEP is one of the subnet; an expansion does not change it. -/
def Homed (v : View) : Prop :=
  ∀ r, v.record = some r → ∀ vt ∈ r.backend.vtep,
    vt.ip.ip.length = 4 ∧ Covers r.subnet (toNat vt.ip.ip)

/-- The records agree with the subnet manager, no network of which is smaller than /30. -/
structure Ledger (root : IPNet) (leafMask : ℤ) (nodeName : String)
    (nm : NetworkManager) : Prop where
  agreeing : Throughout root leafMask nodeName (Agreeing 32) nm
  sized : ManagedUpTo 30 root leafMask nm.subnet
  homed : ∀ id, Homed (nm.view id)

section

variable {root : IPNet} {ones : ℕ} {leafMask : ℤ} {nodeName : String} {nm : NetworkManager}

/-- The operations of the manager make no smaller networks. -/
theorem managedUpTo_step (hroot : IsCIDR root ones 32)
    (hsized : ManagedUpTo 30 root leafMask nm.subnet) (h : Hashes) (op : Op) :
  ManagedUpTo 30 root leafMask (Nmanager.step h nm op).2.subnet
  := by
  obtain ⟨ops, hsubnet, hops⟩ := step_subnet h nm op
  rw [hsubnet]
  apply Machine.after_of_forall_mem (P := ManagedUpTo 30 root leafMask) _ hsized hops
  intro tm op' hsized' hop'
  exact hsized'.step hroot (Nat.le_refl 30) op' hop'

/-- Another record with the same subnet and devices. -/
theorem Homed.of_eq {r r' : TenantRecord} {p p' : Option IPNet} (hv : Homed ⟨some r, p⟩)
    (hbackend : r'.backend = r.backend) (hsubnet : r'.subnet = r.subnet) :
  Homed ⟨some r', p'⟩
  := by
  rintro _ ⟨⟩
  rw [hbackend, hsubnet]
  exact hv r rfl

/-- What moves a tenant to a larger subnet leaves the address of its VTEP in it. -/
theorem homed_of_effect {h : Hashes} {grants : IPNet → Prop} {op : Op} {v v' : View} {reply : Reply}
    (heffect : Effect h nodeName 32 grants op v reply v') (hagree : Agreeing 32 v) (hv : Homed v)
    (hmove : ∀ id o, op = .expandTenant id o → o.CanMove) :
  Homed v'
  := by
  cases heffect with
  | same => exact hv
  | exhausted => exact hv
  | failed => rintro _ ⟨⟩
  | removed => rintro _ ⟨⟩
  | created hcidr hcreate hipam =>
    obtain ⟨br, vt, rfl, -, hhost⟩ := create_spec hcreate
    rintro _ ⟨⟩ _ ⟨⟩
    rw [hhost, (hostIP_eq hcidr).2]
    exact ⟨(hostIP_eq hcidr).1, covers_base _⟩
  | panicked => exact hv.of_eq rfl rfl
  | expanded hgrants hcidr hlt hhalf hexpanded =>
    obtain ⟨hvalid, hheld, hnetwork⟩ := hagree _ rfl
    cases hheld
    obtain ⟨br, vt, hbe⟩ := hvalid.devices
    obtain ⟨rfl, hsubnet, -⟩ := hexpanded.moves hcidr hlt hvalid (hmove _ _ rfl) fun a ha =>
      covers_of_half hcidr hlt hhalf (hnetwork ▸ ha)
    obtain ⟨br', hbe', -⟩ := hexpanded.placed hbe
    obtain ⟨hlength, hcovers⟩ := hv _ rfl vt (by rw [hbe]; rfl)
    rintro _ ⟨⟩ vt' hvt'
    rw [hbe'] at hvt'
    cases hvt'
    rw [hsubnet]
    exact ⟨hlength, covers_of_half hcidr hlt hhalf hcovers⟩
  | attached => exact hv.of_eq rfl rfl
  | bridgeless => exact hv.of_eq rfl rfl
  | detached => exact hv.of_eq rfl rfl

/-- An operation keeps the ledger; an expansion does if its other steps do not fail. -/
theorem Ledger.step (hledger : Ledger root leafMask nodeName nm) (hroot : IsCIDR root ones 32)
    (h : Hashes) (op : Op) (hmove : ∀ id o, op = .expandTenant id o → o.CanMove) :
  Ledger root leafMask nodeName (Nmanager.step h nm op).2
  := by
  have hmeets : Machine.Meets (Nmanager.step h)
      (fun _ op => ∀ id o, op = .expandTenant id o → o.CanMove) nm [op] := ⟨hmove, trivial⟩
  have hboth : Throughout root leafMask nodeName (fun v => Agreeing 32 v ∧ Homed v)
      (Nmanager.step h nm op).2 := by
    apply after_throughout hroot _ _ hmeets
    · intro nm op reply v hmove hv heffect
      refine ⟨(heffect.agreeing hv.1 ?_).1, homed_of_effect heffect hv.1 hv.2 hmove⟩
      intro id o r q hop _ _
      exact hmove id o hop
    · exact ⟨hledger.agreeing.managed, hledger.agreeing.nodeName_eq,
        fun id => ⟨hledger.agreeing.views id, hledger.homed id⟩⟩
  exact ⟨⟨hboth.managed, hboth.nodeName_eq, fun id => (hboth.views id).1⟩,
    managedUpTo_step hroot hledger.sized h op, fun id => (hboth.views id).2⟩

/-- A network that a tenant holds has room. -/
theorem roomy_of_held (hroot : IsCIDR root ones 32) {tm : TrieManager}
    (hsized : ManagedUpTo 30 root leafMask tm) {id : String} {q : IPNet}
    (hq : tm.held id = some q) :
  Roomy root q
  := by
  obtain ⟨n, hcidr⟩ := hsized.managed.isCIDR hroot hq
  have hle := hsized.held_le hq
  rw [hcidr.maskSize] at hle
  exact ⟨n, hle, hcidr, fun a => hsized.managed.covers_root hroot hq⟩

/-- A network that the subnet manager allocates has room. -/
theorem roomy_of_allocate (hroot : IsCIDR root ones 32) {tm : TrieManager}
    (hsized : ManagedUpTo 30 root leafMask tm) (id : String) (q : IPNet)
    (hq : (tm.allocate id).1 = .ok q) :
  Roomy root q
  := by
  have hsized' : ManagedUpTo 30 root leafMask (tm.allocate id).2 :=
    hsized.step hroot (Nat.le_refl 30) (.allocate id) (by simp)
  obtain ⟨-, ⟨e, herror, -⟩ | ⟨q', hok, hheld⟩⟩ := hsized.managed.allocate hroot id
  · cases herror.symm.trans hq
  · cases hok.symm.trans hq
    apply roomy_of_held hroot hsized'
    rw [hheld, Function.update_self]

/-- A network to which the subnet manager expands that of a tenant has room, and the IPAM of the
tenant can be moved to it. -/
theorem Ledger.roomy_expand (hledger : Ledger root leafMask nodeName nm)
    (hroot : IsCIDR root ones 32)
    {id : String} {r : TenantRecord} (hr : nm.tenantRecords.lookup id = some r) (q : IPNet)
    (hq : nm.Grants id q) :
  Roomy root q ∧ ∃ ipam, r.ipam.expand (some q) = (.ok (), ipam) ∧ ipam.ips = r.ipam.ips
  := by
  have hsized : ManagedUpTo 30 root leafMask (nm.subnet.expand id).2 :=
    hledger.sized.step hroot (Nat.le_refl 30) (.expand id) (by simp)
  obtain ⟨⟨-, hsound, -⟩, hheld : nm.subnet.held id = some r.subnet, hnetwork⟩ :=
    hledger.agreeing.views id r hr
  obtain ⟨-, ⟨e, herror, -⟩ | ⟨q', n, hok, hheld', hcidr, hlt, hhalf⟩⟩ :=
    hledger.agreeing.managed.expand hroot id
  · cases herror.symm.trans hq
  cases hok.symm.trans hq
  have hroomy : Roomy root q := by
    apply roomy_of_held hroot hsized
    rw [hheld', Function.update_self]
  have hcovers : ∀ a, Covers r.ipam.network a → Covers q a := by
    intro a ha
    rw [hnetwork] at ha
    rw [hheld, Option.some.injEq, Option.some.injEq] at hhalf
    apply covers_of_half hcidr hlt hhalf ha
  have hmoved := Ipam.expand_of_covers hsound hcidr hcovers
  refine ⟨hroomy, ?_⟩
  obtain ⟨e, heq, -⟩ | ⟨bitmap, heq, -⟩ := Ipam.expand_cases hsound hcidr
  · rw [heq] at hmoved
    cases hmoved
  · exact ⟨_, heq, rfl⟩

/-- The gateway of a network is a host in the subnet of each of its addresses. -/
theorem Roomy.isHost {q gw : IPNet} {ip : IP} (hroomy : Roomy root q)
    (hgw : Device.firstIP q = .ok gw) (hip : ip.length = 4) (hcovers : Covers q (toNat ip)) :
  Kernel.IsHost ⟨ip, q.mask⟩ gw.ip
  := by
  obtain ⟨gw', hgw', -, hlength, -, hnat⟩ := hroomy.firstIP
  cases hgw.symm.trans hgw'
  obtain ⟨n, hn, hcidr, -⟩ := hroomy
  have hmk : IsCIDR ⟨ip, cidrMask n 32⟩ n 32 ∧ _ := isCIDR_mk (Or.inl rfl) (by omega) (by omega)
  obtain ⟨hpod, hbase⟩ := hmk
  rw [← hcidr.mask_eq] at hpod hbase
  have hpos : 2 ^ 2 ≤ 2 ^ (32 - n) := Nat.pow_le_pow_right (by decide) (by omega)
  refine ⟨hlength, ?_⟩
  rw [hnat, hbase, hpod.size, ← hcidr.base_of_covers hcovers]
  omega

/-- What the subnet of a pod that is listed is, and where its address is in it. -/
theorem Ledger.pod (hledger : Ledger root leafMask nodeName nm) (hroot : IsCIDR root ones 32)
    {id key : String} {ci : Ipam.ContainerNetInfo} {q : IPNet} (hlists : Lists nm id key ci q) :
  Roomy root q ∧ ci.ip.length = 4 ∧ Covers q (toNat ci.ip) ∧ base q + 1 < toNat ci.ip
  := by
  obtain ⟨r, hr, hci, rfl⟩ := hlists
  obtain ⟨⟨-, hsound, -⟩, hheld, hnetwork⟩ := hledger.agreeing.views id r hr
  obtain ⟨hlength, hcovers⟩ :=
    covers_of_mem_listAllocations hsound (Ipam.mem_listAllocations.mpr hci)
  rw [hnetwork] at hcovers
  refine ⟨roomy_of_held hroot hledger.sized hheld, hlength, hcovers, ?_⟩
  obtain ⟨n, hcidr⟩ := hsound.cidr
  obtain ⟨idx, hidx, hip, -⟩ := hsound.slot hci
  have hnat := (Ipam.toNat_indexToIP hcidr hidx).2
  rw [hip, hnat, hnetwork]
  omega

end

end Node

end Nmanager
