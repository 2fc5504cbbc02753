import Misokube.Nmanager.Wiring

/-!
# Runs of a node without faults

Every operation keeps the invariant of `Wiring`: an attempt to attach a pod, with the expansion of
the subnet and the pods that are moved then, a tenant that is made or removed, a namespace that
comes or goes.  So after every run without faults the devices serve the tenants (`after_serves`) and
the pods are attached (`after_attached`).
-/

namespace Nmanager

open Net Device Trie Links Command

namespace Node

open Device.Kernel (State Config Changes Footprint Runs Uplink Absent Serves Configured Plugged
  nothing tenantFootprint vxlanPort)

/-! ### Operations -/

/-- The invariant: the records agree with the subnets, the devices and the pods. -/
structure Wiring (h : Hashes) (tenants : Set String) (root : IPNet) (leafMask : ℤ)
    (nodeName : String) (settled : String → String → Prop) (nm : NetworkManager)
    (k : State) : Prop where
  ledger : Ledger root leafMask nodeName nm
  devices : Devices h tenants nm k
  pods : Pods h root settled nm k

/-- The namespace has no default route, and no interface with an address of the root network. -/
def Vacant (root : IPNet) (ns : Kernel.Netns) : Prop :=
  ns.route = none ∧ ∀ n l, ns.link n = some l → ∀ a ∈ l.addrs, ¬ Covers root (toNat a.ip)

/-- The pod may be attached: its namespace has the interface already, or is vacant and that of no
other pod. -/
def Usable (root : IPNet) (nm : NetworkManager) (k : State) (args : PodAttachArgs) : Prop :=
  ∀ ns, k.netns.lookup args.netNS = some ns → ns.link args.ifName = none →
    Vacant root ns ∧ ∀ {id key ci q}, Lists nm id key ci q → ci.netns ≠ args.netNS

/-- All pods are settled. -/
def Everyone (_ _ : String) : Prop := True

section

variable {cfg : Config} {tenants : Set String} {root : IPNet} {ones : ℕ} {leafMask : ℤ}
  {nodeName : String} {settled : String → String → Prop} {nm nm' : NetworkManager} {k k' : State}
  {id : String}

/-- When all pods are settled, a namespace without default route is that of none of them. -/
theorem Pods.usable {h : Hashes} (hpods : Pods h root Everyone nm k) {args : PodAttachArgs}
    (hvacant : ∀ ns, k.netns.lookup args.netNS = some ns → ns.link args.ifName = none →
      Vacant root ns) :
  Usable root nm k args
  := by
  intro ns hns hfree
  refine ⟨hvacant ns hns hfree, ?_⟩
  intro id key ci q hlists hnetns
  obtain ⟨gw, -, l, -, -, -, -, hdefault⟩ := hpods.addressed hlists trivial ns (hnetns ▸ hns)
  cases (hvacant ns hns hfree).1.symm.trans hdefault

/-- The devices are as they were if the tenants are and no name of a device is touched. -/
theorem Devices.of_sameTenants {h : Hashes} {F : Footprint} (hdevices : Devices h tenants nm k)
    (hchanges : Changes F k k') (hsame : SameTenants nm nm')
    (hnames : ∀ name ∈ F.names, ∃ suffix, name = vethName suffix) :
  Devices h tenants nm' k'
  := by
  have hbridge : ∀ id, bridgeName h id ∉ F.names := by
    intro id hname
    obtain ⟨suffix, heq⟩ := hnames _ hname
    exact vethName_ne_bridgeName h suffix id heq.symm
  have hvtep : ∀ id, vtepName h id ∉ F.names := by
    intro id hname
    obtain ⟨suffix, heq⟩ := hnames _ hname
    exact vethName_ne_vtepName h suffix id heq.symm
  apply hdevices.of_changes hchanges _ hsame.nodeName
  · intro id r' hr'
    refine .inr ⟨?_, hbridge id, hvtep id⟩
    have hrecord := hsame.records id
    rw [hr', Option.map_some] at hrecord
    obtain ⟨r, hr, heq⟩ := Option.map_eq_some_iff.mp hrecord.symm
    obtain ⟨hbackend, hsubnet⟩ := Prod.mk.inj heq
    exact ⟨r, hr, hbackend.symm, hsubnet.symm⟩
  · intro id _ hnone'
    refine .inr ⟨?_, hbridge id, hvtep id⟩
    have hrecord := hsame.records id
    rw [hnone', Option.map_none] at hrecord
    exact Option.map_eq_none_iff.mp hrecord.symm
  · intro name hname hforeign
    obtain ⟨suffix, rfl⟩ := hnames name hname
    exact (hforeign suffix).2.2 rfl

/-- No pod is listed that was not, and neither namespaces of pods nor bridges are touched. -/
theorem Pods.of_fewer {h : Hashes} {F : Footprint} (hpods : Pods h root settled nm k)
    (hconsistent : k.host.Consistent) (hchanges : Changes F k k') (hfewer : Fewer nm nm')
    (hdeletes : F.deletes = ∅) (hspares : SparesVeths F k)
    (hpaths : ∀ {id key ci q}, Lists nm id key ci q → ci.netns ∉ F.paths) :
  Pods h root settled nm' k'
  := by
  apply hpods.of_changes hconsistent hchanges _ hspares
  intro id key ci q hlists
  rw [hdeletes]
  exact ⟨q, hfewer hlists, hpaths (hfewer hlists), Set.notMem_empty _,
    fun hsettled => ⟨hsettled, rfl⟩⟩

/-- The same for a command that changes nothing. -/
theorem Pods.of_nothing {h : Hashes} (hpods : Pods h root settled nm k)
    (hconsistent : k.host.Consistent) (hchanges : Changes nothing k k') (hfewer : Fewer nm nm') :
  Pods h root settled nm' k'
  := hpods.of_fewer hconsistent hchanges hfewer rfl (fun _ _ _ => Set.notMem_empty _)
    fun _ => Set.notMem_empty _

/-- A pod may still be attached if its namespace is left alone and no more pods are listed. -/
theorem Usable.of_changes {F : Footprint} {args : PodAttachArgs} (husable : Usable root nm k args)
    (hchanges : Changes F k k') (hpath : args.netNS ∉ F.paths)
    (hlists : ∀ {id key ci q'}, Lists nm' id key ci q' → ∃ q, Lists nm id key ci q) :
  Usable root nm' k' args
  := by
  intro ns hns hfree
  rw [hchanges.netns _ hpath] at hns
  obtain ⟨hvacant, hothers⟩ := husable ns hns hfree
  refine ⟨hvacant, ?_⟩
  intro id key ci q' hlist'
  obtain ⟨q, hlist⟩ := hlists hlist'
  exact hothers hlist

/-- The interfaces of the host that are new have names that were free. -/
theorem sparesVeths_podFootprint (args : PodAttachArgs) (k : State) :
  SparesVeths (podFootprint args k) k
  := by
  rintro suffix l hl ⟨hfree, -⟩
  cases hl.symm.trans hfree

/-- A pod that is attached is wired and has its address; no other pod is in its namespace. -/
theorem Pods.attach {h : Hashes} {args : PodAttachArgs} {ci : Ipam.ContainerNetInfo} {q : IPNet}
    {ns ns' : Kernel.Netns} (hpods : Pods h root Everyone nm k) (hconsistent : k.host.Consistent)
    (hkey : (podKey args.namespaceName args.podName).toList.head? ≠ some '/')
    (husable : Usable root nm k args) (hattached : Attached h nm nm' id args k k' ci q ns ns') :
  Pods h root Everyone nm' k'
  := by
  obtain ⟨hvacant, hpath⟩ := husable ns hattached.before hattached.free
  have hold : ∀ {id' key' ci' q'}, Lists nm' id' key' ci' q' → (Lists nm id' key' ci' q' ∧
      ci'.netns ∉ (podFootprint args k).paths) ∨
      id' = id ∧ key' = podKey args.namespaceName args.podName ∧ ci' = ci ∧ q' = q := by
    intro id' key' ci' q' hl
    exact (hattached.lists hl).imp_left fun hl' => ⟨hl', hpath hl'⟩
  have hnew : ∀ ns'', k'.netns.lookup ci.netns = some ns'' → ns'' = ns' := by
    intro ns'' hns''
    rw [hattached.netns] at hns''
    exact Option.some.inj (hns''.symm.trans hattached.after)
  constructor
  · intro id' key' ci' q' hl
    obtain ⟨hl', -⟩ | ⟨rfl, rfl, rfl, rfl⟩ := hold hl
    · exact hpods.keys hl'
    · exact hkey
  · intro id' key' ci' q' hl
    obtain ⟨hl', hne⟩ | ⟨rfl, rfl, rfl, rfl⟩ := hold hl
    · exact (hpods.wired hl').of_changes hconsistent hattached.changes hne
        (sparesVeths_podFootprint args k) (Set.notMem_empty _)
    · intro ns'' hns''
      cases hnew ns'' hns''
      obtain ⟨lb, hlb, hplugged⟩ := hattached.plugged
      obtain ⟨lb', hlb', hsame⟩ := hattached.changes.kept _ (Set.notMem_empty _) lb hlb
      rw [hattached.netns, hattached.ifname]
      refine ⟨lb', hlb', ?_⟩
      rw [hsame.index]
      exact hplugged
  · intro id₁ key₁ ci₁ q₁ id₂ key₂ ci₂ q₂ hl₁ hl₂ heq hopen
    obtain ⟨hl₁', hne₁⟩ | ⟨rfl, rfl, rfl, rfl⟩ := hold hl₁
    · obtain ⟨hl₂', -⟩ | ⟨rfl, rfl, rfl, rfl⟩ := hold hl₂
      · rw [hattached.changes.netns _ hne₁] at hopen
        exact hpods.apart hl₁' hl₂' heq hopen
      · exact absurd (heq.trans hattached.netns) (hpath hl₁')
    · obtain ⟨hl₂', -⟩ | ⟨rfl, rfl, -⟩ := hold hl₂
      · exact absurd (heq.symm.trans hattached.netns) (hpath hl₂')
      · exact ⟨rfl, rfl⟩
  · intro id' key' ci' q' hl ns'' hns''
    obtain ⟨hl', hne⟩ | ⟨rfl, rfl, rfl, rfl⟩ := hold hl
    · rw [hattached.changes.netns _ hne] at hns''
      exact hpods.alone hl' ns'' hns''
    · cases hnew ns'' hns''
      intro n l hn hl
      rw [hattached.others n (hattached.ifname ▸ hn)] at hl
      exact hvacant.2 n l hl
  · intro id' key' ci' q' hl _
    obtain ⟨hl', hne⟩ | ⟨rfl, rfl, rfl, rfl⟩ := hold hl
    · exact (hpods.addressed hl' trivial).of_changes hattached.changes hne
    · intro ns'' hns''
      cases hnew ns'' hns''
      rw [hattached.ifname]
      exact hattached.configured

/-- The IPAM of a record keeps its invariant. -/
theorem Ledger.sound (hledger : Ledger root leafMask nodeName nm) {r : TenantRecord}
    (hr : nm.tenantRecords.lookup id = some r) :
  Ipam.Sound r.ipam
  := (hledger.agreeing.views id r hr).1.sound

/-- An attempt to attach a pod keeps the invariant, and if no address is left another one may be
made. -/
theorem Wiring.ensurePod (hroot : IsCIDR root ones 32)
    (hwiring : Wiring cfg.hashes tenants root leafMask nodeName Everyone nm k)
    {args : PodAttachArgs} (hkey : (podKey args.namespaceName args.podName).toList.head? ≠ some '/')
    (husable : Usable root nm k args) (id : String) (suffixes : List String) :
  ∃ result nm' k', Runs (ensurePod cfg suffixes nm id args) k (result, nm') k' ∧
    Wiring cfg.hashes tenants root leafMask nodeName Everyone nm' k' ∧
    ((∃ n, result = .error (.ipam (.noAvailableIPs n))) → Usable root nm' k' args)
  := by
  obtain ⟨o, result, nm', k', hruns, hsaid, hsame, hleft⟩ := runs_ensurePod cfg id suffixes args
    (fun r hr => (hwiring.devices.serves id r hr).2) (fun r hr => hwiring.ledger.sound hr)
    fun ns hns hfree => (husable ns hns hfree).1.1
  have hledger : Ledger root leafMask nodeName nm' := by
    have hstep := hwiring.ledger.step hroot cfg.hashes (.ensurePod id args o) (by simp)
    rw [Nmanager.step, hsaid] at hstep
    exact hstep
  have hdevices : ∀ {F}, Changes F k k' → (∀ name ∈ F.names, ∃ suffix, name = vethName suffix) →
      Devices cfg.hashes tenants nm' k' :=
    fun hchanges hnames => hwiring.devices.of_sameTenants hchanges hsame hnames
  have hconsistent := hwiring.devices.consistent
  refine ⟨result, nm', k', hruns, ?_⟩
  cases hleft with
  | same hchanges hfewer =>
    refine ⟨⟨hledger, hdevices hchanges ?_, hwiring.pods.of_nothing hconsistent hchanges hfewer⟩,
      fun _ => husable.of_changes hchanges (Set.notMem_empty _) fun hlists => ⟨_, hfewer hlists⟩⟩
    intro name hname
    exact absurd hname (Set.notMem_empty _)
  | halfway hchanges hfewer hns hfree =>
    have hpods := hwiring.pods.of_fewer hconsistent hchanges hfewer rfl
      (sparesVeths_podFootprint args k) (husable _ hns hfree).2
    exact ⟨⟨hledger, hdevices hchanges fun name hname => hname.2, hpods⟩, by simp⟩
  | attached hattached =>
    have hpods := hwiring.pods.attach hconsistent hkey husable hattached
    exact ⟨⟨hledger, hdevices hattached.changes fun name hname => hname.2, hpods⟩, by simp⟩

/-- A pod key of a tenant is listed once. -/
theorem Lists.unique {key : String} {ci ci' : Ipam.ContainerNetInfo} {q q' : IPNet}
    (hlists : Lists nm id key ci q) (hlists' : Lists nm id key ci' q') :
  ci = ci' ∧ q = q'
  := by
  obtain ⟨r, hr, hci, rfl⟩ := hlists
  obtain ⟨r', hr', hci', rfl⟩ := hlists'
  cases hr.symm.trans hr'
  exact ⟨Option.some.inj (hci.symm.trans hci'), rfl⟩

/-- Other pods are settled; those that were not are in place. -/
theorem Pods.resettle {h : Hashes} {settled' : String → String → Prop}
    (hpods : Pods h root settled nm k)
    (hsettled : ∀ {id key ci q}, Lists nm id key ci q → settled' id key →
      settled id key ∨ Addressed k q ci) :
  Pods h root settled' nm k
  where
  keys := hpods.keys
  wired := hpods.wired
  apart := hpods.apart
  alone := hpods.alone
  addressed hlists hsettled' :=
    (hsettled hlists hsettled').elim (hpods.addressed hlists) fun haddressed => haddressed

/-- One more pod is settled. -/
def Settles (settled : String → String → Prop) (id key : String) (id' key' : String) : Prop :=
  settled id' key' ∨ id' = id ∧ key' = key

/-- Moving a pod settles it and leaves the others alone. -/
theorem Pods.move {h : Hashes} (hpods : Pods h root settled nm k) {key : String}
    {ci : Ipam.ContainerNetInfo} {q gw : IPNet} {ns ns' : Kernel.Netns} {l l' : Link IPNet}
    (hlists : Lists nm id key ci q) (hns : k.netns.lookup ci.netns = some ns)
    (hgw : firstIP q = .ok gw) (hconfigured : Configured ns' ci.ifname ⟨ci.ip, q.mask⟩ gw.ip)
    (hl : ns.link ci.ifname = some l) (hl' : ns'.link ci.ifname = some l')
    (hkind : l'.kind = l.kind) (hothers : ∀ n ≠ ci.ifname, ns'.link n = ns.link n) :
  Pods h root (Settles settled id key) nm (k.set (.pod ci.netns) ns')
  := by
  have hlookup : ∀ path, (k.set (.pod ci.netns) ns').netns.lookup path
      = if path = ci.netns then some ns' else k.netns.lookup path :=
    fun path => GoMap.lookup_insert_eq _ _ _ _
  have hsame : ∀ {id' key' ci' q'}, Lists nm id' key' ci' q' → ci'.netns = ci.netns →
      id' = id ∧ key' = key ∧ ci' = ci ∧ q' = q := by
    intro id' key' ci' q' hlists' hnetns
    obtain ⟨rfl, rfl⟩ := hpods.apart hlists' hlists hnetns (by rw [hnetns, hns]; rfl)
    exact ⟨rfl, rfl, hlists'.unique hlists⟩
  constructor
  · exact hpods.keys
  · intro id' key' ci' q' hlists' ns'' hns''
    rw [hlookup] at hns''
    split at hns''
    case isTrue hnetns =>
      obtain ⟨rfl, rfl, rfl, rfl⟩ := hsame hlists' hnetns
      cases hns''
      obtain ⟨lb, hlb, l₀, suffix, lh, hl₀, hveth, hplugged⟩ := hpods.wired hlists ns hns
      cases hl.symm.trans hl₀
      exact ⟨lb, hlb, l', suffix, lh, hl', hkind.trans hveth, hplugged⟩
    case isFalse => exact hpods.wired hlists' ns'' hns''
  · intro id₁ key₁ ci₁ q₁ id₂ key₂ ci₂ q₂ hlists₁ hlists₂ hnetns hopen
    apply hpods.apart hlists₁ hlists₂ hnetns
    rw [hlookup] at hopen
    split at hopen
    case isTrue heq =>
      rw [heq, hns]
      rfl
    case isFalse => exact hopen
  · intro id' key' ci' q' hlists' ns'' hns''
    rw [hlookup] at hns''
    split at hns''
    case isTrue hnetns =>
      obtain ⟨rfl, rfl, rfl, rfl⟩ := hsame hlists' hnetns
      cases hns''
      intro n l'' hn hl''
      rw [hothers n hn] at hl''
      exact hpods.alone hlists ns hns n l'' hn hl''
    case isFalse => exact hpods.alone hlists' ns'' hns''
  · intro id' key' ci' q' hlists' hsettled ns'' hns''
    rw [hlookup] at hns''
    split at hns''
    case isTrue hnetns =>
      obtain ⟨rfl, rfl, rfl, rfl⟩ := hsame hlists' hnetns
      cases hns''
      exact ⟨gw, hgw, hconfigured⟩
    case isFalse hnetns =>
      obtain hsettled | ⟨rfl, rfl⟩ := hsettled
      · exact hpods.addressed hlists' hsettled ns'' hns''
      · obtain ⟨rfl, -⟩ := hlists'.unique hlists
        exact absurd rfl hnetns

/-- Moving another pod leaves a pod attachable, since its namespace is that of no other. -/
theorem Usable.move {args : PodAttachArgs} (husable : Usable root nm k args) {key : String}
    {ci : Ipam.ContainerNetInfo} {q : IPNet} {ns ns' : Kernel.Netns}
    (hlists : Lists nm id key ci q) (hns : k.netns.lookup ci.netns = some ns)
    (hlinks : ∀ n, ns'.link n = none → ns.link n = none) :
  Usable root nm (k.set (.pod ci.netns) ns') args
  := by
  intro ns'' hns'' hfree
  replace hns'' := (GoMap.lookup_insert_eq _ _ _ _).symm.trans hns''
  split at hns''
  case isTrue hnetns =>
    cases hns''
    exact absurd hnetns.symm ((husable ns (hnetns ▸ hns) (hlinks _ hfree)).2 hlists)
  case isFalse => exact husable ns'' hns'' hfree

/-- Devices are in the namespace of the host. -/
theorem Devices.of_netns {h : Hashes} (hdevices : Devices h tenants nm k)
    (netns : GoMap String Kernel.Netns) :
  Devices h tenants nm { k with netns := netns }
  where
  uplink := hdevices.uplink
  consistent := hdevices.consistent
  serves id r hr :=
    ⟨(hdevices.serves id r hr).1, (hdevices.serves id r hr).2.managers,
      (hdevices.serves id r hr).2.bridge, (hdevices.serves id r hr).2.vtep⟩
  absent := hdevices.absent

/-- No other interface of a pod's namespace has the address of its gateway. -/
theorem Alone.gateway {ns : Kernel.Netns} {ifName : String} (halone : Alone root ns ifName)
    {q gw : IPNet} (hroomy : Roomy root q) (hgw : firstIP q = .ok gw) (n : String) (l : Link IPNet)
    (hn : n ≠ ifName) (hl : ns.link n = some l) (a : IPNet) (ha : a ∈ l.addrs) :
  a.ip ≠ gw.ip
  := by
  intro heq
  apply halone n l hn hl a ha
  obtain ⟨gw', hgw', -, -, hcovers, -⟩ := hroomy.firstIP
  cases hgw.symm.trans hgw'
  obtain ⟨-, -, -, hroot⟩ := hroomy
  rw [heq]
  exact hroot _ hcovers

/-- A pod is settled if it is not listed, or is in place. -/
theorem Wiring.settle {h : Hashes} {key : String}
    (hwiring : Wiring h tenants root leafMask nodeName settled nm k)
    (hplace : ∀ {ci q}, Lists nm id key ci q → Addressed k q ci) :
  Wiring h tenants root leafMask nodeName (Settles settled id key) nm k
  := by
  refine ⟨hwiring.ledger, hwiring.devices, hwiring.pods.resettle ?_⟩
  rintro id' key' ci' q' hlists (hsettled | ⟨rfl, rfl⟩)
  · exact .inl hsettled
  · exact .inr (hplace hlists)

/-- A pod whose namespace is there is moved. -/
theorem Wiring.updatePod_open (hroot : IsCIDR root ones 32) (haccepts : Accepts cfg root)
    (hwiring : Wiring cfg.hashes tenants root leafMask nodeName settled nm k) {args : PodAttachArgs}
    {r : TenantRecord} (hrecord : nm.tenantRecords.lookup id = some r)
    {ci : Ipam.ContainerNetInfo}
    (halloc : r.ipam.getAllocation (podKey args.namespaceName args.podName) = some ci)
    {ns : Kernel.Netns} (hns : k.netns.lookup ci.netns = some ns) :
  ∃ result k', Runs (updatePod cfg nm id args) k result k' ∧
    Wiring cfg.hashes tenants root leafMask nodeName
      (Settles settled id (podKey args.namespaceName args.podName)) nm k' ∧
    ∀ args', Usable root nm k args' → Usable root nm k' args'
  := by
  have hlists : Lists nm id (podKey args.namespaceName args.podName) ci r.subnet :=
    ⟨r, hrecord, halloc, rfl⟩
  obtain ⟨-, ⟨br, hbr, -, hfirst, -⟩, -⟩ := (hwiring.devices.serves id r hrecord).2
  obtain ⟨-, -, l, suffix, -, hl, hveth, -⟩ := hwiring.pods.wired hlists ns hns
  obtain ⟨hroomy, hlength, hcovers, hplace⟩ := hwiring.ledger.pod hroot hlists
  have hne : ci.ip ≠ br.ip.ip := by
    obtain ⟨gw, hgw, -, -, -, hnat⟩ := hroomy.firstIP
    cases hfirst.symm.trans hgw
    intro heq
    rw [heq, hnat] at hplace
    exact Nat.lt_irrefl _ hplace
  obtain ⟨result, ns', l', hruns, hconfigured, hl', hkind, hothers⟩ :=
    runs_updatePod_open cfg hrecord halloc hbr hns hl hveth (haccepts.pod hroomy hlength hcovers)
      (hroomy.isHost hfirst hlength hcovers) hne
      ((hwiring.pods.alone hlists ns hns).gateway hroomy hfirst)
  refine ⟨result, _, hruns, ⟨hwiring.ledger, hwiring.devices.of_netns _,
    hwiring.pods.move hlists hns hfirst hconfigured hl hl' hkind hothers⟩, ?_⟩
  intro args' husable
  apply husable.move hlists hns
  intro n hn
  by_cases hname : n = ci.ifname
  · rw [hname, hl'] at hn
    cases hn
  · rw [← hothers n hname]
    exact hn

/-- A request to move a pod keeps the invariant, and the pod is settled if it is listed. -/
theorem Wiring.updatePod (hroot : IsCIDR root ones 32) (haccepts : Accepts cfg root)
    (hwiring : Wiring cfg.hashes tenants root leafMask nodeName settled nm k) (id : String)
    (args : PodAttachArgs) :
  ∃ result k', Runs (updatePod cfg nm id args) k result k' ∧
    Wiring cfg.hashes tenants root leafMask nodeName
      (Settles settled id (podKey args.namespaceName args.podName)) nm k' ∧
    ∀ args', Usable root nm k args' → Usable root nm k' args'
  := by
  cases hrecord : nm.tenantRecords.lookup id with
  | none =>
    refine ⟨.error (.manager .tenantActorNotFound), k, ?_, hwiring.settle ?_,
      fun _ husable => husable⟩
    · simp only [Node.updatePod, hrecord]
      rfl
    · rintro ci q ⟨r, hr, -⟩
      cases hrecord.symm.trans hr
  | some r =>
    cases halloc : r.ipam.getAllocation (podKey args.namespaceName args.podName) with
    | none =>
      refine ⟨.error (.allocationNotFound (podKey args.namespaceName args.podName)), k, ?_,
        hwiring.settle ?_, fun _ husable => husable⟩
      · simp only [Node.updatePod, hrecord, halloc]
        rfl
      · rintro ci q ⟨r', hr', hci, -⟩
        cases hrecord.symm.trans hr'
        cases halloc.symm.trans hci
    | some ci =>
      cases hns : k.netns.lookup ci.netns with
      | none =>
        obtain ⟨-, ⟨br, hbr, -⟩, -⟩ := (hwiring.devices.serves id r hrecord).2
        obtain ⟨result, hruns⟩ := runs_updatePod_closed cfg hrecord halloc hbr hns
        refine ⟨result, k, hruns, hwiring.settle ?_, fun _ husable => husable⟩
        intro ci' q hlists ns' hns'
        obtain ⟨rfl, -⟩ := hlists.unique ⟨r, hrecord, halloc, rfl⟩
        cases hns.symm.trans hns'
      | some ns => exact hwiring.updatePod_open hroot haccepts hrecord halloc hns

/-- The loop over the pods of a tenant settles those that it visits. -/
theorem Wiring.reconcilePods (hroot : IsCIDR root ones 32) (haccepts : Accepts cfg root) {q : IPNet}
    (allocs : List (String × Ipam.ContainerNetInfo))
    (hlists : ∀ alloc ∈ allocs, Lists nm id alloc.1 alloc.2 q)
    (hwiring : Wiring cfg.hashes tenants root leafMask nodeName settled nm k) :
  ∃ k', Runs (allocs.forM (reconcilePod cfg nm id)) k () k' ∧
    Wiring cfg.hashes tenants root leafMask nodeName
      (fun id' key' => settled id' key' ∨ id' = id ∧ ∃ ci, (key', ci) ∈ allocs) nm k' ∧
    ∀ args, Usable root nm k args → Usable root nm k' args
  := by
  induction allocs generalizing settled k with
  | nil =>
    refine ⟨k, rfl, ⟨hwiring.ledger, hwiring.devices, hwiring.pods.resettle ?_⟩,
      fun _ husable => husable⟩
    rintro id' key' ci q' - (hsettled | ⟨-, ci', hmem⟩)
    · exact .inl hsettled
    · cases hmem
  | cons alloc allocs ih =>
    have hkey := podKey_splitPodKey (hwiring.pods.keys (hlists alloc List.mem_cons_self))
    obtain ⟨result, k₁, hupdate, hwiring₁, husable₁⟩ := hwiring.updatePod hroot haccepts id
      ⟨(splitPodKey alloc.1).1, (splitPodKey alloc.1).2, alloc.2.id, alloc.2.netns, alloc.2.ifname⟩
    obtain ⟨k', hrest, hwiring', husable'⟩ :=
      ih (fun a ha => hlists a (List.mem_cons_of_mem _ ha)) hwiring₁
    refine ⟨k', Runs.bind (Runs.bind hupdate (Runs.pure () k₁)) hrest,
      ⟨hwiring'.ledger, hwiring'.devices, hwiring'.pods.resettle ?_⟩,
      fun args husable => husable' args (husable₁ args husable)⟩
    rintro id' key' ci' q' - (hsettled | ⟨rfl, ci, hmem⟩)
    · exact .inl (.inl (.inl hsettled))
    · obtain rfl | hmem := List.mem_cons.mp hmem
      · exact .inl (.inl (.inr ⟨rfl, hkey.symm⟩))
      · exact .inl (.inr ⟨rfl, ci, hmem⟩)

/-- The pods that have not been moved after an expansion are those of the tenant. -/
def Elsewhere (id id' _key : String) : Prop := id' ≠ id

/-- After the pods of a tenant are moved, all are settled. -/
theorem Wiring.reconcileExistingPods (hroot : IsCIDR root ones 32) (haccepts : Accepts cfg root)
    (hwiring : Wiring cfg.hashes tenants root leafMask nodeName (Elsewhere id) nm k)
    (hsome : (nm.tenantRecords.lookup id).isSome) (order : Order) :
  ∃ k', Runs (reconcileExistingPods cfg order nm id) k (.ok ()) k' ∧
    Wiring cfg.hashes tenants root leafMask nodeName Everyone nm k' ∧
    ∀ args, Usable root nm k args → Usable root nm k' args
  := by
  obtain ⟨r, hr⟩ := Option.isSome_iff_exists.mp hsome
  have hmem : ∀ {alloc}, alloc ∈ order.visit r.ipam.listAllocations ↔
      r.ipam.getAllocation alloc.1 = some alloc.2 := by
    intro alloc
    rw [(order.perm _).mem_iff]
    exact Ipam.mem_listAllocations
  obtain ⟨k', hloop, hwiring', husable⟩ := hwiring.reconcilePods hroot haccepts
    (order.visit r.ipam.listAllocations) fun alloc halloc => ⟨r, hr, hmem.mp halloc, rfl⟩
  refine ⟨k', ?_, ⟨hwiring'.ledger, hwiring'.devices, hwiring'.pods.resettle ?_⟩, husable⟩
  · simp only [Node.reconcileExistingPods, hr]
    exact Runs.bind hloop (Runs.pure _ _)
  · intro id' key' ci q hlists _
    by_cases hid : id' = id
    · subst hid
      obtain ⟨r', hr', hci, -⟩ := hlists
      cases hr.symm.trans hr'
      exact .inl (.inr ⟨rfl, ci, hmem.mpr hci⟩)
    · exact .inl (.inl hid)

/-- Names of devices of other tenants. -/
theorem names_of_ne {h : Hashes} (hinj : tenants.InjOn (digits h)) {id' : String}
    (hid : id ∈ tenants) (hid' : id' ∈ tenants) (hne : id' ≠ id) :
  bridgeName h id' ∉ ({bridgeName h id, vtepName h id} : Set String) ∧
    vtepName h id' ∉ ({bridgeName h id, vtepName h id} : Set String)
  := by
  have hdigits : digits h id' ≠ digits h id := fun heq => hne (hinj hid' hid heq)
  constructor
  · rintro (hname | hname)
    · exact hdigits (bridgeName_inj.mp hname)
    · exact bridgeName_ne_vtepName h id' id hname
  · rintro (hname | hname)
    · exact bridgeName_ne_vtepName h id id' hname.symm
    · exact hdigits (vtepName_inj.mp hname)

/-- A change of the devices of one tenant; its record may change with them. -/
theorem Devices.of_tenant {h : Hashes} {F : Footprint} (hinj : tenants.InjOn (digits h))
    (hdevices : Devices h tenants nm k) (hid : id ∈ tenants) (hchanges : Changes F k k')
    (hnames : F.names = {bridgeName h id, vtepName h id}) (hnode : nm'.nodeName = nm.nodeName)
    (hothers : ∀ id' ≠ id, nm'.tenantRecords.lookup id' = nm.tenantRecords.lookup id')
    (hserves : ∀ r, nm'.tenantRecords.lookup id = some r →
      Serves h nm.nodeName id r.backend r.subnet k')
    (habsent : nm'.tenantRecords.lookup id = none → Absent h id k') :
  Devices h tenants nm' k'
  := by
  apply hdevices.of_changes hchanges _ hnode
  · intro id' r' hr'
    by_cases hne : id' = id
    · subst hne
      exact .inl ⟨hid, hserves r' hr'⟩
    · rw [hothers id' hne] at hr'
      rw [hnames]
      exact .inr ⟨⟨r', hr', rfl, rfl⟩, names_of_ne hinj hid (hdevices.serves id' r' hr').1 hne⟩
  · intro id' hid' hnone'
    by_cases hne : id' = id
    · subst hne
      exact .inl (habsent hnone')
    · rw [hothers id' hne] at hnone'
      rw [hnames]
      exact .inr ⟨hnone', names_of_ne hinj hid hid' hne⟩
  · intro name hname hforeign
    rw [hnames] at hname
    obtain rfl | rfl := hname
    · exact (hforeign id).1 rfl
    · exact (hforeign id).2.1 rfl

/-- The devices of a tenant have no names of interfaces to pods. -/
theorem sparesVeths_of_tenant {h : Hashes} {F : Footprint}
    (hnames : F.names = {bridgeName h id, vtepName h id}) (k : State) :
  SparesVeths F k
  := by
  intro suffix l _
  rw [hnames]
  rintro (hname | hname)
  · exact vethName_ne_bridgeName h suffix id hname
  · exact vethName_ne_vtepName h suffix id hname

/-- The kernel has refused a second VTEP with one identifier. -/
theorem Devices.vni_inj {h : Hashes} (hinj : tenants.InjOn (digits h))
    (hdevices : Devices h tenants nm k) {id' : String} {r r' : TenantRecord}
    (hr : nm.tenantRecords.lookup id = some r) (hr' : nm.tenantRecords.lookup id' = some r')
    (hvni : vni h id = vni h id') :
  id = id'
  := by
  have htunnel : ∀ {id r}, nm.tenantRecords.lookup id = some r →
      id ∈ tenants ∧ ∃ l, k.host.link (vtepName h id) = some l ∧
        l.kind.tunnel = some (vni h id, vxlanPort) := by
    intro id r hr
    obtain ⟨hid, -, -, vt, -, hname, hvt, -, l, -, -, hl, hkind, -⟩ := hdevices.serves id r hr
    refine ⟨hid, l, hname ▸ hl, ?_⟩
    rw [hkind, hvt]
    rfl
  obtain ⟨hid, l, hl, ht⟩ := htunnel hr
  obtain ⟨hid', l', hl', ht'⟩ := htunnel hr'
  rw [← hvni] at ht'
  exact hinj hid hid' (vtepName_inj.mp (hdevices.consistent.tunnel _ _ l l' _ hl hl' ht ht'))

/-- The pods that are listed after an expansion are those that were. -/
theorem lists_of_moved {r r' : TenantRecord} (hr : nm.tenantRecords.lookup id = some r)
    (hrecords : nm'.tenantRecords = nm.tenantRecords.insert id r') (hips : r'.ipam.ips = r.ipam.ips)
    {id' key : String} {ci : Ipam.ContainerNetInfo} {q' : IPNet}
    (hlists : Lists nm' id' key ci q') :
  ∃ q, Lists nm id' key ci q ∧ (id' ≠ id → q = q')
  := by
  obtain ⟨r'', hr'', hci, rfl⟩ := hlists
  rw [hrecords, GoMap.lookup_insert_eq] at hr''
  split at hr''
  case isTrue hid =>
    subst hid
    cases hr''
    refine ⟨r.subnet, ⟨r, hr, ?_, rfl⟩, absurd rfl⟩
    rw [Ipam.BitmapIPAM.getAllocation, ← hips]
    exact hci
  case isFalse => exact ⟨r''.subnet, ⟨r'', hr'', hci, rfl⟩, fun _ => rfl⟩

/-- An expansion fails and changes nothing, or moves the devices; the pods are then still to be
moved. -/
theorem Wiring.expandTenant (hinj : tenants.InjOn (digits cfg.hashes)) (hroot : IsCIDR root ones 32)
    (haccepts : Accepts cfg root)
    (hwiring : Wiring cfg.hashes tenants root leafMask nodeName Everyone nm k) {r : TenantRecord}
    (hr : nm.tenantRecords.lookup id = some r) :
  ∃ result nm' k', Runs (expandTenant cfg nm id) k (result, nm') k' ∧
    (∀ args, Usable root nm k args → Usable root nm' k' args) ∧
    ((∃ e, result = .error e) ∧ Wiring cfg.hashes tenants root leafMask nodeName Everyone nm' k' ∨
      (∃ r', result = .ok r') ∧ (nm'.tenantRecords.lookup id).isSome ∧
        Wiring cfg.hashes tenants root leafMask nodeName (Elsewhere id) nm' k')
  := by
  obtain ⟨hid, hserves⟩ := hwiring.devices.serves id r hr
  have hledger : Ledger root leafMask nodeName (nm.expandTenant .success id).2 := by
    apply hwiring.ledger.step hroot cfg.hashes (.expandTenant id .success)
    rintro _ _ ⟨⟩
    exact ⟨rfl, rfl, rfl⟩
  have hnode : (nm.expandTenant .success id).2.nodeName = nm.nodeName :=
    nodeName_step cfg.hashes nm (.expandTenant id .success)
  obtain ⟨result, k', hruns, hchanges, hcases⟩ :=
    runs_expandTenant haccepts hwiring.devices.uplink hr hserves
      (hwiring.ledger.roomy_expand hroot hr)
  generalize (nm.expandTenant .success id).2 = nm' at hledger hnode hruns hcases
  refine ⟨result, nm', k', hruns, ?_⟩
  obtain ⟨herror, hrecords, rfl⟩ | ⟨r', hok, hrecords, hips, -, hserves'⟩ := hcases
  · have hfewer : Fewer nm nm' := by
      intro id' key ci q hlists
      rw [Lists, hrecords] at hlists
      exact hlists
    have hsame : SameTenants nm nm' := ⟨hnode, fun id' => by rw [hrecords]⟩
    have hnothing := Changes.refl nothing k'
    refine ⟨fun args husable => husable.of_changes hnothing (Set.notMem_empty _)
      fun hlists => ⟨_, hfewer hlists⟩, .inl ⟨herror, hledger, ?_, ?_⟩⟩
    · apply hwiring.devices.of_sameTenants hnothing hsame
      intro name hname
      exact absurd hname (Set.notMem_empty _)
    · exact hwiring.pods.of_nothing hwiring.devices.consistent hnothing hfewer
  · have hself : nm'.tenantRecords.lookup id = some r' := by
      rw [hrecords]
      apply AList.lookup_insert
    have hothers : ∀ id' ≠ id, nm'.tenantRecords.lookup id' = nm.tenantRecords.lookup id' := by
      intro id' hne
      rw [hrecords]
      exact AList.lookup_insert_ne hne
    refine ⟨fun args husable => husable.of_changes hchanges (Set.notMem_empty _) ?_,
      .inr ⟨⟨r', hok⟩, by rw [hself]; rfl, hledger, ?_, ?_⟩⟩
    · intro id' key ci q' hlists
      obtain ⟨q, hlists, -⟩ := lists_of_moved hr hrecords hips hlists
      exact ⟨q, hlists⟩
    · apply hwiring.devices.of_tenant hinj hid hchanges rfl hnode hothers
      · intro r'' hr''
        cases hself.symm.trans hr''
        exact hserves'
      · intro hnone
        cases hself.symm.trans hnone
    · apply hwiring.pods.of_changes hwiring.devices.consistent hchanges _
        (sparesVeths_of_tenant rfl k)
      intro id' key ci q' hlists'
      obtain ⟨q, hlists, hq⟩ := lists_of_moved hr hrecords hips hlists'
      exact ⟨q, hlists, Set.notMem_empty _, Set.notMem_empty _, fun hne => ⟨trivial, hq hne⟩⟩

/-- An expansion that succeeds leaves the pods of the tenant to be moved; one that fails keeps the
invariant. -/
theorem Wiring.requestTenantExpansion (hinj : tenants.InjOn (digits cfg.hashes))
    (hroot : IsCIDR root ones 32) (haccepts : Accepts cfg root)
    (hwiring : Wiring cfg.hashes tenants root leafMask nodeName Everyone nm k) (id : String) :
  ∃ result nm' k', Runs (requestTenantExpansion cfg nm id) k (result, nm') k' ∧
    (∀ args, Usable root nm k args → Usable root nm' k' args) ∧
    ((∃ e, result = .error e) ∧ Wiring cfg.hashes tenants root leafMask nodeName Everyone nm' k' ∨
      result = .ok () ∧ (nm'.tenantRecords.lookup id).isSome ∧
        Wiring cfg.hashes tenants root leafMask nodeName (Elsewhere id) nm' k')
  := by
  cases hrecord : nm.tenantRecords.lookup id with
  | none =>
    refine ⟨.error .tenantActorNotFound, nm, k, ?_, fun _ husable => husable,
      .inl ⟨⟨_, rfl⟩, hwiring⟩⟩
    simp only [Node.requestTenantExpansion, hrecord]
    rfl
  | some r =>
    have hready := (hwiring.ledger.agreeing.views id r hrecord).1.ready
    obtain ⟨result, nm', k', hruns, husable, hcases⟩ :=
      hwiring.expandTenant hinj hroot haccepts hrecord
    refine ⟨result.map fun _ => (), nm', k', ?_, husable, ?_⟩
    · simp only [Node.requestTenantExpansion, hrecord, hready, reduceCtorEq, ↓reduceIte]
      exact Runs.bind hruns (Runs.pure _ _)
    · obtain ⟨⟨e, rfl⟩, hwiring'⟩ | ⟨⟨r', rfl⟩, hcases⟩ := hcases
      · exact .inl ⟨⟨e, rfl⟩, hwiring'⟩
      · exact .inr ⟨rfl, hcases⟩

/-- The attempts to attach a pod, with the expansions between them, keep the invariant. -/
theorem Wiring.ensurePodRetry (hinj : tenants.InjOn (digits cfg.hashes))
    (hroot : IsCIDR root ones 32) (haccepts : Accepts cfg root) {args : PodAttachArgs}
    (hkey : (podKey args.namespaceName args.podName).toList.head? ≠ some '/')
    (choices : ℕ → Choice) (id : String) (retries : ℕ)
    (hwiring : Wiring cfg.hashes tenants root leafMask nodeName Everyone nm k)
    (husable : Usable root nm k args) :
  ∃ result nm' k', Runs (ensurePodRetry cfg choices id args retries nm) k (result, nm') k' ∧
    Wiring cfg.hashes tenants root leafMask nodeName Everyone nm' k'
  := by
  induction retries generalizing nm k with
  | zero =>
    obtain ⟨result, nm', k', hruns, hwiring', -⟩ :=
      hwiring.ensurePod hroot hkey husable id (choices 0).suffixes
    exact ⟨result, nm', k', hruns, hwiring'⟩
  | succ retries ih =>
    obtain ⟨result, nm₁, k₁, hpod, hwiring₁, husable₁⟩ :=
      hwiring.ensurePod hroot hkey husable id (choices (retries + 1)).suffixes
    by_cases hexhausted : ∃ n, result = .error (.ipam (.noAvailableIPs n))
    case neg =>
      refine ⟨result, nm₁, k₁, ?_, hwiring₁⟩
      rw [Node.ensurePodRetry]
      apply Runs.bind hpod
      split
      case h_1 n nm' heq => exact absurd ⟨n, (Prod.mk.inj heq).1⟩ hexhausted
      case h_2 => rfl
    case pos =>
      obtain ⟨n, rfl⟩ := hexhausted
      obtain ⟨result₂, nm₂, k₂, hexpand, husable₂, hcases⟩ :=
        hwiring₁.requestTenantExpansion hinj hroot haccepts id
      obtain ⟨⟨e, rfl⟩, hwiring₂⟩ | ⟨rfl, hsome, hwiring₂⟩ := hcases
      · exact ⟨_, nm₂, k₂, run_ensurePodRetry_failed hpod hexpand, hwiring₂⟩
      · obtain ⟨k₃, hpods, hwiring₃, husable₃⟩ :=
          hwiring₂.reconcileExistingPods hroot haccepts hsome (choices (retries + 1)).order
        obtain ⟨result', nm', k', hruns, hwiring'⟩ :=
          ih hwiring₃ (husable₃ args (husable₂ args (husable₁ ⟨n, rfl⟩)))
        exact ⟨result', nm', k', (run_ensurePodRetry_again hpod hexpand hpods).trans hruns,
          hwiring'⟩

/-- A request for a pod to its tenant actor keeps the invariant. -/
theorem Wiring.actorEnsure (hinj : tenants.InjOn (digits cfg.hashes)) (hroot : IsCIDR root ones 32)
    (haccepts : Accepts cfg root) {args : PodAttachArgs}
    (hkey : (podKey args.namespaceName args.podName).toList.head? ≠ some '/')
    (choices : ℕ → Choice) (id : String)
    (hwiring : Wiring cfg.hashes tenants root leafMask nodeName Everyone nm k)
    (hvacant : ∀ ns, k.netns.lookup args.netNS = some ns → ns.link args.ifName = none →
      Vacant root ns) :
  ∃ result nm' k', Runs (actorEnsure cfg choices nm id args) k (result, nm') k' ∧
    Wiring cfg.hashes tenants root leafMask nodeName Everyone nm' k'
  := by
  have hretry := hwiring.ensurePodRetry hinj hroot haccepts hkey choices id
    NetworkManager.maxRetries (hwiring.pods.usable hvacant)
  cases hrecord : nm.tenantRecords.lookup id with
  | none =>
    simp only [Node.actorEnsure, hrecord]
    exact hretry
  | some r =>
    have hready := (hwiring.ledger.agreeing.views id r hrecord).1.ready
    simp only [Node.actorEnsure, hrecord, hready, reduceCtorEq, ↓reduceIte]
    exact hretry

/-- A change of the devices of a tenant that has no pods afterwards. -/
theorem Pods.of_tenant {h : Hashes} (hinj : tenants.InjOn (digits h))
    (hdevices : Devices h tenants nm k) (hpods : Pods h root settled nm k) (hid : id ∈ tenants)
    (hchanges : Changes (tenantFootprint h nodeName id) k k')
    (hothers : ∀ id' ≠ id, nm'.tenantRecords.lookup id' = nm.tenantRecords.lookup id')
    (hempty : ∀ r, nm'.tenantRecords.lookup id = some r → r.ipam.ips = ∅) :
  Pods h root settled nm' k'
  := by
  apply hpods.of_changes hdevices.consistent hchanges _ (sparesVeths_of_tenant rfl k)
  rintro id' key ci q ⟨r', hr', hci, rfl⟩
  by_cases hne : id' = id
  · subst hne
    rw [Ipam.BitmapIPAM.getAllocation, hempty r' hr'] at hci
    cases hci
  · rw [hothers id' hne] at hr'
    exact ⟨r'.subnet, ⟨r', hr', hci, rfl⟩, Set.notMem_empty _,
      (names_of_ne hinj hid (hdevices.serves id' r' hr').1 hne).1, fun hsettled => ⟨hsettled, rfl⟩⟩

/-- A manager with the same records, and a kernel that is as it was. -/
theorem Wiring.of_records (hwiring : Wiring cfg.hashes tenants root leafMask nodeName settled nm k)
    (hledger : Ledger root leafMask nodeName nm') (hnode : nm'.nodeName = nm.nodeName)
    (hrecords : nm'.tenantRecords = nm.tenantRecords) :
  Wiring cfg.hashes tenants root leafMask nodeName settled nm' k
  := by
  have hnothing := Changes.refl nothing k
  refine ⟨hledger, ?_, hwiring.pods.of_nothing hwiring.devices.consistent hnothing ?_⟩
  · apply hwiring.devices.of_sameTenants hnothing ⟨hnode, fun id => by rw [hrecords]⟩
    intro name hname
    exact absurd hname (Set.notMem_empty _)
  · intro id key ci q hlists
    rw [Lists, hrecords] at hlists
    exact hlists

/-- `EnsureTenant` keeps the invariant. -/
theorem Wiring.ensureTenant (hinj : tenants.InjOn (digits cfg.hashes)) (hroot : IsCIDR root ones 32)
    (haccepts : Accepts cfg root)
    (hwiring : Wiring cfg.hashes tenants root leafMask nodeName settled nm k) (hid : id ∈ tenants)
    (policy : PolicyCall → Bool) :
  ∃ result nm' k', Runs (ensureTenant cfg policy nm id) k (result, nm') k' ∧
    Wiring cfg.hashes tenants root leafMask nodeName settled nm' k'
  := by
  obtain ⟨o, result, nm', k', hruns, hnm', hchanges, hcases⟩ := runs_ensureTenant policy haccepts
    hwiring.devices.uplink (hwiring.devices.absent id hid)
    (roomy_of_allocate hroot hwiring.ledger.sized id)
  have hledger : Ledger root leafMask nodeName nm' := by
    rw [hnm']
    exact hwiring.ledger.step hroot cfg.hashes (.ensureTenant id o) (by simp)
  have hnode : nm'.nodeName = nm.nodeName := by
    rw [hnm']
    exact nodeName_step cfg.hashes nm (.ensureTenant id o)
  refine ⟨result, nm', k', hruns, ?_⟩
  obtain ⟨hrecords, rfl⟩ | ⟨hnone, ⟨hrecords, habsent⟩ | ⟨r, hrecords, hips, hserves⟩⟩ := hcases
  · exact hwiring.of_records hledger hnode hrecords
  · have hnone' : nm'.tenantRecords.lookup id = none := by rw [hrecords, hnone]
    have hothers : ∀ id' ≠ id, nm'.tenantRecords.lookup id' = nm.tenantRecords.lookup id' :=
      fun id' _ => by rw [hrecords]
    refine ⟨hledger,
      hwiring.devices.of_tenant hinj hid hchanges rfl hnode hothers ?_ fun _ => habsent,
      hwiring.pods.of_tenant hinj hwiring.devices hid hchanges hothers ?_⟩
    · intro r hr
      cases hnone'.symm.trans hr
    · intro r hr
      cases hnone'.symm.trans hr
  · have hself : nm'.tenantRecords.lookup id = some r := by
      rw [hrecords]
      apply AList.lookup_insert
    have hothers : ∀ id' ≠ id, nm'.tenantRecords.lookup id' = nm.tenantRecords.lookup id' := by
      intro id' hne
      rw [hrecords]
      exact AList.lookup_insert_ne hne
    refine ⟨hledger, hwiring.devices.of_tenant hinj hid hchanges rfl hnode hothers ?_ ?_,
      hwiring.pods.of_tenant hinj hwiring.devices hid hchanges hothers ?_⟩
    · intro r' hr'
      cases hself.symm.trans hr'
      exact hserves
    · intro hnone'
      cases hself.symm.trans hnone'
    · intro r' hr'
      cases hself.symm.trans hr'
      exact hips

/-- `RemoveTenant` keeps the invariant. -/
theorem Wiring.removeTenant (hinj : tenants.InjOn (digits cfg.hashes)) (hroot : IsCIDR root ones 32)
    (hwiring : Wiring cfg.hashes tenants root leafMask nodeName settled nm k) (id : String) :
  ∃ result nm' k', Runs (removeTenant cfg nm id) k (result, nm') k' ∧
    Wiring cfg.hashes tenants root leafMask nodeName settled nm' k'
  := by
  have hpresent : ∀ r, nm.tenantRecords.lookup id = some r →
      Kernel.Present cfg.hashes id r.backend k :=
    fun r hr => (hwiring.devices.serves id r hr).2.present
  obtain ⟨result, nm', k', hruns, hnm', hchanges, hcases⟩ := runs_removeTenant hpresent
  have hledger : Ledger root leafMask nodeName nm' := by
    rw [hnm']
    exact hwiring.ledger.step hroot cfg.hashes (.removeTenant id .success) (by simp)
  have hnode : nm'.nodeName = nm.nodeName := by
    rw [hnm']
    exact nodeName_step cfg.hashes nm (.removeTenant id .success)
  refine ⟨result, nm', k', hruns, ?_⟩
  obtain ⟨rfl, rfl⟩ | ⟨⟨r, hr⟩, habsent, hnone', hothers⟩ := hcases
  · exact hwiring
  have hid := (hwiring.devices.serves id r hr).1
  refine ⟨hledger,
    hwiring.devices.of_tenant hinj hid hchanges rfl hnode hothers ?_ fun _ => habsent,
    hwiring.pods.of_tenant hinj hwiring.devices hid hchanges hothers ?_⟩
  · intro r' hr'
    cases hnone'.symm.trans hr'
  · intro r' hr'
    cases hnone'.symm.trans hr'

/-- `UpdatePod` keeps the invariant. -/
theorem Wiring.actorUpdate (hroot : IsCIDR root ones 32) (haccepts : Accepts cfg root)
    (hwiring : Wiring cfg.hashes tenants root leafMask nodeName Everyone nm k) (id : String)
    (args : PodAttachArgs) :
  ∃ result k', Runs (actorUpdate cfg nm id args) k result k' ∧
    Wiring cfg.hashes tenants root leafMask nodeName Everyone nm k'
  := by
  obtain ⟨result, k', hruns, ⟨hledger, hdevices, hpods⟩, -⟩ :=
    hwiring.updatePod hroot haccepts id args
  have hwiring' : Wiring cfg.hashes tenants root leafMask nodeName Everyone nm k' :=
    ⟨hledger, hdevices, hpods.resettle fun _ _ => .inl (.inl trivial)⟩
  cases hrecord : nm.tenantRecords.lookup id with
  | none =>
    simp only [Node.actorUpdate, hrecord]
    exact ⟨result, k', hruns, hwiring'⟩
  | some r =>
    have hready := (hwiring.ledger.agreeing.views id r hrecord).1.ready
    simp only [Node.actorUpdate, hrecord, hready, reduceCtorEq, ↓reduceIte]
    exact ⟨result, k', hruns, hwiring'⟩

/-! ### Namespaces -/

/-- A namespace that is made keeps the invariant, if it is that of no pod that is listed. -/
theorem Wiring.openNetns (hwiring : Wiring cfg.hashes tenants root leafMask nodeName settled nm k)
    {path : String} (hpath : ∀ id key ci q, Lists nm id key ci q → ci.netns ≠ path) :
  Wiring cfg.hashes tenants root leafMask nodeName settled nm
    { k with netns := k.netns.insert path newNetns }
  := by
  have hlookup : ∀ {id key ci q}, Lists nm id key ci q →
      (k.netns.insert path newNetns).lookup ci.netns = k.netns.lookup ci.netns := by
    intro id key ci q hlists
    exact AList.lookup_insert_ne (hpath id key ci q hlists)
  refine ⟨hwiring.ledger, hwiring.devices.of_netns _, hwiring.pods.keys, ?_, ?_, ?_, ?_⟩
  · intro id key ci q hlists ns hns
    exact hwiring.pods.wired hlists ns ((hlookup hlists).symm.trans hns)
  · intro id key ci q id' key' ci' q' hlists hlists' hnetns hopen
    rw [hlookup hlists] at hopen
    exact hwiring.pods.apart hlists hlists' hnetns hopen
  · intro id key ci q hlists ns hns
    exact hwiring.pods.alone hlists ns ((hlookup hlists).symm.trans hns)
  · intro id key ci q hlists hsettled ns hns
    exact hwiring.pods.addressed hlists hsettled ns ((hlookup hlists).symm.trans hns)

/-- A namespace that is dropped takes no device of a tenant with it. -/
theorem Devices.closeNetns {h : Hashes} (hdevices : Devices h tenants nm k) (path : String) :
  Devices h tenants nm (closeNetns k path)
  := by
  have hroute := route_closeNetns hdevices.uplink path
  constructor
  · intro r hr
    rw [hroute] at hr
    obtain ⟨hforeign, l, hl, haddrs, hkind⟩ := hdevices.uplink r hr
    exact ⟨hforeign, l, link_closeNetns_of_kind hl hkind path, haddrs, hkind⟩
  · apply hdevices.consistent.of_same
    intro name l hl
    rw [link_closeNetns, Option.filter_eq_some_iff] at hl
    exact ⟨l, hl.1, Link.Same.refl l⟩
  · intro id r hr
    obtain ⟨hid, hmanagers, ⟨br, hbr, hname, hfirst, lb, hlb, hbkind, hbrest⟩, vt, hvt, hvname,
      hvni, hvmac, lv, gw, lg, hlv, hvkind, hup, hip, haddr, hgw, hlg, hmtu⟩ :=
        hdevices.serves id r hr
    obtain ⟨-, lg', hlg', -, hgkind⟩ := hdevices.uplink gw hgw
    cases hlg.symm.trans hlg'
    refine ⟨hid, hmanagers, ⟨br, hbr, hname, hfirst, lb, ?_, hbkind, hbrest⟩, vt, hvt, hvname, hvni,
      hvmac, lv, gw, lg, ?_, hvkind, hup, hip, haddr, hroute.trans hgw, ?_, hmtu⟩
    · apply link_closeNetns_of_kind hlb
      simp [Link.Single, hbkind]
    · apply link_closeNetns_of_kind hlv
      simp [Link.Single, hvkind]
    · exact link_closeNetns_of_kind hlg hgkind path
  · intro id hid hnone
    obtain ⟨hb, hv⟩ := hdevices.absent id hid hnone
    constructor
    · rw [link_closeNetns, hb]
      rfl
    · rw [link_closeNetns, hv]
      rfl

/-- A namespace that goes takes the interfaces to its pod with it, and nothing else. -/
theorem Wiring.closeNetns (hwiring : Wiring cfg.hashes tenants root leafMask nodeName settled nm k)
    (path : String) :
  Wiring cfg.hashes tenants root leafMask nodeName settled nm (closeNetns k path)
  := by
  have hlookup : ∀ {path' ns}, (Node.closeNetns k path).netns.lookup path' = some ns →
      path' ≠ path ∧ k.netns.lookup path' = some ns := by
    intro path' ns hns
    by_cases heq : path' = path
    · rw [heq] at hns
      cases (AList.lookup_erase path k.netns).symm.trans hns
    · exact ⟨heq, (AList.lookup_erase_ne heq).symm.trans hns⟩
  refine ⟨hwiring.ledger, hwiring.devices.closeNetns path, hwiring.pods.keys, ?_, ?_, ?_, ?_⟩
  · intro id key ci q hlists ns hns
    obtain ⟨hne, hns⟩ := hlookup hns
    obtain ⟨lb, hlb, l, suffix, lh, hl, hkind, hlh, hlhkind, hup, hmaster⟩ :=
      hwiring.pods.wired hlists ns hns
    obtain ⟨r, hr, -⟩ := hlists
    obtain ⟨-, ⟨br, hbr, hname, -, lb', hlb', hbkind, -⟩, -⟩ := (hwiring.devices.serves id r hr).2
    rw [hname] at hlb'
    cases hlb.symm.trans hlb'
    have hends : endsIn path lh = false := by
      rw [endsIn, hlhkind]
      exact decide_eq_false hne
    have hlh' : (Node.closeNetns k path).host.link (vethName suffix) = some lh := by
      rw [link_closeNetns]
      exact Option.filter_eq_some_iff.mpr ⟨hlh, by rw [hends]; rfl⟩
    refine ⟨lb, link_closeNetns_of_kind hlb (by simp [Link.Single, hbkind]) path, l, suffix, lh, hl,
      hkind, hlh', hlhkind, hup, ?_⟩
    exact Option.bind_eq_some_iff.mpr ⟨lh, hlh', hmaster⟩
  · intro id key ci q id' key' ci' q' hlists hlists' hnetns hopen
    obtain ⟨ns, hns⟩ := Option.isSome_iff_exists.mp hopen
    apply hwiring.pods.apart hlists hlists' hnetns
    rw [(hlookup hns).2]
    rfl
  · intro id key ci q hlists ns hns
    exact hwiring.pods.alone hlists ns (hlookup hns).2
  · intro id key ci q hlists hsettled ns hns
    exact hwiring.pods.addressed hlists hsettled ns (hlookup hns).2

end

/-! ### Runs -/

/-- An action without faults. -/
def calmStep (cfg : Config) (n : Node) (a : Action) : Answer × Node :=
  step cfg n (a, [])

/-- What is expected of the requests to a node.  Devices are made for the given tenants.  The key of
a pod can be split again, and its namespace, if it has not the interface already, has neither a
default route nor an address of the root network.  A namespace that is made is that of no pod that
is listed. -/
def Action.Usual (tenants : Set String) (root : IPNet) (n : Node) : Action → Prop
  | .ensureTenant id _ => id ∈ tenants
  | .ensure _ args _ => (podKey args.namespaceName args.podName).toList.head? ≠ some '/' ∧
    ∀ ns, n.kernel.netns.lookup args.netNS = some ns → ns.link args.ifName = none → Vacant root ns
  | .openNetns path => ∀ id key ci q, Lists n.nm id key ci q → ci.netns ≠ path
  | _ => True

section

variable {cfg : Config} {tenants : Set String} {root : IPNet} {ones : ℕ} {leafMask : ℤ}
  {nodeName : String} {n : Node}

/-- A command without faults, as an action of the node. -/
theorem perform_of_runs {α : Type} {x : Kernel.Command α} {result : α} {k' : State}
    (f : α → Answer × NetworkManager) (hruns : Runs x n.kernel result k') :
  n.perform [] (x >>= fun a => pure (f a)) = ((f result).1, ⟨(f result).2, k'⟩)
  := by
  rw [perform, run_bind_of_ok hruns]
  rfl

/-- Every action keeps the invariant. -/
theorem Wiring.step (hinj : tenants.InjOn (digits cfg.hashes)) (hroot : IsCIDR root ones 32)
    (haccepts : Accepts cfg root)
    (hwiring : Wiring cfg.hashes tenants root leafMask nodeName Everyone n.nm n.kernel) {a : Action}
    (ha : a.Usual tenants root n) :
  Wiring cfg.hashes tenants root leafMask nodeName Everyone (calmStep cfg n a).2.nm
    (calmStep cfg n a).2.kernel
  := by
  cases a with
  | ensureTenant id policy =>
    obtain ⟨result, nm', k', hruns, hwiring'⟩ := hwiring.ensureTenant hinj hroot haccepts ha policy
    rw [calmStep, Node.step, perform_of_runs (fun r => (.tenant r.1, r.2)) hruns]
    exact hwiring'
  | removeTenant id =>
    obtain ⟨result, nm', k', hruns, hwiring'⟩ := hwiring.removeTenant hinj hroot id
    rw [calmStep, Node.step, perform_of_runs (fun r => (.tenant r.1, r.2)) hruns]
    exact hwiring'
  | ensure id args choices =>
    obtain ⟨result, nm', k', hruns, hwiring'⟩ :=
      hwiring.actorEnsure hinj hroot haccepts ha.1 choices id ha.2
    rw [calmStep, Node.step, perform_of_runs (fun r => (.pod r.1, r.2)) hruns]
    exact hwiring'
  | remove id args =>
    rw [calmStep, Node.step, NetworkManager.removePod_self]
    exact hwiring
  | update id args =>
    obtain ⟨result, k', hruns, hwiring'⟩ := hwiring.actorUpdate hroot haccepts id args
    rw [calmStep, Node.step, perform_of_runs (fun r => (.updated r, n.nm)) hruns]
    exact hwiring'
  | openNetns path => exact hwiring.openNetns ha
  | closeNetns path => exact hwiring.closeNetns path

end

/-- A node whose manager is new, with a subnet manager for the root network, and without devices of
the tenants. -/
structure StartsClean (h : Hashes) (tenants : Set String) (root : IPNet) (leafMask : ℤ)
    (nodeName : String) (n : Node) : Prop where
  manager : ∃ tm, newTrieManager root leafMask = some tm ∧ n.nm = newNetworkManager nodeName tm
  uplink : Uplink h n.kernel
  consistent : n.kernel.host.Consistent
  absent : ∀ id ∈ tenants, Absent h id n.kernel

section

variable {cfg : Config} {tenants : Set String} {root : IPNet} {ones : ℕ} {leafMask : ℤ}
  {nodeName : String} {n : Node} {actions : List Action}

/-- A new manager lists no pod, and no tenant has devices. -/
theorem StartsClean.wiring {h : Hashes} (hstarts : StartsClean h tenants root leafMask nodeName n)
    (hroot : IsCIDR root ones 32) (hones : ones ≤ 30) (hleaf : leafMask ≤ 30) :
  Wiring h tenants root leafMask nodeName Everyone n.nm n.kernel
  := by
  obtain ⟨⟨tm, hnew, hnm⟩, huplink, hconsistent, habsent⟩ := hstarts
  have hsized := newTrieManager_managedUpTo hroot hnew hones hleaf
  have hlists : ∀ {id key ci q}, ¬ Lists (newNetworkManager nodeName tm) id key ci q := by
    rintro id key ci q ⟨r, hr, -⟩
    cases hr
  rw [hnm]
  refine ⟨⟨⟨hsized.managed, rfl, ?_⟩, hsized, ?_⟩,
    ⟨huplink, hconsistent, ?_, fun id hid _ => habsent id hid⟩, ?_⟩
  · intro id r hr
    cases hr
  · intro id r hr
    cases hr
  · intro id r hr
    cases hr
  · exact ⟨fun hl => absurd hl hlists, fun hl => absurd hl hlists, fun hl => absurd hl hlists,
      fun hl => absurd hl hlists, fun hl => absurd hl hlists⟩

/-- Every run of usual requests keeps the invariant. -/
theorem StartsClean.after (hinj : tenants.InjOn (digits cfg.hashes)) (hroot : IsCIDR root ones 32)
    (hones : ones ≤ 30) (hleaf : leafMask ≤ 30) (haccepts : Accepts cfg root)
    (hstarts : StartsClean cfg.hashes tenants root leafMask nodeName n)
    (hmeets : Machine.Meets (calmStep cfg) (Action.Usual tenants root) n actions) :
  Wiring cfg.hashes tenants root leafMask nodeName Everyone
    (Machine.after (calmStep cfg) n actions).nm (Machine.after (calmStep cfg) n actions).kernel
  := by
  apply Machine.after_of_meets
    (P := fun n => Wiring cfg.hashes tenants root leafMask nodeName Everyone n.nm n.kernel)
    _ (hstarts.wiring hroot hones hleaf) hmeets
  intro n' a hwiring ha
  exact hwiring.step hinj hroot haccepts ha

/-- The namespace is as it was made. -/
def Pristine (n : Node) (path : String) : Prop :=
  (n.kernel.netns.lookup path).map (fun ns => (ns.links.entries, ns.route))
    = some (newNetns.links.entries, newNetns.route)

instance (n : Node) (path : String) : Decidable (Pristine n path) :=
  inferInstanceAs (Decidable (_ = some _))

/-- A namespace as it was made has neither a route nor an address. -/
theorem Pristine.vacant {n : Node} {path : String} (hpristine : Pristine n path) {ns : Kernel.Netns}
    (hns : n.kernel.netns.lookup path = some ns) :
  Vacant root ns
  := by
  rw [Pristine, hns, Option.map_some, Option.some.injEq, Prod.mk.injEq] at hpristine
  refine ⟨hpristine.2, ?_⟩
  intro name l hl
  rw [Namespace.link, AList.ext hpristine.1, newNetns, GoMap.lookup_insert_eq] at hl
  split at hl
  · cases hl
    simp
  · cases hl

/-- Two tenants, one of which the policy manager refuses, and a pod whose namespace is dropped. -/
def twoTenants : List Action :=
  [.openNetns "/run/netns/0", .ensureTenant "a" fun _ => true, .ensureTenant "b" fun _ => false,
    .ensure "a" ⟨"default", "web-0", "c0", "/run/netns/0", "eth0"⟩ fun _ => ⟨["0"], inOrder⟩,
    .update "a" ⟨"default", "web-0", "c0", "/run/netns/0", "eth0"⟩, .closeNetns "/run/netns/0"]

theorem slash28 :
  IsCIDR ⟨[10, 0, 0, 0], cidrMask 28 32⟩ 28 32
  := (isCIDR_mk (Or.inl rfl) (by decide) rfl).1

theorem plainConfig_accepts (root : IPNet) :
  Accepts plainConfig root
  := fun _ _ _ _ _ => trivial

theorem uplinkHost_startsClean {tm : TrieManager}
    (hnew : newTrieManager ⟨[10, 0, 0, 0], cidrMask 28 32⟩ 30 = some tm) :
  StartsClean plainConfig.hashes {"a", "b"} ⟨[10, 0, 0, 0], cidrMask 28 32⟩ 30 "node"
    ⟨newNetworkManager "node" tm, uplinkHost⟩
  where
  manager := ⟨tm, hnew, rfl⟩
  uplink := uplinkHost_uplink _
  consistent := by
    constructor
    · intro name name' l l' hl hl' _
      rw [(uplinkHost_link hl).1, (uplinkHost_link hl').1]
    · intro name name' l l' t hl hl' _ _
      rw [(uplinkHost_link hl).1, (uplinkHost_link hl').1]
  absent id _ := by
    constructor
    · apply Option.eq_none_iff_forall_ne_some.mpr
      intro l hl
      exact (foreign_eth0 _ id).1 (uplinkHost_link hl).1.symm
    · apply Option.eq_none_iff_forall_ne_some.mpr
      intro l hl
      exact (foreign_eth0 _ id).2.1 (uplinkHost_link hl).1.symm

/-- The pod is attached in a namespace as it was made. -/
theorem twoTenants_usual {tm : TrieManager} (root : IPNet)
    (hpristine : Pristine (Machine.after (calmStep plainConfig)
      ⟨newNetworkManager "node" tm, uplinkHost⟩ (twoTenants.take 3)) "/run/netns/0") :
  Machine.Meets (calmStep plainConfig) (Action.Usual {"a", "b"} root)
    ⟨newNetworkManager "node" tm, uplinkHost⟩ twoTenants
  := by
  refine ⟨?_, .inl rfl, .inr rfl, ⟨by decide, ?_⟩, trivial, trivial, trivial⟩
  · rintro id key ci q ⟨r, hr, -⟩
    cases hr
  · intro ns hns _
    exact hpristine.vacant hns

/-- After every run without faults, the devices of a tenant with a record are up and serve the
subnet of the record, a tenant without record has left no device, and no two tenants with records
have one VNI. -/
theorem after_serves (hinj : tenants.InjOn (digits cfg.hashes)) (hroot : IsCIDR root ones 32)
    (hones : ones ≤ 30) (hleaf : leafMask ≤ 30) (haccepts : Accepts cfg root)
    (hstarts : StartsClean cfg.hashes tenants root leafMask nodeName n)
    (hmeets : Machine.Meets (calmStep cfg) (Action.Usual tenants root) n actions) :
  (∀ id r, (Machine.after (calmStep cfg) n actions).nm.tenantRecords.lookup id = some r →
    Serves cfg.hashes nodeName id r.backend r.subnet
      (Machine.after (calmStep cfg) n actions).kernel) ∧
  (∀ id ∈ tenants, (Machine.after (calmStep cfg) n actions).nm.tenantRecords.lookup id = none →
    Absent cfg.hashes id (Machine.after (calmStep cfg) n actions).kernel) ∧
  ∀ id id', ((Machine.after (calmStep cfg) n actions).nm.tenantRecords.lookup id).isSome →
    ((Machine.after (calmStep cfg) n actions).nm.tenantRecords.lookup id').isSome →
    vni cfg.hashes id = vni cfg.hashes id' → id = id'
  := by
  have hwiring := hstarts.after hinj hroot hones hleaf haccepts hmeets
  refine ⟨?_, hwiring.devices.absent, ?_⟩
  · intro id r hr
    rw [← hwiring.ledger.agreeing.nodeName_eq]
    exact (hwiring.devices.serves id r hr).2
  · intro id id' hsome hsome' hvni
    obtain ⟨r, hr⟩ := Option.isSome_iff_exists.mp hsome
    obtain ⟨r', hr'⟩ := Option.isSome_iff_exists.mp hsome'
    exact hwiring.devices.vni_inj hinj hr hr' hvni

theorem after_serves_twoTenants :
  ∃ tm r, newTrieManager ⟨[10, 0, 0, 0], cidrMask 28 32⟩ 30 = some tm ∧
    (Machine.after (calmStep plainConfig) ⟨newNetworkManager "node" tm, uplinkHost⟩
      twoTenants).nm.tenantRecords.lookup "a" = some r ∧
    (r.ipam.getAllocation "default/web-0").isSome ∧
    Serves plainConfig.hashes "node" "a" r.backend r.subnet
      (Machine.after (calmStep plainConfig) ⟨newNetworkManager "node" tm, uplinkHost⟩
        twoTenants).kernel ∧
    Absent plainConfig.hashes "b"
      (Machine.after (calmStep plainConfig) ⟨newNetworkManager "node" tm, uplinkHost⟩
        twoTenants).kernel
  := by
  have heval : ((newTrieManager ⟨[10, 0, 0, 0], cidrMask 28 32⟩ 30).bind fun tm =>
      let after count := Machine.after (calmStep plainConfig)
        ⟨newNetworkManager "node" tm, uplinkHost⟩ (twoTenants.take count)
      if Pristine (after 3) "/run/netns/0" ∧ ((after 6).nm.tenantRecords.lookup "b").isNone then
        ((after 6).nm.tenantRecords.lookup "a").filter fun r =>
          (r.ipam.getAllocation "default/web-0").isSome
      else none).isSome = true := by
    decide +kernel
  obtain ⟨r, heval⟩ := Option.isSome_iff_exists.mp heval
  obtain ⟨tm, hnew, heval⟩ := Option.bind_eq_some_iff.mp heval
  obtain ⟨⟨hpristine, hnone⟩, heval⟩ := Option.ite_none_right_eq_some.mp heval
  obtain ⟨hr, hpod⟩ := Option.filter_eq_some_iff.mp heval
  have hserves := after_serves plainConfig_injOn slash28 (by decide) (by decide)
    (plainConfig_accepts _) (uplinkHost_startsClean hnew) (twoTenants_usual _ hpristine)
  exact ⟨tm, r, hnew, hr, hpod, hserves.1 "a" r hr,
    hserves.2.1 "b" (.inr rfl) (Option.isNone_iff_eq_none.mp hnone)⟩

/-- Two pods of a tenant whose subnet has room for one: it is expanded for the second, and the first
is moved. -/
def grown : List Action :=
  [.openNetns "/run/netns/0", .openNetns "/run/netns/1", .ensureTenant "a" fun _ => true,
    .ensure "a" ⟨"default", "web-0", "c0", "/run/netns/0", "eth0"⟩ fun _ => ⟨["0"], inOrder⟩,
    .ensure "a" ⟨"default", "web-1", "c1", "/run/netns/1", "eth0"⟩ fun _ => ⟨["0", "1"], inOrder⟩]

/-- Both pods are attached in namespaces as they were made. -/
theorem grown_usual {tm : TrieManager} (root : IPNet)
    (hfirst : Pristine (Machine.after (calmStep plainConfig)
      ⟨newNetworkManager "node" tm, uplinkHost⟩ (grown.take 3)) "/run/netns/0")
    (hsecond : Pristine (Machine.after (calmStep plainConfig)
      ⟨newNetworkManager "node" tm, uplinkHost⟩ (grown.take 4)) "/run/netns/1") :
  Machine.Meets (calmStep plainConfig) (Action.Usual {"a", "b"} root)
    ⟨newNetworkManager "node" tm, uplinkHost⟩ grown
  := by
  refine ⟨?_, ?_, .inl rfl, ⟨by decide, ?_⟩, ⟨by decide, ?_⟩, trivial⟩
  · rintro id key ci q ⟨r, hr, -⟩
    cases hr
  · rintro id key ci q ⟨r, hr, -⟩
    cases hr
  · intro ns hns _
    exact hfirst.vacant hns
  · intro ns hns _
    exact hsecond.vacant hns

/-- After every run without faults, a pod that is listed and whose namespace is there has its
address with the mask of the tenant's subnet and a default route to the gateway; its interface is
attached to the bridge of the tenant, which is that of no other tenant. -/
theorem after_attached (hinj : tenants.InjOn (digits cfg.hashes)) (hroot : IsCIDR root ones 32)
    (hones : ones ≤ 30) (hleaf : leafMask ≤ 30) (haccepts : Accepts cfg root)
    (hstarts : StartsClean cfg.hashes tenants root leafMask nodeName n)
    (hmeets : Machine.Meets (calmStep cfg) (Action.Usual tenants root) n actions) {id key : String}
    {ci : Ipam.ContainerNetInfo} {q : IPNet}
    (hlists : Lists (Machine.after (calmStep cfg) n actions).nm id key ci q) {ns : Kernel.Netns}
    (hns : (Machine.after (calmStep cfg) n actions).kernel.netns.lookup ci.netns = some ns) :
  (∃ gw, firstIP q = .ok gw ∧ Configured ns ci.ifname ⟨ci.ip, q.mask⟩ gw.ip) ∧
  ∃ lb, (Machine.after (calmStep cfg) n actions).kernel.host.link (bridgeName cfg.hashes id)
    = some lb ∧
    Plugged (Machine.after (calmStep cfg) n actions).kernel ci.netns ns ci.ifname lb.index ∧
    ∀ id' ∈ tenants, ∀ lb', (Machine.after (calmStep cfg) n actions).kernel.host.link
      (bridgeName cfg.hashes id') = some lb' → lb'.index = lb.index → id' = id
  := by
  have hwiring := hstarts.after hinj hroot hones hleaf haccepts hmeets
  obtain ⟨lb, hlb, hplugged⟩ := hwiring.pods.wired hlists ns hns
  refine ⟨hwiring.pods.addressed hlists trivial ns hns, lb, hlb, hplugged, ?_⟩
  intro id' hid' lb' hlb' hindex
  obtain ⟨r, hr, -⟩ := hlists
  apply hinj hid' (hwiring.devices.serves id r hr).1
  exact bridgeName_inj.mp (hwiring.devices.consistent.index _ _ _ _ hlb' hlb hindex)

theorem after_attached_grown :
  ∃ tm r ci ns, newTrieManager ⟨[10, 0, 0, 0], cidrMask 28 32⟩ 30 = some tm ∧
    (Machine.after (calmStep plainConfig) ⟨newNetworkManager "node" tm, uplinkHost⟩
      grown).nm.tenantRecords.lookup "a" = some r ∧
    r.ipam.getAllocation "default/web-0" = some ci ∧ r.subnet.mask = cidrMask 29 32 ∧
    (Machine.after (calmStep plainConfig) ⟨newNetworkManager "node" tm, uplinkHost⟩
      grown).kernel.netns.lookup ci.netns = some ns ∧
    ∃ gw, firstIP r.subnet = .ok gw ∧ Configured ns ci.ifname ⟨ci.ip, r.subnet.mask⟩ gw.ip
  := by
  have heval : ((newTrieManager ⟨[10, 0, 0, 0], cidrMask 28 32⟩ 30).bind fun tm =>
      let after count := Machine.after (calmStep plainConfig)
        ⟨newNetworkManager "node" tm, uplinkHost⟩ (grown.take count)
      if Pristine (after 3) "/run/netns/0" ∧ Pristine (after 4) "/run/netns/1" then
        ((after 5).nm.tenantRecords.lookup "a").bind fun r =>
          (r.ipam.getAllocation "default/web-0").bind fun ci =>
            if r.subnet.mask = cidrMask 29 32 then
              ((after 5).kernel.netns.lookup ci.netns).map fun ns => (r, ci, ns)
            else none
      else none).isSome = true := by
    decide +kernel
  obtain ⟨⟨r, ci, ns⟩, heval⟩ := Option.isSome_iff_exists.mp heval
  obtain ⟨tm, hnew, heval⟩ := Option.bind_eq_some_iff.mp heval
  obtain ⟨⟨hfirst, hsecond⟩, heval⟩ := Option.ite_none_right_eq_some.mp heval
  obtain ⟨r', hr, heval⟩ := Option.bind_eq_some_iff.mp heval
  obtain ⟨ci', hci, heval⟩ := Option.bind_eq_some_iff.mp heval
  obtain ⟨hmask, heval⟩ := Option.ite_none_right_eq_some.mp heval
  obtain ⟨ns', hns, heq⟩ := Option.map_eq_some_iff.mp heval
  cases heq
  have hattached := after_attached plainConfig_injOn slash28 (by decide) (by decide)
    (plainConfig_accepts _) (uplinkHost_startsClean hnew) (grown_usual _ hfirst hsecond)
    ⟨r, hr, hci, rfl⟩ hns
  exact ⟨tm, r, ci, ns, hnew, hr, hci, hmask, hns, hattached.1⟩

end

end Node

end Nmanager
