import Misokube.Device.Calm
import Misokube.Ipam.Invariant
import Misokube.Nmanager.Agreement
import Misokube.Nmanager.NodeRuns

/-!
# Operations of a node without faults

What the operations of a node leave in the kernel when no call meets a fault.  The devices of a
tenant serve its subnet or are gone, and a pod that is attached or moved has its address and its
route.  The kernel may still refuse what it is asked for; a pod that cannot be attached then may
leave an interface behind.
-/

namespace Nmanager

open Net Device Trie Links Command

namespace Node

open Device.Kernel (State System Config Scope Changes Footprint Runs Fails Uplink Absent Serves
  Configured Plugged nothing vethFootprint tenantFootprint netlink must wrap attempt)

variable {cfg : Config} {k k' : State} {ns : Kernel.Netns} {l : Link IPNet} {path name : String}

/-! ### Moving a pod -/

/-- The answers that say that something is gone are ignored. -/
theorem isNetlinkNotFound_addrNotAvailable :
  isNetlinkNotFound .addrNotAvailable = true
  := by decide +kernel

/-- Deleting the default routes that are listed leaves the links. -/
theorem runs_delRoutes (cfg : Config) (path name : String) (k : State) (ns : Kernel.Netns) :
  ∃ ns', Runs (delRoutes cfg path name
      (.ok ((ns.route.filter fun r => r.1 = name).toList.map Prod.snd))) (k.set (.pod path) ns) ()
      (k.set (.pod path) ns') ∧
    ns'.links = ns.links
  := by
  rw [delRoutes]
  by_cases hdst : cfg.defaultDst = none
  · rw [if_pos hdst]
    cases hroute : ns.route.filter fun r => r.1 = name with
    | none => exact ⟨ns, rfl, rfl⟩
    | some r =>
      obtain ⟨hr, hname⟩ := Option.filter_eq_some_iff.mp hroute
      have hdel : cfg.netlink.routeDel name r.2 ns = .ok ((), { ns with route := none }) := by
        apply cfg.lawful.routeDel_of_route
        rw [hr, ← of_decide_eq_true hname]
      exact ⟨{ ns with route := none }, Runs.bind (Runs.bind (Runs.netlink_set hdel) rfl) rfl, rfl⟩
  · rw [if_neg hdst]
    exact ⟨ns, rfl, rfl⟩

/-- A default route to a gateway that can be reached is set, and the links stay. -/
theorem runs_replaceDefaultRoute (cfg : Config) (path : String) (k : State) {gateway : IP}
    (hl : ns.link name = some l)
    (hreaches : ns.Reaches Kernel.IsHost (fun a gateway => a.ip = gateway) name gateway) :
  ∃ ns', Runs (replaceDefaultRoute cfg path name gateway) (k.set (.pod path) ns) ()
      (k.set (.pod path) ns') ∧
    ns'.links = ns.links ∧ ns'.route = some (name, gateway)
  := by
  have hlist : routeList name ns
      = .ok ((ns.route.filter fun r => r.1 = name).toList.map Prod.snd, ns) := by
    rw [routeList, hl]
  obtain ⟨ns₁, hdel, hlinks⟩ := runs_delRoutes cfg path name k ns
  have hreaches₁ : ns₁.Reaches Kernel.IsHost (fun a gateway => a.ip = gateway) name gateway := by
    rw [Namespace.Reaches, Namespace.link, hlinks]
    simp only [Namespace.link, hlinks]
    exact hreaches
  obtain ⟨ns₂, hreplace⟩ := cfg.lawful.routeReplace_of_reaches hreaches₁
  refine ⟨ns₂, ?_, ?_⟩
  · apply Runs.bind (Runs.netlink_set hlist)
    exact Runs.bind hdel (Runs.must_set hreplace)
  · rw [cfg.lawful.routeReplace_ok hreplace]
    exact ⟨hlinks, rfl⟩

/-- A link without addresses gets an MTU, an address and is set up. -/
theorem setLink_of_veth (cfg : Config) {podIPNet : IPNet} {netns peer : String}
    (hl : ns.link name = some l) (hkind : l.kind = .veth netns peer) (hnil : l.addrs = [])
    (haccepts : cfg.netlink.acceptsAddr podIPNet) :
  ∃ ns₁ ns₂ ns₃, cfg.netlink.linkSetMTU name 1500 ns = .ok ((), ns₁) ∧
    cfg.netlink.addrReplace name podIPNet ns₁ = .ok ((), ns₂) ∧
    cfg.netlink.linkSetUp name ns₂ = .ok ((), ns₃) ∧ Adjusts name ns ns₃ ∧
    ns₃.link name = some { l with mtu := 1500, addrs := [podIPNet], up := true }
  := by
  obtain ⟨ns₁, hmtu⟩ := cfg.lawful.linkSetMTU_of_veth hl hkind
    (show (68 : ℤ) ≤ 1500 by norm_num) (by norm_num)
  obtain ⟨_, hl', hns₁⟩ := cfg.lawful.linkSetMTU_ok hmtu
  cases hl.symm.trans hl'
  have hl₁ : ns₁.link name = some { l with mtu := 1500 } := by
    rw [hns₁, Namespace.link_put_self]
  obtain ⟨ns₂, haddr⟩ := cfg.lawful.addrReplace_of_link hl₁ haccepts
  obtain ⟨_, addrs, hl₁', hgains, hns₂⟩ := cfg.lawful.addrReplace_ok haddr
  cases hl₁.symm.trans hl₁'
  have hl₂ : ns₂.link name = some { l with mtu := 1500, addrs := [podIPNet] } := by
    rw [hns₂, Namespace.link_put_self, hgains.2 hnil]
  obtain ⟨ns₃, hup⟩ := cfg.lawful.linkSetUp_of_link hl₂
  obtain ⟨_, hl₂', hns₃⟩ := cfg.lawful.linkSetUp_ok hup
  cases hl₂.symm.trans hl₂'
  refine ⟨ns₁, ns₂, ns₃, hmtu, haddr, hup, ?_, ?_⟩
  · exact (cfg.lawful.linkSetMTU_adjusts hmtu).trans
      ((cfg.lawful.addrReplace_adjusts haddr).trans (cfg.lawful.linkSetUp_adjusts hup))
  · rw [hns₃, Namespace.link_put_self]

/-- Moving the interface of a pod leaves it its address and the route to the gateway, if no other
link of the namespace has the address of the gateway. -/
theorem runs_updateLink (cfg : Config) {podIPNet : IPNet} {gateway : IP} {netns peer : String}
    (hns : k.netns.lookup path = some ns) (hl : ns.link name = some l)
    (hkind : l.kind = .veth netns peer) (haccepts : cfg.netlink.acceptsAddr podIPNet)
    (hhost : Kernel.IsHost podIPNet gateway) (hne : podIPNet.ip ≠ gateway)
    (hfree : ∀ n l, n ≠ name → ns.link n = some l → ∀ a ∈ l.addrs, a.ip ≠ gateway) :
  ∃ ns' l', Runs (updateLink cfg path name podIPNet gateway) k () (k.set (.pod path) ns') ∧
    Configured ns' name podIPNet gateway ∧ ns'.link name = some l' ∧ l'.kind = l.kind ∧
    ∀ n ≠ name, ns'.link n = ns.link n
  := by
  have hopen : Runs (must "open netns" (.pod path) fun ns => .ok ((), ns)) k ()
      (k.set (.pod path) ns) := Runs.must (Kernel.perform_of_get hns rfl)
  obtain ⟨ns₁, hflush, hadjusts, hl₁⟩ := Kernel.runs_flushAddrs cfg (.pod path) k
    isNetlinkNotFound_addrNotAvailable hl
  obtain ⟨ns₂, ns₃, ns₄, hmtu, haddr, hup, hadjusts', hl₄⟩ :=
    setLink_of_veth cfg hl₁ hkind rfl haccepts
  have hothers : ∀ n ≠ name, ns₄.link n = ns.link n := (hadjusts.trans hadjusts').others
  have hreaches : ns₄.Reaches Kernel.IsHost (fun a gateway => a.ip = gateway) name gateway := by
    refine ⟨⟨_, hl₄, rfl, podIPNet, List.mem_singleton_self _, hhost⟩, ?_⟩
    intro n l' hl'
    by_cases hn : n = name
    · subst hn
      cases hl₄.symm.trans hl'
      simpa using hne
    · rw [hothers n hn] at hl'
      exact hfree n l' hn hl'
  obtain ⟨ns₅, hroute, hlinks, hns₅⟩ := runs_replaceDefaultRoute cfg path k hl₄ hreaches
  have hlink : ∀ n, ns₅.link n = ns₄.link n :=
    fun n => by rw [Namespace.link, hlinks, Namespace.link]
  have hl₅ := (hlink name).trans hl₄
  refine ⟨ns₅, _, ?_, ⟨_, hl₅, rfl, rfl, rfl, hns₅⟩, hl₅, rfl, ?_⟩
  · apply Runs.bind hopen
    apply Runs.bind (Runs.must_set (Netlink.linkByName_of_link hl))
    apply Runs.bind (Runs.wrap hflush _)
    apply Runs.bind (Runs.must_set hmtu)
    apply Runs.bind (Runs.must_set haddr)
    apply Runs.bind (Runs.must_set hup)
    exact hroute
  · intro n hn
    exact (hlink n).trans (hothers n hn)

/-! ### Tenants -/

section

variable {nm : NetworkManager} {id : String}

variable {root q : IPNet}

/-- The network has an address for the gateway and one for a pod, and is in the root network. -/
def Roomy (root q : IPNet) : Prop :=
  ∃ n ≤ 30, IsCIDR q n 32 ∧ ∀ a, Covers q a → Covers root a

/-- The kernel accepts the addresses of the root network, with any prefix length. -/
def Accepts (cfg : Config) (root : IPNet) : Prop :=
  ∀ ip, ∀ n ≤ 32, ip.length = 4 → Covers root (toNat ip) →
    cfg.netlink.acceptsAddr ⟨ip, cidrMask n 32⟩

/-- The gateway is an address of the network, and a host in it. -/
theorem Roomy.firstIP (hroomy : Roomy root q) :
  ∃ gw, Device.firstIP q = .ok gw ∧ gw.mask = q.mask ∧ gw.ip.length = 4 ∧
    Covers q (toNat gw.ip) ∧ toNat gw.ip = base q + 1
  := by
  obtain ⟨n, hn, hcidr, -⟩ := hroomy
  obtain ⟨ip, hfirst, hlength, hnat⟩ := firstIP_eq hcidr (by omega)
  have hpos : 2 ^ 1 ≤ 2 ^ (32 - n) := Nat.pow_le_pow_right (by decide) (by omega)
  refine ⟨_, hfirst, rfl, hlength, ?_, hnat⟩
  rw [hnat, Covers, hcidr.size]
  omega

/-- The addresses of a pod in the network are accepted. -/
theorem Accepts.pod (haccepts : Accepts cfg root) (hroomy : Roomy root q) {ip : IP}
    (hlength : ip.length = 4) (hcovers : Covers q (toNat ip)) :
  cfg.netlink.acceptsAddr ⟨ip, q.mask⟩
  := by
  obtain ⟨n, hn, hcidr, hroot⟩ := hroomy
  rw [hcidr.mask_eq]
  exact haccepts ip n (by omega) hlength (hroot _ hcovers)

/-- The gateway of a network with room is accepted. -/
theorem Accepts.gateway (haccepts : Accepts cfg root) (hroomy : Roomy root q) {gw : IPNet}
    (hgw : firstIP q = .ok gw) :
  cfg.netlink.acceptsAddr gw
  := by
  obtain ⟨gw', hgw', hmask, hlength, hcovers, -⟩ := hroomy.firstIP
  cases hgw.symm.trans hgw'
  have hgateway := haccepts.pod hroomy hlength hcovers
  rw [← hmask] at hgateway
  exact hgateway

/-- The address of a VTEP is accepted. -/
theorem Accepts.vtep (haccepts : Accepts cfg root) (hroomy : Roomy root q) :
  cfg.netlink.acceptsAddr (Kernel.vtepAddr q)
  := by
  obtain ⟨n, -, hcidr, hroot⟩ := hroomy
  obtain ⟨hlength, hnat⟩ := hostIP_eq hcidr
  apply haccepts _ 32 le_rfl hlength
  rw [hnat]
  exact hroot _ (covers_base q)

/-- A network with room has an IPAM, which lists no pod. -/
theorem Roomy.newBitmapIPAM (hroomy : Roomy root q) :
  ∃ ipm, Ipam.newBitmapIPAM (some q) = .ok ipm ∧ ipm.ips = ∅
  := by
  obtain ⟨n, hn, hcidr, -⟩ := hroomy
  obtain ⟨ipm, hipm, -, hips, -⟩ := Ipam.newBitmapIPAM_sound hcidr hn
  exact ⟨ipm, hipm, hips⟩

theorem tenantRecords_commit (nm : NetworkManager) (id : String) (r : TenantRecord) :
  (commit nm id r).tenantRecords = nm.tenantRecords.insert id r
  := by
  rw [commit]
  split
  · rfl
  · rfl

/-- The tenant stays without record and devices, or gets a record with devices that serve its subnet
and without pods. -/
def Ensured (h : Hashes) (nm nm' : NetworkManager) (id : String) (k' : State) : Prop :=
  (nm'.tenantRecords = nm.tenantRecords ∧ Absent h id k') ∨
    ∃ r, nm'.tenantRecords = nm.tenantRecords.insert id r ∧ r.ipam.ips = ∅ ∧
      Serves h nm.nodeName id r.backend r.subnet k'

/-- Without faults, the part of `EnsureTenant` after the devices are made stores the record, or
deletes the devices again if the policy manager refuses. -/
theorem runs_finishTenant (nm : NetworkManager) {be : Backend} (policy : PolicyCall → Bool)
    (hroomy : Roomy root q) (hserves : Serves cfg.hashes nm.nodeName id be q k)
    (hnone : nm.tenantRecords.lookup id = none) :
  ∃ k', Runs (finishTenant cfg policy nm id q be) k (finished policy nm id q be) k' ∧
    Changes (tenantFootprint cfg.hashes nm.nodeName id) k k' ∧
    Ensured cfg.hashes nm (finished policy nm id q be).2 id k'
  := by
  obtain ⟨ipm, hipm, hips⟩ := hroomy.newBitmapIPAM
  by_cases hpolicy : policy (nm.policyCall id be) = false
  · obtain ⟨k', hdelete, habsent⟩ := Kernel.runs_delete cfg hserves.present
    have hchanges : Changes (tenantFootprint cfg.hashes nm.nodeName id) k k' :=
      (Kernel.within_delete nm.nodeName hserves.present).of_run_ok hdelete
    simp only [finishTenant, finished, hpolicy, ↓reduceIte]
    exact ⟨k', Runs.bind hdelete rfl, hchanges, .inl ⟨rfl, habsent⟩⟩
  · simp only [finishTenant, finished, hpolicy, hipm, hnone, Option.isSome_none, Bool.false_eq_true,
      ↓reduceIte]
    exact ⟨k, rfl, Changes.refl _ _, .inr ⟨_, tenantRecords_commit _ _ _, hips, hserves⟩⟩

/-- What `EnsureTenant` does for a tenant without record that gets a subnet, when no call meets a
fault. -/
theorem runs_ensureTenant_new (policy : PolicyCall → Bool) (haccepts : Accepts cfg root)
    (huplink : Uplink cfg.hashes k) (hne : id ≠ "") (hnone : nm.tenantRecords.lookup id = none)
    (habsent : Absent cfg.hashes id k) {subnet : TrieManager}
    (halloc : nm.subnet.allocate id = (.ok q, subnet)) (hroomy : Roomy root q) :
  ∃ o result nm' k', Runs (ensureTenant cfg policy nm id) k (result, nm') k' ∧
    nm' = (nm.ensureTenant cfg.hashes o id).2 ∧
    Changes (tenantFootprint cfg.hashes nm.nodeName id) k k' ∧ Ensured cfg.hashes nm nm' id k'
  := by
  have hsome : ¬ (nm.tenantRecords.lookup id).isSome := by
    simp [hnone]
  have hown := habsent.owned nm.nodeName
  obtain ⟨gw, hfirst, -⟩ := hroomy.firstIP
  obtain ⟨be, k₁, hcreate, hserves⟩ | ⟨e, k₁, hfails, habsent'⟩ :=
    Kernel.create_cases nm.nodeName habsent huplink hfirst (haccepts.gateway hroomy hfirst)
      (haccepts.vtep hroomy)
  · obtain ⟨-, o, hsaid⟩ := Kernel.create_ok hown hcreate
    have hchanges : Kernel.Within (tenantFootprint cfg.hashes nm.nodeName id) ⟨k, []⟩ (final
        (Kernel.create cfg newBridgeVTEPBackend id q nm.nodeName) ⟨k, []⟩) :=
      Kernel.within_create newBridgeVTEPBackend q _
    obtain ⟨k', hfinish, hchanges', hensured⟩ :=
      runs_finishTenant { nm with subnet := subnet } policy hroomy hserves hnone
    refine ⟨outcomes o policy true, (finished policy { nm with subnet := subnet } id q be).1, _,
      k', ?_, ?_, (hchanges.of_run_ok hcreate).trans hchanges', hensured⟩
    · simp only [ensureTenant, hne, hsome, halloc, ↓reduceIte, Bool.false_eq_true]
      exact Runs.bind (Runs.attempt hcreate) hfinish
    · rw [ensureTenant_of_create policy hne hnone halloc hsaid]
  · -- the error is that of some outcomes, and not a panic
    obtain ⟨r, s', hattempt, hchanged, o, hcases⟩ :=
      Kernel.create_refines (s := ⟨k, []⟩) huplink hown q
    have herror := Kernel.attempt_of_error hfails (Kernel.create_noPanic huplink hown hfails)
    obtain ⟨rfl, rfl⟩ := EStateM.Result.ok.inj (hattempt.symm.trans herror)
    obtain ⟨be, ⟨⟩, -⟩ | ⟨_, e', ⟨⟩, hsaid⟩ := hcases
    refine ⟨outcomes o policy true, .error (.backendCreate (cause e)),
      NetworkManager.deallocateSubnet { nm with subnet := subnet } id, k₁, ?_, ?_, hchanged,
      .inl ⟨rfl, habsent'⟩⟩
    · simp only [ensureTenant, hne, hsome, halloc, ↓reduceIte, Bool.false_eq_true]
      exact Runs.bind herror rfl
    · simp only [NetworkManager.ensureTenant, hne, hnone, halloc, outcomes, hsaid,
        Option.isSome_none, Bool.false_eq_true, ↓reduceIte]

/-- What `EnsureTenant` does when no call meets a fault. -/
theorem runs_ensureTenant (policy : PolicyCall → Bool) (haccepts : Accepts cfg root)
    (huplink : Uplink cfg.hashes k)
    (habsent : nm.tenantRecords.lookup id = none → Absent cfg.hashes id k)
    (hroomy : ∀ q, (nm.subnet.allocate id).1 = .ok q → Roomy root q) :
  ∃ o result nm' k', Runs (ensureTenant cfg policy nm id) k (result, nm') k' ∧
    nm' = (nm.ensureTenant cfg.hashes o id).2 ∧
    Changes (tenantFootprint cfg.hashes nm.nodeName id) k k' ∧
    ((nm'.tenantRecords = nm.tenantRecords ∧ k' = k) ∨
      nm.tenantRecords.lookup id = none ∧ Ensured cfg.hashes nm nm' id k')
  := by
  by_cases hne : id = ""
  · use .success, .error .emptyTenantID, nm, k
    simp only [NetworkManager.ensureTenant, ensureTenant, hne, ↓reduceIte]
    exact ⟨rfl, trivial, Changes.refl _ _, .inl ⟨trivial, trivial⟩⟩
  by_cases hsome : (nm.tenantRecords.lookup id).isSome
  · use .success, .ok (), nm, k
    simp only [NetworkManager.ensureTenant, ensureTenant, hne, hsome, ↓reduceIte]
    exact ⟨rfl, trivial, Changes.refl _ _, .inl ⟨trivial, trivial⟩⟩
  have hnone : nm.tenantRecords.lookup id = none := by
    simpa using hsome
  cases halloc : nm.subnet.allocate id with
  | mk result subnet =>
    cases result with
    | error e =>
      use .success, .error (.allocateSubnet id e), { nm with subnet := subnet }, k
      simp only [NetworkManager.ensureTenant, ensureTenant, hne, hsome, halloc, ↓reduceIte,
        Bool.false_eq_true]
      exact ⟨rfl, trivial, Changes.refl _ _, .inl ⟨trivial, trivial⟩⟩
    | ok q =>
      obtain ⟨o, result, nm', k', hruns, hnm', hchanges, hensured⟩ := runs_ensureTenant_new policy
        haccepts huplink hne hnone (habsent hnone) halloc (hroomy q (by rw [halloc]))
      exact ⟨o, result, nm', k', hruns, hnm', hchanges, .inr ⟨hnone, hensured⟩⟩

/-- What `RemoveTenant` does when no call meets a fault: there is no record, or it is dropped and
the devices are deleted. -/
theorem runs_removeTenant
    (hpresent : ∀ r, nm.tenantRecords.lookup id = some r →
      Kernel.Present cfg.hashes id r.backend k) :
  ∃ result nm' k', Runs (removeTenant cfg nm id) k (result, nm') k' ∧
    nm' = (nm.removeTenant .success id).2 ∧
    Changes (tenantFootprint cfg.hashes nm.nodeName id) k k' ∧
    ((nm' = nm ∧ k' = k) ∨ (∃ r, nm.tenantRecords.lookup id = some r) ∧ Absent cfg.hashes id k' ∧
      nm'.tenantRecords.lookup id = none ∧
      ∀ id', id' ≠ id → nm'.tenantRecords.lookup id' = nm.tenantRecords.lookup id')
  := by
  by_cases hne : id = ""
  · use .error .emptyTenantID, nm, k
    simp only [NetworkManager.removeTenant, removeTenant, hne, ↓reduceIte]
    exact ⟨rfl, trivial, Changes.refl _ _, .inl ⟨trivial, trivial⟩⟩
  cases hrecord : nm.tenantRecords.lookup id with
  | none =>
    use .ok (), nm, k
    simp only [NetworkManager.removeTenant, removeTenant, hne, hrecord, ↓reduceIte]
    exact ⟨rfl, trivial, Changes.refl _ _, .inl ⟨trivial, trivial⟩⟩
  | some r =>
    obtain ⟨k', hdelete, habsent⟩ := Kernel.runs_delete cfg (hpresent r hrecord)
    have hchanges : Changes (tenantFootprint cfg.hashes nm.nodeName id) k k' :=
      (Kernel.within_delete nm.nodeName (hpresent r hrecord)).of_run_ok hdelete
    have hrun : Runs (removeTenant cfg nm id) k (.ok (), { nm.deallocateSubnet id with
        tenantActors := nm.tenantActors.erase id
        tenantRecords := (nm.put id { r with state := .closing }).tenantRecords.erase id }) k' := by
      simp only [removeTenant, hne, hrecord, ↓reduceIte]
      exact Runs.bind hdelete rfl
    obtain ⟨s', ⟨⟨result, hsaid, -⟩, -⟩, -⟩ :=
      removeTenant_refines (s := ⟨k, []⟩) nm.nodeName .success hpresent
    obtain ⟨heq, -⟩ := EStateM.Result.ok.inj (hrun.symm.trans hsaid)
    refine ⟨_, _, k', hrun, (Prod.mk.inj heq).2, hchanges,
      .inr ⟨⟨r, rfl⟩, habsent, AList.lookup_erase _ _, ?_⟩⟩
    intro id' hid
    exact (AList.lookup_erase_ne hid).trans (AList.lookup_insert_ne hid)

/-- What moving the tenant to a larger subnet does when no call meets a fault: the subnet manager
has none, or the devices serve it, and the pods are kept. -/
theorem runs_expandTenant (haccepts : Accepts cfg root) (huplink : Uplink cfg.hashes k)
    {r : TenantRecord} (hr : nm.tenantRecords.lookup id = some r)
    (hserves : Serves cfg.hashes nm.nodeName id r.backend r.subnet k)
    (hgrants : ∀ q, nm.Grants id q →
      Roomy root q ∧ ∃ ipam, r.ipam.expand (some q) = (.ok (), ipam) ∧
      ipam.ips = r.ipam.ips) :
  ∃ result k', Runs (expandTenant cfg nm id) k (result, (nm.expandTenant .success id).2) k' ∧
    Changes (moveFootprint cfg.hashes id) k k' ∧
    ((∃ e, result = .error e) ∧
        (nm.expandTenant .success id).2.tenantRecords = nm.tenantRecords ∧ k' = k ∨
      ∃ r', result = .ok r' ∧
        (nm.expandTenant .success id).2.tenantRecords = nm.tenantRecords.insert id r' ∧
        r'.ipam.ips = r.ipam.ips ∧ r'.state = r.state ∧
        Serves cfg.hashes nm.nodeName id r'.backend r'.subnet k')
  := by
  cases hexpand : nm.subnet.expand id with
  | mk result subnet =>
    cases result with
    | error e =>
      use .error (.subnetExpand e), k
      simp only [NetworkManager.expandTenant, expandTenant, hr, hexpand]
      exact ⟨rfl, Changes.refl _ _, .inl ⟨⟨_, rfl⟩, trivial, trivial⟩⟩
    | ok q =>
      obtain ⟨hroomy, ipam, hipam, hips⟩ := hgrants q (by rw [NetworkManager.Grants, hexpand])
      obtain ⟨gw, hfirst, -⟩ := hroomy.firstIP
      obtain ⟨be', k', hupdate, hserves', hsaid⟩ := Kernel.runs_update huplink hserves hfirst
        (haccepts.gateway hroomy hfirst) (haccepts.vtep hroomy)
      have hchanges : Changes (moveFootprint cfg.hashes id) k k' := by
        apply ((Kernel.along_update r.backend q _ _).of_run_ok hupdate).changes
        · obtain ⟨br, hbr, hname, -⟩ := hserves.bridge
          rw [hbr]
          rintro _ ⟨⟩
          exact Or.inl hname
        · obtain ⟨vt, hvt, hname, -⟩ := hserves.vtep
          rw [hvt]
          rintro _ ⟨⟩
          exact Or.inr hname
      have hmodel : nm.expandTenant .success id = (.ok ⟨q, be', ipam, r.state⟩,
          NetworkManager.put { nm with subnet := subnet } id ⟨q, be', ipam, r.state⟩) := by
        simp only [NetworkManager.expandTenant, hr, hexpand,
          hsaid Outcomes.success.toOutcomes rfl rfl, hipam]
        rfl
      rw [hmodel]
      refine ⟨.ok ⟨q, be', ipam, r.state⟩, k', ?_, hchanges,
        .inr ⟨⟨q, be', ipam, r.state⟩, rfl, rfl, hips, rfl, hserves'⟩⟩
      simp only [expandTenant, hr, hexpand]
      apply Runs.bind hupdate
      simp only [hipam]
      rfl

/-! ### Pods -/

/-- The pod is listed for the tenant, whose subnet is `q`. -/
def Lists (nm : NetworkManager) (id key : String) (ci : Ipam.ContainerNetInfo) (q : IPNet) : Prop :=
  ∃ r, nm.tenantRecords.lookup id = some r ∧ r.ipam.getAllocation key = some ci ∧ r.subnet = q

/-- The managers have the same tenants, with the same devices and subnets. -/
structure SameTenants (nm nm' : NetworkManager) : Prop where
  nodeName : nm'.nodeName = nm.nodeName
  records : ∀ id, (nm'.tenantRecords.lookup id).map (fun r => (r.backend, r.subnet))
    = (nm.tenantRecords.lookup id).map fun r => (r.backend, r.subnet)

theorem SameTenants.refl (nm : NetworkManager) :
  SameTenants nm nm
  := ⟨rfl, fun _ => rfl⟩

theorem SameTenants.trans {nm' nm'' : NetworkManager} (h : SameTenants nm nm')
    (h' : SameTenants nm' nm'') :
  SameTenants nm nm''
  := ⟨h'.nodeName.trans h.nodeName, fun id => (h'.records id).trans (h.records id)⟩

/-- Another IPAM leaves the subnet and the devices of the tenant. -/
theorem sameTenants_put {r : TenantRecord} (hr : nm.tenantRecords.lookup id = some r)
    (ipam : Ipam.BitmapIPAM) :
  SameTenants nm (nm.put id { r with ipam := ipam })
  := by
  refine ⟨rfl, fun id' => ?_⟩
  rw [NetworkManager.put, GoMap.lookup_insert_eq]
  split
  case isTrue hid => rw [hid, hr, Option.map_some, Option.map_some]
  case isFalse => rfl

/-- The pods that are listed after another IPAM is stored for a tenant. -/
theorem lists_put {r : TenantRecord} {ipam : Ipam.BitmapIPAM} {id' key : String}
    {ci : Ipam.ContainerNetInfo} {q : IPNet}
    (hlists : Lists (nm.put id { r with ipam := ipam }) id' key ci q) :
  (id' = id ∧ ipam.getAllocation key = some ci ∧ r.subnet = q) ∨ (id' ≠ id ∧ Lists nm id' key ci q)
  := by
  obtain ⟨r', hr', hci, hq⟩ := hlists
  rw [NetworkManager.put, GoMap.lookup_insert_eq] at hr'
  split at hr'
  case isTrue hid =>
    cases hr'
    exact .inl ⟨hid, hci, hq⟩
  case isFalse hid => exact .inr ⟨hid, r', hr', hci, hq⟩

/-- No pod is listed that was not. -/
def Fewer (nm nm' : NetworkManager) : Prop :=
  ∀ {id key ci q}, Lists nm' id key ci q → Lists nm id key ci q

/-- What attaching a pod may change: new interfaces of the host, and the namespace of the pod. -/
def podFootprint (args : PodAttachArgs) (k : State) : Footprint :=
  vethFootprint args.netNS {name | k.host.link name = none}

/-- The pod is attached: it is listed with its namespace and interface, which is new and set up. -/
structure Attached (h : Hashes) (nm nm' : NetworkManager) (id : String) (args : PodAttachArgs)
    (k k' : State) (ci : Ipam.ContainerNetInfo) (q : IPNet) (ns ns' : Kernel.Netns) : Prop where
  netns : ci.netns = args.netNS
  ifname : ci.ifname = args.ifName
  listed : Lists nm' id (podKey args.namespaceName args.podName) ci q
  lists : ∀ {id' key' ci' q'}, Lists nm' id' key' ci' q' → Lists nm id' key' ci' q' ∨
    id' = id ∧ key' = podKey args.namespaceName args.podName ∧ ci' = ci ∧ q' = q
  changes : Changes (podFootprint args k) k k'
  before : k.netns.lookup args.netNS = some ns
  free : ns.link args.ifName = none
  after : k'.netns.lookup args.netNS = some ns'
  others : ∀ n ≠ args.ifName, ns'.link n = ns.link n
  configured : ∃ gw, firstIP q = .ok gw ∧ Configured ns' args.ifName ⟨ci.ip, q.mask⟩ gw.ip
  plugged : ∃ lb, k.host.link (bridgeName h id) = some lb ∧
    Plugged k' args.netNS ns' args.ifName lb.index

/-- What an attempt to attach a pod leaves: nothing is changed; or an interface is left behind under
a name that was free, and an error returned; or the pod is attached.  In the first two cases no pod
is listed that was not. -/
inductive PodLeft (h : Hashes) (nm nm' : NetworkManager) (id : String) (args : PodAttachArgs)
    (k k' : State) : Except Error PodAttachment → Prop where
  | same {result : Except Error PodAttachment} (changes : Changes nothing k k')
    (fewer : Fewer nm nm') : PodLeft h nm nm' id args k k' result
  | halfway {ns : Kernel.Netns} (changes : Changes (podFootprint args k) k k')
    (fewer : Fewer nm nm') (before : k.netns.lookup args.netNS = some ns)
    (free : ns.link args.ifName = none) : PodLeft h nm nm' id args k k' (.error .setupVeth)
  | attached {ci : Ipam.ContainerNetInfo} {q : IPNet} {ns ns' : Kernel.Netns} {a : PodAttachment}
    (hattached : Attached h nm nm' id args k k' ci q ns ns') : PodLeft h nm nm' id args k k' (.ok a)

/-- The entry of a pod whose address was allocated. -/
theorem allocate_ips {s s' : Ipam.BitmapIPAM} {key containerID ifName netns : String}
    {ci : Ipam.ContainerNetInfo} (halloc : s.allocate key containerID ifName netns = (.ok ci, s')) :
  ci.netns = netns ∧ ci.ifname = ifName ∧ s'.ips = s.ips.insert key ci
  := by
  rw [Ipam.BitmapIPAM.allocate] at halloc
  split at halloc
  · cases halloc
  · split at halloc
    · cases halloc
    · cases halloc
      exact ⟨rfl, rfl, rfl⟩

/-- A pod that cannot be attached is no longer listed. -/
theorem fewer_free {args : PodAttachArgs} {r : TenantRecord} {ci : Ipam.ContainerNetInfo}
    {ipam : Ipam.BitmapIPAM} (hr : nm.tenantRecords.lookup id = some r) (hsound : Ipam.Sound r.ipam)
    (halloc : r.ipam.allocate (podKey args.namespaceName args.podName) args.containerID args.ifName
      args.netNS = (.ok ci, ipam)) :
  Fewer nm ((nm.put id { r with ipam := ipam }).put id { r with ipam := (ipam.free ci.ip).2 })
  := by
  intro id' key ci' q hlists
  obtain ⟨rfl, hci, hq⟩ | ⟨hne, hlists⟩ := lists_put hlists
  · rw [Ipam.BitmapIPAM.getAllocation, (hsound.free_allocate halloc).2 key] at hci
    split at hci
    · cases hci
    · exact ⟨r, hr, hci, hq⟩
  · obtain ⟨rfl, -⟩ | ⟨-, hlists⟩ := lists_put hlists
    · exact absurd rfl hne
    · exact hlists

/-- An attempt to attach a pod that gets an address. -/
theorem runs_ensurePod_allocated (suffixes : List String) {args : PodAttachArgs} {r : TenantRecord}
    {ci : Ipam.ContainerNetInfo} {ipam : Ipam.BitmapIPAM}
    (hr : nm.tenantRecords.lookup id = some r) (hready : r.state ≠ .closing)
    (hserves : Serves cfg.hashes nm.nodeName id r.backend r.subnet k) (hsound : Ipam.Sound r.ipam)
    (halloc : r.ipam.allocate (podKey args.namespaceName args.podName) args.containerID args.ifName
      args.netNS = (.ok ci, ipam))
    (hroute : ∀ ns, k.netns.lookup args.netNS = some ns → ns.link args.ifName = none →
      ns.route = none) :
  ∃ o result nm' k', Runs (ensurePod cfg suffixes nm id args) k (result, nm') k' ∧
    nm.ensurePod o id args = (result, nm') ∧ SameTenants nm nm' ∧
    PodLeft cfg.hashes nm nm' id args k k' result
  := by
  obtain ⟨br, hbr, hname, hfirst, lb, hlb, -⟩ := hserves.bridge
  obtain ⟨hnetns, hifname, hips⟩ := allocate_ips halloc
  obtain ⟨e, k', hfails, hleft⟩ | ⟨k', ns, ns', hruns, hchanges, hns, hfree, hns', hconfigured,
      hplugged, hothers⟩ :=
    Kernel.setupVeth_cases cfg suffixes ⟨ci.ip, r.subnet.mask⟩ br.ip.ip hlb hroute
  · have hattempt := Kernel.attempt_of_error hfails
      ((Kernel.noPanic_setupVeth _ _ _ _ _ _ _ _).error _ _ _ hfails)
    refine ⟨outcomes .done (fun _ => true) false, .error .setupVeth,
      (nm.put id { r with ipam := ipam }).put id { r with ipam := (ipam.free ci.ip).2 },
      k', ?_, ?_, ?_, ?_⟩
    · simp only [ensurePod, hr, hready, halloc, hbr, ↓reduceIte]
      exact Runs.bind hattempt rfl
    · simp only [NetworkManager.ensurePod, hr, hready, halloc, hbr, outcomes, Bool.false_eq_true,
        ↓reduceIte]
    · have hput : (nm.put id { r with ipam := ipam }).tenantRecords.lookup id
          = some { r with ipam := ipam } := AList.lookup_insert _
      exact (sameTenants_put hr ipam).trans (sameTenants_put hput (ipam.free ci.ip).2)
    · obtain hnothing | ⟨hchanges, ns, hns, hfree⟩ := hleft
      · exact .same hnothing (fewer_free hr hsound halloc)
      · exact .halfway hchanges (fewer_free hr hsound halloc) hns hfree
  · have hattached : Attached cfg.hashes nm (nm.put id { r with ipam := ipam }) id args k k' ci
        r.subnet ns ns' := by
      refine ⟨hnetns, hifname, ?_, ?_, hchanges, hns, hfree, hns', hothers,
        ⟨br.ip, hfirst, hconfigured⟩, lb, hname ▸ hlb, hplugged⟩
      · refine ⟨_, AList.lookup_insert _, ?_, rfl⟩
        rw [Ipam.BitmapIPAM.getAllocation, hips]
        apply AList.lookup_insert
      · intro id' key' ci' q' hlists
        obtain ⟨rfl, hci, hq⟩ | ⟨-, hlists⟩ := lists_put hlists
        · rw [Ipam.BitmapIPAM.getAllocation, hips, GoMap.lookup_insert_eq] at hci
          split at hci
          case isTrue hkey =>
            cases hci
            exact .inr ⟨rfl, hkey, rfl, hq.symm⟩
          case isFalse => exact .inl ⟨r, hr, hci, hq⟩
        · exact .inl hlists
    refine ⟨outcomes .done (fun _ => true) true,
      .ok ⟨⟨ci.ip, r.subnet.mask⟩, br.ip.ip, args.ifName⟩,
      nm.put id { r with ipam := ipam }, k', ?_, ?_, sameTenants_put hr _, .attached hattached⟩
    · simp only [ensurePod, hr, hready, halloc, hbr, ↓reduceIte]
      exact Runs.bind (Runs.attempt hruns) rfl
    · simp only [NetworkManager.ensurePod, hr, hready, halloc, hbr, outcomes, ↓reduceIte]

/-- What an attempt to attach a pod does when no call meets a fault. -/
theorem runs_ensurePod (cfg : Config) (id : String) (suffixes : List String) (args : PodAttachArgs)
    (hserves : ∀ r, nm.tenantRecords.lookup id = some r →
      Serves cfg.hashes nm.nodeName id r.backend r.subnet k)
    (hsound : ∀ r, nm.tenantRecords.lookup id = some r → Ipam.Sound r.ipam)
    (hroute : ∀ ns, k.netns.lookup args.netNS = some ns → ns.link args.ifName = none →
      ns.route = none) :
  ∃ o result nm' k', Runs (ensurePod cfg suffixes nm id args) k (result, nm') k' ∧
    nm.ensurePod o id args = (result, nm') ∧ SameTenants nm nm' ∧
    PodLeft cfg.hashes nm nm' id args k k' result
  := by
  cases hrecord : nm.tenantRecords.lookup id with
  | none =>
    refine ⟨.success, .error .tenantActorNotFound, nm, k, ?_, ?_, SameTenants.refl nm,
      .same (Changes.refl _ _) fun hlists => hlists⟩
    · simp only [ensurePod, hrecord]
      rfl
    · simp only [NetworkManager.ensurePod, hrecord]
  | some r =>
    by_cases hclosing : r.state = .closing
    · refine ⟨.success, .error .tenantClosing, nm, k, ?_, ?_, SameTenants.refl nm,
        .same (Changes.refl _ _) fun hlists => hlists⟩
      · simp only [ensurePod, hrecord, hclosing, ↓reduceIte]
        rfl
      · simp only [NetworkManager.ensurePod, hrecord, hclosing, ↓reduceIte]
    cases halloc : r.ipam.allocate (podKey args.namespaceName args.podName) args.containerID
        args.ifName args.netNS with
    | mk result ipam =>
      cases result with
      | error e =>
        obtain ⟨-, rfl⟩ := Ipam.allocate_error halloc
        refine ⟨.success, .error (.ipam e), nm.put id { r with ipam := r.ipam }, k, ?_, ?_,
          sameTenants_put hrecord _, .same (Changes.refl _ _) ?_⟩
        · simp only [ensurePod, hrecord, hclosing, halloc, ↓reduceIte]
          rfl
        · simp only [NetworkManager.ensurePod, hrecord, hclosing, halloc, ↓reduceIte]
        · intro id' key ci q hlists
          obtain ⟨rfl, hci, hq⟩ | ⟨-, hlists⟩ := lists_put hlists
          · exact ⟨r, hrecord, hci, hq⟩
          · exact hlists
      | ok ci =>
        exact runs_ensurePod_allocated suffixes hrecord hclosing (hserves r hrecord)
          (hsound r hrecord) halloc hroute

/-- A pod whose namespace is gone is left alone. -/
theorem runs_updatePod_closed (cfg : Config) {args : PodAttachArgs} {r : TenantRecord}
    {ci : Ipam.ContainerNetInfo} {br : Bridge} (hr : nm.tenantRecords.lookup id = some r)
    (hci : r.ipam.getAllocation (podKey args.namespaceName args.podName) = some ci)
    (hbr : r.backend.bridge = some br) (hclosed : k.netns.lookup ci.netns = none) :
  ∃ result, Runs (updatePod cfg nm id args) k result k
  := by
  have hopen : State.perform (.pod ci.netns) (fun ns => .ok ((), ns)) k
      = .error (.other "unknown network namespace") := by
    simp only [State.perform, State.get, hclosed]
  have hfails : Fails (updateLink cfg ci.netns ci.ifname ⟨ci.ip, r.subnet.mask⟩ br.ip.ip) k _ k :=
    Fails.bind (Fails.must hopen) _
  have hattempt := Kernel.attempt_of_error hfails
    ((noPanic_updateLink _ _ _ _ _).error _ _ _ hfails)
  simp only [updatePod, hr, hci, hbr]
  exact ⟨_, Runs.bind hattempt (Runs.pure _ _)⟩

/-- A pod that is attached is moved to the address of the gateway that is recorded. -/
theorem runs_updatePod_open (cfg : Config) {args : PodAttachArgs} {r : TenantRecord}
    {ci : Ipam.ContainerNetInfo} {br : Bridge} {netns peer : String}
    (hr : nm.tenantRecords.lookup id = some r)
    (hci : r.ipam.getAllocation (podKey args.namespaceName args.podName) = some ci)
    (hbr : r.backend.bridge = some br) (hns : k.netns.lookup ci.netns = some ns)
    (hl : ns.link ci.ifname = some l) (hkind : l.kind = .veth netns peer)
    (haccepts : cfg.netlink.acceptsAddr ⟨ci.ip, r.subnet.mask⟩)
    (hhost : Kernel.IsHost ⟨ci.ip, r.subnet.mask⟩ br.ip.ip) (hne : ci.ip ≠ br.ip.ip)
    (hfree : ∀ n l, n ≠ ci.ifname → ns.link n = some l → ∀ a ∈ l.addrs, a.ip ≠ br.ip.ip) :
  ∃ result ns' l', Runs (updatePod cfg nm id args) k result (k.set (.pod ci.netns) ns') ∧
    Configured ns' ci.ifname ⟨ci.ip, r.subnet.mask⟩ br.ip.ip ∧
    ns'.link ci.ifname = some l' ∧ l'.kind = l.kind ∧ ∀ n ≠ ci.ifname, ns'.link n = ns.link n
  := by
  obtain ⟨ns', l', hruns, hfacts⟩ := runs_updateLink cfg hns hl hkind haccepts hhost hne hfree
  simp only [updatePod, hr, hci, hbr]
  exact ⟨_, ns', l', Runs.bind (Runs.attempt hruns) (Runs.pure _ _), hfacts⟩

end

end Node

end Nmanager
