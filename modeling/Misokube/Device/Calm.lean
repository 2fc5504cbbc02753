import Misokube.Device.Refinement

/-!
# Device operations without faults

When no call meets a fault, the devices of a tenant are made as they should be, or none is left
(`create_cases`); devices that were left are taken over (`runs_create`); devices that serve a subnet
can be moved to another one (`runs_update`) and deleted (`runs_delete`); and the interface of a pod
is set up as it should be (`setupVeth_cases`), if setting it up succeeds.
-/

namespace Device

namespace Kernel

open Net Links Command

variable {β γ : Type} {k k' k₁ : State} {scope : Scope} {context name : String}
variable {ns ns' : Netns} {b : β}

/-! ### Runs without faults -/

/-- The command returns the value and leaves the kernel, no call meeting a fault. -/
def Runs (x : Command β) (k : State) (b : β) (k' : State) : Prop :=
  x.run ⟨k, []⟩ = .ok b ⟨k', []⟩

/-- Commands that run, one after the other. -/
theorem Runs.bind {x : Command β} {f : β → Command γ} {c : γ} (hx : Runs x k b k₁)
    (hf : Runs (f b) k₁ c k') :
  Runs (x >>= f) k c k'
  := (run_bind_of_ok hx f).trans hf

theorem Runs.pure (b : β) (k : State) :
  Runs (pure b) k b k
  := rfl

theorem Runs.wrap {x : Command β} (h : Runs x k b k') (context : String) :
  Runs (wrap context x) k b k'
  := wrap_ok.mpr h

theorem Runs.attempt {x : Command β} (h : Runs x k b k') :
  Runs (attempt x) k (.ok b) k'
  := attempt_of_ok h

theorem Runs.discard {x : Command β} (h : Runs x k b k') :
  Runs (discard x) k () k'
  := by
  rw [Runs] at h
  change ((fun _ => ()) <$> x : Command Unit).run ⟨k, []⟩ = _
  rw [EStateM.run_map, h]
  rfl

theorem Runs.call {op : State → Except Errno (β × State)} (h : op k = .ok (b, k')) :
  Runs (Faulty.call op) k (.ok b) k'
  := by
  change EStateM.Result.ok _ _ = _
  rw [Faulty.answer_calm, h]

theorem Runs.call_error {op : State → Except Errno (β × State)} {e : Errno} (h : op k = .error e) :
  Runs (Faulty.call op) k (.error e) k
  := by
  change EStateM.Result.ok _ _ = _
  rw [Faulty.answer_calm, h]

/-- A netlink call that the kernel accepts. -/
theorem Runs.netlink {op : Operation IPNet IP β} (h : State.perform scope op k = .ok (b, k')) :
  Runs (netlink scope op) k (.ok b) k'
  := Runs.call h

/-- A netlink call that the kernel refuses changes nothing. -/
theorem Runs.netlink_error {op : Operation IPNet IP β} {e : Errno}
    (h : State.perform scope op k = .error e) :
  Runs (Kernel.netlink scope op) k (.error e) k
  := Runs.call_error h

theorem Runs.must {op : Operation IPNet IP β} (h : State.perform scope op k = .ok (b, k')) :
  Runs (must context scope op) k b k'
  := Runs.bind (Runs.netlink h) rfl

theorem Runs.must_host {op : Operation IPNet IP β} (h : op k.host = .ok (b, ns)) :
  Runs (Kernel.must context .host op) k b { k with host := ns }
  := Runs.must (perform_host.mpr ⟨ns, h, rfl⟩)

theorem Runs.netlink_host {op : Operation IPNet IP β} (h : op k.host = .ok (b, ns)) :
  Runs (Kernel.netlink .host op) k (.ok b) { k with host := ns }
  := Runs.netlink (perform_host.mpr ⟨ns, h, rfl⟩)

theorem Runs.pureOr {r : Except Device.Error β} (h : r = .ok b) (k : State) :
  Runs (pureOr r) k b k
  := pureOr_ok.mpr ⟨h, rfl⟩

/-- The command fails and leaves the kernel, no call meeting a fault. -/
def Fails (x : Command β) (k : State) (e : Error) (k' : State) : Prop :=
  x.run ⟨k, []⟩ = .error e ⟨k', []⟩

theorem Fails.bind {x : Command β} {e : Error} (h : Fails x k e k') (f : β → Command γ) :
  Fails (x >>= f) k e k'
  := bind_error.mpr (.inl h)

theorem Runs.bind_fails {x : Command β} {f : β → Command γ} {e : Error} (hx : Runs x k b k₁)
    (hf : Fails (f b) k₁ e k') :
  Fails (x >>= f) k e k'
  := bind_error.mpr (.inr ⟨b, _, hx, hf⟩)

/-- A call whose error is returned fails if the kernel refuses it. -/
theorem Fails.must {op : Operation IPNet IP β} {err : Errno}
    (h : State.perform scope op k = .error err) :
  Fails (must context scope op) k (.wrap context (.errno err)) k
  := Runs.bind_fails (Runs.netlink_error h) rfl

theorem Fails.wrap {x : Command β} {e : Error} (h : Fails x k e k') (context : String) :
  Fails (wrap context x) k (if e = .panicked then e else .wrap context e) k'
  := run_tryCatch_of_error h _

/-- A command without faults returns or fails, within its footprint. -/
theorem Within.runs_or_fails {F : Footprint} {x : Command β}
    (h : Within F ⟨k, []⟩ (final x ⟨k, []⟩)) :
  (∃ b k', Runs x k b k' ∧ Changes F k k') ∨ ∃ e k', Fails x k e k' ∧ Changes F k k'
  := by
  rw [final] at h
  cases hrun : x.run ⟨k, []⟩ with
  | ok b s' =>
    rw [hrun] at h
    obtain ⟨k', faults⟩ := s'
    cases (h.spends.calm rfl : faults = [])
    exact .inl ⟨b, k', hrun, h.changes⟩
  | error e s' =>
    rw [hrun] at h
    obtain ⟨k', faults⟩ := s'
    cases (h.spends.calm rfl : faults = [])
    exact .inr ⟨e, k', hrun, h.changes⟩

/-! ### Namespaces -/

@[simp]
theorem get_set (k : State) (scope : Scope) (ns : Netns) :
  (k.set scope ns).get scope = some ns
  := by
  cases scope with
  | host => rfl
  | pod path => apply AList.lookup_insert

@[simp]
theorem set_set (k : State) (scope : Scope) (ns ns' : Netns) :
  (k.set scope ns).set scope ns' = k.set scope ns'
  := by
  cases scope with
  | host => rfl
  | pod path => rw [State.set, State.set, State.set, AList.insert_insert]

theorem perform_of_get {op : Operation IPNet IP β} (hns : k.get scope = some ns)
    (hop : op ns = .ok (b, ns')) :
  State.perform scope op k = .ok (b, k.set scope ns')
  := by
  simp only [State.perform, hns, hop]

theorem perform_error_of_get {op : Operation IPNet IP β} {e : Errno} (hns : k.get scope = some ns)
    (hop : op ns = .error e) :
  State.perform scope op k = .error e
  := by
  simp only [State.perform, hns, hop]

/-- A call in a namespace that was entered. -/
theorem Runs.must_set {op : Operation IPNet IP β} (hop : op ns = .ok (b, ns')) :
  Runs (Kernel.must context scope op) (k.set scope ns) b (k.set scope ns')
  := by
  have h := perform_of_get (get_set k scope ns) hop
  rw [set_set] at h
  exact Runs.must h

theorem Runs.netlink_set {op : Operation IPNet IP β} (hop : op ns = .ok (b, ns')) :
  Runs (Kernel.netlink scope op) (k.set scope ns) (.ok b) (k.set scope ns')
  := by
  have h := perform_of_get (get_set k scope ns) hop
  rw [set_set] at h
  exact Runs.netlink h

/-- A namespace that is stored again. -/
theorem changes_set_self {path : String} (hns : k.netns.lookup path = some ns) :
  Changes nothing k (k.set (.pod path) ns)
  where
  others _ _ := rfl
  kept _ _ l hl := ⟨l, hl, Link.Same.refl l⟩
  origin _ l hl := .inl ⟨l, hl, Link.Same.refl l⟩
  attached _ _ _ _ _ _ _ hmaster := hmaster
  route _ := rfl
  netns path' _ := by
    rw [State.set, GoMap.lookup_insert_eq]
    split
    case isTrue heq => rw [heq, hns]
    case isFalse => rfl
  consistent h := h

/-! ### Addresses that are flushed -/

variable {l : Link IPNet}

/-- The message of an address that is not there is one that is ignored. -/
theorem isAddrNotFound_addrNotAvailable :
  isAddrNotFound .addrNotAvailable = true
  := by decide +kernel

/-- An address that is not there is passed over. -/
theorem runs_delAddr_of_notMem (cfg : Config) {ignored : Errno → Bool} {a : IPNet}
    (hignored : ignored .addrNotAvailable = true) (hl : ns.link name = some l) (ha : a ∉ l.addrs) :
  Runs (delAddr cfg scope name ignored a) (k.set scope ns) () (k.set scope ns)
  := by
  have hdel : State.perform scope (cfg.netlink.addrDel name a) (k.set scope ns)
      = .error .addrNotAvailable :=
    perform_error_of_get (get_set k scope ns) (cfg.lawful.addrDel_of_notMem hl ha)
  apply Runs.bind (Runs.netlink_error hdel)
  dsimp only
  rw [if_pos hignored]
  rfl

/-- After the addresses are deleted one by one, those that are left are none of them. -/
theorem runs_forM_delAddr (cfg : Config) {ignored : Errno → Bool}
    (hignored : ignored .addrNotAvailable = true) (as : List IPNet) (hl : ns.link name = some l) :
  ∃ ns' l', Runs (as.forM (delAddr cfg scope name ignored)) (k.set scope ns) () (k.set scope ns') ∧
    Adjusts name ns ns' ∧ ns'.link name = some l' ∧
    l' = { l with addrs := l'.addrs } ∧ l'.addrs ⊆ l.addrs ∧ ∀ a ∈ as, a ∉ l'.addrs
  := by
  induction as generalizing ns l with
  | nil => exact ⟨ns, l, rfl, Adjusts.refl name ns, hl, rfl, List.Subset.refl _, by simp⟩
  | cons a as ih =>
    by_cases ha : a ∈ l.addrs
    · obtain ⟨ns₁, hdel⟩ := cfg.lawful.addrDel_of_mem hl ha
      obtain ⟨l₀, addrs, route, hl₀, ⟨hsubset, hlost⟩, -, hns₁⟩ := cfg.lawful.addrDel_ok hdel
      cases hl.symm.trans hl₀
      have hl₁ : ns₁.link name = some { l with addrs := addrs } := by
        rw [hns₁]
        exact Namespace.link_put_self _ name _
      obtain ⟨ns', l', hruns, hadjusts, hl', heq, hsub, hgone⟩ := ih hl₁
      refine ⟨ns', l', Runs.bind (Runs.bind (Runs.netlink_set hdel) rfl) hruns,
        (cfg.lawful.addrDel_adjusts hdel).trans hadjusts, hl', heq,
        List.Subset.trans hsub hsubset, ?_⟩
      intro b hb
      obtain rfl | hb := List.mem_cons.mp hb
      · intro hmem
        exact hlost (hsub hmem)
      · exact hgone b hb
    · obtain ⟨ns', l', hruns, hadjusts, hl', heq, hsub, hgone⟩ := ih hl
      refine ⟨ns', l', Runs.bind (runs_delAddr_of_notMem cfg hignored hl ha) hruns, hadjusts, hl',
        heq, hsub, ?_⟩
      intro b hb
      obtain rfl | hb := List.mem_cons.mp hb
      · intro hmem
        exact ha (hsub hmem)
      · exact hgone b hb

/-- Flushing the addresses of a link leaves it none. -/
theorem runs_flushAddrs (cfg : Config) (scope : Scope) (k : State) {ignored : Errno → Bool}
    (hignored : ignored .addrNotAvailable = true) (hl : ns.link name = some l) :
  ∃ ns', Runs (flushAddrs cfg scope name ignored) (k.set scope ns) () (k.set scope ns') ∧
    Adjusts name ns ns' ∧ ns'.link name = some { l with addrs := [] }
  := by
  obtain ⟨ns', l', hruns, hadjusts, hl', heq, hsub, hgone⟩ :=
    runs_forM_delAddr cfg hignored l.addrs hl
  refine ⟨ns', Runs.bind (Runs.netlink_set (addrList_of_link hl)) hruns, hadjusts, ?_⟩
  have hnil : l'.addrs = [] := by
    apply List.eq_nil_iff_forall_not_mem.mpr
    intro a ha
    exact hgone a (hsub ha) ha
  rw [hl', heq, hnil]

/-! ### Bridges -/

section

variable {cfg : Config} {id nodeName : String} {subnet ip a : IPNet} {r : Link IPNet × Attrs}

/-- The message of a link that is not there is one that is expected. -/
theorem isLinkNotFound_linkNotFound :
  isLinkNotFound .linkNotFound = true
  := by decide +kernel

theorem mentions_linkNotFound :
  mentions Errno.linkNotFound.message "Link not found" = true
  := by decide +kernel

/-- Looking up a link that is there. -/
theorem Runs.linkByName (hl : k.host.link name = some l) :
  Runs (Kernel.must context .host (cfg.netlink.linkByName name)) k
    (l, cfg.netlink.attrs k.host name) k
  := Runs.must_host (Netlink.linkByName_of_link hl)

/-- Looking up a link that is not there. -/
theorem Runs.linkByName_error (hnone : k.host.link name = none) :
  Runs (Kernel.netlink .host (cfg.netlink.linkByName name)) k (.error .linkNotFound) k
  := Runs.netlink_error (perform_error_of_get rfl (Netlink.linkByName_of_none hnone))

/-- A link that is there can be set up. -/
theorem runs_linkSetUp (cfg : Config) (hl : k.host.link name = some l) :
  ∃ k', Runs (must context .host (cfg.netlink.linkSetUp name)) k () k' ∧
    k'.host.link name = some { l with up := true }
  := by
  obtain ⟨ns, hset⟩ := cfg.lawful.linkSetUp_of_link hl
  have hruns : Runs (must context .host (cfg.netlink.linkSetUp name)) k () { k with host := ns } :=
    Runs.must_host hset
  exact ⟨_, hruns, must_linkSetUp_ok hruns hl⟩

/-- An address that is accepted is given to the link. -/
theorem runs_addrReplace (hl : k.host.link name = some l) (ha : cfg.netlink.acceptsAddr a) :
  ∃ k' addrs, Runs (must context .host (cfg.netlink.addrReplace name a)) k () k' ∧
    Gains a l.addrs addrs ∧ k'.host.link name = some { l with addrs := addrs }
  := by
  obtain ⟨ns, hset⟩ := cfg.lawful.addrReplace_of_link hl ha
  have hruns :
      Runs (must context .host (cfg.netlink.addrReplace name a)) k () { k with host := ns } :=
    Runs.must_host hset
  obtain ⟨addrs, hgains, hl'⟩ := must_addrReplace_ok hruns hl
  exact ⟨_, addrs, hruns, hgains, hl'⟩

/-- A link that is added is found. -/
theorem runs_linkAdd {contextAdd contextGet : String} {kind : Kind} {dev : Option ℕ} {mtu : ℤ}
    (hadd : cfg.netlink.linkAdd name kind dev mtu k.host = .ok ((), ns)) :
  ∃ r k', Runs (do
    must contextAdd .host (cfg.netlink.linkAdd name kind dev mtu)
    must contextGet .host (cfg.netlink.linkByName name)) k r k'
  := by
  obtain ⟨-, -, i, m, -, -, rfl⟩ := cfg.lawful.linkAdd_ok hadd
  exact ⟨_, _, Runs.bind (Runs.must_host hadd) (Runs.linkByName (Namespace.link_add_self _ _ _))⟩

/-- If no link has the name, a bridge is made. -/
theorem bridgeByName_of_none (hnone : k.host.link name = none) :
  (bridgeByName cfg name).run ⟨k, []⟩ = (do
    must "link add" .host (cfg.netlink.linkAdd name .bridge none 0)
    must "link lookup after add" .host (cfg.netlink.linkByName name) : Command _).run ⟨k, []⟩
  := by
  rw [bridgeByName, run_bind_of_ok (Runs.linkByName_error hnone)]
  dsimp only
  rw [if_pos isLinkNotFound_linkNotFound]

/-- The bridge is found, or made if the kernel accepts it. -/
theorem runs_bridgeByName (cfg : Config) (hown : ∀ l, k.host.link name = some l → l.kind = .bridge)
    (hadd : k.host.link name = none →
      ∃ ns, cfg.netlink.linkAdd name .bridge none 0 k.host = .ok ((), ns)) :
  ∃ r k', Runs (bridgeByName cfg name) k r k'
  := by
  cases hl : k.host.link name with
  | some l =>
    refine ⟨(l, cfg.netlink.attrs k.host name), k,
      Runs.bind (Runs.netlink_host (Netlink.linkByName_of_link hl)) ?_⟩
    dsimp only
    rw [if_pos (hown l hl)]
    rfl
  | none =>
    obtain ⟨ns, hadd⟩ := hadd hl
    obtain ⟨r, k', hruns⟩ := runs_linkAdd hadd
    exact ⟨r, k', (bridgeByName_of_none hl).trans hruns⟩

/-- The bridge is made, or taken over. -/
theorem runs_createBridge
    (hown : ∀ l, k.host.link (bridgeName cfg.hashes id) = some l → l.kind = .bridge)
    (hadd : k.host.link (bridgeName cfg.hashes id) = none →
      ∃ ns, cfg.netlink.linkAdd (bridgeName cfg.hashes id) .bridge none 0 k.host = .ok ((), ns))
    (hfirst : firstIP subnet = .ok ip) (haccepts : cfg.netlink.acceptsAddr ip) :
  ∃ br k', Runs (createBridge cfg id subnet) k br k'
  := by
  obtain ⟨r, k₁, hget⟩ := runs_bridgeByName cfg hown hadd
  obtain ⟨hl₁, -⟩ := bridgeByName_ok hget
  obtain ⟨k₂, addrs, haddr, -, hl₂⟩ := runs_addrReplace hl₁ haccepts
  obtain ⟨k₃, hup, -⟩ := runs_linkSetUp cfg hl₂
  have hset : Runs (do
      must "addr replace" .host (cfg.netlink.addrReplace (bridgeName cfg.hashes id) ip)
      must "link up" .host (cfg.netlink.linkSetUp (bridgeName cfg.hashes id))
      pure (r, ip)) k₁ (r, ip) k₃ := Runs.bind haddr (Runs.bind hup (Runs.pure _ _))
  have hensure : Runs (ensureBridge cfg (bridgeName cfg.hashes id) subnet) k (r, ip) k₃ :=
    Runs.bind hget (Runs.bind (Runs.pureOr hfirst _) hset)
  rw [createBridge, setupBridge_eq]
  exact ⟨_, k₃, Runs.bind (Runs.bind (Runs.wrap hensure _) (Runs.pure _ _)) (Runs.pure _ _)⟩

/-- A bridge that the kernel does not make leaves nothing. -/
theorem fails_createBridge {err : Errno} (hnone : k.host.link (bridgeName cfg.hashes id) = none)
    (hadd : cfg.netlink.linkAdd (bridgeName cfg.hashes id) .bridge none 0 k.host = .error err)
    (subnet : IPNet) :
  ∃ e, Fails (createBridge cfg id subnet) k e k
  := by
  have hget : Fails (bridgeByName cfg (bridgeName cfg.hashes id)) k
      (.wrap "link add" (.errno err)) k := by
    rw [Fails, bridgeByName_of_none hnone]
    exact Fails.bind (Fails.must (perform_error_of_get rfl hadd)) _
  have hensure : Fails (ensureBridge cfg (bridgeName cfg.hashes id) subnet) k _ k := hget.bind _
  rw [createBridge, setupBridge_eq]
  exact ⟨_, (Fails.bind (hensure.wrap "ensure bridge") _).bind _⟩

/-- Moving a bridge leaves it the first address of the subnet and no other. -/
theorem runs_updateBridgeIP {br : Bridge} (hl : k.host.link br.name = some l)
    (hfirst : firstIP subnet = .ok ip) (haccepts : cfg.netlink.acceptsAddr ip) :
  ∃ k', Runs (updateBridgeIP cfg (some br) subnet) k () k' ∧
    k'.host.link br.name = some { l with addrs := [ip], up := true }
  := by
  obtain ⟨ns, hflush, -, hns⟩ := runs_flushAddrs cfg .host k isAddrNotFound_addrNotAvailable hl
  obtain ⟨k₂, addrs, haddr, hgains, hl₂⟩ := runs_addrReplace (k := k.set .host ns) hns haccepts
  obtain ⟨k₃, hup, hl₃⟩ := runs_linkSetUp cfg hl₂
  refine ⟨k₃, ?_, ?_⟩
  · apply Runs.bind (Runs.wrap (Runs.pureOr hfirst _) _)
    apply Runs.bind (Runs.linkByName hl)
    exact Runs.bind (Runs.wrap hflush _) (Runs.bind haddr hup)
  · rw [hl₃, hgains.2 rfl]

/-- A bridge that is there is deleted. -/
theorem runs_deleteBridge (cfg : Config) {br : Bridge} (hl : k.host.link br.name = some l)
    (hkind : l.kind = .bridge) :
  ∃ k', Runs (deleteBridge cfg (some br)) k () k' ∧ k'.host.link br.name = none
  := by
  obtain ⟨ns, hdel⟩ := cfg.lawful.linkDel_of_bridge hl hkind
  obtain ⟨l', hl', hdrop⟩ := cfg.lawful.linkDel_ok hdel
  cases hl.symm.trans hl'
  refine ⟨_, Runs.bind (Runs.linkByName hl) (Runs.must_host hdel), ?_⟩
  rw [hdrop (by simp [Link.Single, hkind])]
  exact (Namespace.link_drop _ _ _ _).trans (if_pos rfl)

/-! ### VTEPs -/

theorem defaultGateway_of_route {gw : String × IP} {lg : Link IPNet} (hroute : ns.route = some gw)
    (hlg : ns.link gw.1 = some lg) :
  defaultGateway cfg ns = .ok ((gw.1, lg, cfg.netlink.attrs ns gw.1), ns)
  := by
  simp only [defaultGateway, hroute, hlg]

/-- If no link has the name, a VXLAN link is made. -/
theorem ensureVxLan_of_none (vni dev : ℕ) (mac : List UInt8) (mtu : ℤ)
    (hnone : k.host.link name = none) :
  (ensureVxLan cfg name vni mac dev mtu).run ⟨k, []⟩ = (do
    must "LinkAdd error" .host (cfg.netlink.linkAdd name (.vxlan vni vxlanPort mac) (some dev) mtu)
    must "LinkByName error" .host (cfg.netlink.linkByName name) : Command _).run ⟨k, []⟩
  := by
  rw [ensureVxLan, run_bind_of_ok (Runs.linkByName_error hnone)]
  dsimp only
  rw [if_pos mentions_linkNotFound]

/-- The VXLAN link is found, or made if the kernel accepts it. -/
theorem runs_ensureVxLan {vni dev : ℕ} {mac : List UInt8} {mtu : ℤ}
    (hown : ∀ l, k.host.link name = some l → ∃ port, l.kind = .vxlan vni port mac)
    (hadd : k.host.link name = none → ∃ ns,
      cfg.netlink.linkAdd name (.vxlan vni vxlanPort mac) (some dev) mtu k.host = .ok ((), ns)) :
  ∃ r k', Runs (ensureVxLan cfg name vni mac dev mtu) k r k'
  := by
  cases hl : k.host.link name with
  | some l =>
    obtain ⟨port, hkind⟩ := hown l hl
    refine ⟨(l, cfg.netlink.attrs k.host name), k,
      Runs.bind (Runs.netlink_host (Netlink.linkByName_of_link hl)) ?_⟩
    dsimp only
    rw [hkind]
    rfl
  | none =>
    obtain ⟨ns, hadd⟩ := hadd hl
    obtain ⟨r, k', hruns⟩ := runs_linkAdd hadd
    exact ⟨r, k', (ensureVxLan_of_none vni dev mac mtu hl).trans hruns⟩

/-- A VTEP that is not there is made, or nothing is left. -/
theorem ensureVxLan_cases (cfg : Config) (vni dev : ℕ) (mac : List UInt8) (mtu : ℤ)
    (hnone : k.host.link name = none) :
  (∃ r k', Runs (ensureVxLan cfg name vni mac dev mtu) k r k') ∨
    ∃ e, Fails (ensureVxLan cfg name vni mac dev mtu) k e k
  := by
  cases hadd : cfg.netlink.linkAdd name (.vxlan vni vxlanPort mac) (some dev) mtu k.host with
  | ok r =>
    left
    apply runs_ensureVxLan
    · rw [hnone]
      simp
    · intro _
      exact ⟨r.2, hadd⟩
  | error err =>
    right
    refine ⟨.wrap "LinkAdd error" (.errno err), ?_⟩
    rw [Fails, ensureVxLan_of_none vni dev mac mtu hnone]
    exact Fails.bind (Fails.must (perform_error_of_get rfl hadd)) _

/-- The device is made or taken over when the interface of the default route is found. -/
theorem newVxlanDevice_of_route {gw : String × IP} {lg : Link IPNet} (vni : ℕ) (mac : List UInt8)
    (hroute : k.host.route = some gw) (hlg : k.host.link gw.1 = some lg) (haddrs : lg.addrs ≠ []) :
  (newVxlanDevice cfg name vni mac).run ⟨k, []⟩ = (ensureVxLan cfg name vni mac lg.index
    ((cfg.netlink.attrs k.host gw.1).mtu - encapOverhead)).run ⟨k, []⟩
  := by
  have hgateway :
      Runs (must "getDefaultDefaultGatewayInterface" .host (defaultGateway cfg)) k _ k :=
    Runs.must_host (defaultGateway_of_route hroute hlg)
  have hlist : Runs (must "get addresses for gateway interface" .host (addrList gw.1)) k _ k :=
    Runs.must_host (addrList_of_link hlg)
  rw [newVxlanDevice, run_bind_of_ok hgateway]
  dsimp only
  rw [run_bind_of_ok hlist, if_neg haddrs]

theorem newVxlanDevice_cases {h : Hashes} (cfg : Config) (vni : ℕ) (mac : List UInt8)
    (huplink : Uplink h k) (hnone : k.host.link name = none) :
  (∃ r k', Runs (newVxlanDevice cfg name vni mac) k r k') ∨
    ∃ e, Fails (newVxlanDevice cfg name vni mac) k e k
  := by
  cases hroute : k.host.route with
  | none =>
    have hgateway : State.perform .host (defaultGateway cfg) k
        = .error (.other "unable to find default route") := by
      apply perform_error_of_get rfl
      rw [defaultGateway, hroute]
    exact .inr ⟨_, Fails.bind (Fails.must hgateway) _⟩
  | some gw =>
    obtain ⟨-, lg, hlg, haddrs, -⟩ := huplink gw hroute
    simp only [Runs, Fails, newVxlanDevice_of_route vni mac hroute hlg haddrs]
    exact ensureVxLan_cases cfg vni lg.index mac _ hnone

theorem runs_addFirstAddr (hl : k.host.link name = some l) (ha : cfg.netlink.acceptsAddr a) :
  ∃ k' l', Runs (addFirstAddr cfg name l.addrs a) k () k' ∧ k'.host.link name = some l'
  := by
  rw [addFirstAddr]
  split
  case isTrue hnil =>
    obtain ⟨ns, hadd⟩ := cfg.lawful.addrAdd_of_nil hl hnil ha
    obtain ⟨l', addrs, -, -, rfl⟩ := cfg.lawful.addrAdd_ok hadd
    exact ⟨_, _, Runs.must_host hadd, Namespace.link_put_self _ _ _⟩
  case isFalse => exact ⟨k, l, rfl, hl⟩

/-- The VTEP is made when its device is. -/
theorem runs_createVTEP (hown : Owned cfg.hashes nodeName id k)
    (haccepts : cfg.netlink.acceptsAddr (vtepAddr subnet))
    (hdevice : Runs (newVxlanDevice cfg (vtepName cfg.hashes id) (vni cfg.hashes id)
      (vtepMAC cfg.hashes id nodeName)) k r k₁) :
  ∃ vt k', Runs (createVTEP cfg id subnet nodeName) k vt k'
  := by
  obtain ⟨gw, lg, s₁, -, -, hs₁, hensure⟩ := newVxlanDevice_ok hdevice
  obtain ⟨hl, ⟨port, hkind⟩, -⟩ := ensureVxLan_ok (by rw [hs₁]; exact hown.vtep) hensure
  obtain ⟨k₂, l₂, hfirst, hl₂⟩ := runs_addFirstAddr hl haccepts
  obtain ⟨k₃, hup, -⟩ := runs_linkSetUp cfg hl₂
  have hlist : Runs (must "get existing addresses" .host (addrList (vtepName cfg.hashes id))) k₁
      r.1.addrs k₁ := Runs.must_host (addrList_of_link hl)
  have hsetup : Runs (setupVxlan cfg subnet id nodeName) k
      (vtepName cfg.hashes id, r, vtepAddr subnet) k₃ := by
    rw [setupVxlan_eq]
    apply Runs.bind (Runs.wrap hdevice _)
    exact Runs.bind hlist (Runs.bind hfirst (Runs.bind hup (Runs.pure _ _)))
  refine ⟨⟨vtepName cfg.hashes id, vtepAddr subnet, r.2.mac, vni cfg.hashes id⟩, k₃,
    Runs.bind hsetup ?_⟩
  dsimp only
  rw [hkind]
  rfl

/-- A VTEP that is not there is made, or nothing is left. -/
theorem createVTEP_cases (nodeName : String) (huplink : Uplink cfg.hashes k)
    (hnone : k.host.link (vtepName cfg.hashes id) = none)
    (hown : Owned cfg.hashes nodeName id k) (haccepts : cfg.netlink.acceptsAddr (vtepAddr subnet)) :
  (∃ vt k', Runs (createVTEP cfg id subnet nodeName) k vt k') ∨
    ∃ e, Fails (createVTEP cfg id subnet nodeName) k e k
  := by
  obtain ⟨r, k₁, hdevice⟩ | ⟨e, hfails⟩ := newVxlanDevice_cases cfg (vni cfg.hashes id)
    (vtepMAC cfg.hashes id nodeName) huplink hnone
  · exact .inl (runs_createVTEP hown haccepts hdevice)
  · right
    rw [createVTEP, setupVxlan_eq]
    exact ⟨_, (Fails.bind (hfails.wrap "create vxlan device") _).bind _⟩

/-- Refreshing the MTU of a VTEP sets it to that of the interface of the default route, less what
the encapsulation takes, or leaves it. -/
theorem runs_refreshMTU {gw : String × IP} {lg : Link IPNet} (hroute : k.host.route = some gw)
    (hlg : k.host.link gw.1 = some lg) (hl : k.host.link name = some l) :
  ∃ k' mtu, Runs (refreshMTU cfg name) k () k' ∧ k'.host.link name = some { l with mtu := mtu } ∧
    (mtu = l.mtu ∨ mtu = (cfg.netlink.attrs k.host gw.1).mtu - encapOverhead)
  := by
  have hgateway : Runs (netlink .host (defaultGateway cfg)) k _ k :=
    Runs.netlink_host (defaultGateway_of_route hroute hlg)
  cases hset : cfg.netlink.linkSetMTU name ((cfg.netlink.attrs k.host gw.1).mtu - encapOverhead)
      k.host with
  | ok r =>
    obtain ⟨l', hl', hns⟩ := cfg.lawful.linkSetMTU_ok hset
    cases hl.symm.trans hl'
    refine ⟨_, _, Runs.bind hgateway (Runs.discard (Runs.netlink_host hset)), ?_, .inr rfl⟩
    rw [hns]
    exact Namespace.link_put_self _ _ _
  | error err =>
    have hrefused : State.perform .host (cfg.netlink.linkSetMTU name
        ((cfg.netlink.attrs k.host gw.1).mtu - encapOverhead)) k = .error err :=
      perform_error_of_get rfl hset
    exact ⟨k, l.mtu, Runs.bind hgateway (Runs.discard (Runs.netlink_error hrefused)), hl, .inl rfl⟩

/-- Moving a VTEP adds the address of the subnet to those it has. -/
theorem runs_updateIP {vt : VTEP} {i port : ℕ} {mac : List UInt8} {gw : String × IP}
    {lg : Link IPNet} (hl : k.host.link vt.name = some l) (hkind : l.kind = .vxlan i port mac)
    (hroute : k.host.route = some gw) (hlg : k.host.link gw.1 = some lg)
    (haccepts : cfg.netlink.acceptsAddr (vtepAddr subnet)) :
  ∃ k' mtu addrs, Runs (updateIP cfg (some vt) subnet) k (vtepAddr subnet) k' ∧
    k'.host.link vt.name = some { l with mtu := mtu, addrs := addrs, up := true } ∧
    (mtu = l.mtu ∨ mtu = (cfg.netlink.attrs k.host gw.1).mtu - encapOverhead) ∧
    Gains (vtepAddr subnet) l.addrs addrs
  := by
  obtain ⟨k₁, mtu, hmtu, hl₁, hcases⟩ := runs_refreshMTU hroute hlg hl
  obtain ⟨k₂, addrs, haddr, hgains, hl₂⟩ := runs_addrReplace hl₁ haccepts
  obtain ⟨k₃, hup, hl₃⟩ := runs_linkSetUp cfg hl₂
  refine ⟨k₃, mtu, addrs, Runs.bind (Runs.linkByName hl) ?_, hl₃, hcases, hgains⟩
  dsimp only
  rw [hkind]
  exact Runs.bind hmtu (Runs.bind haddr (Runs.bind hup (Runs.pure _ _)))

theorem runs_deleteVTEP (cfg : Config) {vt : VTEP} {i port : ℕ} {mac : List UInt8}
    (hl : k.host.link vt.name = some l) (hkind : l.kind = .vxlan i port mac) :
  ∃ k', Runs (deleteVTEP cfg (some vt)) k () k' ∧ k'.host.link vt.name = none
  := by
  obtain ⟨ns, hdel⟩ := cfg.lawful.linkDel_of_vxlan hl hkind
  obtain ⟨l', hl', hdrop⟩ := cfg.lawful.linkDel_ok hdel
  cases hl.symm.trans hl'
  refine ⟨_, Runs.bind (Runs.netlink_host (Netlink.linkByName_of_link hl))
    (Runs.must_host hdel), ?_⟩
  rw [hdrop (by simp [Link.Single, hkind])]
  exact (Namespace.link_drop _ _ _ _).trans (if_pos rfl)

/-! ### The backend -/

/-- The bridge is up under its recorded name, with the first address of the subnet and no other.
(Its hardware address is not that which is recorded once links are attached to it.) -/
def BridgeServes (h : Hashes) (id : String) (br : Bridge) (subnet : IPNet) (k : State) : Prop :=
  br.name = bridgeName h id ∧ firstIP subnet = .ok br.ip ∧
    ∃ l, k.host.link br.name = some l ∧ l.kind = .bridge ∧ l.up = true ∧ l.addrs = [br.ip]

/-- The VTEP is up as it is recorded, with the address of the subnet, and with the MTU that the
interface of the default route leaves, if that is no bridge and has an MTU that leaves any. -/
def VTEPServes (h : Hashes) (nodeName id : String) (vt : VTEP) (subnet : IPNet)
    (k : State) : Prop :=
  vt.name = vtepName h id ∧ vt.vni = vni h id ∧ vt.mac = vtepMAC h id nodeName ∧
    ∃ l gw lg, k.host.link vt.name = some l ∧ l.kind = .vxlan vt.vni vxlanPort vt.mac ∧
      l.up = true ∧ vt.ip ∈ l.addrs ∧ vtepAddr subnet ∈ l.addrs ∧
      k.host.route = some gw ∧ k.host.link gw.1 = some lg ∧
      (lg.kind ≠ .bridge → encapOverhead < lg.mtu → l.mtu = lg.mtu - encapOverhead)

/-- The devices of a tenant serve its subnet. -/
structure Serves (h : Hashes) (nodeName id : String) (be : Backend) (subnet : IPNet) (k : State) :
    Prop where
  managers : be.managers = true
  bridge : ∃ br, be.bridge = some br ∧ BridgeServes h id br subnet k
  vtep : ∃ vt, be.vtep = some vt ∧ VTEPServes h nodeName id vt subnet k

/-- No link has the name of a device of the tenant. -/
def Absent (h : Hashes) (id : String) (k : State) : Prop :=
  k.host.link (bridgeName h id) = none ∧ k.host.link (vtepName h id) = none

theorem Absent.owned {h : Hashes} (habsent : Absent h id k) (nodeName : String) :
  Owned h nodeName id k
  := by
  constructor
  · simp [habsent.1]
  · simp [habsent.2]

theorem Serves.present {h : Hashes} {be : Backend} (hserves : Serves h nodeName id be subnet k) :
  Present h id be k
  := by
  obtain ⟨hmanagers, ⟨br, hbr, hname, -, l, hl, hkind, -⟩,
    vt, hvt, hvname, -, -, lv, -, -, hlv, hvkind, -⟩ := hserves
  exact ⟨hmanagers, ⟨br, l, hbr, hname, hl, hkind⟩, vt, lv, vxlanPort, hvt, hvname, hlv, hvkind⟩

/-- A change elsewhere leaves the bridge as it is. -/
theorem BridgeServes.of_changes {h : Hashes} {F : Footprint} {br : Bridge}
    (hserves : BridgeServes h id br subnet k) (hchanges : Changes F k k')
    (hname : bridgeName h id ∉ F.names) :
  BridgeServes h id br subnet k'
  := by
  obtain ⟨hbr, hip, l, hl, hlink⟩ := hserves
  refine ⟨hbr, hip, l, ?_, hlink⟩
  rw [hchanges.others _ (by rwa [hbr])]
  exact hl

/-- A change elsewhere leaves the VTEP and the interface of the default route as they are. -/
theorem VTEPServes.of_changes {h : Hashes} {F : Footprint} {vt : VTEP} (huplink : Uplink h k)
    (hserves : VTEPServes h nodeName id vt subnet k) (hchanges : Changes F k k')
    (hname : vtepName h id ∉ F.names) (hforeign : ∀ name ∈ F.names, ¬ Foreign h name) :
  VTEPServes h nodeName id vt subnet k'
  := by
  obtain ⟨hvt, hvni, hmac, l, gw, lg, hl, hkind, hup, hip, haddr, hroute, hlg, hmtu⟩ := hserves
  have hgw : gw.1 ∉ F.names := fun hmem => hforeign _ hmem (huplink gw hroute).1
  refine ⟨hvt, hvni, hmac, l, gw, lg, ?_, hkind, hup, hip, haddr, ?_, ?_, hmtu⟩
  · rw [hchanges.others _ (by rwa [hvt])]
    exact hl
  · rw [hchanges.route]
    · exact hroute
    · rintro r hr
      cases hroute.symm.trans hr
      exact hgw
  · rw [hchanges.others _ hgw]
    exact hlg

/-- A new bridge of the subnet serves it. -/
theorem createBridge_serves {br : Bridge} (hnone : k.host.link (bridgeName cfg.hashes id) = none)
    (hbr : Runs (createBridge cfg id subnet) k br k') :
  BridgeServes cfg.hashes id br subnet k'
  := by
  obtain ⟨l, addrs, hkind, hname, hip, htaken, hgains, hl⟩ := createBridge_ok hbr
  obtain hold | ⟨-, -, hnil, -⟩ := htaken
  · cases hold.symm.trans hnone
  · rw [← hname] at hl
    exact ⟨hname, hip, _, hl, hkind, rfl, hgains.2 hnil⟩

/-- A new VTEP serves the subnet it is made for. -/
theorem createVTEP_serves {vt : VTEP} (huplink : Uplink cfg.hashes k)
    (hnone : k.host.link (vtepName cfg.hashes id) = none)
    (hvt : Runs (createVTEP cfg id subnet nodeName) k vt k') :
  VTEPServes cfg.hashes nodeName id vt subnet k'
  := by
  have hchanges : Changes _ k k' := ((along_createVTEP_vtep subnet).of_run_ok hvt).changes
  obtain ⟨rfl, l, gw, lg, -, hroute, hlg, htaken, hl⟩ := createVTEP_ok (by simp [hnone]) hvt
  obtain ⟨hforeign, -⟩ := huplink gw hroute
  obtain hold | ⟨-, hkind, hnil, hmtu⟩ := htaken
  · cases hold.symm.trans hnone
  · refine ⟨rfl, rfl, rfl, _, gw, lg, hl, hkind, rfl, ?_, ?_, ?_, ?_, ?_⟩
    · simp [hnil]
    · simp [hnil]
    · rw [hchanges.route]
      · exact hroute
      · intro r hr hname
        exact ((huplink r hr).1 id).2.1 hname
    · rw [hchanges.others gw.1 (hforeign id).2.1]
      exact hlg
    · intro hnobridge hroom
      rw [cfg.lawful.attrs_mtu hlg hnobridge] at hmtu
      apply hmtu (Int.sub_pos_of_lt hroom)
      rintro i ⟨⟩
      refine ⟨gw.1, lg, hlg, rfl, ?_⟩
      rw [cfg.lawful.attrs_mtu hlg hnobridge, encapOverhead, Netlink.headroom]
      omega

/-- What deleting the bridge changes. -/
theorem changes_deleteBridge {h : Hashes} {br : Bridge} (hname : br.name = bridgeName h id)
    (hkind : l.kind = .bridge) (hl : k.host.link br.name = some l)
    (hruns : Runs (deleteBridge cfg (some br)) k () k') :
  Changes ⟨{bridgeName h id}, {bridgeName h id}, ∅, fun _ _ => False⟩ k k'
  := by
  have hwithin : Within ⟨{bridgeName h id}, {bridgeName h id}, ∅, fun _ _ => False⟩ ⟨k, []⟩
      (final (deleteBridge cfg (some br)) ⟨k, []⟩) := by
    apply within_deleteBridge
    · rintro _ ⟨⟩
      exact hname
    · rintro _ ⟨⟩
      exact hname
    · rintro _ ⟨⟩ l' hl'
      cases hl.symm.trans hl'
      simp [Link.Single, hkind]
  exact hwithin.of_run_ok hruns

theorem changes_deleteVTEP {h : Hashes} {vt : VTEP} {i port : ℕ} {mac : List UInt8}
    (hname : vt.name = vtepName h id) (hkind : l.kind = .vxlan i port mac)
    (hl : k.host.link vt.name = some l) (hruns : Runs (deleteVTEP cfg (some vt)) k () k') :
  Changes ⟨{vtepName h id}, {vtepName h id}, ∅, fun _ _ => False⟩ k k'
  := by
  have hwithin : Within ⟨{vtepName h id}, {vtepName h id}, ∅, fun _ _ => False⟩ ⟨k, []⟩
      (final (deleteVTEP cfg (some vt)) ⟨k, []⟩) := by
    apply within_deleteVTEP
    · rintro _ ⟨⟩
      exact hname
    · rintro _ ⟨⟩
      exact hname
    · rintro _ ⟨⟩ l' hl'
      cases hl.symm.trans hl'
      simp [Link.Single, hkind]
  exact hwithin.of_run_ok hruns

/-- A tenant without devices gets devices that serve its subnet, or is left without any. -/
theorem create_cases (nodeName : String) (habsent : Absent cfg.hashes id k)
    (huplink : Uplink cfg.hashes k) (hfirst : firstIP subnet = .ok ip)
    (hip : cfg.netlink.acceptsAddr ip) (hvtep : cfg.netlink.acceptsAddr (vtepAddr subnet)) :
  (∃ be k', Runs (create cfg newBridgeVTEPBackend id subnet nodeName) k be k' ∧
      Serves cfg.hashes nodeName id be subnet k') ∨
    ∃ e k', Fails (create cfg newBridgeVTEPBackend id subnet nodeName) k e k' ∧
      Absent cfg.hashes id k'
  := by
  have hown := habsent.owned nodeName
  cases hadd : cfg.netlink.linkAdd (bridgeName cfg.hashes id) .bridge none 0 k.host with
  | error err =>
    obtain ⟨e, hfails⟩ := fails_createBridge habsent.1 hadd subnet
    exact .inr ⟨e, k, hfails.bind _, habsent⟩
  | ok r =>
    obtain ⟨br, k₁, hbr⟩ := runs_createBridge hown.bridge (fun _ => ⟨r.2, hadd⟩) hfirst hip
    have hchanges : Changes _ k k₁ := ((along_createBridge_bridge subnet).of_run_ok hbr).changes
    have hnone₁ : k₁.host.link (vtepName cfg.hashes id) = none := by
      rw [hchanges.others _ (bridgeName_ne_vtepName _ _ _).symm]
      exact habsent.2
    have hbridge := createBridge_serves habsent.1 hbr
    obtain ⟨vt, k₂, hvt⟩ | ⟨e, hfails⟩ := createVTEP_cases nodeName (huplink.after_createBridge hbr)
      hnone₁ (hown.after_createBridge hbr) hvtep
    · left
      have hchanges' : Changes _ k₁ k₂ := ((along_createVTEP_vtep subnet).of_run_ok hvt).changes
      refine ⟨_, k₂, Runs.bind hbr (Runs.bind (Runs.attempt hvt) (Runs.pure _ _)), rfl,
        ⟨br, rfl, ?_⟩, vt, rfl, createVTEP_serves (huplink.after_createBridge hbr) hnone₁ hvt⟩
      exact hbridge.of_changes hchanges' (bridgeName_ne_vtepName _ _ _)
    · right
      obtain ⟨hname, -, l, hl, hkind, -⟩ := hbridge
      obtain ⟨k₂, hdelete, hgone⟩ := runs_deleteBridge cfg hl hkind
      have hattempt : Runs (attempt (createVTEP cfg id subnet nodeName)) k₁ (.error e) k₁ :=
        attempt_of_error hfails (createVTEP_noPanic (huplink.after_createBridge hbr)
          (hown.after_createBridge hbr) hfails)
      refine ⟨e, k₂, Runs.bind_fails hbr (Runs.bind_fails hattempt (Runs.bind_fails hdelete rfl)),
        hname ▸ hgone, ?_⟩
      rw [(changes_deleteBridge hname hkind hl hdelete).others _
        (bridgeName_ne_vtepName _ _ _).symm]
      exact hnone₁

/-- The kernel accepts the devices of the tenant, over an interface of the MTU. -/
def AcceptsDevices (cfg : Config) (nodeName id : String) (mtu : ℤ) : Prop :=
  cfg.netlink.acceptsLink (bridgeName cfg.hashes id) .bridge 0 ∧
    cfg.netlink.acceptsLink (vtepName cfg.hashes id)
      (.vxlan (vni cfg.hashes id) vxlanPort (vtepMAC cfg.hashes id nodeName)) (mtu - encapOverhead)

/-- No other link is a tunnel with the identifier of the tenant. -/
def Unclaimed (h : Hashes) (id : String) (k : State) : Prop :=
  ∀ n l, k.host.link n = some l → l.kind.tunnel = some (vni h id, vxlanPort) → n = vtepName h id

/-- The devices are up, and the bridge has the first address of the subnet. -/
def Started (be : Backend) (subnet : IPNet) (k : State) : Prop :=
  ∃ br vt lb lv, be.bridge = some br ∧ be.vtep = some vt ∧
    k.host.link br.name = some lb ∧ lb.up = true ∧ firstIP subnet = .ok br.ip ∧ br.ip ∈ lb.addrs ∧
    k.host.link vt.name = some lv ∧ lv.up = true

/-- A new bridge claims no identifier of a tunnel. -/
theorem Unclaimed.after_createBridge {br : Bridge} (hunclaimed : Unclaimed cfg.hashes id k)
    (hbr : Runs (createBridge cfg id subnet) k br k') :
  Unclaimed cfg.hashes id k'
  := by
  have hchanges : Changes (bridgeFootprint cfg.hashes id) k k' :=
    ((along_createBridge_bridge subnet).of_run_ok hbr).changes
  intro n l hl htunnel
  obtain ⟨l₀, hl₀, hsame⟩ | ⟨-, hkind⟩ := hchanges.origin n l hl
  · rw [hsame.kind] at htunnel
    exact hunclaimed n l₀ hl₀ htunnel
  · rw [hkind] at htunnel
    cases htunnel

/-- The device of the VTEP is made or taken over, if its identifier is not in use. -/
theorem runs_newVxlanDevice {gw : String × IP} {lg : Link IPNet} (hroute : k.host.route = some gw)
    (hlg : k.host.link gw.1 = some lg) (haddrs : lg.addrs ≠ []) (hnobridge : lg.kind ≠ .bridge)
    (haccepts : AcceptsDevices cfg nodeName id lg.mtu) (hown : Owned cfg.hashes nodeName id k)
    (hunclaimed : Unclaimed cfg.hashes id k) :
  ∃ r k', Runs (newVxlanDevice cfg (vtepName cfg.hashes id) (vni cfg.hashes id)
    (vtepMAC cfg.hashes id nodeName)) k r k'
  := by
  have hmtu := cfg.lawful.attrs_mtu hlg hnobridge
  simp only [Runs, newVxlanDevice_of_route _ _ hroute hlg haddrs]
  apply runs_ensureVxLan hown.vtep
  intro hnone
  apply cfg.lawful.linkAdd_of_unused hnone
  · rintro t ⟨⟩ n l hl htunnel
    rw [hunclaimed n l hl htunnel, hnone] at hl
    cases hl
  · rw [hmtu]
    exact haccepts.2
  · rintro i ⟨⟩
    refine ⟨gw.1, lg, hlg, rfl, ?_⟩
    rw [encapOverhead, Netlink.headroom]
    omega

/-- A tenant gets its devices, or takes over those that were left, if the kernel accepts them and
the identifier of the VTEP is not in use. -/
theorem runs_create {gw : String × IP} {lg : Link IPNet} (hown : Owned cfg.hashes nodeName id k)
    (huplink : Uplink cfg.hashes k) (hroute : k.host.route = some gw)
    (hlg : k.host.link gw.1 = some lg) (hnobridge : lg.kind ≠ .bridge)
    (haccepts : AcceptsDevices cfg nodeName id lg.mtu) (hunclaimed : Unclaimed cfg.hashes id k)
    (hfirst : firstIP subnet = .ok ip) (hip : cfg.netlink.acceptsAddr ip)
    (hvtep : cfg.netlink.acceptsAddr (vtepAddr subnet)) :
  ∃ be k', Runs (create cfg newBridgeVTEPBackend id subnet nodeName) k be k' ∧ Started be subnet k'
  := by
  have hadd : k.host.link (bridgeName cfg.hashes id) = none →
      ∃ ns, cfg.netlink.linkAdd (bridgeName cfg.hashes id) .bridge none 0 k.host = .ok ((), ns) :=
    fun hnone => cfg.lawful.linkAdd_of_unused hnone (by simp [Namespace.Unused, Kind.tunnel])
      haccepts.1 (by simp [Netlink.Carries])
  obtain ⟨br, k₁, hbr⟩ := runs_createBridge hown.bridge hadd hfirst hip
  have hchanges : Changes (bridgeFootprint cfg.hashes id) k k₁ :=
    ((along_createBridge_bridge subnet).of_run_ok hbr).changes
  obtain ⟨hforeign, lg', hlg', haddrs, -⟩ := huplink gw hroute
  cases hlg.symm.trans hlg'
  have hroute₁ : k₁.host.route = some gw := by
    rw [hchanges.route, hroute]
    intro r hr hname
    exact ((huplink r hr).1 id).1 hname
  have hlg₁ : k₁.host.link gw.1 = some lg := by
    rw [hchanges.others gw.1 (hforeign id).1, hlg]
  have hown₁ := hown.after_createBridge hbr
  obtain ⟨r, k₂, hdevice⟩ := runs_newVxlanDevice hroute₁ hlg₁ haddrs hnobridge haccepts hown₁
    (hunclaimed.after_createBridge hbr)
  obtain ⟨vt, k₃, hvt⟩ := runs_createVTEP hown₁ hvtep hdevice
  have hchanges' : Changes (vtepFootprint cfg.hashes nodeName id) k₁ k₃ :=
    ((along_createVTEP_vtep subnet).of_run_ok hvt).changes
  obtain ⟨l, addrs, -, hname, hbrip, -, hgains, hl⟩ := createBridge_ok hbr
  obtain ⟨rfl, lv, -, -, -, -, -, -, hlv⟩ := createVTEP_ok hown₁.vtep hvt
  have hl' : k₃.host.link br.name = some { l with addrs := addrs, up := true } := by
    rw [hname, hchanges'.others _ (bridgeName_ne_vtepName _ _ _)]
    exact hl
  exact ⟨_, k₃, Runs.bind hbr (Runs.bind (Runs.attempt hvt) (Runs.pure _ _)), br, _, _, _, rfl, rfl,
    hl', rfl, hbrip, (hgains.1 _).mpr (.inr rfl), hlv, rfl⟩

/-- Moving devices that serve a subnet has them serve another one. -/
theorem runs_update {subnet' : IPNet} {be : Backend} (huplink : Uplink cfg.hashes k)
    (hserves : Serves cfg.hashes nodeName id be subnet k) (hfirst : firstIP subnet' = .ok ip)
    (haccepts : cfg.netlink.acceptsAddr ip) (hvtep : cfg.netlink.acceptsAddr (vtepAddr subnet')) :
  ∃ be' k', Runs (update cfg be subnet') k (.ok (), be') k' ∧
    Serves cfg.hashes nodeName id be' subnet' k' ∧
    ∀ o : Outcomes, o.bridgeUpdate = true → o.vtepUpdate = true →
      be.update o subnet' = (.ok (), be')
  := by
  obtain ⟨managers, bridge, vtep⟩ := be
  obtain ⟨rfl, ⟨br, rfl, hname, -, l, hl, hkind, -⟩, vt, rfl, hvt⟩ := hserves
  obtain ⟨k₁, hbridge, hl₁⟩ := runs_updateBridgeIP hl hfirst haccepts
  have hchanges : Changes (bridgeFootprint cfg.hashes id) k k₁ :=
    ((along_updateBridgeIP cfg (some br) subnet'
      (by rintro _ ⟨⟩; exact hname)).of_run_ok hbridge).changes
  have hforeign : ∀ name ∈ (bridgeFootprint cfg.hashes id).names, ¬ Foreign cfg.hashes name := by
    rintro name rfl h
    exact (h id).1 rfl
  have hvt₁ := hvt.of_changes huplink hchanges (bridgeName_ne_vtepName _ _ _).symm hforeign
  obtain ⟨hvname, hvni, hvmac, lv, gw, lg, hlv, hvkind, -, hip, -, hroute, hlg, hmtu⟩ := hvt₁
  obtain ⟨k₂, mtu, addrs, hupdate, hlv₂, hmtu₂, hgains⟩ := runs_updateIP hlv hvkind hroute hlg hvtep
  have hchanges' : Changes (vtepFootprint cfg.hashes nodeName id) k₁ k₂ :=
    ((along_updateIP cfg (some vt) subnet'
      (by rintro _ ⟨⟩; exact hvname)).of_run_ok hupdate).changes
  refine ⟨⟨true, some { br with ip := ip }, some vt⟩, k₂, ?_, ⟨rfl, ⟨_, rfl, ?_⟩, vt, rfl, ?_⟩, ?_⟩
  · have hrun : Runs (update cfg ⟨true, some br, some vt⟩ subnet') k (.ok (), _) k₂ :=
      Runs.bind (Runs.attempt hbridge) (Runs.bind (Runs.attempt hupdate) (Runs.pure _ _))
    rw [hfirst] at hrun
    exact hrun
  · have hne : br.name ∉ (vtepFootprint cfg.hashes nodeName id).names := by
      rw [hname]
      apply bridgeName_ne_vtepName
    exact ⟨hname, hfirst, _, (hchanges'.others _ hne).trans hl₁, hkind, rfl, rfl⟩
  · have hgw := (huplink.of_changes hchanges hforeign gw hroute).1
    refine ⟨hvname, hvni, hvmac, _, gw, lg, hlv₂, hvkind, rfl, ?_, ?_, ?_, ?_, ?_⟩
    · exact (hgains.1 _).mpr (.inl hip)
    · exact (hgains.1 _).mpr (.inr rfl)
    · rw [hchanges'.route]
      · exact hroute
      · intro r hr hmem
        cases hroute.symm.trans hr
        exact (hgw id).2.1 hmem
    · rw [hchanges'.others gw.1 (hgw id).2.1]
      exact hlg
    · -- the MTU is what it was, or is set to the same again
      intro hnobridge hroom
      obtain rfl | rfl := hmtu₂
      · exact hmtu hnobridge hroom
      · rw [cfg.lawful.attrs_mtu hlg hnobridge]
  · intro o hbu hvu
    simp [Backend.update, updateBridge, hfirst, hbu, hvu, bind, Except.bind]

/-- Devices that are there are deleted. -/
theorem runs_delete (cfg : Config) {h : Hashes} {be : Backend} (hpresent : Present h id be k) :
  ∃ k', Runs (delete cfg be) k (.ok (), ⟨false, none, none⟩) k' ∧ Absent h id k'
  := by
  obtain ⟨managers, bridge, vtep⟩ := be
  obtain ⟨rfl, ⟨br, l, rfl, hname, hl, hkind⟩, vt, lv, port, rfl, hvname, hlv, hvkind⟩ := hpresent
  obtain ⟨k₁, hvtep, hgone⟩ := runs_deleteVTEP cfg hlv hvkind
  have hl₁ : k₁.host.link br.name = some l := by
    rw [(changes_deleteVTEP hvname hvkind hlv hvtep).others, hl]
    rw [hname]
    apply bridgeName_ne_vtepName
  obtain ⟨k₂, hbridge, hgone'⟩ := runs_deleteBridge cfg hl₁ hkind
  refine ⟨k₂, Runs.bind (Runs.attempt hvtep) (Runs.bind (Runs.attempt hbridge) (Runs.pure _ _)),
    hname ▸ hgone', ?_⟩
  rw [(changes_deleteBridge hname hkind hl₁ hbridge).others _ (bridgeName_ne_vtepName _ _ _).symm,
    ← hvname]
  exact hgone

/-! ### Interfaces of pods -/

/-- The interface of a pod is up with its only address, and the default route goes through it. -/
def Configured (ns : Netns) (ifName : String) (podIPNet : IPNet) (gateway : IP) : Prop :=
  ∃ l, ns.link ifName = some l ∧ l.addrs = [podIPNet] ∧ l.mtu = 1500 ∧ l.up = true ∧
    ns.route = some (ifName, gateway)

/-- The other end of the interface of a pod is up and attached to the bridge of the index. -/
def Plugged (k : State) (path : String) (ns : Netns) (ifName : String) (bridge : ℕ) : Prop :=
  ∃ l suffix lh, ns.link ifName = some l ∧ l.kind = .veth "" (vethPrefix ++ suffix) ∧
    k.host.link (vethPrefix ++ suffix) = some lh ∧ lh.kind = .veth path ifName ∧ lh.up = true ∧
    k.host.master (vethPrefix ++ suffix) = some bridge

variable {s s' : System} {path ifName : String} {u : Unit}

/-- Only the namespace of the pod is changed, and left as `ns'`; no faults are added. -/
structure Leaves (path : String) (ns' : Netns) (s s' : System) : Prop where
  host : s'.system.host = s.system.host
  netns : s'.system.netns.lookup path = some ns'
  spends : Faulty.Spends s s'

theorem Leaves.trans {s'' : System} {ns'' : Netns} (h : Leaves path ns' s s')
    (h' : Leaves path ns'' s' s'') :
  Leaves path ns'' s s''
  := ⟨h'.host.trans h.host, h'.netns, trans_of Faulty.Spends h.spends h'.spends⟩

/-- A call in the namespace of a pod that answers. -/
theorem netlink_pod_ok {op : Operation IPNet IP β}
    (h : (netlink (.pod path) op).run s = .ok (.ok b) s')
    (hns : s.system.netns.lookup path = some ns) :
  ∃ ns', op ns = .ok (b, ns') ∧ Leaves path ns' s s'
  := by
  obtain ⟨ns₀, ns', hns₀, hop, hs'⟩ := perform_pod.mp (netlink_ok_ok h)
  cases hns.symm.trans hns₀
  refine ⟨ns', hop, ?_, ?_, (Faulty.along_call_spends _).of_run_ok h⟩
  · rw [hs']
  · rw [hs']
    apply AList.lookup_insert

theorem must_pod_ok {op : Operation IPNet IP β} (h : (must context (.pod path) op).run s = .ok b s')
    (hns : s.system.netns.lookup path = some ns) :
  ∃ ns', op ns = .ok (b, ns') ∧ Leaves path ns' s s'
  := by
  obtain ⟨r, s₁, hr, hcheck⟩ := bind_ok.mp h
  obtain ⟨rfl, rfl⟩ := check_ok.mp hcheck
  exact netlink_pod_ok hr hns

/-- A call that might find that something is there already, without faults. -/
theorem mustUnlessExists_ok {op : Operation IPNet IP Unit} (hcalm : s.Calm)
    (h : (mustUnlessExists context (.pod path) op).run s = .ok u s')
    (hns : s.system.netns.lookup path = some ns) (hnew : op ns ≠ .error .fileExists) :
  ∃ ns', op ns = .ok ((), ns') ∧ Leaves path ns' s s'
  := by
  obtain ⟨r, s₁, hr, h⟩ := bind_ok.mp h
  cases r with
  | ok r =>
    obtain ⟨-, rfl⟩ := pure_ok.mp h
    exact netlink_pod_ok hr hns
  | error err =>
    dsimp only at h
    split at h
    case isTrue hexists =>
      subst hexists
      have hget : s.system.get (.pod path) = some ns := hns
      cases netlink_ok hr with
      | refused hop =>
        cases hres : op ns with
        | ok r => cases (perform_of_get hget hres).symm.trans hop
        | error e =>
          cases (perform_error_of_get hget hres).symm.trans hop
          exact absurd hres hnew
      | fault hnot => exact absurd hcalm hnot
    case isFalse => exact absurd h throw_ok

/-- An address is needed by a link that has none. -/
theorem needsAddr_ok {podIPNet : IPNet} {needed : Bool}
    (h : (needsAddr path ifName podIPNet).run s = .ok needed s')
    (hns : s.system.netns.lookup path = some ns) (hl : ns.link ifName = some l)
    (hnil : l.addrs = []) :
  needed = true ∧ Leaves path ns s s'
  := by
  obtain ⟨r, s₁, hr, h⟩ := bind_ok.mp h
  cases r with
  | ok addrs =>
    obtain ⟨rfl, rfl⟩ := pure_ok.mp h
    obtain ⟨ns', hop, hleaves⟩ := netlink_pod_ok hr hns
    obtain ⟨⟨l', hl', rfl⟩, rfl⟩ := addrList_ok hop
    cases hl.symm.trans hl'
    rw [hnil]
    exact ⟨rfl, hleaves⟩
  | error err =>
    obtain ⟨rfl, rfl⟩ := pure_ok.mp h
    have hsystem := netlink_ok_error hr
    refine ⟨rfl, ?_, ?_, (Faulty.along_call_spends _).of_run_ok hr⟩
    · rw [hsystem]
    · rw [hsystem]
      exact hns

/-- An address that is added to a link without any. -/
theorem addMissingAddr_ok {podIPNet : IPNet} (hcalm : s.Calm)
    (h : (addMissingAddr cfg path ifName podIPNet true).run s = .ok u s')
    (hns : s.system.netns.lookup path = some ns) (hl : ns.link ifName = some l)
    (hnil : l.addrs = []) :
  Leaves path (ns.put ifName { l with addrs := [podIPNet] }) s s'
  := by
  have hnew : cfg.netlink.addrAdd ifName podIPNet ns ≠ .error .fileExists := by
    intro hexists
    have hmem := cfg.lawful.addrAdd_exists hl hexists
    rw [hnil] at hmem
    cases hmem
  obtain ⟨ns', hadd, hleaves⟩ := mustUnlessExists_ok hcalm h hns hnew
  obtain ⟨l', addrs, hl', hgains, rfl⟩ := cfg.lawful.addrAdd_ok hadd
  cases hl.symm.trans hl'
  rw [hgains.2 hnil] at hleaves
  exact hleaves

/-- A default route that is added to a namespace without any. -/
theorem addRoute_ok {gateway : IP} (hcalm : s.Calm)
    (h : (mustUnlessExists context (.pod path) (cfg.netlink.routeAdd ifName gateway)).run s
      = .ok u s')
    (hns : s.system.netns.lookup path = some ns) (hroute : ns.route = none) :
  Leaves path { ns with route := some (ifName, gateway) } s s'
  := by
  have hnew : cfg.netlink.routeAdd ifName gateway ns ≠ .error .fileExists := by
    intro hexists
    have hsome := cfg.lawful.routeAdd_exists hexists
    rw [hroute] at hsome
    cases hsome
  obtain ⟨ns', hadd, hleaves⟩ := mustUnlessExists_ok hcalm h hns hnew
  rw [cfg.lawful.routeAdd_ok hadd] at hleaves
  exact hleaves

/-- The interface of a pod, which is new in a namespace without default route, is configured. -/
theorem configureContainer_ok {podIPNet : IPNet} {gateway : IP} (hcalm : s.Calm)
    (h : (configureContainer cfg path 1500 ifName podIPNet gateway).run s = .ok u s')
    (hns : s.system.netns.lookup path = some ns) (hl : ns.link ifName = some l)
    (hnil : l.addrs = []) (hroute : ns.route = none) :
  ∃ ns', Leaves path ns' s s' ∧ Configured ns' ifName podIPNet gateway ∧
    (∃ l', ns'.link ifName = some l' ∧ l'.kind = l.kind) ∧ ∀ n ≠ ifName, ns'.link n = ns.link n
  := by
  obtain ⟨_, s₁, hlookup, h⟩ := bind_ok.mp h
  obtain ⟨ns₁, hop, hleaves₁⟩ := must_pod_ok hlookup hns
  obtain ⟨-, -, rfl⟩ := Netlink.linkByName_ok hop
  obtain ⟨needed, s₂, hneeds, h⟩ := bind_ok.mp h
  obtain ⟨rfl, hleaves₂⟩ := needsAddr_ok hneeds hleaves₁.netns hl hnil
  replace hleaves₂ := hleaves₁.trans hleaves₂
  obtain ⟨_, s₃, hadd, h⟩ := bind_ok.mp h
  have hleaves₃ := hleaves₂.trans
    (addMissingAddr_ok (hleaves₂.spends.calm hcalm) hadd hleaves₂.netns hl hnil)
  obtain ⟨_, s₄, hmtu, h⟩ := bind_ok.mp h
  obtain ⟨ns₄, hop, hleaves₄⟩ := must_pod_ok hmtu hleaves₃.netns
  obtain ⟨l₃, hl₃, rfl⟩ := cfg.lawful.linkSetMTU_ok hop
  cases (Namespace.link_put_self _ _ _).symm.trans hl₃
  obtain ⟨_, s₅, hup, h⟩ := bind_ok.mp h
  obtain ⟨ns₅, hop, hleaves₅⟩ := must_pod_ok hup hleaves₄.netns
  obtain ⟨l₄, hl₄, rfl⟩ := cfg.lawful.linkSetUp_ok hop
  cases (Namespace.link_put_self _ _ _).symm.trans hl₄
  replace hleaves₅ := hleaves₃.trans (hleaves₄.trans hleaves₅)
  have hleaves₆ := addRoute_ok (hleaves₅.spends.calm hcalm) h hleaves₅.netns hroute
  refine ⟨_, hleaves₅.trans hleaves₆, ⟨_, Namespace.link_put_self _ _ _, rfl, rfl, rfl, rfl⟩,
    ⟨_, Namespace.link_put_self _ _ _, rfl⟩, ?_⟩
  intro n hn
  refine (Namespace.link_put_ne _ _ hn).trans ?_
  rw [Namespace.link_put_ne _ _ hn, Namespace.link_put_ne _ _ hn]

/-- The interface of the host is attached to the bridge. -/
theorem attachHost_ok {hostIface : String} {mtu : ℤ} {bridge : ℕ}
    (h : (attachHost cfg hostIface mtu bridge).run s = .ok u s')
    (hl : s.system.host.link hostIface = some l) :
  s'.system.netns = s.system.netns ∧
    s'.system.host.link hostIface = some { l with mtu := mtu, up := true } ∧
    s'.system.host.master hostIface = some bridge
  := by
  obtain ⟨_, s₁, hlookup, h⟩ := bind_ok.mp h
  obtain ⟨-, -, hs₁⟩ := must_linkByName_ok hlookup
  rw [← hs₁] at hl ⊢
  obtain ⟨_, s₂, hmtu, h⟩ := bind_ok.mp h
  obtain ⟨ns₂, hop, hs₂⟩ := must_host_ok hmtu
  obtain ⟨l₁, hl₁, rfl⟩ := cfg.lawful.linkSetMTU_ok hop
  cases hl.symm.trans hl₁
  obtain ⟨_, s₃, hmaster, h⟩ := bind_ok.mp h
  obtain ⟨ns₃, hop, hs₃⟩ := must_host_ok hmaster
  obtain ⟨-, rfl⟩ := cfg.lawful.linkSetMaster_ok hop
  obtain ⟨ns₄, hop, hs₄⟩ := must_host_ok h
  obtain ⟨l₃, hl₃, rfl⟩ := cfg.lawful.linkSetUp_ok hop
  rw [hs₃, hs₂] at hl₃
  cases (Namespace.link_put_self _ _ _).symm.trans hl₃
  rw [hs₄, hs₃, hs₂]
  exact ⟨rfl, Namespace.link_put_self _ _ _, Function.update_self _ _ _⟩

/-- Entering a namespace that is there changes nothing. -/
theorem must_open_ok (h : (must context (.pod path) fun ns => .ok ((), ns)).run s = .ok u s') :
  ∃ ns, s.system.netns.lookup path = some ns ∧ s'.system = s.system.set (.pod path) ns ∧
    Leaves path ns s s'
  := by
  obtain ⟨ns, ns', hns, hop, hs'⟩ := perform_pod.mp (must_ok h)
  cases hop
  obtain ⟨_, ⟨⟩, hleaves⟩ := must_pod_ok h hns
  exact ⟨ns, hns, hs', hleaves⟩

theorem makePair_spends {hostIface : String} {mtu : ℤ} {suffixes : List String}
    (h : (makePair cfg path mtu ifName suffixes).run s = .ok hostIface s') :
  Faulty.Spends s s'
  := by
  have hwithin : Within (vethFootprint path Set.univ) s _ :=
    within_makePair cfg mtu ifName suffixes fun _ _ => Set.mem_univ _
  rw [final_of_ok h] at hwithin
  exact hwithin.spends

/-- When setting up the interface of a pod succeeds without faults, its name was free, it is
configured, and the other end is attached to the bridge. -/
theorem setupVeth_ok {brName : String} {suffixes : List String} {podIPNet : IPNet} {gateway : IP}
    (hcalm : s.Calm)
    (h : (setupVeth cfg path brName 1500 ifName podIPNet gateway suffixes).run s = .ok u s')
    (hl : s.system.host.link brName = some l)
    (hroute : ∀ ns, s.system.netns.lookup path = some ns → ns.link ifName = none →
      ns.route = none) :
  ∃ ns ns', s.system.netns.lookup path = some ns ∧ ns.link ifName = none ∧
    s'.system.netns.lookup path = some ns' ∧ Configured ns' ifName podIPNet gateway ∧
    Plugged s'.system path ns' ifName l.index ∧ ∀ n ≠ ifName, ns'.link n = ns.link n
  := by
  rw [setupVeth] at h
  split at h
  · exact absurd h throw_ok
  obtain ⟨brLink, s₁, hlookup, h⟩ := bind_ok.mp h
  obtain ⟨hl', -, hs₁⟩ := must_linkByName_ok hlookup
  obtain rfl := Option.some.inj (hl.symm.trans hl')
  have hcalm₁ := ((along_must (F := nothing)
    (along_linkByName cfg brName)).of_run_ok hlookup).spends.calm hcalm
  obtain ⟨_, s₂, hopen, h⟩ := bind_ok.mp h
  obtain ⟨ns, hns, -, hleaves₂⟩ := must_open_ok hopen
  rw [hs₁] at hns
  obtain ⟨hostIface, s₃, hpair, h⟩ := bind_ok.mp h
  obtain ⟨⟨suffix, -, rfl⟩, ns₂, i, j, up, hns₂, hfree, -, -, -, hs₃⟩ := makePair_ok hpair
  cases hleaves₂.netns.symm.trans hns₂
  have hcalm₃ := (makePair_spends hpair).calm (hleaves₂.spends.calm hcalm₁)
  have hns₃ : s₃.system.netns.lookup path
      = some (ns.add ifName ⟨i, .veth "" (vethPrefix ++ suffix), 1500, up, []⟩) := by
    rw [hs₃]
    apply AList.lookup_insert
  have hl₃ : s₃.system.host.link (vethPrefix ++ suffix)
      = some ⟨j, .veth path ifName, 1500, true, []⟩ := by
    rw [hs₃]
    apply Namespace.link_add_self
  obtain ⟨_, s₄, hconfigure, h⟩ := bind_ok.mp h
  obtain ⟨ns', hleaves₄, hconfigured, ⟨lc, hlc, hkind⟩, hothers⟩ := configureContainer_ok hcalm₃
    hconfigure hns₃ (Namespace.link_add_self _ _ _) rfl (hroute ns hns hfree)
  rw [← hleaves₄.host] at hl₃
  obtain ⟨hnetns, hlh, hmaster⟩ := attachHost_ok h hl₃
  refine ⟨ns, ns', hns, hfree, ?_, hconfigured,
    ⟨lc, suffix, _, hlc, hkind, hlh, rfl, rfl, hmaster⟩, ?_⟩
  · rw [hnetns]
    exact hleaves₄.netns
  · intro n hn
    exact (hothers n hn).trans (ns.link_add_ne _ hn)

theorem must_error {op : Operation IPNet IP β} {e : Error}
    (h : (must context scope op).run s = .error e s') :
  s'.system = s.system
  := by
  obtain hrun | ⟨r, s₁, hr, hcheck⟩ := bind_error.mp h
  · cases hrun
  · cases r with
    | ok b => exact absurd hcheck pure_error
    | error err =>
      obtain ⟨-, rfl⟩ := throw_error.mp hcheck
      exact netlink_ok_error hr

/-- A pair that cannot be made leaves the kernel as it was, without faults. -/
theorem makePair_error {mtu : ℤ} {suffixes : List String} {e : Error} (hcalm : s.Calm)
    (h : (makePair cfg path mtu ifName suffixes).run s = .error e s') :
  s'.system = s.system
  := by
  obtain hrun | ⟨r, s₁, hr, hcheck⟩ := bind_error.mp h
  · cases hrun
  · cases r with
    | ok b => exact absurd hcheck pure_error
    | error err =>
      obtain ⟨-, rfl⟩ := throw_error.mp hcheck
      obtain ⟨hop, rfl⟩ := EStateM.Result.ok.inj hr
      obtain heq | ⟨hfault, -⟩ := cfg.pairs.setupVeth_error (Prod.ext hop rfl)
      · exact heq
      · rw [Faulty.Calm] at hcalm
        simp [hcalm] at hfault

/-- When setting up the interface of a pod fails without faults, nothing is changed, or its name was
free. -/
theorem setupVeth_error {brName : String} {suffixes : List String} {mtu : ℤ} {podIPNet : IPNet}
    {gateway : IP} {e : Error} (hcalm : s.Calm)
    (h : (setupVeth cfg path brName mtu ifName podIPNet gateway suffixes).run s = .error e s') :
  Changes nothing s.system s'.system ∨
    ∃ ns, s.system.netns.lookup path = some ns ∧ ns.link ifName = none
  := by
  rw [setupVeth] at h
  split at h
  · obtain ⟨-, rfl⟩ := throw_error.mp h
    exact .inl (Changes.refl _ _)
  obtain h | ⟨brLink, s₁, hlookup, h⟩ := bind_error.mp h
  · rw [must_error h]
    exact .inl (Changes.refl _ _)
  obtain ⟨-, -, hs₁⟩ := must_linkByName_ok hlookup
  have hcalm₁ := ((along_must (F := nothing)
    (along_linkByName cfg brName)).of_run_ok hlookup).spends.calm hcalm
  obtain h | ⟨_, s₂, hopen, h⟩ := bind_error.mp h
  · rw [must_error h, hs₁]
    exact .inl (Changes.refl _ _)
  obtain ⟨ns, hns, hs₂, hleaves⟩ := must_open_ok hopen
  rw [hs₁] at hns hs₂
  obtain h | ⟨hostIface, s₃, hpair, -⟩ := bind_error.mp h
  · left
    rw [makePair_error (hleaves.spends.calm hcalm₁) h, hs₂]
    exact changes_set_self hns
  · right
    obtain ⟨-, ns₂, i, j, up, hns₂, hfree, -⟩ := makePair_ok hpair
    cases hleaves.netns.symm.trans hns₂
    exact ⟨ns, hns, hfree⟩

/-- Without faults, the interface of a pod is set up as it should be; or nothing is changed; or it
is left half set up under a name that was free. -/
theorem setupVeth_cases (cfg : Config) {brName : String} (suffixes : List String)
    (podIPNet : IPNet) (gateway : IP) (hl : k.host.link brName = some l)
    (hroute : ∀ ns, k.netns.lookup path = some ns → ns.link ifName = none → ns.route = none) :
  (∃ e k', Fails (setupVeth cfg path brName 1500 ifName podIPNet gateway suffixes) k e k' ∧
    (Changes nothing k k' ∨ Changes (vethFootprint path {n | k.host.link n = none}) k k' ∧
      ∃ ns, k.netns.lookup path = some ns ∧ ns.link ifName = none)) ∨
  ∃ k' ns ns', Runs (setupVeth cfg path brName 1500 ifName podIPNet gateway suffixes) k () k' ∧
    Changes (vethFootprint path {n | k.host.link n = none}) k k' ∧
    k.netns.lookup path = some ns ∧ ns.link ifName = none ∧
    k'.netns.lookup path = some ns' ∧ Configured ns' ifName podIPNet gateway ∧
    Plugged k' path ns' ifName l.index ∧ ∀ n ≠ ifName, ns'.link n = ns.link n
  := by
  have hwithin : Within (vethFootprint path {n | k.host.link n = none}) ⟨k, []⟩ (final
      (setupVeth cfg path brName 1500 ifName podIPNet gateway suffixes) ⟨k, []⟩) :=
    within_setupVeth path brName 1500 ifName podIPNet gateway suffixes fun n hn => hn
  obtain ⟨_, k', hruns, hchanges⟩ | ⟨e, k', hfails, hchanges⟩ := hwithin.runs_or_fails
  · obtain ⟨ns, ns', hns, hfree, hrest⟩ := setupVeth_ok (s := ⟨k, []⟩) rfl hruns hl hroute
    exact .inr ⟨k', ns, ns', hruns, hchanges, hns, hfree, hrest⟩
  · refine .inl ⟨e, k', hfails, ?_⟩
    apply (setupVeth_error (s := ⟨k, []⟩) rfl hfails).imp_right
    exact fun hfree => ⟨hchanges, hfree⟩

end

end Kernel

end Device
