import Misokube.Device.Footprint

/-!
# The backend over the kernel

The backend makes its calls one by one, and any of them may be refused or meet a fault.  What it
records and whether it succeeds is as in the model with outcomes (`create_refines`,
`update_refines`, `delete_refines`), provided that the links that have the names of the tenant's
devices were made for the tenant (`Owned`) and that the interface of the default route has an
address (`Uplink`).
-/

namespace Device

/-- Every call for a device succeeds. -/
def Outcomes.done : Outcomes :=
  ⟨true, true, true, true, true, true, []⟩

namespace Kernel

open Net Links Command

variable {β : Type} {s s' : System} {context : String} {scope : Scope} {b : β} {e : Error}

/-! ### Runs of calls -/

/-- A netlink call never fails: it has the answer of the kernel, or that of a fault. -/
theorem netlink_ok {op : Operation IPNet IP β} {r : Except Errno β}
    (h : (netlink scope op).run s = .ok r s') :
  Faulty.Answers (State.perform scope op) s r s'
  := by
  have hanswers := Faulty.answer_answers (State.perform scope op) s
  cases h
  exact hanswers

/-- A call that returns a value is one the kernel has done. -/
theorem netlink_ok_ok {op : Operation IPNet IP β} (h : (netlink scope op).run s = .ok (.ok b) s') :
  State.perform scope op s.system = .ok (b, s'.system)
  := by
  cases netlink_ok h with
  | done hop => exact hop

/-- A call that returns an error changes nothing. -/
theorem netlink_ok_error {op : Operation IPNet IP β} {err : Errno}
    (h : (netlink scope op).run s = .ok (.error err) s') :
  s'.system = s.system
  := by
  cases netlink_ok h with
  | refused => rfl
  | fault => rfl

theorem check_ok {r : Except Errno β} :
  (check context r).run s = .ok b s' ↔ r = .ok b ∧ s = s'
  := by
  cases r with
  | ok b' => simp [check]
  | error err => simp [check, throw_ok]

/-- A call whose error is returned has succeeded in the kernel if it returns. -/
theorem must_ok {op : Operation IPNet IP β} (h : (must context scope op).run s = .ok b s') :
  State.perform scope op s.system = .ok (b, s'.system)
  := by
  obtain ⟨r, s₁, hr, hcheck⟩ := bind_ok.mp h
  obtain ⟨rfl, rfl⟩ := check_ok.mp hcheck
  apply netlink_ok_ok hr

/-- The same in the namespace of the host. -/
theorem must_host_ok {op : Operation IPNet IP β} (h : (must context .host op).run s = .ok b s') :
  ∃ ns, op s.system.host = .ok (b, ns) ∧ s'.system = { s.system with host := ns }
  := perform_host.mp (must_ok h)

/-- A context does not matter to a command that returns. -/
theorem wrap_ok {x : Command β} :
  (wrap context x).run s = .ok b s' ↔ x.run s = .ok b s'
  := by
  rw [wrap]
  cases hrun : x.run s with
  | ok b' s₁ => rw [run_tryCatch_of_ok hrun]
  | error e s₁ => simp [run_tryCatch_of_error hrun, throw_ok]

theorem pureOr_ok {r : Except Device.Error β} :
  (pureOr r).run s = .ok b s' ↔ r = .ok b ∧ s = s'
  := by
  cases r with
  | ok b' => simp [pureOr]
  | error err => simp [pureOr, throw_ok]

theorem attempt_of_ok {x : Command β} (h : x.run s = .ok b s') :
  (attempt x).run s = .ok (.ok b) s'
  := by
  apply run_tryCatch_of_ok
  rw [EStateM.run_map, h]
  rfl

/-- An error other than a panic becomes a value. -/
theorem attempt_of_error {x : Command β} (h : x.run s = .error e s') (he : e ≠ .panicked) :
  (attempt x).run s = .ok (.error e) s'
  := by
  have hmap : (Except.ok <$> x : Command (Except Error β)).run s = .error e s' := by
    rw [EStateM.run_map, h]
    rfl
  rw [attempt, run_tryCatch_of_error hmap, if_neg he]
  rfl

/-- The value or the error of a command, and the state it leaves. -/
theorem attempt_ok {x : Command β} {r : Except Error β} (h : (attempt x).run s = .ok r s') :
  (∃ b, r = .ok b ∧ x.run s = .ok b s') ∨ ∃ e, r = .error e ∧ x.run s = .error e s'
  := by
  cases hrun : x.run s with
  | ok b s₁ =>
    cases (attempt_of_ok hrun).symm.trans h
    exact .inl ⟨b, rfl, rfl⟩
  | error e s₁ =>
    have hmap : (Except.ok <$> x : Command (Except Error β)).run s = .error e s₁ := by
      rw [EStateM.run_map, hrun]
      rfl
    rw [attempt, run_tryCatch_of_error hmap] at h
    split at h
    · exact absurd h throw_ok
    · obtain ⟨rfl, rfl⟩ := pure_ok.mp h
      exact .inr ⟨e, rfl, rfl⟩

/-! ### Panics -/

/-- The command does not panic. -/
abbrev NoPanic (x : Command β) : Prop :=
  Raises (· ≠ .panicked) x

theorem noPanic_netlink (op : Operation IPNet IP β) :
  NoPanic (netlink scope op)
  := ⟨nofun⟩

theorem noPanic_check (r : Except Errno β) :
  NoPanic (check context r)
  := by
  cases r with
  | ok b => apply Raises.pure
  | error err => apply Raises.throw nofun

theorem noPanic_must (op : Operation IPNet IP β) :
  NoPanic (must context scope op)
  := Raises.bind (noPanic_netlink op) noPanic_check

theorem noPanic_wrap {x : Command β} (h : NoPanic x) :
  NoPanic (wrap context x)
  := by
  apply Raises.tryCatch h
  intro e he
  apply Raises.throw
  rw [if_neg he]
  nofun

/-- A context never turns an error into a panic. -/
theorem wrap_error {x : Command β} (h : (wrap context x).run s = .error e s') :
  ∃ e', x.run s = .error e' s' ∧ (e = .panicked → e' = .panicked)
  := by
  rw [wrap] at h
  cases hrun : x.run s with
  | ok b s₁ =>
    rw [run_tryCatch_of_ok hrun] at h
    cases h
  | error e' s₁ =>
    rw [run_tryCatch_of_error hrun] at h
    obtain ⟨rfl, rfl⟩ := throw_error.mp h
    refine ⟨e', rfl, ?_⟩
    split
    · exact id
    · nofun

theorem noPanic_pureOr (r : Except Device.Error β) :
  NoPanic (pureOr r)
  := by
  cases r with
  | ok b => apply Raises.pure
  | error err => apply Raises.throw nofun

section

variable (cfg : Config) {name : String}

theorem noPanic_bridgeByName :
  NoPanic (bridgeByName cfg name)
  := by
  apply Raises.bind (noPanic_netlink _)
  intro r
  cases r with
  | ok l =>
    dsimp only
    split
    · apply Raises.pure
    · apply Raises.throw nofun
  | error e =>
    dsimp only
    split
    · apply Raises.bind (noPanic_must _)
      intro _
      apply noPanic_must
    · apply Raises.throw nofun

/-- Creating a bridge does not panic, whatever the kernel answers. -/
theorem noPanic_createBridge (id : String) (subnet : IPNet) :
  NoPanic (createBridge cfg id subnet)
  := by
  rw [createBridge, setupBridge_eq, ensureBridge]
  apply Raises.bind
  · apply Raises.bind
    · apply noPanic_wrap
      apply Raises.bind (noPanic_bridgeByName cfg)
      intro _
      apply Raises.bind (noPanic_pureOr _)
      intro _
      apply Raises.bind (noPanic_must _)
      intro _
      apply Raises.bind (noPanic_must _)
      intro _
      apply Raises.pure
    · intro _
      apply Raises.pure
  · intro _
    apply Raises.pure

theorem noPanic_delAddr (ignored : Errno → Bool) (a : IPNet) :
  NoPanic (delAddr cfg scope name ignored a)
  := by
  apply Raises.bind (noPanic_netlink _)
  intro r
  cases r with
  | ok u => apply Raises.pure
  | error e =>
    dsimp only
    split
    · apply Raises.pure
    · apply Raises.throw nofun

theorem noPanic_flushAddrs (ignored : Errno → Bool) :
  NoPanic (flushAddrs cfg scope name ignored)
  := by
  apply Raises.bind (noPanic_netlink _)
  intro r
  cases r with
  | error e => apply Raises.throw nofun
  | ok addrs =>
    apply Raises.forM
    intro a
    apply noPanic_delAddr

/-- Nor does moving it to another subnet. -/
theorem noPanic_updateBridgeIP (d : Option Bridge) (subnet : IPNet) :
  NoPanic (updateBridgeIP cfg d subnet)
  := by
  cases d with
  | none => apply Raises.throw nofun
  | some br =>
    apply Raises.bind (noPanic_wrap (noPanic_pureOr _))
    intro _
    apply Raises.bind (noPanic_must _)
    intro _
    apply Raises.bind (noPanic_wrap (noPanic_flushAddrs cfg _))
    intro _
    apply Raises.bind (noPanic_must _)
    intro _
    apply noPanic_must

/-- Nor does deleting it. -/
theorem noPanic_deleteBridge (d : Option Bridge) :
  NoPanic (deleteBridge cfg d)
  := by
  cases d with
  | none => apply Raises.throw nofun
  | some br =>
    apply Raises.bind (noPanic_must _)
    intro _
    apply noPanic_must

theorem noPanic_ensureVxLan (vni : ℕ) (mac : List UInt8) (dev : ℕ) (mtu : ℤ) :
  NoPanic (ensureVxLan cfg name vni mac dev mtu)
  := by
  apply Raises.bind (noPanic_netlink _)
  intro r
  cases r with
  | ok l =>
    dsimp only
    split
    · apply Raises.pure
    · apply Raises.throw nofun
  | error e =>
    dsimp only
    split
    · apply Raises.bind (noPanic_must _)
      intro _
      apply noPanic_must
    · apply Raises.throw nofun

theorem noPanic_addFirstAddr (existingAddrs : List IPNet) (a : IPNet) :
  NoPanic (addFirstAddr cfg name existingAddrs a)
  := by
  rw [addFirstAddr]
  split
  · apply noPanic_must
  · apply Raises.pure

theorem noPanic_refreshMTU (name : String) :
  NoPanic (refreshMTU cfg name)
  := by
  apply Raises.bind (noPanic_netlink _)
  intro r
  cases r with
  | ok gw => exact ⟨nofun⟩
  | error e => apply Raises.pure

/-- Moving a VTEP does not panic, also if it has no record. -/
theorem noPanic_updateIP (dv : Option VTEP) (subnet : IPNet) :
  NoPanic (updateIP cfg dv subnet)
  := by
  cases dv with
  | none => apply Raises.throw nofun
  | some vt =>
    apply Raises.bind (noPanic_must _)
    intro l
    split
    · apply Raises.bind (noPanic_refreshMTU cfg _)
      intro _
      apply Raises.bind (noPanic_must _)
      intro _
      apply Raises.bind (noPanic_must _)
      intro _
      apply Raises.pure
    · apply Raises.throw nofun

theorem noPanic_mustUnlessExists (op : Operation IPNet IP Unit) :
  NoPanic (mustUnlessExists context scope op)
  := by
  apply Raises.bind (noPanic_netlink _)
  intro r
  cases r with
  | ok u => apply Raises.pure
  | error e =>
    dsimp only
    split
    · apply Raises.pure
    · apply Raises.throw nofun

theorem noPanic_makePair (path : String) (mtu : ℤ) (ifName : String) (suffixes : List String) :
  NoPanic (makePair cfg path mtu ifName suffixes)
  := Raises.bind ⟨nofun⟩ noPanic_check

theorem noPanic_needsAddr (path ifName : String) (podIPNet : IPNet) :
  NoPanic (needsAddr path ifName podIPNet)
  := by
  apply Raises.bind (noPanic_netlink _)
  intro r
  cases r with
  | ok addrs => apply Raises.pure
  | error e => apply Raises.pure

theorem noPanic_addMissingAddr (path ifName : String) (podIPNet : IPNet) (needed : Bool) :
  NoPanic (addMissingAddr cfg path ifName podIPNet needed)
  := by
  rw [addMissingAddr]
  split
  · apply noPanic_mustUnlessExists
  · apply Raises.pure

theorem noPanic_configureContainer (path : String) (mtu : ℤ) (ifName : String) (podIPNet : IPNet)
    (gateway : IP) :
  NoPanic (configureContainer cfg path mtu ifName podIPNet gateway)
  := by
  apply Raises.bind (noPanic_must _)
  intro _
  apply Raises.bind (noPanic_needsAddr path ifName podIPNet)
  intro needed
  apply Raises.bind (noPanic_addMissingAddr cfg path ifName podIPNet needed)
  intro _
  apply Raises.bind (noPanic_must _)
  intro _
  apply Raises.bind (noPanic_must _)
  intro _
  apply noPanic_mustUnlessExists

theorem noPanic_attachHost (hostIface : String) (mtu : ℤ) (bridge : ℕ) :
  NoPanic (attachHost cfg hostIface mtu bridge)
  := by
  apply Raises.bind (noPanic_must _)
  intro _
  apply Raises.bind (noPanic_must _)
  intro _
  apply Raises.bind (noPanic_must _)
  intro _
  apply noPanic_must

/-- Setting up the interface of a pod does not panic. -/
theorem noPanic_setupVeth (netnsPath bridgeName : String) (mtu : ℤ) (ifName : String)
    (podIPNet : IPNet) (gateway : IP) (suffixes : List String) :
  NoPanic (setupVeth cfg netnsPath bridgeName mtu ifName podIPNet gateway suffixes)
  := by
  rw [setupVeth]
  split
  · apply Raises.throw (by simp)
  · apply Raises.bind (noPanic_must _)
    intro _
    apply Raises.bind (noPanic_must _)
    intro _
    apply Raises.bind (noPanic_makePair cfg netnsPath mtu ifName suffixes)
    intro _
    apply Raises.bind (noPanic_configureContainer cfg netnsPath mtu ifName podIPNet gateway)
    intro _
    apply noPanic_attachHost

/-- Deleting a VTEP does not panic, also if it has no record. -/
theorem noPanic_deleteVTEP (dv : Option VTEP) :
  NoPanic (deleteVTEP cfg dv)
  := by
  cases dv with
  | none => apply Raises.throw nofun
  | some vt =>
    apply Raises.bind (noPanic_netlink _)
    intro r
    cases r with
    | ok l => apply noPanic_must
    | error e =>
      dsimp only
      split
      · apply Raises.pure
      · apply Raises.throw nofun

end

/-- A computation that does not panic, with its error as a value, returns. -/
theorem NoPanic.attempt {x : Command β} (h : NoPanic x) (s : System) :
  ∃ r s', (attempt x).run s = .ok r s'
  := by
  cases hrun : x.run s with
  | ok b s' => exact ⟨_, _, attempt_of_ok hrun⟩
  | error e s' => exact ⟨_, _, attempt_of_error hrun (h.error s e s' hrun)⟩

/-! ### What a device operation that succeeds has done -/

section

variable {cfg : Config} {name : String} {l : Link IPNet}

/-- A link that was there, or one that is new, of the kind and with the MTU that was asked for, if
the device below has room for it. -/
def Taken (cfg : Config) (ns : Netns) (name : String) (kind : Kind) (dev : Option ℕ) (mtu : ℤ)
    (l : Link IPNet) : Prop :=
  ns.link name = some l ∨ ns.link name = none ∧ l.kind = kind ∧ l.addrs = [] ∧
    (0 < mtu → cfg.netlink.Carries ns dev mtu → l.mtu = mtu)

/-- A lookup that returns has found the link, and changed nothing. -/
theorem must_linkByName_ok {r : Link IPNet × Attrs}
    (h : (must context .host (cfg.netlink.linkByName name)).run s = .ok r s') :
  s.system.host.link name = some r.1 ∧ r.2 = cfg.netlink.attrs s.system.host name ∧
    s'.system = s.system
  := by
  obtain ⟨ns, hns, hs'⟩ := must_host_ok h
  obtain ⟨hl, hattrs, rfl⟩ := Netlink.linkByName_ok hns
  exact ⟨hl, hattrs, hs'⟩

/-- The lookup after a link is made finds the new one. -/
theorem must_linkAdd_ok {kind : Kind} {dev : Option ℕ} {mtu : ℤ} {u : Unit} {s₁ : System}
    {context' : String} {r : Link IPNet × Attrs}
    (hadd : (must context .host (cfg.netlink.linkAdd name kind dev mtu)).run s = .ok u s₁)
    (hget : (must context' .host (cfg.netlink.linkByName name)).run s₁ = .ok r s') :
  s'.system.host.link name = some r.1 ∧ r.1.kind = kind ∧
    r.2 = cfg.netlink.attrs s'.system.host name ∧
    Taken cfg s.system.host name kind dev mtu r.1
  := by
  obtain ⟨ns, hns, hs₁⟩ := must_host_ok hadd
  obtain ⟨hnone, -, i, m, -, hm, rfl⟩ := cfg.lawful.linkAdd_ok hns
  obtain ⟨hl, hattrs, hs'⟩ := must_linkByName_ok hget
  rw [hs'] at *
  refine ⟨hl, ?_⟩
  rw [hs₁] at hl
  have heq := Option.some.inj ((Namespace.link_add_self _ _ _).symm.trans hl)
  rw [← heq]
  exact ⟨rfl, hattrs, .inr ⟨hnone, rfl, rfl, hm⟩⟩

/-- The bridge was there, or was made. -/
theorem bridgeByName_ok {r : Link IPNet × Attrs} (h : (bridgeByName cfg name).run s = .ok r s') :
  s'.system.host.link name = some r.1 ∧ r.1.kind = .bridge ∧
    Taken cfg s.system.host name .bridge none 0 r.1
  := by
  obtain ⟨r₀, s₁, hlookup, h⟩ := bind_ok.mp h
  cases r₀ with
  | ok l₀ =>
    dsimp only at h
    split at h
    case isTrue hkind =>
      obtain ⟨rfl, rfl⟩ := pure_ok.mp h
      obtain ⟨ns, hns, hs₁⟩ := perform_host.mp (netlink_ok_ok hlookup)
      obtain ⟨hl, -, rfl⟩ := Netlink.linkByName_ok hns
      rw [hs₁]
      exact ⟨hl, hkind, .inl hl⟩
    case isFalse => exact absurd h throw_ok
  | error err =>
    dsimp only at h
    split at h
    · obtain ⟨u, s₂, hadd, hget⟩ := bind_ok.mp h
      obtain ⟨hl, hkind, -, htaken⟩ := must_linkAdd_ok hadd hget
      rw [netlink_ok_error hlookup] at htaken
      exact ⟨hl, hkind, htaken⟩
    · exact absurd h throw_ok

/-- An address that was replaced is one of the link. -/
theorem must_addrReplace_ok {a : IPNet} {u : Unit}
    (h : (must context .host (cfg.netlink.addrReplace name a)).run s = .ok u s')
    (hl : s.system.host.link name = some l) :
  ∃ addrs, Gains a l.addrs addrs ∧ s'.system.host.link name = some { l with addrs := addrs }
  := by
  obtain ⟨ns, hns, hs'⟩ := must_host_ok h
  obtain ⟨l', addrs, hl', hgains, rfl⟩ := cfg.lawful.addrReplace_ok hns
  cases hl.symm.trans hl'
  rw [hs']
  exact ⟨addrs, hgains, Namespace.link_put_self _ _ _⟩

/-- A link that was set up is up. -/
theorem must_linkSetUp_ok {u : Unit}
    (h : (must context .host (cfg.netlink.linkSetUp name)).run s = .ok u s')
    (hl : s.system.host.link name = some l) :
  s'.system.host.link name = some { l with up := true }
  := by
  obtain ⟨ns, hns, hs'⟩ := must_host_ok h
  obtain ⟨l', hl', rfl⟩ := cfg.lawful.linkSetUp_ok hns
  cases hl.symm.trans hl'
  rw [hs']
  apply Namespace.link_put_self

/-- The bridge that is recorded was there or was made; it is up, and has the first address of the
subnet among its addresses. -/
theorem createBridge_ok {id : String} {subnet : IPNet} {br : Bridge}
    (h : (createBridge cfg id subnet).run s = .ok br s') :
  ∃ (l : Link IPNet) (addrs : List IPNet), l.kind = .bridge ∧ br.name = bridgeName cfg.hashes id ∧
    firstIP subnet = .ok br.ip ∧
    Taken cfg s.system.host (bridgeName cfg.hashes id) .bridge none 0 l ∧
    Gains br.ip l.addrs addrs ∧
    s'.system.host.link (bridgeName cfg.hashes id) = some { l with addrs := addrs, up := true }
  := by
  rw [createBridge, setupBridge_eq] at h
  obtain ⟨r, s₁, hsetup, h⟩ := bind_ok.mp h
  obtain ⟨rfl, rfl⟩ := pure_ok.mp h
  obtain ⟨⟨l, ip⟩, s₂, hensure, h⟩ := bind_ok.mp hsetup
  obtain ⟨rfl, rfl⟩ := pure_ok.mp h
  obtain ⟨l', s₃, hget, h⟩ := bind_ok.mp (wrap_ok.mp hensure)
  obtain ⟨hl, hkind, htaken⟩ := bridgeByName_ok hget
  obtain ⟨ip', s₄, hip, h⟩ := bind_ok.mp h
  obtain ⟨hfirst, rfl⟩ := pureOr_ok.mp hip
  obtain ⟨_, s₅, haddr, h⟩ := bind_ok.mp h
  obtain ⟨addrs, hgains, hl₅⟩ := must_addrReplace_ok haddr hl
  obtain ⟨_, s₆, hup, h⟩ := bind_ok.mp h
  obtain ⟨heq, rfl⟩ := pure_ok.mp h
  cases heq
  exact ⟨l.1, addrs, hkind, rfl, hfirst, htaken, hgains, must_linkSetUp_ok hup hl₅⟩

/-- A VTEP with the identifier and hardware address, made by the code or found, reports that
address. -/
theorem ensureVxLan_ok {vni dev : ℕ} {mac : List UInt8} {mtu : ℤ} {r : Link IPNet × Attrs}
    (hown : ∀ l, s.system.host.link name = some l → ∃ port, l.kind = .vxlan vni port mac)
    (h : (ensureVxLan cfg name vni mac dev mtu).run s = .ok r s') :
  s'.system.host.link name = some r.1 ∧ (∃ port, r.1.kind = .vxlan vni port mac) ∧ r.2.mac = mac ∧
    Taken cfg s.system.host name (.vxlan vni vxlanPort mac) (some dev) mtu r.1
  := by
  obtain ⟨r₀, s₁, hlookup, h⟩ := bind_ok.mp h
  cases r₀ with
  | ok l₀ =>
    obtain ⟨ns, hns, hs₁⟩ := perform_host.mp (netlink_ok_ok hlookup)
    obtain ⟨hl, hattrs, rfl⟩ := Netlink.linkByName_ok hns
    dsimp only at h
    split at h
    · obtain ⟨rfl, rfl⟩ := pure_ok.mp h
      obtain ⟨port, hkind⟩ := hown l₀.1 hl
      rw [hs₁]
      exact ⟨hl, ⟨port, hkind⟩, hattrs ▸ cfg.lawful.attrs_vxlan hl hkind, .inl hl⟩
    · exact absurd h throw_ok
  | error err =>
    dsimp only at h
    split at h
    · obtain ⟨u, s₂, hadd, hget⟩ := bind_ok.mp h
      obtain ⟨hl, hkind, hattrs, htaken⟩ := must_linkAdd_ok hadd hget
      rw [netlink_ok_error hlookup] at htaken
      exact ⟨hl, ⟨vxlanPort, hkind⟩, hattrs ▸ cfg.lawful.attrs_vxlan hl hkind, htaken⟩
    · exact absurd h throw_ok

/-- The addresses that are listed are those of the link. -/
theorem addrList_must_ok {addrs : List IPNet}
    (h : (must context .host (addrList name)).run s = .ok addrs s') :
  (∃ l, s.system.host.link name = some l ∧ l.addrs = addrs) ∧ s'.system = s.system
  := by
  obtain ⟨ns, hns, hs'⟩ := must_host_ok h
  obtain ⟨hl, rfl⟩ := addrList_ok hns
  exact ⟨hl, hs'⟩

/-- What `newVxlanDevice` finds out before it looks for the link. -/
theorem newVxlanDevice_ok {vni : ℕ} {mac : List UInt8} {r : Link IPNet × Attrs}
    (h : (newVxlanDevice cfg name vni mac).run s = .ok r s') :
  ∃ gw lg s₁, s.system.host.route = some gw ∧ s.system.host.link gw.1 = some lg ∧
    s₁.system = s.system ∧ (ensureVxLan cfg name vni mac lg.index
      ((cfg.netlink.attrs s.system.host gw.1).mtu - encapOverhead)).run s₁ = .ok r s'
  := by
  obtain ⟨⟨gateway, lg, attrs⟩, s₁, hgateway, h⟩ := bind_ok.mp h
  obtain ⟨ns, hns, hs₁⟩ := must_host_ok hgateway
  obtain ⟨⟨g, hroute⟩, hlg, hattrs, rfl⟩ := defaultGateway_ok hns
  dsimp only at hattrs
  subst hattrs
  obtain ⟨localhosts, s₂, haddrs, h⟩ := bind_ok.mp h
  obtain ⟨-, hs₂⟩ := addrList_must_ok haddrs
  split at h
  · exact absurd h throw_ok
  · exact ⟨(gateway, g), lg, s₂, hroute, hlg, hs₂.trans hs₁, h⟩

/-- A link without addresses gets one; any other keeps those it has. -/
theorem addFirstAddr_ok {a : IPNet} {u : Unit}
    (h : (addFirstAddr cfg name l.addrs a).run s = .ok u s')
    (hl : s.system.host.link name = some l) :
  s'.system.host.link name = some { l with addrs := if l.addrs = [] then [a] else l.addrs }
  := by
  rw [addFirstAddr] at h
  split at h
  case isTrue hnil =>
    obtain ⟨ns, hns, hs'⟩ := must_host_ok h
    obtain ⟨l', addrs, hl', hgains, rfl⟩ := cfg.lawful.addrAdd_ok hns
    cases hl.symm.trans hl'
    rw [hs', if_pos hnil, ← hgains.2 hnil]
    apply Namespace.link_put_self
  case isFalse hne =>
    obtain ⟨-, rfl⟩ := pure_ok.mp h
    rw [if_neg hne]
    exact hl

/-- The device that `SetupVxlan` has made or found, and the link of the default route it lies on. -/
theorem setupVxlan_ok {id nodeName : String} {subnet : IPNet}
    {r : String × (Link IPNet × Attrs) × IPNet}
    (hown : ∀ l, s.system.host.link (vtepName cfg.hashes id) = some l →
      ∃ port, l.kind = .vxlan (vni cfg.hashes id) port (vtepMAC cfg.hashes id nodeName))
    (h : (setupVxlan cfg subnet id nodeName).run s = .ok r s') :
  ∃ (l : Link IPNet) (attrs : Attrs) (gw : String × IP) (lg : Link IPNet),
    (∃ port, l.kind = .vxlan (vni cfg.hashes id) port (vtepMAC cfg.hashes id nodeName)) ∧
    attrs.mac = vtepMAC cfg.hashes id nodeName ∧
    r = (vtepName cfg.hashes id, (l, attrs), vtepAddr subnet) ∧
    s.system.host.route = some gw ∧ s.system.host.link gw.1 = some lg ∧
    Taken cfg s.system.host (vtepName cfg.hashes id)
      (.vxlan (vni cfg.hashes id) vxlanPort (vtepMAC cfg.hashes id nodeName)) (some lg.index)
      ((cfg.netlink.attrs s.system.host gw.1).mtu - encapOverhead) l ∧
    s'.system.host.link (vtepName cfg.hashes id) = some { l with
      addrs := if l.addrs = [] then [vtepAddr subnet] else l.addrs, up := true }
  := by
  rw [setupVxlan_eq] at h
  obtain ⟨⟨l, attrs⟩, s₂, hdevice, h⟩ := bind_ok.mp h
  obtain ⟨gw, lg, s₀, hroute, hlg, hs₀, hensure⟩ := newVxlanDevice_ok (wrap_ok.mp hdevice)
  obtain ⟨hl, hkind, hmac, htaken⟩ := ensureVxLan_ok (by rwa [hs₀]) hensure
  rw [hs₀] at htaken
  obtain ⟨addrs, s₃, haddrs, h⟩ := bind_ok.mp h
  obtain ⟨⟨l', hl', rfl⟩, hs₃⟩ := addrList_must_ok haddrs
  cases hl.symm.trans hl'
  obtain ⟨_, s₄, hfirst, h⟩ := bind_ok.mp h
  obtain ⟨_, s₅, hup, h⟩ := bind_ok.mp h
  obtain ⟨rfl, rfl⟩ := pure_ok.mp h
  exact ⟨l, attrs, gw, lg, hkind, hmac, rfl, hroute, hlg, htaken,
    must_linkSetUp_ok hup (addFirstAddr_ok hfirst (by rwa [hs₃]))⟩

/-- The VTEP that is recorded was there or was made, as other nodes expect it, and is up.  It
has the address that is recorded if it had none before. -/
theorem createVTEP_ok {id nodeName : String} {subnet : IPNet} {vt : VTEP}
    (hown : ∀ l, s.system.host.link (vtepName cfg.hashes id) = some l →
      ∃ port, l.kind = .vxlan (vni cfg.hashes id) port (vtepMAC cfg.hashes id nodeName))
    (h : (createVTEP cfg id subnet nodeName).run s = .ok vt s') :
  vt = ⟨vtepName cfg.hashes id, vtepAddr subnet, vtepMAC cfg.hashes id nodeName,
      vni cfg.hashes id⟩ ∧
    ∃ (l : Link IPNet) (gw : String × IP) (lg : Link IPNet),
      (∃ port, l.kind = .vxlan (vni cfg.hashes id) port (vtepMAC cfg.hashes id nodeName)) ∧
      s.system.host.route = some gw ∧ s.system.host.link gw.1 = some lg ∧
      Taken cfg s.system.host (vtepName cfg.hashes id)
        (.vxlan (vni cfg.hashes id) vxlanPort (vtepMAC cfg.hashes id nodeName)) (some lg.index)
        ((cfg.netlink.attrs s.system.host gw.1).mtu - encapOverhead) l ∧
      s'.system.host.link (vtepName cfg.hashes id) = some { l with
        addrs := if l.addrs = [] then [vtepAddr subnet] else l.addrs, up := true }
  := by
  obtain ⟨r, s₁, hsetup, h⟩ := bind_ok.mp h
  obtain ⟨l, attrs, gw, lg, ⟨port, hkind⟩, hmac, rfl, hfacts⟩ := setupVxlan_ok hown hsetup
  dsimp only at h
  rw [hkind, hmac] at h
  obtain ⟨rfl, rfl⟩ := pure_ok.mp h
  exact ⟨rfl, l, gw, lg, ⟨port, hkind⟩, hfacts⟩

/-- The pair of a request that succeeds. -/
theorem makePair_ok {path ifName hostIface : String} {mtu : ℤ} {suffixes : List String}
    (h : (makePair cfg path mtu ifName suffixes).run s = .ok hostIface s') :
  (∃ suffix ∈ suffixes, hostIface = vethPrefix ++ suffix) ∧
    Paired path ifName hostIface mtu true s.system s'.system
  := by
  obtain ⟨r, s₁, hrequest, hcheck⟩ := bind_ok.mp h
  obtain ⟨rfl, rfl⟩ := check_ok.mp hcheck
  obtain ⟨hr, rfl⟩ := EStateM.Result.ok.inj hrequest
  exact cfg.pairs.setupVeth_ok (Prod.ext hr rfl)

end

/-! ### Links that are deleted -/

section

variable {cfg : Config} {F : Footprint}

/-- Deleting a bridge touches nothing else, if it is not one end of a pair. -/
theorem within_deleteBridge {d : Option Bridge} (hname : ∀ br ∈ d, br.name ∈ F.names)
    (hdel : ∀ br ∈ d, br.name ∈ F.deletes)
    (hsingle : ∀ br ∈ d, ∀ l, s.system.host.link br.name = some l → l.Single) :
  Within F s (final (deleteBridge cfg d) s)
  := by
  cases d with
  | none => apply (Along.throw (Within.refl F) _).rel
  | some br =>
    apply rel_bind ((along_must (along_linkByName cfg br.name)).rel s)
    intro l s' hlookup
    obtain ⟨-, -, hs'⟩ := must_linkByName_ok hlookup
    apply within_must (within_linkDel cfg (hname br rfl) (hdel br rfl) ?_)
    rw [hs']
    exact hsingle br rfl

/-- Deleting a VTEP touches nothing else, if it is not one end of a pair. -/
theorem within_deleteVTEP {dv : Option VTEP} (hname : ∀ vt ∈ dv, vt.name ∈ F.names)
    (hdel : ∀ vt ∈ dv, vt.name ∈ F.deletes)
    (hsingle : ∀ vt ∈ dv, ∀ l, s.system.host.link vt.name = some l → l.Single) :
  Within F s (final (deleteVTEP cfg dv) s)
  := by
  cases dv with
  | none => apply (Along.throw (Within.refl F) _).rel
  | some vt =>
    apply rel_bind ((along_linkByName cfg vt.name).rel s)
    intro r s' hlookup
    cases r with
    | ok l =>
      obtain ⟨ns, hns, hs'⟩ := perform_host.mp (netlink_ok_ok hlookup)
      obtain ⟨-, -, rfl⟩ := Netlink.linkByName_ok hns
      apply within_must (within_linkDel cfg (hname vt rfl) (hdel vt rfl) ?_)
      rw [hs']
      exact hsingle vt rfl
    | error e =>
      dsimp only
      split
      · apply (Along.pure (Within.refl F) _).rel
      · apply (Along.throw (Within.refl F) _).rel

/-- The interface of a pod is set up within its footprint: the name on the host was free. -/
theorem within_setupVeth {free : Set String} (netnsPath bridgeName : String) (mtu : ℤ)
    (ifName : String) (podIPNet : IPNet) (gateway : IP) (suffixes : List String)
    (hfree : ∀ n, s.system.host.link n = none → n ∈ free) :
  Within (vethFootprint netnsPath free) s
    (final (setupVeth cfg netnsPath bridgeName mtu ifName podIPNet gateway suffixes) s)
  := by
  rw [setupVeth]
  split
  · apply (Along.throw (Within.refl _) _).rel
  · apply rel_bind ((along_must (along_linkByName cfg bridgeName)).rel s)
    intro brLink s₁ hlookup
    obtain ⟨-, -, hs₁⟩ := must_linkByName_ok hlookup
    apply rel_bind ((along_must (along_pod rfl _)).rel s₁)
    intro _ s₂ hopen
    obtain ⟨ns, ns', -, -, hs₂⟩ := perform_pod.mp (must_ok hopen)
    have hhost : s₂.system.host = s.system.host := by
      rw [hs₂, hs₁]
    apply rel_bind (within_makePair cfg mtu ifName suffixes (by rwa [hhost]))
    intro hostIface s₃ hpair
    obtain ⟨⟨suffix, -, hname⟩, -, -, -, -, -, -, hnone, -⟩ := makePair_ok hpair
    rw [hhost] at hnone
    apply rel_bind ((along_configureContainer cfg mtu ifName podIPNet gateway rfl).rel s₃)
    intro _ s₄ _
    have hmem : hostIface ∈ (vethFootprint netnsPath free).names := ⟨hfree _ hnone, suffix, hname⟩
    apply (along_attachHost cfg mtu brLink.1.index hmem).rel

end

/-! ### Links and their tenants -/

/-- The links that have the names of the tenant's devices were made for the tenant. -/
structure Owned (h : Hashes) (nodeName id : String) (k : State) : Prop where
  bridge : ∀ l, k.host.link (bridgeName h id) = some l → l.kind = .bridge
  vtep : ∀ l, k.host.link (vtepName h id) = some l →
    ∃ port, l.kind = .vxlan (vni h id) port (vtepMAC h id nodeName)

/-- Links of these names may be made for the tenant. -/
def Fits (h : Hashes) (nodeName id : String) (name : String) (kind : Kind) : Prop :=
  (name = bridgeName h id → kind = .bridge) ∧
    (name = vtepName h id → ∃ port, kind = .vxlan (vni h id) port (vtepMAC h id nodeName))

/-- Links of other tenants and of pods do not take the names of the tenant. -/
theorem Owned.of_changes {h : Hashes} {nodeName id : String} {F : Footprint} {k k' : State}
    (hown : Owned h nodeName id k) (hchanges : Changes F k k')
    (hnew : ∀ name kind, F.new name kind → Fits h nodeName id name kind) :
  Owned h nodeName id k'
  := by
  constructor
  · intro l' hl'
    obtain ⟨l, hl, hsame⟩ | hmade := hchanges.origin _ l' hl'
    · rw [hsame.kind]
      apply hown.bridge l hl
    · apply (hnew _ _ hmade).1 rfl
  · intro l' hl'
    obtain ⟨l, hl, hsame⟩ | hmade := hchanges.origin _ l' hl'
    · rw [hsame.kind]
      apply hown.vtep l hl
    · apply (hnew _ _ hmade).2 rfl

/-- Not a name of a device that is made for a tenant or a pod. -/
def Foreign (h : Hashes) (name : String) : Prop :=
  ∀ id, name ≠ bridgeName h id ∧ name ≠ vtepName h id ∧ name ≠ vethPrefix ++ id

/-- The interface of the default route is there, is none of the devices made here, and has an
address. -/
def Uplink (h : Hashes) (k : State) : Prop :=
  ∀ r ∈ k.host.route, Foreign h r.1 ∧ ∃ l, k.host.link r.1 = some l ∧ l.addrs ≠ [] ∧ l.Single

/-- What is done to devices made here leaves the uplink alone. -/
theorem Uplink.of_changes {h : Hashes} {F : Footprint} {k k' : State} (huplink : Uplink h k)
    (hchanges : Changes F k k') (hnames : ∀ name ∈ F.names, ¬ Foreign h name) :
  Uplink h k'
  := by
  have hroute := hchanges.route fun r hr hname => hnames _ hname (huplink r hr).1
  intro r hr
  rw [hroute] at hr
  obtain ⟨hforeign, l, hl, haddrs⟩ := huplink r hr
  refine ⟨hforeign, l, ?_, haddrs⟩
  rw [hchanges.others r.1 fun hname => hnames _ hname hforeign]
  exact hl

/-- The source address of a VTEP is there. -/
theorem newVxlanDevice_noPanic {cfg : Config} {h : Hashes} {name : String} {vni : ℕ}
    {mac : List UInt8} (huplink : Uplink h s.system)
    (herror : (newVxlanDevice cfg name vni mac).run s = .error e s') :
  e ≠ .panicked
  := by
  obtain herror | ⟨gateway, s₁, hgateway, herror⟩ := bind_error.mp herror
  · apply (noPanic_must _).error _ _ _ herror
  obtain ⟨ns, hns, hs₁⟩ := must_host_ok hgateway
  obtain ⟨⟨g, hroute⟩, -, -, rfl⟩ := defaultGateway_ok hns
  obtain herror | ⟨localhosts, s₂, haddrs, herror⟩ := bind_error.mp herror
  · apply (noPanic_must _).error _ _ _ herror
  obtain ⟨⟨l', hl', rfl⟩, -⟩ := addrList_must_ok haddrs
  rw [hs₁] at hl'
  obtain ⟨-, l, hl, haddrs, -⟩ := huplink _ hroute
  cases hl.symm.trans hl'
  rw [if_neg haddrs] at herror
  apply (noPanic_ensureVxLan cfg _ _ _ _).error _ _ _ herror

/-- The code for a VTEP panics neither for want of a source address nor for a link of another
kind. -/
theorem createVTEP_noPanic {cfg : Config} {id nodeName : String} {subnet : IPNet}
    (huplink : Uplink cfg.hashes s.system) (hown : Owned cfg.hashes nodeName id s.system)
    (herror : (createVTEP cfg id subnet nodeName).run s = .error e s') :
  e ≠ .panicked
  := by
  obtain herror | ⟨r, s₁, hsetup, herror⟩ := bind_error.mp herror
  · rw [setupVxlan_eq] at herror
    obtain herror | ⟨l, s₂, -, herror⟩ := bind_error.mp herror
    · obtain ⟨e', herror', he⟩ := wrap_error herror
      intro hpanicked
      apply newVxlanDevice_noPanic huplink herror' (he hpanicked)
    · apply (Raises.bind (noPanic_must _) _).error _ _ _ herror
      intro addrs
      apply Raises.bind (noPanic_addFirstAddr cfg addrs _)
      intro _
      apply Raises.bind (noPanic_must _)
      intro _
      apply Raises.pure
  · obtain ⟨l, attrs, -, -, ⟨port, hkind⟩, -, rfl, -⟩ := setupVxlan_ok hown.vtep hsetup
    dsimp only at herror
    rw [hkind] at herror
    exact absurd herror pure_error

/-! ### The backend -/

def bridgeFootprint (h : Hashes) (id : String) : Footprint where
  names := {bridgeName h id}
  deletes := ∅
  paths := ∅
  new name kind := name = bridgeName h id ∧ kind = .bridge

def vtepFootprint (h : Hashes) (nodeName id : String) : Footprint where
  names := {vtepName h id}
  deletes := ∅
  paths := ∅
  new name kind := name = vtepName h id ∧ kind = .vxlan (vni h id) vxlanPort (vtepMAC h id nodeName)

/-- What the operations of a backend may change: the devices of its tenant. -/
def tenantFootprint (h : Hashes) (nodeName id : String) : Footprint where
  names := {bridgeName h id, vtepName h id}
  deletes := {bridgeName h id, vtepName h id}
  paths := ∅
  new name kind := (name = bridgeName h id ∧ kind = .bridge) ∨
    (name = vtepName h id ∧ kind = .vxlan (vni h id) vxlanPort (vtepMAC h id nodeName))

/-- The devices are there, under the names of the tenant; the VTEP is as it is recorded. -/
structure Present (h : Hashes) (id : String) (be : Backend) (k : State) : Prop where
  managers : be.managers = true
  bridge : ∃ br l, be.bridge = some br ∧ br.name = bridgeName h id ∧
    k.host.link br.name = some l ∧ l.kind = .bridge
  vtep : ∃ vt l port, be.vtep = some vt ∧ vt.name = vtepName h id ∧
    k.host.link vt.name = some l ∧ l.kind = .vxlan vt.vni port vt.mac

section

variable {cfg : Config} {nodeName id : String}

/-- Creating the bridge of a tenant, with its own footprint. -/
theorem along_createBridge_bridge (subnet : IPNet) :
  Along (Within (bridgeFootprint cfg.hashes id)) (createBridge cfg id subnet)
  := along_createBridge cfg id subnet rfl ⟨rfl, rfl⟩

/-- Creating the VTEP of a tenant, with its own footprint. -/
theorem along_createVTEP_vtep (subnet : IPNet) :
  Along (Within (vtepFootprint cfg.hashes nodeName id)) (createVTEP cfg id subnet nodeName)
  := along_createVTEP cfg id subnet nodeName rfl ⟨rfl, rfl⟩

/-- The bridge is one of the devices of its tenant. -/
theorem bridgeFootprint_le (h : Hashes) (nodeName id : String) :
  (bridgeFootprint h id).Le (tenantFootprint h nodeName id)
  := ⟨by rintro _ rfl; exact Or.inl rfl, Set.empty_subset _, Set.empty_subset _, fun _ _ => Or.inl⟩

/-- The VTEP is one of the devices of its tenant. -/
theorem vtepFootprint_le (h : Hashes) (nodeName id : String) :
  (vtepFootprint h nodeName id).Le (tenantFootprint h nodeName id)
  := ⟨by rintro _ rfl; exact Or.inr rfl, Set.empty_subset _, Set.empty_subset _, fun _ _ => Or.inr⟩

/-- If the VTEP cannot be made, the link that is deleted is the bridge. -/
theorem within_create (be : Backend) (subnet : IPNet) (s : System) :
  Within (tenantFootprint cfg.hashes nodeName id) s (final (create cfg be id subnet nodeName) s)
  := by
  apply rel_bind (((along_createBridge_bridge subnet).rel s).mono (bridgeFootprint_le _ _ _))
  intro br s₁ hbr
  obtain ⟨l, addrs, hkind, hname, -, -, -, hl⟩ := createBridge_ok hbr
  have hvtep : Along (Within (vtepFootprint cfg.hashes nodeName id))
      (attempt (createVTEP cfg id subnet nodeName)) :=
    along_attempt (along_createVTEP_vtep subnet)
  apply rel_bind ((hvtep.rel s₁).mono (vtepFootprint_le _ _ _))
  intro r s₂ hr
  cases r with
  | ok vt => apply (Along.pure (Within.refl _) _).rel
  | error e =>
    apply rel_bind
    · apply within_deleteBridge
      · rintro _ ⟨⟩
        exact Or.inl hname
      · rintro _ ⟨⟩
        exact Or.inl hname
      · rintro _ ⟨⟩ l' hl'
        obtain ⟨l₂, hl₂, hsame⟩ := (hvtep.of_run_ok hr).changes.kept _ (Set.notMem_empty _) _ hl
        rw [hname] at hl'
        cases hl₂.symm.trans hl'
        intro netns peer
        simp [hsame.kind, hkind]
    · intro _ s₃ _
      apply (Along.throw (Within.refl _) _).rel

/-- The VTEP is still the tenant's own after the bridge is made. -/
theorem Owned.after_createBridge {subnet : IPNet} {br : Bridge}
    (hown : Owned cfg.hashes nodeName id s.system)
    (hbr : (createBridge cfg id subnet).run s = .ok br s') :
  Owned cfg.hashes nodeName id s'.system
  := by
  apply hown.of_changes ((along_createBridge_bridge subnet).of_run_ok hbr).changes
  rintro name kind ⟨rfl, rfl⟩
  refine ⟨fun _ => rfl, ?_⟩
  intro hname
  exact absurd hname (bridgeName_ne_vtepName _ _ _)

/-- A new bridge is not the uplink. -/
theorem Uplink.after_createBridge {subnet : IPNet} {br : Bridge}
    (huplink : Uplink cfg.hashes s.system)
    (hbr : (createBridge cfg id subnet).run s = .ok br s') :
  Uplink cfg.hashes s'.system
  := by
  apply huplink.of_changes ((along_createBridge_bridge subnet).of_run_ok hbr).changes
  rintro name rfl hforeign
  exact (hforeign id).1 rfl

/-- Creating the devices does not panic, since the uplink has an address and a link that has the
name of the VTEP is one. -/
theorem create_noPanic {be : Backend} {subnet : IPNet} (huplink : Uplink cfg.hashes s.system)
    (hown : Owned cfg.hashes nodeName id s.system)
    (herror : (create cfg be id subnet nodeName).run s = .error e s') :
  e ≠ .panicked
  := by
  obtain herror | ⟨br, s₁, hbr, herror⟩ := bind_error.mp herror
  · apply (noPanic_createBridge cfg id subnet).error _ _ _ herror
  have hvtep : ∀ {e s₂}, (createVTEP cfg id subnet nodeName).run s₁ = .error e s₂ → e ≠ .panicked :=
    createVTEP_noPanic (huplink.after_createBridge hbr) (hown.after_createBridge hbr)
  obtain herror | ⟨r, s₂, hr, herror⟩ := bind_error.mp herror
  · cases hrun : (createVTEP cfg id subnet nodeName).run s₁ with
    | ok vt s₂ =>
      rw [attempt_of_ok hrun] at herror
      cases herror
    | error e₂ s₂ =>
      rw [attempt_of_error hrun (hvtep hrun)] at herror
      cases herror
  · obtain ⟨vt, rfl, -⟩ | ⟨e₂, rfl, hrun⟩ := attempt_ok hr
    · exact absurd herror pure_error
    · obtain herror | ⟨u, s₃, -, herror⟩ := bind_error.mp herror
      · apply (noPanic_deleteBridge cfg _).error _ _ _ herror
      · obtain ⟨rfl, -⟩ := throw_error.mp herror
        apply hvtep hrun

/-- A backend that is made has recorded what the kernel has. -/
theorem create_ok {subnet : IPNet} {be : Backend} (hown : Owned cfg.hashes nodeName id s.system)
    (h : (create cfg newBridgeVTEPBackend id subnet nodeName).run s = .ok be s') :
  Present cfg.hashes id be s'.system ∧
    ∃ o, newBridgeVTEPBackend.create cfg.hashes o id subnet nodeName = (.ok (), be)
  := by
  obtain ⟨br, s₁, hbr, h⟩ := bind_ok.mp h
  obtain ⟨r, s₂, hr, h⟩ := bind_ok.mp h
  obtain ⟨vt, rfl, hvt⟩ | ⟨e, rfl, -⟩ := attempt_ok hr
  · obtain ⟨rfl, rfl⟩ := pure_ok.mp h
    obtain ⟨l, addrs, hkind, hname, hfirst, -, -, hl⟩ := createBridge_ok hbr
    obtain ⟨rfl, l', -, -, ⟨port, hkind'⟩, -, -, -, hl'⟩ :=
      createVTEP_ok (hown.after_createBridge hbr).vtep hvt
    constructor
    · constructor
      · rfl
      · -- the VTEP is made without changing the bridge
        have hothers := ((along_createVTEP_vtep subnet).of_run_ok hvt).changes.others
          (bridgeName cfg.hashes id) (bridgeName_ne_vtepName _ _ _)
        rw [hl, ← hname] at hothers
        exact ⟨br, _, rfl, hname, hothers, hkind⟩
      · exact ⟨_, _, port, rfl, rfl, hl', hkind'⟩
    · use { Outcomes.done with bridgeMAC := br.mac }
      simp [Outcomes.done, Backend.create, Device.createBridge, Device.createVTEP,
        generateDeviceName_bridge, generateDeviceName_vtep, hfirst, bind, Except.bind, vtepAddr,
        newBridgeVTEPBackend, ← hname]
  · obtain ⟨_, s₃, -, h⟩ := bind_ok.mp h
    exact absurd h throw_ok

/-- Making the devices, call by call, records what the model with outcomes records. -/
theorem create_refines (huplink : Uplink cfg.hashes s.system)
    (hown : Owned cfg.hashes nodeName id s.system) (subnet : IPNet) :
  ∃ r s', (attempt (create cfg newBridgeVTEPBackend id subnet nodeName)).run s = .ok r s' ∧
    Changes (tenantFootprint cfg.hashes nodeName id) s.system s'.system ∧
    ∃ o, (∃ be, r = .ok be ∧ Present cfg.hashes id be s'.system ∧
        newBridgeVTEPBackend.create cfg.hashes o id subnet nodeName = (.ok (), be)) ∨
      ∃ e e', r = .error e ∧
        newBridgeVTEPBackend.create cfg.hashes o id subnet nodeName =
          (.error e', newBridgeVTEPBackend)
  := by
  have hchanges : Within (tenantFootprint cfg.hashes nodeName id) s
      (final (create cfg _ _ _ _) s) :=
    within_create newBridgeVTEPBackend subnet s
  rw [final] at hchanges
  cases hrun : (create cfg newBridgeVTEPBackend id subnet nodeName).run s with
  | ok be s' =>
    rw [hrun] at hchanges
    obtain ⟨hpresent, o, hcreate⟩ := create_ok hown hrun
    exact ⟨_, _, attempt_of_ok hrun, hchanges.changes, o, .inl ⟨be, rfl, hpresent, hcreate⟩⟩
  | error e s' =>
    rw [hrun] at hchanges
    refine ⟨_, _, attempt_of_error hrun (create_noPanic huplink hown hrun), hchanges.changes,
      { Outcomes.done with bridgeCreate := false }, .inr ⟨e, ?_⟩⟩
    simp only [Backend.create, Device.createBridge, generateDeviceName_bridge, bind, Except.bind]
    cases firstIP subnet with
    | error e' => exact ⟨e', trivial, rfl⟩
    | ok ip => exact ⟨.netlink, trivial, rfl⟩

/-- The backends have the same devices, but for the address that is recorded for the bridge. -/
structure Moved (be be' : Backend) : Prop where
  managers : be'.managers = be.managers
  bridge : be'.bridge.map (fun br => (br.name, br.mac)) = be.bridge.map fun br => (br.name, br.mac)
  vtep : be'.vtep = be.vtep

theorem Moved.refl (be : Backend) :
  Moved be be
  := ⟨rfl, rfl, rfl⟩

/-- Moves follow each other. -/
theorem Moved.trans {be be' be'' : Backend} (h : Moved be be') (h' : Moved be' be'') :
  Moved be be''
  := ⟨h'.managers.trans h.managers, h'.bridge.trans h.bridge, h'.vtep.trans h.vtep⟩

/-- Devices that are there stay there when they are moved. -/
theorem Present.of_changes {h : Hashes} {F : Footprint} {be be' : Backend} {k k' : State}
    (hpresent : Present h id be k) (hmoved : Moved be be') (hchanges : Changes F k k')
    (hbridge : bridgeName h id ∉ F.deletes) (hvtep : vtepName h id ∉ F.deletes) :
  Present h id be' k'
  := by
  obtain ⟨hmanagers, ⟨br, l, hbr, hname, hl, hkind⟩, vt, lv, port, hvt, hvname, hlv, hvkind⟩ :=
    hpresent
  constructor
  · exact hmoved.managers.trans hmanagers
  · have hbr' := hmoved.bridge
    rw [hbr, Option.map_some, Option.map_eq_some_iff] at hbr'
    obtain ⟨br', hbr', heq⟩ := hbr'
    obtain ⟨hname', -⟩ := Prod.mk.inj heq
    rw [← hname] at hbridge
    obtain ⟨l', hl', hsame⟩ := hchanges.kept br.name hbridge l hl
    refine ⟨br', l', hbr', hname'.trans hname, ?_, hsame.kind.trans hkind⟩
    rw [hname']
    exact hl'
  · rw [← hvname] at hvtep
    obtain ⟨l', hl', hsame⟩ := hchanges.kept vt.name hvtep lv hlv
    exact ⟨vt, l', port, hmoved.vtep.trans hvt, hvname, hl', hsame.kind.trans hvkind⟩

/-- An update that gets through the bridge has recorded its address. -/
theorem updateBridgeIP_ok {br : Bridge} {subnet : IPNet} {u : Unit}
    (h : (updateBridgeIP cfg (some br) subnet).run s = .ok u s') :
  ∃ ip, firstIP subnet = .ok ip
  := by
  obtain ⟨ip, s₁, hip, -⟩ := bind_ok.mp h
  exact ⟨ip, (pureOr_ok.mp (wrap_ok.mp hip)).1⟩

/-- Moving the devices to another subnet adjusts them. -/
theorem along_update {F : Footprint} (be : Backend) (subnet : IPNet)
    (hbridge : ∀ br ∈ be.bridge, br.name ∈ F.names) (hvtep : ∀ vt ∈ be.vtep, vt.name ∈ F.names) :
  Along (Within F) (update cfg be subnet)
  := by
  apply Along.bind (along_attempt (along_updateBridgeIP cfg be.bridge subnet hbridge))
  intro r
  cases r with
  | error e => apply Along.pure (Within.refl F)
  | ok u =>
    dsimp only
    split
    · apply Along.pure (Within.refl F)
    · apply Along.bind (along_attempt (along_updateIP cfg be.vtep subnet hvtep))
      intro r
      cases r with
      | error e => apply Along.pure (Within.refl F)
      | ok ip => apply Along.pure (Within.refl F)

/-- Moving the devices, call by call, records what the model with outcomes records. -/
theorem update_refines (cfg : Config) (br : Bridge) (vt : VTEP) (subnet : IPNet) (s : System) :
  ∃ r be s', (update cfg ⟨true, some br, some vt⟩ subnet).run s = .ok (r, be) s' ∧
    ∃ o r', (⟨true, some br, some vt⟩ : Backend).update o subnet = (r', be) ∧
      r.toOption = r'.toOption
  := by
  obtain ⟨r₁, s₁, hbridge⟩ := (noPanic_updateBridgeIP cfg (some br) subnet).attempt s
  obtain ⟨⟨⟩, rfl, hok⟩ | ⟨e, rfl, -⟩ := attempt_ok hbridge
  · obtain ⟨ip, hfirst⟩ := updateBridgeIP_ok hok
    obtain ⟨r₂, s₂, hvtep⟩ := (noPanic_updateIP cfg (some vt) subnet).attempt s₁
    have hrun : (update cfg ⟨true, some br, some vt⟩ subnet).run s = _ :=
      run_bind_of_ok hbridge _
    obtain ⟨ip', rfl, -⟩ | ⟨e, rfl, -⟩ := attempt_ok hvtep
    · refine ⟨.ok (), ⟨true, some { br with ip := ip }, some vt⟩, s₂, ?_,
        Outcomes.done, .ok (), ?_, rfl⟩
      · rw [hrun]
        simp only [Option.map_some, hfirst, Except.toOption, Option.getD_some, Bool.true_eq_false,
          ↓reduceIte]
        rw [run_bind_of_ok hvtep]
        rfl
      · simp [Outcomes.done, Backend.update, updateBridge, hfirst, bind, Except.bind]
    · refine ⟨.error e, ⟨true, some { br with ip := ip }, some vt⟩, s₂, ?_,
        { Outcomes.done with vtepUpdate := false }, .error .netlink, ?_, rfl⟩
      · rw [hrun]
        simp only [Option.map_some, hfirst, Except.toOption, Option.getD_some, Bool.true_eq_false,
          ↓reduceIte]
        rw [run_bind_of_ok hvtep]
        rfl
      · simp [Outcomes.done, Backend.update, updateBridge, hfirst, bind, Except.bind]
  · have hrun : (update cfg ⟨true, some br, some vt⟩ subnet).run s = _ :=
      run_bind_of_ok hbridge _
    refine ⟨.error e, ⟨true, some br, some vt⟩, s₁, hrun,
      { Outcomes.done with bridgeUpdate := false }, ?_⟩
    simp only [Backend.update, updateBridge, bind, Except.bind]
    cases firstIP subnet with
    | error e' => exact ⟨.error e', rfl, rfl⟩
    | ok ip => exact ⟨.error .netlink, rfl, rfl⟩

/-- The model with outcomes keeps the devices of a backend that is moved. -/
theorem moved_update (o : Outcomes) (be : Backend) (subnet : IPNet) :
  Moved be (be.update o subnet).2
  := by
  obtain ⟨managers, bridge, vtep⟩ := be
  cases bridge with
  | none => apply Moved.refl
  | some br =>
    simp only [Backend.update]
    cases hbr : updateBridge o br subnet with
    | error e => apply Moved.refl
    | ok br' =>
      have heq : (br'.name, br'.mac) = (br.name, br.mac) := by
        simp only [updateBridge, bind, Except.bind] at hbr
        grind
      have hmoved : Moved ⟨managers, some br, vtep⟩ ⟨managers, some br', vtep⟩ :=
        ⟨rfl, congrArg some heq, rfl⟩
      grind

/-- The devices of a tenant are not ends of pairs. -/
theorem Present.single {h : Hashes} {be : Backend} {k : State} (hpresent : Present h id be k)
    {name : String} (hname : name = bridgeName h id ∨ name = vtepName h id) :
  ∀ l, k.host.link name = some l → l.Single
  := by
  obtain ⟨-, ⟨br, lb, -, hbr, hlb, hbkind⟩, vt, lv, port, -, hvt, hlv, hvkind⟩ := hpresent
  intro l hl
  obtain rfl | rfl := hname
  · rw [hbr, hl] at hlb
    cases hlb
    simp [Link.Single, hbkind]
  · rw [hvt, hl] at hlv
    cases hlv
    simp [Link.Single, hvkind]

/-- A link that is not one end of a pair is none when the devices of a tenant have changed. -/
theorem single_of_tenant {h : Hashes} {k k' : State} {name : String}
    (hchanges : Changes (tenantFootprint h nodeName id) k k')
    (hsingle : ∀ l, k.host.link name = some l → l.Single) :
  ∀ l, k'.host.link name = some l → l.Single
  := by
  intro l' hl'
  obtain ⟨l, hl, hsame⟩ | ⟨-, hkind⟩ | ⟨-, hkind⟩ := hchanges.origin name l' hl'
  · have h := hsingle l hl
    rw [Link.Single, ← hsame.kind] at h
    exact h
  · simp [Link.Single, hkind]
  · simp [Link.Single, hkind]

/-- Only the devices of the tenant are deleted. -/
theorem within_delete {be : Backend} (nodeName : String)
    (hpresent : Present cfg.hashes id be s.system) :
  Within (tenantFootprint cfg.hashes nodeName id) s (final (delete cfg be) s)
  := by
  have hbr : ∀ br ∈ be.bridge, br.name = bridgeName cfg.hashes id := by
    obtain ⟨-, ⟨br, -, hbr, hname, -⟩, -⟩ := hpresent
    rw [hbr]
    rintro _ ⟨⟩
    exact hname
  have hvt : ∀ vt ∈ be.vtep, vt.name = vtepName cfg.hashes id := by
    obtain ⟨-, -, vt, -, -, hvt, hname, -⟩ := hpresent
    rw [hvt]
    rintro _ ⟨⟩
    exact hname
  rw [delete]
  split
  · apply Within.refl
  have hfirst : Within (tenantFootprint cfg.hashes nodeName id) s
      (final (attempt (deleteVTEP cfg be.vtep)) s) :=
    within_attempt (within_deleteVTEP (fun vt h => .inr (hvt vt h)) (fun vt h => .inr (hvt vt h))
      fun vt h => hpresent.single (.inr (hvt vt h)))
  apply rel_bind hfirst
  intro r s₁ hr
  have hsecond : Within (tenantFootprint cfg.hashes nodeName id) s₁
      (final (attempt (deleteBridge cfg be.bridge)) s₁) :=
    within_attempt (within_deleteBridge (fun br h => .inl (hbr br h)) (fun br h => .inl (hbr br h))
      fun br h => single_of_tenant (hfirst.of_run_ok hr) (hpresent.single (.inl (hbr br h))))
  cases r with
  | error e => apply Within.refl
  | ok u =>
    apply rel_bind hsecond
    intro r s₂ _
    cases r with
    | error e => apply Within.refl
    | ok u => apply Within.refl

/-- Deleting the devices returns, and not for want of managers. -/
theorem delete_returns (cfg : Config) {be : Backend} (hmanagers : be.managers = true)
    (s : System) :
  ∃ r be' s', (delete cfg be).run s = .ok (r, be') s' ∧ r ≠ .error .panicked
  := by
  have hdelete : delete cfg be = _ := if_neg (by simp [hmanagers])
  obtain ⟨r₁, s₁, hvtep⟩ := (noPanic_deleteVTEP cfg be.vtep).attempt s
  rw [hdelete, run_bind_of_ok hvtep]
  obtain ⟨u, rfl, -⟩ | ⟨e, rfl, herror⟩ := attempt_ok hvtep
  · obtain ⟨r₂, s₂, hbridge⟩ := (noPanic_deleteBridge cfg be.bridge).attempt s₁
    dsimp only
    rw [run_bind_of_ok hbridge]
    obtain ⟨u, rfl, -⟩ | ⟨e, rfl, herror⟩ := attempt_ok hbridge
    · exact ⟨_, _, _, rfl, nofun⟩
    · refine ⟨_, _, _, rfl, ?_⟩
      rintro ⟨⟩
      apply (noPanic_deleteBridge cfg be.bridge).error _ _ _ herror rfl
  · refine ⟨_, _, _, rfl, ?_⟩
    rintro ⟨⟩
    apply (noPanic_deleteVTEP cfg be.vtep).error _ _ _ herror rfl

end

end Kernel

end Device
