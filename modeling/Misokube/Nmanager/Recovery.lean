import Misokube.Nmanager.WiringRuns

/-!
# Recovery from faults

A call that meets a fault may leave devices of a tenant behind.  What is left was made for the
tenant, so that `EnsureTenant` takes it over when it is called again.  After every run, whatever
faults it met, the tenant is made if no fault occurs then, the subnet manager has a network for it
and the kernel accepts its devices (`ensureTenant_recovers`).  The kernel refuses a tunnel with an
identifier that is in use, so the tenants must have different ones, and no other link of the host
may have that of the tenant.
-/

namespace Nmanager

open Net Device Trie Links Command

namespace Node

open Device.Kernel (State Config Runs Uplink Owned AcceptsDevices Unclaimed Started vxlanPort)

section

variable {cfg : Config} {tenants : Set String} {root : IPNet} {ones : ℕ} {leafMask : ℤ}
  {nm : NetworkManager} {k : State} {id : String}

/-- `EnsureTenant` takes over the devices that were left. -/
theorem runs_ensureTenant_of_owned {policy : PolicyCall → Bool} (hpolicy : ∀ c, policy c = true)
    (haccepts : Accepts cfg root) (huplink : Uplink cfg.hashes k) {gw : String × IP}
    {lg : Link IPNet} (hroute : k.host.route = some gw) (hlg : k.host.link gw.1 = some lg)
    (hnobridge : lg.kind ≠ .bridge) (hdevices : AcceptsDevices cfg nm.nodeName id lg.mtu)
    (hunclaimed : Unclaimed cfg.hashes id k) (hown : Owned cfg.hashes nm.nodeName id k)
    (hne : id ≠ "") (hnone : nm.tenantRecords.lookup id = none) {q : IPNet} {subnet : TrieManager}
    (halloc : nm.subnet.allocate id = (.ok q, subnet)) (hroomy : Roomy root q) :
  ∃ nm' k' r, Runs (ensureTenant cfg policy nm id) k (.ok (), nm') k' ∧
    nm'.tenantRecords.lookup id = some r ∧ Started r.backend r.subnet k'
  := by
  obtain ⟨ip, hfirst, -⟩ := hroomy.firstIP
  obtain ⟨ipm, hipm, -⟩ := hroomy.newBitmapIPAM
  obtain ⟨be, k', hcreate, hstarted⟩ := Kernel.runs_create hown huplink hroute hlg hnobridge
    hdevices hunclaimed hfirst (haccepts.gateway hroomy hfirst) (haccepts.vtep hroomy)
  have hfinish : Runs (finishTenant cfg policy { nm with subnet := subnet } id q be) k'
      (.ok (), commit { nm with subnet := subnet } id ⟨q, be, ipm, .ready⟩) k' := by
    simp only [finishTenant, hpolicy, hipm, hnone, Option.isSome_none, Bool.false_eq_true,
      Bool.true_eq_false, ↓reduceIte]
    rfl
  refine ⟨commit { nm with subnet := subnet } id ⟨q, be, ipm, .ready⟩, k', ⟨q, be, ipm, .ready⟩, ?_,
    lookup_commit _ _ _, hstarted⟩
  simp only [ensureTenant, hne, hnone, halloc, Option.isSome_none, Bool.false_eq_true, ↓reduceIte]
  exact Runs.bind (Runs.attempt hcreate) hfinish

/-- A tenant that has a record or for which there is a network gets its devices. -/
theorem Sound.ensureTenant (hroot : IsCIDR root ones 32) (haccepts : Accepts cfg root) {n : Node}
    (hsound : Sound cfg.hashes tenants n)
    (hsized : ManagedUpTo 30 root leafMask n.nm.subnet) {gw : String × IP} {lg : Link IPNet}
    (hroute : n.kernel.host.route = some gw) (hlg : n.kernel.host.link gw.1 = some lg)
    (hnobridge : lg.kind ≠ .bridge) (hdevices : AcceptsDevices cfg n.nm.nodeName id lg.mtu)
    (hunclaimed : Unclaimed cfg.hashes id n.kernel) (hid : id ∈ tenants) (hne : id ≠ "")
    {policy : PolicyCall → Bool} (hpolicy : ∀ c, policy c = true)
    (hroom : (n.nm.tenantRecords.lookup id).isSome ∨ (n.nm.subnet.allocate id).1.isOk) :
  ∃ n' r, step cfg n (.ensureTenant id policy, []) = (.tenant (.ok ()), n') ∧
    n'.nm.tenantRecords.lookup id = some r ∧
    (n.nm.tenantRecords.lookup id = none → Started r.backend r.subnet n'.kernel)
  := by
  cases hrecord : n.nm.tenantRecords.lookup id with
  | some r =>
    refine ⟨n, r, ?_, hrecord, by simp⟩
    simp only [Node.step, Node.ensureTenant, hne, hrecord, Option.isSome_some, ↓reduceIte]
    rfl
  | none =>
    rw [hrecord] at hroom
    obtain ⟨q, hq⟩ : ∃ q, (n.nm.subnet.allocate id).1 = .ok q := by
      have hok := hroom.resolve_left (by simp)
      cases hresult : (n.nm.subnet.allocate id).1 with
      | error e =>
        rw [hresult] at hok
        cases hok
      | ok q => exact ⟨q, rfl⟩
    obtain ⟨nm', k', r, hruns, hr, hstarted⟩ := runs_ensureTenant_of_owned hpolicy haccepts
      hsound.uplink hroute hlg hnobridge hdevices hunclaimed (hsound.owned id hid) hne hrecord
      (Prod.ext hq rfl) (roomy_of_allocate hroot hsized id q hq)
    refine ⟨⟨nm', k'⟩, r, ?_, hr, fun _ => hstarted⟩
    rw [Node.step, perform_of_runs (fun r => (.tenant r.1, r.2)) hruns]

/-- A run makes no tunnel that claims the identifier of a tenant, other than its VTEP. -/
theorem Untouched.unclaimed {h : Hashes} {k k' : State} (huntouched : Untouched h tenants k k')
    (hvni : tenants.InjOn (vni h)) (hid : id ∈ tenants) (hunclaimed : Unclaimed h id k) :
  Unclaimed h id k'
  := by
  intro name l' hl' htunnel
  obtain ⟨l, hl, hkind⟩ | hnumbered := huntouched.tunnels name l' hl'
  · rw [← hkind] at htunnel
    exact hunclaimed name l hl htunnel
  · obtain ⟨id', hid', hname, heq⟩ := hnumbered _ htunnel
    cases hvni hid hid' heq
    exact hname

/-- No call of the manager makes smaller networks. -/
theorem managedUpTo_call (hroot : IsCIDR root ones 32) (h : Hashes) (nm : NetworkManager) (c : Call)
    (hsized : ManagedUpTo 30 root leafMask nm.subnet) :
  ManagedUpTo 30 root leafMask (call h nm c).2.subnet
  := by
  cases c with
  | ensureTenant id o => exact managedUpTo_step hroot hsized h (.ensureTenant id o)
  | removeTenant id o => exact managedUpTo_step hroot hsized h (.removeTenant id o)
  | ensure id args o =>
    obtain ⟨ops, -, hafter⟩ := actorEnsure_ops h o nm id args
    rw [call, hafter]
    apply Machine.after_of_forall
      (P := fun nm : NetworkManager => ManagedUpTo 30 root leafMask nm.subnet) _ hsized
    intro nm' op hsized'
    exact managedUpTo_step hroot hsized' h op
  | remove id args => exact managedUpTo_step hroot hsized h (.removePod id args)
  | idle => exact hsized

end

/-- After every run of a node, whatever faults its calls met, `EnsureTenant` succeeds if the next
call meets none, the policy manager and the kernel accept what they are given, and the tenant has a
network or the subnet manager has one for it.  Its devices are then in the kernel; if the tenant had
no record, they are up and the bridge has the address of the gateway. -/
theorem ensureTenant_recovers {cfg : Config} {tenants : Set String}
    (hinj : tenants.InjOn (digits cfg.hashes)) (hvni : tenants.InjOn (vni cfg.hashes))
    {root : IPNet} {ones : ℕ} {leafMask : ℤ} (hroot : IsCIDR root ones 32) (hones : ones ≤ 30)
    (hleaf : leafMask ≤ 30) (haccepts : Accepts cfg root) {tm : TrieManager}
    (hnew : newTrieManager root leafMask = some tm)
    {nodeName : String} {k : State}
    (hstarts : Starts cfg.hashes tenants nodeName ⟨newNetworkManager nodeName tm, k⟩)
    {gw : String × IP} {lg : Link IPNet} (hroute : k.host.route = some gw)
    (hlg : k.host.link gw.1 = some lg) (hnobridge : lg.kind ≠ .bridge)
    (inputs : List (Action × List (Option Errno))) (hin : ∀ i ∈ inputs, i.1.In tenants)
    {id : String} (hid : id ∈ tenants) (hne : id ≠ "")
    (hdevices : AcceptsDevices cfg nodeName id lg.mtu)
    (hunclaimed : Unclaimed cfg.hashes id k) {policy : PolicyCall → Bool}
    (hpolicy : ∀ c, policy c = true)
    (hroom : ((Machine.after (step cfg) ⟨newNetworkManager nodeName tm, k⟩
        inputs).nm.tenantRecords.lookup id).isSome ∨
      ((Machine.after (step cfg) ⟨newNetworkManager nodeName tm, k⟩
        inputs).nm.subnet.allocate id).1.isOk) :
  ∃ n' r, step cfg (Machine.after (step cfg) ⟨newNetworkManager nodeName tm, k⟩ inputs)
      (.ensureTenant id policy, []) = (.tenant (.ok ()), n') ∧
    n'.nm.tenantRecords.lookup id = some r ∧ Realised cfg.hashes nodeName id r.backend n'.kernel ∧
    ((Machine.after (step cfg) ⟨newNetworkManager nodeName tm, k⟩
      inputs).nm.tenantRecords.lookup id = none → Started r.backend r.subnet n'.kernel)
  := by
  obtain ⟨hsound, hnode, huntouched⟩ := hstarts.after hinj inputs hin
  obtain ⟨calls, -, -, hcalls, -⟩ := hstarts.exists_calls hinj inputs hin
  have hsized : ManagedUpTo 30 root leafMask
      (Machine.after (step cfg) ⟨newNetworkManager nodeName tm, k⟩ inputs).nm.subnet := by
    rw [hcalls]
    apply Machine.after_of_forall
      (P := fun nm : NetworkManager => ManagedUpTo 30 root leafMask nm.subnet) _
      (newTrieManager_managedUpTo hroot hnew hones hleaf)
    intro nm c
    apply managedUpTo_call hroot
  generalize Machine.after (step cfg) ⟨newNetworkManager nodeName tm, k⟩ inputs = n at *
  obtain ⟨hforeign, lg', hlg', -, hsingle⟩ := hstarts.sound.uplink gw hroute
  cases hlg.symm.trans hlg'
  obtain ⟨n', r, hstep, hr, hstarted⟩ := hsound.ensureTenant hroot haccepts hsized
    (huntouched.route.trans hroute) (huntouched.links gw.1 lg hforeign hlg hsingle) hnobridge
    (hnode.symm ▸ hdevices) (huntouched.unclaimed hvni hid hunclaimed) hid hne hpolicy hroom
  obtain ⟨⟨c, -, -, hnm⟩, hsound', -⟩ := ensureTenant_simulates hinj hsound hid policy
  rw [hstep] at hnm hsound'
  have hnode' : n'.nm.nodeName = nodeName := by
    rw [hnm, nodeName_call, hnode]
  exact ⟨n', r, hstep, hr, hnode' ▸ hsound'.realised hr, hstarted⟩

/-- The kernel stops answering while the VTEP is made: both devices are left. -/
def interrupted : List (Action × List (Option Errno)) :=
  [(.ensureTenant "a" fun _ => true,
    List.replicate 9 none ++ List.replicate 6 (some (.other "device or resource busy")))]

theorem plainConfig_vni_injOn :
  ({"a", "b"} : Set String).InjOn (vni plainConfig.hashes)
  := by
  rintro id (rfl | rfl) id' (rfl | rfl) heq
  · rfl
  · exact absurd heq (by decide +kernel)
  · exact absurd heq (by decide +kernel)
  · rfl

theorem uplinkHost_unclaimed (h : Hashes) (id : String) :
  Unclaimed h id uplinkHost
  := by
  intro name l hl htunnel
  rw [(uplinkHost_link hl).2.1] at htunnel
  cases htunnel

theorem ensureTenant_recovers_interrupted :
  ∃ tm n' r, newTrieManager ⟨[10, 0, 0, 0], cidrMask 28 32⟩ 30 = some tm ∧
    (Machine.after (step plainConfig) ⟨newNetworkManager "node" tm, uplinkHost⟩
      interrupted).nm.tenantRecords.lookup "a" = none ∧
    ((Machine.after (step plainConfig) ⟨newNetworkManager "node" tm, uplinkHost⟩
      interrupted).kernel.host.link (vtepName plainConfig.hashes "a")).isSome ∧
    step plainConfig (Machine.after (step plainConfig) ⟨newNetworkManager "node" tm, uplinkHost⟩
      interrupted) (.ensureTenant "a" fun _ => true, []) = (.tenant (.ok ()), n') ∧
    n'.nm.tenantRecords.lookup "a" = some r ∧
    Realised plainConfig.hashes "node" "a" r.backend n'.kernel ∧
    Started r.backend r.subnet n'.kernel
  := by
  have heval : ((newTrieManager ⟨[10, 0, 0, 0], cidrMask 28 32⟩ 30).bind fun tm =>
      let n :=
        Machine.after (step plainConfig) ⟨newNetworkManager "node" tm, uplinkHost⟩ interrupted
      if (n.nm.tenantRecords.lookup "a").isNone
          ∧ (n.kernel.host.link (vtepName plainConfig.hashes "a")).isSome
          ∧ (n.nm.subnet.allocate "a").1.isOk then some () else none) = some () := by
    decide +kernel
  obtain ⟨tm, hnew, heval⟩ := Option.bind_eq_some_iff.mp heval
  obtain ⟨⟨hnone, hleft, hok⟩, -⟩ := Option.ite_none_right_eq_some.mp heval
  rw [Option.isNone_iff_eq_none] at hnone
  have hin : ∀ i ∈ interrupted, i.1.In {"a", "b"} := by
    simp [interrupted, Action.In]
  have hname : ∀ name ∈ [bridgeName plainConfig.hashes "a", vtepName plainConfig.hashes "a"],
      name ≠ "" ∧ name.utf8ByteSize ≤ 15 := by
    decide +kernel
  have hdevices : AcceptsDevices plainConfig "node" "a" 1500 :=
    ⟨hname _ (by simp), hname _ (by simp)⟩
  obtain ⟨n', r, hstep, hr, hrealised, hstarted⟩ := ensureTenant_recovers plainConfig_injOn
    plainConfig_vni_injOn slash28 (by decide) (by decide) (plainConfig_accepts _) hnew
    (uplinkHost_starts tm) rfl (AList.lookup_insert _) (by simp) interrupted hin (.inl rfl)
    (by decide) hdevices (uplinkHost_unclaimed _ _) (fun _ : PolicyCall => rfl) (.inr hok)
  exact ⟨tm, n', r, hnew, hnone, hleft, hstep, hr, hrealised, hstarted hnone⟩

end Node

end Nmanager
