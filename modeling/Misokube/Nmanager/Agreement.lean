import Misokube.Nmanager.Tenants

/-!
# Records agree with the subnet manager

As long as the steps of an expansion after the one of the subnet manager do not fail, the record
of a tenant, the subnet manager and the IPAM name one network for the tenant (`Consistent`).
`ExpandTenant` has the subnet manager commit to the larger network first, so a later step that
fails leaves them with different networks.
-/

namespace Nmanager

open Net Device Trie

/-- The devices and the IPAM can be moved to another network. -/
def Outcomes.CanMove (o : Outcomes) : Prop :=
  o.bridgeUpdate = true ∧ o.vtepUpdate = true ∧ o.ipamExpand = true

/-- If the operation is the expansion of a tenant for which the subnet manager has room, its other
steps do not fail. -/
def Op.MovesAll (nm : NetworkManager) : Op → Prop
  | .expandTenant id o => ∀ r q, nm.tenantRecords.lookup id = some r → nm.Grants id q → o.CanMove
  | _ => True

/-- A record is valid, and it has the network that is held and that its IPAM allocates from. -/
def Agreeing (bits : ℕ) (v : View) : Prop :=
  ∀ r, v.record = some r → Valid bits r ∧ v.held = some r.subnet ∧ r.ipam.network = r.subnet

section

variable {h : Hashes} {nodeName : String} {bits : ℕ} {grants : IPNet → Prop} {r r' : TenantRecord}

/-- An expansion whose steps do not fail succeeds, and moves the record and the IPAM. -/
theorem Expanded.moves {o : Outcomes} {q : IPNet} {n : ℕ} {reply : Reply}
    (hexpanded : Expanded o q r reply r') (hcidr : IsCIDR q n bits) (hlt : n < bits)
    (hvalid : Valid bits r) (hmove : o.CanMove)
    (hcovers : ∀ a, Covers r.ipam.network a → Covers q a) :
  reply = .ok none ∧ r'.subnet = q ∧ r'.ipam.network = q
  := by
  obtain ⟨rfl, hsound, ⟨br, vt, hdevices⟩, -⟩ := hvalid
  obtain ⟨hbridge, hvtep, hipam⟩ := hmove
  obtain ⟨ip, hfirst, -⟩ := firstIP_eq hcidr hlt
  have hupdate := update_ok hdevices hfirst hbridge hvtep
  have hok := Ipam.expand_of_covers hsound hcidr hcovers
  cases hexpanded with
  | backend hbackend =>
    rw [hbackend] at hupdate
    simp at hupdate
  | fault hbackend hfault =>
    rw [hipam] at hfault
    simp at hfault
  | ipam hbackend hexpand =>
    rw [hexpand] at hok
    simp at hok
  | done hbackend hexpand =>
    refine ⟨rfl, rfl, ?_⟩
    obtain ⟨e, heq, -⟩ | ⟨bitmap, heq, -⟩ := Ipam.expand_cases hsound hcidr
    · simp [heq] at hexpand
    · rw [heq, Prod.mk.injEq] at hexpand
      rw [← hexpand.2]

/-- Another IPAM of the same network. -/
theorem Agreeing.with_ipam {p : Option IPNet} (hv : Agreeing bits ⟨some r, p⟩)
    {ipam : Ipam.BitmapIPAM} (hsound : Ipam.Sound ipam) (hnetwork : ipam.network = r.ipam.network) :
  Agreeing bits ⟨some { r with ipam := ipam }, p⟩
  := by
  obtain ⟨hvalid, hheld, hagree⟩ := hv r rfl
  rintro _ ⟨⟩
  exact ⟨hvalid.with_ipam hsound, hheld, hnetwork.trans hagree⟩

/-- An effect whose expansions move everything keeps the record in agreement, and an expansion
that fails changes nothing. -/
theorem Effect.agreeing {op : Op} {v v' : View} {reply : Reply}
    (heffect : Effect h nodeName bits grants op v reply v') (hv : Agreeing bits v)
    (hmove : ∀ id o r q, op = .expandTenant id o → v.record = some r → grants q → o.CanMove) :
  Agreeing bits v' ∧ ∀ id o e, op = .expandTenant id o → reply = .error e → v' = v
  := by
  cases heffect with
  | same => exact ⟨hv, fun _ _ _ _ _ => rfl⟩
  | exhausted => exact ⟨hv, fun _ _ _ _ _ => rfl⟩
  | failed =>
    constructor
    · intro r hr
      simp at hr
    · simp
  | created hcidr hcreate hipam =>
    obtain ⟨hbits, -, hnetwork, -, hsound, -⟩ := Ipam.newBitmapIPAM_ok hcidr hipam
    obtain ⟨br, vt, hbe, -⟩ := create_spec hcreate
    constructor
    · rintro _ ⟨⟩
      exact ⟨⟨hbits, hsound, ⟨br, vt, hbe⟩, rfl⟩, rfl, hnetwork⟩
    · simp
  | removed =>
    constructor
    · intro r hr
      simp at hr
    · simp
  | panicked hmanagers =>
    obtain ⟨⟨-, -, ⟨br, vt, hbe⟩, -⟩, -⟩ := hv _ rfl
    rw [hbe] at hmanagers
    simp at hmanagers
  | @expanded _ o r r' p q _ _ hgrants hcidr hlt hhalf hexpanded =>
    obtain ⟨hvalid, hheld, hagree⟩ := hv _ rfl
    cases hheld
    have hcovers : ∀ a, Covers r.ipam.network a → Covers q a := by
      rw [hagree]
      intro a
      apply covers_of_half hcidr hlt hhalf
    have hmoves := hexpanded.moves hcidr hlt hvalid (hmove _ _ r q rfl rfl hgrants) hcovers
    obtain ⟨rfl, hsubnet, hnetwork⟩ := hmoves
    constructor
    · rintro _ ⟨⟩
      refine ⟨hexpanded.valid hcidr hvalid, ?_, ?_⟩
      · rw [hsubnet]
      · rw [hnetwork, hsubnet]
    · simp
  | attached hready halloc =>
    obtain ⟨hsound, hnetwork⟩ := Ipam.allocate_spec (hv _ rfl).1.sound halloc
    exact ⟨hv.with_ipam hsound hnetwork, by simp⟩
  | bridgeless hready halloc =>
    obtain ⟨hsound, hnetwork⟩ := Ipam.allocate_spec (hv _ rfl).1.sound halloc
    exact ⟨hv.with_ipam hsound hnetwork, by simp⟩
  | detached hready halloc =>
    obtain ⟨hsound, hnetwork⟩ := Ipam.allocate_spec (hv _ rfl).1.sound halloc
    constructor
    · apply hv.with_ipam
      · apply Ipam.free_sound hsound
      · apply (Ipam.free_network _ _).trans hnetwork
    · simp

end

/-- The records of the tenants have the networks that the subnet manager holds and that the
IPAMs allocate from. -/
def Consistent (nm : NetworkManager) : Prop :=
  ∀ id r, nm.tenantRecords.lookup id = some r →
    nm.subnet.get id = .ok r.subnet ∧ r.ipam.network = r.subnet

/-- The steps of expansions not failing, the manager knows agreeing networks after every run. -/
theorem after_agreeing {root : IPNet} {ones bits : ℕ} (hroot : IsCIDR root ones bits)
    {leafMask : ℤ} {tm : TrieManager} (hnew : newTrieManager root leafMask = some tm)
    {h : Hashes} {nodeName : String} {ops : List Op}
    (hmeets : Machine.Meets (step h) Op.MovesAll (newNetworkManager nodeName tm) ops) :
  Throughout root leafMask nodeName (Agreeing bits)
    (Machine.after (step h) (newNetworkManager nodeName tm) ops)
  := by
  apply after_newNetworkManager hroot hnew _ _ hmeets
  · intro r hr
    simp at hr
  · intro nm op reply v hmove hv heffect
    apply (heffect.agreeing hv _).1
    rintro id o r q rfl
    apply hmove

/-- After every run of a new network manager in which the steps of expansions after that of the
subnet manager do not fail, records agree with the subnet manager and with their IPAMs, and such
an expansion that returns an error changes nothing. -/
theorem after_consistent {root : IPNet} {ones bits : ℕ} (hroot : IsCIDR root ones bits)
    {leafMask : ℤ} {tm : TrieManager} (hnew : newTrieManager root leafMask = some tm)
    (h : Hashes) (nodeName : String) (ops : List Op)
    (hmeets : Machine.Meets (step h) Op.MovesAll (newNetworkManager nodeName tm) ops) :
  Consistent (Machine.after (step h) (newNetworkManager nodeName tm) ops)
    ∧ ∀ id o e, Op.MovesAll (Machine.after (step h) (newNetworkManager nodeName tm) ops)
          (.expandTenant id o) →
      ((Machine.after (step h) (newNetworkManager nodeName tm) ops).expandTenant o id).1
        = .error e →
        ((Machine.after (step h) (newNetworkManager nodeName tm) ops).expandTenant o id).2.view
          = (Machine.after (step h) (newNetworkManager nodeName tm) ops).view
  := by
  have hafter := after_agreeing hroot hnew hmeets
  generalize Machine.after (step h) (newNetworkManager nodeName tm) ops = nm at hafter ⊢
  constructor
  · intro id r hr
    obtain ⟨-, hheld, hnetwork⟩ := hafter.views id r hr
    exact ⟨TrieManager.held_eq_some.mp hheld, hnetwork⟩
  · intro id o e hmove herror
    have hsteps := step_steps (h := h) hroot hafter.managed (.expandTenant id o)
    have hsame := (hsteps.effect.agreeing (hafter.views _) (by rintro _ _ r q ⟨⟩; apply hmove)).2
    funext id'
    by_cases hid : id' = id
    · rw [hid]
      apply hsame id o e rfl
      rw [step, herror]
      rfl
    · apply hsteps.frame id' hid

theorem after_consistent_slash28 :
  ∃ tm, newTrieManager ⟨[10, 0, 0, 0], cidrMask 28 32⟩ 30 = some tm
    ∧ ∀ h, Consistent (Machine.after (step h) (newNetworkManager "node" tm)
      [.ensureTenant "a" .success, .expandTenant "a" .success])
  := by
  obtain ⟨hroot, tm, hnew⟩ :=
    exists_newTrieManager_ipv4 [10, 0, 0, 0] 28 30 rfl (by decide) (by decide)
  use tm, hnew
  intro h
  apply (after_consistent hroot hnew h "node" _ _).1
  refine ⟨trivial, ?_, trivial⟩
  intro r q _ _
  exact ⟨rfl, rfl, rfl⟩

/-- If the VTEP cannot be updated, the subnet manager holds the larger network for the tenant and
the record still has the smaller one. -/
theorem expandTenant_inconsistent :
  ∃ h tm, newTrieManager ⟨[10, 0, 0, 0], cidrMask 28 32⟩ 30 = some tm
    ∧ ¬ Consistent (Machine.after (step h) (newNetworkManager "node" tm)
      [.ensureTenant "a" .success, .expandTenant "a" { Outcomes.success with vtepUpdate := false }])
  := by
  obtain ⟨-, tm, hnew⟩ :=
    exists_newTrieManager_ipv4 [10, 0, 0, 0] 28 30 rfl (by decide) (by decide)
  refine ⟨⟨fun _ => [], fun _ => []⟩, tm, hnew, ?_⟩
  -- the two networks after the run
  have hrun : (newTrieManager ⟨[10, 0, 0, 0], cidrMask 28 32⟩ 30).map (fun tm =>
      let nm := Machine.after (step ⟨fun _ => [], fun _ => []⟩) (newNetworkManager "node" tm)
        [.ensureTenant "a" .success,
          .expandTenant "a" { Outcomes.success with vtepUpdate := false }]
      ((nm.tenantRecords.lookup "a").map TenantRecord.subnet, nm.subnet.get "a"))
      = some (some ⟨[10, 0, 0, 0], cidrMask 30 32⟩, .ok ⟨[10, 0, 0, 0], cidrMask 29 32⟩) := by
    decide +kernel
  rw [hnew, Option.map_some, Option.some.injEq, Prod.mk.injEq, Option.map_eq_some_iff] at hrun
  obtain ⟨⟨r, hr, hsubnet⟩, hget⟩ := hrun
  intro hconsistent
  have heq := (hconsistent "a" r hr).1
  rw [hget, hsubnet] at heq
  revert heq
  decide

end Nmanager
