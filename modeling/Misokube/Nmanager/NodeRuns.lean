import Misokube.Device.Linux
import Misokube.Lib.Machine
import Misokube.Nmanager.OnKernel

/-!
# Runs of a node

A run of a node, whatever faults its calls meet, is a run of the network manager with outcomes that
answers alike (`after_refines`), and after every action the devices of the tenants that have records
are in the kernel (`after_realised`).  The tenants' digits in device names must differ, and what has
the name of a tenant's device at the start must have been made for the tenant.
-/

namespace Nmanager

open Net Device Trie Links Command

namespace Node

open Device.Kernel (State System Config Changes Footprint Owned Uplink Present Foreign Fits
  tenantFootprint vethPrefix)

/-! ### Calls of the network manager -/

/-- What the network manager is asked for an action; it has no part in what happens to namespaces,
and none that changes it in moving a pod. -/
inductive Call where
  | ensureTenant (id : String) (o : Outcomes)
  | removeTenant (id : String) (o : Outcomes)
  | ensure (id : String) (args : PodAttachArgs) (o : ℕ → Outcomes)
  | remove (id : String) (args : PodAttachArgs)
  | idle

/-- The network manager with outcomes. -/
def call (h : Hashes) (nm : NetworkManager) : Call → Answer × NetworkManager
  | .ensureTenant id o => (.tenant (nm.ensureTenant h o id).1, (nm.ensureTenant h o id).2)
  | .removeTenant id o => (.tenant (nm.removeTenant o id).1, (nm.removeTenant o id).2)
  | .ensure id args o => (.pod (nm.actorEnsure o id args).1, (nm.actorEnsure o id args).2)
  | .remove id args => (.tenant (nm.removePod id args).1, (nm.removePod id args).2)
  | .idle => (.none, nm)

/-- The call that is made for an action.  Its outcomes are those of the policy manager, and some for
the devices. -/
inductive Action.Calls : Action → Call → Prop where
  | ensureTenant (id : String) (policy : PolicyCall → Bool) {o : Outcomes} (h : o.policy = policy) :
      Calls (.ensureTenant id policy) (.ensureTenant id o)
  | removeTenant (id : String) (o : Outcomes) : Calls (.removeTenant id) (.removeTenant id o)
  | ensure (id : String) (args : PodAttachArgs) (choices : ℕ → Choice) (o : ℕ → Outcomes) :
      Calls (.ensure id args choices) (.ensure id args o)
  | remove (id : String) (args : PodAttachArgs) : Calls (.remove id args) (.remove id args)
  | update (id : String) (args : PodAttachArgs) : Calls (.update id args) .idle
  | openNetns (path : String) : Calls (.openNetns path) .idle
  | closeNetns (path : String) : Calls (.closeNetns path) .idle

/-- The answer of the node is that of the network manager, up to the error. -/
inductive Answer.Agrees : Answer → Answer → Prop where
  | tenant {r r' : Except Error Unit} (h : r.toOption = r'.toOption) :
      Agrees (.tenant r) (.tenant r')
  | pod {r r' : Except Error PodAttachment} (h : r.toOption = r'.toOption) :
      Agrees (.pod r) (.pod r')
  | updated (r : Except UpdateError Unit) : Agrees (.updated r) .none
  | none : Agrees .none .none

/-! ### Records of other tenants -/

theorem lookup_put_ne (nm : NetworkManager) {id id' : String} (r : TenantRecord) (hid : id ≠ id') :
  (nm.put id' r).tenantRecords.lookup id = nm.tenantRecords.lookup id
  := AList.lookup_insert_ne hid

/-- An operation changes the record of its tenant only. -/
theorem lookup_step_ne (h : Hashes) (nm : NetworkManager) (op : Op) {id : String}
    (hid : id ≠ op.id) :
  (Nmanager.step h nm op).2.tenantRecords.lookup id = nm.tenantRecords.lookup id
  := by
  cases op with
  | ensureTenant id' o =>
    simp only [Nmanager.step, NetworkManager.ensureTenant]
    split
    · rfl
    split
    · rfl
    split
    · rfl
    split
    · rfl
    split
    · rfl
    split
    · rfl
    split
    · rfl
    split
    · exact lookup_put_ne _ _ hid
    · exact lookup_put_ne _ _ hid
  | removeTenant id' o =>
    simp only [Nmanager.step, NetworkManager.removeTenant]
    split
    · rfl
    split
    · rfl
    split
    · exact lookup_put_ne _ _ hid
    · exact (AList.lookup_erase_ne hid).trans (lookup_put_ne _ _ hid)
  | expandTenant id' o =>
    simp only [Nmanager.step, NetworkManager.expandTenant]
    split
    · rfl
    split
    · rfl
    split
    · exact lookup_put_ne _ _ hid
    split
    · exact lookup_put_ne _ _ hid
    split
    · exact lookup_put_ne _ _ hid
    · exact lookup_put_ne _ _ hid
  | ensurePod id' args o =>
    simp only [Nmanager.step, NetworkManager.ensurePod]
    split
    · rfl
    split
    · rfl
    split
    · exact lookup_put_ne _ _ hid
    split
    · exact lookup_put_ne _ _ hid
    split
    · exact lookup_put_ne _ _ hid
    · exact (lookup_put_ne _ _ hid).trans (lookup_put_ne _ _ hid)
  | removePod id' args =>
    simp only [Nmanager.step, NetworkManager.removePod]
    split
    · rfl
    · rfl

/-- A run of operations on one tenant leaves the records of the others. -/
theorem lookup_after_ne (h : Hashes) (nm : NetworkManager) {id id' : String} (hid : id ≠ id')
    {ops : List Op} (hops : ∀ op ∈ ops, op.id = id') :
  (Machine.after (Nmanager.step h) nm ops).tenantRecords.lookup id = nm.tenantRecords.lookup id
  := by
  apply Machine.after_of_forall_mem (P := fun nm' : NetworkManager =>
    nm'.tenantRecords.lookup id = nm.tenantRecords.lookup id) _ rfl hops
  intro nm' op hnm' hop
  rw [lookup_step_ne h nm' op (by rwa [hop])]
  exact hnm'

/-- What the tenant actor does for a request is a run of operations on its tenant. -/
theorem actorEnsure_ops (h : Hashes) (o : ℕ → Outcomes) (nm : NetworkManager) (id : String)
    (args : PodAttachArgs) :
  ∃ ops : List Op, (∀ op ∈ ops, op.id = id) ∧
    (nm.actorEnsure o id args).2 = Machine.after (Nmanager.step h) nm ops
  := by
  obtain ⟨ops, hops, hafter⟩ := ensurePodRetry_steps h o id args NetworkManager.maxRetries nm
  have hids : ∀ op ∈ ops, op.id = id := by
    intro op hop
    obtain ⟨o', rfl⟩ | ⟨o', rfl⟩ := hops op hop
    · rfl
    · rfl
  rw [NetworkManager.actorEnsure]
  split
  · exact ⟨ops, hids, hafter⟩
  split
  · exact ⟨[], by simp, rfl⟩
  · exact ⟨ops, hids, hafter⟩

/-! ### Sound nodes -/

/-- The devices of the tenants with records are there as recorded; whatever has the name of a
tenant's device was made for the tenant; and the interface of the default route is there. -/
structure Sound (h : Hashes) (tenants : Set String) (n : Node) : Prop where
  uplink : Uplink h n.kernel
  owned : ∀ id ∈ tenants, Owned h n.nm.nodeName id n.kernel
  records : ∀ id r, n.nm.tenantRecords.lookup id = some r →
    id ∈ tenants ∧ Present h id r.backend n.kernel

section

variable {h : Hashes} {tenants : Set String} {n : Node}

theorem vethName_ne_bridgeName (h : Hashes) (suffix id : String) :
  vethName suffix ≠ bridgeName h id
  := append_ne_append (by decide) (by decide) _ _

theorem vethName_ne_vtepName (h : Hashes) (suffix id : String) :
  vethName suffix ≠ vtepName h id
  := append_ne_append (by decide) (by decide) _ _

/-- Making the devices of a tenant makes nothing that another tenant takes for its own. -/
theorem tenantFootprint_fits (hinj : tenants.InjOn (digits h)) {nodeName id id' : String}
    (hid : id ∈ tenants) (hid' : id' ∈ tenants) (name : String) (kind : Kind)
    (hnew : (tenantFootprint h nodeName id).new name kind) :
  Fits h nodeName id' name kind
  := by
  obtain ⟨rfl, rfl⟩ | ⟨rfl, rfl⟩ := hnew
  · constructor
    · intro _
      rfl
    · intro hname
      exact absurd hname (bridgeName_ne_vtepName h id id')
  · constructor
    · intro hname
      exact absurd hname.symm (bridgeName_ne_vtepName h id' id)
    · intro hname
      cases hinj hid hid' (vtepName_inj.mp hname)
      exact ⟨Kernel.vxlanPort, rfl⟩

/-- Interfaces to pods do not take the names of devices. -/
theorem podsFootprint_fits {nodeName id id' : String} (name : String) (kind : Kind)
    (hnew : (podsFootprint h id).new name kind) :
  Fits h nodeName id' name kind
  := by
  obtain ⟨⟨suffix, rfl⟩, -⟩ := hnew
  constructor
  · intro hname
    exact absurd hname (vethName_ne_bridgeName h suffix id')
  · intro hname
    exact absurd hname (vethName_ne_vtepName h suffix id')

/-- A change that makes only what fits, and deletes no device of a tenant with a record. -/
theorem Sound.of_changes {F : Footprint} {nm' : NetworkManager} {k' : State}
    (hsound : Sound h tenants n) (hnode : nm'.nodeName = n.nm.nodeName)
    (hchanges : Changes F n.kernel k') (hnames : ∀ name ∈ F.names, ¬ Foreign h name)
    (hnew : ∀ id ∈ tenants, ∀ name kind, F.new name kind → Fits h n.nm.nodeName id name kind)
    (hrecords : ∀ id r', nm'.tenantRecords.lookup id = some r' →
      id ∈ tenants ∧ Present h id r'.backend k') :
  Sound h tenants ⟨nm', k'⟩
  where
  uplink := hsound.uplink.of_changes hchanges hnames
  owned id hid := by
    rw [hnode]
    apply (hsound.owned id hid).of_changes hchanges (hnew id hid)
  records := hrecords

/-- The devices of a tenant have names that are made here. -/
theorem tenantFootprint_not_foreign {nodeName id : String} (name : String)
    (hname : name ∈ (tenantFootprint h nodeName id).names) :
  ¬ Foreign h name
  := by
  intro hforeign
  obtain rfl | rfl := hname
  · exact (hforeign id).1 rfl
  · exact (hforeign id).2.1 rfl

/-- What a pod request touches has a name that is made here. -/
theorem podsFootprint_not_foreign {id : String} (name : String)
    (hname : name ∈ (podsFootprint h id).names) :
  ¬ Foreign h name
  := by
  intro hforeign
  obtain rfl | rfl | ⟨suffix, rfl⟩ := hname
  · exact (hforeign id).1 rfl
  · exact (hforeign id).2.1 rfl
  · exact (hforeign suffix).2.2 rfl

/-- The devices of a tenant stay when those of another tenant are changed. -/
theorem present_of_other {F : Footprint} {k k' : State} {id id' : String} {be : Backend}
    (hinj : tenants.InjOn (digits h)) (hid : id ∈ tenants) (hid' : id' ∈ tenants) (hne : id ≠ id')
    (hpresent : Present h id be k) (hchanges : Changes F k k')
    (hdeletes : F.deletes ⊆ {bridgeName h id', vtepName h id'}) :
  Present h id be k'
  := by
  have hdigits : digits h id ≠ digits h id' := fun heq => hne (hinj hid hid' heq)
  apply hpresent.of_changes (Kernel.Moved.refl be) hchanges
  · intro hmem
    obtain hname | hname := hdeletes hmem
    · exact hdigits (bridgeName_inj.mp hname)
    · exact bridgeName_ne_vtepName h id id' hname
  · intro hmem
    obtain hname | hname := hdeletes hmem
    · exact bridgeName_ne_vtepName h id' id hname.symm
    · exact hdigits (vtepName_inj.mp hname)

/-! ### Actions -/

/-- The name of the node stays. -/
theorem nodeName_step (h : Hashes) (nm : NetworkManager) (op : Op) :
  (Nmanager.step h nm op).2.nodeName = nm.nodeName
  := by
  cases op with
  | ensureTenant id o =>
    simp only [Nmanager.step, NetworkManager.ensureTenant]
    repeat' split
    all_goals rfl
  | removeTenant id o =>
    simp only [Nmanager.step, NetworkManager.removeTenant]
    repeat' split
    all_goals rfl
  | expandTenant id o =>
    simp only [Nmanager.step, NetworkManager.expandTenant]
    repeat' split
    all_goals rfl
  | ensurePod id args o =>
    simp only [Nmanager.step, NetworkManager.ensurePod]
    repeat' split
    all_goals rfl
  | removePod id args =>
    simp only [Nmanager.step, NetworkManager.removePod]
    repeat' split
    all_goals rfl

theorem nodeName_call (h : Hashes) (nm : NetworkManager) (c : Call) :
  (call h nm c).2.nodeName = nm.nodeName
  := by
  cases c with
  | ensureTenant id o => exact nodeName_step h nm (.ensureTenant id o)
  | removeTenant id o => exact nodeName_step h nm (.removeTenant id o)
  | ensure id args o =>
    obtain ⟨ops, -, hafter⟩ := actorEnsure_ops h o nm id args
    rw [call, hafter]
    apply Machine.after_of_forall
      (P := fun nm' : NetworkManager => nm'.nodeName = nm.nodeName) _ rfl
    intro nm' op hnm'
    rw [nodeName_step, hnm']
  | remove id args => exact nodeName_step h nm (.removePod id args)
  | idle => rfl

/-- A command that follows what is said, as an action of the node. -/
theorem perform_follows {α : Type} {F : Footprint}
    {x : Kernel.Command (Except Error α × NetworkManager)} {faults : List (Option Errno)}
    {said : Except Error α × NetworkManager} {s' : System} (mk : Except Error α → Answer)
    (hfollows : Follows F x ⟨n.kernel, faults⟩ said s') :
  ∃ r, r.toOption = said.1.toOption ∧ n.perform faults (do
    let (result, nm) ← x
    return (mk result, nm)) = (mk r, ⟨said.2, s'.system⟩)
  := by
  obtain ⟨r, hrun, hr⟩ := hfollows.run
  refine ⟨r, hr, ?_⟩
  rw [perform, run_bind_of_ok hrun]
  rfl

/-- The kind is that of no tunnel, or the link is the VTEP of a tenant with its identifier. -/
def Numbered (h : Hashes) (tenants : Set String) (name : String) (kind : Kind) : Prop :=
  ∀ t ∈ kind.tunnel, ∃ id ∈ tenants, name = vtepName h id ∧ t.1 = vni h id

/-- The links of the host that are not named like devices made here are left alone, other than
interfaces to pods, and so is the default route.  A tunnel was there, or is the VTEP of a tenant. -/
structure Untouched (h : Hashes) (tenants : Set String) (k k' : State) : Prop where
  links : ∀ name l, Foreign h name → k.host.link name = some l → l.Single →
    k'.host.link name = some l
  route : k'.host.route = k.host.route
  tunnels : ∀ name l', k'.host.link name = some l' →
    (∃ l, k.host.link name = some l ∧ l.kind = l'.kind) ∨ Numbered h tenants name l'.kind

theorem Untouched.refl (h : Hashes) (tenants : Set String) (k : State) :
  Untouched h tenants k k
  := ⟨fun _ _ _ hl _ => hl, rfl, fun _ l hl => .inl ⟨l, hl, rfl⟩⟩

theorem Untouched.trans {k k' k'' : State} (huntouched : Untouched h tenants k k')
    (huntouched' : Untouched h tenants k' k'') :
  Untouched h tenants k k''
  := by
  constructor
  · intro name l hforeign hl hsingle
    exact huntouched'.links name l hforeign (huntouched.links name l hforeign hl hsingle) hsingle
  · exact huntouched'.route.trans huntouched.route
  · intro name l'' hl''
    obtain ⟨l', hl', hkind⟩ | hnumbered := huntouched'.tunnels name l'' hl''
    · rw [← hkind]
      exact huntouched.tunnels name l' hl'
    · exact .inr hnumbered

/-- What is done to devices made here leaves the other links and the default route alone. -/
theorem Untouched.of_changes {F : Footprint} {k k' : State} (huplink : Uplink h k)
    (hchanges : Changes F k k') (hnames : ∀ name ∈ F.names, ¬ Foreign h name)
    (hnew : ∀ name kind, F.new name kind → Numbered h tenants name kind) :
  Untouched h tenants k k'
  := by
  constructor
  · intro name l hforeign hl _
    rw [hchanges.others name fun hname => hnames name hname hforeign]
    exact hl
  · apply hchanges.route
    intro r hr hname
    exact hnames _ hname (huplink r hr).1
  · intro name l' hl'
    obtain ⟨l, hl, hsame⟩ | hmade := hchanges.origin name l' hl'
    · exact .inl ⟨l, hl, hsame.kind.symm⟩
    · exact .inr (hnew name _ hmade)

/-- The tunnel that is made for a tenant is its VTEP. -/
theorem tenantFootprint_numbered {nodeName id : String} (hid : id ∈ tenants) (name : String)
    (kind : Kind) (hnew : (tenantFootprint h nodeName id).new name kind) :
  Numbered h tenants name kind
  := by
  obtain ⟨-, rfl⟩ | ⟨rfl, rfl⟩ := hnew
  · rintro t ⟨⟩
  · rintro t ⟨⟩
    exact ⟨id, hid, rfl, rfl⟩

/-- No tunnel is made for a pod. -/
theorem podsFootprint_numbered {id : String} (name : String) (kind : Kind)
    (hnew : (podsFootprint h id).new name kind) :
  Numbered h tenants name kind
  := by
  obtain ⟨-, netns, peer, rfl⟩ := hnew
  rintro t ⟨⟩

/-- The node answers as a call of the manager does and keeps the records of the call; it is sound
again, and has left other links alone. -/
def Simulates (h : Hashes) (tenants : Set String) (n : Node) (a : Action)
    (r : Answer × Node) : Prop :=
  (∃ c, a.Calls c ∧ r.1.Agrees (call h n.nm c).1 ∧ r.2.nm = (call h n.nm c).2) ∧
    Sound h tenants r.2 ∧ Untouched h tenants n.kernel r.2.kernel

variable {cfg : Config} {faults : List (Option Errno)}

/-- `EnsureTenant` over the kernel is that of the network manager, with some outcomes.  The devices
of other tenants have other names, so their records stay realised. -/
theorem ensureTenant_simulates (hinj : tenants.InjOn (digits cfg.hashes))
    (hsound : Sound cfg.hashes tenants n) {id : String} (hid : id ∈ tenants)
    (policy : PolicyCall → Bool) :
  Simulates cfg.hashes tenants n (.ensureTenant id policy)
    (step cfg n (.ensureTenant id policy, faults))
  := by
  obtain ⟨o, s', hfollows, hrecord⟩ := ensureTenant_refines (s := ⟨n.kernel, faults⟩) policy
    hsound.uplink (hsound.owned id hid)
  obtain ⟨r, hr, hstep⟩ := perform_follows .tenant hfollows
  rw [step, hstep]
  refine ⟨⟨.ensureTenant id (outcomes o policy true), .ensureTenant id policy rfl, .tenant hr, rfl⟩,
    ?_, .of_changes hsound.uplink hfollows.changes tenantFootprint_not_foreign
      (tenantFootprint_numbered hid)⟩
  apply hsound.of_changes
  · exact nodeName_step cfg.hashes n.nm (.ensureTenant id (outcomes o policy true))
  · exact hfollows.changes
  · apply tenantFootprint_not_foreign
  · intro id' hid'
    apply tenantFootprint_fits hinj hid hid'
  · intro id' r' hr'
    by_cases heq : id' = id
    · subst heq
      refine ⟨hid, ?_⟩
      obtain ⟨hsame, hkernel⟩ | hpresent := hrecord r' hr'
      · rw [hkernel]
        exact (hsound.records id' r' hsame).2
      · exact hpresent
    · have hother := lookup_step_ne cfg.hashes n.nm (.ensureTenant id (outcomes o policy true)) heq
      obtain ⟨hid', hpresent⟩ := hsound.records id' r' (hother.symm.trans hr')
      exact ⟨hid', present_of_other hinj hid' hid heq hpresent hfollows.changes subset_rfl⟩

/-- `RemoveTenant` over the kernel is that of the network manager. -/
theorem removeTenant_simulates (hinj : tenants.InjOn (digits cfg.hashes))
    (hsound : Sound cfg.hashes tenants n) (id : String) :
  Simulates cfg.hashes tenants n (.removeTenant id) (step cfg n (.removeTenant id, faults))
  := by
  obtain ⟨s', hfollows, hcases⟩ := removeTenant_refines (s := ⟨n.kernel, faults⟩) n.nm.nodeName
    Outcomes.success fun r hr => (hsound.records id r hr).2
  obtain ⟨r, hr, hstep⟩ := perform_follows .tenant hfollows
  rw [step, hstep]
  refine ⟨⟨.removeTenant id Outcomes.success, .removeTenant id _, .tenant hr, rfl⟩, ?_⟩
  obtain ⟨hnm, hkernel⟩ | ⟨⟨r₀, hr₀⟩, hgone⟩ := hcases
  · rw [hnm, hkernel]
    exact ⟨hsound, .refl _ _ _⟩
  have hid := (hsound.records id r₀ hr₀).1
  refine ⟨?_, .of_changes hsound.uplink hfollows.changes tenantFootprint_not_foreign
    (tenantFootprint_numbered hid)⟩
  apply hsound.of_changes
  · exact nodeName_step cfg.hashes n.nm (.removeTenant id Outcomes.success)
  · exact hfollows.changes
  · apply tenantFootprint_not_foreign
  · intro id' hid'
    apply tenantFootprint_fits hinj hid hid'
  · intro id' r' hr'
    by_cases heq : id' = id
    · subst heq
      cases hgone.symm.trans hr'
    · have hother := lookup_step_ne cfg.hashes n.nm (.removeTenant id Outcomes.success) heq
      obtain ⟨hid', hpresent⟩ := hsound.records id' r' (hother.symm.trans hr')
      exact ⟨hid', present_of_other hinj hid' hid heq hpresent hfollows.changes subset_rfl⟩

/-- The manager after a request for a pod: the tenant's devices are those it had. -/
theorem actorEnsure_refines (choices : ℕ → Choice) {id : String} (args : PodAttachArgs) {s : System}
    {nm : NetworkManager}
    (hnamed : ∀ r, nm.tenantRecords.lookup id = some r → Named cfg.hashes id r.backend) :
  ∃ o s', Follows (podsFootprint cfg.hashes id) (actorEnsure cfg choices nm id args) s
      (nm.actorEnsure o id args) s' ∧
    KeepsDevices nm id (nm.actorEnsure o id args).2
  := by
  obtain ⟨o, s', hfollows, hkeeps⟩ := ensurePodRetry_refines (s := s) choices args
    NetworkManager.maxRetries hnamed
  cases hrecord : nm.tenantRecords.lookup id with
  | none =>
    refine ⟨o, s', ?_⟩
    simp only [actorEnsure, NetworkManager.actorEnsure, hrecord]
    exact ⟨hfollows, hkeeps⟩
  | some r =>
    by_cases hclosing : r.state = .closing
    · refine ⟨o, s, ?_⟩
      simp only [actorEnsure, NetworkManager.actorEnsure, hrecord, hclosing, ↓reduceIte]
      exact ⟨⟨⟨_, rfl, rfl⟩, Changes.refl _ _⟩, fun r' hr' => ⟨r', hr', Kernel.Moved.refl _⟩⟩
    · refine ⟨o, s', ?_⟩
      simp only [actorEnsure, NetworkManager.actorEnsure, hrecord, hclosing, ↓reduceIte]
      exact ⟨hfollows, hkeeps⟩

/-- A request for a pod over the kernel is that of the network manager, with the expansions it makes
and the pods that it moves. -/
theorem ensure_simulates (hsound : Sound cfg.hashes tenants n) (id : String) (args : PodAttachArgs)
    (choices : ℕ → Choice) :
  Simulates cfg.hashes tenants n (.ensure id args choices)
    (step cfg n (.ensure id args choices, faults))
  := by
  obtain ⟨o, s', hfollows, hkeeps⟩ := actorEnsure_refines (s := ⟨n.kernel, faults⟩) choices args
    fun r hr => Named.of_present (hsound.records id r hr).2
  obtain ⟨r, hr, hstep⟩ := perform_follows .pod hfollows
  obtain ⟨ops, hops, hafter⟩ := actorEnsure_ops cfg.hashes o n.nm id args
  rw [step, hstep]
  refine ⟨⟨.ensure id args o, .ensure id args choices o, .pod hr, rfl⟩,
    ?_, .of_changes hsound.uplink hfollows.changes podsFootprint_not_foreign podsFootprint_numbered⟩
  apply hsound.of_changes
  · exact nodeName_call cfg.hashes n.nm (.ensure id args o)
  · exact hfollows.changes
  · apply podsFootprint_not_foreign
  · intro id' _
    apply podsFootprint_fits
  · intro id' r' hr'
    by_cases heq : id' = id
    · subst heq
      obtain ⟨r, hr, hmoved⟩ := hkeeps r' hr'
      obtain ⟨hid, hpresent⟩ := hsound.records id' r hr
      exact ⟨hid, hpresent.of_changes hmoved hfollows.changes (Set.notMem_empty _)
        (Set.notMem_empty _)⟩
    · rw [hafter, lookup_after_ne _ _ heq hops] at hr'
      obtain ⟨hid', hpresent⟩ := hsound.records id' r' hr'
      exact ⟨hid', hpresent.of_changes (Kernel.Moved.refl _) hfollows.changes (Set.notMem_empty _)
        (Set.notMem_empty _)⟩

/-- Moving a pod changes no record. -/
theorem update_simulates (hsound : Sound cfg.hashes tenants n) (id : String)
    (args : PodAttachArgs) :
  Simulates cfg.hashes tenants n (.update id args) (step cfg n (.update id args, faults))
  := by
  have hreturns : ∃ r s', (actorUpdate cfg n.nm id args).run ⟨n.kernel, faults⟩ = .ok r s' ∧
      Changes netnsFootprint n.kernel s'.system := by
    rw [actorUpdate]
    split
    · apply updatePod_returns
    split
    · exact ⟨_, _, rfl, Changes.refl _ _⟩
    · apply updatePod_returns
  obtain ⟨r, s', hrun, hchanges⟩ := hreturns
  have hforeign : ∀ name ∈ netnsFootprint.names, ¬ Foreign cfg.hashes name :=
    fun name hname => absurd hname (Set.notMem_empty name)
  rw [step, perform, run_bind_of_ok hrun]
  refine ⟨⟨.idle, .update id args, .updated r, rfl⟩, ?_,
    .of_changes hsound.uplink hchanges hforeign fun _ _ => False.elim⟩
  apply hsound.of_changes rfl hchanges hforeign
  · intro id' _ name kind hnew
    exact hnew.elim
  · intro id' r' hr'
    obtain ⟨hid', hpresent⟩ := hsound.records id' r' hr'
    exact ⟨hid', hpresent.of_changes (Kernel.Moved.refl _) hchanges (Set.notMem_empty _)
      (Set.notMem_empty _)⟩

/-- The links of the host that are left are those whose other end is elsewhere. -/
theorem link_closeNetns (k : State) (path name : String) :
  (closeNetns k path).host.link name = (k.host.link name).filter fun l => !endsIn path l
  := GoMap.lookup_filter _ _ _

theorem link_closeNetns_of_kind {k : State} {name : String} {l : Link IPNet}
    (hl : k.host.link name = some l) (hkind : l.Single) (path : String) :
  (closeNetns k path).host.link name = some l
  := by
  have hends : endsIn path l = false := by
    rw [endsIn]
    split
    case h_1 netns peer heq => exact absurd heq (hkind netns peer)
    case h_2 => rfl
  rw [link_closeNetns, hl, Option.filter_some, hends]
  rfl

/-- A namespace that is dropped does not take the default route with it. -/
theorem route_closeNetns {k : State} (huplink : Uplink h k) (path : String) :
  (closeNetns k path).host.route = k.host.route
  := by
  cases hroute : k.host.route with
  | none => simp [closeNetns, hroute]
  | some r =>
    obtain ⟨-, l, hl, -, hkind⟩ := huplink r hroute
    have hkept := link_closeNetns_of_kind hl hkind path
    rw [closeNetns] at hkept ⊢
    dsimp only [Namespace.link] at hkept
    simp [hroute, hkept]

/-- A namespace that is dropped takes no device of a tenant with it. -/
theorem Sound.closeNetns (hsound : Sound h tenants n) (path : String) :
  Sound h tenants ⟨n.nm, closeNetns n.kernel path⟩
  := by
  constructor
  · intro r hr
    rw [route_closeNetns hsound.uplink] at hr
    obtain ⟨hforeign, l, hl, haddrs, hkind⟩ := hsound.uplink r hr
    exact ⟨hforeign, l, link_closeNetns_of_kind hl hkind path, haddrs, hkind⟩
  · intro id hid
    constructor
    · intro l hl
      rw [link_closeNetns, Option.filter_eq_some_iff] at hl
      exact (hsound.owned id hid).bridge l hl.1
    · intro l hl
      rw [link_closeNetns, Option.filter_eq_some_iff] at hl
      exact (hsound.owned id hid).vtep l hl.1
  · intro id r hr
    obtain ⟨hid, hmanagers, ⟨br, l, hbr, hname, hl, hkind⟩,
      vt, lv, port, hvt, hvname, hlv, hvkind⟩ := hsound.records id r hr
    refine ⟨hid, hmanagers, ⟨br, l, hbr, hname, ?_, hkind⟩, vt, lv, port, hvt, hvname, ?_, hvkind⟩
    · apply link_closeNetns_of_kind hl
      simp [Link.Single, hkind]
    · apply link_closeNetns_of_kind hlv
      simp [Link.Single, hvkind]

/-- A namespace that is dropped takes only interfaces to pods with it. -/
theorem Untouched.closeNetns {k : State} (huplink : Uplink h k) (path : String) :
  Untouched h tenants k (closeNetns k path)
  := by
  refine ⟨fun _ _ _ hl hkind => link_closeNetns_of_kind hl hkind path,
    route_closeNetns huplink path, ?_⟩
  intro name l hl
  rw [link_closeNetns, Option.filter_eq_some_iff] at hl
  exact .inl ⟨l, hl.1, rfl⟩

/-- Nothing that is assumed of the host depends on the namespaces of pods. -/
theorem Sound.of_netns (hsound : Sound h tenants n) (netns : GoMap String Kernel.Netns) :
  Sound h tenants ⟨n.nm, { n.kernel with netns := netns }⟩
  where
  uplink := hsound.uplink
  owned id hid := ⟨(hsound.owned id hid).bridge, (hsound.owned id hid).vtep⟩
  records id r hr :=
    ⟨(hsound.records id r hr).1, (hsound.records id r hr).2.managers,
      (hsound.records id r hr).2.bridge, (hsound.records id r hr).2.vtep⟩

/-- The tenants for which devices may be made. -/
def Action.In (tenants : Set String) : Action → Prop
  | .ensureTenant id _ => id ∈ tenants
  | _ => True

/-- Every action of a node is one of the network manager, whatever faults its calls meet. -/
theorem step_simulates (hinj : tenants.InjOn (digits cfg.hashes))
    (hsound : Sound cfg.hashes tenants n) {a : Action} (ha : a.In tenants)
    (faults : List (Option Errno)) :
  Simulates cfg.hashes tenants n a (step cfg n (a, faults))
  := by
  cases a with
  | ensureTenant id policy => exact ensureTenant_simulates hinj hsound ha policy
  | removeTenant id => exact removeTenant_simulates hinj hsound id
  | ensure id args choices => exact ensure_simulates hsound id args choices
  | remove id args =>
    refine ⟨⟨.remove id args, .remove id args, .tenant rfl, rfl⟩, ?_, .refl _ _ _⟩
    rw [step, NetworkManager.removePod_self]
    exact hsound
  | update id args => exact update_simulates hsound id args
  | openNetns path =>
    exact ⟨⟨.idle, .openNetns path, .none, rfl⟩, hsound.of_netns _, fun _ _ _ hl _ => hl, rfl,
      fun _ l hl => .inl ⟨l, hl, rfl⟩⟩
  | closeNetns path =>
    exact ⟨⟨.idle, .closeNetns path, .none, rfl⟩, hsound.closeNetns path,
      .closeNetns hsound.uplink path⟩

end

/-! ### Runs -/

/-- A node whose manager is new.  The kernel may have devices of the tenants, left by an earlier
process. -/
structure Starts (h : Hashes) (tenants : Set String) (nodeName : String) (n : Node) : Prop where
  manager : ∃ tm, n.nm = newNetworkManager nodeName tm
  uplink : Uplink h n.kernel
  owned : ∀ id ∈ tenants, Owned h nodeName id n.kernel

/-- A manager without records agrees with every kernel. -/
theorem Starts.sound {h : Hashes} {tenants : Set String} {nodeName : String} {n : Node}
    (hstarts : Starts h tenants nodeName n) :
  Sound h tenants n
  := by
  obtain ⟨⟨tm, hnm⟩, huplink, howned⟩ := hstarts
  refine ⟨huplink, ?_, ?_⟩
  · rw [hnm]
    exact howned
  · rw [hnm]
    intro id r hr
    cases hr

/-! ### A host -/

/-- A host with one interface, through which its default route goes. -/
def uplinkHost : State where
  host := ⟨(∅ : GoMap String (Link IPNet)).insert "eth0"
    ⟨2, .other, 1500, true, [⟨[192, 168, 0, 2], cidrMask 24 32⟩]⟩, fun _ => none,
    some ("eth0", [192, 168, 0, 1])⟩
  netns := ∅

theorem foreign_eth0 (h : Hashes) :
  Foreign h "eth0"
  := by
  intro id
  exact ⟨append_ne_append (p := "eth0") (q := brPrefix) (by decide) (by decide) "" (digits h id),
    append_ne_append (p := "eth0") (q := vxlanPrefix) (by decide) (by decide) "" (digits h id),
    append_ne_append (p := "eth0") (q := vethPrefix) (by decide) (by decide) "" id⟩

theorem uplinkHost_uplink (h : Hashes) :
  Uplink h uplinkHost
  := by
  rintro _ ⟨⟩
  exact ⟨foreign_eth0 h, _, AList.lookup_insert _, List.cons_ne_nil _ _, by simp [Link.Single]⟩

/-- The uplink is the only link of the host. -/
theorem uplinkHost_link {name : String} {l : Link IPNet} (hl : uplinkHost.host.link name = some l) :
  name = "eth0" ∧ l.kind = .other ∧ l.mtu = 1500
  := by
  replace hl := (GoMap.lookup_insert_eq _ _ _ _).symm.trans hl
  split at hl
  case isTrue hname =>
    cases hl
    exact ⟨hname, rfl, rfl⟩
  case isFalse => cases hl

theorem uplinkHost_owned (h : Hashes) (nodeName id : String) :
  Owned h nodeName id uplinkHost
  := by
  constructor
  · intro l hl
    exact absurd (uplinkHost_link hl).1.symm (foreign_eth0 h id).1
  · intro l hl
    exact absurd (uplinkHost_link hl).1.symm (foreign_eth0 h id).2.1

/-- Hash functions that keep their input. -/
def plainConfig : Config := Kernel.linuxConfig ⟨fun b => b, fun b => b⟩

theorem plainConfig_injOn :
  ({"a", "b"} : Set String).InjOn (digits plainConfig.hashes)
  := by
  have hne : digits plainConfig.hashes "a" ≠ digits plainConfig.hashes "b" := by decide
  rintro _ (rfl | rfl) _ (rfl | rfl) heq
  · rfl
  · exact absurd heq hne
  · exact absurd heq.symm hne
  · rfl

/-- The pods are moved in the order in which they are listed. -/
def inOrder : Order := ⟨fun allocs => allocs, List.Perm.refl⟩

/-- A tenant that is made at the second attempt, since the kernel is busy at first, and one that the
policy manager refuses.  The first pod is not attached, since the kernel is busy when its pair of
interfaces is made; the second one draws the name that is left of it, and then another. -/
def busyInputs : List (Action × List (Option Errno)) :=
  [(.openNetns "/run/netns/0", []), (.openNetns "/run/netns/1", []),
    (.ensureTenant "a" fun _ => true, [none, some (.other "device or resource busy")]),
    (.ensureTenant "b" fun _ => false, []), (.removeTenant "b", []),
    (.ensureTenant "a" fun _ => true, []),
    (.ensure "a" ⟨"default", "web-0", "c0", "/run/netns/0", "eth0"⟩ fun _ => ⟨["0"], inOrder⟩,
      [none, none, some (.other "device or resource busy")]),
    (.ensure "a" ⟨"default", "web-1", "c1", "/run/netns/1", "eth0"⟩
      fun _ => ⟨["0", "1"], inOrder⟩, []),
    (.closeNetns "/run/netns/0", [])]

theorem busyInputs_in :
  ∀ i ∈ busyInputs, i.1.In {"a", "b"}
  := by
  simp [busyInputs, Action.In]

theorem uplinkHost_starts (tm : TrieManager) :
  Starts plainConfig.hashes {"a", "b"} "node" ⟨newNetworkManager "node" tm, uplinkHost⟩
  where
  manager := ⟨tm, rfl⟩
  uplink := uplinkHost_uplink _
  owned id _ := uplinkHost_owned _ _ id

/-! ### Refinement -/

/-- The calls of the network manager that a run of a node makes. -/
theorem Starts.exists_calls {cfg : Config} {tenants : Set String}
    (hinj : tenants.InjOn (digits cfg.hashes)) {nodeName : String} {n : Node}
    (hstarts : Starts cfg.hashes tenants nodeName n)
    (inputs : List (Action × List (Option Errno))) (hin : ∀ i ∈ inputs, i.1.In tenants) :
  ∃ calls, List.Forall₂ (fun i c => i.1.Calls c) inputs calls ∧
    List.Forall₂ Answer.Agrees (Machine.replies (step cfg) n inputs)
      (Machine.replies (call cfg.hashes) n.nm calls) ∧
    (Machine.after (step cfg) n inputs).nm = Machine.after (call cfg.hashes) n.nm calls ∧
    Sound cfg.hashes tenants (Machine.after (step cfg) n inputs)
  := by
  apply Machine.exists_run_of_simulation
    (R := fun n' nm => n'.nm = nm ∧ Sound cfg.hashes tenants n')
    (q := fun i => i.1.In tenants) _ ⟨rfl, hstarts.sound⟩ hin
  rintro n' _ ⟨a, faults⟩ ⟨rfl, hsound⟩ ha
  obtain ⟨⟨c, hcalls, hagrees, hnm⟩, hsound', -⟩ := step_simulates hinj hsound ha faults
  exact ⟨c, hcalls, hagrees, hnm, hsound'⟩

/-- Whatever faults the calls to the kernel meet, a run of a node is a run of the network manager
with some outcomes for the devices: the same calls, answered alike, and the same records. -/
theorem after_refines {cfg : Config} {tenants : Set String}
    (hinj : tenants.InjOn (digits cfg.hashes)) {nodeName : String} {n : Node}
    (hstarts : Starts cfg.hashes tenants nodeName n)
    (inputs : List (Action × List (Option Errno))) (hin : ∀ i ∈ inputs, i.1.In tenants) :
  ∃ calls, List.Forall₂ (fun i c => i.1.Calls c) inputs calls ∧
    List.Forall₂ Answer.Agrees (Machine.replies (step cfg) n inputs)
      (Machine.replies (call cfg.hashes) n.nm calls) ∧
    (Machine.after (step cfg) n inputs).nm = Machine.after (call cfg.hashes) n.nm calls
  := by
  obtain ⟨calls, hcalls, hanswers, hnm, -⟩ := hstarts.exists_calls hinj inputs hin
  exact ⟨calls, hcalls, hanswers, hnm⟩

theorem after_refines_busyInputs :
  ∃ tm calls, newTrieManager ⟨[10, 0, 0, 0], cidrMask 28 32⟩ 30 = some tm ∧
    List.Forall₂ (fun i c => i.1.Calls c) busyInputs calls ∧
    List.Forall₂ Answer.Agrees
      (Machine.replies (step plainConfig) ⟨newNetworkManager "node" tm, uplinkHost⟩ busyInputs)
      (Machine.replies (call plainConfig.hashes) (newNetworkManager "node" tm) calls) ∧
    (Machine.after (step plainConfig) ⟨newNetworkManager "node" tm, uplinkHost⟩ busyInputs).nm
      = Machine.after (call plainConfig.hashes) (newNetworkManager "node" tm) calls
  := by
  obtain ⟨-, tm, hnew⟩ :=
    exists_newTrieManager_ipv4 [10, 0, 0, 0] 28 30 rfl (by decide) (by decide)
  obtain ⟨calls, hrun⟩ :=
    after_refines plainConfig_injOn (uplinkHost_starts tm) busyInputs busyInputs_in
  exact ⟨tm, calls, hnew, hrun⟩

/-- Both devices of the tenant are in the kernel under their recorded names, the VTEP with its
recorded identifier and hardware address, which are those that other nodes expect. -/
def Realised (h : Hashes) (nodeName id : String) (be : Backend) (k : State) : Prop :=
  ∃ br vt lb lv port, be = ⟨true, some br, some vt⟩ ∧
    br.name = bridgeName h id ∧ k.host.link br.name = some lb ∧ lb.kind = .bridge ∧
    vt.name = vtepName h id ∧ vt.vni = vni h id ∧ vt.mac = vtepMAC h id nodeName ∧
      k.host.link vt.name = some lv ∧ lv.kind = .vxlan vt.vni port vt.mac

/-- The devices of a record are in the kernel as other nodes expect them. -/
theorem Sound.realised {h : Hashes} {tenants : Set String} {n : Node} (hsound : Sound h tenants n)
    {id : String} {r : TenantRecord} (hr : n.nm.tenantRecords.lookup id = some r) :
  Realised h n.nm.nodeName id r.backend n.kernel
  := by
  obtain ⟨hid, hpresent⟩ := hsound.records id r hr
  obtain ⟨br₀, vt₀, hbe, -⟩ := Named.of_present hpresent
  obtain ⟨-, ⟨br, lb, hbr, hname, hlb, hbkind⟩, vt, lv, port, hvt, hvname, hlv, hvkind⟩ := hpresent
  rw [hbe] at hbr hvt
  cases hbr
  cases hvt
  obtain ⟨port', hkind⟩ := (hsound.owned id hid).vtep lv (by rw [← hvname]; exact hlv)
  obtain ⟨hvni, -, hmac⟩ := Kind.vxlan.inj (hvkind.symm.trans hkind)
  exact ⟨_, _, lb, lv, port, hbe, hname, hlb, hbkind, hvname, hvni, hmac, hlv, hvkind⟩

/-- What every run of a node keeps, whatever faults its calls meet. -/
theorem Starts.after {cfg : Config} {tenants : Set String}
    (hinj : tenants.InjOn (digits cfg.hashes)) {nodeName : String} {n : Node}
    (hstarts : Starts cfg.hashes tenants nodeName n)
    (inputs : List (Action × List (Option Errno))) (hin : ∀ i ∈ inputs, i.1.In tenants) :
  Sound cfg.hashes tenants (Machine.after (step cfg) n inputs) ∧
    (Machine.after (step cfg) n inputs).nm.nodeName = nodeName ∧
    Untouched cfg.hashes tenants n.kernel (Machine.after (step cfg) n inputs).kernel
  := by
  have hstep : ∀ n' i, (Sound cfg.hashes tenants n' ∧ n'.nm.nodeName = nodeName ∧
      Untouched cfg.hashes tenants n.kernel n'.kernel) → i.1.In tenants →
      Sound cfg.hashes tenants (step cfg n' i).2 ∧ (step cfg n' i).2.nm.nodeName = nodeName ∧
        Untouched cfg.hashes tenants n.kernel (step cfg n' i).2.kernel := by
    rintro n' ⟨a, faults⟩ ⟨hsound, hnode, huntouched⟩ ha
    obtain ⟨⟨c, -, -, hnm⟩, hsound', huntouched'⟩ := step_simulates hinj hsound ha faults
    refine ⟨hsound', ?_, huntouched.trans huntouched'⟩
    rw [hnm, nodeName_call, hnode]
  have hnode : n.nm.nodeName = nodeName := by
    obtain ⟨⟨tm, hnm⟩, -⟩ := hstarts
    rw [hnm]
    rfl
  exact Machine.after_of_forall_mem
    (P := fun n' => Sound cfg.hashes tenants n' ∧ n'.nm.nodeName = nodeName ∧
      Untouched cfg.hashes tenants n.kernel n'.kernel) hstep
    ⟨hstarts.sound, hnode, .refl _ _ _⟩ hin

/-- Whatever faults the calls to the kernel meet, after every run of a node the tenants with records
have their devices in the kernel, the other links of the host and the default route are as they
were, and the only tunnels that were not there are VTEPs of the tenants. -/
theorem after_realised {cfg : Config} {tenants : Set String}
    (hinj : tenants.InjOn (digits cfg.hashes)) {nodeName : String} {n : Node}
    (hstarts : Starts cfg.hashes tenants nodeName n)
    (inputs : List (Action × List (Option Errno))) (hin : ∀ i ∈ inputs, i.1.In tenants) :
  (∀ id r, (Machine.after (step cfg) n inputs).nm.tenantRecords.lookup id = some r →
      id ∈ tenants ∧ Realised cfg.hashes nodeName id r.backend
        (Machine.after (step cfg) n inputs).kernel) ∧
    Untouched cfg.hashes tenants n.kernel (Machine.after (step cfg) n inputs).kernel
  := by
  obtain ⟨hsound, hnode, huntouched⟩ := hstarts.after hinj inputs hin
  refine ⟨?_, huntouched⟩
  intro id r hr
  refine ⟨(hsound.records id r hr).1, ?_⟩
  rw [← hnode]
  exact hsound.realised hr

/-- The bridge of the tenant, with a pod attached to it, no longer reports the hardware address that
is recorded. -/
theorem after_realised_busyInputs :
  ∃ tm r br, newTrieManager ⟨[10, 0, 0, 0], cidrMask 28 32⟩ 30 = some tm ∧
    (Machine.after (step plainConfig) ⟨newNetworkManager "node" tm, uplinkHost⟩
      busyInputs).nm.tenantRecords.lookup "a" = some r ∧ r.backend.bridge = some br ∧
    (plainConfig.netlink.attrs (Machine.after (step plainConfig)
      ⟨newNetworkManager "node" tm, uplinkHost⟩ busyInputs).kernel.host br.name).mac ≠ br.mac ∧
    Realised plainConfig.hashes "node" "a" r.backend
      (Machine.after (step plainConfig) ⟨newNetworkManager "node" tm, uplinkHost⟩ busyInputs).kernel
  := by
  have heval : ((newTrieManager ⟨[10, 0, 0, 0], cidrMask 28 32⟩ 30).bind fun tm =>
      let n := Machine.after (step plainConfig) ⟨newNetworkManager "node" tm, uplinkHost⟩ busyInputs
      (n.nm.tenantRecords.lookup "a").bind fun r => r.backend.bridge.bind fun br =>
        if (plainConfig.netlink.attrs n.kernel.host br.name).mac ≠ br.mac then some (r, br)
        else none).isSome = true := by
    decide +kernel
  obtain ⟨⟨r, br⟩, heval⟩ := Option.isSome_iff_exists.mp heval
  obtain ⟨tm, hnew, heval⟩ := Option.bind_eq_some_iff.mp heval
  obtain ⟨r', hr, heval⟩ := Option.bind_eq_some_iff.mp heval
  obtain ⟨br', hbr, heval⟩ := Option.bind_eq_some_iff.mp heval
  obtain ⟨hmac, heq⟩ := Option.ite_none_right_eq_some.mp heval
  cases heq
  have hrealised := after_realised plainConfig_injOn (uplinkHost_starts tm) busyInputs busyInputs_in
  exact ⟨tm, r, br, hnew, hr, hbr, hmac, (hrealised.1 "a" r hr).2⟩

end Node

end Nmanager
