import Misokube.Daemon.Reports
import Misokube.Device.Addresses
import Misokube.Lib.Machine
import Misokube.Lib.WorkQueue

/-!
# Peers follow the reports of a node

A daemon, the reports of another node, and the commands to set up local tenants, in any order.
The informer changes the object of the node in the lister and notifies the handler some time
later; the worker reads the object and some time later the local tenants, and sends commands; the
dispatcher runs the commands, and a new tenant is mirrored into the object of the local node.  All
calls of the managers succeed.

Once all is done, every local tenant that the node reports has the peer that is built from the last
report (`Synced`).  This holds as long as a tenant that the node reports is set up only while a sync
is still to come.  In general it does not: nothing starts a sync when a tenant is set up.
-/

namespace Daemon

namespace Sync

open Api Peers

/-- The parsers and hashes, and the objects of the local and of the other node apart from what they
report. -/
structure Config where
  parsers : Parsers
  hashes : Device.Hashes
  self : NodeStore
  remote : NodeStore
  remote_ne_self : remote.specName ≠ self.specName
  remote_ne_empty : remote.specName ≠ ""

/-- What the worker is doing: a sync with a report it has read, or a mirroring of the local
tenants. -/
inductive Work where
  | sync (report : GoMap String TenantInfra)
  | mirror

/-- The last report of the other node and what the local node reports, the events that are not
handled yet, the queue and what the worker is doing, the commands, and the network manager. -/
structure State where
  object : Option (GoMap String TenantInfra)
  mirrored : GoMap String TenantInfra
  notifications : List (Option NodeStore × NodeStore)
  queue : WorkQueue WorkItem
  current : Option Work
  inbox : List Command
  nm : Manager

def init (nm : Manager) : State :=
  ⟨none, ∅, [], ⟨[], []⟩, none, [], nm⟩

/-- The other node reports, the next event is handled, a tenant is to be set up, the worker takes an
item or completes it, an item that failed is added again, or the dispatcher runs a command.  With
the completion of an item are given the orders in which it goes through the report and the local
tenants, or what it mirrors and which calls for that succeed; with a command, whether a tenant could
be set up. -/
inductive Action where
  | report (tenants : GoMap String TenantInfra)
  | deliver
  | ensureTenant (tenantID : String)
  | take
  | complete (tenants : GoMap String TenantInfra) (localSnaps : List String) (o : StatusOutcomes)
  | retry (item : WorkItem)
  | dispatch (created : Bool)

/-- The item of a sync with the other node. -/
def syncItem : WorkItem :=
  ⟨.nodeStoreCRD, .update⟩

/-- The item of a mirroring. -/
def mirrorItem : WorkItem :=
  ⟨.networkManager, .update⟩

def handle (nodeName : String) : Option NodeStore × NodeStore → Option WorkItem
  | (none, ns) => addNodestoreEventHandler nodeName ns
  | (some oldNS, newNS) => updateNodestoreEventHandler nodeName oldNS newNS

/-- One command of the dispatcher, and whether the network manager told the operator. -/
def execute (hashes : Device.Hashes) (created : Bool) (nm : Manager) : Command → Bool × Manager
  | .ensureTenant t => nm.ensureTenant hashes created t
  | .ensurePeer remote t => (false, (nm.ensurePeer .success t remote).2)
  | .removePeer remote t => (false, (nm.removePeer .success t remote).2)
  | .removeTenant _ => (false, nm)
  | .ensureDefaultProxy _ _ => (false, nm)

/-- The worker takes an item; a sync reads the object. -/
def begin (s : State) (item : WorkItem) (q : WorkQueue WorkItem) : State :=
  if item = syncItem then
    match s.object with
    | none => { s with queue := q.addRateLimited item }
    | some tenants => { s with queue := q, current := some (.sync tenants) }
  else if item = mirrorItem then { s with queue := q, current := some .mirror }
  else { s with queue := q }

namespace Config

/-- The object of the other node with a report. -/
def reported (cfg : Config) (tenants : GoMap String TenantInfra) : NodeStore :=
  { cfg.remote with tenants := tenants }

/-- The worker completes an item. -/
def finish (cfg : Config) (s : State) (tenants : GoMap String TenantInfra)
    (localSnaps : List String) (o : StatusOutcomes) : State :=
  match s.current with
  | none => s
  | some (.sync report) =>
    if tenants.entries.Perm report.entries ∧ localSnaps.Perm s.nm.tenantRecords.keys then
      let r := reconcileNodeStoreUpdate cfg.parsers cfg.self.specName (cfg.reported tenants)
        localSnaps
      let q := if r.1.toOption.isSome then s.queue else s.queue.addRateLimited syncItem
      { s with current := none, queue := q, inbox := s.inbox ++ r.2 }
    else s
  | some .mirror =>
    -- an object that cannot be fetched is left as it is, and the item counts as done
    if o.get = false then { s with current := none }
    else if o.updateStatus = false then
      { s with current := none, queue := s.queue.addRateLimited mirrorItem }
    else
      let n := (some { cfg.self with tenants := s.mirrored }, { cfg.self with tenants := tenants })
      { s with current := none, mirrored := tenants, notifications := s.notifications ++ [n] }

def step (cfg : Config) (s : State) : Action → Unit × State
  | .report tenants =>
    let n := (s.object.map cfg.reported, cfg.reported tenants)
    ((), { s with object := some tenants, notifications := s.notifications ++ [n] })
  | .deliver =>
    match s.notifications with
    | [] => ((), s)
    | n :: rest =>
      match handle cfg.self.specName n with
      | none => ((), { s with notifications := rest })
      | some item => ((), { s with notifications := rest, queue := s.queue.add item })
  | .ensureTenant t => ((), { s with inbox := s.inbox ++ (Command.ensureTenant t).send })
  | .take =>
    match s.current, s.queue.get with
    | none, some (item, q) => ((), begin s item q)
    | _, _ => ((), s)
  | .complete tenants localSnaps o => ((), cfg.finish s tenants localSnaps o)
  | .retry item => ((), { s with queue := s.queue.retry item })
  | .dispatch created =>
    match s.inbox with
    | [] => ((), s)
    | c :: rest =>
      let r := execute cfg.hashes created s.nm c
      let q := if r.1 then s.queue.add mirrorItem else s.queue
      ((), { s with inbox := rest, queue := q, nm := r.2 })

end Config

/-! ### Properties -/

/-- Nothing is left to do. -/
structure Quiet (s : State) : Prop where
  notifications : s.notifications = []
  pending : s.queue.pending = []
  delayed : s.queue.delayed = []
  current : s.current = none
  inbox : s.inbox = []

/-- Once nothing is left to do, every local tenant with a valid last report has the peer of it. -/
def Synced (cfg : Config) (s : State) : Prop :=
  Quiet s → ∀ tenants ∈ s.object, ∀ t, ∀ info ∈ tenants.lookup t, ∀ peer,
    buildRemoteTenantInfra cfg.parsers (cfg.reported tenants) info = .ok peer →
      (s.nm.tenantRecords.lookup t).isSome →
        s.nm.getStoredPeer t cfg.remote.specName = some peer

/-- A sync is in the queue, or an event that leads to one is not handled yet. -/
def Due (cfg : Config) (s : State) : Prop :=
  s.queue.Holds syncItem ∨ ∃ n ∈ s.notifications, handle cfg.self.specName n = some syncItem

instance (cfg : Config) (s : State) : Decidable (Due cfg s) :=
  inferInstanceAs (Decidable (_ ∨ ∃ n ∈ s.notifications, _))

/-- The worker has not read the local tenants yet for the sync it is doing. -/
def syncing (s : State) : Bool :=
  match s.current with
  | some (.sync _) => true
  | _ => false

/-- If the command sets up a tenant that the node reports, then a sync is still to come. -/
def Timely (cfg : Config) (s : State) : Command → Prop
  | .ensureTenant t => s.nm.tenantRecords.lookup t = none →
      (∃ tenants ∈ s.object, (tenants.lookup t).isSome) → Due cfg s ∨ syncing s = true
  | _ => True

instance (cfg : Config) (s : State) : ∀ c : Command, Decidable (Timely cfg s c)
  | .ensureTenant t => decidable_of_iff ((s.nm.tenantRecords.lookup t).isNone →
      (∃ tenants ∈ s.object, (tenants.lookup t).isSome) → Due cfg s ∨ syncing s = true)
      (by rw [Timely, Option.isNone_iff_eq_none])
  | .removeTenant _ => isTrue trivial
  | .ensurePeer _ _ => isTrue trivial
  | .removePeer _ _ => isTrue trivial
  | .ensureDefaultProxy _ _ => isTrue trivial

/-- A tenant that the node reports is set up only while a sync is still to come. -/
def Action.Clean (cfg : Config) (s : State) : Action → Prop
  | .dispatch _ => ∀ c ∈ s.inbox.head?, Timely cfg s c
  | _ => True

instance (cfg : Config) (s : State) : ∀ a : Action, Decidable (a.Clean cfg s)
  | .dispatch _ => inferInstanceAs (Decidable (∀ c ∈ s.inbox.head?, _))
  | .report _ => isTrue trivial
  | .deliver => isTrue trivial
  | .ensureTenant _ => isTrue trivial
  | .take => isTrue trivial
  | .complete _ _ _ => isTrue trivial
  | .retry _ => isTrue trivial

/-- The managers are set, and the tenants have a VTEP but no peers yet. -/
structure Fresh (nm : Manager) : Prop where
  managers : nm.managers = true
  named : nm.tenantRecords.lookup "" = none
  vtep : ∀ t, ∀ ltr ∈ nm.tenantRecords.lookup t, ∃ device ∈ ltr.vtep, device ≠ ""
  peers : ∀ t, ∀ ltr ∈ nm.tenantRecords.lookup t, ltr.peers = ∅

/-! ### Peers as the commands leave them -/

section

variable {cfg : Config} {s : State} {t : String}

/-- What a command does to the peer of a tenant that has a record. -/
def effect (t : String) (peer : Option RemoteTenantInfra) : Command → Option RemoteTenantInfra
  | .ensurePeer remote t' => if t = t' then some remote else peer
  | .removePeer _ t' => if t = t' then none else peer
  | _ => peer

/-- The command is about the node, and a peer it leads to is complete. -/
def About (node : String) : Command → Prop
  | .ensurePeer remote _ => remote.nodeName = node ∧ Complete remote
  | .removePeer remote _ => remote.nodeName = node
  | _ => True

theorem effect_of_ne {c : Command} (hc : c.tenantID ≠ t) (before : Option RemoteTenantInfra) :
  effect t before c = before
  := by
  cases c with
  | ensurePeer remote t' => apply if_neg (Ne.symm hc)
  | removePeer remote t' => apply if_neg (Ne.symm hc)
  | ensureTenant t' => rfl
  | removeTenant t' => rfl
  | ensureDefaultProxy t' remote => rfl

/-- If all commands for the tenant leave the same peer, and there is one, then it has the peer. -/
theorem foldl_effect {cmds : List Command} {peer : Option RemoteTenantInfra}
    (hall : ∀ c ∈ cmds, c.tenantID = t → ∀ before, effect t before c = peer)
    (hmem : ∃ c ∈ cmds, c.tenantID = t) (before : Option RemoteTenantInfra) :
  cmds.foldl (effect t) before = peer
  := by
  induction cmds using List.reverseRecOn with
  | nil => simp at hmem
  | append_singleton cmds c ih =>
    rw [List.foldl_concat]
    by_cases hc : c.tenantID = t
    · apply hall c (by simp) hc
    · rw [effect_of_ne hc]
      apply ih
      · intro c' hc'
        apply hall c' (List.mem_append_left _ hc')
      · obtain ⟨c', hc', hct⟩ := hmem
        obtain hc' | hc' := List.mem_append.mp hc'
        · exact ⟨c', hc', hct⟩
        · rw [List.mem_singleton] at hc'
          subst hc'
          contradiction

/-- The tenants have names, and what is stored for the node is complete. -/
structure Sane (node : String) (nm : Manager) : Prop extends Healthy node nm where
  named : nm.tenantRecords.lookup "" = none

/-- A new record has a VTEP and no peers. -/
theorem ensureTenant_cases (nm : Manager) (hashes : Device.Hashes) (created : Bool) (t : String) :
  (nm.ensureTenant hashes created t).2 = nm
    ∨ t ≠ "" ∧ nm.tenantRecords.lookup t = none ∧ ∃ device, device ≠ ""
      ∧ (nm.ensureTenant hashes created t).2
        = { nm with tenantRecords := nm.tenantRecords.insert t ⟨some device, ∅⟩ }
  := by
  rw [Manager.ensureTenant]
  split
  case isTrue => left; rfl
  case isFalse h =>
    rw [not_or, not_or, Option.not_isSome_iff_eq_none] at h
    split
    case h_1 => left; rfl
    case h_2 device hdevice =>
      right
      use h.1, h.2.1, device, Device.ne_empty_of_generateDeviceName hdevice

/-- A command leaves the records as it says, and adds a record only for a tenant to be set up. -/
structure Executes (node : String) (c : Command) (nm nm' : Manager) : Prop where
  sane : Sane node nm'
  keeps : ∀ t, (nm.tenantRecords.lookup t).isSome → (nm'.tenantRecords.lookup t).isSome
  peer : ∀ t, (nm.tenantRecords.lookup t).isSome →
    nm'.getStoredPeer t node = effect t (nm.getStoredPeer t node) c
  new : ∀ t, (nm'.tenantRecords.lookup t).isSome →
    (nm.tenantRecords.lookup t).isSome ∨ c = .ensureTenant t

variable {node : String} {nm nm' : Manager} {c : Command}

/-- A command that does nothing. -/
theorem Executes.refl (hnm : Sane node nm) (heffect : ∀ t before, effect t before c = before) :
  Executes node c nm nm
  := by
  constructor
  · exact hnm
  · intro t
    exact id
  · intro t _
    rw [heffect]
  · intro t
    apply Or.inl

/-- A command that replaces the peer of a tenant. -/
theorem Executes.of_replaces {peer : Option RemoteTenantInfra} (hnm : Sane node nm)
    (h : Replaces t node peer nm nm') (hpeer : ∀ p ∈ peer, p.nodeName = node ∧ Complete p)
    (heffect : ∀ t' before, effect t' before c = if t' = t then peer else before) :
  Executes node c nm nm'
  := by
  constructor
  · use h.healthy hnm.toHealthy hpeer
    rw [← Option.not_isSome_iff_eq_none, h.isSome_lookup, hnm.named]
    simp
  · intro t' ht'
    rw [h.isSome_lookup]
    exact ht'
  · intro t' ht'
    rw [h.getStoredPeer, heffect]
    simp [ht']
  · intro t' ht'
    left
    rw [← h.isSome_lookup]
    exact ht'

/-- A command that adds a record. -/
theorem Executes.of_insert {device : String} (hnm : Sane node nm) (hne : t ≠ "")
    (hnone : nm.tenantRecords.lookup t = none) (hdevice : device ≠ "") :
  Executes node (.ensureTenant t) nm
    { nm with tenantRecords := nm.tenantRecords.insert t ⟨some device, ∅⟩ }
  := by
  have hlookup : ∀ t', t' ≠ t → (nm.tenantRecords.insert t ⟨some device, ∅⟩).lookup t'
      = nm.tenantRecords.lookup t' := by
    intro t' ht'
    apply AList.lookup_insert_ne ht'
  have hne_of_some : ∀ t', (nm.tenantRecords.lookup t').isSome → t' ≠ t := by
    rintro t' ht' rfl
    rw [hnone] at ht'
    simp at ht'
  constructor
  · refine ⟨⟨hnm.managers, ?_, ?_⟩, ?_⟩
    · intro t' ltr hltr
      rw [GoMap.lookup_insert_eq] at hltr
      split at hltr
      · cases hltr
        exact ⟨device, rfl, hdevice⟩
      · apply hnm.vtep t' ltr hltr
    · intro t' ltr hltr
      rw [GoMap.lookup_insert_eq] at hltr
      split at hltr
      · cases hltr
        simp
      · apply hnm.peers t' ltr hltr
    · rw [hlookup "" hne.symm]
      exact hnm.named
  · intro t' ht'
    rw [hlookup t' (hne_of_some t' ht')]
    exact ht'
  · intro t' ht'
    rw [Manager.getStoredPeer, hlookup t' (hne_of_some t' ht')]
    rfl
  · intro t' ht'
    rw [GoMap.lookup_insert_eq] at ht'
    split at ht'
    case isTrue heq =>
      right
      rw [heq]
    case isFalse =>
      left
      exact ht'

theorem execute_spec (hnode : node ≠ "") (hnm : Sane node nm) (hc : About node c)
    (hashes : Device.Hashes) (created : Bool) :
  Executes node c nm (execute hashes created nm c).2
  := by
  cases c with
  | ensurePeer remote t' =>
    obtain ⟨rfl, hremote⟩ := hc
    apply Executes.of_replaces hnm (ensurePeer_replaces hnm.toHealthy hnode hremote)
    · rintro p ⟨⟩
      exact ⟨rfl, hremote⟩
    · intro t before
      rfl
  | removePeer remote t' =>
    obtain rfl := hc
    apply Executes.of_replaces hnm (removePeer_replaces hnm.toHealthy hnode)
    · simp
    · intro t before
      rfl
  | removeTenant t' => apply Executes.refl hnm fun _ _ => rfl
  | ensureDefaultProxy t' remote => apply Executes.refl hnm fun _ _ => rfl
  | ensureTenant t' =>
    rw [execute]
    obtain heq | ⟨hne, hnone, device, hdevice, heq⟩ := ensureTenant_cases nm hashes created t'
    · rw [heq]
      apply Executes.refl hnm fun _ _ => rfl
    · rw [heq]
      apply Executes.of_insert hnm hne hnone hdevice

end

/-! ### The invariant -/

/-- Once the commands have run, the tenants that have a record have the peers of the report. -/
def Wired (cfg : Config) (s : State) (tenants : GoMap String TenantInfra) : Prop :=
  ∀ t, ∀ info ∈ tenants.lookup t, ∀ peer,
    buildRemoteTenantInfra cfg.parsers (cfg.reported tenants) info = .ok peer →
      (s.nm.tenantRecords.lookup t).isSome →
        s.inbox.foldl (effect t) (s.nm.getStoredPeer t cfg.remote.specName) = some peer

/-- What the steps keep. -/
structure Inv (cfg : Config) (s : State) : Prop where
  sane : Sane cfg.remote.specName s.nm
  about : ∀ c ∈ s.inbox, About cfg.remote.specName c
  /-- Unless another sync is due, a sync has read the last report. -/
  reading : ¬ Due cfg s → ∀ tenants ∈ s.object, ∀ report, s.current = some (.sync report) →
    SameReport report tenants
  /-- Unless a sync is still to come, the commands lead to the peers of the last report. -/
  wired : ¬ Due cfg s → syncing s = false → ∀ tenants ∈ s.object, Wired cfg s tenants

section

variable {cfg : Config} {s s' : State}

theorem syncing_eq_false_iff :
  syncing s = false ↔ ∀ report, s.current ≠ some (.sync report)
  := by
  rw [syncing]
  split
  case h_1 report heq => simp [heq]
  case h_2 hother => simpa using hother

theorem init_inv {nm : Manager} (hnm : Fresh nm) :
  Inv cfg (init nm)
  := by
  constructor
  · refine ⟨⟨hnm.managers, hnm.vtep, ?_⟩, hnm.named⟩
    intro t ltr hltr p hp
    rw [hnm.peers t ltr hltr] at hp
    simp at hp
  all_goals simp [init]

/-- The same report leads to the same peers. -/
theorem Wired.of_sameReport {report tenants : GoMap String TenantInfra}
    (h : Wired cfg s report) (hsame : SameReport report tenants) :
  Wired cfg s tenants
  := by
  intro t info hinfo peer hpeer
  have ht := hsame t
  rw [Option.mem_def.mp hinfo, Option.map_some, Option.map_eq_some_iff] at ht
  obtain ⟨info', hinfo', hfor⟩ := ht
  apply h t info' hinfo' peer
  apply build_of_forPeers rfl rfl hfor hpeer

/-- A step that changes only the queue and the events, or completes an item that is not a sync, and
after which a sync is due if it was. -/
theorem Inv.of_due (h : Inv cfg s) (hobject : s'.object = s.object) (hinbox : s'.inbox = s.inbox)
    (hnm : s'.nm = s.nm)
    (hcurrent : ∀ report, s'.current = some (.sync report) ↔ s.current = some (.sync report))
    (hdue : Due cfg s → Due cfg s') :
  Inv cfg s'
  := by
  constructor
  · rw [hnm]
    exact h.sane
  · rw [hinbox]
    exact h.about
  · rw [hobject]
    intro hnot tenants htenants report hreport
    apply h.reading (mt hdue hnot) tenants htenants report ((hcurrent report).mp hreport)
  · rw [hobject]
    intro hnot hsyncing tenants htenants
    rw [Wired, hinbox, hnm]
    apply h.wired (mt hdue hnot) _ tenants htenants
    rw [syncing_eq_false_iff] at hsyncing ⊢
    intro report hreport
    apply hsyncing report ((hcurrent report).mpr hreport)

theorem report_inv (h : Inv cfg s) (tenants : GoMap String TenantInfra) :
  Inv cfg (cfg.step s (.report tenants)).2
  := by
  have hdue : Due cfg s → Due cfg (cfg.step s (.report tenants)).2 := by
    rintro (hholds | ⟨n, hn, hhandle⟩)
    · left
      exact hholds
    · right
      use n, List.mem_append_left _ hn
  -- if the event does not lead to a sync, then the node reported the same before
  have hsame : ¬ Due cfg (cfg.step s (.report tenants)).2 →
      ∃ before, s.object = some before ∧ SameReport before tenants := by
    intro hnot
    have hhandle : handle cfg.self.specName (s.object.map cfg.reported, cfg.reported tenants)
        ≠ some syncItem := by
      intro hsync
      apply hnot
      right
      exact ⟨_, List.mem_append_right _ (List.mem_singleton_self _), hsync⟩
    have hremote : (cfg.reported tenants).specName ≠ cfg.self.specName := cfg.remote_ne_self
    cases hobject : s.object with
    | none =>
      rw [hobject] at hhandle
      simp [handle, addNodestoreEventHandler, hremote, syncItem] at hhandle
    | some before =>
      use before, rfl
      apply sameReport_of_equal
      rw [hobject] at hhandle
      simp only [Option.map_some, handle, updateNodestoreEventHandler, if_neg hremote] at hhandle
      split at hhandle
      case isTrue hequal => exact hequal
      case isFalse => exact absurd rfl hhandle
  constructor
  · exact h.sane
  · exact h.about
  · rintro hnot _ ⟨⟩ report hcurrent
    obtain ⟨before, hobject, hbefore⟩ := hsame hnot
    apply (h.reading (mt hdue hnot) before hobject report hcurrent).trans hbefore
  · rintro hnot hsyncing _ ⟨⟩
    obtain ⟨before, hobject, hbefore⟩ := hsame hnot
    have hwired := h.wired (mt hdue hnot) hsyncing before hobject
    exact hwired.of_sameReport hbefore

theorem deliver_inv (h : Inv cfg s) :
  Inv cfg (cfg.step s .deliver).2
  := by
  rw [Config.step]
  cases heq : s.notifications with
  | nil => exact h
  | cons n rest =>
    dsimp only
    cases hhandle : handle cfg.self.specName n with
    | none =>
      refine h.of_due rfl rfl rfl (fun _ => Iff.rfl) ?_
      rintro (hholds | ⟨n', hn', hhandle'⟩)
      · left
        exact hholds
      · right
        rw [heq] at hn'
        obtain rfl | hn' := List.mem_cons.mp hn'
        · rw [hhandle] at hhandle'
          simp at hhandle'
        · use n', hn'
    | some item =>
      refine h.of_due rfl rfl rfl (fun _ => Iff.rfl) ?_
      rintro (hholds | ⟨n', hn', hhandle'⟩)
      · left
        apply WorkQueue.holds_add.mpr (.inl hholds)
      · rw [heq] at hn'
        obtain rfl | hn' := List.mem_cons.mp hn'
        · left
          rw [hhandle, Option.some.injEq] at hhandle'
          apply WorkQueue.holds_add.mpr (.inr hhandle'.symm)
        · right
          use n', hn'

theorem ensureTenant_inv (h : Inv cfg s) (t : String) :
  Inv cfg (cfg.step s (.ensureTenant t)).2
  := by
  have hsend : ∀ c ∈ (Command.ensureTenant t).send, c = .ensureTenant t := by
    intro c hc
    apply (mem_send.mp hc).1
  constructor
  · exact h.sane
  · intro c hc
    obtain hc | hc := List.mem_append.mp hc
    · apply h.about c hc
    · rw [hsend c hc]
      trivial
  · exact h.reading
  · intro hnot hsyncing tenants htenants t' info hinfo peer hpeer hrecord
    simp only [Config.step, List.foldl_append]
    rw [h.wired hnot hsyncing tenants htenants t' info hinfo peer hpeer hrecord, Command.send]
    split <;> rfl

theorem retry_inv (h : Inv cfg s) (item : WorkItem) :
  Inv cfg (cfg.step s (.retry item)).2
  := by
  refine h.of_due rfl rfl rfl (fun _ => Iff.rfl) ?_
  rintro (hholds | hevent)
  · left
    apply WorkQueue.holds_retry.mpr hholds
  · right
    exact hevent

theorem take_inv (h : Inv cfg s) :
  Inv cfg (cfg.step s .take).2
  := by
  rw [Config.step]
  split
  case h_2 => exact h
  case h_1 item q hcurrent hget =>
    -- an item of another kind leaves a sync that is due
    have hother : item ≠ syncItem → Due cfg s → q.Holds syncItem
        ∨ ∃ n ∈ s.notifications, handle cfg.self.specName n = some syncItem := by
      rintro hitem (hholds | hevent)
      · left
        apply (WorkQueue.holds_of_get hget hitem.symm).mpr hholds
      · right
        exact hevent
    rw [begin]
    split
    case isTrue hitem =>
      split
      case h_1 hobject =>
        constructor
        · exact h.sane
        · exact h.about
        · simp [hobject]
        · simp [hobject]
      case h_2 tenants hobject =>
        constructor
        · exact h.sane
        · exact h.about
        · intro _ tenants' htenants' report hreport
          obtain rfl : tenants = tenants' := Option.some.inj (hobject.symm.trans htenants')
          cases hreport
          apply SameReport.refl
        · intro _ hsyncing
          cases hsyncing
    case isFalse hitem =>
      split
      · refine h.of_due rfl rfl rfl ?_ (hother hitem)
        simp [hcurrent]
      · exact h.of_due rfl rfl rfl (fun _ => Iff.rfl) (hother hitem)

/-- A sync that has read the last report and succeeds leads to its peers. -/
theorem wired_of_reconcile {report tenants : GoMap String TenantInfra} {localSnaps : List String}
    {object : GoMap String TenantInfra} (h : Inv cfg s)
    (htenants : tenants.entries.Perm report.entries)
    (hlocal : localSnaps.Perm s.nm.tenantRecords.keys) (hsame : SameReport report object)
    (hok : (reconcileNodeStoreUpdate cfg.parsers cfg.self.specName (cfg.reported tenants)
      localSnaps).1 = .ok ())
    {t : String} {info : TenantInfra} {peer : RemoteTenantInfra} (hinfo : info ∈ object.lookup t)
    (hpeer : buildRemoteTenantInfra cfg.parsers (cfg.reported object) info = .ok peer)
    (hrecord : (s.nm.tenantRecords.lookup t).isSome) (before : Option RemoteTenantInfra) :
  (reconcileNodeStoreUpdate cfg.parsers cfg.self.specName (cfg.reported tenants)
    localSnaps).2.foldl (effect t) before = some peer
  := by
  have ht := hsame t
  rw [← AList.perm_lookup htenants, Option.mem_def.mp hinfo, Option.map_some,
    Option.map_eq_some_iff] at ht
  obtain ⟨info', hinfo', hfor⟩ := ht
  have hbuild : buildRemoteTenantInfra cfg.parsers (cfg.reported tenants) info' = .ok peer :=
    build_of_forPeers rfl rfl hfor hpeer
  apply foldl_effect
  · intro c hc hct before
    obtain ⟨t', info'', hinfo'', peer', hpeer', rfl⟩ | ⟨t', hnone, rfl⟩ :=
      mem_reconcileNodeStoreUpdate hc
    · obtain rfl : t' = t := hct
      obtain rfl : info' = info'' := Option.some.inj (hinfo'.symm.trans hinfo'')
      rw [hbuild, Except.ok.injEq] at hpeer'
      rw [hpeer', effect, if_pos rfl]
    · obtain rfl : t' = t := hct
      have hcontra := hnone.symm.trans hinfo'
      simp at hcontra
  · have hremote : (cfg.reported tenants).specName ≠ cfg.self.specName := cfg.remote_ne_self
    refine ⟨.ensurePeer peer t, ?_, rfl⟩
    apply ensurePeer_mem_reconcile hremote hok hinfo' hbuild
    · apply hlocal.mem_iff.mpr (AList.lookup_isSome.mp hrecord)
    · rintro rfl
      rw [h.sane.named] at hrecord
      simp at hrecord

theorem about_of_mem_reconcile {tenants : GoMap String TenantInfra} {localSnaps : List String}
    {c : Command} (hc : c ∈ (reconcileNodeStoreUpdate cfg.parsers cfg.self.specName
      (cfg.reported tenants) localSnaps).2) :
  About cfg.remote.specName c
  := by
  obtain ⟨t, info, -, peer, hpeer, rfl⟩ | ⟨t, -, rfl⟩ := mem_reconcileNodeStoreUpdate hc
  · apply build_complete hpeer
  · rfl

theorem complete_inv (h : Inv cfg s) (tenants : GoMap String TenantInfra) (localSnaps : List String)
    (o : StatusOutcomes) :
  Inv cfg (cfg.step s (.complete tenants localSnaps o)).2
  := by
  rw [Config.step, Config.finish]
  split
  · exact h
  case h_2 report hcurrent =>
    split
    case isFalse => exact h
    case isTrue hperm =>
      obtain ⟨htenants, hlocal⟩ := hperm
      dsimp only
      constructor
      · exact h.sane
      · intro c hc
        obtain hc | hc := List.mem_append.mp hc
        · apply h.about c hc
        · apply about_of_mem_reconcile hc
      · simp
      · intro hnot _ object hobject t info hinfo peer hpeer hrecord
        rw [List.foldl_append]
        cases hok : (reconcileNodeStoreUpdate cfg.parsers cfg.self.specName (cfg.reported tenants)
            localSnaps).1 with
        | error e =>
          -- a sync that fails is due again
          exfalso
          apply hnot
          left
          rw [hok]
          apply WorkQueue.holds_addRateLimited.mpr (.inr rfl)
        | ok =>
          have hnot' : ¬ Due cfg s := by
            rw [hok] at hnot
            exact hnot
          apply wired_of_reconcile h htenants hlocal _ hok hinfo hpeer hrecord
          apply h.reading hnot' object hobject report hcurrent
  case h_3 hcurrent =>
    split
    · refine h.of_due rfl rfl rfl ?_ id
      simp [hcurrent]
    split
    · refine h.of_due rfl rfl rfl ?_ ?_
      · simp [hcurrent]
      · rintro (hholds | hevent)
        · left
          apply WorkQueue.holds_addRateLimited.mpr (.inl hholds)
        · right
          exact hevent
    · refine h.of_due rfl rfl rfl ?_ ?_
      · simp [hcurrent]
      · rintro (hholds | ⟨n, hn, hhandle⟩)
        · left
          exact hholds
        · right
          use n, List.mem_append_left _ hn

theorem dispatch_inv (h : Inv cfg s) (created : Bool)
    (hclean : (Action.dispatch created).Clean cfg s) :
  Inv cfg (cfg.step s (.dispatch created)).2
  := by
  rw [Config.step]
  cases hinbox : s.inbox with
  | nil => exact h
  | cons c rest =>
    have hc : About cfg.remote.specName c := by
      apply h.about
      rw [hinbox]
      apply List.mem_cons_self
    have hexec := execute_spec cfg.remote_ne_empty h.sane hc cfg.hashes created
    have htimely : Timely cfg s c := by
      apply hclean
      rw [hinbox]
      rfl
    dsimp only
    set nm' := (execute cfg.hashes created s.nm c).2
    set q := if (execute cfg.hashes created s.nm c).1 then s.queue.add mirrorItem else s.queue
      with hq
    have hdue : Due cfg s → Due cfg { s with inbox := rest, queue := q, nm := nm' } := by
      rintro (hholds | hevent)
      · left
        dsimp only
        rw [hq]
        split
        · apply WorkQueue.holds_add.mpr (.inl hholds)
        · exact hholds
      · right
        exact hevent
    constructor
    · exact hexec.sane
    · intro c' hc'
      apply h.about
      rw [hinbox]
      apply List.mem_cons_of_mem c hc'
    · intro hnot
      apply h.reading (mt hdue hnot)
    · intro hnot hsyncing tenants htenants t info hinfo peer hpeer hrecord'
      have hrecord : (s.nm.tenantRecords.lookup t).isSome := by
        by_contra hnone
        rw [Option.not_isSome_iff_eq_none] at hnone
        obtain hrecord | rfl := hexec.new t hrecord'
        · simp [hnone] at hrecord
        have hlisted : (tenants.lookup t).isSome := by
          rw [Option.mem_def.mp hinfo]
          rfl
        obtain hdue' | hsyncing' := htimely hnone ⟨tenants, htenants, hlisted⟩
        · apply hnot (hdue hdue')
        · change syncing s = false at hsyncing
          simp [hsyncing] at hsyncing'
      have hwired :=
        h.wired (mt hdue hnot) hsyncing tenants htenants t info hinfo peer hpeer hrecord
      rw [hinbox, List.foldl_cons, ← hexec.peer t hrecord] at hwired
      exact hwired

theorem step_inv (h : Inv cfg s) (a : Action) (hclean : a.Clean cfg s) :
  Inv cfg (cfg.step s a).2
  := by
  cases a with
  | report tenants => apply report_inv h
  | deliver => apply deliver_inv h
  | ensureTenant t => apply ensureTenant_inv h
  | take => apply take_inv h
  | complete tenants localSnaps o => apply complete_inv h
  | retry item => apply retry_inv h
  | dispatch created => apply dispatch_inv h created hclean

theorem Inv.synced (h : Inv cfg s) :
  Synced cfg s
  := by
  intro hquiet tenants htenants t info hinfo peer hpeer hrecord
  have hnot : ¬ Due cfg s := by
    rintro (hholds | ⟨n, hn, -⟩)
    · simp [WorkQueue.Holds, hquiet.pending, hquiet.delayed] at hholds
    · simp [hquiet.notifications] at hn
  have hsyncing : syncing s = false := by
    rw [syncing, hquiet.current]
  have hwired := h.wired hnot hsyncing tenants htenants t info hinfo peer hpeer hrecord
  rw [hquiet.inbox] at hwired
  exact hwired

end

/-- If a tenant that the node reports is set up only while a sync is still to come, then the peers
follow the reports. -/
theorem after_synced (cfg : Config) {nm : Manager} (hnm : Fresh nm) (actions : List Action)
    (hclean : Machine.Meets cfg.step (Action.Clean cfg) (init nm) actions) :
  Synced cfg (Machine.after cfg.step (init nm) actions)
  := by
  apply Inv.synced
  apply Machine.after_of_meets _ _ hclean
  · intro s a hs ha
    apply step_inv hs a ha
  · apply init_inv hnm

def twoNodes : Config where
  parsers := goParsers
  hashes := ⟨fun _ => [], fun _ => []⟩
  self := ⟨"a", "a", "192.168.0.1", ∅⟩
  remote := ⟨"b", "b", "192.168.0.2", ∅⟩
  remote_ne_self := by decide
  remote_ne_empty := by decide

/-- A manager with the tenant `red`. -/
def redOnly : Manager :=
  ⟨true, AList.singleton "red" ⟨some "vxlan-red", ∅⟩, ⟨∅, ∅, ∅⟩⟩

/-- What the other node reports of the tenants `red` and `blue`. -/
def redAndBlue : GoMap String TenantInfra :=
  (AList.singleton "red" ⟨"red", "10.0.2.0/24", "vxlan-red", 1, "10.0.2.0", "02:00:00:00:00:01",
    "br-red", "10.0.2.1", "02:00:00:00:00:02", []⟩).insert "blue"
    ⟨"blue", "10.0.3.0/24", "vxlan-blue", 2, "10.0.3.0", "02:00:00:00:00:03", "br-blue", "10.0.3.1",
      "02:00:00:00:00:04", []⟩

/-- What the local node reports of them. -/
def localRedAndBlue : GoMap String TenantInfra :=
  (AList.singleton "red" ⟨"red", "10.1.2.0/24", "vxlan-red", 1, "10.1.2.0", "02:00:00:00:00:05",
    "br-red", "10.1.2.1", "02:00:00:00:00:06", []⟩).insert "blue"
    ⟨"blue", "10.1.3.0/24", "vxlan-blue", 2, "10.1.3.0", "02:00:00:00:00:07", "br-blue", "10.1.3.1",
      "02:00:00:00:00:08", []⟩

theorem redOnly_fresh :
  Fresh redOnly
  := by
  have hlookup : ∀ t, ∀ ltr ∈ redOnly.tenantRecords.lookup t, ltr = ⟨some "vxlan-red", ∅⟩ := by
    intro t ltr hltr
    have hmem := AList.mem_lookup_iff.mp hltr
    simp only [redOnly, AList.singleton, List.mem_singleton] at hmem
    cases hmem
    rfl
  constructor
  · rfl
  · decide +kernel
  · intro t ltr hltr
    rw [hlookup t ltr hltr]
    exact ⟨"vxlan-red", rfl, by decide⟩
  · intro t ltr hltr
    rw [hlookup t ltr hltr]

/-- The tenant `blue` is set up while a sync has read the report but not the local tenants. -/
theorem after_synced_blue :
  Synced twoNodes (Machine.after twoNodes.step (init redOnly)
    [.report redAndBlue, .ensureTenant "blue", .deliver, .take, .dispatch true,
      .complete redAndBlue ["red", "blue"] ⟨true, true⟩, .take,
      .complete localRedAndBlue [] ⟨true, true⟩, .deliver,
      .dispatch true, .dispatch true])
  := by
  apply after_synced twoNodes redOnly_fresh
  decide +kernel

/-- The tenant `blue` is set up after the last report is synced. -/
theorem late_tenant_not_synced :
  ¬ Synced twoNodes (Machine.after twoNodes.step (init redOnly)
    [.report redAndBlue, .deliver, .take, .complete redAndBlue ["red"] ⟨true, true⟩, .dispatch true,
      .ensureTenant "blue", .dispatch true, .take, .complete localRedAndBlue [] ⟨true, true⟩,
      .deliver])
  := by
  set s := Machine.after twoNodes.step (init redOnly)
    [.report redAndBlue, .deliver, .take, .complete redAndBlue ["red"] ⟨true, true⟩, .dispatch true,
      .ensureTenant "blue", .dispatch true, .take, .complete localRedAndBlue [] ⟨true, true⟩,
      .deliver]
  have hquiet : Quiet s := by
    constructor <;> decide +kernel
  -- blue has a record and a valid report, but not the peer of it
  have hblue : ∃ tenants ∈ s.object, ∃ info ∈ tenants.lookup "blue",
      ∃ peer ∈ (buildRemoteTenantInfra twoNodes.parsers (twoNodes.reported tenants) info).toOption,
        (s.nm.tenantRecords.lookup "blue").isSome ∧ s.nm.getStoredPeer "blue" "b" ≠ some peer := by
    decide +kernel
  intro h
  obtain ⟨tenants, htenants, info, hinfo, peer, hpeer, hrecord, hnot⟩ := hblue
  apply hnot
  apply h hquiet tenants htenants "blue" info hinfo peer (build_of_mem_toOption hpeer) hrecord

end Sync

end Daemon
