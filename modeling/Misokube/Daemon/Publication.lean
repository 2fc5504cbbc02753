import Misokube.Daemon.Mirror
import Misokube.Daemon.Reports
import Misokube.Lib.WorkQueue
import Misokube.Nmanager.Rollback

/-!
# The status of a node follows its records

The network manager of a node tells the operator when it has changed, and the worker of the operator
writes the status: it takes an item, fetches the object of the node, takes a snapshot of the
records, and some time later writes the object.  Calls of the network manager come at any time
between these steps; each of them runs on its own.

Once nothing is left to do, the other nodes read from the status what the records say
(`after_published`), unless a failure was swallowed: that to fetch the object, that to write it for
a deletion, and the expansion of a tenant for a request that fails, which the operator is not told
of (`failed_expansion_unpublished`).
-/

namespace Daemon

namespace Publication

open Net Api Device
open Nmanager (NetworkManager TenantRecord buildTenantSnapshot)
open Nmanager.Node (Call Answer call)

/-- What the worker is doing: it has taken an item, or it has the status that is to be written. -/
inductive Work where
  | taken (e : Event)
  | snapped (e : Event) (tenants : GoMap String TenantInfra)

/-- The network manager, the queue of the operator, its only worker, and the status of the node. -/
structure State where
  nm : NetworkManager
  queue : WorkQueue Event
  current : Option Work
  published : GoMap String TenantInfra

/-- A call of the network manager; the worker takes an item, fetches the object and takes the
snapshot, or writes the status; an item that failed is added again. -/
inductive Action where
  | call (c : Call)
  | take
  | read (get : Bool)
  | write (updateStatus : Bool)
  | retry (e : Event)

/-- The event that a call emits: for a new tenant, a tenant that was removed, and for a pod that was
attached or detached. -/
def emits (nm : NetworkManager) : Call → Answer → Option Event
  | .ensureTenant id _, .tenant (.ok ()) =>
    if nm.nodeName = "" ∨ (nm.tenantRecords.lookup id).isSome then none else some .update
  | .removeTenant id _, .tenant (.ok ()) =>
    if nm.nodeName = "" ∨ (nm.tenantRecords.lookup id).isNone then none else some .delete
  | .ensure _ _ _, .pod (.ok _) => if nm.nodeName = "" then none else some .update
  | .remove _ _, .tenant (.ok ()) => if nm.nodeName = "" then none else some .update
  | _, _ => none

def enqueue (q : WorkQueue Event) : Option Event → WorkQueue Event
  | none => q
  | some e => q.add e

/-- The item is tried again after an error, which the handler of deletions does not return. -/
def failed (q : WorkQueue Event) : Event → WorkQueue Event
  | .update => q.addRateLimited .update
  | _ => q

def step (h : Hashes) (s : State) : Action → Unit × State
  | .call c =>
    ((), { s with
      nm := (call h s.nm c).2
      queue := enqueue s.queue (emits s.nm c (call h s.nm c).1) })
  | .take =>
    match s.current, s.queue.get with
    | none, some (e, q) => ((), { s with current := some (.taken e), queue := q })
    | _, _ => ((), s)
  | .read get =>
    match s.current with
    | some (.taken e) =>
      if e = .add ∨ get = false then ((), { s with current := none })
      else ((), { s with current := some (.snapped e (mirror s.nm)) })
    | _ => ((), s)
  | .write updateStatus =>
    match s.current with
    | some (.snapped e tenants) =>
      if updateStatus then ((), { s with current := none, published := tenants })
      else ((), { s with current := none, queue := failed s.queue e })
    | _ => ((), s)
  | .retry e => ((), { s with queue := s.queue.retry e })

/-- Nothing is left to do. -/
structure Quiet (s : State) : Prop where
  pending : s.queue.pending = []
  delayed : s.queue.delayed = []
  current : s.current = none

/-- A request for a pod that fails leaves the subnet and the devices of the tenant. -/
def Keeps (nm : NetworkManager) : Call → Prop
  | .ensure id args o => ∀ e, (nm.actorEnsure o id args).1 = .error e →
    ((nm.actorEnsure o id args).2.tenantRecords.lookup id).map (fun r => (r.subnet, r.backend))
      = (nm.tenantRecords.lookup id).map fun r => (r.subnet, r.backend)
  | _ => True

/-- No failure is swallowed. -/
def Action.Clean (s : State) : Action → Prop
  | .call c => Keeps s.nm c
  | .read get => get = true
  | .write updateStatus =>
      updateStatus = false → ∀ tenants, s.current ≠ some (.snapped .delete tenants)
  | _ => True

/-! ### Calls that emit nothing -/

section

variable {h : Hashes} {nm nm' : NetworkManager}

/-- Records with the same subnets and devices are reported alike. -/
theorem sameReport_mirror (hlookup : ∀ id,
      (nm'.tenantRecords.lookup id).map (fun r => (r.subnet, r.backend))
        = (nm.tenantRecords.lookup id).map fun r => (r.subnet, r.backend)) :
  SameReport (mirror nm) (mirror nm')
  := by
  intro id
  have hforPeers : ∀ r r' : TenantRecord, (r'.subnet, r'.backend) = (r.subnet, r.backend) →
      forPeers (tenantInfra id (buildTenantSnapshot r'))
        = forPeers (tenantInfra id (buildTenantSnapshot r)) := by
    intro r r' heq
    obtain ⟨hsubnet, hbackend⟩ := Prod.mk.inj heq
    simp only [forPeers, tenantInfra, buildTenantSnapshot, hsubnet, hbackend]
  have hid := hlookup id
  rw [lookup_mirror, lookup_mirror]
  cases hr : nm.tenantRecords.lookup id with
  | none =>
    rw [hr, Option.map_none, Option.map_eq_none_iff] at hid
    rw [hid]
  | some r =>
    rw [hr, Option.map_some] at hid
    obtain ⟨r', hr', heq⟩ := Option.map_eq_some_iff.mp hid
    rw [hr', Option.map_some, Option.map_some, Option.map_some, Option.map_some, hforPeers r r' heq]

/-- `EnsureTenant` stores a record only if it succeeds, and then not if there is one. -/
theorem ensureTenant_cases (h : Hashes) (nm : NetworkManager) (o : Nmanager.Outcomes)
    (id : String) :
  (nm.ensureTenant h o id).2.tenantRecords = nm.tenantRecords
    ∨ (nm.ensureTenant h o id).1 = .ok () ∧ (nm.tenantRecords.lookup id).isSome = false
  := by
  cases hsome : (nm.tenantRecords.lookup id).isSome with
  | true =>
    left
    rw [NetworkManager.ensureTenant, if_pos hsome]
    split <;> rfl
  | false =>
    have hensured := Nmanager.ensureTenant_ensured h o nm id
    generalize (nm.ensureTenant h o id).1 = result, (nm.ensureTenant h o id).2 = nm' at hensured ⊢
    cases hensured with
    | unchanged => exact .inl rfl
    | refused => exact .inl rfl
    | undone => exact .inl rfl
    | stored => exact .inr ⟨rfl, rfl⟩

/-- `RemoveTenant` changes nothing of what is published, or it succeeds for a tenant that has a
record. -/
theorem removeTenant_cases (nm : NetworkManager) (o : Nmanager.Outcomes) (id : String) :
  (∀ id', ((nm.removeTenant o id).2.tenantRecords.lookup id').map (fun r => (r.subnet, r.backend))
      = (nm.tenantRecords.lookup id').map fun r => (r.subnet, r.backend))
    ∨ (nm.removeTenant o id).1 = .ok () ∧ (nm.tenantRecords.lookup id).isNone = false
  := by
  rw [NetworkManager.removeTenant]
  split
  · exact .inl fun _ => rfl
  cases hr : nm.tenantRecords.lookup id with
  | none => exact .inl fun _ => rfl
  | some r =>
    dsimp only
    split
    · left
      intro id'
      rw [NetworkManager.put, GoMap.lookup_insert_eq]
      split
      case isTrue hid =>
        rw [hid, hr]
        rfl
      · rfl
    · exact .inr ⟨rfl, rfl⟩

/-- A call that emits nothing changes nothing of what the other nodes read. -/
theorem sameReport_of_silent (hnode : nm.nodeName ≠ "") {c : Call} (hkeeps : Keeps nm c)
    (hsilent : emits nm c (call h nm c).1 = none) :
  SameReport (mirror nm) (mirror (call h nm c).2)
  := by
  cases c with
  | ensureTenant id o =>
    obtain hsame | ⟨hok, hnone⟩ := ensureTenant_cases h nm o id
    · apply sameReport_mirror
      intro id'
      rw [call, hsame]
    · simp [call, emits, hok, hnone, hnode] at hsilent
  | removeTenant id o =>
    obtain hsame | ⟨hok, hsome⟩ := removeTenant_cases nm o id
    · exact sameReport_mirror hsame
    · simp [call, emits, hok, hsome, hnode] at hsilent
  | ensure id args o =>
    apply sameReport_mirror
    intro id'
    cases hanswer : (nm.actorEnsure o id args).1 with
    | ok attachment => simp [call, emits, hanswer, hnode] at hsilent
    | error e =>
      by_cases hid : id' = id
      · rw [hid]
        exact hkeeps e hanswer
      · obtain ⟨ops, hops, hafter⟩ := Nmanager.Node.actorEnsure_ops h o nm id args
        rw [call, hafter, Nmanager.Node.lookup_after_ne h nm hid hops]
  | remove id args =>
    rw [call, Nmanager.NetworkManager.removePod_self]
    apply SameReport.refl
  | idle => apply SameReport.refl

/-- No call emits an event of an addition. -/
theorem emits_ne_add {c : Call} {answer : Answer} {e : Event} (he : emits nm c answer = some e) :
  e ≠ .add
  := by
  rintro rfl
  unfold emits at he
  split at he
  all_goals simp at he

end

/-! ### The invariant -/

/-- The worker is still to read the records. -/
def Pending (s : State) : Prop :=
  ∃ e, e ≠ .add ∧ (s.queue.Holds e ∨ s.current = some (.taken e))

/-- The status is that of the records or is still to be written, and what the worker has for it is
of the records, unless it is to read them again. -/
structure Inv (s : State) : Prop where
  nodeName_ne : s.nm.nodeName ≠ ""
  snapped : ∀ e tenants, s.current = some (.snapped e tenants) →
    e ≠ .add ∧ (Pending s ∨ SameReport tenants (mirror s.nm))
  published : Pending s ∨ (∃ e tenants, s.current = some (.snapped e tenants))
    ∨ SameReport s.published (mirror s.nm)

section

variable {h : Hashes} {s : State}

/-- A call that changes what is to be reported emits an event, which is queued. -/
theorem call_inv (hinv : Inv s) {c : Call} (hkeeps : Keeps s.nm c) :
  Inv (step h s (.call c)).2
  := by
  obtain ⟨hnode, hsnapped, hpublished⟩ := hinv
  rw [step]
  cases hemits : emits s.nm c (call h s.nm c).1 with
  | some e =>
    have hpending : Pending { s with nm := (call h s.nm c).2, queue := s.queue.add e } :=
      ⟨e, emits_ne_add hemits, .inl (WorkQueue.holds_add.mpr (.inr rfl))⟩
    exact ⟨by rwa [Nmanager.Node.nodeName_call],
      fun e' tenants hcurrent => ⟨(hsnapped e' tenants hcurrent).1, .inl hpending⟩, .inl hpending⟩
  | none =>
    have hsame := sameReport_of_silent hnode hkeeps hemits
    refine ⟨by rwa [Nmanager.Node.nodeName_call], ?_, ?_⟩
    · intro e tenants hcurrent
      obtain ⟨hne, hread⟩ := hsnapped e tenants hcurrent
      exact ⟨hne, hread.imp_right fun htenants => htenants.trans hsame⟩
    · exact hpublished.imp_right (Or.imp_right fun hpublished => hpublished.trans hsame)

/-- The records are still to be read for an item that is taken. -/
theorem take_inv (hinv : Inv s) :
  Inv (step h s .take).2
  := by
  rw [step]
  split
  case h_1 e q hcurrent hget =>
    refine ⟨hinv.nodeName_ne, fun e' tenants heq => by simp at heq, ?_⟩
    obtain ⟨e', hne, hholds | htaken⟩ | ⟨e', tenants, hsnapped⟩ | hpublished := hinv.published
    · left
      refine ⟨e', hne, ?_⟩
      by_cases heq : e' = e
      · exact .inr (by rw [heq])
      · exact .inl ((WorkQueue.holds_of_get hget heq).mpr hholds)
    · cases hcurrent.symm.trans htaken
    · cases hcurrent.symm.trans hsnapped
    · exact .inr (.inr hpublished)
  case h_2 => exact hinv

/-- The snapshot is taken from the records of that moment. -/
theorem read_inv (hinv : Inv s) :
  Inv (step h s (.read true)).2
  := by
  rw [step]
  split
  case h_1 e hcurrent =>
    by_cases he : e = .add
    · -- nothing is done for an addition, and nothing depends on it
      rw [if_pos (.inl he)]
      refine ⟨hinv.nodeName_ne, fun e' tenants heq => by simp at heq, ?_⟩
      obtain ⟨e', hne, hholds | htaken⟩ | ⟨e', tenants, hsnapped⟩ | hpublished := hinv.published
      · exact .inl ⟨e', hne, .inl hholds⟩
      · cases hcurrent.symm.trans htaken
        exact absurd he hne
      · cases hcurrent.symm.trans hsnapped
      · exact .inr (.inr hpublished)
    · rw [if_neg (by simp [he])]
      refine ⟨hinv.nodeName_ne, ?_, .inr (.inl ⟨e, _, rfl⟩)⟩
      rintro e' tenants ⟨⟩
      exact ⟨he, .inr (.refl _)⟩
  case h_2 => exact hinv

/-- With a snapshot at hand, what is pending is in the queue. -/
theorem Pending.held {e : Event} {tenants : GoMap String TenantInfra}
    (hcurrent : s.current = some (.snapped e tenants)) (hpending : Pending s) :
  ∃ e', e' ≠ .add ∧ s.queue.Holds e'
  := by
  obtain ⟨e', hne, hholds | htaken⟩ := hpending
  · exact ⟨e', hne, hholds⟩
  · cases hcurrent.symm.trans htaken

/-- What is written is the snapshot; if the records have changed since, another item is queued. -/
theorem write_inv (hinv : Inv s) {updateStatus : Bool}
    (hclean : updateStatus = false → ∀ tenants, s.current ≠ some (.snapped .delete tenants)) :
  Inv (step h s (.write updateStatus)).2
  := by
  rw [step]
  split
  case h_1 e tenants hcurrent =>
    obtain ⟨hne, hread⟩ := hinv.snapped e tenants hcurrent
    cases updateStatus with
    | true =>
      refine ⟨hinv.nodeName_ne, fun e' tenants heq => by simp at heq, ?_⟩
      obtain hpending | hsame := hread
      · obtain ⟨e', hne', hholds⟩ := hpending.held hcurrent
        exact .inl ⟨e', hne', .inl hholds⟩
      · exact .inr (.inr hsame)
    | false =>
      refine ⟨hinv.nodeName_ne, fun e' tenants heq => by simp at heq,
        .inl ⟨.update, by simp, .inl ?_⟩⟩
      cases e with
      | add => exact absurd rfl hne
      | update => exact WorkQueue.holds_addRateLimited.mpr (.inr rfl)
      | delete => exact absurd hcurrent (hclean rfl tenants)
  case h_2 => exact hinv

/-- An item that waits to be tried again comes back. -/
theorem retry_inv (hinv : Inv s) (e : Event) :
  Inv (step h s (.retry e)).2
  := by
  have hpending : Pending s → Pending (step h s (.retry e)).2 := by
    rintro ⟨e', hne, hholds | htaken⟩
    · exact ⟨e', hne, .inl (WorkQueue.holds_retry.mpr hholds)⟩
    · exact ⟨e', hne, .inr htaken⟩
  refine ⟨hinv.nodeName_ne, ?_, hinv.published.imp_left hpending⟩
  intro e' tenants hcurrent
  obtain ⟨hne, hread⟩ := hinv.snapped e' tenants hcurrent
  exact ⟨hne, hread.imp_left hpending⟩

/-- Every step keeps the invariant, if no failure is swallowed. -/
theorem step_inv (hinv : Inv s) (a : Action) (hclean : a.Clean s) :
  Inv (step h s a).2
  := by
  cases a with
  | call c => exact call_inv hinv hclean
  | take => exact take_inv hinv
  | read get =>
    cases hclean
    exact read_inv hinv
  | write updateStatus => exact write_inv hinv hclean
  | retry e => exact retry_inv hinv e

/-- Nothing is pending when there is nothing to do. -/
theorem Quiet.not_pending (hquiet : Quiet s) :
  ¬ Pending s
  := by
  rintro ⟨e, -, (hpending | hdelayed) | htaken⟩
  · simp [hquiet.pending] at hpending
  · simp [hquiet.delayed] at hdelayed
  · cases hquiet.current.symm.trans htaken

/-- A node whose status is that of its records, with nothing to do. -/
structure Starts (s : State) : Prop where
  nodeName_ne : s.nm.nodeName ≠ ""
  current : s.current = none
  published : SameReport s.published (mirror s.nm)

/-- After every run of calls and of the worker, in any order, in which no failure is swallowed, the
other nodes read from the status what the records say once nothing is left to do. -/
theorem after_published (hstarts : Starts s) {actions : List Action}
    (hclean : Machine.Meets (step h) (fun s a => a.Clean s) s actions)
    (hquiet : Quiet (Machine.after (step h) s actions)) :
  SameReport (Machine.after (step h) s actions).published
    (mirror (Machine.after (step h) s actions).nm)
  := by
  have hinit : Inv s := by
    refine ⟨hstarts.nodeName_ne, ?_, .inr (.inr hstarts.published)⟩
    intro e tenants hcurrent
    cases hstarts.current.symm.trans hcurrent
  have hinv : Inv (Machine.after (step h) s actions) := by
    apply Machine.after_of_meets (P := Inv) _ hinit hclean
    intro s' a hinv ha
    exact step_inv hinv a ha
  obtain hpending | ⟨e, tenants, hsnapped⟩ | hpublished := hinv.published
  · exact absurd hpending hquiet.not_pending
  · cases hquiet.current.symm.trans hsnapped
  · exact hpublished

/-- A pod that is attached while the status with its tenant is being written. -/
def busyActions : List Action :=
  [.call (.ensureTenant "a" .success), .take, .read true,
    .call (.ensure "a" ⟨"default", "web-0", "c0", "/run/netns/0", "eth0"⟩ fun _ => .success),
    .write true, .take, .read true, .write true]

theorem after_published_busyActions :
  ∃ tm s, Trie.newTrieManager ⟨[10, 0, 0, 0], cidrMask 28 32⟩ 30 = some tm ∧
    Machine.after (step Nmanager.Node.plainConfig.hashes)
      ⟨Nmanager.newNetworkManager "node" tm, ⟨[], []⟩, none, ∅⟩ busyActions = s ∧
    (s.published.lookup "a").isSome ∧ SameReport s.published (mirror s.nm)
  := by
  have heval : ((Trie.newTrieManager ⟨[10, 0, 0, 0], cidrMask 28 32⟩ 30).bind fun tm =>
      let after count := Machine.after (step Nmanager.Node.plainConfig.hashes)
        ⟨Nmanager.newNetworkManager "node" tm, ⟨[], []⟩, none, ∅⟩ (busyActions.take count)
      if ((after 3).nm.actorEnsure (fun _ => .success) "a"
          ⟨"default", "web-0", "c0", "/run/netns/0", "eth0"⟩).1.isOk = true ∧
          (after 8).queue.pending = [] ∧ (after 8).queue.delayed = [] ∧
          (after 8).current.isNone = true ∧ ((after 8).published.lookup "a").isSome = true then
        some tm
      else none).isSome = true := by
    decide +kernel
  obtain ⟨tm, heval⟩ := Option.isSome_iff_exists.mp heval
  obtain ⟨tm', hnew, heval⟩ := Option.bind_eq_some_iff.mp heval
  obtain ⟨⟨hok, hpending, hdelayed, hcurrent, hsome⟩, -⟩ := Option.ite_none_right_eq_some.mp heval
  refine ⟨tm', _, hnew, rfl, hsome, ?_⟩
  apply after_published
  · refine ⟨by simp [Nmanager.newNetworkManager], rfl, ?_⟩
    intro id
    rw [lookup_mirror]
    rfl
  · refine ⟨trivial, trivial, rfl, ?_, by simp [Action.Clean], trivial, rfl, by simp [Action.Clean],
      trivial⟩
    intro e herror
    have hanswer : ((Machine.after (step Nmanager.Node.plainConfig.hashes)
        ⟨Nmanager.newNetworkManager "node" tm', ⟨[], []⟩, none, ∅⟩
        (busyActions.take 3)).nm.actorEnsure (fun _ => .success) "a"
        ⟨"default", "web-0", "c0", "/run/netns/0", "eth0"⟩).1 = .error e := herror
    rw [hanswer] at hok
    cases hok
  · exact ⟨hpending, hdelayed, Option.isNone_iff_eq_none.mp hcurrent⟩

/-- When a request for a pod fails after its tenant was expanded, nothing is left to do, and the
status keeps the old subnet. -/
theorem failed_expansion_unpublished (hquiet : Quiet s)
    (hsame : SameReport s.published (mirror s.nm))
    {id : String} {args : Nmanager.PodAttachArgs} {o : ℕ → Nmanager.Outcomes} {e : Nmanager.Error}
    (herror : (s.nm.actorEnsure o id args).1 = .error e) {r r' : TenantRecord}
    (hr : s.nm.tenantRecords.lookup id = some r)
    (hr' : (s.nm.actorEnsure o id args).2.tenantRecords.lookup id = some r') {ones ones' : ℕ}
    (hcidr : IsCIDR r.subnet ones 32) (hcidr' : IsCIDR r'.subnet ones' 32)
    (hgrown : r'.subnet.mask ≠ r.subnet.mask) :
  Quiet (step h s (.call (.ensure id args o))).2 ∧
  (∃ info, (step h s (.call (.ensure id args o))).2.published.lookup id = some info ∧
    parseCIDR info.tenantCIDR = some ⟨network r.subnet, r.subnet.mask⟩) ∧
  ¬ SameReport (step h s (.call (.ensure id args o))).2.published
    (mirror (step h s (.call (.ensure id args o))).2.nm)
  := by
  have hemits : emits s.nm (.ensure id args o) (call h s.nm (.ensure id args o)).1 = none := by
    simp [call, emits, herror]
  have hstep : (step h s (.call (.ensure id args o))).2
      = { s with nm := (s.nm.actorEnsure o id args).2 } := by
    rw [step, hemits]
    rfl
  rw [hstep]
  have hid := hsame id
  rw [lookup_mirror, hr, Option.map_some, Option.map_some] at hid
  obtain ⟨info, hinfo, heq⟩ := Option.map_eq_some_iff.mp hid
  have htext : info.tenantCIDR = ipNetString r.subnet := congrArg TenantInfra.tenantCIDR heq
  have hparse := parseCIDR_ipNetString hcidr
  refine ⟨⟨hquiet.pending, hquiet.delayed, hquiet.current⟩, ⟨info, hinfo, htext ▸ hparse⟩, ?_⟩
  intro hsame'
  have hid' := hsame' id
  rw [lookup_mirror, hr', hinfo, Option.map_some, Option.map_some, Option.map_some,
    Option.some.injEq] at hid'
  have htext' : info.tenantCIDR = ipNetString r'.subnet := congrArg TenantInfra.tenantCIDR hid'
  rw [← htext, htext', parseCIDR_ipNetString hcidr', Option.some.injEq] at hparse
  exact hgrown (IPNet.mk.inj hparse).2

/-- A tenant with a pod for which its subnet has just room, as it is published. -/
def crowded (tm : Trie.TrieManager) : State :=
  let nm := Machine.after (call Nmanager.Node.plainConfig.hashes)
    (Nmanager.newNetworkManager "node" tm)
    [.ensureTenant "a" .success,
      .ensure "a" ⟨"default", "web-0", "c0", "/run/netns/0", "eth0"⟩ fun _ => .success]
  ⟨nm, ⟨[], []⟩, none, mirror nm⟩

/-- The interface of the pod cannot be made once the tenant is expanded. -/
def failsAfterExpansion (retries : ℕ) : Nmanager.Outcomes :=
  if retries = Nmanager.NetworkManager.maxRetries then .success
  else { Nmanager.Outcomes.success with setupVeth := fun _ => false }

theorem failed_expansion_unpublished_crowded :
  ∃ tm r', Trie.newTrieManager ⟨[10, 0, 0, 0], cidrMask 28 32⟩ 30 = some tm ∧
    ((crowded tm).nm.actorEnsure failsAfterExpansion "a"
      ⟨"default", "web-1", "c1", "/run/netns/1", "eth0"⟩).2.tenantRecords.lookup "a" = some r' ∧
    r'.subnet = ⟨[10, 0, 0, 0], cidrMask 29 32⟩ ∧
    ∃ info, (crowded tm).published.lookup "a" = some info ∧
      parseCIDR info.tenantCIDR = some ⟨[10, 0, 0, 0], cidrMask 30 32⟩
  := by
  have heval : ((Trie.newTrieManager ⟨[10, 0, 0, 0], cidrMask 28 32⟩ 30).bind fun tm =>
      let result := (crowded tm).nm.actorEnsure failsAfterExpansion "a"
        ⟨"default", "web-1", "c1", "/run/netns/1", "eth0"⟩
      ((crowded tm).nm.tenantRecords.lookup "a").bind fun r =>
        (result.2.tenantRecords.lookup "a").bind fun r' =>
          if result.1.isOk = false ∧ r.subnet = ⟨[10, 0, 0, 0], cidrMask 30 32⟩ ∧
              r'.subnet = ⟨[10, 0, 0, 0], cidrMask 29 32⟩ then some (r, r')
          else none).isSome = true := by
    decide +kernel
  obtain ⟨⟨r, r'⟩, heval⟩ := Option.isSome_iff_exists.mp heval
  obtain ⟨tm, hnew, heval⟩ := Option.bind_eq_some_iff.mp heval
  obtain ⟨r₀, hr, heval⟩ := Option.bind_eq_some_iff.mp heval
  obtain ⟨r₀', hr', heval⟩ := Option.bind_eq_some_iff.mp heval
  obtain ⟨⟨herror, hsubnet, hsubnet'⟩, heq⟩ := Option.ite_none_right_eq_some.mp heval
  cases heq
  have hcidr : IsCIDR r.subnet 30 32 := by
    rw [hsubnet]
    exact (isCIDR_mk (.inl rfl) (by decide) rfl).1
  have hcidr' : IsCIDR r'.subnet 29 32 := by
    rw [hsubnet']
    exact (isCIDR_mk (.inl rfl) (by decide) rfl).1
  have hgrown : r'.subnet.mask ≠ r.subnet.mask := by
    rw [hsubnet, hsubnet']
    decide
  cases hresult : ((crowded tm).nm.actorEnsure failsAfterExpansion "a"
      ⟨"default", "web-1", "c1", "/run/netns/1", "eth0"⟩).1 with
  | ok attachment =>
    rw [hresult] at herror
    cases herror
  | error e =>
    obtain ⟨-, ⟨info, hinfo, hparse⟩, -⟩ := failed_expansion_unpublished
      (h := Nmanager.Node.plainConfig.hashes) ⟨rfl, rfl, rfl⟩ (SameReport.refl _) hresult hr hr'
      hcidr hcidr' hgrown
    refine ⟨tm, r', hnew, hr', hsubnet', info, hinfo, hparse.trans ?_⟩
    rw [hsubnet]
    decide +kernel

end

end Publication

end Daemon
