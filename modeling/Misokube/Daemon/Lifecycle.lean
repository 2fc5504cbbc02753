import Misokube.Daemon.Model
import Misokube.Lib.Machine
import Misokube.Lib.WorkQueue

/-!
# The record of a tenant follows its object

The events of the object of one tenant on a daemon: the informer changes the object in the lister
and notifies the handlers some time later, the handlers add items to the queue, the only worker
takes an item and processes it some time later, and the dispatcher runs the commands.

Once all is done, the node has a record of the tenant if the object lists the node as awaiting,
and none if the object was deleted (`Settled`).  This holds as long as no item is merged with a
pending one that an opposite item follows; in general it does not, because the kind of the event
is a part of the item.
-/

namespace Daemon

namespace Lifecycle

open Api

/-- What the informer tells the handlers. -/
inductive Notification where
  | created (t : Tenant)
  | updated (t : Tenant)
  | deleted (t : Tenant)
deriving DecidableEq

/-- The object after the event. -/
def Notification.object : Notification → Option Tenant
  | .created t => some t
  | .updated t => some t
  | .deleted _ => none

/-- The object of the tenant in the lister, the events that are not handled yet, the queue, the item
that is being processed, the commands, and whether there is a record of the tenant. -/
structure State where
  object : Option Tenant
  notifications : List Notification
  queue : WorkQueue Event
  current : Option Event
  inbox : List Command
  record : Bool

def init : State :=
  ⟨none, [], ⟨[], []⟩, none, [], false⟩

/-- The object is created, updated or deleted, the next event is handled, the worker takes an item
or processes it, an item that failed is added again, or the dispatcher runs a command. -/
inductive Action where
  | store (t : Tenant)
  | delete
  | deliver
  | take
  | process
  | retry (e : Event)
  | dispatch

def handle (nodeName : String) : Notification → Option Event
  | .created t => addEventTenantHandler nodeName t
  | .updated t => updateEventTenantHandler t
  | .deleted t => deleteEventTenantHandler t

def reconcile (p : Parsers) (nodeName name : String) (object : Option Tenant) :
    Event → Except Error Unit × List Command
  | .add => reconcileTenantSourceAdd name
  | .update => reconcileTenantSourceUpdate p nodeName name object
  | .delete => reconcileTenantDelete name

/-- Whether the tenant has a record after a command; all operations on tenants succeed. -/
def execute (record : Bool) : Command → Bool
  | .ensureTenant _ => true
  | .removeTenant _ => false
  | _ => record

def step (p : Parsers) (nodeName name : String) (s : State) : Action → Unit × State
  | .store t =>
    let n := if s.object.isSome then .updated t else .created t
    ((), { s with object := some t, notifications := s.notifications ++ [n] })
  | .delete =>
    match s.object with
    | none => ((), s)
    | some t => ((), { s with object := none, notifications := s.notifications ++ [.deleted t] })
  | .deliver =>
    match s.notifications with
    | [] => ((), s)
    | n :: rest =>
      match handle nodeName n with
      | none => ((), { s with notifications := rest })
      | some e => ((), { s with notifications := rest, queue := s.queue.add e })
  | .take =>
    match s.current, s.queue.get with
    | none, some (e, q) => ((), { s with current := some e, queue := q })
    | _, _ => ((), s)
  | .process =>
    match s.current with
    | none => ((), s)
    | some e =>
      let r := reconcile p nodeName name s.object e
      let q := if r.1.toOption.isSome then s.queue else s.queue.addRateLimited e
      ((), { s with current := none, queue := q, inbox := s.inbox ++ r.2 })
  | .retry e => ((), { s with queue := s.queue.retry e })
  | .dispatch =>
    match s.inbox with
    | [] => ((), s)
    | c :: rest => ((), { s with inbox := rest, record := execute s.record c })

/-- All events are handled, the queue is empty, and so is the inbox of the dispatcher. -/
structure Drained (s : State) : Prop where
  notifications : s.notifications = []
  pending : s.queue.pending = []
  current : s.current = none
  inbox : s.inbox = []

/-- Once all is done, there is a record if the object lists the node as awaiting, and none if there
is no object. -/
def Settled (nodeName : String) (s : State) : Prop :=
  Drained s → (∀ t ∈ s.object, tenantAwaitingContains t nodeName = true → s.record = true)
    ∧ (s.object = none → s.record = false)

/-- The item of the event is not pending, or no opposite item follows it. -/
def Notification.Mergeable (nodeName : String) (pending : List Event) : Notification → Prop
  | .created t => tenantAwaitingContains t nodeName = true → .add ∈ pending →
      pending.getLast? ≠ some .delete
  | .updated t => tenantAwaitingContains t nodeName = true → .update ∈ pending →
      pending.getLast? ≠ some .delete
  | .deleted _ => .delete ∈ pending → (pending.filter (· ≠ .update)).getLast? ≠ some .add

instance (nodeName : String) (pending : List Event) :
    ∀ n : Notification, Decidable (n.Mergeable nodeName pending)
  | .created _ => inferInstanceAs (Decidable (_ → _ → _))
  | .updated _ => inferInstanceAs (Decidable (_ → _ → _))
  | .deleted _ => inferInstanceAs (Decidable (_ → _))

/-- The status does not list the node both as awaiting and as assigned, and no item is merged with
a pending one that an opposite item follows. -/
def Action.Clean (nodeName : String) (s : State) : Action → Prop
  | .store t =>
    ¬ (tenantAwaitingContains t nodeName = true ∧ tenantAssignedContains t nodeName = true)
  | .deliver => ∀ n ∈ s.notifications.head?, n.Mergeable nodeName s.queue.pending
  | _ => True

instance (nodeName : String) (s : State) : ∀ a : Action, Decidable (a.Clean nodeName s)
  | .store _ => inferInstanceAs (Decidable (¬ (_ ∧ _)))
  | .deliver => inferInstanceAs (Decidable (∀ n ∈ s.notifications.head?, _))
  | .delete => isTrue trivial
  | .take => isTrue trivial
  | .process => isTrue trivial
  | .retry _ => isTrue trivial
  | .dispatch => isTrue trivial

/-! ### The outcome of what is left to do -/

/-- Whether there is a record once an item is processed and its commands have run, if the object is
there and lists the node as awaiting, or is not there. -/
def effect (awaiting : Bool) (record : Bool) : Event → Bool
  | .add => true
  | .update => awaiting || record
  | .delete => false

/-- Whether there is a record once all commands have run and all items are processed. -/
def outcome (awaiting : Bool) (s : State) : Bool :=
  (s.current.toList ++ s.queue.pending).foldl (effect awaiting) (s.inbox.foldl execute s.record)

/-- If the last item is not a deletion, then there is a record of an awaiting tenant. -/
theorem foldl_effect_of_last {l : List Event} (hne : l ≠ []) (hlast : l.getLast? ≠ some .delete)
    (record : Bool) :
  l.foldl (effect true) record = true
  := by
  obtain rfl | ⟨l, e, rfl⟩ := List.eq_nil_or_concat' l
  · contradiction
  rw [List.getLast?_concat] at hlast
  rw [List.foldl_concat]
  cases e with
  | delete => contradiction
  | add => rfl
  | update => rfl

/-- Updates do nothing if there is no object. -/
theorem foldl_effect_filter (l : List Event) (record : Bool) :
  (l.filter (· ≠ .update)).foldl (effect false) record = l.foldl (effect false) record
  := by
  rw [List.foldl_filter]
  congr 1
  funext r e
  cases e <;> rfl

/-- If the last item that is not an update is not an addition, then there is no record of a tenant
without an object. -/
theorem foldl_effect_of_last_delete {l : List Event} (hmem : .delete ∈ l)
    (hlast : (l.filter (· ≠ .update)).getLast? ≠ some .add) (record : Bool) :
  l.foldl (effect false) record = false
  := by
  have hmem' : Event.delete ∈ l.filter (· ≠ .update) := by
    simp [hmem]
  have hupdate : Event.update ∉ l.filter (· ≠ .update) := by
    simp
  rw [← foldl_effect_filter]
  generalize l.filter (· ≠ .update) = l' at hmem' hupdate hlast
  obtain rfl | ⟨l', e, rfl⟩ := List.eq_nil_or_concat' l'
  · simp at hmem'
  rw [List.getLast?_concat] at hlast
  rw [List.foldl_concat]
  cases e with
  | delete => rfl
  | add => contradiction
  | update => simp at hupdate

/-- The commands an item sends have the effect of the item. -/
theorem foldl_reconcile {p : Parsers} {nodeName name : String} {object : Option Tenant}
    {awaiting : Bool} (hnode : nodeName ≠ "") (hname : name ≠ "")
    (hobject : (object = none ∧ awaiting = false) ∨ ∃ t, object = some t ∧ awaiting = true
      ∧ tenantAwaitingContains t nodeName = true ∧ tenantAssignedContains t nodeName = false)
    (record : Bool) (e : Event) :
  (reconcile p nodeName name object e).2.foldl execute record = effect awaiting record e
  := by
  have hensure : (Command.ensureTenant name).send = [.ensureTenant name] :=
    Command.send_of_ne hname
  have hremove : (Command.removeTenant name).send = [.removeTenant name] :=
    Command.send_of_ne hname
  cases e with
  | add =>
    rw [reconcile, reconcileTenantSourceAdd, hensure]
    rfl
  | delete =>
    rw [reconcile, reconcileTenantDelete, hremove]
    rfl
  | update =>
    rw [reconcile]
    obtain ⟨rfl, rfl⟩ | ⟨t, rfl, rfl, hawaiting, hassigned⟩ := hobject
    · rfl
    · simp only [reconcileTenantSourceUpdate, if_neg hnode, hassigned, hawaiting, hensure]
      rfl

/-- Only updates fail. -/
theorem event_of_reconcile_error {p : Parsers} {nodeName name : String} {object : Option Tenant}
    {e : Event} (h : ¬ (reconcile p nodeName name object e).1.toOption.isSome) :
  e = .update
  := by
  cases e with
  | update => rfl
  | add => simp [reconcile, reconcileTenantSourceAdd, Except.toOption] at h
  | delete => simp [reconcile, reconcileTenantDelete, Except.toOption] at h

/-! ### The invariant -/

/-- What the steps keep. -/
structure Inv (nodeName : String) (s : State) : Prop where
  /-- The last event that is not handled yet led to the object. -/
  last : ∀ n ∈ s.notifications.getLast?, s.object = n.object
  /-- The object does not list the node twice. -/
  once : ∀ t ∈ s.object, ¬ (tenantAwaitingContains t nodeName = true
    ∧ tenantAssignedContains t nodeName = true)
  /-- Only updates fail. -/
  delayed : ∀ e ∈ s.queue.delayed, e = .update
  /-- Once all events are handled, there will be no record if there is no object. -/
  absent : s.notifications = [] → s.object = none → outcome false s = false
  /-- Once all events are handled, there will be a record if the node is awaiting. -/
  awaiting : s.notifications = [] → ∀ t ∈ s.object, tenantAwaitingContains t nodeName = true →
    outcome true s = true

section

variable {p : Parsers} {nodeName name : String} {s : State}

/-- A step that changes neither the object nor the events. -/
theorem Inv.of_outcome {s' : State} (h : Inv nodeName s) (hobject : s'.object = s.object)
    (hnotifications : s'.notifications = s.notifications)
    (hdelayed : ∀ e ∈ s'.queue.delayed, e = .update)
    (habsent : s.object = none → outcome false s = false → outcome false s' = false)
    (hawaiting : ∀ t ∈ s.object, tenantAwaitingContains t nodeName = true →
      outcome true s = true → outcome true s' = true) :
  Inv nodeName s'
  := by
  constructor
  · rw [hnotifications, hobject]
    exact h.last
  · rw [hobject]
    exact h.once
  · exact hdelayed
  · rw [hnotifications, hobject]
    intro hnil hnone
    apply habsent hnone (h.absent hnil hnone)
  · rw [hnotifications, hobject]
    intro hnil t ht hawait
    apply hawaiting t ht hawait (h.awaiting hnil t ht hawait)

theorem init_inv :
  Inv nodeName init
  := by
  constructor <;> simp [init, outcome]

theorem store_inv (h : Inv nodeName s) (t : Tenant)
    (hclean : (Action.store t).Clean nodeName s) :
  Inv nodeName (step p nodeName name s (.store t)).2
  := by
  constructor
  · intro n hn
    simp only [step, List.getLast?_concat, Option.mem_def, Option.some.injEq] at hn
    subst hn
    simp only [step]
    split <;> rfl
  · rintro t' ⟨⟩
    exact hclean
  · exact h.delayed
  · simp [step]
  · simp [step]

theorem delete_inv (h : Inv nodeName s) :
  Inv nodeName (step p nodeName name s .delete).2
  := by
  rw [step]
  split
  · exact h
  case h_2 t heq =>
    constructor
    · intro n hn
      rw [List.getLast?_concat] at hn
      cases hn
      rfl
    · simp
    · exact h.delayed
    · simp
    · simp

/-- An item that is added at the end, or merged without a deletion at the end. -/
theorem foldl_add_of_ne {q : WorkQueue Event} {e : Event} (he : e ≠ .delete)
    (hmerge : e ∈ q.pending → q.pending.getLast? ≠ some .delete) (l : List Event) (record : Bool) :
  (l ++ (q.add e).pending).foldl (effect true) record = true
  := by
  rw [List.foldl_append]
  apply foldl_effect_of_last
  · apply List.ne_nil_of_mem (a := e)
    simp
  · rw [WorkQueue.add]
    split
    case isTrue hmem => apply hmerge hmem
    case isFalse =>
      rw [List.getLast?_concat]
      simpa using he

/-- A deletion that is added at the end, or merged without an addition at the end. -/
theorem foldl_add_delete {q : WorkQueue Event}
    (hmerge : .delete ∈ q.pending → (q.pending.filter (· ≠ .update)).getLast? ≠ some .add)
    (l : List Event) (record : Bool) :
  (l ++ (q.add .delete).pending).foldl (effect false) record = false
  := by
  rw [List.foldl_append]
  apply foldl_effect_of_last_delete
  · simp
  · rw [WorkQueue.add]
    split
    case isTrue hmem => apply hmerge hmem
    case isFalse =>
      have hfilter : [Event.delete].filter (· ≠ .update) = [.delete] := rfl
      rw [List.filter_append, hfilter, List.getLast?_concat]
      simp

/-- If an event is the last one, then handling it decides the outcome. -/
theorem Inv.of_deliver {n : Notification} {rest : List Notification} {q : WorkQueue Event}
    (h : Inv nodeName s) (heq : s.notifications = n :: rest)
    (hdelayed : q.delayed = s.queue.delayed)
    (habsent : n.object = none → outcome false { s with notifications := rest, queue := q } = false)
    (hawaiting : ∀ t ∈ n.object, tenantAwaitingContains t nodeName = true →
      outcome true { s with notifications := rest, queue := q } = true) :
  Inv nodeName { s with notifications := rest, queue := q }
  := by
  have hobject : rest = [] → s.object = n.object := by
    rintro rfl
    apply h.last
    rw [heq]
    rfl
  constructor
  · intro m hm
    apply h.last
    rw [heq, List.getLast?_cons, Option.mem_def.mp hm]
    rfl
  · exact h.once
  · rw [hdelayed]
    exact h.delayed
  · intro hnil hnone
    apply habsent
    rw [← hobject hnil]
    exact hnone
  · intro hnil t ht
    apply hawaiting
    rw [← hobject hnil]
    exact ht

theorem deliver_inv (hnode : nodeName ≠ "") (h : Inv nodeName s)
    (hclean : Action.Clean nodeName s .deliver) :
  Inv nodeName (step p nodeName name s .deliver).2
  := by
  rw [step]
  cases heq : s.notifications with
  | nil => exact h
  | cons n rest =>
    have hmerge : n.Mergeable nodeName s.queue.pending := by
      apply hclean
      rw [heq]
      rfl
    cases n with
    | created t =>
      simp only [handle, addEventTenantHandler, if_neg hnode]
      cases ht : tenantAwaitingContains t nodeName with
      | false =>
        apply h.of_deliver heq rfl
        · rintro ⟨⟩
        · rintro t' ⟨⟩ hawait
          simp [ht] at hawait
      | true =>
        apply h.of_deliver heq WorkQueue.delayed_add
        · rintro ⟨⟩
        · intro _ _ _
          apply foldl_add_of_ne _ (hmerge ht)
          rintro ⟨⟩
    | updated t =>
      apply h.of_deliver heq WorkQueue.delayed_add
      · rintro ⟨⟩
      · rintro t' ⟨⟩ hawait
        apply foldl_add_of_ne _ (hmerge hawait)
        rintro ⟨⟩
    | deleted t =>
      apply h.of_deliver heq WorkQueue.delayed_add
      · intro _
        apply foldl_add_delete hmerge
      · rintro t' ⟨⟩

theorem take_inv (h : Inv nodeName s) :
  Inv nodeName (step p nodeName name s .take).2
  := by
  rw [step]
  split
  case h_2 => exact h
  case h_1 e q hcurrent hget =>
    obtain ⟨hpending, hdelayed⟩ := WorkQueue.eq_of_get hget
    have houtcome : ∀ a, outcome a { s with current := some e, queue := q } = outcome a s := by
      intro a
      rw [outcome, outcome, hcurrent, hpending]
      rfl
    refine h.of_outcome rfl rfl ?_ ?_ ?_
    · rw [hdelayed]
      exact h.delayed
    · simp only [houtcome, imp_self, implies_true]
    · simp only [houtcome, imp_self, implies_true]

theorem process_inv (hnode : nodeName ≠ "") (hname : name ≠ "") (h : Inv nodeName s) :
  Inv nodeName (step p nodeName name s .process).2
  := by
  rw [step]
  split
  · exact h
  case h_2 e hcurrent =>
    dsimp only
    set r := reconcile p nodeName name s.object e with hr
    set q := if r.1.toOption.isSome then s.queue else s.queue.addRateLimited e with hq
    have hpending : q.pending = s.queue.pending := by
      rw [hq]
      split <;> rfl
    -- what the item sends is what it was counted for
    have houtcome : ∀ a, ((s.object = none ∧ a = false) ∨ ∃ t, s.object = some t ∧ a = true
        ∧ tenantAwaitingContains t nodeName = true ∧ tenantAssignedContains t nodeName = false) →
        outcome a { s with current := none, queue := q, inbox := s.inbox ++ r.2 } = outcome a s
        := by
      intro a ha
      have hsent := foldl_reconcile (p := p) hnode hname ha (s.inbox.foldl execute s.record) e
      rw [← hr] at hsent
      simp only [outcome, hcurrent, hpending, List.foldl_append, hsent]
      rfl
    refine h.of_outcome rfl rfl ?_ ?_ ?_
    · intro e' he'
      dsimp only at he'
      rw [hq] at he'
      split at he'
      · apply h.delayed e' he'
      case isFalse herror =>
        obtain rfl | he' := List.mem_cons.mp he'
        · apply event_of_reconcile_error herror
        · apply h.delayed e' he'
    · intro hnone
      rw [houtcome false (.inl ⟨hnone, rfl⟩)]
      exact id
    · intro t ht hawait
      have hassigned : tenantAssignedContains t nodeName = false := by
        rw [← Bool.not_eq_true]
        intro hassigned
        apply h.once t ht ⟨hawait, hassigned⟩
      rw [houtcome true (.inr ⟨t, ht, rfl, hawait, hassigned⟩)]
      exact id

theorem retry_inv (h : Inv nodeName s) (e : Event) :
  Inv nodeName (step p nodeName name s (.retry e)).2
  := by
  rw [step, WorkQueue.retry]
  split
  case isFalse => exact h
  case isTrue hmem =>
    obtain rfl : e = .update := h.delayed e hmem
    -- an update at the end
    have houtcome : ∀ a, outcome a s = a → outcome a { s with queue :=
        { s.queue with delayed := s.queue.delayed.erase .update }.add .update } = a := by
      intro a ha
      rw [outcome, WorkQueue.add]
      split
      · exact ha
      · rw [← List.append_assoc, List.foldl_concat]
        change (a || outcome a s) = a
        rw [ha, Bool.or_self]
    refine h.of_outcome rfl rfl ?_ ?_ ?_
    · intro e' he'
      dsimp only at he'
      rw [WorkQueue.delayed_add] at he'
      apply h.delayed e' (List.mem_of_mem_erase he')
    · intro _
      apply houtcome
    · intro _ _ _
      apply houtcome

theorem dispatch_inv (h : Inv nodeName s) :
  Inv nodeName (step p nodeName name s .dispatch).2
  := by
  rw [step]
  split
  · exact h
  case h_2 c rest heq =>
    have houtcome : ∀ a, outcome a { s with inbox := rest, record := execute s.record c }
        = outcome a s := by
      intro a
      rw [outcome, outcome, heq]
      rfl
    refine h.of_outcome rfl rfl h.delayed ?_ ?_
    · simp only [houtcome, imp_self, implies_true]
    · simp only [houtcome, imp_self, implies_true]

theorem step_inv (hnode : nodeName ≠ "") (hname : name ≠ "") (a : Action) (h : Inv nodeName s)
    (hclean : a.Clean nodeName s) :
  Inv nodeName (step p nodeName name s a).2
  := by
  cases a with
  | store t => apply store_inv h t hclean
  | delete => apply delete_inv h
  | deliver => apply deliver_inv hnode h hclean
  | take => apply take_inv h
  | process => apply process_inv hnode hname h
  | retry e => apply retry_inv h
  | dispatch => apply dispatch_inv h

theorem Inv.settled (h : Inv nodeName s) :
  Settled nodeName s
  := by
  intro hdrained
  have houtcome : ∀ a, outcome a s = s.record := by
    intro a
    rw [outcome, hdrained.current, hdrained.pending, hdrained.inbox]
    rfl
  constructor
  · intro t ht hawait
    rw [← houtcome true]
    apply h.awaiting hdrained.notifications t ht hawait
  · intro hnone
    rw [← houtcome false]
    apply h.absent hdrained.notifications hnone

end

/-- If no status lists the node twice and no item is merged with a pending one that an opposite item
follows, then the record follows the object. -/
theorem after_settled (p : Parsers) {nodeName name : String} (hnode : nodeName ≠ "")
    (hname : name ≠ "") (actions : List Action)
    (hclean : Machine.Meets (step p nodeName name) (Action.Clean nodeName) init actions) :
  Settled nodeName (Machine.after (step p nodeName name) init actions)
  := by
  apply Inv.settled
  apply Machine.after_of_meets _ _ hclean
  · intro s a hs ha
    apply step_inv hnode hname a hs ha
  · apply init_inv

/-- A tenant that lists the node `n` as awaiting, and one that does not. -/
def red (awaiting : Bool) : Tenant :=
  ⟨"red", 1, [], if awaiting then ["n"] else []⟩

/-- A tenant that is deleted, created again and updated twice while its first item is being
processed. -/
theorem after_settled_recreated :
  Settled "n" (Machine.after (step goParsers "n" "red") init
    [.store (red true), .deliver, .take, .delete, .deliver, .store (red true), .deliver,
      .store (red true), .deliver, .store (red true), .deliver, .process, .dispatch, .take,
      .process, .dispatch, .take, .process, .dispatch, .take, .process, .dispatch])
  := by
  apply after_settled
  · decide
  · decide
  · decide +kernel

/-- The deletion of a tenant that was created again is merged with the first deletion, before the
item of the creation.  And a new update is merged with an old one, before the item of a deletion. -/
theorem merged_not_settled :
  ¬ Settled "n" (Machine.after (step goParsers "n" "red") init
    [.store (red false), .deliver, .delete, .deliver, .store (red true), .deliver,
      .delete, .deliver, .take, .process, .take, .process, .dispatch, .dispatch])
  ∧ ¬ Settled "n" (Machine.after (step goParsers "n" "red") init
    [.store (red false), .deliver, .store (red false), .deliver, .delete, .deliver,
      .store (red false), .deliver, .store (red true), .deliver,
      .take, .process, .take, .process, .dispatch, .dispatch])
  := by
  constructor
  · intro h
    have hrecord := (h ⟨by decide +kernel, by decide +kernel, by decide +kernel,
      by decide +kernel⟩).2
    revert hrecord
    decide +kernel
  · intro h
    have hrecord := (h ⟨by decide +kernel, by decide +kernel, by decide +kernel,
      by decide +kernel⟩).1
      (red true) (by decide +kernel) (by decide +kernel)
    revert hrecord
    decide +kernel

end Lifecycle

end Daemon
