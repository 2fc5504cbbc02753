import Misokube.Lib.Machine
import Misokube.Nmanager.Model

/-!
# The teardown of a tenant

The dispatcher, the actors of one tenant and their clients as they interleave.  The dispatcher runs
the commands `EnsureTenant` and `RemoveTenant` of `internal/nmanager` one after the other.  An actor
is a goroutine with a mailbox; it handles one message at a time.  A section under the lock of the
network manager, a call of another package and an operation on a channel are one step each.

Records are shared by reference: a reference is the position of a record in the order in which they
were made.  What the subnet manager, the devices and the policy manager answer is arbitrary, which
covers all that other tenants do.  The contexts are never cancelled.
-/

namespace Teardown

open Net Nmanager
open Device (Backend Bridge Hashes VTEP newBridgeVTEPBackend)

/-! ### State -/

/-- `TenantRecord` with the fields of expansions; a channel is a number. -/
structure Cell extends TenantRecord where
  expandCh : Option ℕ
  lastExpandErr : Option Error

/-- What a client asks the actor for. -/
inductive Request where
  | ensure (args : PodAttachArgs)
  | remove (args : PodAttachArgs)
  | update (args : PodAttachArgs)
deriving DecidableEq

/-- `tenantMsg`. -/
inductive Msg where
  | request (q : Request)
  | stop
deriving DecidableEq

/-- What is sent back for a message; `EnsurePod` returns an attachment. -/
abbrev Reply := Except Error (Option PodAttachment)

/-- A request for a pod, with the number of the attempt. -/
structure Job where
  args : PodAttachArgs
  attempt : ℕ

/-- Where an actor is, with the values of its local variables that it still needs. -/
inductive Pc where
  | select
  | gate (args : PodAttachArgs)
  | ensureRead (job : Job)
  | ensureState (job : Job) (r : ℕ)
  | ensureAllocate (job : Job) (r : ℕ)
  | ensureBridge (job : Job) (r : ℕ) (ci : Ipam.ContainerNetInfo)
  | ensureVeth (job : Job) (r : ℕ) (ci : Ipam.ContainerNetInfo) (br : Bridge)
  | ensureFree (job : Job) (r : ℕ) (ci : Ipam.ContainerNetInfo)
  | requestExpansion (job : Job)
  | expandWait (job : Job) (ch : ℕ)
  | expandRead (job : Job) (ch : ℕ)
  | expandSubnet (job : Job) (ch r : ℕ)
  | expandBackend (job : Job) (ch r : ℕ) (newNet : IPNet)
  | expandIPAM (job : Job) (ch r : ℕ) (newNet : IPNet)
  | expandStore (job : Job) (ch r : ℕ) (newNet : IPNet)
  | expandFinish (job : Job) (ch : ℕ) (err : Option Error)
  | expandClose (job : Job) (ch : ℕ) (err : Option Error)
  | reconcile (job : Job)
  | removePod (args : PodAttachArgs)
  | updateGate (args : PodAttachArgs)
  | updatePod (args : PodAttachArgs)
  | reply (m : Msg) (result : Reply)
  | stopped

/-- An actor that was started. -/
structure Actor where
  inbox : List Msg
  pc : Pc

/-- A command of the dispatcher. -/
inductive Command where
  | ensureTenant
  | removeTenant
deriving DecidableEq

/-- Where the dispatcher is. -/
inductive DispatcherPc where
  | idle
  | ensureCheck
  | ensureAllocate
  | ensureCreate (subnetNet : IPNet)
  | ensurePolicy (subnetNet : IPNet) (be : Backend)
  | ensureIPAM (subnetNet : IPNet) (be : Backend)
  | ensureCommit (subnetNet : IPNet) (be : Backend) (ipm : Ipam.BitmapIPAM)
  | ensureActor
  | removeRead
  | removeMark (r : ℕ)
  | removeDelete (r : ℕ)
  | removeDeallocate
  | removeChains
  | removeActor
  | stopSend (a : ℕ)
  | stopWait (a : ℕ)
  | removeDropActor (a : ℕ)
  | removeDropRecord
  | panicked

/-- What the goroutines share: the records that were made, whether the channels that were made are
closed, and the entries of the tenant in `TenantRecords` and `TenantActors`. -/
structure Shared where
  heap : List Cell
  channels : List Bool
  record : Option ℕ
  actor : Option ℕ

structure System where
  shared : Shared
  actors : List Actor
  dispatcher : DispatcherPc

/-- A network manager without tenants. -/
def init : System :=
  ⟨⟨[], [], none, none⟩, [], .idle⟩

/-- What is answered from outside in a step: by the subnet manager to `Allocate` and `Expand`, by
the devices and the policy manager, from the record of the default tenant, and by `UpdatePod`. -/
structure Answers where
  allocate : Except Trie.Error IPNet
  expand : Except Trie.Error IPNet
  outcomes : Outcomes
  defaultTenantIfaces : List String
  update : Except Error Unit

/-- What can be observed of a step. -/
inductive Event where
  | took (a : ℕ) (m : Msg)
  | answered (a : ℕ) (m : Msg) (result : Reply)
  | allocate (a r : ℕ)
  | free (a r : ℕ)
  | expand (a r : ℕ)
  | returned (c : Command) (result : Except Error Unit)
deriving DecidableEq

/-- The actor whose step it is. -/
def Event.actor : Event → Option ℕ
  | .took a _ => some a
  | .answered a _ _ => some a
  | .allocate a _ => some a
  | .free a _ => some a
  | .expand a _ => some a
  | .returned _ _ => none

/-- The record whose IPAM is used. -/
def Event.touches : Event → Option ℕ
  | .allocate _ r => some r
  | .free _ r => some r
  | .expand _ r => some r
  | _ => none

namespace Shared

/-- The record of the tenant. -/
def current (s : Shared) : Option Cell :=
  s.record.bind fun r => s.heap[r]?

/-- Changes a record. -/
def modify (s : Shared) (r : ℕ) (f : Cell → Cell) : Shared :=
  { s with heap := s.heap.modify r f }

/-- The tenant has a record that is marked as closing. -/
def Closing (s : Shared) : Prop :=
  ∃ c ∈ s.current, c.state = .closing

end Shared

/-! ### Actors -/

/-- The end of an attempt of `ensurePodWithExpansion`. -/
def Job.attempted (job : Job) : Except Error PodAttachment → Pc
  | .ok att => .reply (.request (.ensure job.args)) (.ok (some att))
  | .error (.ipam (.noAvailableIPs n)) =>
    if job.attempt = NetworkManager.maxRetries then
      .reply (.request (.ensure job.args)) (.error (.ipam (.noAvailableIPs n)))
    else .requestExpansion job
  | .error e => .reply (.request (.ensure job.args)) (.error e)

/-- What follows when `requestTenantExpansion` returns. -/
def Job.expanded (job : Job) : Option Error → Pc
  | none => .reconcile job
  | some e => .reply (.request (.ensure job.args)) (.error (.expandTenant e))

/-- What the loop does with a message it has taken. -/
def Msg.start : Msg → Pc
  | .request (.ensure args) => .gate args
  | .request (.remove args) => .removePod args
  | .request (.update args) => .updateGate args
  | .stop => .reply .stop (.ok none)

/-- The next step of the actor `a` of the tenant, but for those at its channels. -/
def Pc.next (id : String) (ans : Answers) (a : ℕ) (s : Shared) : Pc → Option Event × Pc × Shared
  | .gate args =>
    -- a missing record counts as ready
    match s.current with
    | some c =>
      if c.state = .closing then
        (none, .reply (.request (.ensure args)) (.error .tenantClosing), s)
      else (none, .ensureRead ⟨args, 0⟩, s)
    | none => (none, .ensureRead ⟨args, 0⟩, s)
  | .ensureRead job =>
    match s.record with
    | none => (none, job.attempted (.error .tenantActorNotFound), s)
    | some r => (none, .ensureState job r, s)
  | .ensureState job r =>
    match s.heap[r]? with
    | none => (none, .ensureState job r, s)
    | some c =>
      if c.state = .closing then (none, job.attempted (.error .tenantClosing), s)
      else (none, .ensureAllocate job r, s)
  | .ensureAllocate job r =>
    match s.heap[r]? with
    | none => (none, .ensureAllocate job r, s)
    | some c =>
      let key := podKey job.args.namespaceName job.args.podName
      match c.ipam.allocate key job.args.containerID job.args.ifName job.args.netNS with
      | (.error e, ipam) =>
        (some (.allocate a r), job.attempted (.error (.ipam e)),
          s.modify r fun c => { c with ipam := ipam })
      | (.ok ci, ipam) =>
        (some (.allocate a r), .ensureBridge job r ci, s.modify r fun c => { c with ipam := ipam })
  | .ensureBridge job r ci =>
    match s.heap[r]?.bind fun c => c.backend.bridge with
    | none => (none, job.attempted (.error (.bridgeNotFound id)), s)
    | some br => (none, .ensureVeth job r ci br, s)
  | .ensureVeth job r ci br =>
    match s.heap[r]? with
    | none => (none, .ensureVeth job r ci br, s)
    | some c =>
      let podIPNet := ⟨ci.ip, c.subnet.mask⟩
      if ans.outcomes.setupVeth
          ⟨job.args.netNS, br.name, 1500, job.args.ifName, podIPNet, br.ip.ip⟩ then
        (none, job.attempted (.ok ⟨podIPNet, br.ip.ip, job.args.ifName⟩), s)
      else (none, .ensureFree job r ci, s)
  | .ensureFree job r ci =>
    (some (.free a r), job.attempted (.error .setupVeth),
      s.modify r fun c => { c with ipam := (c.ipam.free ci.ip).2 })
  | .requestExpansion job =>
    match s.record, s.current with
    | some r, some c =>
      if c.state = .closing then (none, job.expanded (some .tenantClosing), s)
      else
        match c.expandCh with
        | some ch => (none, .expandWait job ch, s)
        | none =>
          (none, .expandRead job s.channels.length,
            { s.modify r fun c => { c with expandCh := some s.channels.length } with
              channels := s.channels ++ [false] })
    | _, _ => (none, job.expanded (some .tenantActorNotFound), s)
  | .expandWait job ch =>
    if s.channels[ch]? = some true then
      match s.current with
      | none => (none, job.expanded (some .tenantActorNotFound), s)
      | some c => (none, job.expanded c.lastExpandErr, s)
    else (none, .expandWait job ch, s)
  | .expandRead job ch =>
    match s.record with
    | none => (none, .expandFinish job ch (some (.noTenantRecord id)), s)
    | some r => (none, .expandSubnet job ch r, s)
  | .expandSubnet job ch r =>
    match ans.expand with
    | .error e => (none, .expandFinish job ch (some (.subnetExpand e)), s)
    | .ok newNet => (none, .expandBackend job ch r newNet, s)
  | .expandBackend job ch r newNet =>
    match s.heap[r]? with
    | none => (none, .expandBackend job ch r newNet, s)
    | some c =>
      match c.backend.update ans.outcomes.toOutcomes newNet with
      | (.error e, be) =>
        (none, .expandFinish job ch (some (.backendUpdate e)),
          s.modify r fun c => { c with backend := be })
      | (.ok (), be) =>
        (none, .expandIPAM job ch r newNet, s.modify r fun c => { c with backend := be })
  | .expandIPAM job ch r newNet =>
    match s.heap[r]? with
    | none => (none, .expandIPAM job ch r newNet, s)
    | some c =>
      match c.ipam.expand (some newNet) with
      | (.error e, ipam) =>
        (some (.expand a r), .expandFinish job ch (some (.ipamExpand e)),
          s.modify r fun c => { c with ipam := ipam })
      | (.ok (), ipam) =>
        (some (.expand a r), .expandStore job ch r newNet,
          s.modify r fun c => { c with ipam := ipam })
  | .expandStore job ch r newNet =>
    -- the record is stored again
    (none, .expandFinish job ch none,
      { s.modify r fun c => { c with subnet := newNet } with record := some r })
  | .expandFinish job ch err =>
    match s.record, s.current with
    | some r, some c =>
      if c.expandCh = some ch then
        (none, .expandClose job ch err,
          s.modify r fun c => { c with expandCh := none, lastExpandErr := err })
      else (none, .expandClose job ch err, s)
    | _, _ => (none, .expandClose job ch err, s)
  | .expandClose job ch err =>
    (none, job.expanded err, { s with channels := s.channels.set ch true })
  | .reconcile job =>
    -- the interfaces of the pods are moved, which only reads the record
    match s.record with
    | none =>
        (none, .reply (.request (.ensure job.args)) (.error (.reconcilePods (.ipamMissing id))), s)
    | some _ => (none, .ensureRead { job with attempt := job.attempt + 1 }, s)
  | .removePod args =>
    match s.record with
    | none => (none, .reply (.request (.remove args)) (.error .tenantActorNotFound), s)
    | some _ => (none, .reply (.request (.remove args)) (.ok none), s)
  | .updateGate args =>
    match s.current with
    | some c =>
      if c.state = .closing then
        (none, .reply (.request (.update args)) (.error .tenantClosing), s)
      else (none, .updatePod args, s)
    | none => (none, .updatePod args, s)
  | .updatePod args =>
    -- reads the record and moves the interface of the pod
    (none, .reply (.request (.update args)) (ans.update.map fun _ => none), s)
  | pc => (none, pc, s)

/-- The next step of an actor: it takes a message, sends the answer to one, or goes on with the
one it has taken.  After the answer to the stop message it returns. -/
def Actor.next (id : String) (ans : Answers) (a : ℕ) (s : Shared) (A : Actor) :
    Option Event × Actor × Shared :=
  match A.pc with
  | .select =>
    match A.inbox with
    | [] => (none, A, s)
    | m :: inbox => (some (.took a m), ⟨inbox, m.start⟩, s)
  | .reply m result =>
    (some (.answered a m result), ⟨A.inbox, if m = .stop then .stopped else .select⟩, s)
  | .stopped => (none, A, s)
  | pc => ((pc.next id ans a s).1, ⟨A.inbox, (pc.next id ans a s).2.1⟩, (pc.next id ans a s).2.2)

/-! ### The dispatcher -/

/-- The capacity of a mailbox. -/
def mailboxSize : ℕ := 128

/-- Sends a message to an actor, if its mailbox has room. -/
def Actor.receive (A : Actor) (m : Msg) : Actor :=
  if A.inbox.length < mailboxSize then { A with inbox := A.inbox ++ [m] } else A

def Command.start : Command → DispatcherPc
  | .ensureTenant => .ensureCheck
  | .removeTenant => .removeRead

namespace System

/-- The dispatcher goes on. -/
def goto (s : System) (pc : DispatcherPc) : Option Event × System :=
  (none, { s with dispatcher := pc })

/-- The command of the dispatcher returns. -/
def return_ (s : System) (c : Command) (result : Except Error Unit) : Option Event × System :=
  (some (.returned c result), { s with dispatcher := .idle })

/-- The call to the policy manager for a tenant with new devices. -/
def policyCall (id : String) (be : Backend) (extraIfaces : List String) : PolicyCall :=
  let brName := (be.bridge.map Bridge.name).getD ""
  let vxName := (be.vtep.map VTEP.name).getD ""
  if id = "default" then .ensureDefaultTenant brName vxName
  else .ensureTenantIsolation id brName vxName extraIfaces

/-- The next step of the dispatcher.  What `EnsureTenant` does to undo an attempt that failed is
outside of what is shared here. -/
def dispatch (h : Hashes) (nodeName id : String) (ans : Answers) (s : System) :
    Option Event × System :=
  match s.dispatcher with
  | .idle => (none, s)
  | .panicked => (none, s)
  | .ensureCheck =>
    if id = "" then s.return_ .ensureTenant (.error .emptyTenantID)
    else if s.shared.record.isSome then s.return_ .ensureTenant (.ok ())
    else s.goto .ensureAllocate
  | .ensureAllocate =>
    match ans.allocate with
    | .error e => s.return_ .ensureTenant (.error (.allocateSubnet id e))
    | .ok subnetNet => s.goto (.ensureCreate subnetNet)
  | .ensureCreate subnetNet =>
    match newBridgeVTEPBackend.create h ans.outcomes.toOutcomes id subnetNet nodeName with
    | (.error e, _) => s.return_ .ensureTenant (.error (.backendCreate e))
    | (.ok (), be) => s.goto (.ensurePolicy subnetNet be)
  | .ensurePolicy subnetNet be =>
    let call := policyCall id be ans.defaultTenantIfaces
    if ans.outcomes.policy call then s.goto (.ensureIPAM subnetNet be)
    else s.return_ .ensureTenant (.error (.policy call))
  | .ensureIPAM subnetNet be =>
    match Ipam.newBitmapIPAM (some subnetNet) with
    | .error e => s.return_ .ensureTenant (.error (.ipamCreate e))
    | .ok ipm => s.goto (.ensureCommit subnetNet be ipm)
  | .ensureCommit subnetNet be ipm =>
    if s.shared.record.isSome then s.return_ .ensureTenant (.ok ())
    else
      goto { s with shared := { s.shared with
        heap := s.shared.heap ++ [⟨⟨subnetNet, be, ipm, .ready⟩, none, none⟩]
        record := some s.shared.heap.length } } .ensureActor
  | .ensureActor =>
    if s.shared.actor.isSome then s.return_ .ensureTenant (.ok ())
    else
      return_ { s with
        shared := { s.shared with actor := some s.actors.length }
        actors := s.actors ++ [⟨[], .select⟩] } .ensureTenant (.ok ())
  | .removeRead =>
    if id = "" then s.return_ .removeTenant (.error .emptyTenantID)
    else
      match s.shared.record with
      | none => s.return_ .removeTenant (.ok ())
      | some r => s.goto (.removeMark r)
  | .removeMark r =>
    match s.shared.record with
    | none => s.goto (.removeDelete r)
    | some r' =>
      goto { s with shared := s.shared.modify r' fun c => { c with state := .closing } }
        (.removeDelete r)
  | .removeDelete r =>
    match s.shared.heap[r]? with
    | none => s.goto .removeDeallocate
    | some c =>
      match c.backend.delete ans.outcomes.toOutcomes with
      | (.error .nilManager, _) => s.goto .panicked
      | (_, be) =>
        goto { s with shared := s.shared.modify r fun c => { c with backend := be } }
          .removeDeallocate
  | .removeDeallocate => s.goto .removeChains
  | .removeChains => s.goto .removeActor
  | .removeActor =>
    match s.shared.actor with
    | none => s.goto .removeDropRecord
    | some a => s.goto (.stopSend a)
  | .stopSend a =>
    match s.actors[a]? with
    | none => (none, s)
    | some A =>
      -- waits while the mailbox is full
      if A.inbox.length < mailboxSize then
        goto { s with actors := s.actors.modify a fun A => A.receive .stop } (.stopWait a)
      else (none, s)
  | .stopWait a =>
    match s.actors[a]?.map Actor.pc with
    | some .stopped => s.goto (.removeDropActor a)
    | _ => (none, s)
  | .removeDropActor _ =>
    goto { s with shared := { s.shared with actor := none } } .removeDropRecord
  | .removeDropRecord =>
    return_ { s with shared := { s.shared with record := none } } .removeTenant (.ok ())

end System

/-! ### Interleavings -/

/-- A step of the dispatcher, of an actor or of a client.  A command waits until the dispatcher is
idle, and a client until the mailbox has room; it may send to an actor that has stopped. -/
inductive Action where
  | command (c : Command)
  | dispatch (ans : Answers)
  | run (a : ℕ) (ans : Answers)
  | send (a : ℕ) (q : Request)

def step (h : Hashes) (nodeName id : String) (s : System) : Action → Option Event × System
  | .command c =>
    match s.dispatcher with
    | .idle => s.goto c.start
    | _ => (none, s)
  | .dispatch ans => s.dispatch h nodeName id ans
  | .run a ans =>
    match s.actors[a]? with
    | none => (none, s)
    | some A =>
      ((A.next id ans a s.shared).1, { s with
        shared := (A.next id ans a s.shared).2.2
        actors := s.actors.set a (A.next id ans a s.shared).2.1 })
  | .send a q =>
    (none, { s with actors := s.actors.modify a fun A => A.receive (.request q) })

/-- The events of a run. -/
def trace (h : Hashes) (nodeName id : String) (s : System) (actions : List Action) : List Event :=
  (Machine.replies (step h nodeName id) s actions).filterMap fun e => e

end Teardown
