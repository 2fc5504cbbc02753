import Misokube.Teardown.Model

/-!
# The actor and its record

While an actor runs, its record is the one of the tenant and every reference it holds is to this
record (`Coherent`): `RemoveTenant` drops the record only after the actor has acknowledged the stop
message, and until then an expansion in progress stores the record that is there already.  `Moves`
says what a step of an actor can do, `Outside` what any other step can.
-/

namespace Teardown

open Net Nmanager
open Device (Hashes)

/-- The reference to a record that an actor holds. -/
def Pc.ref : Pc → Option ℕ
  | .ensureState _ r => some r
  | .ensureAllocate _ r => some r
  | .ensureBridge _ r _ => some r
  | .ensureVeth _ r _ _ => some r
  | .ensureFree _ r _ => some r
  | .expandSubnet _ _ r => some r
  | .expandBackend _ _ r _ => some r
  | .expandIPAM _ _ r _ => some r
  | .expandStore _ _ r _ => some r
  | _ => none

/-- The state of a record. -/
def Shared.stateOf (s : Shared) (r : ℕ) : Option TenantState :=
  s.heap[r]?.map fun c => c.state

/-- The IPAM of a record. -/
def Shared.ipamOf (s : Shared) (r : ℕ) : Option Ipam.BitmapIPAM :=
  s.heap[r]?.map fun c => c.ipam

/-! ### Steps of an actor -/

/-- What a step of the actor `a` can do: it changes no entry of the tenant but to store the record
it holds, it does not change the states of records, it gets a reference only from the entry of the
tenant, and it uses the IPAM only of the record it holds. -/
structure Moves (a : ℕ) (s : Shared) (pc : Pc) (event : Option Event) (pc' : Pc) (s' : Shared) :
    Prop where
  actor_eq : s'.actor = s.actor
  record_eq : s'.record = s.record ∨ ∃ r, pc.ref = some r ∧ s'.record = some r
  length_eq : s'.heap.length = s.heap.length
  state_eq : ∀ r, s'.stateOf r = s.stateOf r
  ipam_eq : ∀ r, (∀ e ∈ event, e.touches ≠ some r) → s'.ipamOf r = s.ipamOf r
  ref_eq : ∀ r, pc'.ref = some r → pc.ref = some r ∨ s.record = some r
  touches : ∀ e ∈ event, ∀ r ∈ e.touches, pc.ref = some r
  own : ∀ e ∈ event, e.actor = some a

section

variable {a : ℕ} {s s' : Shared} {pc pc' : Pc} {event : Option Event}

theorem map_modify {α : Type} (s : Shared) (r : ℕ) {f : Cell → Cell} {g : Cell → α} {r' : ℕ}
    (hf : r = r' → ∀ c, g (f c) = g c) :
  (s.modify r f).heap[r']?.map g = s.heap[r']?.map g
  := by
  rw [Shared.modify, List.getElem?_modify]
  cases s.heap[r']? with
  | none => rfl
  | some c =>
    by_cases hr : r = r'
    · simp [hr, hf hr]
    · simp [hr]

/-- Nothing that is shared changes. -/
theorem Moves.quiet (href : ∀ r, pc'.ref = some r → pc.ref = some r ∨ s.record = some r) :
  Moves a s pc none pc' s
  := by
  constructor
  · rfl
  · exact Or.inl rfl
  · rfl
  · intro r
    rfl
  · intro r _
    rfl
  · exact href
  · simp
  · simp

/-- A record changes, but neither its state nor its IPAM. -/
theorem Moves.modify {r : ℕ} {f : Cell → Cell}
    (hf : ∀ c, (f c).state = c.state ∧ (f c).ipam = c.ipam)
    (href : ∀ r, pc'.ref = some r → pc.ref = some r ∨ s.record = some r) :
  Moves a s pc none pc' (s.modify r f)
  := by
  constructor
  · rfl
  · exact Or.inl rfl
  · apply List.length_modify
  · intro r'
    apply map_modify s r fun _ c => (hf c).1
  · intro r' _
    apply map_modify s r fun _ c => (hf c).2
  · exact href
  · simp
  · simp

/-- The IPAM of the record that is held is used. -/
theorem Moves.use {r : ℕ} {f : Cell → Cell} {e : Event} (hf : ∀ c, (f c).state = c.state)
    (href : ∀ r, pc'.ref = some r → pc.ref = some r ∨ s.record = some r)
    (htouches : e.touches = some r) (hown : e.actor = some a) (hpc : pc.ref = some r) :
  Moves a s pc (some e) pc' (s.modify r f)
  := by
  constructor
  · rfl
  · exact Or.inl rfl
  · apply List.length_modify
  · intro r'
    apply map_modify s r fun _ => hf
  · intro r' hr'
    apply map_modify s r
    rintro rfl
    exact absurd htouches (hr' e rfl)
  · exact href
  · rintro _ ⟨⟩ r' hr'
    rw [hpc, ← htouches]
    exact hr'
  · rintro _ ⟨⟩
    exact hown

@[simp]
theorem ref_attempted (job : Job) (result : Except Error PodAttachment) :
  (job.attempted result).ref = none
  := by
  unfold Job.attempted
  split
  · rfl
  · split <;> rfl
  · rfl

@[simp]
theorem ref_expanded (job : Job) (err : Option Error) :
  (job.expanded err).ref = none
  := by
  cases err <;> rfl

@[simp]
theorem ref_start (m : Msg) :
  m.start.ref = none
  := by
  rcases m with ⟨_ | _ | _⟩ | _ <;> rfl

theorem Pc.next_moves (id : String) (ans : Answers) (a : ℕ) (s : Shared) (pc : Pc) :
  Moves a s pc (pc.next id ans a s).1 (pc.next id ans a s).2.1 (pc.next id ans a s).2.2
  := by
  cases pc with
  | gate args =>
    rw [Pc.next]
    split
    · split
      · apply Moves.quiet (by simp [Pc.ref])
      · apply Moves.quiet (by simp [Pc.ref])
    · apply Moves.quiet (by simp [Pc.ref])
  | ensureRead job =>
    rw [Pc.next]
    split
    · apply Moves.quiet (by simp)
    case h_2 r hr =>
      apply Moves.quiet
      intro r' hr'
      rw [hr]
      exact Or.inr hr'
  | ensureState job r =>
    rw [Pc.next]
    split
    · apply Moves.quiet (by simp [Pc.ref])
    · split
      · apply Moves.quiet (by simp)
      · apply Moves.quiet (by simp [Pc.ref])
  | ensureAllocate job r =>
    rw [Pc.next]
    split
    · apply Moves.quiet (by simp [Pc.ref])
    · dsimp only
      split
      · exact Moves.use (by simp) (by simp) rfl rfl rfl
      · exact Moves.use (by simp) (by simp [Pc.ref]) rfl rfl rfl
  | ensureBridge job r ci =>
    rw [Pc.next]
    split
    · apply Moves.quiet (by simp)
    · apply Moves.quiet (by simp [Pc.ref])
  | ensureVeth job r ci br =>
    rw [Pc.next]
    split
    · apply Moves.quiet (by simp [Pc.ref])
    · dsimp only
      split
      · apply Moves.quiet (by simp)
      · apply Moves.quiet (by simp [Pc.ref])
  | ensureFree job r ci =>
    rw [Pc.next]
    exact Moves.use (by simp) (by simp) rfl rfl rfl
  | requestExpansion job =>
    rw [Pc.next]
    split
    case h_1 r c hr hc =>
      split
      · apply Moves.quiet (by simp)
      · split
        · apply Moves.quiet (by simp [Pc.ref])
        case h_2 =>
          have hmoves : Moves a s (.requestExpansion job) none (.expandRead job s.channels.length)
              (s.modify r fun c => { c with expandCh := some s.channels.length }) :=
            Moves.modify (by simp) (by simp [Pc.ref])
          exact ⟨rfl, Or.inl rfl, hmoves.length_eq, hmoves.state_eq, hmoves.ipam_eq, hmoves.ref_eq,
            by simp, by simp⟩
    case h_2 => apply Moves.quiet (by simp)
  | expandWait job ch =>
    rw [Pc.next]
    split
    · split
      · apply Moves.quiet (by simp)
      · apply Moves.quiet (by simp)
    · apply Moves.quiet (by simp [Pc.ref])
  | expandRead job ch =>
    rw [Pc.next]
    split
    · apply Moves.quiet (by simp [Pc.ref])
    case h_2 r hr =>
      apply Moves.quiet
      intro r' hr'
      rw [hr]
      exact Or.inr hr'
  | expandSubnet job ch r =>
    rw [Pc.next]
    split
    · apply Moves.quiet (by simp [Pc.ref])
    · apply Moves.quiet (by simp [Pc.ref])
  | expandBackend job ch r newNet =>
    rw [Pc.next]
    split
    · apply Moves.quiet (by simp [Pc.ref])
    · split
      · exact Moves.modify (by simp) (by simp [Pc.ref])
      · exact Moves.modify (by simp) (by simp [Pc.ref])
  | expandIPAM job ch r newNet =>
    rw [Pc.next]
    split
    · apply Moves.quiet (by simp [Pc.ref])
    · split
      · exact Moves.use (by simp) (by simp [Pc.ref]) rfl rfl rfl
      · exact Moves.use (by simp) (by simp [Pc.ref]) rfl rfl rfl
  | expandStore job ch r newNet =>
    have hmoves : Moves a s (.expandStore job ch r newNet) none (.expandFinish job ch none)
        (s.modify r fun c => { c with subnet := newNet }) :=
      Moves.modify (by simp) (by simp [Pc.ref])
    exact ⟨rfl, Or.inr ⟨r, rfl, rfl⟩, hmoves.length_eq, hmoves.state_eq, hmoves.ipam_eq,
      hmoves.ref_eq, by simp [Pc.next], by simp [Pc.next]⟩
  | expandFinish job ch err =>
    rw [Pc.next]
    split
    · split
      · exact Moves.modify (by simp) (by simp [Pc.ref])
      · apply Moves.quiet (by simp [Pc.ref])
    · apply Moves.quiet (by simp [Pc.ref])
  | expandClose job ch err =>
    exact ⟨rfl, Or.inl rfl, rfl, fun _ => rfl, fun _ _ => rfl, by simp [Pc.next],
      by simp [Pc.next], by simp [Pc.next]⟩
  | reconcile job =>
    rw [Pc.next]
    split
    · apply Moves.quiet (by simp [Pc.ref])
    · apply Moves.quiet (by simp [Pc.ref])
  | removePod args =>
    rw [Pc.next]
    split
    · apply Moves.quiet (by simp [Pc.ref])
    · apply Moves.quiet (by simp [Pc.ref])
  | updateGate args =>
    rw [Pc.next]
    split
    · split
      · apply Moves.quiet (by simp [Pc.ref])
      · apply Moves.quiet (by simp [Pc.ref])
    · apply Moves.quiet (by simp [Pc.ref])
  | updatePod args =>
    rw [Pc.next]
    apply Moves.quiet (by simp [Pc.ref])
  | select =>
    rw [Pc.next]
    · exact Moves.quiet fun r hr => Or.inl hr
    all_goals simp
  | reply m result =>
    rw [Pc.next]
    · exact Moves.quiet fun r hr => Or.inl hr
    all_goals simp
  | stopped =>
    rw [Pc.next]
    · exact Moves.quiet fun r hr => Or.inl hr
    all_goals simp

theorem Actor.next_moves (id : String) (ans : Answers) (a : ℕ) (s : Shared) (A : Actor) :
  Moves a s A.pc (A.next id ans a s).1 (A.next id ans a s).2.1.pc (A.next id ans a s).2.2
  := by
  rw [Actor.next]
  split
  case h_1 hpc =>
    rw [hpc]
    split
    · rw [hpc]
      exact Moves.quiet fun r hr => Or.inl hr
    · exact ⟨rfl, Or.inl rfl, rfl, fun _ => rfl, fun _ _ => rfl, by simp,
        by simp [Event.touches], by simp [Event.actor]⟩
  case h_2 m result hpc =>
    refine ⟨rfl, Or.inl rfl, rfl, fun _ => rfl, fun _ _ => rfl, ?_, by simp [Event.touches],
      by simp [Event.actor]⟩
    dsimp only
    split <;> simp [Pc.ref]
  case h_3 hpc =>
    rw [hpc]
    exact Moves.quiet fun r hr => Or.inl hr
  case h_4 => apply Pc.next_moves

/-- An actor that has stopped does nothing. -/
theorem Actor.next_stopped {A : Actor} (h : A.pc = .stopped) (id : String) (ans : Answers) (a : ℕ)
    (s : Shared) :
  A.next id ans a s = (none, A, s)
  := by
  rw [Actor.next, h]

end

/-! ### The invariant -/

/-- What the dispatcher knows at each place about the entries of the tenant. -/
def DispatcherPc.Phase (id : String) (s : System) : DispatcherPc → Prop
  | .idle | .ensureCheck | .removeRead => s.shared.record.isSome = s.shared.actor.isSome
  | .ensureAllocate | .ensureCreate _ | .ensurePolicy _ _ | .ensureIPAM _ _ | .ensureCommit _ _ _ =>
    id ≠ "" ∧ s.shared.record = none ∧ s.shared.actor = none
  | .ensureActor => s.shared.record.isSome ∧ s.shared.actor = none
  | .removeMark _ | .removeDelete _ | .removeDeallocate | .removeChains | .removeActor =>
    s.shared.record.isSome ∧ s.shared.actor.isSome
  | .stopSend a | .stopWait a => s.shared.record.isSome ∧ s.shared.actor = some a
  | .removeDropActor a =>
      s.shared.actor = some a ∧ ∃ A : Actor, s.actors[a]? = some A ∧ A.pc = .stopped
  | .removeDropRecord => s.shared.actor = none
  | .panicked => True

/-- The actor that runs, if any, is the one of the tenant, and the references it holds are to the
record of the tenant, which is there. -/
structure Coherent (id : String) (s : System) : Prop where
  running : ∀ (a : ℕ) (A : Actor), s.actors[a]? = some A → A.pc ≠ .stopped →
    s.shared.actor = some a ∧ s.shared.record.isSome
  held : ∀ (a : ℕ) (A : Actor) (r : ℕ), s.actors[a]? = some A → A.pc.ref = some r →
    s.shared.record = some r
  made : ∀ r, s.shared.record = some r → r < s.shared.heap.length
  named : s.shared.record.isSome → id ≠ ""
  phase : s.dispatcher.Phase id s

section

variable {h : Hashes} {nodeName id : String} {s s' : System}

theorem init_coherent (id : String) :
  Coherent id init
  := by
  constructor
  · simp [init]
  · simp [init]
  · simp [init]
  · simp [init]
  · rfl

/-- Only where the dispatcher is changes. -/
theorem Coherent.goto (hs : Coherent id s) {pc : DispatcherPc} (hphase : pc.Phase id s) :
  Coherent id (s.goto pc).2
  := by
  refine ⟨hs.running, hs.held, hs.made, hs.named, ?_⟩
  cases pc <;> exact hphase

theorem Coherent.return_ (hs : Coherent id s)
    (heq : s.shared.record.isSome = s.shared.actor.isSome) (c : Command)
    (result : Except Error Unit) :
  Coherent id (s.return_ c result).2
  := ⟨hs.running, hs.held, hs.made, hs.named, heq⟩

/-- Records change, but not which one is that of the tenant. -/
theorem Coherent.modify (hs : Coherent id s) (r : ℕ) (f : Cell → Cell) :
  Coherent id { s with shared := s.shared.modify r f }
  := by
  refine ⟨hs.running, hs.held, ?_, hs.named, ?_⟩
  · intro r' hr'
    have hlt := hs.made r' hr'
    simpa [Shared.modify] using hlt
  · have hphase := hs.phase
    cases hpc : s.dispatcher <;> simp only [hpc, DispatcherPc.Phase] at hphase ⊢ <;> exact hphase

/-- If no actor of the tenant is registered, then all actors have stopped. -/
theorem Coherent.stopped (hs : Coherent id s) (hactor : s.shared.actor = none) {a : ℕ} {A : Actor}
    (hA : s.actors[a]? = some A) :
  A.pc = .stopped
  := by
  by_contra hpc
  have hrunning := (hs.running a A hA hpc).1
  simp [hactor] at hrunning

/-- An actor that holds a reference has not stopped. -/
theorem ne_stopped_of_ref {pc : Pc} {r : ℕ} (href : pc.ref = some r) :
  pc ≠ .stopped
  := by
  rintro rfl
  simp [Pc.ref] at href

theorem receive_pc (A : Actor) (m : Msg) :
  (A.receive m).pc = A.pc
  := by
  rw [Actor.receive]
  split <;> rfl

/-- The actor `a` gets another mailbox. -/
theorem Coherent.receive (hs : Coherent id s) (a : ℕ) (f : Actor → Actor)
    (hf : ∀ A, (f A).pc = A.pc) :
  Coherent id { s with actors := s.actors.modify a f }
  := by
  have hold : ∀ (a' : ℕ) (A : Actor), (s.actors.modify a f)[a']? = some A →
      ∃ A', s.actors[a']? = some A' ∧ A'.pc = A.pc := by
    intro a' A hA
    rw [List.getElem?_modify, Option.map_eq_map, Option.map_eq_some_iff] at hA
    obtain ⟨A', hA', rfl⟩ := hA
    refine ⟨A', hA', ?_⟩
    split
    · exact (hf A').symm
    · rfl
  refine ⟨?_, ?_, hs.made, hs.named, ?_⟩
  · intro a' A hA hpc
    obtain ⟨A', hA', hpc'⟩ := hold a' A hA
    rw [← hpc'] at hpc
    apply hs.running a' A' hA' hpc
  · intro a' A r hA href
    obtain ⟨A', hA', hpc'⟩ := hold a' A hA
    rw [← hpc'] at href
    apply hs.held a' A' r hA' href
  · have hphase := hs.phase
    cases hpc : s.dispatcher with
    | removeDropActor b =>
      rw [hpc] at hphase
      obtain ⟨hactor, A, hA, hstopped⟩ := hphase
      refine ⟨hactor, if a = b then f A else A, ?_, ?_⟩
      · dsimp only
        rw [List.getElem?_modify, hA]
        rfl
      · split
        · rw [hf]
          exact hstopped
        · exact hstopped
    | _ =>
      rw [hpc] at hphase
      exact hphase

/-- An actor that stores the record it holds stores the one that is there. -/
theorem Coherent.record_next (hs : Coherent id s) {a : ℕ} {A : Actor} (hA : s.actors[a]? = some A)
    (ans : Answers) :
  (A.next id ans a s.shared).2.2.record = s.shared.record
  := by
  obtain heq | ⟨r, href, heq⟩ := (A.next_moves id ans a s.shared).record_eq
  · exact heq
  · rw [heq, hs.held a A r hA href]

theorem Coherent.run (hs : Coherent id s) (a : ℕ) (ans : Answers) :
  Coherent id (step h nodeName id s (.run a ans)).2
  := by
  rw [step]
  split
  · exact hs
  case h_2 A hA =>
    have hmoves := A.next_moves id ans a s.shared
    have hrecord := hs.record_next hA ans
    have hlt : a < s.actors.length := (List.getElem?_eq_some_iff.mp hA).1
    -- an actor of the new list is another one of the old list, or the one that moved
    have hcases : ∀ (a' : ℕ) (B : Actor),
        (s.actors.set a (A.next id ans a s.shared).2.1)[a']? = some B →
        s.actors[a']? = some B ∨ a' = a ∧ B = (A.next id ans a s.shared).2.1 := by
      intro a' B hB
      by_cases ha : a = a'
      · subst ha
        rw [List.getElem?_set_self hlt] at hB
        exact Or.inr ⟨rfl, (Option.some.inj hB).symm⟩
      · rw [List.getElem?_set_ne ha] at hB
        exact Or.inl hB
    constructor
    · intro a' B hB hpc
      dsimp only
      rw [hmoves.actor_eq, hrecord]
      obtain hB | ⟨rfl, rfl⟩ := hcases a' B hB
      · apply hs.running a' B hB hpc
      · apply hs.running a' A hA
        intro hstopped
        rw [Actor.next_stopped hstopped] at hpc
        exact hpc hstopped
    · intro a' B r hB href
      dsimp only
      rw [hrecord]
      obtain hB | ⟨rfl, rfl⟩ := hcases a' B hB
      · apply hs.held a' B r hB href
      · obtain hold | hnew := hmoves.ref_eq r href
        · apply hs.held a' A r hA hold
        · exact hnew
    · intro r hr
      dsimp only at hr ⊢
      rw [hrecord] at hr
      rw [hmoves.length_eq]
      apply hs.made r hr
    · dsimp only
      rw [hrecord]
      exact hs.named
    · have hphase := hs.phase
      cases hpc : s.dispatcher with
      | removeDropActor b =>
        rw [hpc] at hphase
        obtain ⟨hactor, B, hB, hstopped⟩ := hphase
        refine ⟨hmoves.actor_eq.trans hactor, B, ?_, hstopped⟩
        dsimp only
        by_cases hab : a = b
        · subst hab
          obtain rfl : A = B := Option.some.inj (hA.symm.trans hB)
          rw [List.getElem?_set_self hlt, Actor.next_stopped hstopped]
        · rw [List.getElem?_set_ne hab, hB]
      | panicked => trivial
      | _ =>
        rw [hpc] at hphase
        simp only [DispatcherPc.Phase, hrecord, hmoves.actor_eq] at hphase ⊢
        exact hphase

/-- The record of a new tenant. -/
theorem Coherent.commit (hs : Coherent id s) (hid : id ≠ "") (hactor : s.shared.actor = none)
    (c : Cell) :
  Coherent id ⟨{ s.shared with
    heap := s.shared.heap ++ [c]
    record := some s.shared.heap.length }, s.actors, .ensureActor⟩
  := by
  constructor
  · intro a A hA hpc
    exact absurd (hs.stopped hactor hA) hpc
  · intro a A r hA href
    exact absurd (hs.stopped hactor hA) (ne_stopped_of_ref href)
  · intro r hr
    cases hr
    simp
  · intro _
    exact hid
  · exact ⟨rfl, hactor⟩

/-- The actor of a new tenant. -/
theorem Coherent.start (hs : Coherent id s) (hactor : s.shared.actor = none)
    (hrecord : s.shared.record.isSome) :
  Coherent id ⟨{ s.shared with actor := some s.actors.length }, s.actors ++ [⟨[], .select⟩], .idle⟩
  := by
  have hcases : ∀ (a : ℕ) (A : Actor), (s.actors ++ [⟨[], .select⟩])[a]? = some A →
      s.actors[a]? = some A ∨ a = s.actors.length ∧ A = ⟨[], .select⟩ := by
    grind
  constructor
  · intro a A hA hpc
    obtain hold | ⟨rfl, -⟩ := hcases a A hA
    · exact absurd (hs.stopped hactor hold) hpc
    · exact ⟨rfl, hrecord⟩
  · intro a A r hA href
    obtain hold | ⟨-, rfl⟩ := hcases a A hA
    · apply hs.held a A r hold href
    · simp [Pc.ref] at href
  · exact hs.made
  · exact hs.named
  · exact hrecord

/-- The actor that has stopped is dropped. -/
theorem Coherent.dropActor (hs : Coherent id s) {a : ℕ} {A : Actor}
    (hactor : s.shared.actor = some a) (hA : s.actors[a]? = some A) (hstopped : A.pc = .stopped) :
  Coherent id ⟨{ s.shared with actor := none }, s.actors, .removeDropRecord⟩
  := by
  constructor
  · intro b B hB hpc
    obtain rfl : a = b := Option.some.inj (hactor.symm.trans (hs.running b B hB hpc).1)
    obtain rfl : A = B := Option.some.inj (hA.symm.trans hB)
    exact absurd hstopped hpc
  · exact hs.held
  · exact hs.made
  · exact hs.named
  · rfl

/-- The record is dropped once no actor runs. -/
theorem Coherent.dropRecord (hs : Coherent id s) (hactor : s.shared.actor = none) :
  Coherent id ⟨{ s.shared with record := none }, s.actors, .idle⟩
  := by
  constructor
  · intro a A hA hpc
    exact absurd (hs.stopped hactor hA) hpc
  · intro a A r hA href
    exact absurd (hs.stopped hactor hA) (ne_stopped_of_ref href)
  · simp
  · simp
  · simp [DispatcherPc.Phase, hactor]

/-! ### Steps of the dispatcher -/

/-- What the dispatcher can do in a step, with what it knows then. -/
inductive Dispatched (id : String) (s : System) : Option Event → System → Prop
  | stay : Dispatched id s none s
  | goto {pc : DispatcherPc} (hphase : pc.Phase id s) : Dispatched id s none (s.goto pc).2
  | return_ {c : Command} {result : Except Error Unit}
      (heq : s.shared.record.isSome = s.shared.actor.isSome)
      (hremove : c = .removeTenant → s.shared.record = none) :
      Dispatched id s (some (.returned c result)) (s.return_ c result).2
  | modify {r : ℕ} {f : Cell → Cell} {pc : DispatcherPc} (hipam : ∀ c, (f c).ipam = c.ipam)
      (hclosing : ∀ c, c.state = .closing → (f c).state = .closing) (hphase : pc.Phase id s) :
      Dispatched id s none ⟨s.shared.modify r f, s.actors, pc⟩
  | commit (c : Cell) (hid : id ≠ "") (hrecord : s.shared.record = none)
      (hactor : s.shared.actor = none) :
      Dispatched id s none ⟨{ s.shared with
        heap := s.shared.heap ++ [c]
        record := some s.shared.heap.length }, s.actors, .ensureActor⟩
  | start (hactor : s.shared.actor = none) (hrecord : s.shared.record.isSome) :
      Dispatched id s (some (.returned .ensureTenant (.ok ())))
        ⟨{ s.shared with actor := some s.actors.length }, s.actors ++ [⟨[], .select⟩], .idle⟩
  | stop {a : ℕ} (hphase : (DispatcherPc.stopWait a).Phase id s) :
      Dispatched id s none ⟨s.shared, s.actors.modify a fun A => A.receive .stop, .stopWait a⟩
  | dropActor {a : ℕ} {A : Actor} (hactor : s.shared.actor = some a) (hA : s.actors[a]? = some A)
      (hstopped : A.pc = .stopped) :
      Dispatched id s none ⟨{ s.shared with actor := none }, s.actors, .removeDropRecord⟩
  | dropRecord (hactor : s.shared.actor = none) :
      Dispatched id s (some (.returned .removeTenant (.ok ())))
        ⟨{ s.shared with record := none }, s.actors, .idle⟩

theorem Coherent.dispatched (hs : Coherent id s) (ans : Answers) :
  Dispatched id s (s.dispatch h nodeName id ans).1 (s.dispatch h nodeName id ans).2
  := by
  have hphase := hs.phase
  rw [System.dispatch]
  cases hpc : s.dispatcher with
  | idle => exact .stay
  | panicked => exact .stay
  | ensureCheck =>
    rw [hpc] at hphase
    dsimp only
    split
    · exact .return_ hphase (by simp)
    case isFalse hid =>
      split
      · exact .return_ hphase (by simp)
      case isFalse hnone =>
        rw [Option.not_isSome_iff_eq_none] at hnone
        apply Dispatched.goto
        refine ⟨hid, hnone, ?_⟩
        rw [DispatcherPc.Phase, hnone] at hphase
        simpa using hphase.symm
  | ensureAllocate =>
    rw [hpc] at hphase
    dsimp only
    split
    · exact .return_ (by simp [hphase.2.1, hphase.2.2]) (by simp)
    · exact .goto hphase
  | ensureCreate subnetNet =>
    rw [hpc] at hphase
    dsimp only
    split
    · exact .return_ (by simp [hphase.2.1, hphase.2.2]) (by simp)
    · exact .goto hphase
  | ensurePolicy subnetNet be =>
    rw [hpc] at hphase
    dsimp only
    split
    · exact .goto hphase
    · exact .return_ (by simp [hphase.2.1, hphase.2.2]) (by simp)
  | ensureIPAM subnetNet be =>
    rw [hpc] at hphase
    dsimp only
    split
    · exact .return_ (by simp [hphase.2.1, hphase.2.2]) (by simp)
    · exact .goto hphase
  | ensureCommit subnetNet be ipm =>
    rw [hpc] at hphase
    dsimp only
    split
    · exact .return_ (by simp [hphase.2.1, hphase.2.2]) (by simp)
    · exact .commit _ hphase.1 hphase.2.1 hphase.2.2
  | ensureActor =>
    rw [hpc] at hphase
    dsimp only
    split
    case isTrue hsome => simp [hphase.2] at hsome
    case isFalse => exact .start hphase.2 hphase.1
  | removeRead =>
    rw [hpc] at hphase
    dsimp only
    split
    case isTrue hid =>
      -- the empty id never has a record
      apply Dispatched.return_ hphase
      intro _
      by_contra hsome
      exact hs.named (Option.isSome_iff_ne_none.mpr hsome) hid
    case isFalse =>
      split
      case h_1 hnone => exact .return_ hphase fun _ => hnone
      case h_2 r hr =>
        apply Dispatched.goto
        rw [DispatcherPc.Phase, hr] at hphase
        exact ⟨by simp [hr], hphase.symm⟩
  | removeMark r =>
    rw [hpc] at hphase
    dsimp only
    split
    · exact .goto hphase
    · exact .modify (by simp) (by simp) hphase
  | removeDelete r =>
    rw [hpc] at hphase
    dsimp only
    split
    · exact .goto hphase
    · split
      · exact .goto trivial
      · exact .modify (by simp) (by simp) hphase
  | removeDeallocate =>
    rw [hpc] at hphase
    exact .goto hphase
  | removeChains =>
    rw [hpc] at hphase
    exact .goto hphase
  | removeActor =>
    rw [hpc] at hphase
    dsimp only
    split
    case h_1 hnone => simp [DispatcherPc.Phase, hnone] at hphase
    case h_2 a ha => exact .goto ⟨hphase.1, ha⟩
  | stopSend a =>
    rw [hpc] at hphase
    dsimp only
    split
    · exact .stay
    · split
      · exact .stop hphase
      · exact .stay
  | stopWait a =>
    rw [hpc] at hphase
    dsimp only
    split
    case h_1 hstopped =>
      obtain ⟨A, hA, hstopped⟩ := Option.map_eq_some_iff.mp hstopped
      exact .goto ⟨hphase.2, A, hA, hstopped⟩
    case h_2 => exact .stay
  | removeDropActor a =>
    rw [hpc] at hphase
    obtain ⟨hactor, A, hA, hstopped⟩ := hphase
    exact .dropActor hactor hA hstopped
  | removeDropRecord =>
    rw [hpc] at hphase
    exact .dropRecord hphase

theorem Dispatched.coherent {event : Option Event} (hd : Dispatched id s event s')
    (hs : Coherent id s) :
  Coherent id s'
  := by
  cases hd with
  | stay => exact hs
  | goto hphase => exact hs.goto hphase
  | return_ heq => exact hs.return_ heq _ _
  | modify _ _ hphase => exact (hs.modify _ _).goto hphase
  | commit c hid _ hactor => exact hs.commit hid hactor c
  | start hactor hrecord => exact hs.start hactor hrecord
  | stop hphase => exact (hs.receive _ _ fun A => receive_pc A .stop).goto hphase
  | dropActor hactor hA hstopped => exact hs.dropActor hactor hA hstopped
  | dropRecord hactor => exact hs.dropRecord hactor

/-- The dispatcher keeps the actors and the records coherent. -/
theorem Coherent.dispatch (hs : Coherent id s) (ans : Answers) :
  Coherent id (s.dispatch h nodeName id ans).2
  := (hs.dispatched ans).coherent hs

theorem step_coherent (hs : Coherent id s) (action : Action) :
  Coherent id (step h nodeName id s action).2
  := by
  cases action with
  | command c =>
    have hphase := hs.phase
    rw [step]
    split
    case h_1 hpc =>
      rw [hpc] at hphase
      apply hs.goto
      cases c <;> exact hphase
    case h_2 => exact hs
  | dispatch ans => apply hs.dispatch
  | run a ans => apply hs.run
  | send a q =>
    apply hs.receive a
    intro A
    apply receive_pc

/-! ### Steps outside of the actors -/

/-- What a step that is not one of an actor can do: it keeps the actors where they are, the IPAMs of
all records and the mark of the records that are closing; it drops the record of the tenant only if
no actor is registered, and stores only a new one. -/
structure Outside (s : System) (event : Option Event) (s' : System) : Prop where
  length_le : s.shared.heap.length ≤ s'.shared.heap.length
  record_eq : s'.shared.record = s.shared.record
    ∨ s'.shared.record = none ∧ s.shared.actor = none
    ∨ s'.shared.record = some s.shared.heap.length ∧ s.shared.record = none
  ipam_eq : ∀ r < s.shared.heap.length, s'.shared.ipamOf r = s.shared.ipamOf r
  closing : ∀ r, s.shared.stateOf r = some .closing → s'.shared.stateOf r = some .closing
  actors : ∀ (a : ℕ) (A : Actor), s.actors[a]? = some A →
    ∃ A' : Actor, s'.actors[a]? = some A' ∧ A'.pc = A.pc
  quiet : ∀ e ∈ event, e.actor = none ∧ e.touches = none

/-- No record changes. -/
theorem Outside.of_heap {event : Option Event} (hheap : s'.shared.heap = s.shared.heap)
    (hrecord : s'.shared.record = s.shared.record
      ∨ s'.shared.record = none ∧ s.shared.actor = none)
    (hactors : ∀ (a : ℕ) (A : Actor), s.actors[a]? = some A →
      ∃ A' : Actor, s'.actors[a]? = some A' ∧ A'.pc = A.pc)
    (hquiet : ∀ e ∈ event, e.actor = none ∧ e.touches = none) :
  Outside s event s'
  := by
  constructor
  · rw [hheap]
  · exact hrecord.imp_right Or.inl
  · intro r _
    rw [Shared.ipamOf, hheap, Shared.ipamOf]
  · intro r hr
    rw [Shared.stateOf, hheap]
    exact hr
  · exact hactors
  · exact hquiet

/-- Only where the dispatcher is changes, and it may return. -/
theorem Outside.of_shared {event : Option Event} (hshared : s'.shared = s.shared)
    (hactors : s'.actors = s.actors) (hquiet : ∀ e ∈ event, e.actor = none ∧ e.touches = none) :
  Outside s event s'
  := by
  apply Outside.of_heap _ _ _ hquiet
  · rw [hshared]
  · rw [hshared]
    exact Or.inl rfl
  · intro a A hA
    rw [hactors]
    exact ⟨A, hA, rfl⟩

theorem outside_goto (s : System) (pc : DispatcherPc) :
  Outside s (s.goto pc).1 (s.goto pc).2
  := Outside.of_shared rfl rfl (by simp [System.goto])

theorem outside_return (s : System) (c : Command) (result : Except Error Unit) :
  Outside s (s.return_ c result).1 (s.return_ c result).2
  := Outside.of_shared rfl rfl (by simp [System.return_, Event.actor, Event.touches])

theorem outside_refl (s : System) :
  Outside s none s
  := Outside.of_shared rfl rfl (by simp)

/-- A record changes, but not its IPAM, and it is closing if it was. -/
theorem outside_modify (s : System) (r : ℕ) {f : Cell → Cell} (pc : DispatcherPc)
    (hipam : ∀ c, (f c).ipam = c.ipam)
    (hclosing : ∀ c, c.state = .closing → (f c).state = .closing) :
  Outside s none ⟨s.shared.modify r f, s.actors, pc⟩
  := by
  constructor
  · apply le_of_eq
    exact (List.length_modify _ _ _).symm
  · exact Or.inl rfl
  · intro r' _
    apply map_modify s.shared r fun _ => hipam
  · intro r' hr'
    rw [Shared.stateOf, Option.map_eq_some_iff] at hr' ⊢
    obtain ⟨c, hc, hstate⟩ := hr'
    refine ⟨if r = r' then f c else c, ?_, ?_⟩
    · rw [Shared.modify, List.getElem?_modify, hc]
      rfl
    · split
      · exact hclosing c hstate
      · exact hstate
  · intro a A hA
    exact ⟨A, hA, rfl⟩
  · simp

/-- A mailbox changes. -/
theorem outside_receive (s : System) (a : ℕ) (m : Msg) (pc : DispatcherPc) :
  Outside s none ⟨s.shared, s.actors.modify a fun A => A.receive m, pc⟩
  := by
  refine Outside.of_heap rfl (Or.inl rfl) ?_ (by simp)
  intro b B hB
  dsimp only
  rw [List.getElem?_modify, hB]
  refine ⟨_, rfl, ?_⟩
  dsimp only
  split
  · apply receive_pc
  · rfl

/-- A new record is made and stored. -/
theorem outside_commit (s : System) (c : Cell) (hrecord : s.shared.record = none)
    (pc : DispatcherPc) :
  Outside s none ⟨{ s.shared with
    heap := s.shared.heap ++ [c]
    record := some s.shared.heap.length }, s.actors, pc⟩
  := by
  constructor
  · simp
  · exact Or.inr (Or.inr ⟨rfl, hrecord⟩)
  · intro r hr
    simp only [Shared.ipamOf]
    rw [List.getElem?_append_left hr]
  · intro r hr
    simp only [Shared.stateOf] at hr ⊢
    obtain ⟨c, hc, -⟩ := Option.map_eq_some_iff.mp hr
    rw [List.getElem?_append_left (List.getElem?_eq_some_iff.mp hc).1]
    exact hr
  · intro a A hA
    exact ⟨A, hA, rfl⟩
  · simp

theorem Dispatched.outside {event : Option Event} (hd : Dispatched id s event s') :
  Outside s event s'
  := by
  cases hd with
  | stay => apply outside_refl
  | goto => apply outside_goto
  | return_ => apply outside_return
  | modify hipam hclosing => apply outside_modify s _ _ hipam hclosing
  | commit c _ hrecord => apply outside_commit s c hrecord
  | start =>
    refine Outside.of_heap rfl (Or.inl rfl) ?_ (by simp [Event.actor, Event.touches])
    intro a A hA
    refine ⟨A, ?_, rfl⟩
    dsimp only
    rw [List.getElem?_append_left (List.getElem?_eq_some_iff.mp hA).1]
    exact hA
  | stop => apply outside_receive
  | dropActor => exact Outside.of_heap rfl (Or.inl rfl) (fun b B hB => ⟨B, hB, rfl⟩) (by simp)
  | dropRecord hactor =>
    exact Outside.of_heap rfl (Or.inr ⟨rfl, hactor⟩) (fun b B hB => ⟨B, hB, rfl⟩)
      (by simp [Event.actor, Event.touches])

theorem step_run {a : ℕ} {A : Actor} (hA : s.actors[a]? = some A) (ans : Answers) :
  step h nodeName id s (.run a ans) = ((A.next id ans a s.shared).1, { s with
    shared := (A.next id ans a s.shared).2.2
    actors := s.actors.set a (A.next id ans a s.shared).2.1 })
  := by
  simp only [step, hA]

/-- A step is one of an actor, or one outside of the actors. -/
theorem step_cases (hs : Coherent id s) (action : Action) :
  (∃ (a : ℕ) (A : Actor) (ans : Answers), action = .run a ans ∧ s.actors[a]? = some A)
    ∨ Outside s (step h nodeName id s action).1 (step h nodeName id s action).2
  := by
  cases action with
  | command c =>
    right
    rw [step]
    split
    · apply outside_goto
    · apply outside_refl
  | dispatch ans =>
    right
    exact (hs.dispatched ans).outside
  | run a ans =>
    cases hA : s.actors[a]? with
    | none =>
      right
      simp only [step, hA]
      apply outside_refl
    | some A =>
      left
      exact ⟨a, A, ans, rfl, hA⟩
  | send a q =>
    right
    apply outside_receive

end

end Teardown
