import Misokube.Lib.Command

/-!
# Calls into which faults are injected

A system is used through calls.  A call answers with a value or with an error; with an error it
has changed nothing.  Beside the errors of the system itself any call may meet a fault.  A request
makes several calls and may leave something behind when it fails.  The faults are given in the order
of the calls, and after the last of them none is met (`Calm`).
-/

/-- A system, and for each call to come the fault it meets, if any. -/
structure Faulty (ε σ : Type) where
  system : σ
  faults : List (Option ε)

namespace Faulty

variable {ε ε' σ α : Type}

/-- No call to come meets a fault. -/
def Calm (s : Faulty ε σ) : Prop :=
  s.faults = []

/-- What a call answers, and the system after it. -/
def answer (op : σ → Except ε (α × σ)) (s : Faulty ε σ) : Except ε α × Faulty ε σ :=
  match s.faults.head?.join with
  | some e => (.error e, ⟨s.system, s.faults.tail⟩)
  | none =>
    match op s.system with
    | .error e => (.error e, ⟨s.system, s.faults.tail⟩)
    | .ok (a, system) => (.ok a, ⟨system, s.faults.tail⟩)

/-- A call.  Its error is part of the answer. -/
def call (op : σ → Except ε (α × σ)) : EStateM ε' (Faulty ε σ) (Except ε α) := fun s =>
  .ok (answer op s).1 (answer op s).2

/-- A request that makes several calls.  It is told of the fault that one of them meets, and what it
has done when it fails may stay. -/
def request (op : Option ε → σ → Except ε α × σ) : EStateM ε' (Faulty ε σ) (Except ε α) := fun s =>
  .ok (op s.faults.head?.join s.system).1
    ⟨(op s.faults.head?.join s.system).2, s.faults.tail⟩

/-- How a call into which a fault may be injected ends. -/
inductive Answers (op : σ → Except ε (α × σ)) (s : Faulty ε σ) :
    Except ε α → Faulty ε σ → Prop where
  | done {a : α} {system : σ} (h : op s.system = .ok (a, system)) :
      Answers op s (.ok a) ⟨system, s.faults.tail⟩
  | refused {e : ε} (h : op s.system = .error e) : Answers op s (.error e) ⟨s.system, s.faults.tail⟩
  | fault {e : ε} (h : ¬ s.Calm) : Answers op s (.error e) ⟨s.system, s.faults.tail⟩

/-- The answer of a call is that of the system, or a fault. -/
theorem answer_answers (op : σ → Except ε (α × σ)) (s : Faulty ε σ) :
  Answers op s (answer op s).1 (answer op s).2
  := by
  rw [answer]
  split
  case h_1 e he =>
    apply Answers.fault
    rintro (hcalm : s.faults = [])
    simp [hcalm] at he
  case h_2 =>
    split
    case h_1 e hop => exact Answers.refused hop
    case h_2 a system hop => exact Answers.done hop

/-- A call without fault. -/
theorem answer_calm (op : σ → Except ε (α × σ)) (system : σ) :
  answer op ⟨system, []⟩ = match op system with
    | .error e => (.error e, ⟨system, []⟩)
    | .ok (a, system') => (.ok a, ⟨system', []⟩)
  := rfl

/-! ### Faults that are left -/

/-- The faults of the second state are among the last ones of the first. -/
def Spends (s s' : Faulty ε σ) : Prop :=
  s'.faults <:+ s.faults

instance : IsTrans (Faulty ε σ) Spends where
  trans _ _ _ h h' := List.IsSuffix.trans h' h

theorem Spends.refl (s : Faulty ε σ) :
  Spends s s
  := List.suffix_refl _

/-- Without faults to come there are none later. -/
theorem Spends.calm {s s' : Faulty ε σ} (h : Spends s s') (hs : s.Calm) :
  s'.Calm
  := List.suffix_nil.mp (hs ▸ h)

/-- A call takes at most the first of the faults to come. -/
theorem along_call_spends (op : σ → Except ε (α × σ)) :
  Command.Along Spends (call op : EStateM ε' (Faulty ε σ) (Except ε α))
  := by
  constructor
  intro s
  have hanswers := answer_answers op s
  change Spends s (answer op s).2
  generalize answer op s = r at hanswers ⊢
  obtain ⟨r, s'⟩ := r
  cases hanswers with
  | done _ => exact List.tail_suffix _
  | refused _ => exact List.tail_suffix _
  | fault _ => exact List.tail_suffix _

/-- So does a request that is told of its fault. -/
theorem along_request_spends (op : Option ε → σ → Except ε α × σ) :
  Command.Along Spends (request op : EStateM ε' (Faulty ε σ) (Except ε α))
  := ⟨fun _ => List.tail_suffix _⟩

end Faulty
