import Mathlib.Data.List.Basic

/-!
# Machines and their runs

A machine answers an operation in a state with a reply and a next state.  `after` is the
state a list of operations ends in, `replies` the list of the replies.  An invariant that
every operation keeps holds after every run (`after_of_forall`), an invariant that the
operations meeting a condition keep holds after every run meeting it (`after_of_meets`),
and related states of two machines stay related and give equal replies
(`after_of_simulation`, `replies_eq_of_simulation`).
-/

namespace Machine

variable {σ τ ι ω : Type*}

/-- The state the operations end in. -/
def after (step : σ → ι → ω × σ) : σ → List ι → σ
  | s, [] => s
  | s, i :: is => after step (step s i).2 is

/-- The replies to the operations, in order. -/
def replies (step : σ → ι → ω × σ) : σ → List ι → List ω
  | _, [] => []
  | s, i :: is => (step s i).1 :: replies step (step s i).2 is

/-- Every operation of the run meets the condition in the state it starts from. -/
def Meets (step : σ → ι → ω × σ) (cond : σ → ι → Prop) : σ → List ι → Prop
  | _, [] => True
  | s, i :: is => cond s i ∧ Meets step cond (step s i).2 is

variable {step : σ → ι → ω × σ} {cond : σ → ι → Prop}

instance decidableMeets [∀ s i, Decidable (cond s i)] (s : σ) :
  ∀ is, Decidable (Meets step cond s is)
  | [] => inferInstanceAs (Decidable True)
  | i :: is =>
    haveI := decidableMeets (step s i).2 is
    inferInstanceAs (Decidable (cond s i ∧ Meets step cond (step s i).2 is))

@[simp]
theorem after_nil (s : σ) :
  after step s [] = s
  := rfl

@[simp]
theorem after_cons (s : σ) (i : ι) (is : List ι) :
  after step s (i :: is) = after step (step s i).2 is
  := rfl

/-- A run of two parts ends where the second part ends from the end of the first. -/
theorem after_append (s : σ) (is js : List ι) :
  after step s (is ++ js) = after step (after step s is) js
  := by
  induction is generalizing s with
  | nil => rfl
  | cons i is ih => apply ih

/-- An invariant kept by every operation holds after every run. -/
theorem after_of_forall {P : σ → Prop} (hstep : ∀ s i, P s → P (step s i).2)
    {s : σ} (hs : P s) (is : List ι) :
  P (after step s is)
  := by
  induction is generalizing s with
  | nil => exact hs
  | cons i is ih =>
    apply ih
    apply hstep s i hs

/-- A run of two parts meets a condition exactly when both parts do. -/
theorem meets_append (s : σ) (is js : List ι) :
  Meets step cond s (is ++ js)
    ↔ Meets step cond s is ∧ Meets step cond (after step s is) js
  := by
  induction is generalizing s with
  | nil => simp [Meets]
  | cons i is ih => simp [Meets, ih, and_assoc]

/-- A run whose operations meet a condition in every state meets it. -/
theorem meets_of_forall (s : σ) {is : List ι} (h : ∀ i ∈ is, ∀ s, cond s i) :
  Meets step cond s is
  := by
  induction is generalizing s with
  | nil => trivial
  | cons i is ih =>
    constructor
    · apply h i List.mem_cons_self
    · apply ih
      intro j hj
      apply h j (List.mem_cons_of_mem i hj)

/-- Every run meets no condition. -/
theorem meets_true (s : σ) (is : List ι) :
  Meets step (fun _ _ => True) s is
  := meets_of_forall s fun _ _ _ => trivial

/-- A run that meets a condition, of operations with a property of their own. -/
theorem Meets.and_forall {q : ι → Prop} {s : σ} {is : List ι} (h : Meets step cond s is)
    (h' : ∀ i ∈ is, q i) :
  Meets step (fun s i => q i ∧ cond s i) s is
  := by
  induction is generalizing s with
  | nil => trivial
  | cons i is ih =>
    obtain ⟨hi, hrest⟩ := h
    constructor
    · exact ⟨h' i List.mem_cons_self, hi⟩
    · apply ih hrest
      intro j hj
      apply h' j (List.mem_cons_of_mem i hj)

/-- An invariant kept by the operations that meet a condition holds after every run that
meets it. -/
theorem after_of_meets {P : σ → Prop} (hstep : ∀ s i, P s → cond s i → P (step s i).2)
    {s : σ} (hs : P s) {is : List ι} (his : Meets step cond s is) :
  P (after step s is)
  := by
  induction is generalizing s with
  | nil => exact hs
  | cons i is ih =>
    obtain ⟨hi, hrest⟩ := his
    apply ih (hstep s i hs hi) hrest

/-- An invariant kept by the operations with a property holds after every run of such operations. -/
theorem after_of_forall_mem {P : σ → Prop} {q : ι → Prop}
    (hstep : ∀ s i, P s → q i → P (step s i).2) {s : σ} (hs : P s) {is : List ι}
    (his : ∀ i ∈ is, q i) :
  P (after step s is)
  := after_of_meets hstep hs (meets_of_forall s fun i hi _ => his i hi)

/-- An invariant kept by the operations of a run, and from which their replies have a property: all
replies have it. -/
theorem replies_of_forall_mem {P : σ → Prop} {q : ι → Prop} {Q : ω → Prop}
    (hstep : ∀ s i, P s → q i → Q (step s i).1 ∧ P (step s i).2) {s : σ} (hs : P s) {is : List ι}
    (his : ∀ i ∈ is, q i) :
  ∀ r ∈ replies step s is, Q r
  := by
  induction is generalizing s with
  | nil => simp [replies]
  | cons i is ih =>
    obtain ⟨hreply, hnext⟩ := hstep s i hs (his i List.mem_cons_self)
    intro r hr
    obtain rfl | hr := List.mem_cons.mp hr
    · exact hreply
    · apply ih hnext (fun j hj => his j (List.mem_cons_of_mem i hj)) r hr

/-- If related states stay related by every operation, then they stay related by every run. -/
theorem after_of_simulation {step' : τ → ι → ω × τ} {R : σ → τ → Prop}
    (hstep : ∀ s t i, R s t → R (step s i).2 (step' t i).2)
    {s : σ} {t : τ} (h : R s t) (is : List ι) :
  R (after step s is) (after step' t is)
  := by
  induction is generalizing s t with
  | nil => exact h
  | cons i is ih =>
    apply ih
    apply hstep s t i h

/-- If related states answer every operation alike and stay related, then they answer
every run alike. -/
theorem replies_eq_of_simulation
    {step' : τ → ι → ω × τ} {R : σ → τ → Prop}
    (hstep : ∀ s t i, R s t → (step s i).1 = (step' t i).1 ∧ R (step s i).2 (step' t i).2)
    {s : σ} {t : τ} (h : R s t) (is : List ι) :
  replies step s is = replies step' t is
  := by
  induction is generalizing s t with
  | nil => rfl
  | cons i is ih =>
    obtain ⟨hreply, hnext⟩ := hstep s t i h
    rw [replies, replies, hreply, ih hnext]

/-- If every operation with a property is matched by one of another machine that gives a related
reply and keeps the states related, then every run of such operations is matched by a run. -/
theorem exists_run_of_simulation {κ ω' : Type*} {step' : τ → κ → ω' × τ} {R : σ → τ → Prop}
    {q : ι → Prop} {M : ι → κ → Prop} {A : ω → ω' → Prop}
    (hstep : ∀ s t i, R s t → q i →
      ∃ j, M i j ∧ A (step s i).1 (step' t j).1 ∧ R (step s i).2 (step' t j).2)
    {s : σ} {t : τ} (h : R s t) {is : List ι} (his : ∀ i ∈ is, q i) :
  ∃ js, List.Forall₂ M is js ∧ List.Forall₂ A (replies step s is) (replies step' t js) ∧
    R (after step s is) (after step' t js)
  := by
  induction is generalizing s t with
  | nil => exact ⟨[], .nil, .nil, h⟩
  | cons i is ih =>
    obtain ⟨j, hmatch, hreply, hnext⟩ := hstep s t i h (his i List.mem_cons_self)
    obtain ⟨js, hmatches, hreplies, hafter⟩ :=
      ih hnext fun j hj => his j (List.mem_cons_of_mem i hj)
    exact ⟨j :: js, .cons hmatch hmatches, .cons hreply hreplies, hafter⟩

end Machine
