import Mathlib

/-!
# Commands that may fail

A command changes a state and returns or fails; what it did before it failed stays.  A relation
holds along a command (`Along`) if it holds between the states before and after, whether the
command returns or fails.  Relations that are transitive hold along sequences of commands.
-/

namespace Command

open Std.Do

set_option mvcgen.warning false

variable {ε σ α β : Type} {R : σ → σ → Prop}

/-- The state a command ends in. -/
def final (x : EStateM ε σ α) (s : σ) : σ :=
  match x.run s with
  | .ok _ s' => s'
  | .error _ s' => s'

theorem final_of_ok {x : EStateM ε σ α} {s s' : σ} {a : α} (hrun : x.run s = .ok a s') :
  final x s = s'
  := by
  rw [final, hrun]

/-- The relation holds between the states before and after the command. -/
structure Along (R : σ → σ → Prop) (x : EStateM ε σ α) : Prop where
  rel : ∀ s, R s (final x s)

/-- A command that fails on a condition, and otherwise changes the state. -/
theorem run_guarded (c : Prop) [Decidable c] (e : ε) (f : σ → σ) (s : σ) :
  (if c then throw e else modify f : EStateM ε σ PUnit).run s
    = if c then .error e s else .ok () (f s)
  := by
  split <;> rfl

/-- A command satisfies its specification in the state it ends in. -/
theorem run_of_spec {x : EStateM ε σ α} {Q : α → σ → Prop} {E : ε → σ → Prop} {s : σ}
    (h : ⦃fun s₀ => ⌜s₀ = s⌝⦄ x ⦃post⟨fun a s' => ⌜Q a s'⌝, fun e s' => ⌜E e s'⌝⟩⦄) :
  match x.run s with
  | .ok a s' => Q a s'
  | .error e s' => E e s'
  := by
  have hs := h s rfl
  cases hrun : x.run s with
  | ok a s' =>
    simp only [WP.wp, PredTrans.apply, hrun] at hs
    exact hs
  | error e s' =>
    simp only [WP.wp, PredTrans.apply, hrun] at hs
    exact hs

theorem Along.of_spec {x : EStateM ε σ α} {Q : σ → α → σ → Prop} {E : σ → ε → σ → Prop}
    (h : ∀ s₀, ⦃fun s => ⌜s = s₀⌝⦄ x ⦃post⟨fun a s => ⌜Q s₀ a s⌝, fun e s => ⌜E s₀ e s⌝⟩⦄)
    (hQ : ∀ s a s', Q s a s' → R s s') (hE : ∀ s e s', E s e s' → R s s') :
  Along R x
  := by
  constructor
  intro s
  have hs := run_of_spec (h s)
  rw [final]
  cases hrun : x.run s with
  | ok a s' =>
    rw [hrun] at hs
    apply hQ s a s' hs
  | error e s' =>
    rw [hrun] at hs
    apply hE s e s' hs

theorem Along.throw (hrefl : ∀ s, R s s) (e : ε) :
  Along R (throw e : EStateM ε σ α)
  := ⟨hrefl⟩

theorem Along.modify {f : σ → σ} (h : ∀ s, R s (f s)) :
  Along R (modify f : EStateM ε σ PUnit)
  := ⟨h⟩

/-- The relation holds along a sequence from a state if it holds along its first command, and along
the second one from where the first returns. -/
theorem rel_bind [IsTrans σ R] {x : EStateM ε σ α} {f : α → EStateM ε σ β} {s : σ}
    (hx : R s (final x s)) (hf : ∀ a s', x.run s = .ok a s' → R s' (final (f a) s')) :
  R s (final (x >>= f) s)
  := by
  rw [final] at hx ⊢
  rw [EStateM.run_bind]
  cases hrun : x.run s with
  | ok a s' =>
    rw [hrun] at hx
    apply trans_of R hx (hf a s' hrun)
  | error e s' =>
    rw [hrun] at hx
    exact hx

theorem Along.bind [IsTrans σ R] {x : EStateM ε σ α} {f : α → EStateM ε σ β} (hx : Along R x)
    (hf : ∀ a, Along R (f a)) :
  Along R (x >>= f)
  := ⟨fun s => rel_bind (hx.rel s) fun a s' _ => (hf a).rel s'⟩

theorem Along.pure (hrefl : ∀ s, R s s) (a : α) :
  Along R (pure a : EStateM ε σ α)
  := ⟨hrefl⟩

/-- A command that fails on a condition before it begins. -/
theorem Along.guard [IsTrans σ R] (hrefl : ∀ s, R s s) {c : Prop} [Decidable c] (e : ε)
    {x : PUnit → EStateM ε σ α} (hx : Along R (x ⟨⟩)) :
  Along R (if c then MonadExcept.throw e >>= x else x ⟨⟩)
  := by
  split
  · apply Along.throw hrefl
  · exact hx

/-- A handler starts from the state the failing command left. -/
theorem rel_tryCatch [IsTrans σ R] {x : EStateM ε σ α} {f : ε → EStateM ε σ α} {s : σ}
    (hx : R s (final x s)) (hf : ∀ e s', x.run s = .error e s' → R s' (final (f e) s')) :
  R s (final (tryCatch x f) s)
  := by
  rw [final] at hx ⊢
  rw [EStateM.run_tryCatch]
  cases hrun : x.run s with
  | ok a s' =>
    rw [hrun] at hx
    exact hx
  | error e s' =>
    rw [hrun] at hx
    apply trans_of R hx (hf e s' hrun)

theorem Along.tryCatch [IsTrans σ R] {x : EStateM ε σ α} {f : ε → EStateM ε σ α} (hx : Along R x)
    (hf : ∀ e, Along R (f e)) :
  Along R (tryCatch x f)
  := ⟨fun s => rel_tryCatch (hx.rel s) fun e s' _ => (hf e).rel s'⟩

/-- A loop over a list. -/
theorem Along.forIn [IsTrans σ R] (hrefl : ∀ s, R s s) {f : α → β → EStateM ε σ (ForInStep β)}
    (hf : ∀ a b, Along R (f a b)) (as : List α) (b : β) :
  Along R (forIn as b f)
  := by
  induction as generalizing b with
  | nil => apply Along.pure hrefl
  | cons a as ih =>
    rw [List.forIn_cons]
    apply Along.bind (hf a b)
    intro step
    cases step with
    | done b' => apply Along.pure hrefl
    | yield b' => apply ih

/-- What holds along a command holds between the states of a run that returns. -/
theorem Along.of_run_ok {x : EStateM ε σ α} (hx : Along R x) {s s' : σ} {a : α}
    (hrun : x.run s = .ok a s') :
  R s s'
  := by
  rw [← final_of_ok hrun]
  exact hx.rel s

/-- A relation that follows from one that holds along a command. -/
theorem Along.mono {S : σ → σ → Prop} {x : EStateM ε σ α} (hx : Along R x)
    (h : ∀ s s', R s s' → S s s') :
  Along S x
  := ⟨fun s => h s _ (hx.rel s)⟩

/-! ### Runs -/

section

variable {s s' : σ} {a : α} {b : β} {e : ε}

theorem bind_ok {x : EStateM ε σ α} {f : α → EStateM ε σ β} :
  (x >>= f).run s = .ok b s' ↔ ∃ a s₁, x.run s = .ok a s₁ ∧ (f a).run s₁ = .ok b s'
  := by
  rw [EStateM.run_bind]
  cases x.run s <;> simp

theorem bind_error {x : EStateM ε σ α} {f : α → EStateM ε σ β} :
  (x >>= f).run s = .error e s' ↔
    x.run s = .error e s' ∨ ∃ a s₁, x.run s = .ok a s₁ ∧ (f a).run s₁ = .error e s'
  := by
  rw [EStateM.run_bind]
  cases x.run s <;> simp

theorem pure_ok {a' : α} :
  (pure a' : EStateM ε σ α).run s = .ok a s' ↔ a' = a ∧ s = s'
  := by
  rw [EStateM.run_pure, EStateM.Result.ok.injEq]

theorem pure_error {a' : α} :
  ¬ (pure a' : EStateM ε σ α).run s = .error e s'
  := nofun

theorem throw_ok {e' : ε} :
  ¬ (throw e' : EStateM ε σ α).run s = .ok a s'
  := nofun

theorem throw_error {e' : ε} :
  (throw e' : EStateM ε σ α).run s = .error e s' ↔ e' = e ∧ s = s'
  := by
  rw [← EStateM.Result.error.injEq]
  rfl

/-- A run goes on from where its first command returned. -/
theorem run_bind_of_ok {x : EStateM ε σ α} (h : x.run s = .ok a s') (f : α → EStateM ε σ β) :
  (x >>= f).run s = (f a).run s'
  := by
  rw [EStateM.run_bind, h]

theorem run_tryCatch_of_ok {x : EStateM ε σ α} (h : x.run s = .ok a s')
    (f : ε → EStateM ε σ α) :
  (tryCatch x f).run s = .ok a s'
  := by
  rw [EStateM.run_tryCatch, h]

/-- The handler goes on from the state the command failed in. -/
theorem run_tryCatch_of_error {x : EStateM ε σ α} (h : x.run s = .error e s')
    (f : ε → EStateM ε σ α) :
  (tryCatch x f).run s = (f e).run s'
  := by
  rw [EStateM.run_tryCatch, h]
  rfl

end

/-! ### Errors -/

/-- The errors a command may fail with have the property. -/
structure Raises (P : ε → Prop) (x : EStateM ε σ α) : Prop where
  error : ∀ s e s', x.run s = .error e s' → P e

section

variable {P : ε → Prop}

theorem Raises.pure (a : α) :
  Raises P (pure a : EStateM ε σ α)
  := ⟨nofun⟩

theorem Raises.throw {e : ε} (h : P e) :
  Raises P (throw e : EStateM ε σ α)
  := by
  constructor
  intro s e' s' herror
  obtain ⟨rfl, -⟩ := throw_error.mp herror
  exact h

theorem Raises.bind {x : EStateM ε σ α} {f : α → EStateM ε σ β} (hx : Raises P x)
    (hf : ∀ a, Raises P (f a)) :
  Raises P (x >>= f)
  := by
  constructor
  intro s e s' herror
  obtain hrun | ⟨a, s₁, -, hrun⟩ := bind_error.mp herror
  · apply hx.error s e s' hrun
  · apply (hf a).error s₁ e s' hrun

/-- Only the errors of the handler are left. -/
theorem Raises.tryCatch {Q : ε → Prop} {x : EStateM ε σ α} {f : ε → EStateM ε σ α}
    (hx : Raises Q x) (hf : ∀ e, Q e → Raises P (f e)) :
  Raises P (tryCatch x f)
  := by
  constructor
  intro s e s' herror
  cases hrun : x.run s with
  | ok a s₁ =>
    rw [run_tryCatch_of_ok hrun] at herror
    cases herror
  | error e₁ s₁ =>
    rw [run_tryCatch_of_error hrun] at herror
    apply (hf e₁ (hx.error s e₁ s₁ hrun)).error s₁ e s' herror

theorem Raises.forM {f : α → EStateM ε σ PUnit} (hf : ∀ a, Raises P (f a)) (as : List α) :
  Raises P (as.forM f)
  := by
  induction as with
  | nil => apply Raises.pure
  | cons a as ih =>
    apply Raises.bind (hf a)
    intro _
    exact ih

end

end Command
