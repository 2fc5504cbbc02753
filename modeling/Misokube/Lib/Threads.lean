import Misokube.Lib.Machine

/-!
# Threads over a shared state

Threads take steps in any order, and new ones are started at any time.  Some threads are idle.
If idle threads find the shared state calm, a thread alone with a calm state brings it through
its phases, and a thread leaves the idle ones only when all are idle, then at any time at most one
thread is not idle, and the shared state is in the phase of that thread (`Orderly`).  Threads may
also own numbers that are given out one after the other (`Owned`).
-/

namespace Threads

variable {σ θ κ ι : Type}

/-- A shared state and the threads that use it. -/
structure System (σ θ : Type) where
  shared : σ
  threads : List θ

/-- A call starts a new thread, or a thread takes its next step. -/
inductive Action (κ ι : Type) where
  | call (c : κ)
  | run (i : ℕ) (input : ι)

/-- One action, where `start` is the thread of a call and `next` is what a thread does next. -/
def step (start : κ → θ) (next : ι → σ → θ → θ × σ) (s : System σ θ) :
    Action κ ι → Unit × System σ θ
  | .call c => ((), ⟨s.shared, s.threads ++ [start c]⟩)
  | .run i input =>
    match s.threads[i]? with
    | none => ((), s)
    | some t => ((), ⟨(next input s.shared t).2, s.threads.set i (next input s.shared t).1⟩)

/-- All threads but perhaps one are idle, and the shared state is in the phase of that one. -/
def Orderly (idle : θ → Prop) (calm : σ → Prop) (phase : σ → θ → Prop) (s : System σ θ) : Prop :=
  ∃ i : ℕ, (∀ j t, j ≠ i → s.threads[j]? = some t → idle t)
    ∧ (∀ t, s.threads[i]? = some t → phase s.shared t)
    ∧ (s.threads[i]? = none → calm s.shared)

section

variable {idle : θ → Prop} {calm : σ → Prop} {phase : σ → θ → Prop} {start : κ → θ}
  {next : ι → σ → θ → θ × σ} {s : System σ θ}

/-- If all threads are idle then the shared state is calm. -/
theorem Orderly.calm_of_idle (hphase : ∀ s t, idle t → (phase s t ↔ calm s))
    (h : Orderly idle calm phase s) (hidle : ∀ t ∈ s.threads, idle t) :
  calm s.shared
  := by
  obtain ⟨i, -, hfocus, hnone⟩ := h
  cases hi : s.threads[i]? with
  | none => apply hnone hi
  | some t =>
    apply (hphase s.shared t (hidle t (List.mem_of_getElem? hi))).mp
    apply hfocus t hi

/-- What holds of idle threads, and of a thread in whose phase the shared state is, holds of all. -/
theorem Orderly.forall_threads {P : θ → Prop} (h : Orderly idle calm phase s)
    (hidle : ∀ t ∈ s.threads, idle t → P t) (hphase : ∀ t ∈ s.threads, phase s.shared t → P t) :
  ∀ t ∈ s.threads, P t
  := by
  obtain ⟨i, hothers, hfocus, -⟩ := h
  intro t ht
  obtain ⟨j, hj⟩ := List.getElem?_of_mem ht
  by_cases hij : j = i
  · subst hij
    apply hphase t ht (hfocus t hj)
  · apply hidle t ht (hothers j t hij hj)

/-- The next step of the only thread that may not be idle. -/
theorem orderly_run {i : ℕ} {t : θ} {input : ι} (ht : s.threads[i]? = some t)
    (hkept : phase (next input s.shared t).2 (next input s.shared t).1)
    (hidle : ∀ j t, j ≠ i → s.threads[j]? = some t → idle t) :
  Orderly idle calm phase
    ⟨(next input s.shared t).2, s.threads.set i (next input s.shared t).1⟩
  := by
  have hi : i < s.threads.length := (List.getElem?_eq_some_iff.mp ht).1
  use i
  constructor
  · intro j t' hj ht'
    rw [List.getElem?_set_ne hj.symm] at ht'
    apply hidle j t' hj ht'
  · rw [List.getElem?_set_self hi]
    constructor
    · rintro t' ⟨⟩
      exact hkept
    · simp

theorem getElem?_concat {threads : List θ} {t t' : θ} {j : ℕ}
    (h : (threads ++ [t])[j]? = some t') :
  threads[j]? = some t' ∨ t' = t ∧ threads[j]? = none
  := by
  grind

/-- A new thread is idle, so it can be the one in whose phase the shared state is. -/
theorem orderly_call (hphase : ∀ s t, idle t → (phase s t ↔ calm s)) {t : θ} (ht : idle t)
    (h : Orderly idle calm phase s) :
  Orderly idle calm phase ⟨s.shared, s.threads ++ [t]⟩
  := by
  obtain ⟨i, hidle, hfocus, hnone⟩ := h
  use i
  refine ⟨?_, ?_, ?_⟩
  · intro j t' hj ht'
    rcases getElem?_concat ht' with hold | ⟨rfl, -⟩
    · apply hidle j t' hj hold
    · exact ht
  · intro t' ht'
    rcases getElem?_concat ht' with hold | ⟨rfl, hi⟩
    · apply hfocus t' hold
    · apply (hphase s.shared t' ht).mpr (hnone hi)
  · intro hi
    apply hnone
    rw [List.getElem?_eq_none_iff] at hi ⊢
    apply Nat.le_trans _ hi
    simp

/-- An action keeps the threads orderly if a thread that leaves the idle ones does so when all
are idle. -/
theorem step_orderly (hphase : ∀ s t, idle t → (phase s t ↔ calm s)) (hstart : ∀ c, idle (start c))
    (h : Orderly idle calm phase s) (a : Action κ ι)
    (hkeeps : ∀ i input t, a = .run i input → s.threads[i]? = some t → phase s.shared t →
      phase (next input s.shared t).2 (next input s.shared t).1)
    (halone : ∀ i input t, a = .run i input → s.threads[i]? = some t → idle t →
      (idle (next input s.shared t).1 ∧ (next input s.shared t).2 = s.shared)
        ∨ ∀ t' ∈ s.threads, idle t') :
  Orderly idle calm phase (step start next s a).2
  := by
  cases a with
  | call c => apply orderly_call hphase (hstart c) h
  | run j input =>
    rw [step]
    split
    · exact h
    · next t ht =>
      have hcalm := h.calm_of_idle hphase
      obtain ⟨i, hidle, hfocus, hnone⟩ := h
      by_cases hj : j = i
      · subst hj
        apply orderly_run ht (hkeeps j input t rfl ht (hfocus t ht)) hidle
      · have htidle := hidle j t hj ht
        rcases halone j input t rfl ht htidle with ⟨hidle', hsame⟩ | hall
        · -- the thread stays idle, and the phase is still that of the other one
          use i
          rw [hsame, List.getElem?_set_ne hj]
          refine ⟨?_, hfocus, hnone⟩
          intro j' t' hj' ht'
          by_cases hjj' : j = j'
          · subst hjj'
            rw [List.getElem?_set_self (List.getElem?_eq_some_iff.mp ht).1] at ht'
            cases ht'
            exact hidle'
          · rw [List.getElem?_set_ne hjj'] at ht'
            apply hidle j' t' hj' ht'
        · have htphase := (hphase s.shared t htidle).mpr (hcalm hall)
          apply orderly_run ht (hkeeps j input t rfl ht htphase)
          intro j' t' _ ht'
          apply hall t' (List.mem_of_getElem? ht')

end

/-- What holds of the new state of a thread, and still of the others, holds of all. -/
theorem forall_mem_set {P P' : θ → Prop} {threads : List θ} {i : ℕ} {t : θ}
    (h : ∀ u ∈ threads, P u) (hnew : P' t)
    (hothers : ∀ j u, j ≠ i → threads[j]? = some u → P u → P' u) :
  ∀ u ∈ threads.set i t, P' u
  := by
  intro u hu
  obtain ⟨j, hj⟩ := List.getElem?_of_mem hu
  by_cases hij : i = j
  · subst hij
    have hi := (List.getElem?_eq_some_iff.mp hj).1
    rw [List.length_set] at hi
    rw [List.getElem?_set_self hi] at hj
    cases hj
    exact hnew
  · rw [List.getElem?_set_ne hij] at hj
    apply hothers j u (Ne.symm hij) hj (h u (List.mem_of_getElem? hj))

/-- If no two threads have a property then at most one has it. -/
theorem countP_le_one {p : θ → Bool} {threads : List θ}
    (h : ∀ (i j : ℕ) (t t' : θ), threads[i]? = some t → threads[j]? = some t' → p t = true →
      p t' = true → i = j) :
  threads.countP p ≤ 1
  := by
  induction threads with
  | nil => simp
  | cons t threads ih =>
    rw [List.countP_cons]
    split_ifs with ht
    · have hzero : threads.countP p = 0 := by
        apply List.countP_eq_zero.mpr
        intro t' ht' hp
        obtain ⟨j, hj⟩ := List.getElem?_of_mem ht'
        have hij := h 0 (j + 1) t t' rfl hj ht hp
        omega
      omega
    · apply ih
      intro i j u u' hu hu' hp hp'
      have hij := h (i + 1) (j + 1) u u' hu hu' hp hp'
      omega

/-! ### Owners -/

/-- Each of the numbers below `n` is owned by exactly one thread, and no other number is. -/
structure Owned (owns : θ → Option ℕ) (n : ℕ) (threads : List θ) : Prop where
  lt : ∀ t ∈ threads, ∀ k ∈ owns t, k < n
  unique : ∀ (i j : ℕ) (t t' : θ) (k : ℕ), threads[i]? = some t → threads[j]? = some t' →
    owns t = some k → owns t' = some k → i = j
  owner : ∀ k < n, ∃ t ∈ threads, owns t = some k

section

variable {owns : θ → Option ℕ} {n n' : ℕ} {threads : List θ} {i : ℕ} {t t' : θ}

theorem owned_nil :
  Owned owns 0 []
  := by
  constructor <;> simp

/-- A thread keeps what it owns, and takes numbers that nobody has owned. -/
theorem Owned.set (h : Owned owns n threads) (ht : threads[i]? = some t) (hn : n ≤ n')
    (hkeep : ∀ k ∈ owns t, k ∈ owns t')
    (hnew : ∀ k ∈ owns t', k ∈ owns t ∨ n ≤ k ∧ k < n')
    (hall : ∀ k < n', n ≤ k → k ∈ owns t') :
  Owned owns n' (threads.set i t')
  := by
  have hi : i < threads.length := (List.getElem?_eq_some_iff.mp ht).1
  -- what the thread owns after the step, no other thread has owned
  have hfresh : ∀ (j : ℕ) (u : θ) (k : ℕ), threads[j]? = some u → owns u = some k →
      owns t' = some k → j = i := by
    intro j u k hu huowns ht'
    obtain hold | ⟨hle, -⟩ := hnew k ht'
    · apply h.unique j i u t k hu ht huowns hold
    · have hlt := h.lt u (List.mem_of_getElem? hu) k huowns
      omega
  constructor
  · refine forall_mem_set h.lt ?_ ?_
    · intro k hk
      obtain hold | ⟨-, hlt⟩ := hnew k hk
      · apply Nat.lt_of_lt_of_le (h.lt t (List.mem_of_getElem? ht) k hold) hn
      · exact hlt
    · intro j u _ _ hu k hk
      apply Nat.lt_of_lt_of_le (hu k hk) hn
  · intro j j' u u' k hu hu' huowns huowns'
    rw [List.getElem?_set] at hu hu'
    split_ifs at hu hu' with hij hij' hij'
    · omega
    · cases hu
      have hj' := hfresh j' u' k hu' huowns' huowns
      omega
    · cases hu'
      have hj := hfresh j u k hu huowns huowns'
      omega
    · apply h.unique j j' u u' k hu hu' huowns huowns'
  · intro k hk
    have hmem : t' ∈ threads.set i t' := by
      apply List.mem_of_getElem? (i := i)
      rw [List.getElem?_set_self hi]
    rcases Nat.lt_or_ge k n with hlt | hge
    · obtain ⟨u, hu, huowns⟩ := h.owner k hlt
      obtain ⟨j, hj⟩ := List.getElem?_of_mem hu
      by_cases hij : i = j
      · subst hij
        rw [ht] at hj
        cases hj
        exact ⟨t', hmem, hkeep k huowns⟩
      · refine ⟨u, ?_, huowns⟩
        apply List.mem_of_getElem? (i := j)
        rw [List.getElem?_set_ne hij, hj]
    · exact ⟨t', hmem, hall k hk hge⟩

theorem Owned.set_same (h : Owned owns n threads) (ht : threads[i]? = some t)
    (howns : owns t' = owns t) :
  Owned owns n (threads.set i t')
  := by
  apply h.set ht (Nat.le_refl n)
  · rw [howns]
    exact fun _ => id
  · rw [howns]
    exact fun _ => Or.inl
  · intro k hlt hle
    omega

theorem Owned.set_next (h : Owned owns n threads) (ht : threads[i]? = some t)
    (hnone : owns t = none) (hnew : owns t' = some n) :
  Owned owns (n + 1) (threads.set i t')
  := by
  apply h.set ht (Nat.le_succ n)
  · simp [hnone]
  · simp [hnew]
  · intro k hlt hle
    rw [hnew, Option.mem_some_iff]
    omega

/-- A new thread owns nothing. -/
theorem Owned.concat (h : Owned owns n threads) (hnone : owns t = none) :
  Owned owns n (threads ++ [t])
  := by
  constructor
  · intro u hu
    obtain hu | hu := List.mem_append.mp hu
    · apply h.lt u hu
    · rw [List.mem_singleton] at hu
      simp [hu, hnone]
  · intro i j u u' k hu hu' huowns huowns'
    obtain hu | ⟨rfl, -⟩ := getElem?_concat hu
    · obtain hu' | ⟨rfl, -⟩ := getElem?_concat hu'
      · apply h.unique i j u u' k hu hu' huowns huowns'
      · rw [hnone] at huowns'
        cases huowns'
    · rw [hnone] at huowns
      cases huowns
  · intro k hlt
    obtain ⟨u, hu, huowns⟩ := h.owner k hlt
    exact ⟨u, List.mem_append_left _ hu, huowns⟩

end

end Threads
