import Misokube.Teardown.Coherence

/-!
# Teardown fences pod operations

An actor refuses the requests for pods it takes once `RemoveTenant` has marked the tenant as
closing, and after `RemoveTenant` has returned nothing uses the IPAM of a record made before, and
the tenant has neither a record nor an actor until the next `EnsureTenant` (`after_fenced`).
-/

namespace Teardown

open Net Nmanager
open Device (Hashes)

/-- The events of the actor `a` in a run. -/
def traceOf (h : Hashes) (nodeName id : String) (a : ℕ) (s : System) (actions : List Action) :
    List Event :=
  (trace h nodeName id s actions).filter fun e => e.actor = some a

/-- Whether the step is one of the actor `a`. -/
def Action.isOf (a : ℕ) : Action → Bool
  | .run b _ => b = a
  | _ => false

section

variable {h : Hashes} {nodeName id : String} {s : System} {a : ℕ} {args : PodAttachArgs}

theorem eq_run_of_isOf {action : Action} (haction : action.isOf a = true) :
  ∃ ans, action = .run a ans
  := by
  cases action with
  | run b ans =>
    obtain rfl : b = a := by simpa [Action.isOf] using haction
    exact ⟨ans, rfl⟩
  | _ => simp [Action.isOf] at haction

/-! ### Closing -/

theorem closing_iff (s : Shared) :
  s.Closing ↔ ∃ r, s.record = some r ∧ s.stateOf r = some .closing
  := by
  simp only [Shared.Closing, Shared.current, Shared.stateOf, Option.mem_def,
    Option.bind_eq_some_iff, Option.map_eq_some_iff]
  grind

/-- The tenant stays closing as long as an actor runs. -/
theorem step_closing (hs : Coherent id s) {A : Actor} (hA : s.actors[a]? = some A)
    (hpc : A.pc ≠ .stopped) (hclosing : s.shared.Closing) (action : Action) :
  (step h nodeName id s action).2.shared.Closing
  := by
  rw [closing_iff] at hclosing ⊢
  obtain ⟨r, hr, hstate⟩ := hclosing
  have hactor := (hs.running a A hA hpc).1
  use r
  obtain ⟨b, B, ans, rfl, hB⟩ | houtside := step_cases (h := h) hs action
  · rw [step_run hB]
    dsimp only
    rw [hs.record_next hB, (B.next_moves id ans b s.shared).state_eq]
    exact ⟨hr, hstate⟩
  · refine ⟨?_, houtside.closing r hstate⟩
    obtain heq | ⟨-, hnone⟩ | ⟨-, hnone⟩ := houtside.record_eq
    · rw [heq, hr]
    · simp [hnone] at hactor
    · simp [hr] at hnone

/-- An actor stays where it is in the steps of others. -/
theorem step_other (hs : Coherent id s) {A : Actor} (hA : s.actors[a]? = some A) {action : Action}
    (haction : action.isOf a = false) :
  (∃ A' : Actor, (step h nodeName id s action).2.actors[a]? = some A' ∧ A'.pc = A.pc)
    ∧ ∀ e ∈ (step h nodeName id s action).1, e.actor ≠ some a
  := by
  obtain ⟨b, B, ans, rfl, hB⟩ | houtside := step_cases hs action
  · have hne : b ≠ a := by simpa [Action.isOf] using haction
    rw [step_run hB]
    constructor
    · use A
      simp [List.getElem?_set_ne hne, hA]
    · intro e he
      rw [(B.next_moves id ans b s.shared).own e he]
      simpa using hne
  · constructor
    · apply houtside.actors a A hA
    · intro e he
      simp [(houtside.quiet e he).1]

/-! ### Refusing -/

/-- The answer to a request for a pod that is refused. -/
def refusal (a : ℕ) (args : PodAttachArgs) : Event :=
  .answered a (.request (.ensure args)) (.error .tenantClosing)

/-- The actor `a` is to refuse a request for a pod in its next steps, of which there are `k`. -/
inductive Refusing (a : ℕ) (args : PodAttachArgs) (s : System) : ℕ → Prop
  | gate {A : Actor} (hA : s.actors[a]? = some A) (hpc : A.pc = .gate args)
      (hclosing : s.shared.Closing) : Refusing a args s 2
  | reply {A : Actor} (hA : s.actors[a]? = some A)
      (hpc : A.pc = .reply (.request (.ensure args)) (.error .tenantClosing)) : Refusing a args s 1

theorem Refusing.other (hs : Coherent id s) {k : ℕ} (hk : Refusing a args s k) {action : Action}
    (haction : action.isOf a = false) :
  Refusing a args (step h nodeName id s action).2 k
    ∧ ∀ e ∈ (step h nodeName id s action).1, e.actor ≠ some a
  := by
  cases hk with
  | gate hA hpc hclosing =>
    obtain ⟨⟨A', hA', hpc'⟩, hquiet⟩ := step_other hs hA haction
    refine ⟨.gate hA' (hpc'.trans hpc) ?_, hquiet⟩
    apply step_closing hs hA _ hclosing
    simp [hpc]
  | reply hA hpc =>
    obtain ⟨⟨A', hA', hpc'⟩, hquiet⟩ := step_other hs hA haction
    exact ⟨.reply hA' (hpc'.trans hpc), hquiet⟩

/-- The two steps of the actor: it finds that the tenant is closing, then it answers. -/
theorem Refusing.own {k : ℕ} (hk : Refusing a args s k) (h : Hashes) (nodeName id : String)
    (ans : Answers) :
  k = 2 ∧ Refusing a args (step h nodeName id s (.run a ans)).2 1
      ∧ (step h nodeName id s (.run a ans)).1 = none
    ∨ k = 1 ∧ (step h nodeName id s (.run a ans)).1 = some (refusal a args)
  := by
  cases hk with
  | gate hA hpc hclosing =>
    rename_i A
    left
    obtain ⟨c, hc, hstate⟩ := hclosing
    have hnext : A.next id ans a s.shared
        = (none, ⟨A.inbox, .reply (.request (.ensure args)) (.error .tenantClosing)⟩, s.shared)
        := by
      rw [Option.mem_def] at hc
      simp [Actor.next, hpc, Pc.next, hc, hstate]
    rw [step_run hA, hnext]
    refine ⟨rfl, ?_, rfl⟩
    apply Refusing.reply (List.getElem?_set_self (List.getElem?_eq_some_iff.mp hA).1) rfl
  | reply hA hpc =>
    right
    rw [step_run hA, Actor.next, hpc]
    exact ⟨rfl, rfl⟩

theorem traceOf_cons_of_ne {action : Action}
    (hquiet : ∀ e ∈ (step h nodeName id s action).1, e.actor ≠ some a) (actions : List Action) :
  traceOf h nodeName id a s (action :: actions)
    = traceOf h nodeName id a (step h nodeName id s action).2 actions
  := by
  rw [traceOf, trace, Machine.replies, List.filterMap_cons]
  cases hevent : (step h nodeName id s action).1 with
  | none => rfl
  | some e =>
    have hne := hquiet e hevent
    simp [traceOf, trace, hne]

theorem traceOf_cons_of_eq {action : Action} {e : Event}
    (hevent : (step h nodeName id s action).1 = some e) (he : e.actor = some a)
    (actions : List Action) :
  traceOf h nodeName id a s (action :: actions)
    = e :: traceOf h nodeName id a (step h nodeName id s action).2 actions
  := by
  simp [traceOf, trace, Machine.replies, hevent, he]

/-- The first event of an actor that is to refuse is the refusal, once it has taken its steps. -/
theorem Refusing.head_traceOf (hs : Coherent id s) {k : ℕ} (hk : Refusing a args s k)
    (actions : List Action) :
  (traceOf h nodeName id a s actions).head?
    = if k ≤ actions.countP (Action.isOf a) then some (refusal a args) else none
  := by
  induction actions generalizing s k with
  | nil =>
    have hpos : ¬ k ≤ 0 := by
      cases hk <;> omega
    simp [traceOf, trace, Machine.replies, hpos]
  | cons action actions ih =>
    cases haction : action.isOf a with
    | false =>
      obtain ⟨hk', hquiet⟩ := hk.other hs haction
      rw [traceOf_cons_of_ne hquiet, ih (step_coherent hs action) hk', List.countP_cons_of_neg]
      simp [haction]
    | true =>
      rw [List.countP_cons_of_pos haction]
      obtain ⟨ans, rfl⟩ := eq_run_of_isOf haction
      obtain ⟨rfl, hk', hnone⟩ | ⟨rfl, hsome⟩ := hk.own h nodeName id ans
      · rw [traceOf_cons_of_ne (by simp [hnone]), ih (step_coherent hs _) hk']
        simp
      · rw [traceOf_cons_of_eq hsome rfl]
        simp

/-- The actor `a` has stopped or the tenant is closing. -/
def Halting (a : ℕ) (s : System) : Prop :=
  ∃ A : Actor, s.actors[a]? = some A ∧ (A.pc = .stopped ∨ s.shared.Closing)

/-- An actor that has stopped stays so. -/
theorem step_actor (hs : Coherent id s) {A : Actor} (hA : s.actors[a]? = some A) (action : Action) :
  ∃ A' : Actor, (step h nodeName id s action).2.actors[a]? = some A'
    ∧ (A.pc = .stopped → A'.pc = .stopped)
  := by
  cases haction : action.isOf a with
  | false =>
    obtain ⟨⟨A', hA', hpc⟩, -⟩ := step_other hs hA haction
    exact ⟨A', hA', hpc.trans⟩
  | true =>
    obtain ⟨ans, rfl⟩ := eq_run_of_isOf haction
    rw [step_run hA]
    refine ⟨_, List.getElem?_set_self (List.getElem?_eq_some_iff.mp hA).1, ?_⟩
    intro hstopped
    rw [Actor.next_stopped hstopped]
    exact hstopped

theorem step_halting (hs : Coherent id s) (ha : Halting a s) (action : Action) :
  Halting a (step h nodeName id s action).2
  := by
  obtain ⟨A, hA, hhalts⟩ := ha
  obtain ⟨A', hA', hstopped⟩ := step_actor hs hA action
  refine ⟨A', hA', ?_⟩
  by_cases hpc : A.pc = .stopped
  · exact Or.inl (hstopped hpc)
  · apply Or.inr (step_closing hs hA hpc (hhalts.resolve_left hpc) action)

/-! ### After `RemoveTenant` -/

/-- The tenant has none of the first `n` records. -/
structure Dead (n : ℕ) (s : System) : Prop where
  made : n ≤ s.shared.heap.length
  record : ∀ r, s.shared.record = some r → n ≤ r

/-- A record that the tenant no longer has is not used again. -/
theorem step_dead (hs : Coherent id s) {n : ℕ} (hn : Dead n s) (action : Action) :
  Dead n (step h nodeName id s action).2
    ∧ ∀ r < n, (∀ e ∈ (step h nodeName id s action).1, e.touches ≠ some r)
      ∧ (step h nodeName id s action).2.shared.ipamOf r = s.shared.ipamOf r
  := by
  obtain ⟨a, A, ans, rfl, hA⟩ | houtside := step_cases hs action
  · have hmoves := A.next_moves id ans a s.shared
    rw [step_run hA]
    constructor
    · constructor
      · rw [hmoves.length_eq]
        exact hn.made
      · rw [hs.record_next hA]
        exact hn.record
    · intro r hr
      have hquiet : ∀ e ∈ (A.next id ans a s.shared).1, e.touches ≠ some r := by
        intro e he htouches
        have hheld := hs.held a A r hA (hmoves.touches e he r htouches)
        have hle := hn.record r hheld
        omega
      exact ⟨hquiet, hmoves.ipam_eq r hquiet⟩
  · constructor
    · constructor
      · apply le_trans hn.made houtside.length_le
      · intro r hr
        obtain heq | ⟨heq, -⟩ | ⟨heq, -⟩ := houtside.record_eq
        · rw [heq] at hr
          apply hn.record r hr
        · simp [heq] at hr
        · obtain rfl := Option.some.inj (heq.symm.trans hr)
          exact hn.made
    · intro r hr
      constructor
      · intro e he
        simp [(houtside.quiet e he).2]
      · apply houtside.ipam_eq
        apply lt_of_lt_of_le hr hn.made

/-- The tenant has neither a record nor an actor, and `EnsureTenant` is not in progress. -/
structure Gone (s : System) : Prop where
  record : s.shared.record = none
  actor : s.shared.actor = none
  dispatcher : s.dispatcher = .idle ∨ s.dispatcher = .removeRead

theorem step_gone (hs : Coherent id s) (hgone : Gone s) {action : Action}
    (haction : action ≠ .command .ensureTenant) :
  Gone (step h nodeName id s action).2
  := by
  cases action with
  | command c =>
    cases c with
    | ensureTenant => exact absurd rfl haction
    | removeTenant =>
      rw [step]
      split
      · exact ⟨hgone.record, hgone.actor, Or.inr rfl⟩
      · exact hgone
  | dispatch ans =>
    obtain hidle | hread := hgone.dispatcher
    · simp only [step, System.dispatch, hidle]
      exact hgone
    · simp only [step, System.dispatch, hread, hgone.record]
      split
      · exact ⟨hgone.record, hgone.actor, Or.inl rfl⟩
      · exact ⟨hgone.record, hgone.actor, Or.inl rfl⟩
  | run a ans =>
    cases hA : s.actors[a]? with
    | none =>
      simp only [step, hA]
      exact hgone
    | some A =>
      rw [step_run hA]
      refine ⟨?_, ?_, hgone.dispatcher⟩
      · rw [hs.record_next hA, hgone.record]
      · rw [(A.next_moves id ans a s.shared).actor_eq, hgone.actor]
  | send a q => exact ⟨hgone.record, hgone.actor, hgone.dispatcher⟩

/-- When `RemoveTenant` returns, the tenant is gone. -/
theorem gone_of_returned (hs : Coherent id s) {ans : Answers} {result : Except Error Unit}
    (hreturned : (s.dispatch h nodeName id ans).1 = some (.returned .removeTenant result)) :
  Gone (s.dispatch h nodeName id ans).2
  := by
  have hd : Dispatched id s (s.dispatch h nodeName id ans).1 (s.dispatch h nodeName id ans).2 :=
    hs.dispatched ans
  rw [hreturned] at hd
  generalize (s.dispatch h nodeName id ans).2 = s' at hd
  cases hd with
  | return_ heq hremove =>
    have hrecord := hremove rfl
    have hactor : s.shared.actor = none := by
      simpa [hrecord] using heq.symm
    exact ⟨hrecord, hactor, Or.inl rfl⟩
  | dropRecord hactor => exact ⟨rfl, hactor, Or.inl rfl⟩

/-! ### Runs -/

theorem after_coherent (hs : Coherent id s) (actions : List Action) :
  Coherent id (Machine.after (step h nodeName id) s actions)
  := by
  apply Machine.after_of_forall _ hs actions
  intro s action hs
  apply step_coherent hs action

theorem after_halting (hs : Coherent id s) (ha : Halting a s) (actions : List Action) :
  Halting a (Machine.after (step h nodeName id) s actions)
  := by
  have hstep : ∀ s action, Coherent id s ∧ Halting a s →
      Coherent id (step h nodeName id s action).2 ∧ Halting a (step h nodeName id s action).2 :=
    fun s action hs => ⟨step_coherent hs.1 action, step_halting hs.1 hs.2 action⟩
  exact (Machine.after_of_forall hstep ⟨hs, ha⟩ actions).2

theorem after_gone (hs : Coherent id s) (hgone : Gone s) {actions : List Action}
    (hactions : ∀ action ∈ actions, action ≠ .command .ensureTenant) :
  Gone (Machine.after (step h nodeName id) s actions)
  := by
  have hstep : ∀ s action, Coherent id s ∧ Gone s → action ≠ .command .ensureTenant →
      Coherent id (step h nodeName id s action).2 ∧ Gone (step h nodeName id s action).2 :=
    fun s action hs haction => ⟨step_coherent hs.1 action, step_gone hs.1 hs.2 haction⟩
  exact (Machine.after_of_forall_mem hstep ⟨hs, hgone⟩ hactions).2

theorem trace_dead (hs : Coherent id s) {n : ℕ} (hn : Dead n s) (actions : List Action) {r : ℕ}
    (hr : r < n) :
  (∀ e ∈ trace h nodeName id s actions, e.touches ≠ some r)
    ∧ (Machine.after (step h nodeName id) s actions).shared.ipamOf r = s.shared.ipamOf r
  := by
  induction actions generalizing s with
  | nil => exact ⟨by simp [trace, Machine.replies], rfl⟩
  | cons action actions ih =>
    obtain ⟨hn', hkept⟩ := step_dead (h := h) hs hn action
    obtain ⟨hquiet, hipam⟩ := hkept r hr
    obtain ⟨hrest, hipam'⟩ := ih (step_coherent hs action) hn'
    constructor
    · intro e he
      rw [trace, Machine.replies, List.mem_filterMap] at he
      obtain ⟨event, hevent, rfl⟩ := he
      obtain hhead | htail := List.mem_cons.mp hevent
      · apply hquiet e hhead.symm
      · apply hrest e
        rw [trace, List.mem_filterMap]
        exact ⟨some e, htail, rfl⟩
    · exact hipam'.trans hipam

/-- A request for a pod that is taken from a closing tenant is refused. -/
theorem traceOf_refused (hs : Coherent id s) (hclosing : s.shared.Closing) {inbox : List Msg}
    (hA : s.actors[a]? = some ⟨.request (.ensure args) :: inbox, .select⟩) (ans : Answers)
    (later : List Action) :
  (traceOf h nodeName id a s (.run a ans :: later))[1]?
    = if 2 ≤ later.countP (Action.isOf a) then some (refusal a args) else none
  := by
  have htook :
      (step h nodeName id s (.run a ans)).1 = some (.took a (.request (.ensure args))) := by
    rw [step_run hA]
    rfl
  have hrefusing : Refusing a args (step h nodeName id s (.run a ans)).2 2 := by
    refine Refusing.gate (A := ⟨inbox, .gate args⟩) ?_ rfl ?_
    · rw [step_run hA]
      apply List.getElem?_set_self (List.getElem?_eq_some_iff.mp hA).1
    · apply step_closing hs hA (by simp) hclosing
  rw [traceOf_cons_of_eq htook rfl, List.getElem?_cons_succ, ← List.head?_eq_getElem?]
  apply hrefusing.head_traceOf (step_coherent hs _)

/-- What teardown ensures from a state on.

Once the tenant is closing, a request for a pod that one of its actors takes is refused in the next
event of the actor, after two more steps of it.  When `RemoveTenant` returns, then no later step
uses or changes the IPAM of a record that was made before; and as long as no `EnsureTenant` follows,
the tenant has neither a record nor an actor, and no actor runs. -/
structure Fenced (h : Hashes) (nodeName id : String) (s : System) : Prop where
  refuses : s.shared.Closing → ∀ a < s.actors.length, ∀ (actions : List Action) (s' : System),
    s' = Machine.after (step h nodeName id) s actions →
    ∀ (args : PodAttachArgs) (inbox : List Msg),
    s'.actors[a]? = some ⟨.request (.ensure args) :: inbox, .select⟩ →
    ∀ (ans : Answers) (later : List Action),
    (traceOf h nodeName id a s' (.run a ans :: later))[1]?
      = if 2 ≤ later.countP (Action.isOf a) then some (refusal a args) else none
  fences : ∀ (ans : Answers) (result : Except Error Unit) (s' : System),
    step h nodeName id s (.dispatch ans) = (some (.returned .removeTenant result), s') →
    ∀ (later : List Action), ∀ r < s'.shared.heap.length,
    (∀ e ∈ trace h nodeName id s' later, e.touches ≠ some r)
      ∧ (Machine.after (step h nodeName id) s' later).shared.ipamOf r = s'.shared.ipamOf r
  gone : ∀ (ans : Answers) (result : Except Error Unit) (s' s'' : System),
    step h nodeName id s (.dispatch ans) = (some (.returned .removeTenant result), s') →
    ∀ (later : List Action), (∀ action ∈ later, action ≠ .command .ensureTenant) →
    s'' = Machine.after (step h nodeName id) s' later →
    s''.shared.record = none ∧ s''.shared.actor = none ∧ ∀ A ∈ s''.actors, A.pc = .stopped

end

/-- Teardown fences pod operations in every state of every run. -/
theorem after_fenced (h : Hashes) (nodeName id : String) (actions : List Action) :
  Fenced h nodeName id (Machine.after (step h nodeName id) init actions)
  := by
  have hs : Coherent id (Machine.after (step h nodeName id) init actions) :=
    after_coherent (init_coherent id) actions
  generalize Machine.after (step h nodeName id) init actions = s at hs
  constructor
  · rintro hclosing a ha later _ rfl args inbox hA
    have hhalts : Halting a s := ⟨s.actors[a], List.getElem?_eq_getElem ha, Or.inr hclosing⟩
    obtain ⟨A, hA', hhalts⟩ := after_halting (h := h) hs hhalts later
    obtain rfl := Option.some.inj (hA.symm.trans hA')
    apply traceOf_refused (after_coherent hs later) _ hA
    apply hhalts.resolve_left
    simp
  · intro ans result s' hreturned later r hr
    obtain rfl : (s.dispatch h nodeName id ans).2 = s' := congrArg Prod.snd hreturned
    have hgone := gone_of_returned hs (congrArg Prod.fst hreturned)
    apply trace_dead (hs.dispatch ans) ⟨le_refl _, _⟩ later hr
    simp [hgone.record]
  · rintro ans result s' _ hreturned later hlater rfl
    obtain rfl : (s.dispatch h nodeName id ans).2 = s' := congrArg Prod.snd hreturned
    have hgone : Gone (Machine.after (step h nodeName id) (s.dispatch h nodeName id ans).2 later) :=
      after_gone (hs.dispatch ans) (gone_of_returned hs (congrArg Prod.fst hreturned)) hlater
    refine ⟨hgone.record, hgone.actor, ?_⟩
    intro A hA
    obtain ⟨a, ha⟩ := List.mem_iff_getElem?.mp hA
    apply (after_coherent (hs.dispatch ans) later).stopped hgone.actor ha

-- A request that waits in the mailbox when the tenant is marked, and one that the actor never
-- takes.
example :
  let ans : Answers := ⟨.ok ⟨[10, 0, 0, 0], cidrMask 30 32⟩, .ok ⟨[10, 0, 0, 0], cidrMask 29 32⟩,
    .success, [], .ok ()⟩
  let pod : PodAttachArgs := ⟨"", "p", "c", "ns", "eth0"⟩
  let ensure : List Action := .command .ensureTenant :: List.replicate 7 (.dispatch ans)
  let mark : List Action := .command .removeTenant :: List.replicate 7 (.dispatch ans)
  let stop : List Action := List.replicate 5 (.run 0 ans)
  let drop : List Action := List.replicate 3 (.dispatch ans)
  let send : List Action := [.send 0 (.ensure pod)]
  trace default "node" "t" init (ensure ++ send ++ mark ++ send ++ stop ++ drop ++ stop)
    = [.returned .ensureTenant (.ok ()), .took 0 (.request (.ensure pod)), refusal 0 pod,
      .took 0 .stop, .answered 0 .stop (.ok none), .returned .removeTenant (.ok ())]
  := by
  decide +kernel

end Teardown
