import Misokube.Cni.Server

/-!
# The results in the cache

When a handler that has called the router has stored the result before the next lookup and the next
call of the router, an ADD or CHECK is answered from the cache with the result of the last call that
succeeded (`after_current`).  Otherwise a DEL can remove the pod between the call and the store of
an ADD, and the result stays in the cache (`removed_still_cached`).
-/

namespace Cni

open Wire

variable {α : Type} {cfg : Config α} {uid : Str} {input : Input α} {s : Shared α}

/-- The last successful call of the router is the `ConfigurePod` with this result. -/
def Produced (r : Result α) (log : List (Op α)) : Prop :=
  ∃ op ∈ log.getLast?, op.result? = some r

/-- If the answer is a result from the cache, it was made by the last successful call. -/
def Handler.Current : Handler α → Prop
  | .answered _ _ (some r) seen => Produced r seen
  | _ => True

instance [DecidableEq α] : (t : Handler α) → Decidable t.Current
  | .answered _ _ (some r) seen =>
    inferInstanceAs (Decidable (∃ op ∈ seen.getLast?, op.result? = some r))
  | .answered _ _ none _ => inferInstanceAs (Decidable True)
  | .received _ => inferInstanceAs (Decidable True)
  | .direct _ _ => inferInstanceAs (Decidable True)
  | .routing _ _ _ => inferInstanceAs (Decidable True)
  | .storing _ _ _ _ => inferInstanceAs (Decidable True)

/-- All answers from the cache were current. -/
def Current (s : System α) : Prop :=
  ∀ t ∈ s.threads, t.Current

def Handler.isStoring : Handler α → Bool
  | .storing .. => true
  | _ => false

/-- The next step is a call of the router. -/
def Handler.isRouting : Handler α → Bool
  | .routing .. => true
  | _ => false

/-- A lookup or a call of the router happens when no result waits to be stored. -/
def StoredFirst (s : System α) : Action α uid → Prop
  | .call _ => True
  | .run i input => ∀ t ∈ s.threads[i]?, t.LooksUp input ∨ t.isRouting = true →
    ∀ t' ∈ s.threads, t'.isStoring = false

instance (s : System α) : (a : Action α uid) → Decidable (StoredFirst s a)
  | .call _ => inferInstanceAs (Decidable True)
  | .run i input => inferInstanceAs (Decidable (∀ t ∈ s.threads[i]?,
      t.LooksUp input ∨ t.isRouting = true → ∀ t' ∈ s.threads, t'.isStoring = false))

/-! ### The phases of a handler -/

/-- A handler without a result that waits to be stored. -/
def Idle (uid : Str) (t : Handler α) : Prop :=
  t.req.podUID = uid ∧ t.isStoring = false ∧ t.Current

/-- Without a UID nothing is cached. -/
def Unnamed (uid : Str) (s : Shared α) : Prop :=
  uid = .empty → s.cache.lookup uid = none

/-- An ADD in the cache is the last successful call. -/
def Fresh (uid : Str) (s : Shared α) : Prop :=
  Unnamed uid s
    ∧ ∀ entry ∈ s.cache.lookup uid, entry.lastCmd = cmdADD → Produced entry.result s.log

/-- What is waiting to be stored is the result of the last successful call. -/
def Phase (uid : Str) (s : Shared α) : Handler α → Prop
  | .storing req _ res _ =>
    req.podUID = uid ∧ Unnamed uid s
      ∧ (req.cmd = cmdADD → ∃ r, res = some r ∧ Produced r s.log)
  | t => Idle uid t ∧ Fresh uid s

theorem phase_iff_fresh (s : Shared α) (t : Handler α) (h : Idle uid t) :
  Phase uid s t ↔ Fresh uid s
  := by
  cases t <;> simp_all [Idle, Phase, Handler.isStoring]

theorem idle_of_phase {t : Handler α} (h : Phase uid s t) (ht : t.isStoring = false) :
  Idle uid t
  := by
  cases t <;> simp_all [Phase, Handler.isStoring]

theorem produced_concat (idemKey : Str) (r : Result α) (log : List (Op α)) :
  Produced r (log ++ [.configured idemKey r])
  := by
  simp [Produced, Op.result?]

/-- A lookup finds a current result, and leaves the cache fresh. -/
theorem lookupCache_phase {req : Request} (huid : req.podUID = uid) (hs : Fresh uid s)
    (tenantID : String) :
  Phase uid (lookupCache cfg input s req tenantID).2 (lookupCache cfg input s req tenantID).1
  := by
  have hold : ∀ entry, (lookupCache cfg input s req tenantID).2.cache.lookup uid = some entry →
      s.cache.lookup uid = some entry := by
    intro entry hentry
    rw [lookupCache_shared, huid] at hentry
    apply lookup_of_cacheGet_cache hentry
  have hfresh : Fresh uid (lookupCache cfg input s req tenantID).2 := by
    constructor
    · intro hempty
      rw [Option.eq_none_iff_forall_ne_some]
      intro entry hentry
      have := hold entry hentry
      simp [hs.1 hempty] at this
    · intro entry hentry hadd
      have hproduced := hs.2 entry (hold entry hentry) hadd
      rwa [lookupCache_shared]
  rcases lookupCache_cases cfg input s req tenantID with ⟨resp, cached, hanswer, ht⟩ | ⟨-, ht⟩
  · rw [ht]
    refine ⟨⟨huid, rfl, ?_⟩, hfresh⟩
    cases cached with
    | none => trivial
    | some r =>
      obtain ⟨entry, hentry, hadd, rfl⟩ := entry_of_answerFromCache hanswer
      rw [huid] at hentry
      apply hs.2 entry (lookup_of_cacheGet hentry) hadd
  · rw [ht]
    exact ⟨⟨huid, rfl, trivial⟩, hfresh⟩

/-- A call of the router that succeeds is the last one; one that fails changes nothing. -/
theorem callRouter_phase {req : Request} (huid : req.podUID = uid) (hs : Fresh uid s)
    (tenantID : String) (seen : List (Op α)) :
  Phase uid (callRouter cfg input s req tenantID seen).2
    (callRouter cfg input s req tenantID seen).1
  := by
  simp only [callRouter]
  split
  · split
    · exact ⟨⟨huid, rfl, trivial⟩, hs⟩
    · refine ⟨huid, hs.1, fun _ => ⟨_, rfl, ?_⟩⟩
      apply produced_concat
  · next hcmd =>
    split
    · exact ⟨⟨huid, rfl, trivial⟩, hs⟩
    · exact ⟨huid, hs.1, fun hadd => absurd hadd hcmd⟩

/-- The stored result is that of the last successful call. -/
theorem fresh_cacheStore {req : Request} {res : Option (Result α)} (huid : req.podUID = uid)
    (hs : Unnamed uid s) (hres : req.cmd = cmdADD → ∃ r, res = some r ∧ Produced r s.log) :
  Fresh uid { s with cache := cacheStore s.cache req.podUID req.cmd req.idemKey res }
  := by
  subst huid
  by_cases hempty : req.podUID = .empty
  · have hnone := hs hempty
    rw [cacheStore, if_pos hempty]
    exact ⟨hs, by simp [hnone]⟩
  · constructor
    · exact fun h => absurd h hempty
    · intro entry hentry hadd
      rw [lookup_cacheStore hempty] at hentry
      cases hentry
      obtain ⟨r, rfl, hr⟩ := hres hadd
      exact hr

/-- A handler brings the shared state to its next phase. -/
theorem next_phase {t : Handler α} (h : Phase uid s t) :
  Phase uid (next cfg input s t).2 (next cfg input s t).1
  := by
  cases t with
  | received req =>
    obtain ⟨⟨huid, -, -⟩, hs⟩ := h
    rcases handleRequest_cases cfg input s req with ⟨resp, hdirect⟩ | ⟨-, tenantID, hlookup⟩
    · rw [next, hdirect]
      exact ⟨⟨huid, rfl, trivial⟩, hs⟩
    · rw [next, hlookup]
      apply lookupCache_phase huid hs
  | direct req resp => exact h
  | routing req tenantID seen =>
    obtain ⟨⟨huid, -, -⟩, hs⟩ := h
    apply callRouter_phase huid hs
  | storing req resp res seen =>
    obtain ⟨huid, hs, hres⟩ := h
    exact ⟨⟨huid, rfl, trivial⟩, fresh_cacheStore huid hs hres⟩
  | answered req resp cached seen => exact h

/-- A handler that neither looks up the cache nor calls the router nor stores changes nothing. -/
theorem next_of_idle {t : Handler α} (h : Idle uid t) (hlooksUp : ¬ t.LooksUp input)
    (hrouting : ¬ t.isRouting = true) :
  Idle uid (next cfg input s t).1 ∧ (next cfg input s t).2 = s
  := by
  cases t with
  | received req =>
    rcases handleRequest_cases cfg input s req with ⟨resp, hdirect⟩ | ⟨hlooks, -⟩
    · rw [next, hdirect]
      exact ⟨⟨h.1, rfl, trivial⟩, rfl⟩
    · exact absurd hlooks hlooksUp
  | direct | answered => exact ⟨h, rfl⟩
  | routing => exact absurd rfl hrouting
  | storing => exact absurd h.2.1 (by simp [Handler.isStoring])

/-! ### Runs -/

/-- At most one result waits to be stored, and the shared state is in the phase of its handler. -/
def Ordered (uid : Str) (s : System α) : Prop :=
  Threads.Orderly (Idle uid) (Fresh uid) (Phase uid) s

/-- In a system in which no result waits to be stored all handlers are idle. -/
theorem Ordered.idle {s : System α} (hs : Ordered uid s)
    (hstored : ∀ t ∈ s.threads, t.isStoring = false) :
  ∀ t ∈ s.threads, Idle uid t
  := by
  apply Threads.Orderly.forall_threads (P := Idle uid) hs
  · exact fun t _ hidle => hidle
  · intro t ht hphase
    apply idle_of_phase hphase (hstored t ht)

theorem step_ordered (s : System α) (a : Action α uid) (hs : Ordered uid s)
    (hfirst : StoredFirst s a) :
  Ordered uid (step cfg uid s a).2
  := by
  apply Threads.step_orderly phase_iff_fresh _ hs
  · rintro i input t - - hphase
    apply next_phase hphase
  · rintro i input t rfl ht hidle
    by_cases hbefore : t.LooksUp input ∨ t.isRouting = true
    · right
      apply hs.idle (hfirst t ht hbefore)
    · left
      rw [not_or] at hbefore
      apply next_of_idle hidle hbefore.1 hbefore.2
  · intro req
    exact ⟨req.2, rfl, trivial⟩

theorem init_ordered (uid : Str) :
  Ordered uid (init : System α)
  := by
  use 0
  simp [init, Fresh, Unnamed]

/-- In an ordered system all answers were current. -/
theorem Ordered.current {s : System α} (hs : Ordered uid s) :
  Current s
  := by
  apply Threads.Orderly.forall_threads (P := Handler.Current) hs
  · exact fun t _ hidle => hidle.2.2
  · intro t _ hphase
    cases t with
    | storing => trivial
    | received | direct | routing | answered => exact hphase.1.2.2

/-- In every run in which results are stored before the next lookup and the next call of the router,
an ADD or CHECK that is answered from the cache has the result of the last call that succeeded. -/
theorem after_current (cfg : Config α) (uid : Str) (actions : List (Action α uid))
    (hfirst : Machine.Meets (step cfg uid) StoredFirst init actions) :
  Current (Machine.after (step cfg uid) init actions)
  := by
  have hs : Ordered uid (Machine.after (step cfg uid) init actions) := by
    apply Machine.after_of_meets _ _ hfirst
    · intro s a hs ha
      apply step_ordered s a hs ha
    · apply init_ordered
  apply hs.current

/-- An ADD is handled to its end, then a CHECK is answered with its result. -/
def addThenCheck : List (Action ℕ webUID) :=
  [.call (bareRequest webUID cmdADD keyA), .run 0 (quiet 7), .run 0 (quiet 7),
    .run 0 (quiet 7), .call (bareRequest webUID cmdCHECK .empty), .run 1 (quiet 7)]

theorem after_current_check :
  Machine.Meets (step plainConfig webUID) StoredFirst init addThenCheck
    ∧ (∃ t ∈ (Machine.after (step plainConfig webUID) init addThenCheck).threads,
        t.cached? = some ⟨.empty, some 7⟩)
    ∧ Current (Machine.after (step plainConfig webUID) init addThenCheck)
  := by
  have hfirst : Machine.Meets (step plainConfig webUID) StoredFirst init addThenCheck := by
    decide +kernel
  refine ⟨hfirst, by decide +kernel, after_current plainConfig webUID addThenCheck hfirst⟩

/-- An ADD is configured; before its result is stored, a DEL removes the pod and is stored. -/
def delBeforeStore : List (Action ℕ webUID) :=
  [.call (bareRequest webUID cmdADD keyA), .call (bareRequest webUID cmdDEL keyB),
    .run 0 (quiet 7), .run 0 (quiet 7), .run 1 (quiet 7), .run 1 (quiet 7), .run 1 (quiet 7),
    .run 0 (quiet 7), .call (bareRequest webUID cmdCHECK .empty), .run 2 (quiet 7)]

/-- The CHECK is answered with the result of the ADD, whose pod is removed. -/
theorem removed_still_cached :
  ¬ Current (Machine.after (step plainConfig webUID) init delBeforeStore)
    ∧ (Machine.after (step plainConfig webUID) init delBeforeStore).shared.log
      = [.configured keyA ⟨.empty, some 7⟩, .removed]
  := by
  unfold Current
  constructor <;> decide +kernel

end Cni
