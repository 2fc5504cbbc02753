import Misokube.Cni.Server

/-!
# An ADD is executed once

The keys with which pods were configured since the last `RemovePod` are read off the log.  When an
ADD or DEL that the cache does not answer runs alone from its lookup to its store, and an ADD that
finds the entry of another ADD carries the same key, each key is configured once and a later ADD
with it is answered from the cache (`after_once`).  Two ADDs that both look up the cache first, or
an ADD with another key in between, are configured again (`add_configured_twice`).
-/

namespace Cni

open Wire

variable {α : Type} {cfg : Config α} {uid : Str} {input : Input α} {s : Shared α} {req : Request}

/-- The keys after one more successful call of the router. -/
def Op.addKey (keys : List Str) : Op α → List Str
  | .configured idemKey _ => if idemKey = .empty then keys else keys ++ [idemKey]
  | .removed => []

/-- The non-empty keys with which `ConfigurePod` succeeded since the last `RemovePod`. -/
def configuredKeys (log : List (Op α)) : List Str :=
  log.foldl Op.addKey []

theorem configuredKeys_concat (log : List (Op α)) (op : Op α) :
  configuredKeys (log ++ [op]) = op.addKey (configuredKeys log)
  := by
  rw [configuredKeys, List.foldl_concat]
  rfl

/-- An ADD whose key was configured when it looked up the cache is answered from it. -/
def Handler.Once : Handler α → Prop
  | .received _ => True
  | .direct _ _ => True
  | .routing req _ seen => req.cmd = cmdADD → req.idemKey ∉ configuredKeys seen
  | .storing req _ _ seen => req.cmd = cmdADD → req.idemKey ∉ configuredKeys seen
  | .answered req _ cached seen =>
    req.cmd = cmdADD → req.idemKey ∈ configuredKeys seen → cached.isSome = true

/-- No key is configured twice since the last `RemovePod`, and all other ADDs with a key are
answered from the cache. -/
def Once (s : System α) : Prop :=
  (configuredKeys s.shared.log).Nodup ∧ ∀ t ∈ s.threads, t.Once

instance : (t : Handler α) → Decidable t.Once
  | .received _ => inferInstanceAs (Decidable True)
  | .direct _ _ => inferInstanceAs (Decidable True)
  | .routing req _ seen =>
    inferInstanceAs (Decidable (req.cmd = cmdADD → req.idemKey ∉ configuredKeys seen))
  | .storing req _ _ seen =>
    inferInstanceAs (Decidable (req.cmd = cmdADD → req.idemKey ∉ configuredKeys seen))
  | .answered req _ cached seen =>
    inferInstanceAs (Decidable
      (req.cmd = cmdADD → req.idemKey ∈ configuredKeys seen → cached.isSome = true))

/-- Between the lookup and the store. -/
def Handler.isBusy : Handler α → Bool
  | .routing .. => true
  | .storing .. => true
  | _ => false

/-- An ADD that finds an ADD with a key has the same key. -/
def SameKey (s : Shared α) (req : Request) : Prop :=
  ∀ entry ∈ s.cache.lookup req.podUID, req.cmd = cmdADD → entry.lastCmd = cmdADD →
    entry.idemKey ≠ .empty → req.idemKey = entry.idemKey

instance (s : Shared α) (req : Request) : Decidable (SameKey s req) :=
  inferInstanceAs (Decidable (∀ entry ∈ s.cache.lookup req.podUID, _))

/-- An ADD or DEL that repeats no operation in the cache. -/
def IsNew (s : Shared α) (req : Request) : Prop :=
  (req.cmd = cmdADD ∨ req.cmd = cmdDEL)
    ∧ ∀ entry ∈ s.cache.lookup req.podUID, ¬ entry.Repeats req

instance (s : Shared α) (req : Request) : Decidable (IsNew s req) :=
  inferInstanceAs (Decidable (_ ∧ ∀ entry ∈ s.cache.lookup req.podUID, _))

/-- No entry expires, a new ADD or DEL is looked up when no handler is between its lookup and its
store, and an ADD that finds another ADD has its key. -/
def OneAtATime (s : System α) : Action α uid → Prop
  | .call _ => True
  | .run i input => ∀ t ∈ s.threads[i]?, t.LooksUp input →
    input.expired = false ∧ SameKey s.shared t.req
      ∧ (IsNew s.shared t.req → ∀ t' ∈ s.threads, t'.isBusy = false)

instance (s : System α) : (a : Action α uid) → Decidable (OneAtATime s a)
  | .call _ => inferInstanceAs (Decidable True)
  | .run i input => inferInstanceAs (Decidable (∀ t ∈ s.threads[i]?, t.LooksUp input →
      input.expired = false ∧ SameKey s.shared t.req
        ∧ (IsNew s.shared t.req → ∀ t' ∈ s.threads, t'.isBusy = false)))

/-! ### The stages of a handler -/

/-- A handler that is not between its lookup and its store. -/
def Resting (uid : Str) (t : Handler α) : Prop :=
  t.req.podUID = uid ∧ t.isBusy = false ∧ t.Once

/-- At most one key is configured, and the cache has its ADD. -/
def Known (uid : Str) (s : Shared α) : Prop :=
  ∀ key ∈ configuredKeys s.log, configuredKeys s.log = [key] ∧ key ≠ .empty
    ∧ ∃ entry ∈ s.cache.lookup uid, entry.lastCmd = cmdADD ∧ entry.idemKey = key

/-- The keys that are configured when the result of the request waits to be stored. -/
def pendingKeys (req : Request) : List Str :=
  if req.cmd = cmdADD ∧ req.idemKey ≠ .empty then [req.idemKey] else []

/-- An ADD calls the router when no key is configured, and then its own key is. -/
def Stage (uid : Str) (s : Shared α) : Handler α → Prop
  | .routing req tenantID seen =>
    req.podUID = uid ∧ (Handler.routing req tenantID seen).Once ∧ Known uid s
      ∧ (req.cmd = cmdADD → configuredKeys s.log = [])
  | .storing req resp res seen =>
    req.podUID = uid ∧ (Handler.storing req resp res seen).Once
      ∧ configuredKeys s.log = pendingKeys req
  | t => Resting uid t ∧ Known uid s

theorem stage_iff_known (s : Shared α) (t : Handler α) (h : Resting uid t) :
  Stage uid s t ↔ Known uid s
  := by
  cases t <;> simp_all [Resting, Stage, Handler.isBusy]

theorem resting_of_stage {t : Handler α} (h : Stage uid s t) (ht : t.isBusy = false) :
  Resting uid t
  := by
  cases t <;> simp_all [Stage, Handler.isBusy]

theorem Stage.once {t : Handler α} (h : Stage uid s t) :
  t.Once
  := by
  cases t with
  | routing | storing => exact h.2.1
  | received | direct | answered => exact h.1.2.2

/-- No key is configured twice in any stage. -/
theorem Known.nodup (hs : Known uid s) :
  (configuredKeys s.log).Nodup
  := by
  cases hkeys : configuredKeys s.log with
  | nil => apply List.nodup_nil
  | cons key keys =>
    have hkey : key ∈ configuredKeys s.log := by
      rw [hkeys]
      apply List.mem_cons_self
    rw [← hkeys, (hs key hkey).1]
    apply List.nodup_singleton

theorem Stage.nodup {t : Handler α} (h : Stage uid s t) :
  (configuredKeys s.log).Nodup
  := by
  cases t with
  | routing => exact h.2.2.1.nodup
  | storing req resp res seen =>
    rw [h.2.2, pendingKeys]
    split <;> simp
  | received | direct | answered => exact h.2.nodup

/-- When a key is configured, an ADD that meets the condition repeats the operation in the cache. -/
theorem Known.repeats (hs : Known uid s) (huid : req.podUID = uid) (hcmd : req.cmd = cmdADD)
    (hsame : SameKey s req) {key : Str} (hkey : key ∈ configuredKeys s.log) :
  ∃ entry ∈ s.cache.lookup uid, entry.Repeats req
  := by
  obtain ⟨-, hne, entry, hentry, hadd, rfl⟩ := hs key hkey
  subst huid
  exact ⟨entry, hentry, hadd.trans hcmd.symm, hne, (hsame entry hentry hcmd hadd hne).symm⟩

/-- A new ADD finds no key configured. -/
theorem Known.keys_of_isNew (hs : Known uid s) (huid : req.podUID = uid) (hcmd : req.cmd = cmdADD)
    (hsame : SameKey s req) (hnew : IsNew s req) :
  configuredKeys s.log = []
  := by
  rw [List.eq_nil_iff_forall_not_mem]
  intro key hkey
  obtain ⟨entry, hentry, hrepeats⟩ := hs.repeats huid hcmd hsame hkey
  subst huid
  apply hnew.2 entry hentry hrepeats

section

variable (hne : uid ≠ .empty) (hexpired : input.expired = false) (huid : req.podUID = uid)

include hne hexpired huid

/-- A lookup without expiry changes nothing. -/
theorem lookupCache_same (tenantID : String) :
  (lookupCache cfg input s req tenantID).2 = s
  := by
  rw [lookupCache_shared, huid, hexpired, cacheGet_of_not_expired hne]

/-- A request that is not new is answered at its lookup, an ADD from the cache. -/
theorem lookupCache_of_not_isNew (hnew : ¬ IsNew s req) (tenantID : String) :
  Resting uid (lookupCache cfg input s req tenantID).1
  := by
  rcases lookupCache_cases cfg input s req tenantID with ⟨resp, cached, hanswer, ht⟩ | ⟨hnone, -⟩
  · rw [ht]
    refine ⟨huid, rfl, ?_⟩
    intro hcmd _
    have hrepeats : ∃ entry ∈ s.cache.lookup uid, entry.Repeats req := by
      by_contra hno
      apply hnew
      refine ⟨Or.inl hcmd, fun entry hentry hrep => hno ⟨entry, huid ▸ hentry, hrep⟩⟩
    obtain ⟨entry, hentry, hrep⟩ := hrepeats
    obtain ⟨resp', hresp⟩ := answerFromCache_of_repeats cfg hcmd hrep
    rw [huid, hexpired, cacheGet_of_not_expired hne, Option.mem_def.mp hentry, hresp] at hanswer
    cases hanswer
    rfl
  · exfalso
    apply hnew
    rw [huid, hexpired, cacheGet_of_not_expired hne] at hnone
    have := answerFromCache_eq_none hnone
    rwa [IsNew, huid]

/-- A lookup brings the handler to its next stage. -/
theorem lookupCache_stage (hs : Known uid s) (hsame : SameKey s req) (tenantID : String) :
  Stage uid (lookupCache cfg input s req tenantID).2 (lookupCache cfg input s req tenantID).1
  := by
  rw [lookupCache_same hne hexpired huid]
  by_cases hnew : IsNew s req
  · have hkeys := fun hcmd => hs.keys_of_isNew huid hcmd hsame hnew
    rcases lookupCache_cases cfg input s req tenantID with ⟨resp, cached, -, ht⟩ | ⟨-, ht⟩
    · rw [ht]
      refine ⟨⟨huid, rfl, ?_⟩, hs⟩
      intro hcmd hkey
      simp [hkeys hcmd] at hkey
    · rw [ht]
      refine ⟨huid, ?_, hs, hkeys⟩
      intro hcmd
      simp [hkeys hcmd]
  · apply (stage_iff_known s _ (lookupCache_of_not_isNew hne hexpired huid hnew tenantID)).mpr hs

end

/-- The call of the router configures the key of an ADD, or removes all keys. -/
theorem callRouter_stage {tenantID : String} {seen : List (Op α)}
    (h : Stage uid s (.routing req tenantID seen)) :
  Stage uid (callRouter cfg input s req tenantID seen).2
    (callRouter cfg input s req tenantID seen).1
  := by
  obtain ⟨huid, honce, hs, hkeys⟩ := h
  simp only [callRouter]
  split
  · next hcmd =>
    split
    · exact ⟨⟨huid, rfl, fun hcmd hkey => absurd hkey (honce hcmd)⟩, hs⟩
    · refine ⟨huid, honce, ?_⟩
      rw [configuredKeys_concat, hkeys hcmd, pendingKeys, Op.addKey]
      by_cases hempty : req.idemKey = .empty <;> simp [hempty, hcmd]
  · next hcmd =>
    split
    · exact ⟨⟨huid, rfl, fun hadd => absurd hadd hcmd⟩, hs⟩
    · refine ⟨huid, honce, ?_⟩
      rw [configuredKeys_concat, pendingKeys, if_neg (fun h => hcmd h.1)]
      rfl

/-- The store makes the configured key known to the cache. -/
theorem known_cacheStore (hne : uid ≠ .empty) (huid : req.podUID = uid)
    (hkeys : configuredKeys s.log = pendingKeys req) (res : Option (Result α)) :
  Known uid { s with cache := cacheStore s.cache req.podUID req.cmd req.idemKey res }
  := by
  subst huid
  intro key hkey
  simp only [hkeys, pendingKeys] at hkey ⊢
  split at hkey
  · next h =>
    obtain rfl := List.mem_singleton.mp hkey
    rw [lookup_cacheStore hne, if_pos h]
    exact ⟨rfl, h.2, _, rfl, h.1, rfl⟩
  · simp at hkey

/-- A handler brings the shared state to its next stage. -/
theorem next_stage (hne : uid ≠ .empty) {t : Handler α} (h : Stage uid s t)
    (hcond : t.LooksUp input → input.expired = false ∧ SameKey s t.req) :
  Stage uid (next cfg input s t).2 (next cfg input s t).1
  := by
  cases t with
  | received req =>
    obtain ⟨⟨huid, -, -⟩, hs⟩ := h
    rcases handleRequest_cases cfg input s req with ⟨resp, hdirect⟩ | ⟨hlooksUp, tenantID, hlookup⟩
    · rw [next, hdirect]
      exact ⟨⟨huid, rfl, trivial⟩, hs⟩
    · rw [next, hlookup]
      obtain ⟨hexpired, hsame⟩ := hcond hlooksUp
      apply lookupCache_stage hne hexpired huid hs hsame
  | direct req resp => exact h
  | routing req tenantID seen => apply callRouter_stage h
  | storing req resp res seen =>
    obtain ⟨huid, honce, hkeys⟩ := h
    refine ⟨⟨huid, rfl, ?_⟩, known_cacheStore hne huid hkeys res⟩
    exact fun hcmd hkey => absurd hkey (honce hcmd)
  | answered req resp cached seen => exact h

/-- A resting handler whose request is not new rests, and changes nothing. -/
theorem next_of_not_isNew (hne : uid ≠ .empty) {t : Handler α} (h : Resting uid t)
    (hcond : t.LooksUp input → input.expired = false ∧ ¬ IsNew s t.req) :
  Resting uid (next cfg input s t).1 ∧ (next cfg input s t).2 = s
  := by
  cases t with
  | received req =>
    obtain ⟨huid, -, -⟩ := h
    rcases handleRequest_cases cfg input s req with ⟨resp, hdirect⟩ | ⟨hlooksUp, tenantID, hlookup⟩
    · rw [next, hdirect]
      exact ⟨⟨huid, rfl, trivial⟩, rfl⟩
    · rw [next, hlookup]
      obtain ⟨hexpired, hnew⟩ := hcond hlooksUp
      constructor
      · apply lookupCache_of_not_isNew hne hexpired huid hnew
      · apply lookupCache_same hne hexpired huid
  | direct | answered => exact ⟨h, rfl⟩
  | routing | storing => exact absurd h.2.1 (by simp [Handler.isBusy])

/-! ### Runs -/

/-- At most one handler is between its lookup and its store, and the shared state is in the stage
of that handler. -/
def InTurn (uid : Str) (s : System α) : Prop :=
  Threads.Orderly (Resting uid) (Known uid) (Stage uid) s

theorem InTurn.resting {s : System α} (hs : InTurn uid s)
    (hbusy : ∀ t ∈ s.threads, t.isBusy = false) :
  ∀ t ∈ s.threads, Resting uid t
  := by
  apply Threads.Orderly.forall_threads (P := Resting uid) hs
  · exact fun t _ hresting => hresting
  · intro t ht hstage
    apply resting_of_stage hstage (hbusy t ht)

theorem step_inTurn (hne : uid ≠ .empty) (s : System α) (a : Action α uid) (hs : InTurn uid s)
    (hone : OneAtATime s a) :
  InTurn uid (step cfg uid s a).2
  := by
  apply Threads.step_orderly stage_iff_known _ hs
  · rintro i input t rfl ht hstage
    apply next_stage hne hstage
    intro hlooksUp
    obtain ⟨hexpired, hsame, -⟩ := hone t ht hlooksUp
    exact ⟨hexpired, hsame⟩
  · rintro i input t rfl ht hresting
    by_cases hnew : t.LooksUp input ∧ IsNew s.shared t.req
    · right
      obtain ⟨-, -, halone⟩ := hone t ht hnew.1
      apply hs.resting (halone hnew.2)
    · left
      apply next_of_not_isNew hne hresting
      intro hlooksUp
      exact ⟨(hone t ht hlooksUp).1, fun h => hnew ⟨hlooksUp, h⟩⟩
  · intro req
    exact ⟨req.2, rfl, trivial⟩

theorem init_inTurn (uid : Str) :
  InTurn uid (init : System α)
  := by
  use 0
  simp [init, Known, configuredKeys]

theorem InTurn.once {s : System α} (hs : InTurn uid s) :
  Once s
  := by
  constructor
  · obtain ⟨i, -, hfocus, hnone⟩ := hs
    cases hi : s.threads[i]? with
    | none => exact (hnone hi).nodup
    | some t => exact (hfocus t hi).nodup
  · apply Threads.Orderly.forall_threads (P := Handler.Once) hs
    · exact fun t _ hresting => hresting.2.2
    · exact fun t _ hstage => hstage.once

/-- In every run that meets the condition each key is configured at most once between two successful
`RemovePod`s, and every later ADD with it is answered from the cache. -/
theorem after_once (cfg : Config α) (uid : Str) (hne : uid ≠ .empty)
    (actions : List (Action α uid))
    (hone : Machine.Meets (step cfg uid) OneAtATime init actions) :
  Once (Machine.after (step cfg uid) init actions)
  := by
  have hs : InTurn uid (Machine.after (step cfg uid) init actions) := by
    apply Machine.after_of_meets _ _ hone
    · intro s a hs ha
      apply step_inTurn hne s a hs ha
    · apply init_inTurn
  apply hs.once

/-- The same ADD twice: the first is executed, the second is answered from the cache. -/
def addRepeated : List (Action ℕ webUID) :=
  [.call (bareRequest webUID cmdADD keyA), .run 0 (quiet 7), .run 0 (quiet 7), .run 0 (quiet 7),
    .call (bareRequest webUID cmdADD keyA), .run 1 (quiet 8)]

theorem after_once_repeated :
  Machine.Meets (step plainConfig webUID) OneAtATime init addRepeated
    ∧ (∃ t ∈ (Machine.after (step plainConfig webUID) init addRepeated).threads,
        t.cached? = some ⟨.empty, some 7⟩)
    ∧ Once (Machine.after (step plainConfig webUID) init addRepeated)
  := by
  have hone : Machine.Meets (step plainConfig webUID) OneAtATime init addRepeated := by
    decide +kernel
  refine ⟨hone, by decide +kernel, after_once plainConfig webUID ?_ addRepeated hone⟩
  decide

/-- Two ADDs with one key that both look up the cache before either is executed. -/
def addConcurrently : List (Action ℕ webUID) :=
  [.call (bareRequest webUID cmdADD keyA), .call (bareRequest webUID cmdADD keyA),
    .run 0 (quiet 7), .run 1 (quiet 8), .run 0 (quiet 7), .run 1 (quiet 8)]

/-- An ADD, an ADD with another key and the first ADD again, each handled to its end. -/
def addOtherBetween : List (Action ℕ webUID) :=
  [.call (bareRequest webUID cmdADD keyA), .run 0 (quiet 7), .run 0 (quiet 7), .run 0 (quiet 7),
    .call (bareRequest webUID cmdADD keyB), .run 1 (quiet 8), .run 1 (quiet 8), .run 1 (quiet 8),
    .call (bareRequest webUID cmdADD keyA), .run 2 (quiet 9), .run 2 (quiet 9)]

/-- In both runs one key is configured twice without a `RemovePod` in between. -/
theorem add_configured_twice :
  configuredKeys (Machine.after (step plainConfig webUID) init addConcurrently).shared.log
      = [keyA, keyA]
    ∧ configuredKeys (Machine.after (step plainConfig webUID) init addOtherBetween).shared.log
      = [keyA, keyB, keyA]
    ∧ ¬ Once (Machine.after (step plainConfig webUID) init addConcurrently)
    ∧ ¬ Once (Machine.after (step plainConfig webUID) init addOtherBetween)
  := by
  unfold Once
  refine ⟨?_, ?_, ?_, ?_⟩ <;> decide +kernel

end Cni
