import Misokube.Lib.Map
import Misokube.Lib.Threads
import Misokube.Wire.Model

/-!
# The CNI server

The handlers of `CNIServer` as threads.  A handler looks up the cache, calls the router and stores
the result in the cache, each in one step; the answers of the resolver and the router are inputs of
the steps, and so is whether an entry has expired.  The router and the resolver are set.  The
successful calls of the router are logged, and a handler keeps the log as it was when it looked up
the cache.
-/

namespace Cni

open Wire

variable {α : Type}

/-- A CNI result: its version and the rest of it, which may be missing. -/
structure Result (α : Type) where
  cniVersion : Str
  content : Option α
deriving DecidableEq

/-- What a handler answers. -/
structure Response where
  ok : Bool
  message : String
  result : List UInt8
deriving DecidableEq

/-- The conversion of a result to a version and its JSON encoding, and the default version. -/
structure Config (α : Type) where
  encode : Str → Result α → List UInt8
  defaultCNIVersion : Str

def ensureResultStruct (ver : Str) : Option (Result α) → Result α
  | none => ⟨ver, none⟩
  | some res => if res.cniVersion = .empty then { res with cniVersion := ver } else res

def encodeResult (cfg : Config α) (ver : Str) (res : Option (Result α)) : List UInt8 :=
  let target := if ver = .empty then cfg.defaultCNIVersion else ver
  cfg.encode target (res.getD ⟨target, none⟩)

/-! ### The cache -/

/-- `podCacheEntry`, without its time. -/
structure Entry (α : Type) where
  result : Result α
  lastCmd : Command
  idemKey : Str
deriving DecidableEq

/-- The entries by the UIDs of the pods. -/
abbrev Cache (α : Type) := GoMap Str (Entry α)

def cacheStore (cache : Cache α) (uid : Str) (cmd : Command) (idemKey : Str)
    (res : Option (Result α)) : Cache α :=
  if uid = .empty then cache
  else cache.insert uid ⟨res.getD ⟨.empty, none⟩, cmd, idemKey⟩

/-- The entry of a pod; an entry that has expired is deleted. -/
def cacheGet (cache : Cache α) (expired : Bool) (uid : Str) : Option (Entry α) × Cache α :=
  if uid = .empty then (none, cache)
  else
    match cache.lookup uid with
    | none => (none, cache)
    | some entry => if expired then (none, cache.erase uid) else (some entry, cache)

/-- The entry is that of the same operation. -/
def Entry.Repeats (entry : Entry α) (req : Request) : Prop :=
  entry.lastCmd = req.cmd ∧ entry.idemKey ≠ .empty ∧ entry.idemKey = req.idemKey

instance (entry : Entry α) (req : Request) : Decidable (entry.Repeats req) :=
  inferInstanceAs (Decidable (_ ∧ _ ∧ _))

/-! ### Handlers -/

/-- A successful call of the router: `ConfigurePod` with the key of the request and the result that
is made of it, or `RemovePod`. -/
inductive Op (α : Type) where
  | configured (idemKey : Str) (result : Result α)
  | removed
deriving DecidableEq

/-- The result of a `ConfigurePod`. -/
def Op.result? : Op α → Option (Result α)
  | .configured _ r => some r
  | .removed => none

/-- Where a handler is, with the log at the time of its lookup; a handler that answers `direct`
makes no lookup. -/
inductive Handler (α : Type) where
  | received (req : Request)
  | direct (req : Request) (resp : Response)
  | routing (req : Request) (tenantID : String) (seen : List (Op α))
  | storing (req : Request) (resp : Response) (res : Option (Result α)) (seen : List (Op α))
  | answered (req : Request) (resp : Response) (cached : Option (Result α)) (seen : List (Op α))

/-- The cache and the successful calls of the router. -/
structure Shared (α : Type) where
  cache : Cache α
  log : List (Op α)

/-- What a handler is told in a step: the tenant, whether the entry has expired, and the results of
the calls of the router, which returns no result with an error. -/
structure Input (α : Type) where
  resolve : Except String String
  expired : Bool
  configurePod : Except String (Option (Result α))
  removePod : Except String Unit

section

variable (cfg : Config α) (input : Input α) (s : Shared α)

/-- The lookup of an ADD, DEL or CHECK; the second component is the result from the cache. -/
def answerFromCache (req : Request) (entry : Option (Entry α)) :
    Option (Response × Option (Result α)) :=
  if req.cmd = cmdADD then
    match entry with
    | none => none
    | some entry =>
      if entry.Repeats req then
        some (⟨true, "add ok (cached)", encodeResult cfg req.cniVersion (some entry.result)⟩,
          some entry.result)
      else none
  else if req.cmd = cmdDEL then
    match entry with
    | none => none
    | some entry =>
      if entry.Repeats req then
        some (⟨true, "del ok (cached)", encodeResult cfg req.cniVersion none⟩, none)
      else none
  else
    match entry with
    | none => some (⟨true, "check ok", encodeResult cfg req.cniVersion none⟩, none)
    | some entry =>
      if entry.lastCmd = cmdADD then
        some (⟨true, "check ok (cached)", encodeResult cfg req.cniVersion (some entry.result)⟩,
          some entry.result)
      else some (⟨true, "check ok", encodeResult cfg req.cniVersion none⟩, none)

/-- The lookup of the cache. -/
def lookupCache (req : Request) (tenantID : String) : Handler α × Shared α :=
  let (entry, cache) := cacheGet s.cache input.expired req.podUID
  match answerFromCache cfg req entry with
  | some (resp, cached) => (.answered req resp cached s.log, { s with cache := cache })
  | none => (.routing req tenantID s.log, { s with cache := cache })

/-- The handler of a request up to its lookup. -/
def handleRequest (req : Request) : Handler α × Shared α :=
  if req.cmd = cmdSTATUS then
    (.direct req ⟨true, "ready", encodeResult cfg req.cniVersion none⟩, s)
  else if req.cmd = cmdGC then
    (.direct req ⟨true, "gc ok", encodeResult cfg req.cniVersion none⟩, s)
  else if req.cmd ≠ cmdADD ∧ req.cmd ≠ cmdDEL ∧ req.cmd ≠ cmdCHECK then
    (.direct req ⟨false, "unknown cmd", []⟩, s)
  else
    match input.resolve with
    | .error e =>
      (.direct req ⟨false, "resolve tenant: " ++ e, encodeResult cfg req.cniVersion none⟩, s)
    | .ok tenantID => lookupCache cfg input s req tenantID

/-- The version of the result of an ADD. -/
def addVersion (req : Request) : Str :=
  if req.cniVersion = .empty then cfg.defaultCNIVersion else req.cniVersion

/-- The call of the router. -/
def callRouter (req : Request) (tenantID : String) (seen : List (Op α)) : Handler α × Shared α :=
  if req.cmd = cmdADD then
    let ver := addVersion cfg req
    match input.configurePod with
    | .error e =>
      (.answered req ⟨false, "configure pod: " ++ e, encodeResult cfg ver none⟩ none seen, s)
    | .ok podResult =>
      let res := ensureResultStruct ver podResult
      (.storing req ⟨true, "add ok for tenant:" ++ tenantID, encodeResult cfg ver (some res)⟩
        (some res) seen, { s with log := s.log ++ [.configured req.idemKey res] })
  else
    match input.removePod with
    | .error e =>
      (.answered req ⟨false, "remove pod: " ++ e, encodeResult cfg req.cniVersion none⟩
        none seen, s)
    | .ok () =>
      (.storing req ⟨true, "del ok", encodeResult cfg req.cniVersion none⟩ none seen,
        { s with log := s.log ++ [.removed] })

/-- The next step of a handler. -/
def next : Handler α → Handler α × Shared α
  | .received req => handleRequest cfg input s req
  | .routing req tenantID seen => callRouter cfg input s req tenantID seen
  | .storing req resp res seen =>
    (.answered req resp none seen,
      { s with cache := cacheStore s.cache req.podUID req.cmd req.idemKey res })
  | t => (t, s)

end

/-- The request of a handler. -/
def Handler.req : Handler α → Request
  | .received req => req
  | .direct req _ => req
  | .routing req _ _ => req
  | .storing req _ _ _ => req
  | .answered req _ _ _ => req

/-- The next step of the handler is a lookup of the cache: it has received an ADD, DEL or CHECK, and
the tenant is resolved. -/
def Handler.LooksUp (input : Input α) : Handler α → Prop
  | .received req => (req.cmd = cmdADD ∨ req.cmd = cmdDEL ∨ req.cmd = cmdCHECK)
      ∧ input.resolve.isOk = true
  | _ => False

instance (input : Input α) : (t : Handler α) → Decidable (t.LooksUp input)
  | .received _ => inferInstanceAs (Decidable ((_ ∨ _ ∨ _) ∧ _ = _))
  | .direct _ _ => inferInstanceAs (Decidable False)
  | .routing _ _ _ => inferInstanceAs (Decidable False)
  | .storing _ _ _ _ => inferInstanceAs (Decidable False)
  | .answered _ _ _ _ => inferInstanceAs (Decidable False)

/-- Requests for one pod. -/
abbrev PodRequest (uid : Str) := { req : Request // req.podUID = uid }

/-- The handlers of the requests for a pod. -/
abbrev System (α : Type) := Threads.System (Shared α) (Handler α)

abbrev Action (α : Type) (uid : Str) := Threads.Action (PodRequest uid) (Input α)

/-- A request for the pod is received, or a handler takes its next step. -/
def step (cfg : Config α) (uid : Str) : System α → Action α uid → Unit × System α :=
  Threads.step (fun req => .received req.1) (next cfg)

/-- Nothing is cached and no request is received yet. -/
def init : System α :=
  ⟨⟨∅, []⟩, []⟩

/-- The result from the cache that a handler has answered with. -/
def Handler.cached? : Handler α → Option (Result α)
  | .answered _ _ cached _ => cached
  | _ => none

/-- The UID of a pod. -/
def webUID : Str := ⟨[0x77], by decide⟩

/-- Two keys of operations. -/
def keyA : Str := ⟨[0x61], by decide⟩

def keyB : Str := ⟨[0x62], by decide⟩

/-- A configuration for results whose content is a number. -/
def plainConfig : Config ℕ :=
  ⟨fun _ _ => [], .empty⟩

/-- A request for the pod, with nothing in it but the command and the key. -/
def bareRequest (uid : Str) (cmd : Command) (idemKey : Str) : PodRequest uid :=
  ⟨{ cmd := cmd, traceID := .empty, cniVersion := .empty, containerID := .empty, netNS := .empty,
     ifName := .empty, podName := .empty, podNamespace := .empty, podUID := uid,
     timeoutSeconds := 0, idemKey := idemKey }, rfl⟩

/-- A step in which nothing fails and nothing has expired. -/
def quiet (content : α) : Input α :=
  ⟨.ok "blue", false, .ok (some ⟨.empty, some content⟩), .ok ()⟩

/-! ### What a step does -/

section

variable {cfg : Config α} {input : Input α} {s : Shared α} {req : Request} {cache : Cache α}
  {uid : Str}

theorem lookup_of_cacheGet {expired : Bool} {entry : Entry α}
    (h : (cacheGet cache expired uid).1 = some entry) :
  cache.lookup uid = some entry
  := by
  grind [cacheGet]

/-- A lookup leaves no entry that was not there. -/
theorem lookup_of_cacheGet_cache {expired : Bool} {entry : Entry α}
    (h : (cacheGet cache expired uid).2.lookup uid = some entry) :
  cache.lookup uid = some entry
  := by
  rw [cacheGet] at h
  split at h
  · exact h
  · split at h
    · exact h
    · next hentry =>
      cases expired with
      | false => exact h
      | true => simp [AList.lookup_erase] at h

theorem cacheGet_of_not_expired (huid : uid ≠ .empty) :
  cacheGet cache false uid = (cache.lookup uid, cache)
  := by
  rw [cacheGet, if_neg huid]
  cases cache.lookup uid <;> rfl

theorem lookup_cacheStore (huid : uid ≠ .empty) (cmd : Command) (idemKey : Str)
    (res : Option (Result α)) :
  (cacheStore cache uid cmd idemKey res).lookup uid
    = some ⟨res.getD ⟨.empty, none⟩, cmd, idemKey⟩
  := by
  rw [cacheStore, if_neg huid, AList.lookup_insert]

/-- A result from the cache is that of the ADD in the entry. -/
theorem entry_of_answerFromCache {entry : Option (Entry α)} {resp : Response} {r : Result α}
    (h : answerFromCache cfg req entry = some (resp, some r)) :
  ∃ e, entry = some e ∧ e.lastCmd = cmdADD ∧ e.result = r
  := by
  cases entry with
  | none => grind [answerFromCache]
  | some e => grind [answerFromCache, Entry.Repeats]

variable (cfg) in
/-- An ADD of the same operation is answered with the result of the entry. -/
theorem answerFromCache_of_repeats {entry : Entry α} (hcmd : req.cmd = cmdADD)
    (h : entry.Repeats req) :
  ∃ resp, answerFromCache cfg req (some entry) = some (resp, some entry.result)
  := by
  simp [answerFromCache, hcmd, h]

/-- Only an ADD or a DEL that repeats no operation goes on to the router. -/
theorem answerFromCache_eq_none {entry : Option (Entry α)}
    (h : answerFromCache cfg req entry = none) :
  (req.cmd = cmdADD ∨ req.cmd = cmdDEL) ∧ ∀ e ∈ entry, ¬ e.Repeats req
  := by
  cases entry with
  | none => grind [answerFromCache]
  | some e => grind [answerFromCache]

variable (cfg input s req) in
theorem lookupCache_shared (tenantID : String) :
  (lookupCache cfg input s req tenantID).2
    = { s with cache := (cacheGet s.cache input.expired req.podUID).2 }
  := by
  cases h : answerFromCache cfg req (cacheGet s.cache input.expired req.podUID).1 <;>
    simp [lookupCache, h]

variable (cfg input s req) in
/-- After its lookup a handler has its answer, or goes on to the router. -/
theorem lookupCache_cases (tenantID : String) :
  (∃ resp cached,
      answerFromCache cfg req (cacheGet s.cache input.expired req.podUID).1 = some (resp, cached)
        ∧ (lookupCache cfg input s req tenantID).1 = .answered req resp cached s.log)
    ∨ answerFromCache cfg req (cacheGet s.cache input.expired req.podUID).1 = none
        ∧ (lookupCache cfg input s req tenantID).1 = .routing req tenantID s.log
  := by
  cases h : answerFromCache cfg req (cacheGet s.cache input.expired req.podUID).1 with
  | none =>
    right
    simp [lookupCache, h]
  | some answer =>
    left
    use answer.1, answer.2
    simp [lookupCache, h]

variable (cfg input s req) in
/-- A request is answered without a lookup, or it is looked up. -/
theorem handleRequest_cases :
  (∃ resp, handleRequest cfg input s req = (.direct req resp, s))
    ∨ (Handler.received req : Handler α).LooksUp input
      ∧ ∃ tenantID, handleRequest cfg input s req = lookupCache cfg input s req tenantID
  := by
  simp only [handleRequest]
  split
  · left
    exact ⟨_, rfl⟩
  split
  · left
    exact ⟨_, rfl⟩
  split
  · left
    exact ⟨_, rfl⟩
  case isFalse hcmd =>
    split
    · left
      exact ⟨_, rfl⟩
    case h_2 tenantID hresolve =>
      right
      refine ⟨⟨by tauto, ?_⟩, tenantID, rfl⟩
      rw [hresolve]
      rfl

end

end Cni
