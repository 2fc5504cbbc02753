import Misokube.Lib.Threads
import Misokube.Nmanager.Steps

/-!
# Waiting for the expansion of a tenant

Calls of `requestTenantExpansion` for one tenant as threads.  A call that finds no expansion makes
a channel, expands the tenant, publishes the result in the record and closes the channel; the other
calls wait for the channel and then read the published result.  A section under the lock, the
expansion, the end of a wait and the closing of the channel are one step each.  A channel keeps the
result of its expansion, which only the statements use.

There is at most one expansion at a time.  But the result that is read is that of the last
expansion, so a call returns the result of the expansion it has waited for if no other result is
published in between (`after_exact_waiters`).
-/

namespace Nmanager.Waiters

open Net Trie

/-- An error of Go, or nil. -/
abbrev Result := Except Error Unit

/-- A channel: whether it is closed, and what its expansion has returned. -/
structure Channel where
  closed : Bool
  outcome : Option Result
deriving DecidableEq

/-- What the calls share: the network manager, two fields of the record of the tenant, and the
channels that were made. -/
structure Shared where
  nm : NetworkManager
  expandCh : Option ℕ
  lastExpandErr : Result
  channels : List Channel

/-- A call for the tenant: a request for an expansion, or the beginning of `RemoveTenant`, which
marks the record and leaves it in place. -/
inductive Call where
  | requestTenantExpansion
  | removeTenant

/-- Where a call is, or how it has returned. -/
inductive Thread where
  | claim
  | expand (waitCh : ℕ)
  | publish (waitCh : ℕ) (err : Result)
  | close (waitCh : ℕ) (err : Result)
  | wait (waitCh : ℕ)
  | read (waitCh : ℕ)
  | mark
  | marked
  | refused (err : Error)
  | expanded (waitCh : ℕ) (err : Result)
  | cancelled (waitCh : ℕ)
  | waited (waitCh : ℕ) (err : Result)
  | panicked
deriving DecidableEq

/-- The thread of a call. -/
def Call.start : Call → Thread
  | .requestTenantExpansion => .claim
  | .removeTenant => .mark

/-- What a call is told in a step: the outcomes of an expansion, and whether its context is done and
the wait ends by that. -/
structure Input where
  outcomes : Outcomes
  done : Bool

/-- The next step of a call for the tenant `tenantID`.  A wait goes on while the channel is open;
closing a closed channel is a panic. -/
def Thread.next (tenantID : String) (input : Input) (s : Shared) : Thread → Thread × Shared
  | .claim =>
    match s.nm.tenantRecords.lookup tenantID with
    | none => (.refused .tenantActorNotFound, s)
    | some r =>
      if r.state = .closing then (.refused .tenantClosing, s)
      else
        match s.expandCh with
        | some waitCh => (.wait waitCh, s)
        | none =>
          (.expand s.channels.length, { s with
            expandCh := some s.channels.length
            channels := s.channels ++ [⟨false, none⟩] })
  | .expand waitCh =>
    let err := (s.nm.expandTenant input.outcomes tenantID).1.map fun _ => ()
    (.publish waitCh err, { s with
      nm := (s.nm.expandTenant input.outcomes tenantID).2
      channels := s.channels.modify waitCh fun c => { c with outcome := some err } })
  | .publish waitCh err =>
    match s.nm.tenantRecords.lookup tenantID with
    | none => (.close waitCh err, s)
    | some _ =>
      if s.expandCh = some waitCh then
        (.close waitCh err, { s with lastExpandErr := err, expandCh := none })
      else (.close waitCh err, s)
  | .close waitCh err =>
    if s.channels[waitCh]?.any Channel.closed then (.panicked, s)
    else
      (.expanded waitCh err, { s with
        channels := s.channels.modify waitCh fun c => { c with closed := true } })
  | .wait waitCh =>
    if input.done then (.cancelled waitCh, s)
    else if s.channels[waitCh]?.any Channel.closed then (.read waitCh, s)
    else (.wait waitCh, s)
  | .read waitCh =>
    match s.nm.tenantRecords.lookup tenantID with
    | none => (.waited waitCh (.error .tenantActorNotFound), s)
    | some _ => (.waited waitCh s.lastExpandErr, s)
  | .mark =>
    match s.nm.tenantRecords.lookup tenantID with
    | none => (.marked, s)
    | some r => (.marked, { s with nm := s.nm.put tenantID { r with state := .closing } })
  | t => (t, s)

/-- The calls for the tenant. -/
abbrev Calls := Threads.System Shared Thread

/-- A new call, or the next step of one. -/
abbrev Action := Threads.Action Call Input

def act (tenantID : String) : Calls → Action → Unit × Calls :=
  Threads.step Call.start (Thread.next tenantID)

/-- No call, and no expansion in flight; `err` is the result of the last one. -/
def start (nm : NetworkManager) (err : Result) : Calls :=
  ⟨⟨nm, none, err, []⟩, []⟩

/-! ### Statements -/

/-- The call is between its claim and its publication. -/
def Thread.isExpanding : Thread → Bool
  | .expand _ => true
  | .publish _ _ => true
  | _ => false

/-- The channel a call waits for, until it has read the result. -/
def Thread.awaits : Thread → Option ℕ
  | .wait waitCh => some waitCh
  | .read waitCh => some waitCh
  | _ => none

/-- The channel and the result of a call that is about to publish it. -/
def Thread.publishes : Thread → Option (ℕ × Result)
  | .publish waitCh err => some (waitCh, err)
  | _ => none

/-- The channel a call has made, with its state. -/
def Thread.channel : Thread → Option (ℕ × Channel)
  | .expand waitCh => some (waitCh, ⟨false, none⟩)
  | .publish waitCh err => some (waitCh, ⟨false, some err⟩)
  | .close waitCh err => some (waitCh, ⟨false, some err⟩)
  | .expanded waitCh err => some (waitCh, ⟨true, some err⟩)
  | _ => none

/-- What the expansion of a channel has returned. -/
def Shared.outcome (s : Shared) (waitCh : ℕ) : Option Result :=
  s.channels[waitCh]?.bind Channel.outcome

/-- At most one expansion is in progress, and no call is forgotten: the channel it waits for is
closed, or the call that will close it has not returned. -/
structure Served (s : Calls) : Prop where
  single : s.threads.countP Thread.isExpanding ≤ 1
  pending : ∀ t ∈ s.threads, ∀ waitCh ∈ t.awaits, s.shared.channels[waitCh]?.any Channel.closed
    ∨ ∃ t' ∈ s.threads, ∃ c, t'.channel = some (waitCh, c) ∧ c.closed = false
  safe : .panicked ∉ s.threads

/-- Every call that has waited returns what the expansion it has waited for returns. -/
structure Exact (s : Calls) : Prop where
  waited : ∀ waitCh err, .waited waitCh err ∈ s.threads → s.shared.outcome waitCh = some err
  expanded : ∀ waitCh err, .expanded waitCh err ∈ s.threads → s.shared.outcome waitCh = some err

/-- A result is published when no call has still to read that of an earlier expansion, unless the
result is the same. -/
def InTime (s : Calls) : Action → Prop
  | .call _ => True
  | .run i _ => ∀ t ∈ s.threads[i]?, ∀ p ∈ t.publishes,
    ∀ t' ∈ s.threads, ∀ waitCh ∈ t'.awaits, waitCh ≠ p.1 → p.2 = s.shared.lastExpandErr

instance (s : Calls) : (a : Action) → Decidable (InTime s a)
  | .call _ => inferInstanceAs (Decidable True)
  | .run i _ => inferInstanceAs (Decidable (∀ t ∈ s.threads[i]?, ∀ p ∈ t.publishes,
    ∀ t' ∈ s.threads, ∀ waitCh ∈ t'.awaits, waitCh ≠ p.1 → p.2 = s.shared.lastExpandErr))

/-! ### Channels and their calls -/

/-- The channel a call has made. -/
def Thread.owns (t : Thread) : Option ℕ :=
  t.channel.map Prod.fst

/-- A call that has made a channel finds it in the state it has left it in, and the channel is in
the record while the call expands the tenant. -/
structure Good (s : Shared) (t : Thread) : Prop where
  channel : ∀ p ∈ t.channel, s.channels[p.1]? = some p.2
  expanding : ∀ waitCh ∈ t.owns, s.expandCh = some waitCh ↔ t.isExpanding = true
  awaits : ∀ waitCh ∈ t.awaits, waitCh < s.channels.length
  read : ∀ waitCh, t = .read waitCh → s.channels[waitCh]?.any Channel.closed = true
  safe : t ≠ .panicked

/-- The record is there, and every channel has been made by exactly one call. -/
structure Sound (tenantID : String) (s : Calls) : Prop where
  record : (s.shared.nm.tenantRecords.lookup tenantID).isSome
  good : ∀ t ∈ s.threads, Good s.shared t
  owned : Threads.Owned Thread.owns s.shared.channels.length s.threads
  claimed : ∀ waitCh ∈ s.shared.expandCh, waitCh < s.shared.channels.length

/-! ### The steps -/

/-- The call has no channel, waits for none and has not waited. -/
def Thread.isFree : Thread → Bool
  | .claim => true
  | .mark => true
  | .marked => true
  | .refused _ => true
  | .cancelled _ => true
  | _ => false

/-- What the step of a call does while the record is in place. -/
inductive Step (tenantID : String) (s : Shared) : Thread → Thread → Shared → Prop where
  | claim : s.expandCh = none →
    Step tenantID s .claim (.expand s.channels.length) { s with
      expandCh := some s.channels.length
      channels := s.channels ++ [⟨false, none⟩] }
  | join {waitCh : ℕ} : s.expandCh = some waitCh → Step tenantID s .claim (.wait waitCh) s
  | expand {waitCh : ℕ} {err : Result} {nm : NetworkManager} :
    (nm.tenantRecords.lookup tenantID).isSome →
    Step tenantID s (.expand waitCh) (.publish waitCh err) { s with
      nm := nm
      channels := s.channels.modify waitCh fun c => { c with outcome := some err } }
  | publish {waitCh : ℕ} {err : Result} : s.expandCh = some waitCh →
    Step tenantID s (.publish waitCh err) (.close waitCh err) { s with
      lastExpandErr := err
      expandCh := none }
  | close {waitCh : ℕ} {err : Result} :
    Step tenantID s (.close waitCh err) (.expanded waitCh err) { s with
      channels := s.channels.modify waitCh fun c => { c with closed := true } }
  | wake {waitCh : ℕ} : s.channels[waitCh]?.any Channel.closed = true →
    Step tenantID s (.wait waitCh) (.read waitCh) s
  | read {waitCh : ℕ} : Step tenantID s (.read waitCh) (.waited waitCh s.lastExpandErr) s
  | leave {t t' : Thread} {nm : NetworkManager} : t.channel = none → t'.isFree = true →
    (nm.tenantRecords.lookup tenantID).isSome → Step tenantID s t t' { s with nm := nm }
  | stay {t : Thread} : Step tenantID s t t s

section

variable {tenantID : String} {s : Calls} {σ σ' : Shared} {t t' : Thread} {i : ℕ}

/-- A step of another call: the channel of this one is as before, and closed channels stay
closed. -/
theorem Good.keep (h : Good σ t)
    (hown : ∀ waitCh ∈ t.owns, σ'.channels[waitCh]? = σ.channels[waitCh]?
      ∧ (σ'.expandCh = some waitCh ↔ σ.expandCh = some waitCh))
    (hlength : σ.channels.length ≤ σ'.channels.length)
    (hclosed : ∀ waitCh : ℕ, σ.channels[waitCh]?.any Channel.closed = true →
      σ'.channels[waitCh]?.any Channel.closed = true) :
  Good σ' t
  := by
  constructor
  · intro p hp
    have howns : p.1 ∈ t.owns := Option.mem_map_of_mem Prod.fst hp
    rw [(hown p.1 howns).1]
    apply h.channel p hp
  · intro waitCh howns
    rw [(hown waitCh howns).2]
    apply h.expanding waitCh howns
  · intro waitCh hwait
    apply Nat.lt_of_lt_of_le (h.awaits waitCh hwait) hlength
  · intro waitCh hread
    apply hclosed waitCh (h.read waitCh hread)
  · exact h.safe

/-- What a step of the call `i` has to keep. -/
theorem Sound.run (h : Sound tenantID s) (ht : s.threads[i]? = some t)
    (hrecord : (σ'.nm.tenantRecords.lookup tenantID).isSome) (hgood : Good σ' t')
    (hothers : ∀ u ∈ s.threads, (∀ waitCh ∈ u.owns, waitCh ∉ t.owns) → Good s.shared u → Good σ' u)
    (howned : Threads.Owned Thread.owns σ'.channels.length (s.threads.set i t'))
    (hclaimed : ∀ waitCh ∈ σ'.expandCh, waitCh < σ'.channels.length) :
  Sound tenantID ⟨σ', s.threads.set i t'⟩
  := by
  refine ⟨hrecord, ?_, howned, hclaimed⟩
  apply Threads.forall_mem_set h.good hgood
  intro j u hj hu hgood'
  apply hothers u (List.mem_of_getElem? hu) _ hgood'
  intro waitCh huowns htowns
  apply hj
  apply h.owned.unique j i u t waitCh hu ht huowns htowns

/-- A step that changes neither the channels nor which one is in the record. -/
theorem Sound.run_same (h : Sound tenantID s) (ht : s.threads[i]? = some t)
    (hrecord : (σ'.nm.tenantRecords.lookup tenantID).isSome)
    (hchannels : σ'.channels = s.shared.channels) (hexpandCh : σ'.expandCh = s.shared.expandCh)
    (howns : t'.owns = t.owns) (hgood : Good σ' t') :
  Sound tenantID ⟨σ', s.threads.set i t'⟩
  := by
  apply h.run ht hrecord hgood
  · intro u _ _ hu
    apply hu.keep
    · intro waitCh _
      rw [hchannels, hexpandCh]
      exact ⟨rfl, Iff.rfl⟩
    · rw [hchannels]
    · rw [hchannels]
      exact fun _ => id
  · rw [hchannels]
    apply h.owned.set_same ht howns
  · rw [hexpandCh, hchannels]
    exact h.claimed

theorem Thread.channel_of_isFree (h : t.isFree = true) :
  t.channel = none
  := by
  cases t <;> first | rfl | cases h

theorem Thread.awaits_of_isFree (h : t.isFree = true) :
  t.awaits = none
  := by
  cases t <;> first | rfl | cases h

/-- A call without a channel. -/
theorem good_of_none (hnone : t.channel = none)
    (hawaits : ∀ waitCh ∈ t.awaits, waitCh < σ.channels.length)
    (hread : ∀ waitCh, t = .read waitCh → σ.channels[waitCh]?.any Channel.closed = true)
    (hsafe : t ≠ .panicked) :
  Good σ t
  := by
  constructor
  · simp [hnone]
  · simp [Thread.owns, hnone]
  · exact hawaits
  · exact hread
  · exact hsafe

theorem good_of_isFree (h : t.isFree = true) :
  Good σ t
  := by
  apply good_of_none (Thread.channel_of_isFree h)
  · simp [Thread.awaits_of_isFree h]
  · rintro waitCh rfl
    cases h
  · rintro rfl
    cases h

theorem isSome_expandTenant (o : Outcomes) {nm : NetworkManager}
    (h : (nm.tenantRecords.lookup tenantID).isSome) :
  ((nm.expandTenant o tenantID).2.tenantRecords.lookup tenantID).isSome
  := by
  rw [NetworkManager.expandTenant]
  split
  · exact h
  split
  · exact h
  · dsimp only
    split
    · simp [NetworkManager.put]
    · split_ifs
      · simp [NetworkManager.put]
      · split
        · simp [NetworkManager.put]
        · simp [NetworkManager.put]

/-- A new channel. -/
theorem Sound.claim (h : Sound tenantID s) (ht : s.threads[i]? = some .claim)
    (hnone : s.shared.expandCh = none) :
  Sound tenantID ⟨{ s.shared with
      expandCh := some s.shared.channels.length
      channels := s.shared.channels ++ [⟨false, none⟩] },
    s.threads.set i (.expand s.shared.channels.length)⟩
  := by
  apply h.run ht
  · exact h.record
  · constructor
    · rintro p ⟨⟩
      simp
    · rintro waitCh ⟨⟩
      simp [Thread.isExpanding]
    · rintro waitCh ⟨⟩
    · rintro waitCh ⟨⟩
    · rintro ⟨⟩
  · intro u hmem _ hu
    apply hu.keep
    · intro waitCh howns
      have hlt := h.owned.lt u hmem waitCh howns
      rw [hnone, List.getElem?_append_left hlt]
      simp
      omega
    · simp
    · intro waitCh hclosed
      have hlt : waitCh < s.shared.channels.length := by
        by_contra hnot
        rw [List.getElem?_eq_none (by omega)] at hclosed
        cases hclosed
      rwa [List.getElem?_append_left hlt]
  · rw [List.length_append]
    apply h.owned.set_next ht rfl rfl
  · rintro waitCh ⟨⟩
    simp

/-- The state of the channel of a call changes, from an open one. -/
theorem Sound.modify (h : Sound tenantID s) (ht : s.threads[i]? = some t) (t' : Thread)
    (f : Channel → Channel) {waitCh : ℕ} {c : Channel} (hold : t.channel = some (waitCh, c))
    (hnew : t'.channel = some (waitCh, f c)) (hopen : c.closed = false)
    (hexpanding : t'.isExpanding = t.isExpanding) (hawaits : t'.awaits = none)
    {nm : NetworkManager} (hrecord : (nm.tenantRecords.lookup tenantID).isSome) :
  Sound tenantID ⟨{ s.shared with nm := nm, channels := s.shared.channels.modify waitCh f },
    s.threads.set i t'⟩
  := by
  have hgood := h.good t (List.mem_of_getElem? ht)
  have hchannel : s.shared.channels[waitCh]? = some c := hgood.channel _ hold
  have howns : t.owns = some waitCh := by rw [Thread.owns, hold]; rfl
  have howns' : t'.owns = some waitCh := by rw [Thread.owns, hnew]; rfl
  apply h.run ht hrecord
  · constructor
    · intro p hp
      rw [hnew] at hp
      cases hp
      simp [hchannel]
    · intro ch hch
      rw [howns'] at hch
      cases hch
      rw [hexpanding]
      apply hgood.expanding waitCh howns
    · simp [hawaits]
    · rintro ch rfl
      cases hawaits
    · rintro rfl
      cases hnew
  · intro u _ hdifferent hu
    apply hu.keep
    · intro ch hch
      have hne : waitCh ≠ ch := by
        rintro rfl
        exact hdifferent waitCh hch howns
      simp [List.getElem?_modify_ne _ _ hne]
    · simp
    · intro ch hclosed
      have hne : waitCh ≠ ch := by
        rintro rfl
        rw [hchannel, Option.any_some, hopen] at hclosed
        cases hclosed
      simpa [List.getElem?_modify_ne _ _ hne] using hclosed
  · rw [List.length_modify]
    apply h.owned.set_same ht
    rw [howns, howns']
  · intro ch hch
    simpa using h.claimed ch hch

/-- The result is published. -/
theorem Sound.publish (h : Sound tenantID s) {waitCh : ℕ} {err : Result}
    (ht : s.threads[i]? = some (.publish waitCh err)) :
  Sound tenantID ⟨{ s.shared with lastExpandErr := err, expandCh := none },
    s.threads.set i (.close waitCh err)⟩
  := by
  have hgood := h.good _ (List.mem_of_getElem? ht)
  have hexpandCh : s.shared.expandCh = some waitCh := (hgood.expanding waitCh rfl).mpr rfl
  apply h.run ht
  · exact h.record
  · constructor
    · rintro p ⟨⟩
      apply hgood.channel _ rfl
    · rintro ch ⟨⟩
      simp [Thread.isExpanding]
    · rintro ch ⟨⟩
    · rintro ch ⟨⟩
    · rintro ⟨⟩
  · intro u _ hdifferent hu
    apply hu.keep
    · intro ch hch
      have hne : ch ≠ waitCh := by
        rintro rfl
        exact hdifferent ch hch rfl
      rw [hexpandCh]
      simp [Ne.symm hne]
    · exact Nat.le_refl _
    · exact fun _ => id
  · apply h.owned.set_same ht
    rfl
  · rintro ch ⟨⟩

/-- The record is in place, a call that publishes finds its channel in the record, and a call that
closes its channel finds it open. -/
theorem Sound.step (h : Sound tenantID s) (ht : s.threads[i]? = some t) (input : Input) :
  Step tenantID s.shared t (t.next tenantID input s.shared).1 (t.next tenantID input s.shared).2
  := by
  have hgood := h.good t (List.mem_of_getElem? ht)
  obtain ⟨r, hr⟩ := Option.isSome_iff_exists.mp h.record
  cases t with
  | claim =>
    simp only [Thread.next, hr]
    split_ifs
    · exact .leave rfl rfl h.record
    · split
      · next waitCh hwait => exact .join hwait
      · next hnone => exact .claim hnone
  | expand waitCh => exact .expand (isSome_expandTenant _ h.record)
  | publish waitCh err =>
    have hexpandCh : s.shared.expandCh = some waitCh := (hgood.expanding waitCh rfl).mpr rfl
    simp only [Thread.next, hr, if_pos hexpandCh]
    exact .publish hexpandCh
  | close waitCh err =>
    have hchannel : s.shared.channels[waitCh]? = some ⟨false, some err⟩ := hgood.channel _ rfl
    have hopen : ¬ s.shared.channels[waitCh]?.any Channel.closed = true := by simp [hchannel]
    simp only [Thread.next, if_neg hopen]
    exact .close
  | wait waitCh =>
    simp only [Thread.next]
    split_ifs with hdone hclosed
    · exact .leave rfl rfl h.record
    · exact .wake hclosed
    · exact .stay
  | read waitCh =>
    simp only [Thread.next, hr]
    exact .read
  | mark =>
    simp only [Thread.next, hr]
    apply Step.leave rfl rfl
    simp [NetworkManager.put]
  | _ => exact .stay

/-- One step of a call. -/
theorem Sound.next (h : Sound tenantID s) (ht : s.threads[i]? = some t)
    (hstep : Step tenantID s.shared t t' σ') :
  Sound tenantID ⟨σ', s.threads.set i t'⟩
  := by
  have hgood := h.good t (List.mem_of_getElem? ht)
  cases hstep with
  | claim hnone => apply h.claim ht hnone
  | join hwait =>
    refine h.run_same ht h.record rfl rfl rfl (good_of_none rfl ?_ ?_ ?_)
    · rintro ch ⟨⟩
      apply h.claimed _ hwait
    · rintro ch ⟨⟩
    · rintro ⟨⟩
  | expand hrecord => apply h.modify ht (.publish _ _) _ rfl rfl rfl rfl rfl hrecord
  | publish hexpandCh => apply h.publish ht
  | close => apply h.modify ht (.expanded _ _) _ rfl rfl rfl rfl rfl h.record
  | wake hclosed =>
    refine h.run_same ht h.record rfl rfl rfl (good_of_none rfl ?_ ?_ ?_)
    · rintro ch ⟨⟩
      apply hgood.awaits _ rfl
    · rintro ch ⟨⟩
      exact hclosed
    · rintro ⟨⟩
  | read =>
    refine h.run_same ht h.record rfl rfl rfl (good_of_none rfl ?_ ?_ ?_)
    · rintro ch ⟨⟩
    · rintro ch ⟨⟩
    · rintro ⟨⟩
  | leave hnone hfree hrecord =>
    refine h.run_same ht hrecord rfl rfl ?_ (good_of_isFree hfree)
    rw [Thread.owns, Thread.owns, hnone, Thread.channel_of_isFree hfree]
  | stay => apply h.run_same ht h.record rfl rfl rfl hgood

/-- A new call. -/
theorem Sound.call (h : Sound tenantID s) (c : Call) :
  Sound tenantID ⟨s.shared, s.threads ++ [c.start]⟩
  := by
  have hfree : c.start.isFree = true := by cases c <;> rfl
  have howns : c.start.owns = none := by
    rw [Thread.owns, Thread.channel_of_isFree hfree]
    rfl
  refine ⟨h.record, ?_, h.owned.concat howns, h.claimed⟩
  intro t ht
  rw [List.mem_append, List.mem_singleton] at ht
  obtain ht | rfl := ht
  · apply h.good t ht
  · apply good_of_isFree hfree

theorem act_sound (s : Calls) (a : Action) (h : Sound tenantID s) :
  Sound tenantID (act tenantID s a).2
  := by
  cases a with
  | call c => apply h.call c
  | run i input =>
    rw [act, Threads.step]
    split
    · exact h
    · next t ht => apply h.next ht (h.step ht input)

theorem start_sound {nm : NetworkManager} (h : (nm.tenantRecords.lookup tenantID).isSome)
    (err : Result) :
  Sound tenantID (start nm err)
  := by
  refine ⟨h, ?_, Threads.owned_nil, ?_⟩
  · simp [start]
  · simp [start]

/-- Two calls that expand the tenant have the channel in the record, so they are the same. -/
theorem Sound.served (h : Sound tenantID s) :
  Served s
  := by
  have howns : ∀ (j : ℕ) (u : Thread), s.threads[j]? = some u →
      u.isExpanding = true → ∃ waitCh, u.owns = some waitCh ∧ s.shared.expandCh = some waitCh := by
    intro j u hu hexpanding
    have hgood := h.good u (List.mem_of_getElem? hu)
    obtain ⟨waitCh, hwaitCh⟩ : ∃ waitCh, u.owns = some waitCh := by
      cases u with
      | expand waitCh => exact ⟨waitCh, rfl⟩
      | publish waitCh err => exact ⟨waitCh, rfl⟩
      | _ => cases hexpanding
    exact ⟨waitCh, hwaitCh, (hgood.expanding waitCh hwaitCh).mpr hexpanding⟩
  constructor
  · apply Threads.countP_le_one
    intro j k u u' hu hu' hexpanding hexpanding'
    obtain ⟨waitCh, huowns, hrecord⟩ := howns j u hu hexpanding
    obtain ⟨waitCh', huowns', hrecord'⟩ := howns k u' hu' hexpanding'
    rw [hrecord, Option.some.injEq] at hrecord'
    subst hrecord'
    apply h.owned.unique j k u u' waitCh hu hu' huowns huowns'
  · intro t ht waitCh hwait
    obtain ⟨t', ht', howns'⟩ := h.owned.owner waitCh ((h.good t ht).awaits waitCh hwait)
    obtain ⟨⟨ch, c⟩, hchannel, rfl⟩ := Option.map_eq_some_iff.mp howns'
    cases hc : c.closed with
    | false => exact Or.inr ⟨t', ht', c, hchannel, hc⟩
    | true =>
      left
      rw [(h.good t' ht').channel _ hchannel, Option.any_some, hc]
  · intro hmem
    exact (h.good _ hmem).safe rfl

/-! ### Results that are read in time -/

/-- The channel and the result of a call that has waited. -/
def Thread.result : Thread → Option (ℕ × Result)
  | .waited waitCh err => some (waitCh, err)
  | _ => none

/-- The last result is that of the expansion a call waits for, unless this is still in progress, and
a call that has waited returns the result of its expansion. -/
structure Timed (s : Shared) (t : Thread) : Prop where
  pending : ∀ waitCh ∈ t.awaits, s.expandCh ≠ some waitCh →
    s.outcome waitCh = some s.lastExpandErr
  waited : ∀ p ∈ t.result, s.outcome p.1 = some p.2

theorem timed_of_none (hawaits : t.awaits = none) (hresult : t.result = none) :
  Timed σ t
  := by
  constructor
  · simp [hawaits]
  · simp [hresult]

theorem timed_of_isFree (h : t.isFree = true) :
  Timed σ t
  := by
  apply timed_of_none (Thread.awaits_of_isFree h)
  cases t <;> first | rfl | cases h

/-- The result of an expansion does not change. -/
theorem Good.outcome_step (hgood : Good σ t) (hstep : Step tenantID σ t t' σ') {waitCh : ℕ}
    {err : Result} (houtcome : σ.outcome waitCh = some err) :
  σ'.outcome waitCh = some err
  := by
  obtain ⟨c, hc, herr⟩ := Option.bind_eq_some_iff.mp houtcome
  cases hstep with
  | claim hnone =>
    have hlt := (List.getElem?_eq_some_iff.mp hc).1
    rw [Shared.outcome, List.getElem?_append_left hlt]
    exact houtcome
  | @expand ch err nm hrecord =>
    -- the channel has no result yet
    have hne : ch ≠ waitCh := by
      rintro rfl
      have hchannel : σ.channels[ch]? = some ⟨false, none⟩ := hgood.channel _ rfl
      rw [hchannel] at hc
      cases hc
      cases herr
    rw [Shared.outcome, List.getElem?_modify_ne _ _ hne]
    exact houtcome
  | close =>
    rw [Shared.outcome, List.getElem?_modify, hc, Option.map_eq_map, Option.map_some,
      Option.bind_some]
    split_ifs <;> exact herr
  | _ => exact houtcome

/-- A step that publishes nothing leaves the last result, and the expansions in progress too. -/
theorem Step.last (hstep : Step tenantID σ t t' σ') (ht : t.publishes = none) {waitCh : ℕ}
    (hne : σ'.expandCh ≠ some waitCh) :
  σ.expandCh ≠ some waitCh ∧ σ'.lastExpandErr = σ.lastExpandErr
  := by
  cases hstep with
  | claim hnone => simp [hnone]
  | publish hexpandCh => cases ht
  | _ => exact ⟨hne, rfl⟩

/-- A closed channel is not in the record. -/
theorem Sound.ne_of_closed (h : Sound tenantID s) {waitCh : ℕ}
    (hclosed : s.shared.channels[waitCh]?.any Channel.closed = true) :
  s.shared.expandCh ≠ some waitCh
  := by
  intro hrecord
  obtain ⟨u, hu, howns⟩ := h.owned.owner waitCh (h.claimed waitCh hrecord)
  have hgood := h.good u hu
  have hexpanding := (hgood.expanding waitCh howns).mp hrecord
  -- while a call expands the tenant its channel is open
  cases u with
  | expand ch =>
    cases howns
    have hchannel : s.shared.channels[ch]? = some ⟨false, none⟩ := hgood.channel _ rfl
    simp [hchannel] at hclosed
  | publish ch err =>
    cases howns
    have hchannel : s.shared.channels[ch]? = some ⟨false, some err⟩ := hgood.channel _ rfl
    simp [hchannel] at hclosed
  | _ => cases hexpanding

/-- The other calls when a call takes a step in time. -/
theorem Sound.timed_others (h : Sound tenantID s) (ht : s.threads[i]? = some t)
    (hstep : Step tenantID s.shared t t' σ') {input : Input} (hcond : InTime s (.run i input))
    {u : Thread} (hu : u ∈ s.threads) (htimed : Timed s.shared u) :
  Timed σ' u
  := by
  have hgood := h.good t (List.mem_of_getElem? ht)
  constructor
  · intro waitCh hwait hne
    cases hpublishes : t.publishes with
    | none =>
      obtain ⟨hne', hlast⟩ := hstep.last hpublishes hne
      rw [hlast]
      apply hgood.outcome_step hstep (htimed.pending waitCh hwait hne')
    | some p =>
      cases hstep with
      | @publish ch err hexpandCh =>
        by_cases hch : waitCh = ch
        · -- the result of the expansion the call waits for
          subst hch
          have hchannel : s.shared.channels[waitCh]? = some ⟨false, some err⟩ :=
            hgood.channel _ rfl
          rw [Shared.outcome, hchannel]
          rfl
        · -- an earlier expansion has had the same result
          have hne' : s.shared.expandCh ≠ some waitCh := by
            rw [hexpandCh, ne_eq, Option.some.injEq]
            exact Ne.symm hch
          have hsame : err = s.shared.lastExpandErr :=
            hcond _ ht (ch, err) rfl u hu waitCh hwait hch
          rw [hsame]
          apply htimed.pending waitCh hwait hne'
      | leave hnone =>
        cases t with
        | publish ch err => cases hnone
        | _ => cases hpublishes
      | stay => apply htimed.pending waitCh hwait hne
      | _ => cases hpublishes
  · intro p hp
    apply hgood.outcome_step hstep (htimed.waited p hp)

/-- The call that takes the step. -/
theorem Sound.timed_self (h : Sound tenantID s) (ht : t ∈ s.threads)
    (hstep : Step tenantID s.shared t t' σ') (htimed : Timed s.shared t) :
  Timed σ' t'
  := by
  cases hstep with
  | join hwait =>
    constructor
    · rintro ch ⟨⟩ hne
      exact absurd hwait hne
    · rintro p ⟨⟩
  | wake hclosed =>
    constructor
    · exact htimed.pending
    · rintro p ⟨⟩
  | @read waitCh =>
    constructor
    · rintro ch ⟨⟩
    · rintro p ⟨⟩
      apply htimed.pending waitCh rfl
      apply h.ne_of_closed
      apply (h.good _ ht).read waitCh rfl
  | leave hnone hfree hrecord => apply timed_of_isFree hfree
  | stay => exact htimed
  | _ => apply timed_of_none rfl rfl

theorem act_timed (s : Calls) (a : Action)
    (h : Sound tenantID s ∧ ∀ t ∈ s.threads, Timed s.shared t) (hcond : InTime s a) :
  Sound tenantID (act tenantID s a).2
    ∧ ∀ t ∈ (act tenantID s a).2.threads, Timed (act tenantID s a).2.shared t
  := by
  refine ⟨act_sound s a h.1, ?_⟩
  cases a with
  | call c =>
    intro t ht
    obtain ht | ht := List.mem_append.mp ht
    · apply h.2 t ht
    · rw [List.mem_singleton] at ht
      subst ht
      apply timed_of_isFree
      cases c <;> rfl
  | run i input =>
    rw [act, Threads.step]
    split
    · exact h.2
    · next t ht =>
      have hmem := List.mem_of_getElem? ht
      have hstep := h.1.step ht input
      refine Threads.forall_mem_set h.2 (h.1.timed_self hmem hstep (h.2 t hmem)) ?_
      intro j u _ hu htimed
      apply h.1.timed_others ht hstep hcond (List.mem_of_getElem? hu) htimed

end

/-- In every run there is at most one expansion at a time and no call is forgotten; and if every
result is published in time then every call that has waited returns the result of the expansion it
has waited for. -/
theorem after_exact_waiters {tenantID : String} {nm : NetworkManager}
    (hrecord : (nm.tenantRecords.lookup tenantID).isSome) (err : Result) (actions : List Action) :
  Served (Machine.after (act tenantID) (start nm err) actions)
    ∧ (Machine.Meets (act tenantID) InTime (start nm err) actions →
      Exact (Machine.after (act tenantID) (start nm err) actions))
  := by
  have hstart := start_sound hrecord err
  constructor
  · apply (Machine.after_of_forall act_sound hstart actions).served
  · intro hmeets
    have hnone : ∀ t ∈ (start nm err).threads, Timed (start nm err).shared t := by
      intro t ht
      cases ht
    obtain ⟨hsound, htimed⟩ := Machine.after_of_meets act_timed ⟨hstart, hnone⟩ hmeets
    constructor
    · intro waitCh err hmem
      apply (htimed _ hmem).waited (waitCh, err) rfl
    · intro waitCh err hmem
      have hchannel := (hsound.good _ hmem).channel _ rfl
      rw [Shared.outcome, hchannel]
      rfl

/-- The next step of a call whose context is not done, in which nothing fails. -/
def succeed (i : ℕ) : Action :=
  .run i ⟨.success, false⟩

/-- The network manager with one tenant, which is given a leaf. -/
def withTenant (tm : TrieManager) : NetworkManager :=
  Machine.after (step default) (newNetworkManager "node" tm) [.ensureTenant "red" .success]

/-- The second call waits for the first, and reads the result before the third call expands. -/
def inTurn : List Action :=
  List.replicate 3 (.call .requestTenantExpansion)
    ++ [0, 1, 0, 0, 0, 1, 1, 2, 2, 2, 2].map succeed

/-- The second call has woken up, but the third call publishes before the second reads the
result. -/
def overtaken : List Action :=
  List.replicate 3 (.call .requestTenantExpansion)
    ++ [0, 1, 0, 0, 0, 1, 2, 2, 2, 1].map succeed

/-- The second call returns the result of the first, and the third call that of its own expansion,
which fails. -/
theorem after_exact_inTurn :
  ∃ tm, newTrieManager ⟨[10, 0, 0, 0], cidrMask 29 32⟩ 30 = some tm
    ∧ ((withTenant tm).tenantRecords.lookup "red").isSome
    ∧ Machine.Meets (act "red") InTime (start (withTenant tm) (.ok ())) inTurn
    ∧ Exact (Machine.after (act "red") (start (withTenant tm) (.ok ())) inTurn)
  := by
  obtain ⟨-, tm, hnew⟩ :=
    exists_newTrieManager_ipv4 [10, 0, 0, 0] 29 30 rfl (by decide) (by decide)
  have hrun : (newTrieManager ⟨[10, 0, 0, 0], cidrMask 29 32⟩ 30).map (fun tm =>
      (((withTenant tm).tenantRecords.lookup "red").isSome,
        decide (Machine.Meets (act "red") InTime (start (withTenant tm) (.ok ())) inTurn)))
      = some (true, true) := by
    decide +kernel
  rw [hnew, Option.map_some, Option.some.injEq, Prod.mk.injEq, decide_eq_true_eq] at hrun
  obtain ⟨hrecord, hmeets⟩ := hrun
  exact ⟨tm, hnew, hrecord, hmeets, (after_exact_waiters hrecord (.ok ()) inTurn).2 hmeets⟩

/-- The channel a call has waited for, if the call returns an error. -/
def Thread.failed : Thread → Option ℕ
  | .waited waitCh (.error _) => some waitCh
  | _ => none

/-- The second call has waited for an expansion that succeeds, and returns the error of the next
one. -/
theorem overtaken_not_exact :
  ∃ tm, newTrieManager ⟨[10, 0, 0, 0], cidrMask 29 32⟩ 30 = some tm
    ∧ ((withTenant tm).tenantRecords.lookup "red").isSome
    ∧ ¬ Exact (Machine.after (act "red") (start (withTenant tm) (.ok ())) overtaken)
  := by
  obtain ⟨-, tm, hnew⟩ :=
    exists_newTrieManager_ipv4 [10, 0, 0, 0] 29 30 rfl (by decide) (by decide)
  have hrun : (newTrieManager ⟨[10, 0, 0, 0], cidrMask 29 32⟩ 30).map (fun tm =>
      let s := Machine.after (act "red") (start (withTenant tm) (.ok ())) overtaken
      (((withTenant tm).tenantRecords.lookup "red").isSome, s.threads[1]?.bind Thread.failed,
        s.shared.outcome 0))
      = some (true, some 0, some (.ok ())) := by
    decide +kernel
  simp only [hnew, Option.map_some, Option.some.injEq, Prod.mk.injEq] at hrun
  obtain ⟨hrecord, hfailed, houtcome⟩ := hrun
  refine ⟨tm, hnew, hrecord, ?_⟩
  intro hexact
  obtain ⟨t, ht, hfailed⟩ := Option.bind_eq_some_iff.mp hfailed
  match t, hfailed with
  | .waited _ (.error _), rfl =>
    have hresult := hexact.waited 0 _ (List.mem_of_getElem? ht)
    rw [houtcome] at hresult
    cases hresult

end Nmanager.Waiters
