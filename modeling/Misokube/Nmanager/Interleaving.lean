import Misokube.Device.Addresses
import Misokube.Nmanager.Threads
import Misokube.Trie.Subnets

/-!
# Interleavings of calls for a tenant

When all calls for a tenant have returned, the tenant has a record, an actor and a network, and the
devices of its record exist, or it has none of them (`Settled`), and no call has used the managers
of a deleted backend (`ThreadSafe`).  This holds for the interleavings in which a call that finds
work to do begins it when no other call is at work, if the node network is larger than a leaf.

In general it does not hold.  Of two calls of `EnsureTenant` that find no record, the second one to
commit deletes the devices and frees the network, which are those of the first.  Of two calls of
`RemoveTenant` that find the record, the second one deletes a backend without managers.
-/

namespace Nmanager

open Net Device Trie

/-- The tenant has a record exactly if it has an actor and exactly if it has a network, and the
devices of the record exist. -/
structure Settled (id : String) (s : Shared) : Prop where
  actor_iff : (s.tenantRecords.lookup id).isSome ↔ (s.tenantActors.lookup id).isSome
  allocated_iff : (s.tenantRecords.lookup id).isSome ↔ ∃ q, s.subnet.get id = .ok q
  devices : ∀ r, s.tenantRecords.lookup id = some r → ∃ br vt,
    s.bridgeName r.backend = some br ∧ s.vtepName r.backend = some vt
      ∧ br ∈ s.links ∧ vt ∈ s.links

/-- No call has used a nil manager, and once all calls have returned the tenant is settled. -/
def ThreadSafe (id : String) (s : Calls) : Prop :=
  (∀ t ∈ s.threads, t.isPanicked = false)
    ∧ ((∀ t ∈ s.threads, t.isReturned = true) → Settled id s.shared)

/-! ### Calls at work -/

/-- The call has not begun its work, or has returned. -/
def Thread.idle : Thread → Bool
  | .ensureCheck => true
  | .removeRead => true
  | .returned _ => true
  | _ => false

/-- The call is about to find work: that of `EnsureTenant` if there is no record, and that of
`RemoveTenant` if there is one. -/
def Begins (id : String) (s : Shared) : Thread → Prop
  | .ensureCheck => s.tenantRecords.lookup id = none
  | .removeRead => (s.tenantRecords.lookup id).isSome
  | _ => False

instance (id : String) (s : Shared) : ∀ t : Thread, Decidable (Begins id s t)
  | .ensureCheck => decidable_of_iff _ Option.isNone_iff_eq_none
  | .removeRead => inferInstanceAs (Decidable ((s.tenantRecords.lookup id).isSome = true))
  | .ensureAllocate | .ensureCreate _ | .ensurePolicy _ _ | .ensureCommit _ _ _
  | .ensureDelete _ _ | .ensureDeallocate _ | .ensureActor | .removeMark _ | .removeDelete _
  | .removeDeallocate | .removeActor | .removeDropActor | .removeDropRecord | .returned _
  | .panicked => inferInstanceAs (Decidable False)

/-- A call begins its work when no call is at work. -/
def Alone (id : String) (s : Calls) : Action → Prop
  | .call _ => True
  | .run i _ => ∀ t ∈ s.threads[i]?, Begins id s.shared t → ∀ t' ∈ s.threads, t'.idle = true

instance (id : String) (s : Calls) : ∀ a : Action, Decidable (Alone id s a)
  | .call _ => inferInstanceAs (Decidable True)
  | .run i _ => inferInstanceAs (Decidable (∀ t ∈ s.threads[i]?, Begins id s.shared t →
      ∀ t' ∈ s.threads, t'.idle = true))

/-! ### Phases -/

/-- The backend has its managers and devices, and the devices exist. -/
def Live (s : Shared) (be : ℕ) : Prop :=
  ∃ br vt, s.backends[be]? = some ⟨true, some br, some vt⟩ ∧ br.name ∈ s.links ∧ vt.name ∈ s.links

/-- The tenant has neither record nor actor. -/
def Vacant (id : String) (s : Shared) : Prop :=
  s.tenantRecords.lookup id = none ∧ s.tenantActors.lookup id = none

/-- The tenant has a record with a live backend, and a network. -/
def Recorded (id : String) (s : Shared) (be : ℕ) : Prop :=
  ∃ r, s.tenantRecords.lookup id = some r ∧ r.backend = be ∧ Live s be
    ∧ (s.subnet.held id).isSome

/-- The tenant has nothing, or everything. -/
def Whole (id : String) (s : Shared) : Prop :=
  Vacant id s ∧ s.subnet.held id = none
    ∨ (∃ be, Recorded id s be) ∧ (s.tenantActors.lookup id).isSome

/-- What the tenant has while a call is at work and no other is. -/
def Thread.Phase (id : String) (s : Shared) : Thread → Prop
  | .ensureCheck => Whole id s
  | .ensureAllocate => Vacant id s ∧ s.subnet.held id = none
  | .ensureCreate _ => Vacant id s ∧ (s.subnet.held id).isSome
  | .ensurePolicy _ be => Vacant id s ∧ (s.subnet.held id).isSome ∧ Live s be
  | .ensureCommit _ be _ => Vacant id s ∧ (s.subnet.held id).isSome ∧ Live s be
  | .ensureDelete be _ => Vacant id s ∧ Live s be
  | .ensureDeallocate _ => Vacant id s
  | .ensureActor => (∃ be, Recorded id s be) ∧ s.tenantActors.lookup id = none
  | .removeRead => Whole id s
  | .removeMark be => Recorded id s be ∧ (s.tenantActors.lookup id).isSome
  | .removeDelete be => Recorded id s be ∧ (s.tenantActors.lookup id).isSome
  | .removeDeallocate => (s.tenantActors.lookup id).isSome
  | .removeActor => (s.tenantActors.lookup id).isSome ∧ s.subnet.held id = none
  | .removeDropActor => s.subnet.held id = none
  | .removeDropRecord => s.tenantActors.lookup id = none ∧ s.subnet.held id = none
  | .returned _ => Whole id s
  | .panicked => False

theorem Whole.settled {id : String} {s : Shared} (h : Whole id s) :
  Settled id s
  := by
  have hheld : (∃ q, s.subnet.get id = .ok q) ↔ (s.subnet.held id).isSome := by
    simp only [← TrieManager.held_eq_some, Option.isSome_iff_exists]
  rcases h with ⟨⟨hrecord, hactor⟩, hnone⟩ | ⟨⟨be, r, hrecord, rfl, hlive, hsome⟩, hactor⟩
  · constructor
    · simp [hrecord, hactor]
    · simp [hheld, hrecord, hnone]
    · simp [hrecord]
  · constructor
    · simp [hrecord, hactor]
    · simp [hheld, hrecord, hsome]
    · rw [hrecord]
      rintro r ⟨⟩
      obtain ⟨br, vt, hbackend, hbr, hvt⟩ := hlive
      use br.name, vt.name
      simp [Shared.bridgeName, Shared.vtepName, hbackend, hbr, hvt]

section

variable {root : IPNet} {ones bits : ℕ} {leafMask : ℤ} {id : String} {s : Shared}

/-- A new backend is live; the records, actors and networks stay. -/
theorem createDevices_ok {h : Hashes} {subnet : IPNet} {host : String} {be : ℕ} {s' : Shared}
    (hcreate : s.createDevices h id subnet host = (.ok be, s')) :
  Live s' be ∧ s'.tenantRecords = s.tenantRecords ∧ s'.tenantActors = s.tenantActors
    ∧ s'.subnet = s.subnet
  := by
  rw [Shared.createDevices] at hcreate
  split at hcreate
  · simp at hcreate
  · next b hb =>
    obtain ⟨br, vt, rfl, -, -⟩ := create_spec hb
    cases hcreate
    refine ⟨?_, rfl, rfl, rfl⟩
    use br, vt
    simp

theorem createDevices_error {h : Hashes} {subnet : IPNet} {host : String} {e : Device.Error}
    {s' : Shared} (hcreate : s.createDevices h id subnet host = (.error e, s')) :
  s'.tenantRecords = s.tenantRecords ∧ s'.tenantActors = s.tenantActors ∧ s'.subnet = s.subnet
  := by
  rw [Shared.createDevices] at hcreate
  split at hcreate
  · cases hcreate
    exact ⟨rfl, rfl, rfl⟩
  · simp at hcreate

/-- A backend with managers is deleted without a nil manager. -/
theorem delete_ne_nilManager {o : Device.Outcomes} {b : Backend} (hb : b.managers = true) :
  (b.delete o).1 ≠ .error .nilManager
  := by
  rw [Backend.delete, if_neg (by simp [hb])]
  split_ifs <;> simp

/-- Deleting a live backend uses its managers; the records, actors and networks stay. -/
theorem deleteDevices_live {be : ℕ} (h : Live s be) :
  (s.deleteDevices be).1 ≠ .error .nilManager
    ∧ (s.deleteDevices be).2.tenantRecords = s.tenantRecords
    ∧ (s.deleteDevices be).2.tenantActors = s.tenantActors
    ∧ (s.deleteDevices be).2.subnet = s.subnet
  := by
  obtain ⟨br, vt, hbackend, -, -⟩ := h
  rw [Shared.deleteDevices, hbackend]
  refine ⟨?_, rfl, rfl, rfl⟩
  apply delete_ne_nilManager rfl

end

/-! ### Steps of a call at work -/

/-- The phase of a call at work, over a manager with at least two networks. -/
def Working (root : IPNet) (leafMask : ℤ) (id : String) (s : Shared) (t : Thread) : Prop :=
  Divided root leafMask s.subnet ∧ (t.idle = false → id ≠ "") ∧ t.Phase id s

section

variable {root : IPNet} {ones bits : ℕ} {leafMask : ℤ} {id nodeName : String} {s : Shared}
  {h : Hashes} {policy : PolicyCall → Bool} {t : Thread}

/-- The checks with which the calls begin. -/
theorem check_working (ht : t = .ensureCheck ∨ t = .removeRead)
    (hw : Working root leafMask id s t) :
  Working root leafMask id (t.next h nodeName id policy s).2 (t.next h nodeName id policy s).1
  := by
  obtain ⟨hdiv, -, hwhole⟩ := hw
  rcases ht with rfl | rfl
  · rw [Thread.next]
    split_ifs with hid hrecord
    · exact ⟨hdiv, by simp [Thread.idle], hwhole⟩
    · exact ⟨hdiv, by simp [Thread.idle], hwhole⟩
    · refine ⟨hdiv, fun _ => hid, ?_⟩
      rcases hwhole with hnothing | ⟨⟨be, r, hr, -⟩, -⟩
      · exact hnothing
      · simp [hr] at hrecord
  · rw [Thread.next]
    split_ifs with hid
    · exact ⟨hdiv, by simp [Thread.idle], hwhole⟩
    · split
      · exact ⟨hdiv, by simp [Thread.idle], hwhole⟩
      · next r hr =>
        refine ⟨hdiv, fun _ => hid, ?_⟩
        rcases hwhole with ⟨⟨hnone, -⟩, -⟩ | ⟨⟨be, r', hr', hbe, hlive, hheld⟩, hactor⟩
        · simp [hr] at hnone
        · rw [hr] at hr'
          cases hr'
          exact ⟨⟨r, hr, rfl, hbe ▸ hlive, hheld⟩, hactor⟩

theorem ensureAllocate_working (hroot : IsCIDR root ones bits)
    (hw : Working root leafMask id s .ensureAllocate) :
  Working root leafMask id (Thread.next h nodeName id policy s .ensureAllocate).2
    (Thread.next h nodeName id policy s .ensureAllocate).1
  := by
  obtain ⟨hdiv, hid, hvacant, hnone⟩ := hw
  have hdiv' := hdiv.allocate hroot id
  have hcases := (hdiv.managed.allocate hroot id).2
  rw [Thread.next]
  rcases hcases with ⟨e, he, hheld⟩ | ⟨q, hq, hheld⟩
  · rw [show s.subnet.allocate id = (.error e, (s.subnet.allocate id).2) by rw [← he]]
    refine ⟨hdiv', by simp [Thread.idle], ?_⟩
    left
    use hvacant
    rw [hheld, hnone]
  · rw [show s.subnet.allocate id = (.ok q, (s.subnet.allocate id).2) by rw [← hq]]
    refine ⟨hdiv', hid, hvacant, ?_⟩
    simp [hheld]

theorem ensureCreate_working {q : IPNet} (hw : Working root leafMask id s (.ensureCreate q)) :
  Working root leafMask id (Thread.next h nodeName id policy s (.ensureCreate q)).2
    (Thread.next h nodeName id policy s (.ensureCreate q)).1
  := by
  obtain ⟨hdiv, hid, hvacant, hsome⟩ := hw
  rw [Thread.next]
  split
  · next e s' hcreate =>
    obtain ⟨hrecords, hactors, hsubnet⟩ := createDevices_error hcreate
    rw [Working, Thread.Phase, Vacant, hrecords, hactors, hsubnet]
    exact ⟨hdiv, hid, hvacant⟩
  · next be s' hcreate =>
    obtain ⟨hlive, hrecords, hactors, hsubnet⟩ := createDevices_ok hcreate
    rw [Working, Thread.Phase, Vacant, hrecords, hactors, hsubnet]
    exact ⟨hdiv, hid, hvacant, hsome, hlive⟩

theorem ensurePolicy_working {q : IPNet} {be : ℕ}
    (hw : Working root leafMask id s (.ensurePolicy q be)) :
  Working root leafMask id (Thread.next h nodeName id policy s (.ensurePolicy q be)).2
    (Thread.next h nodeName id policy s (.ensurePolicy q be)).1
  := by
  obtain ⟨hdiv, hid, hvacant, hsome, hlive⟩ := hw
  rw [Thread.next]
  split_ifs
  · exact ⟨hdiv, hid, hvacant, hlive⟩
  · split
    · exact ⟨hdiv, hid, hvacant, hlive⟩
    · exact ⟨hdiv, hid, hvacant, hsome, hlive⟩

theorem ensureCommit_working {q : IPNet} {be : ℕ} {ipm : Ipam.BitmapIPAM}
    (hw : Working root leafMask id s (.ensureCommit q be ipm)) :
  Working root leafMask id (Thread.next h nodeName id policy s (.ensureCommit q be ipm)).2
    (Thread.next h nodeName id policy s (.ensureCommit q be ipm)).1
  := by
  obtain ⟨hdiv, hid, hvacant, hsome, hlive⟩ := hw
  rw [Thread.next, hvacant.1]
  refine ⟨hdiv, hid, ⟨be, ⟨q, be, ipm, .ready⟩, ?_, rfl, hlive, hsome⟩, hvacant.2⟩
  apply AList.lookup_insert

/-- After `Deallocate` the tenant has no network. -/
theorem deallocate_working (hroot : IsCIDR root ones bits) (hid : id ≠ "")
    (hdiv : Divided root leafMask s.subnet) :
  Divided root leafMask (s.subnet.deallocate id).2
    ∧ (s.subnet.deallocate id).2.held id = none
  := by
  obtain ⟨hdiv', hheld⟩ := hdiv.deallocate hroot hid
  refine ⟨hdiv', ?_⟩
  rw [hheld, Function.update_self]

theorem ensureDelete_working {be : ℕ} {result : Except Error Unit}
    (hw : Working root leafMask id s (.ensureDelete be result)) :
  Working root leafMask id (Thread.next h nodeName id policy s (.ensureDelete be result)).2
    (Thread.next h nodeName id policy s (.ensureDelete be result)).1
  := by
  obtain ⟨hdiv, hid, hvacant, hlive⟩ := hw
  obtain ⟨hmanager, hrecords, hactors, hsubnet⟩ := deleteDevices_live hlive
  rw [Thread.next]
  split
  · next s' hdelete => simp [hdelete] at hmanager
  · next x s' _ hdelete =>
    rw [hdelete] at hrecords hactors hsubnet
    rw [Working, Thread.Phase, Vacant, hrecords, hactors, hsubnet]
    exact ⟨hdiv, hid, hvacant⟩

/-- `RemoveTenant` marks the record, which keeps its backend. -/
theorem removeMark_working {be : ℕ} (hw : Working root leafMask id s (.removeMark be)) :
  Working root leafMask id (Thread.next h nodeName id policy s (.removeMark be)).2
    (Thread.next h nodeName id policy s (.removeMark be)).1
  := by
  obtain ⟨hdiv, hid, ⟨r, hr, hbe, hlive, hsome⟩, hactor⟩ := hw
  rw [Thread.next, hr]
  refine ⟨hdiv, hid, ⟨{ r with state := .closing }, ?_, hbe, hlive, hsome⟩, hactor⟩
  apply AList.lookup_insert

theorem removeDelete_working {be : ℕ} (hw : Working root leafMask id s (.removeDelete be)) :
  Working root leafMask id (Thread.next h nodeName id policy s (.removeDelete be)).2
    (Thread.next h nodeName id policy s (.removeDelete be)).1
  := by
  obtain ⟨hdiv, hid, ⟨r, hr, hbe, hlive, hsome⟩, hactor⟩ := hw
  obtain ⟨hmanager, -, hactors, hsubnet⟩ := deleteDevices_live hlive
  rw [Thread.next]
  split
  · next s' hdelete => simp [hdelete] at hmanager
  · next x s' _ hdelete =>
    rw [hdelete] at hactors hsubnet
    rw [Working, Thread.Phase, hactors, hsubnet]
    exact ⟨hdiv, hid, hactor⟩

/-- The next step of a call brings it to its next phase. -/
theorem next_working (hroot : IsCIDR root ones bits) (hw : Working root leafMask id s t) :
  Working root leafMask id (t.next h nodeName id policy s).2 (t.next h nodeName id policy s).1
  := by
  cases t with
  | ensureCheck => apply check_working (Or.inl rfl) hw
  | ensureAllocate => apply ensureAllocate_working hroot hw
  | ensureCreate q => apply ensureCreate_working hw
  | ensurePolicy q be => apply ensurePolicy_working hw
  | ensureCommit q be ipm => apply ensureCommit_working hw
  | ensureDelete be result => apply ensureDelete_working hw
  | ensureDeallocate result =>
    obtain ⟨hdiv, hid, hvacant⟩ := hw
    obtain ⟨hdiv', hnone⟩ := deallocate_working hroot (hid rfl) hdiv
    exact ⟨hdiv', by simp [Thread.idle, Thread.next], Or.inl ⟨hvacant, hnone⟩⟩
  | ensureActor =>
    obtain ⟨hdiv, hid, hrecorded, hnone⟩ := hw
    rw [Thread.next, hnone]
    refine ⟨hdiv, by simp [Thread.idle], Or.inr ⟨hrecorded, ?_⟩⟩
    simp
  | removeRead => apply check_working (Or.inr rfl) hw
  | removeMark be => apply removeMark_working hw
  | removeDelete be => apply removeDelete_working hw
  | removeDeallocate =>
    obtain ⟨hdiv, hid, hactor⟩ := hw
    obtain ⟨hdiv', hnone⟩ := deallocate_working hroot (hid rfl) hdiv
    exact ⟨hdiv', hid, hactor, hnone⟩
  | removeActor =>
    obtain ⟨hdiv, hid, hactor, hnone⟩ := hw
    rw [Thread.next, if_pos hactor]
    exact ⟨hdiv, hid, hnone⟩
  | removeDropActor =>
    obtain ⟨hdiv, hid, hnone⟩ := hw
    refine ⟨hdiv, hid, ?_, hnone⟩
    apply AList.lookup_erase
  | removeDropRecord =>
    obtain ⟨hdiv, hid, hactor, hnone⟩ := hw
    refine ⟨hdiv, by simp [Thread.idle, Thread.next], Or.inl ⟨⟨?_, hactor⟩, hnone⟩⟩
    apply AList.lookup_erase
  | returned result => exact hw
  | panicked => exact hw

/-- A call that has no work to do returns and changes nothing. -/
theorem next_of_not_begins (hidle : t.idle = true) (hbegins : ¬ Begins id s t) :
  (t.next h nodeName id policy s).1.idle = true ∧ (t.next h nodeName id policy s).2 = s
  := by
  cases t with
  | ensureCheck =>
    have hrecord : (s.tenantRecords.lookup id).isSome := Option.isSome_iff_ne_none.mpr hbegins
    rw [Thread.next, if_pos hrecord]
    split_ifs <;> exact ⟨rfl, rfl⟩
  | removeRead =>
    have hrecord : s.tenantRecords.lookup id = none := by simpa [Begins] using hbegins
    rw [Thread.next, hrecord]
    split_ifs <;> exact ⟨rfl, rfl⟩
  | returned result => exact ⟨rfl, rfl⟩
  | _ => simp [Thread.idle] at hidle

/-- An idle call is in its phase when the tenant has nothing or everything. -/
theorem working_of_idle (s : Shared) (t : Thread) (hidle : t.idle = true) :
  Working root leafMask id s t ↔ Divided root leafMask s.subnet ∧ Whole id s
  := by
  cases t <;> simp_all [Thread.idle, Working, Thread.Phase]

/-! ### Runs -/

/-- At most one call is at work, and the tenant is in its phase. -/
def Serial (root : IPNet) (leafMask : ℤ) (id : String) (s : Calls) : Prop :=
  Threads.Orderly (fun t : Thread => t.idle = true)
    (fun s : Shared => Divided root leafMask s.subnet ∧ Whole id s) (Working root leafMask id) s

/-- An action keeps the calls serial if a call that finds work is alone. -/
theorem act_serial (hroot : IsCIDR root ones bits) (s : Calls) (a : Action)
    (hs : Serial root leafMask id s) (halone : Alone id s a) :
  Serial root leafMask id (act h nodeName id s a).2
  := by
  apply Threads.step_orderly working_of_idle _ hs
  · rintro i input t - - hw
    apply next_working hroot hw
  · rintro i input t rfl ht hidle
    by_cases hbegins : Begins id s.shared t
    · right
      apply halone t ht hbegins
    · left
      apply next_of_not_begins hidle hbegins
  · intro c
    cases c <;> rfl

theorem Thread.idle_of_isReturned {t : Thread} (h : t.isReturned = true) :
  t.idle = true
  := by
  cases t <;> first | rfl | simp [Thread.isReturned] at h

/-- Serial calls are safe. -/
theorem Serial.threadSafe {s : Calls} (hs : Serial root leafMask id s) :
  ThreadSafe id s
  := by
  constructor
  · apply Threads.Orderly.forall_threads (P := fun t => t.isPanicked = false) hs
    · intro t _ hidle
      cases t <;> first | rfl | simp [Thread.idle] at hidle
    · rintro t - ⟨-, -, hphase⟩
      cases t <;> first | rfl | exact hphase.elim
  · intro hreturned
    have hcalm := Threads.Orderly.calm_of_idle working_of_idle hs fun t ht =>
      Thread.idle_of_isReturned (hreturned t ht)
    apply hcalm.2.settled

end

/-- If the network is larger than a leaf, and every call that finds work begins it when no other
call is at work, then the calls are safe. -/
theorem after_threadSafe {root : IPNet} {ones bits : ℕ} {leafMask : ℤ} {tm : TrieManager}
    (hroot : IsCIDR root ones bits) (hnew : newTrieManager root leafMask = some tm)
    (hlt : ones < leafMask) (h : Hashes) (nodeName id : String) (actions : List Action)
    (hmeets : Machine.Meets (act h nodeName id) (Alone id) ⟨newShared tm, []⟩ actions) :
  ThreadSafe id (Machine.after (act h nodeName id) ⟨newShared tm, []⟩ actions)
  := by
  have hstart : Serial root leafMask id ⟨newShared tm, []⟩ := by
    use 0
    simp only [List.getElem?_nil, reduceCtorEq, false_implies, implies_true, true_and, forall_const]
    have hnone : tm.held id = none := congrFun (newTrieManager_held hroot hnew).2 id
    exact ⟨newTrieManager_divided hroot hnew hlt, Or.inl ⟨⟨rfl, rfl⟩, hnone⟩⟩
  have hserial := Machine.after_of_meets (act_serial hroot) hstart hmeets
  apply hserial.threadSafe

/-- The next step of a call, in which nothing fails. -/
def succeed (i : ℕ) : Action :=
  .run i fun _ => true

/-- Each call begins its work when no other is at work. -/
def oneByOne : List Action :=
  [.call .ensureTenant, .call .ensureTenant, .call .removeTenant]
    ++ List.replicate 5 (succeed 0) ++ [succeed 1] ++ [succeed 0] ++ List.replicate 7 (succeed 2)

/-- Two calls of `EnsureTenant`, of which the second begins when the first has committed, and a
call of `RemoveTenant` that begins when both have returned. -/
theorem after_threadSafe_serial :
  ∃ tm, newTrieManager ⟨[10, 0, 0, 0], cidrMask 28 32⟩ 30 = some tm
    ∧ ThreadSafe "t" (Machine.after (act default "node" "t") ⟨newShared tm, []⟩
      ([.call .ensureTenant, .call .ensureTenant, .call .removeTenant]
        ++ List.replicate 5 (.run 0 fun _ => true) ++ [.run 1 fun _ => true]
        ++ [.run 0 fun _ => true] ++ List.replicate 7 (.run 2 fun _ => true)))
  := by
  obtain ⟨hroot, tm, hnew⟩ :=
    exists_newTrieManager_ipv4 [10, 0, 0, 0] 28 30 rfl (by decide) (by decide)
  use tm, hnew
  apply after_threadSafe hroot hnew (by decide)
  have halone : (newTrieManager ⟨[10, 0, 0, 0], cidrMask 28 32⟩ 30).map (fun tm =>
      decide (Machine.Meets (act default "node" "t") (Alone "t") ⟨newShared tm, []⟩ oneByOne))
      = some true := by
    decide +kernel
  rw [hnew, Option.map_some, Option.some.injEq] at halone
  apply of_decide_eq_true halone

/-! ### Unsafe interleavings -/

/-- A call has used a nil manager, or all calls have returned and, of record, actor and network,
the tenant has some but not all. -/
def broken (id : String) (s : Calls) : Bool :=
  let record := (s.shared.tenantRecords.lookup id).isSome
  s.threads.any Thread.isPanicked
    || s.threads.all Thread.isReturned
      && (record != (s.shared.tenantActors.lookup id).isSome
        || record != (s.shared.subnet.get id).toOption.isSome)

theorem not_threadSafe_of_broken {id : String} {s : Calls} (hbroken : broken id s = true) :
  ¬ ThreadSafe id s
  := by
  rintro ⟨hpanic, hsettled⟩
  have hany : s.threads.any Thread.isPanicked = false := by simpa using hpanic
  rw [broken, hany, Bool.false_or, Bool.and_eq_true, List.all_eq_true] at hbroken
  obtain ⟨hactor, hallocated, -⟩ := hsettled hbroken.1
  have hget : (∃ q, s.shared.subnet.get id = .ok q)
      ↔ (s.shared.subnet.get id).toOption.isSome := by
    cases s.shared.subnet.get id <;> simp [Except.toOption]
  rw [hget, Bool.coe_iff_coe] at hallocated
  rw [Bool.coe_iff_coe] at hactor
  simp [← hactor, ← hallocated] at hbroken

/-- Both calls of `EnsureTenant` find no record; the second one commits last. -/
def ensureTwice : List Action :=
  [.call .ensureTenant, .call .ensureTenant, .run 0 fun _ => true, .run 1 fun _ => true]
    ++ List.replicate 5 (.run 0 fun _ => true) ++ List.replicate 6 (.run 1 fun _ => true)

/-- Both calls of `RemoveTenant` find the record. -/
def removeTwice : List Action :=
  [.call .ensureTenant] ++ List.replicate 6 (.run 0 fun _ => true)
    ++ [.call .removeTenant, .call .removeTenant, .run 1 fun _ => true, .run 2 fun _ => true]
    ++ List.replicate 2 (.run 1 fun _ => true) ++ List.replicate 2 (.run 2 fun _ => true)

/-- `RemoveTenant` runs between the commit of `EnsureTenant` and its registration of the actor. -/
def removeInEnsure : List Action :=
  [.call .ensureTenant, .call .removeTenant] ++ List.replicate 5 (.run 0 fun _ => true)
    ++ List.replicate 6 (.run 1 fun _ => true) ++ [.run 0 fun _ => true]

/-- One call after the other. -/
def ensureThenRemove : List Action :=
  [.call .ensureTenant] ++ List.replicate 6 (.run 0 fun _ => true)
    ++ [.call .removeTenant] ++ List.replicate 7 (.run 1 fun _ => true)

/-- The calls are not safe in general: the rollback of the second `EnsureTenant` frees the network
of the tenant, the second `RemoveTenant` uses a nil manager, and an actor is left without a record.
If the network is a leaf then it stays allocated after `RemoveTenant`. -/
theorem interleavings_not_threadSafe :
  (∃ tm, newTrieManager ⟨[10, 0, 0, 0], cidrMask 28 32⟩ 30 = some tm
    ∧ ∀ actions ∈ [ensureTwice, removeTwice, removeInEnsure],
      ¬ ThreadSafe "t" (Machine.after (act default "node" "t") ⟨newShared tm, []⟩ actions))
    ∧ ∃ tm, newTrieManager ⟨[10, 0, 0, 0], cidrMask 30 32⟩ 30 = some tm
      ∧ ¬ ThreadSafe "t" (Machine.after (act default "node" "t") ⟨newShared tm, []⟩
        ensureThenRemove)
  := by
  constructor
  · obtain ⟨-, tm, hnew⟩ :=
      exists_newTrieManager_ipv4 [10, 0, 0, 0] 28 30 rfl (by decide) (by decide)
    have hrun : (newTrieManager ⟨[10, 0, 0, 0], cidrMask 28 32⟩ 30).map (fun tm =>
        [ensureTwice, removeTwice, removeInEnsure].all fun actions =>
          broken "t" (Machine.after (act default "node" "t") ⟨newShared tm, []⟩ actions))
        = some true := by
      decide +kernel
    rw [hnew, Option.map_some, Option.some.injEq, List.all_eq_true] at hrun
    use tm, hnew
    intro actions hmem
    apply not_threadSafe_of_broken (hrun actions hmem)
  · obtain ⟨-, tm, hnew⟩ :=
      exists_newTrieManager_ipv4 [10, 0, 0, 0] 30 30 rfl (by decide) (by decide)
    have hrun : (newTrieManager ⟨[10, 0, 0, 0], cidrMask 30 32⟩ 30).map (fun tm =>
        broken "t" (Machine.after (act default "node" "t") ⟨newShared tm, []⟩ ensureThenRemove))
        = some true := by
      decide +kernel
    rw [hnew, Option.map_some, Option.some.injEq] at hrun
    use tm, hnew
    apply not_threadSafe_of_broken hrun

end Nmanager
