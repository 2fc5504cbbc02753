import Misokube.Lib.Map

/-!
# Kernel tables of a VXLAN device

The neighbour table, the forwarding database of VXLAN devices and the main routing table, with the
netlink operations on them.  A neighbour is known by its device and address, a forwarding entry by
its device and hardware address.  A destination has one route, whatever its device.  An entry of a
remote end is a neighbour, where to send frames for it, and a route through it (`Has`); operations
on one entry leave those that share nothing with it (`Has.of_onlyAt`).  Tables that have exactly a
set of entries (`Exactly`) are such tables again when an entry is added or removed.
-/

namespace Netlink

variable {α μ π : Type} [DecidableEq α] [DecidableEq μ] [DecidableEq π]

/-- The tables; in the forwarding database `none` is an unspecified remote address. -/
structure Tables (α μ π : Type) where
  neighbours : GoMap (String × α) μ
  forwarding : GoMap (String × μ) (Option α)
  routes : GoMap π (String × α)

/-- Sets a neighbour, replacing the one with the same address. -/
def neighSet (device : String) (ip : α) (mac : μ) (τ : Tables α μ π) : Tables α μ π :=
  { τ with neighbours := τ.neighbours.insert (device, ip) mac }

/-- Deletes a neighbour by its address, whatever its hardware address is. -/
def neighDel (device : String) (ip : α) (τ : Tables α μ π) : Tables α μ π :=
  { τ with neighbours := τ.neighbours.erase (device, ip) }

/-- Sets a forwarding entry, replacing the one with the same hardware address. -/
def fdbSet (device : String) (mac : μ) (remote : Option α) (τ : Tables α μ π) : Tables α μ π :=
  { τ with forwarding := τ.forwarding.insert (device, mac) remote }

/-- Deletes a forwarding entry; if a remote address is given, only an entry with it. -/
def fdbDel (device : String) (mac : μ) (remote : Option α) (τ : Tables α μ π) : Tables α μ π :=
  if remote = none ∨ τ.forwarding.lookup (device, mac) = some remote then
    { τ with forwarding := τ.forwarding.erase (device, mac) }
  else τ

/-- Deletes the route to a destination if it is on the device, and then adds a route on the device.
There is no change if a route on another device exists. -/
def routeReplace (device : String) (dst : π) (gateway : α) (τ : Tables α μ π) : Tables α μ π :=
  match τ.routes.lookup dst with
  | none => { τ with routes := τ.routes.insert dst (device, gateway) }
  | some route =>
    if route.1 = device then
      { τ with routes := (τ.routes.erase dst).insert dst (device, gateway) }
    else τ

/-- Deletes the route to a destination if it is on the device through the gateway. -/
def routeDel (device : String) (dst : π) (gateway : α) (τ : Tables α μ π) : Tables α μ π :=
  if τ.routes.lookup dst = some (device, gateway) then { τ with routes := τ.routes.erase dst }
  else τ

/-! ### Entries -/

/-- What leads to a remote end through a device. -/
structure Entry (α μ π : Type) where
  device : String
  ip : α
  mac : μ
  remote : Option α
  dst : π

/-- The entry is in the tables. -/
structure Has (τ : Tables α μ π) (e : Entry α μ π) : Prop where
  neighbour : τ.neighbours.lookup (e.device, e.ip) = some e.mac
  forwards : τ.forwarding.lookup (e.device, e.mac) = some e.remote
  routed : τ.routes.lookup e.dst = some (e.device, e.ip)

instance (τ : Tables α μ π) (e : Entry α μ π) : Decidable (Has τ e) :=
  decidable_of_iff (τ.neighbours.lookup (e.device, e.ip) = some e.mac
      ∧ τ.forwarding.lookup (e.device, e.mac) = some e.remote
      ∧ τ.routes.lookup e.dst = some (e.device, e.ip))
    ⟨fun h => ⟨h.1, h.2.1, h.2.2⟩, fun h => ⟨h.neighbour, h.forwards, h.routed⟩⟩

/-- The entries share neither address, hardware address nor destination. -/
def Apart (e e' : Entry α μ π) : Prop :=
  e.ip ≠ e'.ip ∧ e.mac ≠ e'.mac ∧ e.dst ≠ e'.dst

instance (e e' : Entry α μ π) : Decidable (Apart e e') :=
  inferInstanceAs (Decidable (_ ∧ _ ∧ _))

/-- The tables differ only in what the entry is about. -/
structure OnlyAt (e : Entry α μ π) (τ τ' : Tables α μ π) : Prop where
  neighbours : ∀ k, k ≠ (e.device, e.ip) → τ'.neighbours.lookup k = τ.neighbours.lookup k
  forwarding : ∀ k, k ≠ (e.device, e.mac) → τ'.forwarding.lookup k = τ.forwarding.lookup k
  routes : ∀ dst, dst ≠ e.dst → τ'.routes.lookup dst = τ.routes.lookup dst

section

variable {e e' : Entry α μ π} {τ τ' τ'' : Tables α μ π}

theorem OnlyAt.refl :
  OnlyAt e τ τ
  := ⟨fun _ _ => rfl, fun _ _ => rfl, fun _ _ => rfl⟩

/-- Changes of one entry follow each other. -/
theorem OnlyAt.trans (h : OnlyAt e τ τ') (h' : OnlyAt e τ' τ'') :
  OnlyAt e τ τ''
  := by
  constructor
  · intro k hk
    rw [h'.neighbours k hk, h.neighbours k hk]
  · intro k hk
    rw [h'.forwarding k hk, h.forwarding k hk]
  · intro dst hdst
    rw [h'.routes dst hdst, h.routes dst hdst]

instance :
  IsTrans (Tables α μ π) (OnlyAt e)
  := ⟨fun _ _ _ h h' => h.trans h'⟩

/-- An entry stays when only what is apart from it changes. -/
theorem Has.of_onlyAt (h : Has τ e') (hapart : Apart e e') (honly : OnlyAt e τ τ') :
  Has τ' e'
  := by
  constructor
  · rw [honly.neighbours]
    · exact h.neighbour
    · intro heq
      apply hapart.1
      rw [(Prod.mk.inj heq).2]
  · rw [honly.forwarding]
    · exact h.forwards
    · intro heq
      apply hapart.2.1
      rw [(Prod.mk.inj heq).2]
  · rw [honly.routes _ hapart.2.2.symm]
    exact h.routed

theorem OnlyAt.of_neighbours {m : GoMap (String × α) μ}
    (h : ∀ k, k ≠ (e.device, e.ip) → m.lookup k = τ.neighbours.lookup k) :
  OnlyAt e τ { τ with neighbours := m }
  := ⟨h, fun _ _ => rfl, fun _ _ => rfl⟩

theorem OnlyAt.of_forwarding {m : GoMap (String × μ) (Option α)}
    (h : ∀ k, k ≠ (e.device, e.mac) → m.lookup k = τ.forwarding.lookup k) :
  OnlyAt e τ { τ with forwarding := m }
  := ⟨fun _ _ => rfl, h, fun _ _ => rfl⟩

theorem OnlyAt.of_routes {m : GoMap π (String × α)}
    (h : ∀ dst, dst ≠ e.dst → m.lookup dst = τ.routes.lookup dst) :
  OnlyAt e τ { τ with routes := m }
  := ⟨fun _ _ => rfl, fun _ _ => rfl, h⟩

/-- Setting the neighbour of an entry changes that entry only. -/
theorem neighSet_onlyAt :
  OnlyAt e τ (neighSet e.device e.ip e.mac τ)
  := by
  apply OnlyAt.of_neighbours
  intro k hk
  rw [GoMap.lookup_insert_eq, if_neg hk]

theorem neighDel_onlyAt :
  OnlyAt e τ (neighDel e.device e.ip τ)
  := by
  apply OnlyAt.of_neighbours
  intro k hk
  rw [GoMap.lookup_erase_eq, if_neg hk]

theorem fdbSet_onlyAt :
  OnlyAt e τ (fdbSet e.device e.mac e.remote τ)
  := by
  apply OnlyAt.of_forwarding
  intro k hk
  rw [GoMap.lookup_insert_eq, if_neg hk]

/-- Deleting the forwarding of an entry changes that entry only, and nothing if it leads
elsewhere. -/
theorem fdbDel_onlyAt :
  OnlyAt e τ (fdbDel e.device e.mac e.remote τ)
  := by
  rw [fdbDel]
  split
  · apply OnlyAt.of_forwarding
    intro k hk
    rw [GoMap.lookup_erase_eq, if_neg hk]
  · apply OnlyAt.refl

/-- Replacing the route of an entry changes that entry only. -/
theorem routeReplace_onlyAt :
  OnlyAt e τ (routeReplace e.device e.dst e.ip τ)
  := by
  rw [routeReplace]
  split
  · apply OnlyAt.of_routes
    intro dst hdst
    rw [GoMap.lookup_insert_eq, if_neg hdst]
  · split
    · apply OnlyAt.of_routes
      intro dst hdst
      rw [GoMap.lookup_insert_eq, if_neg hdst, GoMap.lookup_erase_eq, if_neg hdst]
    · apply OnlyAt.refl

/-- Deleting the route of an entry changes that entry only, and nothing if it leads elsewhere. -/
theorem routeDel_onlyAt :
  OnlyAt e τ (routeDel e.device e.dst e.ip τ)
  := by
  rw [routeDel]
  split
  · apply OnlyAt.of_routes
    intro dst hdst
    rw [GoMap.lookup_erase_eq, if_neg hdst]
  · apply OnlyAt.refl

/-- All routes were there before. -/
def NoNewRoute (τ τ' : Tables α μ π) : Prop :=
  ∀ dst, ∀ r ∈ τ'.routes.lookup dst, r ∈ τ.routes.lookup dst

instance :
  IsTrans (Tables α μ π) NoNewRoute
  := ⟨fun _ _ _ h h' dst r hr => h dst r (h' dst r hr)⟩

omit [DecidableEq μ] in
/-- Deleting a route makes none. -/
theorem routeDel_noNewRoute (device : String) (dst : π) (gateway : α) :
  NoNewRoute τ (routeDel device dst gateway τ)
  := by
  intro dst' r hr
  rw [routeDel] at hr
  split at hr
  · rw [GoMap.lookup_erase_eq] at hr
    split at hr
    · simp at hr
    · exact hr
  · exact hr

omit [DecidableEq π] in
theorem fdbDel_routes (device : String) (mac : μ) (remote : Option α) :
  (fdbDel device mac remote τ).routes = τ.routes
  := by
  rw [fdbDel]
  split <;> rfl

/-- Sets the parts of an entry. -/
def enter (e : Entry α μ π) (τ : Tables α μ π) : Tables α μ π :=
  routeReplace e.device e.dst e.ip
    (fdbSet e.device e.mac e.remote (neighSet e.device e.ip e.mac τ))

/-- Deletes the parts of an entry. -/
def withdraw (e : Entry α μ π) (τ : Tables α μ π) : Tables α μ π :=
  routeDel e.device e.dst e.ip (fdbDel e.device e.mac e.remote (neighDel e.device e.ip τ))

/-- An entry is in the tables once its parts are set, unless another device has its route. -/
theorem has_enter (hroute : ∀ r, τ.routes.lookup e.dst = some r → r.1 = e.device) :
  Has (enter e τ) e
  := by
  have hlookup : (fdbSet e.device e.mac e.remote
      (neighSet e.device e.ip e.mac τ)).routes = τ.routes := rfl
  rw [enter, routeReplace, hlookup]
  split
  · constructor
    · apply AList.lookup_insert
    · apply AList.lookup_insert
    · apply AList.lookup_insert
  · next r hr =>
    rw [if_pos (hroute r hr)]
    constructor
    · apply AList.lookup_insert
    · apply AList.lookup_insert
    · apply AList.lookup_insert

/-! ### Sets of entries -/

/-- The tables have what the entries of the set need, and nothing else. -/
structure Exactly (E : Set (Entry α μ π)) (τ : Tables α μ π) : Prop where
  neighbours : τ.neighbours.Lists E (fun e => (e.device, e.ip)) (fun e => e.mac)
  forwarding : τ.forwarding.Lists E (fun e => (e.device, e.mac)) (fun e => e.remote)
  routes : τ.routes.Lists E (fun e => e.dst) (fun e => (e.device, e.ip))

variable {E : Set (Entry α μ π)}

theorem exactly_empty :
  Exactly ∅ (⟨∅, ∅, ∅⟩ : Tables α μ π)
  := ⟨GoMap.lists_empty _ _, GoMap.lists_empty _ _, GoMap.lists_empty _ _⟩

/-- Every entry of the set is in the tables. -/
theorem Exactly.has (h : Exactly E τ) (he : e ∈ E) :
  Has τ e
  := by
  constructor
  · exact (h.neighbours _ _).mpr ⟨e, he, rfl, rfl⟩
  · exact (h.forwarding _ _).mpr ⟨e, he, rfl, rfl⟩
  · exact (h.routes _ _).mpr ⟨e, he, rfl, rfl⟩

/-- An entry that is apart from those of the tables is added to them. -/
theorem Exactly.enter (h : Exactly E τ) (hapart : ∀ e' ∈ E, Apart e e') :
  Exactly (insert e E) (enter e τ)
  := by
  have hroute : τ.routes.lookup e.dst = none := by
    apply Option.eq_none_iff_forall_ne_some.mpr
    intro r hr
    obtain ⟨e', he', hdst, -⟩ := (h.routes _ _).mp hr
    exact (hapart e' he').2.2 hdst.symm
  have hlookup : (fdbSet e.device e.mac e.remote
      (neighSet e.device e.ip e.mac τ)).routes = τ.routes := rfl
  rw [Netlink.enter, routeReplace, hlookup, hroute]
  constructor
  · apply h.neighbours.insert (e := e)
    intro e' he' heq
    exact (hapart e' he').1 (Prod.mk.inj heq).2.symm
  · apply h.forwarding.insert (e := e)
    intro e' he' heq
    exact (hapart e' he').2.1 (Prod.mk.inj heq).2.symm
  · apply h.routes.insert (e := e)
    intro e' he' heq
    exact (hapart e' he').2.2 heq.symm

/-- An entry that is apart from the others of the tables is removed from them. -/
theorem Exactly.withdraw (h : Exactly E τ) (he : e ∈ E)
    (hapart : ∀ e' ∈ E, e' ≠ e → Apart e e') :
  Exactly (E \ {e}) (withdraw e τ)
  := by
  obtain ⟨-, hforwards, hrouted⟩ := h.has he
  have hfdb : fdbDel e.device e.mac e.remote (neighDel e.device e.ip τ)
      = { neighDel e.device e.ip τ with forwarding := τ.forwarding.erase (e.device, e.mac) } := by
    rw [fdbDel, if_pos]
    · rfl
    · exact Or.inr hforwards
  rw [Netlink.withdraw, hfdb, routeDel, if_pos]
  · constructor
    · apply h.neighbours.erase (e := e)
      intro e' he' hne heq
      exact (hapart e' he' hne).1 (Prod.mk.inj heq).2.symm
    · apply h.forwarding.erase (e := e)
      intro e' he' hne heq
      exact (hapart e' he' hne).2.1 (Prod.mk.inj heq).2.symm
    · apply h.routes.erase (e := e)
      intro e' he' hne heq
      exact (hapart e' he' hne).2.2 heq.symm
  · exact hrouted

end

end Netlink
