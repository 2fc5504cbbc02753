import Mathlib.Data.List.AList
import Mathlib.Data.Set.Insert

/-!
# Finite maps

A Go map as an association list without repeated keys.  The order of the entries stands for
the order in which a loop over the map visits them.
-/

/-- A map from keys to values. -/
abbrev GoMap (κ α : Type) : Type := AList fun _ : κ => α

namespace GoMap

variable {κ α : Type} [DecidableEq κ]

/-- After storing `b` at `k`, the map has `b` at `k` and is as before elsewhere. -/
theorem lookup_insert_eq (m : GoMap κ α) (k k' : κ) (b : α) :
  (m.insert k b).lookup k' = if k' = k then some b else m.lookup k'
  := by
  split
  case isTrue h =>
    subst h
    apply AList.lookup_insert
  case isFalse h => apply AList.lookup_insert_ne h

/-- After deleting `k`, the map has nothing at `k` and is as before elsewhere. -/
theorem lookup_erase_eq (m : GoMap κ α) (k k' : κ) :
  (m.erase k).lookup k' = if k' = k then none else m.lookup k'
  := by
  split
  case isTrue h =>
    subst h
    apply AList.lookup_erase
  case isFalse h => apply AList.lookup_erase_ne h

/-- The entries whose values pass the test. -/
def filter (p : α → Bool) (m : GoMap κ α) : GoMap κ α :=
  ⟨m.entries.filter fun e => p e.2, m.nodupKeys.sublist List.filter_sublist⟩

theorem lookup_filter (p : α → Bool) (m : GoMap κ α) (k : κ) :
  (m.filter p).lookup k = (m.lookup k).filter p
  := by
  apply Option.ext
  intro v
  rw [← Option.mem_def, ← Option.mem_def, AList.mem_lookup_iff, Option.mem_filter_iff,
    AList.mem_lookup_iff]
  exact List.mem_filter

/-- Each value replaced by one that is made of its key and itself. -/
def mapValues {β : Type} (f : κ → α → β) (m : GoMap κ α) : GoMap κ β :=
  ⟨m.entries.map fun e => ⟨e.1, f e.1 e.2⟩, by
    rw [List.NodupKeys, List.keys, List.map_map]
    exact m.nodupKeys⟩

theorem lookup_mapValues {β : Type} (f : κ → α → β) (m : GoMap κ α) (k : κ) :
  (m.mapValues f).lookup k = (m.lookup k).map (f k)
  := by
  apply Option.ext
  intro v
  rw [← Option.mem_def, AList.mem_lookup_iff, Option.map_eq_some_iff]
  constructor
  · intro hmem
    obtain ⟨⟨k', a⟩, ha, heq⟩ := List.mem_map.mp hmem
    cases heq
    exact ⟨a, AList.mem_lookup_iff.mpr ha, rfl⟩
  · rintro ⟨a, ha, rfl⟩
    exact List.mem_map.mpr ⟨⟨k, a⟩, AList.mem_lookup_iff.mp ha, rfl⟩

/-! ### Maps of sets -/

/-- The map has exactly the keys and values of the elements of the set. -/
def Lists {ε : Type} (m : GoMap κ α) (S : Set ε) (key : ε → κ) (val : ε → α) : Prop :=
  ∀ k v, m.lookup k = some v ↔ ∃ e ∈ S, key e = k ∧ val e = v

section

variable {ε : Type} {m : GoMap κ α} {S : Set ε} {key : ε → κ} {val : ε → α} {e : ε}

theorem lists_empty (key : ε → κ) (val : ε → α) :
  Lists (∅ : GoMap κ α) ∅ key val
  := by
  intro k v
  simp

/-- A new key, stored with its value. -/
theorem Lists.insert (h : Lists m S key val) (hnew : ∀ e' ∈ S, key e' ≠ key e) :
  Lists (m.insert (key e) (val e)) (insert e S) key val
  := by
  intro k v
  simp only [lookup_insert_eq, Set.mem_insert_iff, exists_eq_or_imp]
  split
  case isTrue hk =>
    rw [Option.some.injEq]
    constructor
    · intro hv
      exact Or.inl ⟨hk.symm, hv⟩
    · rintro (⟨-, hv⟩ | ⟨e', he', hk', -⟩)
      · exact hv
      · exact absurd (hk'.trans hk) (hnew e' he')
  case isFalse hk =>
    rw [h k v]
    constructor
    · exact Or.inr
    · rintro (⟨hk', -⟩ | he')
      · exact absurd hk'.symm hk
      · exact he'

/-- The deletion of the key of an element. -/
theorem Lists.erase (h : Lists m S key val) (hother : ∀ e' ∈ S, e' ≠ e → key e' ≠ key e) :
  Lists (m.erase (key e)) (S \ {e}) key val
  := by
  intro k v
  simp only [lookup_erase_eq, Set.mem_sdiff, Set.mem_singleton_iff]
  split
  case isTrue hk =>
    constructor
    · intro hv
      cases hv
    · rintro ⟨e', ⟨he', hne⟩, hk', -⟩
      exact absurd (hk'.trans hk) (hother e' he' hne)
  case isFalse hk =>
    rw [h k v]
    constructor
    · rintro ⟨e', he', hk', hv⟩
      refine ⟨e', ⟨he', ?_⟩, hk', hv⟩
      rintro rfl
      exact hk hk'.symm
    · rintro ⟨e', ⟨he', -⟩, hk', hv⟩
      exact ⟨e', he', hk', hv⟩

end

end GoMap
