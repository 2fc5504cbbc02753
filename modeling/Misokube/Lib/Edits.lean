import Misokube.Lib.Command
import Misokube.Lib.Iptables

/-!
# Chains that a command edits

A command edits at most its own chain: all others stay as they are, and no chain that stays gets
another policy (`Edits`).  This holds along sequences of commands, however far they get.  For a
chain that is there, the result of a command is given outright.
-/

namespace Iptables

open Command

/-- The policy of a chain, none if there is no such chain. -/
def policy (τ : Tables) (k : String × String) : Option String :=
  (τ.lookup k).bind Chain.policy

/-- The chains outside of a set are unchanged, and no policy changes. -/
structure Edits (K : Set (String × String)) (τ τ' : Tables) : Prop where
  frame : ∀ k ∉ K, τ'.lookup k = τ.lookup k
  policy : ∀ k, policy τ' k = policy τ k

section

variable {K K' : Set (String × String)} {k : String × String} {τ τ' τ'' : Tables} {c : Chain}
  {table chain : String} {r : Rule}

theorem Edits.refl (τ : Tables) :
  Edits K τ τ
  := ⟨fun _ _ => rfl, fun _ => rfl⟩

/-- Edits of the same chains follow each other. -/
theorem Edits.trans (h : Edits K τ τ') (h' : Edits K τ' τ'') :
  Edits K τ τ''
  := by
  constructor
  · intro k hk
    rw [h'.frame k hk, h.frame k hk]
  · intro k
    rw [h'.policy, h.policy]

theorem Edits.mono (h : Edits K τ τ') (hsub : K ⊆ K') :
  Edits K' τ τ'
  := by
  constructor
  · intro k hk
    apply h.frame k (fun hmem => hk (hsub hmem))
  · exact h.policy

/-- A chain that is not edited keeps its rules. -/
theorem Edits.rules (h : Edits K τ τ') (hk : k ∉ K) :
  rules τ' k = rules τ k
  := by
  rw [Iptables.rules, Iptables.rules, h.frame k hk]

theorem policy_of_lookup (h : τ.lookup k = some c) :
  Iptables.policy τ k = c.policy
  := by
  rw [Iptables.policy, h, Option.bind_some]

/-- A chain is known by its policy and its rules, if it has any. -/
theorem lookup_eq_of_mem (hmem : r ∈ Iptables.rules τ k)
    (hrules : Iptables.rules τ' k = Iptables.rules τ k)
    (hpolicy : Iptables.policy τ' k = Iptables.policy τ k) :
  τ'.lookup k = τ.lookup k
  := by
  obtain ⟨c, hc, hcrules⟩ := exists_lookup_of_mem hmem
  rw [← hrules] at hmem
  obtain ⟨c', hc', hcrules'⟩ := exists_lookup_of_mem hmem
  rw [policy_of_lookup hc, policy_of_lookup hc'] at hpolicy
  have heq : c' = c := by
    rw [← hcrules, ← hcrules'] at hrules
    obtain ⟨policy, rules⟩ := c
    obtain ⟨policy', rules'⟩ := c'
    dsimp only at hpolicy hrules
    rw [hpolicy, hrules]
  rw [hc, hc', heq]

/-- Storing a chain with the policy it has edits that chain. -/
theorem edits_insert (h : c.policy = Iptables.policy τ k) :
  Edits {k} τ (τ.insert k c)
  := by
  constructor
  · intro k' hk'
    apply AList.lookup_insert_ne hk'
  · intro k'
    rw [Iptables.policy, GoMap.lookup_insert_eq]
    split
    case isTrue heq => rw [heq, Option.bind_some, h]
    case isFalse => rfl

/-- Erasing a chain without a policy edits that chain. -/
theorem edits_erase (h : Iptables.policy τ k = none) :
  Edits {k} τ (τ.erase k)
  := by
  constructor
  · intro k' hk'
    apply AList.lookup_erase_ne hk'
  · intro k'
    rw [Iptables.policy, GoMap.lookup_erase_eq]
    split
    case isTrue heq => rw [heq, h, Option.bind_none]
    case isFalse => rfl

/-! ### Results of commands -/

/-- A chain that is not there is made, without rules. -/
theorem newChain_run_of_none (h : τ.lookup (table, chain) = none) :
  (newChain table chain).run τ = .ok () (τ.insert (table, chain) {})
  := by
  simp [newChain, h]

theorem newChain_run (h : τ.lookup (table, chain) = some c) :
  (newChain table chain).run τ = .error .chainExists τ
  := by
  simp [newChain, h]

/-- The rules of the chain are dropped. -/
theorem clearChain_run (h : τ.lookup (table, chain) = some c) :
  (clearChain table chain).run τ = .ok () (τ.insert (table, chain) { c with rules := [] })
  := by
  simp [clearChain, h]

theorem appendUnique_run (h : τ.lookup (table, chain) = some c) :
  (appendUnique table chain r).run τ
    = .ok () (τ.insert (table, chain) { c with rules := addUnique c.rules r })
  := by
  simp [appendUnique, h]

/-- A rule that is there stays where it is; a position outside of the chain is refused. -/
theorem insertUnique_run {pos : ℕ} (h : τ.lookup (table, chain) = some c) :
  (insertUnique table chain pos r).run τ
    = if r ∈ c.rules then .ok () τ
      else if pos = 0 ∨ c.rules.length + 1 < pos then .error .invalidPosition τ
      else .ok () (τ.insert (table, chain) { c with rules := c.rules.insertIdx (pos - 1) r })
  := by
  simp only [insertUnique, EStateM.run_bind, EStateM.run_get, h]
  split_ifs <;> rfl

/-- The first of the equal rules is deleted; if there is none, the command is refused. -/
theorem delete_run (h : τ.lookup (table, chain) = some c) :
  (delete table chain r).run τ
    = if r ∈ c.rules then
        .ok () (τ.insert (table, chain) { c with rules := c.rules.erase r })
      else .error .noRule τ
  := by
  simp only [delete, EStateM.run_bind, EStateM.run_get, h]
  split_ifs <;> rfl

/-- A chain is deleted only if it is not built in, has no rules, and no rule jumps to it. -/
theorem deleteChain_run (h : τ.lookup (table, chain) = some c) :
  (deleteChain table chain).run τ
    = if c.policy.isSome then .error .builtIn τ
      else if c.rules ≠ [] then .error .notEmpty τ
      else if Referenced τ table chain then .error .inUse τ
      else .ok () (τ.erase (table, chain))
  := by
  simp only [deleteChain, EStateM.run_bind, EStateM.run_get, h]
  split_ifs with hpolicy hrules hreferenced
  · rfl
  · rfl
  · simp [hreferenced]
  · simp [hreferenced]

theorem list_run {policy : String} (h : τ.lookup (table, chain) = some c)
    (hpolicy : c.policy = some policy) :
  (list table chain).run τ
    = .ok (("-P " ++ chain ++ " " ++ policy) :: c.rules.map (Rule.line chain)) τ
  := by
  simp [list, h, hpolicy]

/-- A chain is referred to by the rules of the chains of its table. -/
theorem referenced_iff :
  Referenced τ table chain
    ↔ ∃ chain', ∃ r ∈ Iptables.rules τ (table, chain'), r.target = .jump chain
  := by
  constructor
  · rintro ⟨⟨⟨table', chain'⟩, c⟩, he, rfl, r, hr, htarget⟩
    refine ⟨chain', r, ?_, htarget⟩
    rw [rules_of_lookup (AList.mem_lookup_iff.mpr he)]
    exact hr
  · rintro ⟨chain', r, hr, htarget⟩
    obtain ⟨c, hc, hrules⟩ := exists_lookup_of_mem hr
    refine ⟨⟨(table, chain'), c⟩, AList.mem_lookup_iff.mp hc, rfl, r, ?_, htarget⟩
    rw [hrules]
    exact hr

/-! ### Commands -/

theorem newChain_edits (table chain : String) :
  Along (Edits {(table, chain)}) (newChain table chain)
  := by
  constructor
  intro τ
  cases h : τ.lookup (table, chain) with
  | none =>
    rw [final, newChain_run_of_none h]
    apply edits_insert
    rw [Iptables.policy, h, Option.bind_none]
  | some c =>
    rw [final, newChain_run h]
    apply Edits.refl

theorem clearChain_edits (table chain : String) :
  Along (Edits {(table, chain)}) (clearChain table chain)
  := by
  constructor
  intro τ
  cases h : τ.lookup (table, chain) with
  | none =>
    have hrun : (clearChain table chain).run τ = .ok () (τ.insert (table, chain) {}) := by
      simp [clearChain, h]
    rw [final, hrun]
    apply edits_insert
    rw [Iptables.policy, h, Option.bind_none]
  | some c =>
    rw [final, clearChain_run h]
    apply edits_insert
    rw [policy_of_lookup h]

/-- A command that fails without the chain. -/
theorem along_edits_of_chain {α : Type} {x : Command α}
    (hnone : ∀ τ, τ.lookup (table, chain) = none → x.run τ = .error .noChain τ)
    (hsome : ∀ τ c, τ.lookup (table, chain) = some c → Edits {(table, chain)} τ (final x τ)) :
  Along (Edits {(table, chain)}) x
  := by
  constructor
  intro τ
  cases h : τ.lookup (table, chain) with
  | none =>
    rw [final, hnone τ h]
    apply Edits.refl
  | some c => apply hsome τ c h

theorem appendUnique_edits (table chain : String) (r : Rule) :
  Along (Edits {(table, chain)}) (appendUnique table chain r)
  := by
  apply along_edits_of_chain
  · intro τ h
    simp [appendUnique, h]
  · intro τ c h
    rw [final, appendUnique_run h]
    apply edits_insert
    rw [policy_of_lookup h]

theorem insertUnique_edits (table chain : String) (pos : ℕ) (r : Rule) :
  Along (Edits {(table, chain)}) (insertUnique table chain pos r)
  := by
  apply along_edits_of_chain
  · intro τ h
    simp [insertUnique, h]
  · intro τ c h
    rw [final, insertUnique_run h]
    split_ifs
    · apply Edits.refl
    · apply Edits.refl
    · apply edits_insert
      rw [policy_of_lookup h]

theorem delete_edits (table chain : String) (r : Rule) :
  Along (Edits {(table, chain)}) (delete table chain r)
  := by
  apply along_edits_of_chain
  · intro τ h
    simp [delete, h]
  · intro τ c h
    rw [final, delete_run h]
    split_ifs
    · apply edits_insert
      rw [policy_of_lookup h]
    · apply Edits.refl

theorem deleteChain_edits (table chain : String) :
  Along (Edits {(table, chain)}) (deleteChain table chain)
  := by
  apply along_edits_of_chain
  · intro τ h
    simp [deleteChain, h]
  · intro τ c h
    rw [final, deleteChain_run h]
    split_ifs with hpolicy
    · apply Edits.refl
    · apply Edits.refl
    · apply Edits.refl
    · apply edits_erase
      rw [policy_of_lookup h]
      simpa using hpolicy

end

end Iptables
