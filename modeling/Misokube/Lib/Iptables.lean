import Mathlib
import Misokube.Lib.Map

/-!
# Tables of packet filter rules

Chains of rules as `iptables` keeps them, the commands of the `go-iptables` library, and the way
of a packet through a chain.  A command that fails leaves the tables as they are; a failing
sequence of commands keeps what the commands before the failure did.

Every command changes at most the rules of its chain, and its specification says how, in terms
of the function `rules` from chains to lists of rules.
-/

namespace Iptables

open Std.Do

set_option mvcgen.warning false

/-- What a rule does with the packets it matches: let them pass, discard them, or hand them to a
chain or an extension of the given name. -/
inductive Target where
  | accept
  | drop
  | jump (name : String)
deriving DecidableEq, Repr

/-- A rule: the interfaces a packet comes in and goes out through, a comment, the words of the
other matches, and the target. -/
structure Rule where
  inIface : Option String := none
  outIface : Option String := none
  others : List String := []
  comment : Option String := none
  target : Target
deriving DecidableEq, Repr

/-- A chain: its policy if it is built in, and its rules in order. -/
structure Chain where
  policy : Option String := none
  rules : List Rule := []
deriving DecidableEq, Repr

/-- The chains, by the names of their table and their own. -/
abbrev Tables := GoMap (String × String) Chain

/-- Errors of the commands, and those a caller makes up from a text. -/
inductive Error where
  | chainExists
  | noChain
  | noRule
  | invalidPosition
  | builtIn
  | notEmpty
  | inUse
  | errorf (text : String)
deriving DecidableEq, Repr

/-- Commands on the tables, which may fail. -/
abbrev Command := EStateM Error Tables

/-- The rules of a chain, none if there is no such chain. -/
def rules (τ : Tables) (k : String × String) : List Rule :=
  ((τ.lookup k).getD {}).rules

/-! ### Printed rules -/

/-- Characters of a text that is printed without quotes. -/
def plain (c : Char) : Bool :=
  c.isAlphanum || c = '_' || c = '-'

/-- Quotes and the backslash, which stand behind a backslash in a text in quotes. -/
def escaped (c : Char) : Bool :=
  c.toNat = 34 || c.toNat = 39 || c.toNat = 92

/-- A text as it is printed: in quotes if it has special characters. -/
def quoted (text : String) : String :=
  if text ≠ "" ∧ text.toList.all plain then text
  else "\"" ++ String.ofList (text.toList.flatMap fun c =>
    if escaped c then [Char.ofNat 92, c] else [c]) ++ "\""

/-- The name of a target. -/
def Target.name : Target → String
  | accept => "ACCEPT"
  | drop => "DROP"
  | jump name => name

/-- The line for a rule of a chain. -/
def Rule.line (chain : String) (r : Rule) : String :=
  " ".intercalate (["-A", chain]
    ++ (r.inIface.map fun i => ["-i", i]).getD []
    ++ (r.outIface.map fun i => ["-o", i]).getD []
    ++ r.others
    ++ (r.comment.map fun c => ["-m", "comment", "--comment", quoted c]).getD []
    ++ ["-j", r.target.name])

/-! ### Commands -/

/-- Make a new chain. -/
def newChain (table chain : String) : Command Unit := do
  match (← get).lookup (table, chain) with
  | some _ => throw .chainExists
  | none => modify fun τ => τ.insert (table, chain) {}

/-- Remove all rules of a chain, which is made if there is none. -/
def clearChain (table chain : String) : Command Unit := do
  match (← get).lookup (table, chain) with
  | some c => modify fun τ => τ.insert (table, chain) { c with rules := [] }
  | none => modify fun τ => τ.insert (table, chain) {}

/-- Some rule of the table hands packets to the chain. -/
def Referenced (τ : Tables) (table chain : String) : Prop :=
  ∃ e ∈ τ.entries, e.1.1 = table ∧ ∃ r ∈ e.2.rules, r.target = .jump chain

instance (τ : Tables) (table chain : String) : Decidable (Referenced τ table chain) :=
  inferInstanceAs (Decidable
    (∃ e ∈ τ.entries, e.1.1 = table ∧ ∃ r ∈ e.2.rules, r.target = .jump chain))

/-- Remove a chain without rules that no rule refers to. -/
def deleteChain (table chain : String) : Command Unit := do
  match (← get).lookup (table, chain) with
  | none => throw .noChain
  | some c =>
    if c.policy.isSome then throw .builtIn
    else if c.rules ≠ [] then throw .notEmpty
    else if Referenced (← get) table chain then throw .inUse
    else modify fun τ => τ.erase (table, chain)

/-- The rules with one more at the end, unless it is there. -/
def addUnique (rs : List Rule) (r : Rule) : List Rule :=
  if r ∈ rs then rs else rs ++ [r]

/-- The rules with more at the end, one after the other, unless they are there. -/
def addAll (rs new : List Rule) : List Rule :=
  new.foldl addUnique rs

/-- Append a rule to a chain, unless the chain has it. -/
def appendUnique (table chain : String) (r : Rule) : Command Unit := do
  match (← get).lookup (table, chain) with
  | none => throw .noChain
  | some c => modify fun τ => τ.insert (table, chain) { c with rules := addUnique c.rules r }

/-- Insert a rule at a position, counted from 1, unless the chain has it. -/
def insertUnique (table chain : String) (pos : ℕ) (r : Rule) : Command Unit := do
  match (← get).lookup (table, chain) with
  | none => throw .noChain
  | some c =>
    if r ∈ c.rules then return
    else if pos = 0 ∨ c.rules.length + 1 < pos then throw .invalidPosition
    else modify fun τ => τ.insert (table, chain) { c with rules := c.rules.insertIdx (pos - 1) r }

/-- Delete the first of the rules of a chain that are equal to the given one. -/
def delete (table chain : String) (r : Rule) : Command Unit := do
  match (← get).lookup (table, chain) with
  | none => throw .noChain
  | some c =>
    if r ∈ c.rules then modify fun τ => τ.insert (table, chain) { c with rules := c.rules.erase r }
    else throw .noRule

/-- The lines printed for a chain: one for the chain, and one for each rule. -/
def list (table chain : String) : Command (List String) := do
  match (← get).lookup (table, chain) with
  | none => throw .noChain
  | some c =>
    let head := match c.policy with
      | some policy => "-P " ++ chain ++ " " ++ policy
      | none => "-N " ++ chain
    return head :: c.rules.map (Rule.line chain)

/-! ### Packets -/

/-- A packet: the interfaces it comes in and goes out through, and which other matches it
meets. -/
structure Packet where
  inIface : String
  outIface : String
  meets : List String → Bool

/-- What becomes of a packet: it passes, is discarded, or is handed to an extension. -/
inductive Verdict where
  | accept
  | drop
  | handed (name : String)
deriving DecidableEq, Repr

/-- An interface name that ends in `+` stands for all names that begin with the rest. -/
def Wildcard (iface : String) : Prop :=
  iface.toList.getLast? = some '+'

instance (iface : String) : Decidable (Wildcard iface) :=
  inferInstanceAs (Decidable (iface.toList.getLast? = some '+'))

/-- The interface is one that a rule's interface stands for. -/
def matchIface (pattern iface : String) : Bool :=
  if Wildcard pattern then pattern.toList.dropLast.isPrefixOf iface.toList else pattern = iface

/-- The packet meets all matches of the rule. -/
def Rule.matches (r : Rule) (p : Packet) : Bool :=
  r.inIface.all (matchIface · p.inIface) && r.outIface.all (matchIface · p.outIface)
    && (r.others.isEmpty || p.meets r.others)

/-- What a target says of a packet, given what the chains say. -/
def Target.verdict (chains : String → Option Verdict) : Target → Option Verdict
  | accept => some .accept
  | drop => some .drop
  | jump name => chains name

/-- What a rule says of a packet. -/
def Rule.verdict (chains : String → Option Verdict) (p : Packet) (r : Rule) : Option Verdict :=
  if r.matches p then r.target.verdict chains else none

/-- What becomes of a packet on its way through the rules of a table, with chains in chains up to
the given depth: what the first rule says that says anything. -/
def walk (τ : Tables) (table : String) (p : Packet) : ℕ → List Rule → Option Verdict
  | 0, _ => none
  | depth + 1, rs =>
    let chains (name : String) : Option Verdict :=
      match τ.lookup (table, name) with
      | some c => walk τ table p depth c.rules
      | none => some (.handed name)
    rs.findSome? (Rule.verdict chains p)

/-- A pattern without a wildcard matches one interface. -/
theorem matchIface_of_not_wildcard {pattern : String} (h : ¬ Wildcard pattern) (iface : String) :
  matchIface pattern iface = decide (pattern = iface)
  := by
  rw [matchIface, if_neg h]

/-- A rule decides if it matches and its target does. -/
theorem Rule.verdict_eq_some {chains : String → Option Verdict} {p : Packet} {r : Rule}
    {v : Verdict} :
  r.verdict chains p = some v ↔ r.matches p = true ∧ r.target.verdict chains = some v
  := by
  rw [verdict]
  split <;> simp [*]

/-- The verdict of rules of which one has a verdict, and the others the same one or none. -/
theorem findSome_eq_some {f : Rule → Option Verdict} {rs : List Rule} {r : Rule} {v : Verdict}
    (hr : r ∈ rs) (hv : f r = some v) (h : ∀ r' ∈ rs, ∀ v', f r' = some v' → v' = v) :
  rs.findSome? f = some v
  := by
  have hsome : (rs.findSome? f).isSome := by
    rw [List.findSome?_isSome_iff]
    use r, hr
    rw [hv, Option.isSome_some]
  obtain ⟨v', hv'⟩ := Option.isSome_iff_exists.mp hsome
  obtain ⟨r', hr', hf⟩ := List.exists_of_findSome?_eq_some hv'
  rw [hv', h r' hr' v' hf]

/-- If all rules that a packet matches hand it to one chain, then it goes the way of that
chain. -/
theorem walk_eq_of_jump {τ : Tables} {table name : String} {p : Packet} {depth : ℕ}
    {rs : List Rule} {r : Rule} {c : Chain} {v : Verdict}
    (hc : τ.lookup (table, name) = some c) (hv : walk τ table p depth c.rules = some v)
    (hr : r ∈ rs) (hmatches : r.matches p = true)
    (h : ∀ r' ∈ rs, r'.matches p = true → r'.target = .jump name) :
  walk τ table p (depth + 1) rs = some v
  := by
  apply findSome_eq_some hr
  · rw [Rule.verdict_eq_some, h r hr hmatches, Target.verdict, hc]
    exact ⟨hmatches, hv⟩
  · intro r' hr' v' hv'
    obtain ⟨hmatches', htarget⟩ := Rule.verdict_eq_some.mp hv'
    rw [h r' hr' hmatches', Target.verdict, hc] at htarget
    apply Option.some.inj
    rw [← htarget, ← hv]

/-! ### What commands do to the rules -/

theorem mem_addUnique {rs : List Rule} {r r' : Rule} :
  r' ∈ addUnique rs r ↔ r' ∈ rs ∨ r' = r
  := by
  rw [addUnique]
  split
  · constructor
    · exact Or.inl
    · rintro (h | rfl)
      · exact h
      · assumption
  · rw [List.mem_append, List.mem_singleton]

theorem mem_addAll {rs new : List Rule} {r : Rule} :
  r ∈ addAll rs new ↔ r ∈ rs ∨ r ∈ new
  := by
  induction new generalizing rs with
  | nil => simp [addAll]
  | cons r' new ih =>
    rw [addAll, List.foldl_cons, ← addAll, ih, mem_addUnique, List.mem_cons, or_assoc]

theorem mem_addAll_nil {new : List Rule} {r : Rule} :
  r ∈ addAll [] new ↔ r ∈ new
  := by
  rw [mem_addAll, or_iff_right List.not_mem_nil]

/-- Rules are added in their order. -/
theorem addAll_append (rs new new' : List Rule) :
  addAll rs (new ++ new') = addAll (addAll rs new) new'
  := by
  apply List.foldl_append

/-- A rule that is not there goes to the end. -/
theorem addAll_concat {rs new : List Rule} {r : Rule} (h : r ∉ rs) (h' : r ∉ new) :
  addAll rs (new ++ [r]) = addAll rs new ++ [r]
  := by
  rw [addAll_append]
  apply if_neg
  rw [mem_addAll]
  rintro (hr | hr)
  · exact h hr
  · exact h' hr

/-- Adding rules that are left out. -/
theorem filter_addAll {p : Rule → Bool} {new : List Rule} (h : ∀ r ∈ new, p r = false)
    (rs : List Rule) :
  (addAll rs new).filter p = rs.filter p
  := by
  induction new generalizing rs with
  | nil => rfl
  | cons r new ih =>
    rw [addAll, List.foldl_cons, ← addAll, ih (fun r' hr' => h r' (List.mem_cons_of_mem r hr')),
      addUnique]
    split
    · rfl
    · simp [List.filter_append, h r List.mem_cons_self]

/-- Rules that are there are not added again. -/
theorem addAll_of_subset {rs new : List Rule} (h : new ⊆ rs) :
  addAll rs new = rs
  := by
  induction new with
  | nil => rfl
  | cons r new ih =>
    have hr : addUnique rs r = rs := if_pos (h List.mem_cons_self)
    rw [addAll, List.foldl_cons, hr, ← addAll]
    apply ih
    intro r' hr'
    apply h (List.mem_cons_of_mem r hr')

/-- Adding rules twice adds them once. -/
theorem addAll_addAll (rs new : List Rule) :
  addAll (addAll rs new) new = addAll rs new
  := by
  apply addAll_of_subset
  intro r hr
  apply mem_addAll.mpr (Or.inr hr)

/-! ### Lists -/

section

variable {α : Type*} {xs : List α} {a : α}

/-- A filter that drops what is inserted does not see it. -/
theorem filter_insertIdx {p : α → Bool} (h : p a = false) (xs : List α) (n : ℕ) :
  (xs.insertIdx n a).filter p = xs.filter p
  := by
  induction xs generalizing n with
  | nil => cases n <;> simp [h]
  | cons b xs ih =>
    cases n with
    | zero => rw [List.insertIdx_zero, List.filter_cons_of_neg (by simp [h])]
    | succ n => rw [List.insertIdx_succ_cons, List.filter_cons, List.filter_cons, ih]

/-- Lists that agree on the entries with a property agree on those with a stronger one. -/
theorem filter_eq_of_filter_eq {p q : α → Bool} {ys : List α}
    (h : ys.filter p = xs.filter p) (hq : ∀ b, q b = true → p b = true) :
  ys.filter q = xs.filter q
  := by
  have hpq : ∀ zs : List α, (zs.filter p).filter q = zs.filter q := by
    intro zs
    rw [List.filter_filter]
    apply List.filter_congr
    intro b _
    cases hb : q b with
    | true => rw [hq b hb, Bool.and_self]
    | false => rfl
  rw [← hpq, h, hpq]

/-- Inserting between two lists. -/
theorem insertIdx_length (x y : List α) (a : α) :
  (x ++ y).insertIdx x.length a = x ++ a :: y
  := by
  induction x with
  | nil => rfl
  | cons b x ih =>
    rw [List.cons_append, List.length_cons, List.insertIdx_succ_cons, ih]
    rfl

section

variable [DecidableEq α]

/-- Deleting an entry that is left out. -/
theorem filter_erase {p : α → Bool} (h : p a = false) (xs : List α) :
  (xs.erase a).filter p = xs.filter p
  := by
  rw [← List.erase_filter]
  apply List.erase_of_not_mem
  simp [h]

theorem filter_ne_of_notMem (h : a ∉ xs) :
  xs.filter (· ≠ a) = xs
  := by
  apply List.filter_eq_self.mpr
  intro b hb
  rw [decide_eq_true_eq]
  rintro rfl
  exact h hb

/-- If an entry occurs once, then the others are left after its deletion. -/
theorem erase_eq_filter (h : a ∉ xs.erase a) :
  xs.erase a = xs.filter (· ≠ a)
  := by
  have hfilter := filter_erase (p := (· ≠ a)) (a := a) (by simp) xs
  rw [← hfilter, filter_ne_of_notMem h]

/-- There is at most one exactly if none is left when one is erased. -/
theorem count_le_one_iff :
  xs.count a ≤ 1 ↔ a ∉ xs.erase a
  := by
  rw [← List.count_eq_zero, List.count_erase_self]
  omega

end

/-- The first entry with a property. -/
theorem exists_first {P : α → Prop} [DecidablePred P] (h : ∃ a ∈ xs, P a) :
  ∃ x a y, xs = x ++ a :: y ∧ P a ∧ ∀ b ∈ x, ¬ P b
  := by
  obtain ⟨a, ha, hP⟩ := h
  have hsome : (xs.find? fun a => decide (P a)).isSome :=
    List.find?_isSome.mpr ⟨a, ha, decide_eq_true hP⟩
  obtain ⟨a', hfind⟩ := Option.isSome_iff_exists.mp hsome
  obtain ⟨hP', x, y, rfl, hx⟩ := List.find?_eq_some_iff_append.mp hfind
  use x, a', y, rfl, of_decide_eq_true hP'
  intro b hb
  simpa using hx b hb

/-- The last entry with a property. -/
theorem exists_last {P : α → Prop} [DecidablePred P] (h : ∃ a ∈ xs, P a) :
  ∃ x a y, xs = x ++ a :: y ∧ P a ∧ ∀ b ∈ y, ¬ P b
  := by
  have hreverse : ∃ a ∈ xs.reverse, P a := by simpa using h
  obtain ⟨x, a, y, heq, ha, hx⟩ := exists_first hreverse
  refine ⟨y.reverse, a, x.reverse, ?_, ha, by simpa using hx⟩
  rw [← List.reverse_reverse xs, heq]
  simp

end

/-! ### Specifications -/

section

variable {table chain : String} {r : Rule}

theorem rules_insert (τ : Tables) (k k' : String × String) (c : Chain) :
  rules (τ.insert k c) k' = if k' = k then c.rules else rules τ k'
  := by
  rw [rules, GoMap.lookup_insert_eq]
  split <;> rfl

theorem rules_erase (τ : Tables) (k k' : String × String) :
  rules (τ.erase k) k' = if k' = k then [] else rules τ k'
  := by
  rw [rules, GoMap.lookup_erase_eq]
  split <;> rfl

theorem rules_of_lookup {τ : Tables} {k : String × String} {c : Chain}
    (h : τ.lookup k = some c) :
  rules τ k = c.rules
  := by
  rw [rules, h, Option.getD_some]

/-- A chain that is not there has no rules. -/
theorem rules_of_lookup_none {τ : Tables} {k : String × String} (h : τ.lookup k = none) :
  rules τ k = []
  := by
  rw [rules, h, Option.getD_none]

/-- Changing the rules of a chain. -/
theorem rules_modify {τ : Tables} {k : String × String} {c : Chain} (h : τ.lookup k = some c)
    (f : List Rule → List Rule) (k' : String × String) :
  rules (τ.insert k { c with rules := f c.rules }) k'
    = if k' = k then f (rules τ k') else rules τ k'
  := by
  rw [rules_insert]
  split
  · next hk => rw [hk, rules_of_lookup h]
  · rfl

/-- A chain with a rule is there. -/
theorem exists_lookup_of_mem {τ : Tables} {k : String × String} {r : Rule} (h : r ∈ rules τ k) :
  ∃ c, τ.lookup k = some c ∧ c.rules = rules τ k
  := by
  cases hlookup : τ.lookup k with
  | none =>
    rw [rules_of_lookup_none hlookup] at h
    cases h
  | some c => exact ⟨c, rfl, (rules_of_lookup hlookup).symm⟩

/-- Making a chain changes no rules. -/
@[spec]
theorem newChain_spec (τ₀ : Tables) :
  ⦃fun τ => ⌜τ = τ₀⌝⦄
  newChain table chain
  ⦃post⟨fun _ τ => ⌜∀ k, rules τ k = rules τ₀ k⌝, fun e τ => ⌜e = .chainExists ∧ τ = τ₀⌝⟩⦄
  := by
  mvcgen [newChain]
  next τ h hnone _ =>
    subst h
    intro k
    rw [rules_insert]
    split
    · next hk => rw [hk, rules_of_lookup_none hnone]
    · rfl

/-- Clearing a chain never fails, also if it is not there. -/
@[spec]
theorem clearChain_spec (τ₀ : Tables) :
  ⦃fun τ => ⌜τ = τ₀⌝⦄
  clearChain table chain
  ⦃post⟨fun _ τ => ⌜∀ k, rules τ k = if k = (table, chain) then [] else rules τ₀ k⌝,
    fun _ _ => ⌜False⌝⟩⦄
  := by
  mvcgen [clearChain]
  · next τ h c hsome _ =>
    rw [← h]
    apply rules_modify hsome (fun _ => [])
  · next τ h hnone _ =>
    rw [← h]
    intro k
    apply rules_insert

/-- A chain that is deleted had no rules. -/
@[spec]
theorem deleteChain_spec (τ₀ : Tables) :
  ⦃fun τ => ⌜τ = τ₀⌝⦄
  deleteChain table chain
  ⦃post⟨fun _ τ => ⌜∀ k, rules τ k = rules τ₀ k⌝, fun _ τ => ⌜τ = τ₀⌝⟩⦄
  := by
  mvcgen [deleteChain]
  next τ h c hsome _ hempty _ _ =>
    subst h
    intro k
    rw [rules_erase]
    split
    · next hk => rw [hk, rules_of_lookup hsome, not_not.mp hempty]
    · rfl

/-- The rule is added at the end, unless it is there. -/
@[spec]
theorem appendUnique_spec (τ₀ : Tables) :
  ⦃fun τ => ⌜τ = τ₀⌝⦄
  appendUnique table chain r
  ⦃post⟨fun _ τ => ⌜∀ k, rules τ k
      = if k = (table, chain) then addUnique (rules τ₀ k) r else rules τ₀ k⌝,
    fun _ τ => ⌜τ = τ₀⌝⟩⦄
  := by
  mvcgen [appendUnique]
  next τ h c hsome _ =>
    rw [← h]
    apply rules_modify hsome (addUnique · r)

/-- The rule is added at the position, unless it is there. -/
@[spec]
theorem insertUnique_spec (pos : ℕ) (τ₀ : Tables) :
  ⦃fun τ => ⌜τ = τ₀⌝⦄
  insertUnique table chain pos r
  ⦃post⟨fun _ τ => ⌜∀ k, rules τ k = if k = (table, chain) ∧ r ∉ rules τ₀ k
        then (rules τ₀ k).insertIdx (pos - 1) r else rules τ₀ k⌝,
    fun _ τ => ⌜τ = τ₀⌝⟩⦄
  := by
  mvcgen [insertUnique]
  · next τ h c hsome hmem =>
    subst h
    intro k
    rw [if_neg]
    rintro ⟨rfl, hnot⟩
    rw [rules_of_lookup hsome] at hnot
    exact hnot hmem
  · next τ h c hsome hmem _ _ =>
    subst h
    intro k
    rw [rules_modify hsome (List.insertIdx · (pos - 1) r)]
    by_cases hk : k = (table, chain)
    · rw [if_pos hk, hk, rules_of_lookup hsome, if_pos ⟨rfl, hmem⟩]
    · rw [if_neg hk, if_neg (fun h => hk h.1)]

/-- The first of the equal rules goes. -/
@[spec]
theorem delete_spec (τ₀ : Tables) :
  ⦃fun τ => ⌜τ = τ₀⌝⦄
  delete table chain r
  ⦃post⟨fun _ τ => ⌜∀ k, rules τ k
      = if k = (table, chain) then (rules τ₀ k).erase r else rules τ₀ k⌝,
    fun _ τ => ⌜τ = τ₀⌝⟩⦄
  := by
  mvcgen [delete]
  next τ h c hsome _ _ =>
    rw [← h]
    apply rules_modify hsome (List.erase · r)

@[spec]
theorem list_spec (τ₀ : Tables) :
  ⦃fun τ => ⌜τ = τ₀⌝⦄
  list table chain
  ⦃post⟨fun _ τ => ⌜τ = τ₀⌝, fun _ τ => ⌜τ = τ₀⌝⟩⦄
  := by
  mvcgen [list]

end

end Iptables
