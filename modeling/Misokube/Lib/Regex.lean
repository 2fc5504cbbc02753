import Mathlib.Data.List.Basic
import Mathlib.Data.List.Infix
import Mathlib.Data.Nat.Notation

/-!
# Regular expressions

Expressions over byte strings that are read as UTF-8, where a byte that does not begin a rune is a
rune by itself.  All matches at the start of a text are listed in the order of preference, so that
the first one is what a backtracking search finds; a match in a text is the first one at the first
rune that has one.  Of the operators there are literals, the end of the text, alternatives,
sequences, groups, and the lazy repetition of runes of a class.

The text of a group in the first match (`submatch`) is computed by one rule for each form of
expression, and the search is reduced to it (`getElem?_findStringSubmatch`).
-/

/-- A byte string. -/
abbrev Regex.Text := List UInt8

/-- Expressions, where `lazySome p` stands for `.+?` with the runes of the class `p` for the dot. -/
inductive Regex where
  | literal (w : Regex.Text)
  | endOfText
  | lazySome (p : Regex.Text → Bool)
  | group (i : ℕ) (r : Regex)
  | alt (r r' : Regex)
  | seq (r r' : Regex)

namespace Regex

/-! ### Runes -/

/-- The number of bytes of a rune by its first byte, and 1 if no rune begins with it. -/
def runeSize (b : UInt8) : ℕ :=
  if b < 0xC2 then 1
  else if b < 0xE0 then 2
  else if b < 0xF0 then 3
  else if b < 0xF5 then 4
  else 1

/-- The second byte of a rune of several bytes, by its first one. -/
def isSecond (b c : UInt8) : Bool :=
  (if b = 0xE0 then 0xA0 else if b = 0xF0 then 0x90 else 0x80) ≤ c
    && c ≤ if b = 0xED then 0x9F else if b = 0xF4 then 0x8F else 0xBF

def isContinuation (c : UInt8) : Bool :=
  0x80 ≤ c && c ≤ 0xBF

/-- The first rune of a text that begins with `b`, and the text after it. -/
def rune (b : UInt8) (t : Text) : Text × Text :=
  let u := t.take (runeSize b - 1)
  if u.length = runeSize b - 1 ∧ u.head?.all (isSecond b) ∧ u.all isContinuation then
    (b :: u, t.drop (runeSize b - 1))
  else ([b], t)

/-- All bytes of a rune but the first one are not ASCII. -/
theorem exists_rune (b : UInt8) (t : Text) :
  ∃ u v, rune b t = (b :: u, v) ∧ t = u ++ v ∧ ∀ c ∈ u, 0x80 ≤ c
  := by
  rw [rune]
  split_ifs with h
  · obtain ⟨-, -, hall⟩ := h
    refine ⟨_, _, rfl, (List.take_append_drop _ t).symm, ?_⟩
    intro c hc
    have hcont := List.all_eq_true.mp hall c hc
    rw [isContinuation, Bool.and_eq_true, decide_eq_true_eq] at hcont
    exact hcont.1
  · refine ⟨[], t, rfl, rfl, ?_⟩
    rintro c ⟨⟩

theorem rune_of_lt {b : UInt8} (hb : b < 0x80) (t : Text) :
  rune b t = ([b], t)
  := by
  have hsize : runeSize b = 1 := by
    rw [runeSize, if_pos]
    apply UInt8.lt_trans hb
    decide
  simp [rune, hsize]

/-! ### Matches -/

/-- What follows a match, and the texts of the groups. -/
structure Match where
  rest : Text
  groups : List (ℕ × Text)

/-- What follows one rune of the class, two runes, and so on. -/
def lazyRests (p : Text → Bool) : ℕ → Text → List Text
  | 0, _ => []
  | _ + 1, [] => []
  | n + 1, b :: t =>
    if p (rune b t).1 then (rune b t).2 :: lazyRests p n (rune b t).2 else []

/-- All matches at the start of the text, the preferred ones first. -/
def run : Regex → Text → List Match
  | literal w, s => if w <+: s then [⟨s.drop w.length, []⟩] else []
  | endOfText, s => if s = [] then [⟨[], []⟩] else []
  | lazySome p, s => (lazyRests p s.length s).map fun rest => ⟨rest, []⟩
  | group i r, s =>
    (run r s).map fun m => ⟨m.rest, (i, s.take (s.length - m.rest.length)) :: m.groups⟩
  | alt r r', s => run r s ++ run r' s
  | seq r r', s =>
    (run r s).flatMap fun m => (run r' m.rest).map fun m' => ⟨m'.rest, m.groups ++ m'.groups⟩

/-- The first match at the first rune that has one, with the text from that rune on. -/
def find (r : Regex) : ℕ → Text → Option (Text × Match)
  | n + 1, b :: t =>
    ((r.run (b :: t)).head?.map fun m => (b :: t, m)).or (find r n (rune b t).2)
  | _, s => (r.run s).head?.map fun m => (s, m)

/-- The number of groups. -/
def numSubexp : Regex → ℕ
  | group _ r => r.numSubexp + 1
  | alt r r' => r.numSubexp + r'.numSubexp
  | seq r r' => r.numSubexp + r'.numSubexp
  | _ => 0

/-- The texts of the match and of its groups, where a group that takes no part in it has the empty
text; nothing if there is no match. -/
def findStringSubmatch (r : Regex) (s : Text) : List Text :=
  match r.find s.length s with
  | none => []
  | some (t, m) =>
    t.take (t.length - m.rest.length)
      :: (List.range r.numSubexp).map fun i => (m.groups.lookup (i + 1)).getD []

/-! ### The text of a group -/

/-- The text of the group `i` in the first match at the start of the text. -/
def submatch (r : Regex) (i : ℕ) (s : Text) : Option Text :=
  (r.run s).head?.map fun m => (m.groups.lookup i).getD []

theorem submatch_eq_none {r : Regex} {i : ℕ} {s : Text} :
  r.submatch i s = none ↔ r.run s = []
  := by
  rw [submatch, Option.map_eq_none_iff, List.head?_eq_none_iff]

theorem submatch_seq (r r' : Regex) (i : ℕ) (s : Text) :
  (seq r r').submatch i s
    = (r.run s).findSome? fun m => (r'.run m.rest).head?.map fun m' =>
      ((m.groups ++ m'.groups).lookup i).getD []
  := by
  rw [submatch, run, List.head?_flatMap, List.map_findSome?]
  congr 1
  funext m
  rw [Function.comp_apply, List.head?_map, Option.map_map]
  rfl

theorem submatch_literal_seq (w : Text) (r : Regex) (i : ℕ) (s : Text) :
  (seq (literal w) r).submatch i s = if w <+: s then r.submatch i (s.drop w.length) else none
  := by
  rw [submatch_seq, run]
  split_ifs
  · simp [submatch]
  · rfl

theorem submatch_alt_seq (r r' r'' : Regex) (i : ℕ) (s : Text) :
  (seq (alt r r') r'').submatch i s
    = ((seq r r'').submatch i s).or ((seq r' r'').submatch i s)
  := by
  rw [submatch_seq, submatch_seq, submatch_seq, run, List.findSome?_append]

/-- Another group does not matter. -/
theorem submatch_group_seq {i j : ℕ} (hij : i ≠ j) (r r' : Regex) (s : Text) :
  (seq (group j r) r').submatch i s = (seq r r').submatch i s
  := by
  rw [submatch_seq, submatch_seq, run, List.findSome?_map]
  congr 1
  funext m
  simp [List.lookup_cons, beq_false_of_ne hij]

/-- The group `i` has the text up to where the rest of the expression matches. -/
theorem submatch_group_seq_self (i : ℕ) (r r' : Regex) (s : Text) :
  (seq (group i r) r').submatch i s
    = (r.run s).findSome? fun m =>
      if r'.run m.rest = [] then none else some (s.take (s.length - m.rest.length))
  := by
  rw [submatch_seq, run, List.findSome?_map]
  congr 1
  funext m
  cases hrun : r'.run m.rest with
  | nil => simp [hrun]
  | cons m' ms => simp [hrun]

/-! ### Texts up to a byte -/

/-- `.`, every rune but a newline. -/
def any (w : Text) : Bool :=
  w != [0x0A]

/-- The text up to the byte `d`, but at least the first byte. -/
def upTo (d : UInt8) : Text → Text
  | [] => []
  | b :: t => b :: t.takeWhile (· != d)

theorem upTo_isPrefix (d : UInt8) (s : Text) :
  upTo d s <+: s
  := by
  cases s with
  | nil => exact List.nil_prefix
  | cons b t =>
    rw [upTo, List.cons_prefix_cons]
    exact ⟨rfl, List.takeWhile_prefix _⟩

theorem upTo_append {d b : UInt8} {u v : Text} (hu : d ∉ u) :
  upTo d (b :: (u ++ v)) = b :: u ++ v.takeWhile (· != d)
  := by
  rw [upTo, List.takeWhile_append_of_pos, List.cons_append]
  intro c hc
  rw [bne_iff_ne]
  rintro rfl
  exact hu hc

theorem takeWhile_eq_nil_or_upTo (d : UInt8) (s : Text) :
  s ≠ [] ∧ s.head? ≠ some d ∧ s.takeWhile (· != d) = upTo d s
    ∨ ¬ (s ≠ [] ∧ s.head? ≠ some d) ∧ s.takeWhile (· != d) = []
  := by
  cases s with
  | nil => simp
  | cons b t =>
    by_cases hb : b = d
    · simp [hb]
    · simp [hb, upTo]

theorem any_rune {b : UInt8} {t u v : Text} (hrune : rune b t = (b :: u, v))
    (hu : ∀ c ∈ u, 0x80 ≤ c) :
  any (b :: u) = true ↔ 0x0A ∉ b :: u
  := by
  rw [any, bne_iff_ne, not_iff_not]
  constructor
  · intro h
    rw [h]
    exact List.mem_singleton_self _
  · intro hmem
    obtain rfl | hmem := List.mem_cons.mp hmem
    · rw [rune_of_lt (by decide), Prod.mk.injEq] at hrune
      exact hrune.1.symm
    · exact absurd (hu _ hmem) (by decide)

/-- The first rest that is empty or begins with `d`. -/
theorem findSome?_lazyRests {α : Type} (f : Text → α) {d : UInt8} (hd : d < 0x80) {n : ℕ} {s : Text}
    (hn : s.length ≤ n) :
  (lazyRests any n s).findSome?
      (fun rest => if rest ≠ [] ∧ rest.head? ≠ some d then none else some (f rest))
    = if upTo d s = [] ∨ 0x0A ∈ upTo d s then none else some (f (s.drop (upTo d s).length))
  := by
  induction n generalizing s with
  | zero =>
    obtain rfl := List.length_eq_zero_iff.mp (Nat.le_zero.mp hn)
    rfl
  | succ n ih =>
    cases s with
    | nil => rfl
    | cons b t =>
      obtain ⟨u, v, hrune, rfl, hu⟩ := exists_rune b t
      have hdu : d ∉ u := by
        intro hmem
        exact absurd hd (UInt8.not_lt.mpr (hu d hmem))
      rw [lazyRests, hrune, upTo_append hdu]
      by_cases hany : 0x0A ∈ b :: u
      · -- the rune is a newline
        have hfalse : any (b :: u) ≠ true := by
          rw [ne_eq, any_rune hrune hu, not_not]
          exact hany
        rw [if_neg hfalse, if_pos]
        · rfl
        · right
          exact List.mem_append_left _ hany
      · have htrue : any (b :: u) = true := (any_rune hrune hu).mpr hany
        rw [if_pos htrue, List.findSome?_cons]
        obtain ⟨hne, hhead, hwhile⟩ | ⟨hends, hwhile⟩ := takeWhile_eq_nil_or_upTo d v
        · -- the repetition goes on
          have hv : v.length ≤ n := by
            rw [List.length_cons, List.length_append] at hn
            omega
          rw [if_pos ⟨hne, hhead⟩, hwhile]
          simp only
          rw [ih hv]
          have hupTo : upTo d v ≠ [] := by
            cases v with
            | nil => exact absurd rfl hne
            | cons c v => exact List.cons_ne_nil _ _
          have hdrop : (b :: (u ++ v)).drop (b :: u ++ upTo d v).length
              = v.drop (upTo d v).length := by
            rw [← List.cons_append, List.length_append, ← List.drop_drop, List.drop_left]
          simp only [hupTo, false_or, hdrop, List.append_eq_nil_iff, reduceCtorEq, false_and,
            List.mem_append, hany]
        · rw [if_neg hends, hwhile, List.append_nil, if_neg]
          · simp
          · simp [hany]

theorem submatch_upTo {d : UInt8} (hd : d < 0x80) (i j : ℕ) (s : Text) :
  (seq (group i (lazySome any)) (group j (alt (literal [d]) endOfText))).submatch i s
    = if upTo d s = [] ∨ 0x0A ∈ upTo d s then none else some (upTo d s)
  := by
  have hends : ∀ rest, (group j (alt (literal [d]) endOfText)).run rest = []
      ↔ rest ≠ [] ∧ rest.head? ≠ some d := by
    intro rest
    cases rest with
    | nil => simp [run]
    | cons b t => simp [run, eq_comm (a := d)]
  rw [submatch_group_seq_self, run, List.findSome?_map]
  simp only [Function.comp_def, hends]
  rw [findSome?_lazyRests (fun rest => s.take (s.length - rest.length)) hd le_rfl]
  have htake : s.take (s.length - (s.drop (upTo d s).length).length) = upTo d s := by
    have hle := (upTo_isPrefix d s).length_le
    rw [List.length_drop, Nat.sub_sub_self hle]
    exact (List.prefix_iff_eq_take.mp (upTo_isPrefix d s)).symm
  rw [htake]

/-! ### The search -/

/-- If all matches begin with an ASCII byte, then the search may go on byte by byte. -/
theorem find_eq {r : Regex} (hr : ∀ b t, 0x80 ≤ b → r.run (b :: t) = []) {n : ℕ} {s : Text}
    (hn : s.length ≤ n) :
  r.find n s = s.tails.findSome? fun t => (r.run t).head?.map fun m => (t, m)
  := by
  -- no match begins within a rune
  have hskip : ∀ u v : Text, (∀ c ∈ u, 0x80 ≤ c) →
      (u ++ v).tails.findSome? (fun t => (r.run t).head?.map fun m => (t, m))
        = v.tails.findSome? fun t => (r.run t).head?.map fun m => (t, m) := by
    intro u v hu
    induction u with
    | nil => rfl
    | cons c u ih =>
      rw [List.forall_mem_cons] at hu
      rw [List.cons_append, List.tails_cons, List.findSome?_cons, hr c _ hu.1]
      exact ih hu.2
  induction n generalizing s with
  | zero =>
    obtain rfl := List.length_eq_zero_iff.mp (Nat.le_zero.mp hn)
    simp [find]
  | succ n ih =>
    cases s with
    | nil => simp [find]
    | cons b t =>
      obtain ⟨u, v, hrune, rfl, hu⟩ := exists_rune b t
      have hv : v.length ≤ n := by
        rw [List.length_cons, List.length_append] at hn
        omega
      rw [find, hrune, ih hv, List.tails_cons, List.findSome?_cons, hskip u v hu]
      cases (r.run (b :: (u ++ v))).head? <;> rfl

/-- The group `i` of the first match is that of the first text that has one. -/
theorem getElem?_findStringSubmatch {r : Regex} (hr : ∀ b t, 0x80 ≤ b → r.run (b :: t) = [])
    {i : ℕ} (hi : i < r.numSubexp) (s : Text) :
  (r.findStringSubmatch s)[i + 1]? = s.tails.findSome? (r.submatch (i + 1))
  := by
  have hfind : s.tails.findSome? (r.submatch (i + 1))
      = (r.find s.length s).map fun p => (p.2.groups.lookup (i + 1)).getD [] := by
    rw [find_eq hr le_rfl, List.map_findSome?]
    congr 1
    funext t
    rw [Function.comp_apply, Option.map_map]
    rfl
  rw [hfind, findStringSubmatch]
  cases r.find s.length s with
  | none => rfl
  | some p => simp [hi]

end Regex
