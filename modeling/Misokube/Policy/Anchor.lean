import Misokube.Lib.Edits
import Misokube.Policy.Specs

/-!
# The place of the private anchor

The jump from `FORWARD` to the rules of the private tenants is to be after the rules of the default
tenant and before those of Kubernetes.  Its position is computed from the lines printed for
`FORWARD`, the first of which is the policy of the chain, and used as the number of a rule.  So it
is one too great: the jump comes after the first Kubernetes rule, or one rule later than needed
after the last rule of the default tenant, where there may be no such position.  And only one of
several jumps that are there already is deleted.  `ensurePrivateAnchor_anchored_iff` says when the
jump is placed right nevertheless.
-/

namespace Policy

open Iptables Command

/-! ### Rules of `FORWARD` -/

/-- The line of the rule has the mark of the default tenant. -/
def IsDefault (r : Rule) : Prop :=
  contains (r.line "FORWARD") "default-tenant-" = true

/-- The line of the rule has a mark of Kubernetes. -/
def IsKube (r : Rule) : Prop :=
  contains (r.line "FORWARD") "KUBE-" = true ∨ contains (r.line "FORWARD") "kubernetes " = true

/-- The rule hands packets to the rules of the private tenants. -/
def ToAnchor (r : Rule) : Prop :=
  r.target = .jump privateAnchorChain

instance : DecidablePred IsDefault :=
  fun r => inferInstanceAs (Decidable (contains (r.line "FORWARD") "default-tenant-" = true))

instance : DecidablePred IsKube :=
  fun r => inferInstanceAs (Decidable (contains (r.line "FORWARD") "KUBE-" = true
    ∨ contains (r.line "FORWARD") "kubernetes " = true))

instance : DecidablePred ToAnchor :=
  fun r => inferInstanceAs (Decidable (r.target = .jump privateAnchorChain))

/-- All rules of the default tenant precede all Kubernetes rules. -/
def DefaultFirst (rs : List Rule) : Prop :=
  ∀ (i j : ℕ) (r r' : Rule), rs[i]? = some r → rs[j]? = some r' → IsDefault r → IsKube r' → i < j

/-- The other rules are in their order, and there is exactly one jump to the rules of the private
tenants, after all rules of the default tenant and before all Kubernetes rules. -/
structure AnchorPlaced (rs rs' : List Rule) : Prop where
  others : rs'.filter (· ≠ privateAnchor) = rs.filter (· ≠ privateAnchor)
  anchor : ∃ before r after, rs' = before ++ r :: after ∧ ToAnchor r
    ∧ (∀ r' ∈ before ++ after, ¬ ToAnchor r') ∧ (∀ r' ∈ before, ¬ IsKube r')
    ∧ ∀ r' ∈ after, ¬ IsDefault r'

/-- There is at most one jump and no Kubernetes rule, and the last of the other rules is not one of
the default tenant. -/
structure Single (rs : List Rule) : Prop where
  count : rs.count privateAnchor ≤ 1
  kube : ∀ r ∈ rs, ¬ IsKube r
  last : ∀ r ∈ (rs.filter (· ≠ privateAnchor)).getLast?, ¬ IsDefault r

/-- There are two jumps, and the second one is in its place. -/
def Double (rs : List Rule) : Prop :=
  ∃ before mid after, rs = before ++ privateAnchor :: (mid ++ privateAnchor :: after)
    ∧ privateAnchor ∉ before ∧ privateAnchor ∉ mid ∧ privateAnchor ∉ after
    ∧ (∀ r ∈ before ++ mid, ¬ IsKube r) ∧ ∀ r ∈ after, ¬ IsDefault r

/-- No other rule hands packets to the rules of the private tenants, and the jump is placed right by
the position that is computed, or was so before. -/
structure Placeable (rs : List Rule) : Prop where
  own : ∀ r ∈ rs, ToAnchor r → r = privateAnchor
  place : Single rs ∨ Double rs

/-! ### The position -/

/-- What one line changes in the places of the last rule of the default tenant and the first
Kubernetes rule. -/
def scanLine : ℕ × ℕ → String × ℕ → ℕ × ℕ :=
  fun (lastDefault, firstKube) (line, idx) =>
    if contains line "default-tenant-" then (idx + 1, firstKube)
    else if firstKube = 0 ∧ (contains line "KUBE-" ∨ contains line "kubernetes ") then
      (lastDefault, idx + 1)
    else (lastDefault, firstKube)

theorem blockPosition_eq (lines : List String) :
  blockPosition lines
    = if (lines.zipIdx.foldl scanLine (0, 0)).2 > 0 then (lines.zipIdx.foldl scanLine (0, 0)).2
      else if (lines.zipIdx.foldl scanLine (0, 0)).1 > 0 then
        (lines.zipIdx.foldl scanLine (0, 0)).1 + 1
      else 1
  := rfl

section

variable {rs x y : List Rule} {r : Rule}

/-- The lines of rules, scanned from an index on. -/
def scanRules (rs : List Rule) (n : ℕ) (p : ℕ × ℕ) : ℕ × ℕ :=
  ((rs.map (Rule.line "FORWARD")).zipIdx n).foldl scanLine p

theorem scanRules_append (x y : List Rule) (n : ℕ) (p : ℕ × ℕ) :
  scanRules (x ++ y) n p = scanRules y (n + x.length) (scanRules x n p)
  := by
  rw [scanRules, List.map_append, List.zipIdx_append, List.foldl_append, List.length_map]
  rfl

theorem scanRules_cons (r : Rule) (rs : List Rule) (n d k : ℕ) :
  scanRules (r :: rs) n (d, k)
    = scanRules rs (n + 1) (if IsDefault r then (n + 1, k)
      else if k = 0 ∧ IsKube r then (d, n + 1) else (d, k))
  := by
  rw [scanRules, List.map_cons, List.zipIdx_cons, List.foldl_cons, ← scanRules]
  congr 1

/-- Without a rule of the default tenant, the place of the last one stays. -/
theorem scanRules_fst (h : ∀ r ∈ rs, ¬ IsDefault r) (n d k : ℕ) :
  (scanRules rs n (d, k)).1 = d
  := by
  induction rs generalizing n k with
  | nil => rfl
  | cons r rs ih =>
    have hrest := ih fun r' hr' => h r' (List.mem_cons_of_mem r hr')
    rw [scanRules_cons, if_neg (h r List.mem_cons_self)]
    split
    · apply hrest
    · apply hrest

/-- Without a Kubernetes rule, or after the first one, its place stays. -/
theorem scanRules_snd {k : ℕ} (h : 0 < k ∨ ∀ r ∈ rs, ¬ IsKube r) (n d : ℕ) :
  (scanRules rs n (d, k)).2 = k
  := by
  induction rs generalizing n d with
  | nil => rfl
  | cons r rs ih =>
    have hnot : ¬ (k = 0 ∧ IsKube r) := by
      rintro ⟨hzero, hkube⟩
      obtain hpos | hall := h
      · omega
      · apply hall r List.mem_cons_self hkube
    have hrest := ih (h.imp_right fun hall r' hr' => hall r' (List.mem_cons_of_mem r hr'))
    rw [scanRules_cons, if_neg hnot]
    split
    · apply hrest
    · apply hrest

/-- The position that is computed from a first line without mark and the lines of rules. -/
theorem blockPosition_cons {head : String} (hhead : scanLine (0, 0) (head, 0) = (0, 0))
    (rs : List Rule) :
  blockPosition (head :: rs.map (Rule.line "FORWARD"))
    = if (scanRules rs 1 (0, 0)).2 > 0 then (scanRules rs 1 (0, 0)).2
      else if (scanRules rs 1 (0, 0)).1 > 0 then (scanRules rs 1 (0, 0)).1 + 1 else 1
  := by
  rw [blockPosition_eq, List.zipIdx_cons, List.foldl_cons, hhead]
  rfl

/-- The number of the rule after the first Kubernetes rule. -/
theorem blockPosition_kube {head : String} (hhead : scanLine (0, 0) (head, 0) = (0, 0))
    (hx : ∀ r ∈ x, ¬ IsKube r) (hr : IsKube r) (hr' : ¬ IsDefault r) :
  blockPosition (head :: (x ++ r :: y).map (Rule.line "FORWARD")) = x.length + 2
  := by
  have hsnd : (scanRules (x ++ r :: y) 1 (0, 0)).2 = x.length + 2 := by
    have hzero : (scanRules x 1 (0, 0)).2 = 0 := scanRules_snd (Or.inr hx) 1 0
    rw [scanRules_append]
    generalize scanRules x 1 (0, 0) = p at hzero ⊢
    obtain ⟨d, k⟩ := p
    obtain rfl : k = 0 := hzero
    rw [scanRules_cons, if_neg hr', if_pos ⟨rfl, hr⟩, scanRules_snd (Or.inl (Nat.succ_pos _))]
    omega
  rw [blockPosition_cons hhead, hsnd, if_pos (Nat.succ_pos _)]

/-- The number of the second rule after the last one of the default tenant. -/
theorem blockPosition_default {head : String} (hhead : scanLine (0, 0) (head, 0) = (0, 0))
    (hkube : ∀ r' ∈ x ++ r :: y, ¬ IsKube r') (hr : IsDefault r) (hy : ∀ r ∈ y, ¬ IsDefault r) :
  blockPosition (head :: (x ++ r :: y).map (Rule.line "FORWARD")) = x.length + 3
  := by
  have hsnd : (scanRules (x ++ r :: y) 1 (0, 0)).2 = 0 := scanRules_snd (Or.inr hkube) 1 0
  have hfst : (scanRules (x ++ r :: y) 1 (0, 0)).1 = x.length + 2 := by
    rw [scanRules_append]
    generalize scanRules x 1 (0, 0) = p
    obtain ⟨d, k⟩ := p
    rw [scanRules_cons, if_pos hr, scanRules_fst hy]
    omega
  rw [blockPosition_cons hhead, hsnd, if_neg (lt_irrefl 0), hfst, if_pos (Nat.succ_pos _)]

theorem blockPosition_none {head : String} (hhead : scanLine (0, 0) (head, 0) = (0, 0))
    (hkube : ∀ r ∈ rs, ¬ IsKube r) (hdefault : ∀ r ∈ rs, ¬ IsDefault r) :
  blockPosition (head :: rs.map (Rule.line "FORWARD")) = 1
  := by
  rw [blockPosition_cons hhead, scanRules_snd (Or.inr hkube), scanRules_fst hdefault]
  rfl

/-! ### Runs -/

theorem ensureChainExists_run {chain : String} (hchain : chain ≠ "") (τ : Tables) :
  ∃ τ', (ensureChainExists chain).run τ = .ok () τ'
    ∧ ∀ k, k ≠ ("filter", chain) → τ'.lookup k = τ.lookup k
  := by
  cases h : τ.lookup ("filter", chain) with
  | none =>
    refine ⟨τ.insert ("filter", chain) {}, ?_, fun k hk => AList.lookup_insert_ne hk⟩
    simp [ensureChainExists, hchain, EStateM.run_tryCatch, newChain_run_of_none h]
  | some c =>
    refine ⟨τ, ?_, fun _ _ => rfl⟩
    simp [ensureChainExists, hchain, EStateM.run_tryCatch, newChain_run h, isChainExistsErr]
    rfl

/-- The first jump is deleted, and a new one inserted unless there is another. -/
theorem ensurePrivateAnchor_run {τ : Tables} {c : Chain} {policy : String}
    (hforward : τ.lookup ("filter", "FORWARD") = some c) (hpolicy : c.policy = some policy) :
  ∃ τ', τ'.lookup ("filter", "FORWARD") = some { c with rules := c.rules.erase privateAnchor }
    ∧ ensurePrivateAnchor.run τ
      = (insertUnique "filter" "FORWARD" (blockPosition (("-P FORWARD " ++ policy)
          :: (c.rules.erase privateAnchor).map (Rule.line "FORWARD"))) privateAnchor).run τ'
  := by
  obtain ⟨τ₁, hexists, hframe⟩ := ensureChainExists_run
    (show privateAnchorChain ≠ "" by decide) τ
  have hforward₁ : τ₁.lookup ("filter", "FORWARD") = some c := by
    rw [hframe _ (by simp [anchor_ne_forward.symm]), hforward]
  obtain ⟨τ₂, hdelete, hforward₂⟩ : ∃ τ₂,
      (tryCatch (delete "filter" "FORWARD" privateAnchor) fun _ => pure ()).run τ₁ = .ok () τ₂
        ∧ τ₂.lookup ("filter", "FORWARD")
          = some { c with rules := c.rules.erase privateAnchor } := by
    rw [EStateM.run_tryCatch, delete_run hforward₁]
    by_cases hmem : privateAnchor ∈ c.rules
    · rw [if_pos hmem]
      exact ⟨_, rfl, AList.lookup_insert _⟩
    · rw [if_neg hmem, List.erase_of_not_mem hmem]
      exact ⟨τ₁, rfl, hforward₁⟩
  use τ₂, hforward₂
  rw [ensurePrivateAnchor, EStateM.run_bind, hexists]
  dsimp only
  rw [EStateM.run_bind, hdelete]
  dsimp only
  rw [EStateM.run_bind, afterDefaultBlockPosition, EStateM.run_bind, list_run hforward₂ hpolicy]
  rfl

/-! ### Placed jumps -/

theorem not_isKube_privateAnchor :
  ¬ IsKube privateAnchor
  := by
  decide +kernel

theorem AnchorPlaced.countP {rs' : List Rule} (h : AnchorPlaced rs rs') :
  rs'.countP (fun r => decide (ToAnchor r)) = 1
  := by
  obtain ⟨before, r, after, rfl, hto, hnot, -⟩ := h.anchor
  have hnone : ∀ l, l ⊆ before ++ after → l.countP (fun r => decide (ToAnchor r)) = 0 := by
    intro l hl
    apply List.countP_eq_zero.mpr
    intro r' hr'
    simpa using hnot r' (hl hr')
  rw [List.countP_append, List.countP_cons_of_pos (by simpa using hto),
    hnone before (List.subset_append_left _ _), hnone after (List.subset_append_right _ _)]

/-- The only jump of a list is in its place. -/
theorem anchorPlaced_iff (hx : privateAnchor ∉ x) (hy : privateAnchor ∉ y) :
  AnchorPlaced rs (x ++ privateAnchor :: y)
    ↔ rs.filter (· ≠ privateAnchor) = x ++ y ∧ (∀ r ∈ x ++ y, ¬ ToAnchor r)
      ∧ (∀ r ∈ x, ¬ IsKube r) ∧ ∀ r ∈ y, ¬ IsDefault r
  := by
  have hfilter : (x ++ privateAnchor :: y).filter (· ≠ privateAnchor) = x ++ y := by
    rw [List.filter_append, List.filter_cons_of_neg (by simp), filter_ne_of_notMem hx,
      filter_ne_of_notMem hy]
  constructor
  · rintro ⟨hothers, before, r, after, heq, -, hnot, hkube, hdefault⟩
    have hself : ∀ l, l ⊆ before ++ after → privateAnchor ∉ l := by
      intro l hl hmem
      apply hnot privateAnchor (hl hmem) rfl
    have hr : r = privateAnchor := by
      have hmem : privateAnchor ∈ before ++ r :: after := by
        rw [← heq]
        simp
      rw [List.mem_append, List.mem_cons] at hmem
      obtain hmem | hmem | hmem := hmem
      · exact absurd hmem (hself before (List.subset_append_left _ _))
      · exact hmem.symm
      · exact absurd hmem (hself after (List.subset_append_right _ _))
    subst hr
    obtain ⟨rfl, -, rfl⟩ := (List.append_cons_inj_of_notMem hx hy).mp heq
    exact ⟨by rw [← hothers, hfilter], hnot, hkube, hdefault⟩
  · rintro ⟨hothers, hnot, hkube, hdefault⟩
    constructor
    · rw [hfilter, hothers]
    · exact ⟨x, privateAnchor, y, rfl, rfl, hnot, hkube, hdefault⟩

theorem Double.mem_erase (h : Double rs) :
  privateAnchor ∈ rs.erase privateAnchor
  := by
  obtain ⟨before, mid, after, rfl, hbefore, -⟩ := h
  rw [List.erase_append_right _ hbefore, List.erase_cons_head]
  simp

/-- With at most one jump, the other rules decide. -/
theorem placeable_iff_of_single (h : privateAnchor ∉ rs.erase privateAnchor) :
  Placeable rs ↔ (∀ r ∈ rs.erase privateAnchor, ¬ ToAnchor r)
    ∧ (∀ r ∈ rs.erase privateAnchor, ¬ IsKube r)
    ∧ ∀ r ∈ (rs.erase privateAnchor).getLast?, ¬ IsDefault r
  := by
  constructor
  · rintro ⟨hown, hsingle | hdouble⟩
    · refine ⟨?_, ?_, ?_⟩
      · intro r hr hto
        rw [hown r (List.mem_of_mem_erase hr) hto] at hr
        exact h hr
      · intro r hr
        apply hsingle.kube r (List.mem_of_mem_erase hr)
      · rw [erase_eq_filter h]
        exact hsingle.last
    · exact absurd hdouble.mem_erase h
  · rintro ⟨hown, hkube, hlast⟩
    constructor
    · intro r hr hto
      by_contra hne
      exact hown r ((List.mem_erase_of_ne hne).mpr hr) hto
    · left
      constructor
      · apply count_le_one_iff.mpr h
      · intro r hr
        by_cases hne : r = privateAnchor
        · rw [hne]
          exact not_isKube_privateAnchor
        · apply hkube r ((List.mem_erase_of_ne hne).mpr hr)
      · rw [← erase_eq_filter h]
        exact hlast

/-- With more jumps, none is inserted, and the second one decides. -/
theorem anchorPlaced_erase_iff (h : privateAnchor ∈ rs.erase privateAnchor) :
  AnchorPlaced rs (rs.erase privateAnchor) ↔ Placeable rs
  := by
  constructor
  · intro hplaced
    obtain ⟨x, y, hx, hrs, herase⟩ := List.exists_erase_eq (List.mem_of_mem_erase h)
    rw [herase, List.mem_append, or_iff_right hx] at h
    obtain ⟨mid, after, rfl, hmid⟩ := List.eq_append_cons_of_mem h
    have hafter : privateAnchor ∉ after := by
      intro hmem
      have hcount := hplaced.countP
      have hpos : 0 < after.countP (fun r => decide (ToAnchor r)) :=
        List.countP_pos_iff.mpr ⟨privateAnchor, hmem, by decide⟩
      rw [herase, List.countP_append, List.countP_append, List.countP_cons_of_pos (by decide)]
        at hcount
      omega
    rw [herase, ← List.append_assoc, anchorPlaced_iff (by simp [hx, hmid]) hafter] at hplaced
    obtain ⟨hothers, hnot, hkube, hdefault⟩ := hplaced
    constructor
    · intro r hr hto
      by_contra hne
      apply hnot r _ hto
      rw [← hothers, List.mem_filter]
      exact ⟨hr, by simpa using hne⟩
    · right
      exact ⟨x, mid, after, hrs, hx, hmid, hafter, hkube, hdefault⟩
  · rintro ⟨hown, hsingle | ⟨before, mid, after, rfl, hbefore, hmid, hafter, hkube, hdefault⟩⟩
    · exact absurd h (count_le_one_iff.mp hsingle.count)
    · rw [List.erase_append_right _ hbefore, List.erase_cons_head, ← List.append_assoc,
        anchorPlaced_iff (by simp [hbefore, hmid]) hafter]
      have hothers : (before ++ privateAnchor :: (mid ++ privateAnchor :: after)).filter
          (· ≠ privateAnchor) = before ++ mid ++ after := by
        rw [List.filter_append, List.filter_cons_of_neg (by simp), List.filter_append,
          List.filter_cons_of_neg (by simp), filter_ne_of_notMem hbefore, filter_ne_of_notMem hmid,
          filter_ne_of_notMem hafter, List.append_assoc]
      refine ⟨hothers, ?_, hkube, hdefault⟩
      intro r hr hto
      rw [← hothers, List.mem_filter] at hr
      exact absurd (hown r hr.1 hto) (by simpa using hr.2)

/-! ### Inserted jumps -/

/-- The jump is inserted at the position, if there is such a position. -/
def Inserts (rs : List Rule) (pos : ℕ) (rs' : List Rule) : Prop :=
  ¬ (pos = 0 ∨ rs.length + 1 < pos) ∧ rs' = rs.insertIdx (pos - 1) privateAnchor

/-- What is to be shown if the jump comes to be between the rules of `x` and those of `y`. -/
theorem inserts_iff (h : privateAnchor ∉ x ++ y)
    (hothers : rs.filter (· ≠ privateAnchor) = x ++ y) {pos : ℕ} (hpos : pos = x.length + 1) :
  (∃ rs', Inserts (x ++ y) pos rs' ∧ AnchorPlaced rs rs')
    ↔ (∀ r ∈ x ++ y, ¬ ToAnchor r) ∧ (∀ r ∈ x, ¬ IsKube r) ∧ ∀ r ∈ y, ¬ IsDefault r
  := by
  rw [List.mem_append, not_or] at h
  have hinserts : ∀ rs', Inserts (x ++ y) pos rs' ↔ rs' = x ++ privateAnchor :: y := by
    intro rs'
    have hbound : ¬ (pos = 0 ∨ (x ++ y).length + 1 < pos) := by
      rw [List.length_append]
      omega
    rw [Inserts, and_iff_right hbound, hpos, Nat.add_sub_cancel, insertIdx_length]
  simp only [hinserts, exists_eq_left]
  rw [anchorPlaced_iff h.1 h.2, and_iff_right hothers]

/-- The position that is computed for the jump is right exactly when there is no Kubernetes rule,
and a rule after the last one of the default tenant. -/
theorem inserts_blockPosition_iff {head : String} {rest : List Rule}
    (hhead : scanLine (0, 0) (head, 0) = (0, 0)) (h : privateAnchor ∉ rest)
    (hothers : rs.filter (· ≠ privateAnchor) = rest)
    (hapart : ∀ r ∈ rest, IsKube r → ¬ IsDefault r) :
  (∃ rs', Inserts rest (blockPosition (head :: rest.map (Rule.line "FORWARD"))) rs'
      ∧ AnchorPlaced rs rs')
    ↔ (∀ r ∈ rest, ¬ ToAnchor r) ∧ (∀ r ∈ rest, ¬ IsKube r)
      ∧ ∀ r ∈ rest.getLast?, ¬ IsDefault r
  := by
  by_cases hkube : ∃ r ∈ rest, IsKube r
  · -- the jump comes after the first Kubernetes rule
    obtain ⟨x, r, y, rfl, hr, hx⟩ := exists_first hkube
    have hmem : r ∈ x ++ r :: y := by simp
    have hposition := blockPosition_kube (y := y) hhead hx hr (hapart r hmem hr)
    have hsplit : x ++ r :: y = x ++ [r] ++ y := by simp
    constructor
    · intro hplaced
      rw [hposition, hsplit] at hplaced
      rw [hsplit] at h hothers
      obtain ⟨-, hnone, -⟩ := (inserts_iff h hothers (by simp)).mp hplaced
      exact absurd hr (hnone r (by simp))
    · rintro ⟨-, hnone, -⟩
      exact absurd hr (hnone r hmem)
  · push Not at hkube
    by_cases hdefault : ∃ r ∈ rest, IsDefault r
    · obtain ⟨x, r, y, rfl, hr, hy⟩ := exists_last hdefault
      rw [blockPosition_default hhead hkube hr hy]
      cases y with
      | nil =>
        -- there is no position two after the last rule
        constructor
        · rintro ⟨rs', ⟨hpos, -⟩, -⟩
          rw [List.length_append, List.length_singleton] at hpos
          omega
        · rintro ⟨-, -, hlast⟩
          exact absurd hr (hlast r (by simp))
      | cons r' y =>
        have hsplit : x ++ r :: r' :: y = x ++ [r, r'] ++ y := by simp
        have hlast : ∀ r'' ∈ (x ++ r :: r' :: y).getLast?, ¬ IsDefault r'' := by
          intro r'' hr''
          apply hy
          rw [List.getLast?_append_of_ne_nil _ (by simp), List.getLast?_cons_cons] at hr''
          apply List.mem_of_getLast? hr''
        rw [hsplit] at h hothers hkube hlast ⊢
        rw [inserts_iff h hothers (by simp)]
        constructor
        · rintro ⟨hown, -⟩
          exact ⟨hown, hkube, hlast⟩
        · rintro ⟨hown, -⟩
          refine ⟨hown, ?_, ?_⟩
          · intro r'' hr''
            apply hkube r'' (List.mem_append_left _ hr'')
          · intro r'' hr''
            apply hy r'' (List.mem_cons_of_mem r' hr'')
    · push Not at hdefault
      rw [blockPosition_none hhead hkube hdefault]
      have hinserts := inserts_iff (x := []) (y := rest) h hothers rfl
      apply hinserts.trans
      rw [List.nil_append]
      constructor
      · rintro ⟨hown, -⟩
        refine ⟨hown, hkube, ?_⟩
        intro r hr
        apply hdefault r (List.mem_of_getLast? hr)
      · rintro ⟨hown, -⟩
        exact ⟨hown, by simp, hdefault⟩

end

/-- The anchor is placed in `FORWARD`. -/
def Anchored (τ : Tables) : Prop :=
  ∃ τ', ensurePrivateAnchor.run τ = .ok () τ'
    ∧ AnchorPlaced (rules τ ("filter", "FORWARD")) (rules τ' ("filter", "FORWARD"))

/-- If the rules of the default tenant precede the Kubernetes rules, then the anchor is placed right
exactly when no other rule jumps to the private rules, and there is at most one anchor, no
Kubernetes rule and a rule after those of the default tenant, or there are two anchors of which the
second one is in its place. -/
theorem ensurePrivateAnchor_anchored_iff {τ : Tables} {c : Chain}
    (hforward : τ.lookup ("filter", "FORWARD") = some c)
    (hpolicy : c.policy = some "ACCEPT" ∨ c.policy = some "DROP") (hfirst : DefaultFirst c.rules) :
  Anchored τ ↔ Placeable c.rules
  := by
  obtain ⟨policy, hpolicy, hhead⟩ : ∃ policy, c.policy = some policy
      ∧ scanLine (0, 0) ("-P FORWARD " ++ policy, 0) = (0, 0) := by
    obtain hpolicy | hpolicy := hpolicy
    · exact ⟨"ACCEPT", hpolicy, by decide +kernel⟩
    · exact ⟨"DROP", hpolicy, by decide +kernel⟩
  obtain ⟨τ', hforward', hrun⟩ := ensurePrivateAnchor_run hforward hpolicy
  rw [insertUnique_run hforward'] at hrun
  dsimp only at hrun
  rw [Anchored, hrun, rules_of_lookup hforward]
  by_cases hmem : privateAnchor ∈ c.rules.erase privateAnchor
  · rw [if_pos hmem, ← anchorPlaced_erase_iff hmem]
    simp only [EStateM.Result.ok.injEq, true_and, exists_eq_left', rules_of_lookup hforward']
  · rw [if_neg hmem, placeable_iff_of_single hmem, ← inserts_blockPosition_iff hhead hmem
      (erase_eq_filter hmem).symm]
    · split_ifs with hpos
      · simp [Inserts, hpos]
      · simp [Inserts, hpos, rules_insert]
    · intro r hr hkube hdefault
      obtain ⟨i, hi⟩ := List.mem_iff_getElem?.mp (List.mem_of_mem_erase hr)
      exact lt_irrefl i (hfirst i i r r hi hi hdefault hkube)

/-- Tables with the rules of `FORWARD`. -/
def forwardTables (rs : List Rule) : Tables :=
  (∅ : Tables).insert ("filter", "FORWARD") ⟨some "ACCEPT", rs⟩

/-- A rule of the default tenant, and one that is of neither kind. -/
def defaultAndOther : List Rule :=
  [{ inIface := some "br0", comment := some "default-tenant-ingress:bridge", target := .accept },
    { inIface := some "eth0", target := .drop }]

theorem ensurePrivateAnchor_anchored_default :
  Anchored (forwardTables defaultAndOther)
  := by
  have hkube : ∀ r ∈ defaultAndOther, ¬ IsKube r := by decide +kernel
  apply (ensurePrivateAnchor_anchored_iff (AList.lookup_insert _) (Or.inl rfl) _).mpr
  · constructor
    · decide +kernel
    · left
      constructor
      · decide +kernel
      · exact hkube
      · decide +kernel
  · intro i j r r' _ hj _ hr'
    exact absurd hr' (hkube r' (List.mem_of_getElem? hj))

/-- A rule as Kubernetes has it in `FORWARD`. -/
def kubeForward : Rule where
  comment := some "kubernetes forwarding rules"
  target := .jump "KUBE-FORWARD"

/-- The anchor comes after the only Kubernetes rule. -/
theorem kubeForward_not_anchored :
  ¬ Anchored (forwardTables [kubeForward])
  := by
  rintro ⟨τ', hrun, hplaced⟩
  have hrules : (match ensurePrivateAnchor.run (forwardTables [kubeForward]) with
      | .ok _ τ => some (rules τ ("filter", "FORWARD"))
      | .error _ _ => none) = some ([kubeForward] ++ privateAnchor :: []) := by
    decide +kernel
  rw [hrun, Option.some.injEq] at hrules
  rw [hrules, anchorPlaced_iff (by decide) (by decide)] at hplaced
  obtain ⟨-, -, hkube, -⟩ := hplaced
  apply hkube kubeForward List.mem_cons_self
  decide +kernel

end Policy
