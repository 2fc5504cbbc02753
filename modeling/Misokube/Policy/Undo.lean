import Misokube.Lib.Edits
import Misokube.Policy.Specs

/-!
# Setting up the isolation of a tenant again, and undoing it

Setting up the isolation of a tenant a second time leaves the chain of the tenant and the anchor
chain as they are, and if the tenant had neither a chain nor jumps to it before, then the removal
succeeds and leaves none (`ensureTenantIsolation_undoable`).  Whatever is done for a tenant is
confined to its chain, the anchor chain and `FORWARD`, of which the other rules stay (`Confined`).
-/

namespace Policy

open Iptables Command

/-! ### What the operations of a tenant are confined to -/

/-- The chains that the operations of a tenant may change. -/
def ownChains (tenant : String) : Set (String × String) :=
  {("filter", "FORWARD"), ("filter", privateAnchorChain), ("filter", fwChain tenant)}

/-- No other chain changes and no policy, and `FORWARD` has the same rules apart from the anchor. -/
structure Confined (tenant : String) (τ τ' : Tables) : Prop where
  edits : Edits (ownChains tenant) τ τ'
  forward : (rules τ' ("filter", "FORWARD")).filter (· ≠ privateAnchor)
    = (rules τ ("filter", "FORWARD")).filter (· ≠ privateAnchor)

section

variable {tenant brIf vxIf : String} {extras : List String} {τ τ' τ'' : Tables} {r : Rule}

theorem Confined.refl (τ : Tables) :
  Confined tenant τ τ
  := ⟨Edits.refl τ, rfl⟩

/-- Confined commands follow each other. -/
theorem Confined.trans (h : Confined tenant τ τ') (h' : Confined tenant τ' τ'') :
  Confined tenant τ τ''
  := by
  constructor
  · apply h.edits.trans h'.edits
  · rw [h'.forward, h.forward]

instance : IsTrans Tables (Confined tenant) :=
  ⟨fun _ _ _ => Confined.trans⟩

/-- A command that edits one of the chains, other than `FORWARD`. -/
theorem Confined.along_of_edits {α : Type} {chain : String} {x : Command α}
    (hx : Along (Edits {("filter", chain)}) x)
    (hchain : chain = privateAnchorChain ∨ chain = fwChain tenant) :
  Along (Confined tenant) x
  := by
  apply hx.mono
  intro τ τ' h
  constructor
  · apply h.mono
    rintro k rfl
    obtain rfl | rfl := hchain
    · simp [ownChains]
    · simp [ownChains]
  · rw [h.rules]
    obtain rfl | rfl := hchain
    · simp [anchor_ne_forward.symm]
    · simp [(fwChain_ne_forward tenant).symm]

/-- A command that edits `FORWARD` and leaves the rules other than the anchor. -/
theorem Confined.along_of_forward {α : Type} {x : Command α}
    (hx : Along (Edits {("filter", "FORWARD")}) x)
    (hfilter : Along (fun τ τ' => (rules τ' ("filter", "FORWARD")).filter (· ≠ privateAnchor)
      = (rules τ ("filter", "FORWARD")).filter (· ≠ privateAnchor)) x) :
  Along (Confined tenant) x
  := by
  constructor
  intro τ
  constructor
  · apply (hx.rel τ).mono
    rintro k rfl
    simp [ownChains]
  · apply hfilter.rel

/-- Deleting the jump to the anchor chain is confined to `FORWARD`. -/
theorem deleteAnchor_confined :
  Along (Confined tenant) (delete "filter" "FORWARD" privateAnchor)
  := by
  apply Confined.along_of_forward (delete_edits _ _ _)
  apply Along.of_spec delete_spec
  · intro τ _ τ' hrules
    rw [hrules, if_pos rfl]
    apply filter_erase (by simp)
  · rintro τ _ _ rfl
    rfl

/-- So is inserting it. -/
theorem insertAnchor_confined (pos : ℕ) :
  Along (Confined tenant) (insertUnique "filter" "FORWARD" pos privateAnchor)
  := by
  apply Confined.along_of_forward (insertUnique_edits _ _ _ _)
  apply Along.of_spec (insertUnique_spec pos)
  · intro τ _ τ' hrules
    rw [hrules]
    split
    · apply filter_insertIdx (by simp)
    · rfl
  · rintro τ _ _ rfl
    rfl

/-- Placing the anchor is confined to `FORWARD` and the anchor chain. -/
theorem ensurePrivateAnchor_confined :
  Along (Confined tenant) ensurePrivateAnchor
  := by
  rw [ensurePrivateAnchor]
  apply Along.bind
  · rw [ensureChainExists]
    apply Along.guard Confined.refl
    apply Along.tryCatch
    · apply Confined.along_of_edits (newChain_edits _ _) (Or.inl rfl)
    intro e
    split
    · apply Along.throw Confined.refl
    · apply Along.pure Confined.refl
  intro _
  apply Along.bind
  · apply Along.tryCatch deleteAnchor_confined
    intro _
    apply Along.pure Confined.refl
  intro _
  apply Along.bind
  · rw [afterDefaultBlockPosition]
    apply Along.bind
    · apply Along.of_spec list_spec
      · rintro τ _ _ rfl
        apply Confined.refl
      · rintro τ _ _ rfl
        apply Confined.refl
    intro _
    apply Along.pure Confined.refl
  intro pos
  apply insertAnchor_confined

theorem insertPrivateJump_confined (iface : String) (kind : Kind) :
  Along (Confined tenant) (insertPrivateJump tenant iface kind)
  := by
  rw [insertPrivateJump]
  split
  · apply Along.pure Confined.refl
  · apply Confined.along_of_edits (appendUnique_edits _ _ _) (Or.inl rfl)

theorem acceptEgress_confined (iface : String) (kind : Kind) :
  Along (Confined tenant) (acceptEgress tenant iface kind)
  := by
  rw [acceptEgress]
  split
  · apply Confined.along_of_edits (appendUnique_edits _ _ _) (Or.inr rfl)
  · apply Along.pure Confined.refl

theorem acceptExtras_confined (extras : List String) :
  Along (Confined tenant) (acceptExtras tenant extras)
  := by
  rw [acceptExtras]
  apply Along.bind
  · apply Along.forIn Confined.refl
    intro i _
    split
    · apply Along.pure Confined.refl
    apply Along.bind
    · apply Confined.along_of_edits (appendUnique_edits _ _ _) (Or.inr rfl)
    intro _
    apply Along.pure Confined.refl
  intro _
  apply Along.pure Confined.refl

theorem ensureTenantChains_confined :
  Along (Confined tenant) (ensureTenantChains tenant)
  := by
  rw [ensureTenantChains]
  apply Along.guard Confined.refl
  apply Along.bind
  · apply Along.tryCatch
    · apply Confined.along_of_edits (newChain_edits _ _) (Or.inr rfl)
    intro _
    apply Along.pure Confined.refl
  intro _
  apply Confined.along_of_edits (clearChain_edits _ _) (Or.inr rfl)

variable (tenant brIf vxIf extras) in
/-- A call for a tenant is confined, also if it fails on the way. -/
theorem ensureTenantIsolation_confined :
  Along (Confined tenant) (ensureTenantIsolation tenant brIf vxIf extras)
  := by
  rw [ensureTenantIsolation]
  apply Along.bind ensureTenantChains_confined
  intro _
  apply Along.bind ensurePrivateAnchor_confined
  intro _
  apply Along.bind (insertPrivateJump_confined _ _)
  intro _
  apply Along.bind (insertPrivateJump_confined _ _)
  intro _
  apply Along.bind (acceptEgress_confined _ _)
  intro _
  apply Along.bind (acceptEgress_confined _ _)
  intro _
  apply Along.bind (acceptExtras_confined _)
  intro _
  apply Confined.along_of_edits (appendUnique_edits _ _ _) (Or.inr rfl)

theorem removeFromPrivateAnchor_confined (iface : String) (kind : Kind) :
  Along (Confined tenant) (removeFromPrivateAnchor tenant iface kind)
  := by
  rw [removeFromPrivateAnchor]
  split
  · apply Along.pure Confined.refl
  · apply Confined.along_of_edits (delete_edits _ _ _) (Or.inl rfl)

variable (tenant brIf vxIf) in
/-- So is the call that undoes it. -/
theorem deleteTenantChains_confined :
  Along (Confined tenant) (deleteTenantChains tenant brIf vxIf)
  := by
  rw [deleteTenantChains]
  split
  · apply Along.throw Confined.refl
  apply Along.bind (removeFromPrivateAnchor_confined _ _)
  intro _
  apply Along.bind (removeFromPrivateAnchor_confined _ _)
  intro _
  apply Along.bind
  · apply Confined.along_of_edits (clearChain_edits _ _) (Or.inr rfl)
  intro _
  apply Confined.along_of_edits (deleteChain_edits _ _) (Or.inr rfl)

/-! ### Other tenants -/

/-- The chains of the other tenants are unchanged, and so are the jumps to them, in their order, in
every chain but that of the tenant. -/
structure OthersKept (tenant : String) (τ τ' : Tables) : Prop where
  chains : ∀ other, fwChain other ≠ fwChain tenant →
    τ'.lookup ("filter", fwChain other) = τ.lookup ("filter", fwChain other)
  jumps : ∀ other, fwChain other ≠ fwChain tenant → ∀ chain, chain ≠ fwChain tenant →
    (rules τ' ("filter", chain)).filter (fun r => r.target = .jump (fwChain other))
      = (rules τ ("filter", chain)).filter (fun r => r.target = .jump (fwChain other))

/-- What is confined keeps the rules of the other tenants. -/
theorem othersKept_of_confined (h : Confined tenant τ τ') (h' : Touched tenant brIf vxIf τ τ') :
  OthersKept tenant τ τ'
  := by
  constructor
  · intro other hother
    apply h.edits.frame
    simp [ownChains, fwChain_ne_forward, fwChain_ne_anchor, hother]
  · intro other hother chain hchain
    by_cases hforward : chain = "FORWARD"
    · rw [hforward]
      apply filter_eq_of_filter_eq h.forward
      intro r hr
      rw [decide_eq_true_eq] at hr ⊢
      rintro rfl
      exact fwChain_ne_anchor other (Target.jump.inj hr).symm
    by_cases hanchor : chain = privateAnchorChain
    · rw [hanchor]
      apply filter_eq_of_filter_eq h'.anchor
      intro r hr
      rw [decide_eq_true_eq] at hr ⊢
      intro hmem
      rw [target_of_mem_jumps hmem] at hr
      exact hother (Target.jump.inj hr).symm
    · rw [h.edits.rules]
      simp [ownChains, hforward, hanchor, hchain]

/-! ### Setting up twice -/

/-- A tenant is set up from tables: its chain has its rules, and the anchor chain the jumps. -/
structure SetUp (tenant brIf vxIf : String) (extras : List String) (τ τ' : Tables) : Prop where
  confined : Confined tenant τ τ'
  touched : Touched tenant brIf vxIf τ τ'
  chain : rules τ' ("filter", fwChain tenant)
    = addAll [] (accepts tenant brIf vxIf extras ++ [defaultDrop tenant])
  anchor : rules τ' ("filter", privateAnchorChain)
    = addAll (rules τ ("filter", privateAnchorChain)) (jumps tenant brIf vxIf)

/-- A call that succeeds has set the tenant up. -/
theorem setUp_of_run (h : (ensureTenantIsolation tenant brIf vxIf extras).run τ = .ok () τ') :
  SetUp tenant brIf vxIf extras τ τ'
  := by
  have hspec := run_of_spec (ensureTenantIsolation_spec tenant brIf vxIf extras τ)
  rw [h] at hspec
  constructor
  · apply (ensureTenantIsolation_confined tenant brIf vxIf extras).of_run_ok h
  · apply (ensureTenantIsolation_touched tenant brIf vxIf extras).of_run_ok h
  · exact hspec.1
  · exact hspec.2

/-- Setting up a tenant again is setting it up from the first tables. -/
theorem SetUp.again (h : SetUp tenant brIf vxIf extras τ τ')
    (h' : SetUp tenant brIf vxIf extras τ' τ'') :
  SetUp tenant brIf vxIf extras τ τ''
  := by
  constructor
  · apply h.confined.trans h'.confined
  · apply h.touched.trans h'.touched
  · exact h'.chain
  · rw [h'.anchor, h.anchor, addAll_addAll]

/-- The chain of the tenant drops what it does not accept. -/
theorem SetUp.defaultDrop_mem (h : SetUp tenant brIf vxIf extras τ τ') :
  defaultDrop tenant ∈ rules τ' ("filter", fwChain tenant)
  := by
  rw [h.chain, mem_addAll_nil]
  simp

/-- The anchor chain has the jumps of the tenant. -/
theorem SetUp.jump_mem (h : SetUp tenant brIf vxIf extras τ τ') (hr : r ∈ jumps tenant brIf vxIf) :
  r ∈ rules τ' ("filter", privateAnchorChain)
  := by
  rw [h.anchor]
  apply mem_addAll.mpr (Or.inr hr)

theorem jumps_of_named (hbr : brIf ≠ "") (hvx : vxIf ≠ "") :
  jumps tenant brIf vxIf = [ingressJump tenant vxIf .vxlan, ingressJump tenant brIf .bridge]
  := by
  rw [jumps, named, named, if_neg hvx, if_neg hbr]
  rfl

/-- Both chains are the same after the second time. -/
theorem SetUp.lookup_eq (h : SetUp tenant brIf vxIf extras τ τ')
    (h' : SetUp tenant brIf vxIf extras τ' τ'') (hbr : brIf ≠ "") (hvx : vxIf ≠ "") :
  τ''.lookup ("filter", fwChain tenant) = τ'.lookup ("filter", fwChain tenant)
    ∧ τ''.lookup ("filter", privateAnchorChain) = τ'.lookup ("filter", privateAnchorChain)
  := by
  have hjump : ingressJump tenant vxIf .vxlan ∈ jumps tenant brIf vxIf := by
    rw [jumps_of_named hbr hvx]
    apply List.mem_cons_self
  constructor
  · apply lookup_eq_of_mem h.defaultDrop_mem
    · rw [h'.chain, h.chain]
    · apply h'.confined.edits.policy
  · apply lookup_eq_of_mem (h.jump_mem hjump)
    · rw [h'.anchor, h.anchor, addAll_addAll]
    · apply h'.confined.edits.policy

/-! ### Undoing -/

/-- Outside of the anchor chain, no rule hands packets to the chain of the tenant. -/
theorem SetUp.target_ne (h : SetUp tenant brIf vxIf extras τ τ')
    (hfree : ¬ Referenced τ "filter" (fwChain tenant)) {chain : String}
    (hchain : chain ≠ privateAnchorChain) (hr : r ∈ rules τ' ("filter", chain)) :
  r.target ≠ .jump (fwChain tenant)
  := by
  intro htarget
  have hbefore : ∀ chain', r ∉ rules τ ("filter", chain') := by
    intro chain' hmem
    apply hfree
    apply referenced_iff.mpr ⟨chain', r, hmem, htarget⟩
  by_cases hfw : chain = fwChain tenant
  · rw [hfw, h.chain, mem_addAll_nil, List.mem_append, List.mem_singleton] at hr
    obtain hr | rfl := hr
    · rw [target_of_mem_accepts hr] at htarget
      cases htarget
    · cases htarget
  by_cases hforward : chain = "FORWARD"
  · have hne : r ≠ privateAnchor := by
      rintro rfl
      exact fwChain_ne_anchor tenant (Target.jump.inj htarget).symm
    have hmem : r ∈ (rules τ' ("filter", "FORWARD")).filter (· ≠ privateAnchor) := by
      rw [List.mem_filter, ← hforward]
      exact ⟨hr, decide_eq_true hne⟩
    rw [h.confined.forward] at hmem
    exact hbefore "FORWARD" (List.mem_of_mem_filter hmem)
  · rw [h.confined.edits.rules] at hr
    · exact hbefore chain hr
    · simp [ownChains, hforward, hchain, hfw]

/-- The jumps for the two interfaces of a tenant are different rules. -/
theorem ingressJump_ne :
  ingressJump tenant vxIf .vxlan ≠ ingressJump tenant brIf .bridge
  := by
  simp [ingressJump, Kind.suffix]

/-- The jumps are the last rules of the anchor chain, and new. -/
theorem SetUp.anchor_eq (h : SetUp tenant brIf vxIf extras τ τ')
    (hfree : ¬ Referenced τ "filter" (fwChain tenant)) (hbr : brIf ≠ "") (hvx : vxIf ≠ "") :
  rules τ' ("filter", privateAnchorChain) = rules τ ("filter", privateAnchorChain)
    ++ [ingressJump tenant vxIf .vxlan, ingressJump tenant brIf .bridge]
  := by
  have hnew : ∀ iface kind,
      ingressJump tenant iface kind ∉ rules τ ("filter", privateAnchorChain) := by
    intro iface kind hmem
    apply hfree
    apply referenced_iff.mpr ⟨privateAnchorChain, _, hmem, rfl⟩
  rw [h.anchor, jumps_of_named hbr hvx]
  generalize rules τ ("filter", privateAnchorChain) = rs at hnew ⊢
  have hsplit : [ingressJump tenant vxIf .vxlan, ingressJump tenant brIf .bridge]
      = [ingressJump tenant vxIf .vxlan] ++ [ingressJump tenant brIf .bridge] := rfl
  rw [hsplit, addAll_concat (hnew _ _) (by simpa using ingressJump_ne.symm), ← List.append_assoc]
  congr 1
  apply if_neg (hnew _ _)

/-- A jump that is there is removed. -/
theorem removeFromPrivateAnchor_run {iface : String} {kind : Kind} {c : Chain}
    (hiface : iface ≠ "") (h : τ.lookup ("filter", privateAnchorChain) = some c)
    (hmem : ingressJump tenant iface kind ∈ c.rules) :
  (removeFromPrivateAnchor tenant iface kind).run τ
    = .ok () (τ.insert ("filter", privateAnchorChain)
      { c with rules := c.rules.erase (ingressJump tenant iface kind) })
  := by
  rw [removeFromPrivateAnchor, if_neg hiface, delete_run h, if_pos hmem]

/-- Only a tenant with a name is set up. -/
theorem tenant_ne_of_run
    (h : (ensureTenantIsolation tenant brIf vxIf extras).run τ = .ok () τ') :
  tenant ≠ ""
  := by
  rintro rfl
  simp [ensureTenantIsolation, ensureTenantChains] at h

/-- The jumps are deleted, the chain of the tenant is emptied and deleted. -/
theorem deleteTenantChains_run {a c : Chain} {rs : List Rule} (htenant : tenant ≠ "")
    (hbr : brIf ≠ "") (hvx : vxIf ≠ "")
    (ha : τ.lookup ("filter", privateAnchorChain) = some a)
    (hrules : a.rules
      = rs ++ [ingressJump tenant vxIf .vxlan, ingressJump tenant brIf .bridge])
    (hnew : ∀ r ∈ rs, r.target ≠ .jump (fwChain tenant))
    (hc : τ.lookup ("filter", fwChain tenant) = some c) (hpolicy : c.policy = none)
    (hfree : ∀ chain ≠ privateAnchorChain, ∀ r ∈ rules τ ("filter", chain),
      r.target ≠ .jump (fwChain tenant)) :
  ∃ τ', (deleteTenantChains tenant brIf vxIf).run τ = .ok () τ'
    ∧ τ'.lookup ("filter", fwChain tenant) = none
    ∧ ¬ Referenced τ' "filter" (fwChain tenant)
  := by
  have hnotMem : ∀ iface kind, ingressJump tenant iface kind ∉ rs :=
    fun iface kind hmem => hnew _ hmem rfl
  have hbridge : a.rules.erase (ingressJump tenant brIf .bridge)
      = rs ++ [ingressJump tenant vxIf .vxlan] := by
    rw [hrules, List.erase_append_right _ (hnotMem _ _),
      List.erase_cons_tail (by simpa using ingressJump_ne), List.erase_cons_head]
  have hvxlan : (rs ++ [ingressJump tenant vxIf .vxlan]).erase (ingressJump tenant vxIf .vxlan)
      = rs := by
    rw [List.erase_append_right _ (hnotMem _ _), List.erase_cons_head, List.append_nil]
  have hfw : ("filter", fwChain tenant) ≠ ("filter", privateAnchorChain) := by
    simp [fwChain_ne_anchor]
  -- the tables after each of the first three commands
  set τ₁ := τ.insert ("filter", privateAnchorChain)
    { a with rules := rs ++ [ingressJump tenant vxIf .vxlan] } with hτ₁
  set τ₂ := τ₁.insert ("filter", privateAnchorChain) { a with rules := rs } with hτ₂
  set τ₃ := τ₂.insert ("filter", fwChain tenant) ⟨none, []⟩ with hτ₃
  have hfirst : (removeFromPrivateAnchor tenant brIf .bridge).run τ = .ok () τ₁ := by
    rw [removeFromPrivateAnchor_run hbr ha (by simp [hrules]), hbridge]
  have hsecond : (removeFromPrivateAnchor tenant vxIf .vxlan).run τ₁ = .ok () τ₂ := by
    rw [removeFromPrivateAnchor_run hvx (AList.lookup_insert _) (by simp), hvxlan]
  have hthird : (clearChain "filter" (fwChain tenant)).run τ₂ = .ok () τ₃ := by
    have hlookup : τ₂.lookup ("filter", fwChain tenant) = some c := by
      rw [hτ₂, AList.lookup_insert_ne hfw, hτ₁, AList.lookup_insert_ne hfw, hc]
    rw [clearChain_run hlookup, hpolicy]
  have hunreferenced : ∀ chain, ∀ r ∈ rules τ₃ ("filter", chain),
      r.target ≠ .jump (fwChain tenant) := by
    intro chain r hr
    rw [hτ₃, rules_insert] at hr
    split at hr
    · cases hr
    rw [hτ₂, rules_insert] at hr
    split at hr
    · exact hnew r hr
    case isFalse hchain =>
      rw [hτ₁, rules_insert, if_neg hchain] at hr
      apply hfree chain _ r hr
      rintro rfl
      exact hchain rfl
  have hfourth : (deleteChain "filter" (fwChain tenant)).run τ₃
      = .ok () (τ₃.erase ("filter", fwChain tenant)) := by
    have hnot : ¬ Referenced τ₃ "filter" (fwChain tenant) := by
      intro hreferenced
      obtain ⟨chain, r, hr, htarget⟩ := referenced_iff.mp hreferenced
      exact hunreferenced chain r hr htarget
    rw [deleteChain_run (AList.lookup_insert _), if_neg (by simp), if_neg (by simp), if_neg hnot]
  refine ⟨τ₃.erase ("filter", fwChain tenant), ?_, AList.lookup_erase _ _, ?_⟩
  · rw [deleteTenantChains, if_neg htenant, EStateM.run_bind, hfirst]
    dsimp only
    rw [EStateM.run_bind, hsecond]
    dsimp only
    rw [EStateM.run_bind, hthird]
    exact hfourth
  · intro hreferenced
    obtain ⟨chain, r, hr, htarget⟩ := referenced_iff.mp hreferenced
    rw [rules_erase] at hr
    split at hr
    · cases hr
    · exact hunreferenced chain r hr htarget

/-- Without a chain and jumps before, the tenant can be removed. -/
theorem SetUp.undo (h : SetUp tenant brIf vxIf extras τ τ') (htenant : tenant ≠ "")
    (hbr : brIf ≠ "") (hvx : vxIf ≠ "") (hnone : τ.lookup ("filter", fwChain tenant) = none)
    (hfree : ¬ Referenced τ "filter" (fwChain tenant)) :
  ∃ τ'', (deleteTenantChains tenant brIf vxIf).run τ' = .ok () τ''
    ∧ τ''.lookup ("filter", fwChain tenant) = none
    ∧ ¬ Referenced τ'' "filter" (fwChain tenant)
  := by
  have hanchor := h.anchor_eq hfree hbr hvx
  have hmem : ingressJump tenant vxIf .vxlan ∈ rules τ' ("filter", privateAnchorChain) := by
    simp [hanchor]
  obtain ⟨a, ha, harules⟩ := exists_lookup_of_mem hmem
  obtain ⟨c, hc, -⟩ := exists_lookup_of_mem h.defaultDrop_mem
  -- the chain of the tenant is new, so it is not built in
  have hpolicy : c.policy = none := by
    rw [← policy_of_lookup hc, h.confined.edits.policy, policy, hnone, Option.bind_none]
  apply deleteTenantChains_run htenant hbr hvx ha (harules.trans hanchor) _ hc hpolicy
  · intro chain hchain r hr
    apply h.target_ne hfree hchain hr
  · intro r hr htarget
    apply hfree
    apply referenced_iff.mpr ⟨privateAnchorChain, r, hr, htarget⟩

/-- The tenant can be removed, and nothing of it is left; the other tenants are as they were. -/
def Undoable (tenant brIf vxIf : String) (τ τ' : Tables) : Prop :=
  ∃ τ'', (deleteTenantChains tenant brIf vxIf).run τ' = .ok () τ''
    ∧ τ''.lookup ("filter", fwChain tenant) = none
    ∧ ¬ Referenced τ'' "filter" (fwChain tenant) ∧ OthersKept tenant τ τ''

/-- What was set up for a new tenant can be undone. -/
theorem SetUp.undoable (h : SetUp tenant brIf vxIf extras τ τ') (htenant : tenant ≠ "")
    (hbr : brIf ≠ "") (hvx : vxIf ≠ "") (hnone : τ.lookup ("filter", fwChain tenant) = none)
    (hfree : ¬ Referenced τ "filter" (fwChain tenant)) :
  Undoable tenant brIf vxIf τ τ'
  := by
  obtain ⟨τ'', hrun, hgone, hunreferenced⟩ := h.undo htenant hbr hvx hnone hfree
  refine ⟨τ'', hrun, hgone, hunreferenced, ?_⟩
  have hconfined := (deleteTenantChains_confined tenant brIf vxIf).of_run_ok hrun
  have htouched := (deleteTenantChains_touched tenant brIf vxIf).of_run_ok hrun
  apply othersKept_of_confined (h.confined.trans hconfined) (h.touched.trans htouched)

end

/-- If setting up the isolation of a tenant succeeds, then the other tenants are as they were; a
second time that succeeds leaves the chain of the tenant and the anchor chain, and the other
tenants; and if the tenant had no chain and there were no jumps to it before, then after the first
and after the second time the removal of the tenant succeeds and leaves nothing of it. -/
theorem ensureTenantIsolation_undoable {tenant brIf vxIf : String} (extras : List String)
    (hbr : brIf ≠ "") (hvx : vxIf ≠ "") {τ τ₁ : Tables}
    (hrun : (ensureTenantIsolation tenant brIf vxIf extras).run τ = .ok () τ₁) :
  OthersKept tenant τ τ₁
    ∧ (τ.lookup ("filter", fwChain tenant) = none → ¬ Referenced τ "filter" (fwChain tenant) →
      Undoable tenant brIf vxIf τ τ₁)
    ∧ ∀ τ₂, (ensureTenantIsolation tenant brIf vxIf extras).run τ₁ = .ok () τ₂ →
      τ₂.lookup ("filter", fwChain tenant) = τ₁.lookup ("filter", fwChain tenant)
        ∧ τ₂.lookup ("filter", privateAnchorChain) = τ₁.lookup ("filter", privateAnchorChain)
        ∧ OthersKept tenant τ τ₂
        ∧ (τ.lookup ("filter", fwChain tenant) = none →
          ¬ Referenced τ "filter" (fwChain tenant) → Undoable tenant brIf vxIf τ τ₂)
  := by
  have htenant := tenant_ne_of_run hrun
  have hfirst := setUp_of_run hrun
  refine ⟨?_, ?_, ?_⟩
  · apply othersKept_of_confined hfirst.confined hfirst.touched
  · apply hfirst.undoable htenant hbr hvx
  · intro τ₂ hrun₂
    have hsecond := setUp_of_run hrun₂
    have hagain := hfirst.again hsecond
    obtain ⟨hchain, hanchor⟩ := hfirst.lookup_eq hsecond hbr hvx
    refine ⟨hchain, hanchor, ?_, ?_⟩
    · apply othersKept_of_confined hagain.confined hagain.touched
    · apply hagain.undoable htenant hbr hvx

/-- Tables with an empty `FORWARD`. -/
def emptyForward : Tables :=
  (∅ : Tables).insert ("filter", "FORWARD") ⟨some "ACCEPT", []⟩

/-- A new tenant, with an extra interface that is given twice. -/
theorem ensureTenantIsolation_undoable_red :
  ∃ τ₁, (ensureTenantIsolation "red" "br-red" "vx-red" ["eth0", "eth0"]).run emptyForward
      = .ok () τ₁
    ∧ Undoable "red" "br-red" "vx-red" emptyForward τ₁
  := by
  have hok : ((ensureTenantIsolation "red" "br-red" "vx-red" ["eth0", "eth0"]).run'
      emptyForward).isSome := by
    decide +kernel
  cases hrun : (ensureTenantIsolation "red" "br-red" "vx-red" ["eth0", "eth0"]).run
      emptyForward with
  | error e τ =>
    rw [EStateM.run', hrun] at hok
    cases hok
  | ok u τ₁ =>
    use τ₁, rfl
    apply (ensureTenantIsolation_undoable ["eth0", "eth0"] (by decide) (by decide) hrun).2.1
    · decide +kernel
    · decide +kernel

end Policy
