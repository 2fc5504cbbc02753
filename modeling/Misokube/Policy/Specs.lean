import Misokube.Lib.Command
import Misokube.Policy.Model

/-!
# What the policy operations do to the rules

Specifications of the operations on the rules of a tenant, in terms of the rules before and
after.  Setting up the isolation of a tenant, when it succeeds, leaves the given rules in the
chain of the tenant and adds jumps to it (`ensureTenantIsolation_spec`).  However far it and the
removal of a tenant get, they touch no other chain but `FORWARD`, and no jumps of other tenants
(`Touched`).
-/

namespace Policy

open Iptables Command Std.Do

set_option mvcgen.warning false

/-! ### Names of chains -/

/-- The name of the chain of a tenant begins with its prefix and is cut to the length that is
allowed. -/
theorem toList_fwChain {tenant : String} (h : tenant ≠ "") :
  (fwChain tenant).toList = 'F' :: 'W' :: '-' :: (tenant.toList.map chainRune).take 26
  := by
  have hrunes : ("FW-".toList).map chainRune = ['F', 'W', '-'] := by decide +kernel
  rw [fwChain, chainName, if_neg h, String.toList_ofList, String.toList_append, List.map_append,
    hrunes]
  rfl

theorem toList_fwChain_empty :
  (fwChain "").toList = ['F', 'W']
  := by
  decide +kernel

/-- Every such name begins with its prefix. -/
theorem exists_toList_fwChain (tenant : String) :
  ∃ cs, (fwChain tenant).toList = 'F' :: 'W' :: cs
  := by
  by_cases h : tenant = ""
  · use []
    rw [h, toList_fwChain_empty]
  · use '-' :: (tenant.toList.map chainRune).take 26
    rw [toList_fwChain h]

/-- No tenant has `FORWARD` as its chain. -/
@[grind .]
theorem fwChain_ne_forward (tenant : String) :
  fwChain tenant ≠ "FORWARD"
  := by
  obtain ⟨cs, hcs⟩ := exists_toList_fwChain tenant
  intro h
  rw [h] at hcs
  simp at hcs

/-- No tenant has the anchor chain as its own. -/
@[grind .]
theorem fwChain_ne_anchor (tenant : String) :
  fwChain tenant ≠ privateAnchorChain
  := by
  obtain ⟨cs, hcs⟩ := exists_toList_fwChain tenant
  intro h
  rw [h, privateAnchorChain] at hcs
  simp at hcs

theorem anchor_ne_forward :
  privateAnchorChain ≠ "FORWARD"
  := by
  simp [privateAnchorChain]

/-! ### Steps -/

/-- A handler of an error starts from the tables the failing command left. -/
@[grind =]
theorem restore_save (τ τ' : Tables) :
  EStateM.Backtrackable.restore τ (EStateM.Backtrackable.save τ') = τ
  := rfl

/-- The chain of the tenant is there afterwards, without rules. -/
@[spec]
theorem ensureTenantChains_spec (tenant : String) (τ₀ : Tables) :
  ⦃fun τ => ⌜τ = τ₀⌝⦄
  ensureTenantChains tenant
  ⦃post⟨fun _ τ => ⌜∀ k, rules τ k = if k = ("filter", fwChain tenant) then [] else rules τ₀ k⌝,
    fun _ τ => ⌜τ = τ₀⌝⟩⦄
  := by
  mvcgen [ensureTenantChains] with grind

/-- Making a chain that may be there changes no rules. -/
@[spec]
theorem ensureChainExists_spec (chain : String) (τ₀ : Tables) :
  ⦃fun τ => ⌜τ = τ₀⌝⦄
  ensureChainExists chain
  ⦃post⟨fun _ τ => ⌜∀ k, rules τ k = rules τ₀ k⌝, fun _ τ => ⌜τ = τ₀⌝⟩⦄
  := by
  mvcgen [ensureChainExists, isChainExistsErr] with grind

/-- Looking for the position changes nothing. -/
@[spec]
theorem afterDefaultBlockPosition_spec (τ₀ : Tables) :
  ⦃fun τ => ⌜τ = τ₀⌝⦄
  afterDefaultBlockPosition
  ⦃post⟨fun _ τ => ⌜τ = τ₀⌝, fun _ τ => ⌜τ = τ₀⌝⟩⦄
  := by
  mvcgen [afterDefaultBlockPosition] with grind

/-- The jump to the rules of the private tenants is the only change, and it is in `FORWARD`. -/
@[spec]
theorem ensurePrivateAnchor_spec (τ₀ : Tables) :
  ⦃fun τ => ⌜τ = τ₀⌝⦄
  ensurePrivateAnchor
  ⦃post⟨fun _ τ => ⌜∀ k ≠ ("filter", "FORWARD"), rules τ k = rules τ₀ k⌝,
    fun _ τ => ⌜∀ k ≠ ("filter", "FORWARD"), rules τ k = rules τ₀ k⌝⟩⦄
  := by
  mvcgen [ensurePrivateAnchor] with grind

/-- The rule, if the interface has a name. -/
def named (iface : String) (r : Rule) : List Rule :=
  if iface = "" then [] else [r]

theorem addAll_named (iface : String) (rs : List Rule) (r : Rule) :
  addAll rs (named iface r) = if iface = "" then rs else addUnique rs r
  := by
  rw [named]
  split <;> rfl

/-- The anchor chain gets the jump for the interface, unless it has it. -/
@[spec]
theorem insertPrivateJump_spec (tenant iface : String) (kind : Kind) (τ₀ : Tables) :
  ⦃fun τ => ⌜τ = τ₀⌝⦄
  insertPrivateJump tenant iface kind
  ⦃post⟨fun _ τ => ⌜∀ k, rules τ k = if k = ("filter", privateAnchorChain)
      then addAll (rules τ₀ k) (named iface (ingressJump tenant iface kind)) else rules τ₀ k⌝,
    fun _ τ => ⌜τ = τ₀⌝⟩⦄
  := by
  mvcgen [insertPrivateJump] with grind [addAll_named]

/-- The chain of the tenant gets the rule for the interface, unless it has it. -/
@[spec]
theorem acceptEgress_spec (tenant iface : String) (kind : Kind) (τ₀ : Tables) :
  ⦃fun τ => ⌜τ = τ₀⌝⦄
  acceptEgress tenant iface kind
  ⦃post⟨fun _ τ => ⌜∀ k, rules τ k = if k = ("filter", fwChain tenant)
      then addAll (rules τ₀ k) (named iface (egressAccept tenant iface kind)) else rules τ₀ k⌝,
    fun _ τ => ⌜τ = τ₀⌝⟩⦄
  := by
  mvcgen [acceptEgress] with grind [addAll_named]

/-- The rules for the other interfaces that packets may pass to. -/
def extraAccepts (extras : List String) : List Rule :=
  extras.flatMap fun i => named i (extraAccept i)

theorem addAll_extraAccepts_concat (extras : List String) (i : String) (rs : List Rule) :
  addAll rs (extraAccepts (extras ++ [i])) = if i = "" then addAll rs (extraAccepts extras)
    else addUnique (addAll rs (extraAccepts extras)) (extraAccept i)
  := by
  rw [extraAccepts, List.flatMap_append, List.flatMap_singleton, ← extraAccepts, addAll_append,
    addAll_named]

/-- The chain of the tenant gets the rules for the other interfaces, in their order.  If one is
refused, some may be there. -/
@[spec]
theorem acceptExtras_spec (tenant : String) (extras : List String) (τ₀ : Tables) :
  ⦃fun τ => ⌜τ = τ₀⌝⦄
  acceptExtras tenant extras
  ⦃post⟨fun _ τ => ⌜∀ k, rules τ k = if k = ("filter", fwChain tenant)
      then addAll (rules τ₀ k) (extraAccepts extras) else rules τ₀ k⌝,
    fun _ τ => ⌜∀ k ≠ ("filter", fwChain tenant), rules τ k = rules τ₀ k⌝⟩⦄
  := by
  -- the loop has added the rules for the interfaces it has visited
  mvcgen [acceptExtras] invariants
  · post⟨fun (⟨visited, _, _⟩, _) τ => ⌜∀ k, rules τ k = if k = ("filter", fwChain tenant)
        then addAll (rules τ₀ k) (extraAccepts visited) else rules τ₀ k⌝,
      fun _ τ => ⌜∀ k ≠ ("filter", fwChain tenant), rules τ k = rules τ₀ k⌝⟩
  case vc4.pre τ h =>
    intro k
    simp [extraAccepts, addAll, h]
  all_goals grind [addAll_extraAccepts_concat]

/-! ### Isolation of a tenant -/

/-- The rules of a tenant that let packets pass. -/
def accepts (tenant brIf vxIf : String) (extras : List String) : List Rule :=
  named brIf (egressAccept tenant brIf .bridge) ++ named vxIf (egressAccept tenant vxIf .vxlan)
    ++ extraAccepts extras

/-- The jumps to the chain of a tenant. -/
def jumps (tenant brIf vxIf : String) : List Rule :=
  named vxIf (ingressJump tenant vxIf .vxlan) ++ named brIf (ingressJump tenant brIf .bridge)

theorem eq_of_mem_named {iface : String} {r r' : Rule} (h : r ∈ named iface r') :
  r = r'
  := by
  rw [named] at h
  split at h
  · cases h
  · exact List.mem_singleton.mp h

/-- The rules for the interfaces of a tenant accept. -/
theorem target_of_mem_accepts {tenant brIf vxIf : String} {extras : List String} {r : Rule}
    (h : r ∈ accepts tenant brIf vxIf extras) :
  r.target = .accept
  := by
  rw [accepts, List.mem_append, List.mem_append, extraAccepts, List.mem_flatMap] at h
  obtain (h | h) | ⟨i, -, h⟩ := h
  · rw [eq_of_mem_named h, egressAccept]
  · rw [eq_of_mem_named h, egressAccept]
  · rw [eq_of_mem_named h, extraAccept]

/-- The rules of the anchor chain for a tenant jump to its chain. -/
theorem target_of_mem_jumps {tenant brIf vxIf : String} {r : Rule}
    (h : r ∈ jumps tenant brIf vxIf) :
  r.target = .jump (fwChain tenant)
  := by
  rw [jumps, List.mem_append] at h
  obtain h | h := h
  · rw [eq_of_mem_named h, ingressJump]
  · rw [eq_of_mem_named h, ingressJump]

/-- What a successful call leaves in the chain of the tenant, in the anchor chain, and in all others
but `FORWARD`. -/
theorem ensureTenantIsolation_spec (tenant brIf vxIf : String) (extras : List String)
    (τ₀ : Tables) :
  ⦃fun τ => ⌜τ = τ₀⌝⦄
  ensureTenantIsolation tenant brIf vxIf extras
  ⦃post⟨fun _ τ => ⌜rules τ ("filter", fwChain tenant)
        = addAll [] (accepts tenant brIf vxIf extras ++ [defaultDrop tenant])
      ∧ rules τ ("filter", privateAnchorChain)
        = addAll (rules τ₀ ("filter", privateAnchorChain)) (jumps tenant brIf vxIf)⌝,
    fun _ _ => ⌜True⌝⟩⦄
  := by
  have hne := anchor_ne_forward
  mvcgen [ensureTenantIsolation]
  next h₀ _ _ h₁ _ _ h₂ _ _ h₃ _ _ h₄ _ _ h₅ _ _ h₆ _ _ h₇ _ _ =>
    have hne' := fwChain_ne_anchor tenant
    have hne'' := fwChain_ne_forward tenant
    intro h₈
    constructor
    · simp [h₈, h₇, h₆, h₅, h₄, h₃, h₂, h₁, hne', hne'', accepts, addAll_append]
      rfl
    · simp [h₈, h₇, h₆, h₅, h₄, h₃, h₂, h₁, h₀, hne'.symm, hne, jumps, addAll_append]

/-- The anchor chain loses the jump for the interface. -/
@[spec]
theorem removeFromPrivateAnchor_spec (tenant iface : String) (kind : Kind) (τ₀ : Tables) :
  ⦃fun τ => ⌜τ = τ₀⌝⦄
  removeFromPrivateAnchor tenant iface kind
  ⦃post⟨fun _ τ => ⌜∀ k, rules τ k = if k = ("filter", privateAnchorChain)
      then (if iface = "" then rules τ₀ k else (rules τ₀ k).erase (ingressJump tenant iface kind))
      else rules τ₀ k⌝,
    fun _ τ => ⌜τ = τ₀⌝⟩⦄
  := by
  mvcgen [removeFromPrivateAnchor] with grind

/-! ### Other tenants -/

/-- What an operation for a tenant may change, however far it gets: `FORWARD`, the chain of the
tenant, and the jumps to it.  The other jumps stay as they are and in order. -/
structure Touched (tenant brIf vxIf : String) (τ τ' : Tables) : Prop where
  chains : ∀ k, k ≠ ("filter", "FORWARD") → k ≠ ("filter", fwChain tenant) →
    k ≠ ("filter", privateAnchorChain) → rules τ' k = rules τ k
  anchor : (rules τ' ("filter", privateAnchorChain)).filter (· ∉ jumps tenant brIf vxIf)
    = (rules τ ("filter", privateAnchorChain)).filter (· ∉ jumps tenant brIf vxIf)

section

variable {tenant brIf vxIf : String} {τ τ' τ'' : Tables}

/-- Calls for one tenant follow each other. -/
theorem Touched.trans (h : Touched tenant brIf vxIf τ τ') (h' : Touched tenant brIf vxIf τ' τ'') :
  Touched tenant brIf vxIf τ τ''
  := by
  constructor
  · intro k hforward hchain hanchor
    rw [h'.chains k hforward hchain hanchor, h.chains k hforward hchain hanchor]
  · rw [h'.anchor, h.anchor]

instance : IsTrans Tables (Touched tenant brIf vxIf) :=
  ⟨fun _ _ _ => Touched.trans⟩

/-- Changes of `FORWARD` leave the other tenants alone. -/
theorem Touched.of_forward (h : ∀ k ≠ ("filter", "FORWARD"), rules τ' k = rules τ k) :
  Touched tenant brIf vxIf τ τ'
  := by
  constructor
  · intro k hforward _ _
    apply h k hforward
  · rw [h]
    simp [anchor_ne_forward]

/-- So do changes of the chain of the tenant. -/
theorem Touched.of_chain (h : ∀ k ≠ ("filter", fwChain tenant), rules τ' k = rules τ k) :
  Touched tenant brIf vxIf τ τ'
  := by
  constructor
  · intro k _ hchain _
    apply h k hchain
  · rw [h]
    simp [(fwChain_ne_anchor tenant).symm]

theorem Touched.refl (τ : Tables) :
  Touched tenant brIf vxIf τ τ
  := by
  apply Touched.of_chain
  intro k _
  rfl

/-- The jumps of other tenants stay in the anchor chain. -/
theorem Touched.mem_of_mem (h : Touched tenant brIf vxIf τ τ') {r : Rule}
    (hr : r ∈ rules τ ("filter", privateAnchorChain)) (hjump : r ∉ jumps tenant brIf vxIf) :
  r ∈ rules τ' ("filter", privateAnchorChain)
  := by
  apply List.mem_of_mem_filter
  rw [h.anchor, List.mem_filter]
  exact ⟨hr, decide_eq_true hjump⟩

/-- A jump of another tenant was there before. -/
theorem Touched.mem_or (h : Touched tenant brIf vxIf τ τ') {r : Rule}
    (hr : r ∈ rules τ' ("filter", privateAnchorChain)) :
  r ∈ rules τ ("filter", privateAnchorChain) ∨ r ∈ jumps tenant brIf vxIf
  := by
  by_cases hjump : r ∈ jumps tenant brIf vxIf
  · right
    exact hjump
  · left
    apply List.mem_of_mem_filter
    rw [← h.anchor, List.mem_filter]
    exact ⟨hr, decide_eq_true hjump⟩

/-- A command that changes the rules of the tenant's chain. -/
theorem Touched.along_of_chain {x : Command Unit} {g : Tables → String × String → List Rule}
    (h : ∀ τ₀, ⦃fun τ => ⌜τ = τ₀⌝⦄ x
      ⦃post⟨fun _ τ => ⌜∀ k, rules τ k
          = if k = ("filter", fwChain tenant) then g τ₀ k else rules τ₀ k⌝,
        fun _ τ => ⌜τ = τ₀⌝⟩⦄) :
  Along (Touched tenant brIf vxIf) x
  := by
  apply Along.of_spec h
  · intro τ _ τ' hrules
    apply Touched.of_chain
    intro k hk
    rw [hrules, if_neg hk]
  · rintro τ _ _ rfl
    apply Touched.refl

/-- A command that changes the jumps to the tenant's chain. -/
theorem Touched.along_of_anchor {x : Command Unit} {g : Tables → String × String → List Rule}
    (h : ∀ τ₀, ⦃fun τ => ⌜τ = τ₀⌝⦄ x
      ⦃post⟨fun _ τ => ⌜∀ k, rules τ k
          = if k = ("filter", privateAnchorChain) then g τ₀ k else rules τ₀ k⌝,
        fun _ τ => ⌜τ = τ₀⌝⟩⦄)
    (hg : ∀ τ k, (g τ k).filter (· ∉ jumps tenant brIf vxIf)
      = (rules τ k).filter (· ∉ jumps tenant brIf vxIf)) :
  Along (Touched tenant brIf vxIf) x
  := by
  apply Along.of_spec h
  · intro τ _ τ' hrules
    constructor
    · intro k _ _ hanchor
      rw [hrules, if_neg hanchor]
    · rw [hrules, if_pos rfl, hg]
  · rintro τ _ _ rfl
    apply Touched.refl

theorem insertPrivateJump_touched {iface : String} {kind : Kind}
    (h : named iface (ingressJump tenant iface kind) ⊆ jumps tenant brIf vxIf) :
  Along (Touched tenant brIf vxIf) (insertPrivateJump tenant iface kind)
  := by
  apply Touched.along_of_anchor (insertPrivateJump_spec tenant iface kind)
  intro τ k
  apply filter_addAll
  intro r hr
  simp [h hr]

variable (tenant brIf vxIf) in
/-- Setting up the isolation of a tenant leaves the other tenants alone. -/
theorem ensureTenantIsolation_touched (extras : List String) :
  Along (Touched tenant brIf vxIf) (ensureTenantIsolation tenant brIf vxIf extras)
  := by
  rw [ensureTenantIsolation]
  apply Along.bind
  · apply Touched.along_of_chain (ensureTenantChains_spec tenant)
  intro _
  apply Along.bind
  · apply Along.of_spec ensurePrivateAnchor_spec
    · intro τ _ τ' hrules
      apply Touched.of_forward hrules
    · intro τ _ τ' hrules
      apply Touched.of_forward hrules
  intro _
  apply Along.bind
  · apply insertPrivateJump_touched
    apply List.subset_append_left
  intro _
  apply Along.bind
  · apply insertPrivateJump_touched
    apply List.subset_append_right
  intro _
  apply Along.bind
  · apply Touched.along_of_chain (acceptEgress_spec tenant brIf .bridge)
  intro _
  apply Along.bind
  · apply Touched.along_of_chain (acceptEgress_spec tenant vxIf .vxlan)
  intro _
  apply Along.bind
  · apply Along.of_spec (acceptExtras_spec tenant extras)
    · intro τ _ τ' hrules
      apply Touched.of_chain
      intro k hk
      rw [hrules, if_neg hk]
    · intro τ _ τ' hrules
      apply Touched.of_chain hrules
  intro _
  apply Touched.along_of_chain appendUnique_spec

theorem removeFromPrivateAnchor_touched {iface : String} {kind : Kind}
    (h : named iface (ingressJump tenant iface kind) ⊆ jumps tenant brIf vxIf) :
  Along (Touched tenant brIf vxIf) (removeFromPrivateAnchor tenant iface kind)
  := by
  apply Touched.along_of_anchor (removeFromPrivateAnchor_spec tenant iface kind)
  intro τ k
  split
  · rfl
  · next hiface =>
    apply filter_erase
    rw [named, if_neg hiface] at h
    simp [h List.mem_cons_self]

variable (tenant brIf vxIf) in
/-- The removal of a tenant leaves the other tenants alone. -/
theorem deleteTenantChains_touched :
  Along (Touched tenant brIf vxIf) (deleteTenantChains tenant brIf vxIf)
  := by
  rw [deleteTenantChains]
  split
  · apply Along.throw Touched.refl
  apply Along.bind
  · apply removeFromPrivateAnchor_touched
    apply List.subset_append_right
  intro _
  apply Along.bind
  · apply removeFromPrivateAnchor_touched
    apply List.subset_append_left
  intro _
  apply Along.bind
  · apply Along.of_spec clearChain_spec
    · intro τ _ τ' hrules
      apply Touched.of_chain
      intro k hk
      rw [hrules, if_neg hk]
    · rintro τ _ _ ⟨⟩
  intro _
  apply Along.of_spec deleteChain_spec
  · intro τ _ τ' hrules
    apply Touched.of_chain
    intro k _
    apply hrules
  · rintro τ _ _ rfl
    apply Touched.refl

end

end Policy
