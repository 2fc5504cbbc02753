import Misokube.Lib.Machine
import Misokube.Policy.Specs

/-!
# Isolation of private tenants

Runs of calls that set up and remove the isolation of private tenants.  A packet that comes in
through an interface of a tenant that is ensured passes exactly to the tenant's own interfaces and
the extra ones it was last ensured with (`Isolates`), if no call is for a tenant that has a name
like that of another tenant ensured at the time.  Names are alike that differ only in characters
which may not stand in the name of a chain, or after the first 26 characters: such tenants have
the same chain, and a call for one replaces the rules of the other.
-/

namespace Policy

open Iptables Command

/-! ### Tenants and calls -/

/-- A private tenant with its bridge and VXLAN interfaces. -/
structure Tenant where
  name : String
  brIf : String
  vxIf : String
deriving DecidableEq, Repr

def Tenant.ifaces (t : Tenant) : List String :=
  [t.brIf, t.vxIf]

/-- Private tenants: their interfaces have names, which are not patterns, and no two tenants
share an interface. -/
structure Fleet where
  tenants : List Tenant
  proper : ∀ t ∈ tenants, ∀ i ∈ t.ifaces, i ≠ "" ∧ ¬ Wildcard i
  disjoint : ∀ t ∈ tenants, ∀ t' ∈ tenants, ∀ i ∈ t.ifaces, i ∈ t'.ifaces → t = t'

/-- A call to the policy manager for a private tenant. -/
inductive Call where
  | ensure (t : Tenant) (extras : List String)
  | delete (t : Tenant)

def Call.tenant : Call → Tenant
  | .ensure t _ => t
  | .delete t => t

/-- Extra interfaces are not patterns, and not those of private tenants. -/
def Fleet.Outside (F : Fleet) (extras : List String) : Prop :=
  ∀ i ∈ extras, ¬ Wildcard i ∧ ∀ t ∈ F.tenants, i ∉ t.ifaces

/-- The call is for a private tenant, with extra interfaces that are not those of private
tenants. -/
def Call.Within (F : Fleet) : Call → Prop
  | .ensure t extras => t ∈ F.tenants ∧ F.Outside extras
  | .delete t => t ∈ F.tenants

instance (F : Fleet) (extras : List String) : Decidable (F.Outside extras) :=
  inferInstanceAs (Decidable (∀ i ∈ extras, ¬ Wildcard i ∧ ∀ t ∈ F.tenants, i ∉ t.ifaces))

instance (F : Fleet) : ∀ call : Call, Decidable (call.Within F)
  | .ensure t extras => inferInstanceAs (Decidable (t ∈ F.tenants ∧ F.Outside extras))
  | .delete t => inferInstanceAs (Decidable (t ∈ F.tenants))

/-- The tables, and the tenants that are ensured, with their extra interfaces. -/
structure Node where
  tables : Tables
  ensured : GoMap Tenant (List String)

/-- A tenant is ensured from a successful call on until the next call for it that fails or
removes it. -/
def step (s : Node) : Call → Option Error × Node
  | .ensure t extras =>
    match (ensureTenantIsolation t.name t.brIf t.vxIf extras).run s.tables with
    | .ok _ τ => (none, ⟨τ, s.ensured.insert t extras⟩)
    | .error e τ => (some e, ⟨τ, s.ensured.erase t⟩)
  | .delete t =>
    match (deleteTenantChains t.name t.brIf t.vxIf).run s.tables with
    | .ok _ τ => (none, ⟨τ, s.ensured.erase t⟩)
    | .error e τ => (some e, ⟨τ, s.ensured.erase t⟩)

/-- What becomes of a packet among the rules of the private tenants. -/
def anchorVerdict (τ : Tables) (depth : ℕ) (p : Packet) : Option Verdict :=
  walk τ "filter" p depth (rules τ ("filter", privateAnchorChain))

/-- Packets from the interfaces of ensured tenants pass to the tenant's interfaces and its extra
interfaces, and are discarded otherwise, in particular on the way to other private tenants. -/
def Isolates (F : Fleet) (s : Node) : Prop :=
  ∀ t extras p depth, s.ensured.lookup t = some extras → p.inIface ∈ t.ifaces → p.outIface ≠ "" →
    2 ≤ depth →
      anchorVerdict s.tables depth p
          = some (if p.outIface ∈ t.ifaces ∨ p.outIface ∈ extras then .accept else .drop)
        ∧ ∀ t' ∈ F.tenants, t' ≠ t → p.outIface ∈ t'.ifaces →
            anchorVerdict s.tables depth p = some .drop

/-! ### Names of chains -/

/-- Names with the same first 26 characters, if all characters that may not stand in the name of a
chain are taken for `-`. -/
def Alike (name name' : String) : Prop :=
  (name.toList.map chainRune).take 26 = (name'.toList.map chainRune).take 26

instance (name name' : String) : Decidable (Alike name name') :=
  inferInstanceAs (Decidable (_ = _))

/-- No other tenant that is ensured has a name like that of the tenant of the call. -/
def Unambiguous (s : Node) (call : Call) : Prop :=
  ∀ t ∈ s.ensured.keys, t ≠ call.tenant → ¬ Alike t.name call.tenant.name

instance (s : Node) (call : Call) : Decidable (Unambiguous s call) :=
  inferInstanceAs (Decidable (∀ t ∈ s.ensured.keys, _))

/-- Tenants have the same chain only if their names are alike. -/
theorem alike_of_fwChain_eq {name name' : String} (h : fwChain name = fwChain name') :
  Alike name name'
  := by
  rw [← String.toList_inj] at h
  by_cases hname : name = ""
  · by_cases hname' : name' = ""
    · rw [hname, hname', Alike]
    · rw [hname, toList_fwChain_empty, toList_fwChain hname'] at h
      simp at h
  · by_cases hname' : name' = ""
    · rw [hname', toList_fwChain_empty, toList_fwChain hname] at h
      simp at h
    · rw [toList_fwChain hname, toList_fwChain hname'] at h
      simpa [Alike] using h

/-! ### The chain of a tenant -/

def Tenant.accepts (t : Tenant) (extras : List String) : List Rule :=
  Policy.accepts t.name t.brIf t.vxIf extras

def Tenant.jumps (t : Tenant) : List Rule :=
  Policy.jumps t.name t.brIf t.vxIf

section

variable {F : Fleet} {t t' : Tenant} {extras : List String} {r : Rule} {p : Packet}

theorem mem_named {iface : String} {r' : Rule} (h : iface ≠ "") :
  r ∈ named iface r' ↔ r = r'
  := by
  rw [named, if_neg h, List.mem_singleton]

theorem mem_accepts (ht : t ∈ F.tenants) :
  r ∈ t.accepts extras ↔ r = egressAccept t.name t.brIf .bridge
    ∨ r = egressAccept t.name t.vxIf .vxlan ∨ ∃ i ∈ extras, i ≠ "" ∧ r = extraAccept i
  := by
  have hbr := (F.proper t ht t.brIf (by simp [Tenant.ifaces])).1
  have hvx := (F.proper t ht t.vxIf (by simp [Tenant.ifaces])).1
  rw [Tenant.accepts, Policy.accepts, List.mem_append, List.mem_append, mem_named hbr,
    mem_named hvx, or_assoc, extraAccepts, List.mem_flatMap]
  simp only [named]
  grind

theorem mem_jumps (ht : t ∈ F.tenants) :
  r ∈ t.jumps ↔ r = ingressJump t.name t.vxIf .vxlan ∨ r = ingressJump t.name t.brIf .bridge
  := by
  have hbr := (F.proper t ht t.brIf (by simp [Tenant.ifaces])).1
  have hvx := (F.proper t ht t.vxIf (by simp [Tenant.ifaces])).1
  rw [Tenant.jumps, Policy.jumps, List.mem_append, mem_named hbr, mem_named hvx]

theorem egressAccept_matches {iface : String} (h : ¬ Wildcard iface) (name : String) (kind : Kind) :
  (egressAccept name iface kind).matches p = decide (iface = p.outIface)
  := by
  simp [Rule.matches, egressAccept, matchIface_of_not_wildcard h]

theorem extraAccept_matches {iface : String} (h : ¬ Wildcard iface) :
  (extraAccept iface).matches p = decide (iface = p.outIface)
  := by
  simp [Rule.matches, extraAccept, matchIface_of_not_wildcard h]

theorem ingressJump_matches {iface : String} (h : ¬ Wildcard iface) (name : String) (kind : Kind) :
  (ingressJump name iface kind).matches p = decide (iface = p.inIface)
  := by
  simp [Rule.matches, ingressJump, matchIface_of_not_wildcard h]

/-- The packets that the rules of a tenant let pass. -/
theorem exists_accepts_matches (ht : t ∈ F.tenants) (hextras : F.Outside extras)
    (hout : p.outIface ≠ "") :
  (∃ r ∈ t.accepts extras, r.matches p = true) ↔ p.outIface ∈ t.ifaces ∨ p.outIface ∈ extras
  := by
  have hbr := (F.proper t ht t.brIf (by simp [Tenant.ifaces])).2
  have hvx := (F.proper t ht t.vxIf (by simp [Tenant.ifaces])).2
  constructor
  · rintro ⟨r, hr, hmatches⟩
    obtain rfl | rfl | ⟨i, hi, -, rfl⟩ := (mem_accepts ht).mp hr
    · rw [egressAccept_matches hbr, decide_eq_true_eq] at hmatches
      simp [Tenant.ifaces, hmatches]
    · rw [egressAccept_matches hvx, decide_eq_true_eq] at hmatches
      simp [Tenant.ifaces, hmatches]
    · rw [extraAccept_matches (hextras i hi).1, decide_eq_true_eq] at hmatches
      right
      rw [← hmatches]
      exact hi
  · rintro (hiface | hextra)
    · rw [Tenant.ifaces, List.mem_pair] at hiface
      rcases hiface with hiface | hiface
      · use egressAccept t.name t.brIf .bridge
        rw [mem_accepts ht, egressAccept_matches hbr]
        simp [hiface]
      · use egressAccept t.name t.vxIf .vxlan
        rw [mem_accepts ht, egressAccept_matches hvx]
        simp [hiface]
    · use extraAccept p.outIface
      rw [mem_accepts ht, extraAccept_matches (hextras _ hextra).1, decide_eq_true_eq]
      constructor
      · right
        right
        use p.outIface, hextra, hout
      · rfl

/-- The chain of a tenant lets packets pass to its interfaces and the extra ones. -/
theorem walk_chain (ht : t ∈ F.tenants) (hextras : F.Outside extras) (hout : p.outIface ≠ "")
    (τ : Tables) (depth : ℕ) :
  walk τ "filter" p (depth + 1) (addAll [] (t.accepts extras ++ [defaultDrop t.name]))
    = some (if p.outIface ∈ t.ifaces ∨ p.outIface ∈ extras then .accept else .drop)
  := by
  have hdrop : defaultDrop t.name ∉ t.accepts extras := by
    intro hmem
    have htarget := target_of_mem_accepts hmem
    simp [defaultDrop] at htarget
  rw [addAll_concat List.not_mem_nil hdrop, walk, List.findSome?_append]
  split
  · next hpass =>
    obtain ⟨r, hr, hmatches⟩ := (exists_accepts_matches ht hextras hout).mpr hpass
    rw [findSome_eq_some (v := .accept) (mem_addAll_nil.mpr hr), Option.some_or]
    · rw [Rule.verdict_eq_some, target_of_mem_accepts hr]
      exact ⟨hmatches, rfl⟩
    · intro r' hr' v' hv'
      rw [Rule.verdict_eq_some, target_of_mem_accepts (mem_addAll_nil.mp hr')] at hv'
      apply (Option.some.inj hv'.2).symm
  · next hpass =>
    rw [List.findSome?_eq_none_iff.mpr, Option.none_or]
    · simp [Rule.verdict, Rule.matches, Target.verdict, defaultDrop]
    · intro r hr
      rw [Rule.verdict, if_neg]
      intro hmatches
      apply hpass
      apply (exists_accepts_matches ht hextras hout).mp
      use r, mem_addAll_nil.mp hr, hmatches

/-! ### The rules in force -/

/-- The rules of the private tenants are jumps to their chains, and ensured tenants have their
jumps and chains. -/
structure Enforced (F : Fleet) (s : Node) : Prop where
  within : ∀ t extras, s.ensured.lookup t = some extras → t ∈ F.tenants ∧ F.Outside extras
  anchor : ∀ r ∈ rules s.tables ("filter", privateAnchorChain), ∃ t ∈ F.tenants, r ∈ t.jumps
  jumps : ∀ t extras, s.ensured.lookup t = some extras →
    t.jumps ⊆ rules s.tables ("filter", privateAnchorChain)
  chain : ∀ t extras, s.ensured.lookup t = some extras →
    rules s.tables ("filter", fwChain t.name)
      = addAll [] (t.accepts extras ++ [defaultDrop t.name])

theorem exists_jump_matches (ht : t ∈ F.tenants) (hin : p.inIface ∈ t.ifaces) :
  ∃ r ∈ t.jumps, r.matches p = true
  := by
  have hproper := (F.proper t ht p.inIface hin).2
  rw [Tenant.ifaces, List.mem_pair] at hin
  rcases hin with hin | hin
  · use ingressJump t.name t.brIf .bridge
    rw [mem_jumps ht, ← hin, ingressJump_matches hproper]
    simp
  · use ingressJump t.name t.vxIf .vxlan
    rw [mem_jumps ht, ← hin, ingressJump_matches hproper]
    simp

theorem exists_inIface_of_mem_jumps (ht : t ∈ F.tenants) (hr : r ∈ t.jumps) :
  ∃ i ∈ t.ifaces, r.inIface = some i
  := by
  rcases (mem_jumps ht).mp hr with rfl | rfl
  · use t.vxIf
    simp [Tenant.ifaces, ingressJump]
  · use t.brIf
    simp [Tenant.ifaces, ingressJump]

theorem inIface_mem_of_matches (ht : t ∈ F.tenants) (hr : r ∈ t.jumps) (hmatches : r.matches p) :
  p.inIface ∈ t.ifaces
  := by
  have hbr := (F.proper t ht t.brIf (by simp [Tenant.ifaces])).2
  have hvx := (F.proper t ht t.vxIf (by simp [Tenant.ifaces])).2
  rcases (mem_jumps ht).mp hr with rfl | rfl
  · rw [ingressJump_matches hvx, decide_eq_true_eq] at hmatches
    simp [Tenant.ifaces, hmatches]
  · rw [ingressJump_matches hbr, decide_eq_true_eq] at hmatches
    simp [Tenant.ifaces, hmatches]

/-- Packets from an interface of an ensured tenant go the way of the tenant's chain. -/
theorem Enforced.isolates {s : Node} (h : Enforced F s) :
  Isolates F s
  := by
  intro t extras p depth hlookup hin hout hdepth
  obtain ⟨ht, hextras⟩ := h.within t extras hlookup
  obtain ⟨depth, rfl⟩ := Nat.exists_eq_add_of_le' hdepth
  have hverdict : anchorVerdict s.tables (depth + 2) p
      = some (if p.outIface ∈ t.ifaces ∨ p.outIface ∈ extras then .accept else .drop) := by
    have hchain := h.chain t extras hlookup
    obtain ⟨r, hr, hmatches⟩ := exists_jump_matches ht hin
    obtain ⟨c, hc, hrules⟩ : ∃ c, s.tables.lookup ("filter", fwChain t.name) = some c
        ∧ c.rules = rules s.tables ("filter", fwChain t.name) := by
      apply exists_lookup_of_mem (r := defaultDrop t.name)
      rw [hchain, mem_addAll_nil]
      simp
    apply walk_eq_of_jump hc _ (h.jumps t extras hlookup hr) hmatches
    · intro r' hr' hmatches'
      obtain ⟨t', ht', hjump⟩ := h.anchor r' hr'
      have hin' := inIface_mem_of_matches ht' hjump hmatches'
      rw [F.disjoint t ht t' ht' _ hin hin']
      apply target_of_mem_jumps hjump
    · rw [hrules, hchain]
      apply walk_chain ht hextras hout
  refine ⟨hverdict, ?_⟩
  intro t' ht' hne hout'
  rw [hverdict, if_neg]
  rintro (hown | hextra)
  · exact hne (F.disjoint t' ht' t ht _ hout' hown)
  · exact (hextras _ hextra).2 t' ht' hout'

theorem eq_of_mem_jumps (ht : t ∈ F.tenants) (ht' : t' ∈ F.tenants) (hr : r ∈ t.jumps)
    (hr' : r ∈ t'.jumps) :
  t = t'
  := by
  obtain ⟨i, hi, hin⟩ := exists_inIface_of_mem_jumps ht hr
  obtain ⟨i', hi', hin'⟩ := exists_inIface_of_mem_jumps ht' hr'
  rw [hin, Option.some.injEq] at hin'
  rw [← hin'] at hi'
  apply F.disjoint t ht t' ht' i hi hi'

/-- What a call for a tenant leaves of the rules of the others. -/
theorem Enforced.erase {s : Node} (h : Enforced F s) (ht : t ∈ F.tenants)
    (hunambiguous : ∀ t' ∈ s.ensured.keys, t' ≠ t → ¬ Alike t'.name t.name) {τ : Tables}
    (htouched : Touched t.name t.brIf t.vxIf s.tables τ) :
  Enforced F ⟨τ, s.ensured.erase t⟩
  := by
  have hother : ∀ t' extras, (s.ensured.erase t).lookup t' = some extras →
      t' ≠ t ∧ s.ensured.lookup t' = some extras := by
    intro t' extras hlookup
    rw [GoMap.lookup_erase_eq] at hlookup
    split at hlookup
    · cases hlookup
    · next hne => exact ⟨hne, hlookup⟩
  constructor
  · intro t' extras hlookup
    apply h.within t' extras (hother t' extras hlookup).2
  · intro r hr
    rcases htouched.mem_or hr with hold | hnew
    · apply h.anchor r hold
    · use t, ht, hnew
  · intro t' extras hlookup r hr
    obtain ⟨hne, hlookup⟩ := hother t' extras hlookup
    apply htouched.mem_of_mem (h.jumps t' extras hlookup hr)
    intro hr'
    exact hne (eq_of_mem_jumps (h.within t' extras hlookup).1 ht hr hr')
  · intro t' extras hlookup
    obtain ⟨hne, hlookup⟩ := hother t' extras hlookup
    have hkey : t' ∈ s.ensured.keys := by
      rw [← AList.mem_keys, ← AList.lookup_isSome, hlookup, Option.isSome_some]
    dsimp only
    rw [htouched.chains, h.chain t' extras hlookup]
    · simp [fwChain_ne_forward]
    · intro hk
      apply hunambiguous t' hkey hne
      apply alike_of_fwChain_eq
      exact congrArg Prod.snd hk
    · simp [fwChain_ne_anchor]

/-- A tenant whose rules are set up is ensured. -/
theorem Enforced.insert {τ : Tables} {ensured : GoMap Tenant (List String)}
    (h : Enforced F ⟨τ, ensured.erase t⟩) (ht : t ∈ F.tenants) (hextras : F.Outside extras)
    (hjumps : t.jumps ⊆ rules τ ("filter", privateAnchorChain))
    (hchain : rules τ ("filter", fwChain t.name)
      = addAll [] (t.accepts extras ++ [defaultDrop t.name])) :
  Enforced F ⟨τ, ensured.insert t extras⟩
  := by
  have hcases : ∀ t' extras', (ensured.insert t extras).lookup t' = some extras' →
      (t' = t ∧ extras' = extras) ∨ (ensured.erase t).lookup t' = some extras' := by
    intro t' extras' hlookup
    rw [GoMap.lookup_insert_eq] at hlookup
    rw [GoMap.lookup_erase_eq]
    split at hlookup
    · next heq =>
      left
      exact ⟨heq, (Option.some.inj hlookup).symm⟩
    · next hne =>
      right
      rw [if_neg hne, hlookup]
  constructor
  · intro t' extras' hlookup
    rcases hcases t' extras' hlookup with ⟨rfl, rfl⟩ | hlookup
    · exact ⟨ht, hextras⟩
    · apply h.within t' extras' hlookup
  · apply h.anchor
  · intro t' extras' hlookup
    rcases hcases t' extras' hlookup with ⟨rfl, rfl⟩ | hlookup
    · exact hjumps
    · apply h.jumps t' extras' hlookup
  · intro t' extras' hlookup
    rcases hcases t' extras' hlookup with ⟨rfl, rfl⟩ | hlookup
    · exact hchain
    · apply h.chain t' extras' hlookup

/-- A call that is not ambiguous keeps the rules in force. -/
theorem step_enforced {s : Node} {call : Call} (h : Enforced F s) (hwithin : call.Within F)
    (hunambiguous : Unambiguous s call) :
  Enforced F (step s call).2
  := by
  cases call with
  | ensure t extras =>
    obtain ⟨ht, hextras⟩ := hwithin
    have htouched := (ensureTenantIsolation_touched t.name t.brIf t.vxIf extras).rel s.tables
    have hspec := run_of_spec (ensureTenantIsolation_spec t.name t.brIf t.vxIf extras s.tables)
    rw [step]
    rw [final] at htouched
    cases hrun : (ensureTenantIsolation t.name t.brIf t.vxIf extras).run s.tables with
    | ok _ τ =>
      rw [hrun] at htouched hspec
      apply (h.erase ht hunambiguous htouched).insert ht hextras
      · rw [hspec.2]
        intro r hr
        rw [mem_addAll]
        right
        exact hr
      · exact hspec.1
    | error e τ =>
      rw [hrun] at htouched
      apply h.erase ht hunambiguous htouched
  | delete t =>
    have htouched := (deleteTenantChains_touched t.name t.brIf t.vxIf).rel s.tables
    rw [step]
    rw [final] at htouched
    cases hrun : (deleteTenantChains t.name t.brIf t.vxIf).run s.tables with
    | ok _ τ =>
      rw [hrun] at htouched
      apply h.erase hwithin hunambiguous htouched
    | error e τ =>
      rw [hrun] at htouched
      apply h.erase hwithin hunambiguous htouched

end

/-- From tables without rules of private tenants, in every run of calls for private tenants in
which no call is for a tenant with a name like that of another tenant ensured at the time, packets
of ensured tenants pass exactly to the tenant's interfaces and its extra interfaces. -/
theorem after_isolates (F : Fleet) {tables : Tables}
    (htables : rules tables ("filter", privateAnchorChain) = []) {calls : List Call}
    (hwithin : ∀ call ∈ calls, call.Within F)
    (hunambiguous : Machine.Meets step Unambiguous ⟨tables, ∅⟩ calls) :
  Isolates F (Machine.after step ⟨tables, ∅⟩ calls)
  := by
  apply Enforced.isolates
  apply Machine.after_of_meets (P := Enforced F) _ _ (hunambiguous.and_forall hwithin)
  · intro s call h hcall
    apply step_enforced h hcall.1 hcall.2
  · constructor
    · intro t extras hlookup
      simp at hlookup
    · simp [htables]
    · intro t extras hlookup
      simp at hlookup
    · intro t extras hlookup
      simp at hlookup

theorem after_isolates_two :
  Isolates
    ⟨[⟨"a", "br-a", "vx-a"⟩, ⟨"b", "br-b", "vx-b"⟩], by decide +kernel, by decide +kernel⟩
    (Machine.after step ⟨AList.singleton ("filter", "FORWARD") ⟨some "DROP", []⟩, ∅⟩
      [.ensure ⟨"a", "br-a", "vx-a"⟩ ["eth0"], .ensure ⟨"b", "br-b", "vx-b"⟩ [],
        .ensure ⟨"a", "br-a", "vx-a"⟩ [], .delete ⟨"b", "br-b", "vx-b"⟩])
  := by
  apply after_isolates
  · decide +kernel
  · decide +kernel
  · decide +kernel

/-- Tenants with names that are alike have the same chain: packets of the first pass to the
second. -/
theorem ensureTenantIsolation_alike :
  ¬ Isolates
    ⟨[⟨"a.b", "br-1", "vx-1"⟩, ⟨"a-b", "br-2", "vx-2"⟩], by decide +kernel, by decide +kernel⟩
    (Machine.after step ⟨AList.singleton ("filter", "FORWARD") ⟨some "DROP", []⟩, ∅⟩
      [.ensure ⟨"a.b", "br-1", "vx-1"⟩ [], .ensure ⟨"a-b", "br-2", "vx-2"⟩ []])
  := by
  intro hisolates
  have hverdict : anchorVerdict (Machine.after step
      ⟨AList.singleton ("filter", "FORWARD") ⟨some "DROP", []⟩, ∅⟩
      [.ensure ⟨"a.b", "br-1", "vx-1"⟩ [], .ensure ⟨"a-b", "br-2", "vx-2"⟩ []]).tables 2
      ⟨"br-1", "br-2", fun _ => false⟩ = some .accept := by
    decide +kernel
  have hdrop := (hisolates ⟨"a.b", "br-1", "vx-1"⟩ [] ⟨"br-1", "br-2", fun _ => false⟩ 2
    (by decide +kernel) (by decide +kernel) (by decide +kernel) (by decide)).2
    ⟨"a-b", "br-2", "vx-2"⟩ (by decide +kernel) (by decide +kernel) (by decide +kernel)
  rw [hverdict] at hdrop
  simp at hdrop

end Policy
