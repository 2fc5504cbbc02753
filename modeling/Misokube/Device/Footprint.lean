import Misokube.Device.Addresses
import Misokube.Device.Kernel

/-!
# What the device operations may change in the kernel

Whatever faults its calls meet, and whether it returns or fails, an operation changes only the links
of its tenant.  Its footprint says which links it may change, which of these it may delete and what
links it may make; footprints hold along sequences of calls (`Changes`, a transitive relation).
-/

namespace Device

open Net Links Command

/-! ### Names of devices -/

/-- The digits that stand for a tenant in the names of its devices. -/
def digits (h : Hashes) (id : String) : String :=
  String.ofList ((hexEncode (h.sha1 (bytes id))).toList.take 9)

def bridgeName (h : Hashes) (id : String) : String :=
  brPrefix ++ digits h id

def vtepName (h : Hashes) (id : String) : String :=
  vxlanPrefix ++ digits h id

/-- Names of bridges are never too long. -/
theorem generateDeviceName_bridge (h : Hashes) (id : String) :
  generateDeviceName h brPrefix id = .ok (bridgeName h id)
  := generateDeviceName_eq h (by decide) id

/-- Names of VTEPs are never too long. -/
theorem generateDeviceName_vtep (h : Hashes) (id : String) :
  generateDeviceName h vxlanPrefix id = .ok (vtepName h id)
  := generateDeviceName_eq h (by decide) id

/-- Two tenants have one bridge exactly if the digits in its name are the same. -/
theorem bridgeName_inj {h : Hashes} {id id' : String} :
  bridgeName h id = bridgeName h id' ↔ digits h id = digits h id'
  := by
  simp only [bridgeName, String.ext_iff, String.toList_append, List.append_cancel_left_eq]

/-- Two tenants have one VTEP exactly if the digits in its name are the same. -/
theorem vtepName_inj {h : Hashes} {id id' : String} :
  vtepName h id = vtepName h id' ↔ digits h id = digits h id'
  := by
  simp only [vtepName, String.ext_iff, String.toList_append, List.append_cancel_left_eq]

/-- Names that begin differently are different. -/
theorem append_ne_append {p q : String} (hp : ¬ p.toList <+: q.toList)
    (hq : ¬ q.toList <+: p.toList) (a b : String) :
  p ++ a ≠ q ++ b
  := by
  intro heq
  have hlist := congrArg String.toList heq
  rw [String.toList_append, String.toList_append] at hlist
  have hprefix : q.toList <+: p.toList ++ a.toList := by
    rw [hlist]
    apply List.prefix_append
  obtain h | h := List.prefix_or_prefix_of_prefix (List.prefix_append p.toList a.toList) hprefix
  · exact hp h
  · exact hq h

/-- The prefixes keep bridges and VTEPs apart, also those of different tenants. -/
theorem bridgeName_ne_vtepName (h : Hashes) (id id' : String) :
  bridgeName h id ≠ vtepName h id'
  := append_ne_append (by decide) (by decide) _ _

namespace Kernel

/-! ### Footprints -/

/-- The links of the host that may change, those of them that may be deleted, the namespaces of pods
that may change, and which links may be made. -/
structure Footprint where
  names : Set String
  deletes : Set String
  paths : Set String
  new : String → Kind → Prop

/-- The footprint of what changes nothing. -/
def nothing : Footprint where
  names := ∅
  deletes := ∅
  paths := ∅
  new _ _ := False

/-- What setting up the interface of a pod may change: its namespace, and the interface of the host,
which has one of the names that are free. -/
def vethFootprint (path : String) (free : Set String) : Footprint where
  names := {name | name ∈ free ∧ ∃ suffix, name = vethPrefix ++ suffix}
  deletes := ∅
  paths := {path}
  new name kind := (∃ suffix, name = vethPrefix ++ suffix) ∧ ∃ ifName, kind = .veth path ifName

/-- The kernel is changed within the footprint.  Links that may not change stay attached to bridges
that may not be deleted, if the namespace of the host is consistent. -/
structure Changes (F : Footprint) (k k' : State) : Prop where
  others : ∀ n ∉ F.names, k'.host.link n = k.host.link n
  kept : ∀ n ∉ F.deletes, ∀ l, k.host.link n = some l →
    ∃ l', k'.host.link n = some l' ∧ l.Same l'
  origin : ∀ n l', k'.host.link n = some l' →
    (∃ l, k.host.link n = some l ∧ l.Same l') ∨ F.new n l'.kind
  attached : k.host.Consistent → ∀ n ∉ F.names, ∀ b ∉ F.deletes, ∀ lb, k.host.link b = some lb →
    k.host.master n = some lb.index → k'.host.master n = some lb.index
  route : (∀ r ∈ k.host.route, r.1 ∉ F.names) → k'.host.route = k.host.route
  netns : ∀ path ∉ F.paths, k'.netns.lookup path = k.netns.lookup path
  consistent : k.host.Consistent → k'.host.Consistent

/-- A footprint that allows at least as much. -/
structure Footprint.Le (F G : Footprint) : Prop where
  names : F.names ⊆ G.names
  deletes : F.deletes ⊆ G.deletes
  paths : F.paths ⊆ G.paths
  new : ∀ n kind, F.new n kind → G.new n kind

namespace Changes

variable {F G : Footprint} {k k' k'' : State}

theorem refl (F : Footprint) (k : State) :
  Changes F k k
  where
  others _ _ := rfl
  kept _ _ l hl := ⟨l, hl, Link.Same.refl l⟩
  origin _ l hl := .inl ⟨l, hl, Link.Same.refl l⟩
  attached _ _ _ _ _ _ _ hmaster := hmaster
  route _ := rfl
  netns _ _ := rfl
  consistent h := h

/-- One change after another; a bridge keeps its index, so that what is attached to it stays so. -/
theorem trans (h : Changes F k k') (h' : Changes F k' k'') :
  Changes F k k''
  := by
  constructor
  · intro n hn
    rw [h'.others n hn, h.others n hn]
  · intro n hn l hl
    obtain ⟨l', hl', hsame⟩ := h.kept n hn l hl
    obtain ⟨l'', hl'', hsame'⟩ := h'.kept n hn l' hl'
    exact ⟨l'', hl'', hsame.trans hsame'⟩
  · intro n l'' hl''
    obtain ⟨l', hl', hsame'⟩ | hnew := h'.origin n l'' hl''
    · obtain ⟨l, hl, hsame⟩ | hnew := h.origin n l' hl'
      · exact .inl ⟨l, hl, hsame.trans hsame'⟩
      · right
        rw [hsame'.kind]
        exact hnew
    · exact .inr hnew
  · intro hconsistent n hn b hb lb hlb hmaster
    obtain ⟨lb', hlb', hsame⟩ := h.kept b hb lb hlb
    have hmaster' := h.attached hconsistent n hn b hb lb hlb hmaster
    rw [← hsame.index] at hmaster' ⊢
    exact h'.attached (h.consistent hconsistent) n hn b hb lb' hlb' hmaster'
  · intro hroute
    have heq := h.route hroute
    rw [← heq] at hroute ⊢
    apply h'.route hroute
  · intro path hpath
    rw [h'.netns path hpath, h.netns path hpath]
  · intro hconsistent
    exact h'.consistent (h.consistent hconsistent)

/-- A larger footprint allows more. -/
theorem mono (h : Changes F k k') (hle : F.Le G) :
  Changes G k k'
  where
  others n hn := h.others n (fun hF => hn (hle.names hF))
  kept n hn := h.kept n (fun hF => hn (hle.deletes hF))
  origin n l' hl' := (h.origin n l' hl').imp_right (hle.new n _)
  attached hconsistent n hn b hb :=
    h.attached hconsistent n (fun hF => hn (hle.names hF)) b (fun hF => hb (hle.deletes hF))
  route hroute := h.route fun r hr hF => hroute r hr (hle.names hF)
  netns path hpath := h.netns path (fun hF => hpath (hle.paths hF))
  consistent := h.consistent

/-- A change of one link of the host. -/
theorem of_adjusts {name : String} {ns' : Netns} (h : Adjusts name k.host ns')
    (hname : name ∈ F.names) :
  Changes F k { k with host := ns' }
  := by
  constructor
  · intro n hn
    apply h.others n
    rintro rfl
    exact hn hname
  · intro n _ l hl
    by_cases hn : n = name
    · subst hn
      apply h.kept l hl
    · exact ⟨l, (h.others n hn).trans hl, Link.Same.refl l⟩
  · intro n l' hl'
    exact .inl (h.same hl')
  · intro _ n hn _ _ _ _ hmaster
    refine (h.master n ?_).trans hmaster
    rintro rfl
    exact hn hname
  · intro hroute
    apply h.route
    rintro r hr rfl
    exact hroute r hr hname
  · intro path _
    rfl
  · intro hconsistent
    exact hconsistent.of_same fun n l' => h.same

/-- A link that was not there. -/
theorem of_add {name : String} {l : Link IPNet} (hnone : k.host.link name = none)
    (hfresh : k.host.Fresh l.index) (hunused : k.host.Unused l.kind) (hname : name ∈ F.names)
    (hnew : F.new name l.kind) :
  Changes F k { k with host := k.host.add name l }
  := by
  constructor
  · intro n hn
    apply k.host.link_add_ne
    rintro rfl
    exact hn hname
  · intro n _ l₀ hl₀
    refine ⟨l₀, Eq.trans (k.host.link_add_ne _ ?_) hl₀, Link.Same.refl l₀⟩
    rintro rfl
    cases hnone.symm.trans hl₀
  · intro n l' hl'
    change (k.host.add name l).link n = some l' at hl'
    by_cases hn : n = name
    · subst hn
      rw [k.host.link_add_self, Option.some.injEq] at hl'
      subst hl'
      exact .inr hnew
    · rw [k.host.link_add_ne _ hn] at hl'
      exact .inl ⟨l', hl', Link.Same.refl l'⟩
  · intro _ n hn _ _ _ _ hmaster
    refine (Function.update_of_ne ?_ _ _).trans hmaster
    rintro rfl
    exact hn hname
  · intro _
    rfl
  · intro path _
    rfl
  · intro hconsistent
    exact hconsistent.add hfresh hunused

/-- A link that is deleted.  What is attached to another bridge stays attached, since that has
another index. -/
theorem of_drop {name : String} {l : Link IPNet} (hl : k.host.link name = some l)
    (hname : name ∈ F.names) (hdel : name ∈ F.deletes) :
  Changes F k { k with host := k.host.drop name l.index }
  := by
  have hlink : ∀ {n}, n ≠ name → (k.host.drop name l.index).link n = k.host.link n := fun hn =>
    (k.host.link_drop name _ l.index).trans (if_neg hn)
  have horigin : ∀ n l', (k.host.drop name l.index).link n = some l' →
      ∃ l, k.host.link n = some l ∧ l.Same l' := by
    intro n l' hl'
    rw [k.host.link_drop] at hl'
    split at hl'
    · cases hl'
    · exact ⟨l', hl', Link.Same.refl l'⟩
  constructor
  · intro n hn
    apply hlink
    rintro rfl
    exact hn hname
  · intro n hn l₀ hl₀
    refine ⟨l₀, (hlink ?_).trans hl₀, Link.Same.refl l₀⟩
    rintro rfl
    exact hn hdel
  · intro n l' hl'
    exact .inl (horigin n l' hl')
  · intro hconsistent n hn b hb lb hlb hmaster
    apply Namespace.master_drop ?_ hmaster
    · intro hindex
      apply hb
      rw [hconsistent.index b name lb l hlb hl hindex]
      exact hdel
    · rintro rfl
      exact hn hname
  · intro hroute
    apply Namespace.route_drop
    rintro r hr rfl
    exact hroute r hr hname
  · intro path _
    rfl
  · intro hconsistent
    exact hconsistent.of_same horigin

/-- A change of the namespace of a pod. -/
theorem of_netns {path : String} (ns : Netns) (hpath : path ∈ F.paths) :
  Changes F k { k with netns := k.netns.insert path ns }
  where
  others _ _ := rfl
  kept _ _ l hl := ⟨l, hl, Link.Same.refl l⟩
  origin _ l hl := .inl ⟨l, hl, Link.Same.refl l⟩
  attached _ _ _ _ _ _ _ hmaster := hmaster
  route _ := rfl
  netns path' hpath' := by
    rw [GoMap.lookup_insert_eq, if_neg]
    rintro rfl
    exact hpath' hpath
  consistent h := h

end Changes

/-- The system is changed within the footprint, and no faults are added. -/
structure Within (F : Footprint) (s s' : System) : Prop where
  changes : Changes F s.system s'.system
  spends : Faulty.Spends s s'

instance (F : Footprint) : IsTrans System (Within F) where
  trans _ _ _ h h' := ⟨h.changes.trans h'.changes, trans_of Faulty.Spends h.spends h'.spends⟩

theorem Within.refl (F : Footprint) (s : System) :
  Within F s s
  := ⟨Changes.refl F s.system, Faulty.Spends.refl s⟩

/-- A larger footprint allows more, and the faults are as before. -/
theorem Within.mono {F G : Footprint} {s s' : System} (h : Within F s s') (hle : F.Le G) :
  Within G s s'
  := ⟨h.changes.mono hle, h.spends⟩

/-- What a command that returns has changed. -/
theorem Within.of_run_ok {F : Footprint} {α : Type} {x : Command α} {s s' : System} {a : α}
    (h : Within F s (final x s)) (hrun : x.run s = .ok a s') :
  Changes F s.system s'.system
  := by
  rw [final_of_ok hrun] at h
  exact h.changes

/-! ### Calls -/

/-- A call in the namespace of the host answers what the operation answers there. -/
theorem perform_host {β : Type} {op : Operation IPNet IP β} {k k' : State} {b : β} :
  State.perform .host op k = .ok (b, k') ↔
    ∃ ns, op k.host = .ok (b, ns) ∧ k' = { k with host := ns }
  := by
  simp only [State.perform, State.get]
  cases hop : op k.host with
  | error e => simp
  | ok r => simp [State.set, Prod.ext_iff, eq_comm]

/-- A call in the namespace of a pod succeeds only if the namespace is there. -/
theorem perform_pod {β : Type} {path : String} {op : Operation IPNet IP β} {k k' : State} {b : β} :
  State.perform (.pod path) op k = .ok (b, k') ↔
    ∃ ns ns', k.netns.lookup path = some ns ∧ op ns = .ok (b, ns') ∧
      k' = { k with netns := k.netns.insert path ns' }
  := by
  simp only [State.perform, State.get]
  cases k.netns.lookup path with
  | none => simp
  | some ns =>
    cases hop : op ns with
    | error e => simp [hop]
    | ok r => simp [hop, State.set, Prod.ext_iff, eq_comm]

variable {F : Footprint} {β : Type}

/-- A call changes what the kernel changes when it does it; one that is refused or meets a fault
changes nothing. -/
theorem within_call {op : State → Except Errno (β × State)} {s : System}
    (h : ∀ b k', op s.system = .ok (b, k') → Changes F s.system k') :
  Within F s (final (Faulty.call op : Command (Except Errno β)) s)
  := by
  refine ⟨?_, (Faulty.along_call_spends op).rel s⟩
  have hanswers := Faulty.answer_answers op s
  change Changes F s.system (Faulty.answer op s).2.system
  generalize Faulty.answer op s = r at hanswers ⊢
  obtain ⟨r, s'⟩ := r
  cases hanswers with
  | done hop => apply h _ _ hop
  | refused _ => apply Changes.refl
  | fault _ => apply Changes.refl

/-- A call stays within a footprint if the operation does whenever it succeeds; one that is refused,
or meets a fault, changes nothing. -/
theorem along_call {op : State → Except Errno (β × State)}
    (h : ∀ k b k', op k = .ok (b, k') → Changes F k k') :
  Along (Within F) (Faulty.call op : Command (Except Errno β))
  := ⟨fun s => within_call (h s.system)⟩

/-- A call that adjusts one link of the host. -/
theorem along_host {op : Operation IPNet IP β} {name : String} (hname : name ∈ F.names)
    (h : ∀ ns b ns', op ns = .ok (b, ns') → Adjusts name ns ns') :
  Along (Within F) (netlink .host op)
  := by
  apply along_call
  intro k b k' hop
  obtain ⟨ns', hns', rfl⟩ := perform_host.mp hop
  apply Changes.of_adjusts (h _ _ _ hns') hname

/-- A call that only reads. -/
theorem along_read {op : Operation IPNet IP β} (h : ∀ ns b ns', op ns = .ok (b, ns') → ns' = ns) :
  Along (Within F) (netlink .host op)
  := by
  apply along_call
  intro k b k' hop
  obtain ⟨ns', hns', rfl⟩ := perform_host.mp hop
  rw [h _ _ _ hns']
  apply Changes.refl

/-- Every call in the namespace of a pod is within a footprint that has its path. -/
theorem along_pod {path : String} (hpath : path ∈ F.paths) (op : Operation IPNet IP β) :
  Along (Within F) (netlink (.pod path) op)
  := by
  apply along_call
  intro k b k' hop
  obtain ⟨ns, ns', -, -, rfl⟩ := perform_pod.mp hop
  apply Changes.of_netns ns' hpath

/-- Looking a link up changes nothing. -/
theorem along_linkByName (cfg : Config) (name : String) :
  Along (Within F) (netlink .host (cfg.netlink.linkByName name))
  := along_read fun _ _ _ h => (Netlink.linkByName_ok h).2.2

/-- Listing addresses changes nothing. -/
theorem along_addrList (name : String) :
  Along (Within F) (netlink .host (addrList name))
  := along_read fun _ _ _ h => (addrList_ok h).2

/-- A link is made only if the footprint has its name and allows its kind. -/
theorem along_linkAdd (cfg : Config) {name : String} {kind : Kind} (dev : Option ℕ) (mtu : ℤ)
    (hname : name ∈ F.names) (hnew : F.new name kind) :
  Along (Within F) (netlink .host (cfg.netlink.linkAdd name kind dev mtu))
  := by
  apply along_call
  intro k b k' hop
  obtain ⟨ns', hns', rfl⟩ := perform_host.mp hop
  obtain ⟨hnone, hunused, i, m, hfresh, -, rfl⟩ := cfg.lawful.linkAdd_ok hns'
  apply Changes.of_add hnone hfresh hunused hname hnew

/-- Deleting a link that is not one end of a pair changes no other link. -/
theorem within_linkDel (cfg : Config) {name : String} {s : System} (hname : name ∈ F.names)
    (hdel : name ∈ F.deletes) (hsingle : ∀ l, s.system.host.link name = some l → l.Single) :
  Within F s (final (netlink .host (cfg.netlink.linkDel name)) s)
  := by
  apply within_call
  intro b k' hop
  obtain ⟨ns', hns', rfl⟩ := perform_host.mp hop
  obtain ⟨l, hl, hdrop⟩ := cfg.lawful.linkDel_ok hns'
  rw [hdrop (hsingle l hl)]
  apply Changes.of_drop hl hname hdel

/-- What is found is the interface of the default route. -/
theorem defaultGateway_ok {cfg : Config} {ns ns' : Netns} {r : String × Link IPNet × Attrs}
    (h : defaultGateway cfg ns = .ok (r, ns')) :
  (∃ g, ns.route = some (r.1, g)) ∧ ns.link r.1 = some r.2.1 ∧
    r.2.2 = cfg.netlink.attrs ns r.1 ∧ ns' = ns
  := by
  rw [defaultGateway] at h
  split at h
  · cases h
  case h_2 name g hroute =>
    split at h
    · cases h
    case h_2 l hl =>
      cases h
      exact ⟨⟨g, hroute⟩, hl, rfl, rfl⟩

/-- Looking the default route up changes nothing. -/
theorem along_defaultGateway (cfg : Config) :
  Along (Within F) (netlink .host (defaultGateway cfg))
  := along_read fun _ _ _ h => (defaultGateway_ok h).2.2.2

/-! ### Combinators -/

theorem along_check (context : String) (r : Except Errno β) :
  Along (Within F) (check context r)
  := by
  cases r with
  | ok b => apply Along.pure (Within.refl F)
  | error e => apply Along.throw (Within.refl F)

/-- Returning the error of a call changes nothing else. -/
theorem within_must {context : String} {scope : Scope} {op : Operation IPNet IP β} {s : System}
    (h : Within F s (final (netlink scope op) s)) :
  Within F s (final (must context scope op) s)
  := rel_bind h fun r s' _ => (along_check context r).rel s'

/-- The same for all states. -/
theorem along_must {context : String} {scope : Scope} {op : Operation IPNet IP β}
    (h : Along (Within F) (netlink scope op)) :
  Along (Within F) (must context scope op)
  := ⟨fun s => within_must (h.rel s)⟩

/-- A context of the error changes nothing else. -/
theorem along_wrap (context : String) {x : Command β} (h : Along (Within F) x) :
  Along (Within F) (wrap context x)
  := Along.tryCatch h fun _ => Along.throw (Within.refl F) _

theorem along_pureOr (r : Except Device.Error β) :
  Along (Within F) (pureOr r)
  := by
  cases r with
  | ok b => apply Along.pure (Within.refl F)
  | error e => apply Along.throw (Within.refl F)

/-- What a computation has changed stays when its error becomes a value. -/
theorem within_attempt {x : Command β} {s : System} (h : Within F s (final x s)) :
  Within F s (final (attempt x) s)
  := by
  apply rel_tryCatch
  · rw [← bind_pure_comp]
    apply rel_bind h
    intro b s' _
    apply Within.refl
  · intro e s' _
    split
    · apply Within.refl
    · apply Within.refl

/-- Keeping an error as a value changes nothing else. -/
theorem along_attempt {x : Command β} (h : Along (Within F) x) :
  Along (Within F) (attempt x)
  := ⟨fun s => within_attempt (h.rel s)⟩

/-! ### Bridges -/

section

variable (cfg : Config) {name : String}

/-- Deleting an address adjusts its link, if it succeeds. -/
theorem along_delAddr (ignored : Errno → Bool) (a : IPNet) (hname : name ∈ F.names) :
  Along (Within F) (delAddr cfg .host name ignored a)
  := by
  apply Along.bind (along_host hname fun _ _ _ => cfg.lawful.addrDel_adjusts)
  intro r
  cases r with
  | ok u => apply Along.pure (Within.refl F)
  | error e =>
    dsimp only
    split
    · apply Along.pure (Within.refl F)
    · apply Along.throw (Within.refl F)

/-- A loop stays within a footprint if every round does. -/
theorem along_forM {α : Type} {f : α → Command Unit} (hf : ∀ a, Along (Within F) (f a))
    (as : List α) :
  Along (Within F) (as.forM f)
  := by
  induction as with
  | nil => apply Along.pure (Within.refl F)
  | cons a as ih =>
    apply Along.bind (hf a)
    intro _
    exact ih

/-- Flushing the addresses adjusts their link. -/
theorem along_flushIPv4Addrs (hname : name ∈ F.names) :
  Along (Within F) (flushIPv4Addrs cfg name)
  := by
  apply Along.bind (along_addrList name)
  intro r
  cases r with
  | error e => apply Along.throw (Within.refl F)
  | ok addrs =>
    apply along_forM
    intro a
    apply along_delAddr cfg isAddrNotFound a hname

/-- A bridge is looked up, or made under its name. -/
theorem along_bridgeByName (hname : name ∈ F.names) (hnew : F.new name .bridge) :
  Along (Within F) (bridgeByName cfg name)
  := by
  apply Along.bind (along_linkByName cfg name)
  intro r
  cases r with
  | ok l =>
    dsimp only
    split
    · apply Along.pure (Within.refl F)
    · apply Along.throw (Within.refl F)
  | error e =>
    dsimp only
    split
    · apply Along.bind (along_must (along_linkAdd cfg none 0 hname hnew))
      intro _
      apply along_must (along_linkByName cfg name)
    · apply Along.throw (Within.refl F)

/-- The bridge that is made or found is then adjusted only. -/
theorem along_ensureBridge (subnet : IPNet) (hname : name ∈ F.names)
    (hnew : F.new name .bridge) :
  Along (Within F) (ensureBridge cfg name subnet)
  := by
  apply Along.bind (along_bridgeByName cfg hname hnew)
  intro l
  apply Along.bind (along_pureOr _)
  intro ipn
  apply Along.bind (along_must (along_host hname fun _ _ _ => cfg.lawful.addrReplace_adjusts))
  intro _
  apply Along.bind (along_must (along_host hname fun _ _ _ => cfg.lawful.linkSetUp_adjusts))
  intro _
  apply Along.pure (Within.refl F)

/-- The name of the bridge is always there. -/
theorem setupBridge_eq (id : String) (subnet : IPNet) :
  setupBridge cfg id subnet = (do
    let r ← wrap "ensure bridge" (ensureBridge cfg (bridgeName cfg.hashes id) subnet)
    return (bridgeName cfg.hashes id, r))
  := by
  rw [setupBridge, generateDeviceName_bridge]
  rfl

/-- Creating the bridge of a tenant touches the link of its name only. -/
theorem along_createBridge (id : String) (subnet : IPNet)
    (hname : bridgeName cfg.hashes id ∈ F.names)
    (hnew : F.new (bridgeName cfg.hashes id) .bridge) :
  Along (Within F) (createBridge cfg id subnet)
  := by
  rw [createBridge, setupBridge_eq]
  apply Along.bind
  · apply Along.bind (along_wrap _ (along_ensureBridge cfg subnet hname hnew))
    intro r
    apply Along.pure (Within.refl F)
  · intro r
    apply Along.pure (Within.refl F)

/-- Moving a bridge to another subnet adjusts it. -/
theorem along_updateBridgeIP (d : Option Bridge) (subnet : IPNet)
    (hname : ∀ br ∈ d, br.name ∈ F.names) :
  Along (Within F) (updateBridgeIP cfg d subnet)
  := by
  cases d with
  | none => apply Along.throw (Within.refl F)
  | some br =>
    have hbr := hname br rfl
    apply Along.bind (along_wrap _ (along_pureOr _))
    intro ipNet
    apply Along.bind (along_must (along_linkByName cfg br.name))
    intro _
    apply Along.bind (along_wrap _ (along_flushIPv4Addrs cfg hbr))
    intro _
    apply Along.bind (along_must (along_host hbr fun _ _ _ => cfg.lawful.addrReplace_adjusts))
    intro _
    apply along_must (along_host hbr fun _ _ _ => cfg.lawful.linkSetUp_adjusts)

/-! ### VTEPs -/

/-- A VXLAN link is looked up, or made under its name. -/
theorem along_ensureVxLan (vni : ℕ) (mac : List UInt8) (dev : ℕ) (mtu : ℤ) (hname : name ∈ F.names)
    (hnew : F.new name (.vxlan vni vxlanPort mac)) :
  Along (Within F) (ensureVxLan cfg name vni mac dev mtu)
  := by
  apply Along.bind (along_linkByName cfg name)
  intro r
  cases r with
  | ok l =>
    dsimp only
    split
    · apply Along.pure (Within.refl F)
    · apply Along.throw (Within.refl F)
  | error e =>
    dsimp only
    split
    · apply Along.bind (along_must (along_linkAdd cfg _ mtu hname hnew))
      intro _
      apply along_must (along_linkByName cfg name)
    · apply Along.throw (Within.refl F)

/-- The interface of the default route is only read. -/
theorem along_newVxlanDevice (vni : ℕ) (mac : List UInt8) (hname : name ∈ F.names)
    (hnew : F.new name (.vxlan vni vxlanPort mac)) :
  Along (Within F) (newVxlanDevice cfg name vni mac)
  := by
  apply Along.bind (along_must (along_defaultGateway cfg))
  intro gateway
  apply Along.bind (along_must (along_addrList gateway.1))
  intro localhosts
  split
  · apply Along.throw (Within.refl F)
  · apply along_ensureVxLan cfg vni mac _ _ hname hnew

/-- The address is added to the link of the name, if at all. -/
theorem along_addFirstAddr (existingAddrs : List IPNet) (a : IPNet) (hname : name ∈ F.names) :
  Along (Within F) (addFirstAddr cfg name existingAddrs a)
  := by
  rw [addFirstAddr]
  split
  · apply along_must
    apply along_host hname fun _ _ _ => cfg.lawful.addrAdd_adjusts
  · apply Along.pure (Within.refl F)

/-- The name of the VTEP is always there. -/
theorem setupVxlan_eq (subnet : IPNet) (id nodeName : String) :
  setupVxlan cfg subnet id nodeName = (do
    let vxlanLink ← wrap "create vxlan device" (newVxlanDevice cfg (vtepName cfg.hashes id)
      (vni cfg.hashes id) (vtepMAC cfg.hashes id nodeName))
    let existingAddrs ← must "get existing addresses" .host (addrList (vtepName cfg.hashes id))
    addFirstAddr cfg (vtepName cfg.hashes id) existingAddrs (vtepAddr subnet)
    must "set vxlan device up" .host (cfg.netlink.linkSetUp (vtepName cfg.hashes id))
    return (vtepName cfg.hashes id, vxlanLink, vtepAddr subnet))
  := by
  rw [setupVxlan, generateDeviceName_vtep]
  rfl

/-- Creating the VTEP of a tenant touches the link of its name only. -/
theorem along_createVTEP (id : String) (subnet : IPNet) (nodeName : String)
    (hname : vtepName cfg.hashes id ∈ F.names)
    (hnew : F.new (vtepName cfg.hashes id)
      (.vxlan (vni cfg.hashes id) vxlanPort (vtepMAC cfg.hashes id nodeName))) :
  Along (Within F) (createVTEP cfg id subnet nodeName)
  := by
  rw [createVTEP, setupVxlan_eq]
  apply Along.bind
  · apply Along.bind (along_wrap _ (along_newVxlanDevice cfg _ _ hname hnew))
    intro vxlanLink
    apply Along.bind (along_must (along_addrList _))
    intro existingAddrs
    apply Along.bind (along_addFirstAddr cfg existingAddrs _ hname)
    intro _
    apply Along.bind (along_must (along_host hname fun _ _ _ => cfg.lawful.linkSetUp_adjusts))
    intro _
    apply Along.pure (Within.refl F)
  · intro r
    dsimp only
    split
    · apply Along.pure (Within.refl F)
    · apply Along.throw (Within.refl F)

/-- Setting the MTU again adjusts the link, or is refused. -/
theorem along_refreshMTU (hname : name ∈ F.names) :
  Along (Within F) (refreshMTU cfg name)
  := by
  apply Along.bind (along_defaultGateway cfg)
  intro r
  cases r with
  | ok gw =>
    change Along _ ((fun _ => ()) <$>
      netlink .host (cfg.netlink.linkSetMTU name (gw.2.2.mtu - encapOverhead)))
    rw [← bind_pure_comp]
    apply Along.bind (along_host hname fun _ _ _ => cfg.lawful.linkSetMTU_adjusts)
    intro _
    apply Along.pure (Within.refl F)
  | error e => apply Along.pure (Within.refl F)

/-- Adding the address of another subnet adjusts the VTEP. -/
theorem along_updateIP (dv : Option VTEP) (subnet : IPNet) (hname : ∀ vt ∈ dv, vt.name ∈ F.names) :
  Along (Within F) (updateIP cfg dv subnet)
  := by
  cases dv with
  | none => apply Along.throw (Within.refl F)
  | some vt =>
    have hvt := hname vt rfl
    apply Along.bind (along_must (along_linkByName cfg vt.name))
    intro l
    split
    · apply Along.bind (along_refreshMTU cfg hvt)
      intro _
      apply Along.bind (along_must (along_host hvt fun _ _ _ => cfg.lawful.addrReplace_adjusts))
      intro _
      apply Along.bind (along_must (along_host hvt fun _ _ _ => cfg.lawful.linkSetUp_adjusts))
      intro _
      apply Along.pure (Within.refl F)
    · apply Along.throw (Within.refl F)

/-! ### Interfaces of pods -/

/-- Ignoring the answer that something exists changes nothing else. -/
theorem along_mustUnlessExists (context : String) {scope : Scope} {op : Operation IPNet IP Unit}
    (h : Along (Within F) (netlink scope op)) :
  Along (Within F) (mustUnlessExists context scope op)
  := by
  apply Along.bind h
  intro r
  cases r with
  | ok u => apply Along.pure (Within.refl F)
  | error e =>
    dsimp only
    split
    · apply Along.pure (Within.refl F)
    · apply Along.throw (Within.refl F)

/-- A pair is within the footprint if its end on the host is. -/
theorem Paired.changes {path ifName hostIface : String} {mtu : ℤ} {up : Bool} {k k' : State}
    (h : Paired path ifName hostIface mtu up k k') (hpath : path ∈ F.paths)
    (hname : hostIface ∈ F.names) (hnew : F.new hostIface (.veth path ifName)) :
  Changes F k k'
  := by
  obtain ⟨ns, i, j, up', -, -, hnone, -, hfresh, rfl⟩ := h
  have hadd := Changes.of_add (l := ⟨j, .veth path ifName, mtu, up, []⟩) hnone hfresh
    (by rintro _ ⟨⟩) hname hnew
  apply hadd.trans (Changes.of_netns _ hpath)

/-- What a request for a pair leaves: the kernel as it was, or the pair. -/
theorem setupVeth_leaves {fault : Option Errno} {suffixes : List String} {path ifName : String}
    {mtu : ℤ} {k k' : State} {r : Except Errno String}
    (h : cfg.pairs.setupVeth fault suffixes path ifName mtu k = (r, k')) :
  k' = k ∨ ∃ suffix up, Paired path ifName (vethPrefix ++ suffix) mtu up k k'
  := by
  cases r with
  | ok hostIface =>
    obtain ⟨⟨suffix, -, rfl⟩, hpaired⟩ := cfg.pairs.setupVeth_ok h
    exact .inr ⟨suffix, true, hpaired⟩
  | error e =>
    obtain heq | ⟨-, suffix, -, up, hpaired⟩ := cfg.pairs.setupVeth_error h
    · exact .inl heq
    · exact .inr ⟨suffix, up, hpaired⟩

/-- A pair is made under a name that is free, also if a fault leaves it behind. -/
theorem within_makePair {path : String} {free : Set String} {s : System} (mtu : ℤ) (ifName : String)
    (suffixes : List String) (hfree : ∀ n, s.system.host.link n = none → n ∈ free) :
  Within (vethFootprint path free) s (final (makePair cfg path mtu ifName suffixes) s)
  := by
  apply rel_bind
  · refine ⟨?_, (Faulty.along_request_spends _).rel s⟩
    change Changes _ _ (cfg.pairs.setupVeth s.faults.head?.join suffixes path ifName mtu s.system).2
    obtain heq | ⟨suffix, up, hpaired⟩ := setupVeth_leaves cfg (Prod.eta
      (cfg.pairs.setupVeth s.faults.head?.join suffixes path ifName mtu s.system)).symm
    · rw [heq]
      apply Changes.refl
    · have hnone : s.system.host.link (vethPrefix ++ suffix) = none := by
        obtain ⟨-, -, -, -, -, -, hnone, -⟩ := hpaired
        exact hnone
      exact hpaired.changes rfl ⟨hfree _ hnone, suffix, rfl⟩ ⟨⟨suffix, rfl⟩, ifName, rfl⟩
  · intro r s' _
    apply (along_check _ r).rel

/-- Looking for an address of a pod stays within its namespace. -/
theorem along_needsAddr {path : String} (ifName : String) (podIPNet : IPNet)
    (hpath : path ∈ F.paths) :
  Along (Within F) (needsAddr path ifName podIPNet)
  := by
  apply Along.bind (along_pod hpath _)
  intro r
  cases r with
  | ok addrs => apply Along.pure (Within.refl F)
  | error e => apply Along.pure (Within.refl F)

/-- The address is added in the namespace of the pod. -/
theorem along_addMissingAddr {path : String} (ifName : String) (podIPNet : IPNet) (needed : Bool)
    (hpath : path ∈ F.paths) :
  Along (Within F) (addMissingAddr cfg path ifName podIPNet needed)
  := by
  rw [addMissingAddr]
  split
  · apply along_mustUnlessExists _ (along_pod hpath _)
  · apply Along.pure (Within.refl F)

/-- The end of the pair in the pod is set up within its namespace. -/
theorem along_configureContainer {path : String} (mtu : ℤ) (ifName : String) (podIPNet : IPNet)
    (gateway : IP) (hpath : path ∈ F.paths) :
  Along (Within F) (configureContainer cfg path mtu ifName podIPNet gateway)
  := by
  apply Along.bind (along_must (along_pod hpath _))
  intro _
  apply Along.bind (along_needsAddr ifName podIPNet hpath)
  intro needed
  apply Along.bind (along_addMissingAddr cfg ifName podIPNet needed hpath)
  intro _
  apply Along.bind (along_must (along_pod hpath _))
  intro _
  apply Along.bind (along_must (along_pod hpath _))
  intro _
  apply along_mustUnlessExists _ (along_pod hpath _)

/-- Attaching the other end to a bridge adjusts that end. -/
theorem along_attachHost {hostIface : String} (mtu : ℤ) (bridge : ℕ) (hname : hostIface ∈ F.names) :
  Along (Within F) (attachHost cfg hostIface mtu bridge)
  := by
  apply Along.bind (along_must (along_linkByName cfg hostIface))
  intro _
  apply Along.bind (along_must (along_host hname fun _ _ _ => cfg.lawful.linkSetMTU_adjusts))
  intro _
  apply Along.bind (along_must (along_host hname fun _ _ _ => cfg.lawful.linkSetMaster_adjusts))
  intro _
  apply along_must (along_host hname fun _ _ _ => cfg.lawful.linkSetUp_adjusts)

end

end Kernel

end Device
