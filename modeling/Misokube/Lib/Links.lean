import Misokube.Lib.Map

/-!
# Interfaces of a network namespace

The links of a namespace with their addresses, the bridges they are attached to, and the default
route.  A kernel is given by its netlink operations (`Netlink`); what is assumed of them are laws
(`Netlink.Lawful`), of what an operation has changed when it succeeds, and of when it succeeds.  A
link is known by its name and has an index that no other link of the namespace has, by which the
links attached to it refer to it.  What a bridge reports as its hardware address and MTU follows the
links that are attached to it; no law says what these are.
-/

namespace Links

/-- What kind of link it is: of a VXLAN tunnel with the default flags, the identifier, port and
hardware address it was made with, and of one end of a pair, the namespace and the name of the other
end. -/
inductive Kind where
  | bridge
  | vxlan (id port : ℕ) (mac : List UInt8)
  | veth (netns peer : String)
  | other
deriving DecidableEq

/-- The identifier and the port of a tunnel. -/
def Kind.tunnel : Kind → Option (ℕ × ℕ)
  | .vxlan id port _ => some (id, port)
  | _ => none

/-- A link with addresses of type `α`; `mtu` is the MTU that was set for it. -/
structure Link (α : Type) where
  index : ℕ
  kind : Kind
  mtu : ℤ
  up : Bool := false
  addrs : List α := []
deriving DecidableEq

/-- The links, the index of the bridge that a link is attached to, and the device and the gateway of
the default route, of which there is at most one. -/
structure Namespace (α γ : Type) where
  links : GoMap String (Link α)
  master : String → Option ℕ
  route : Option (String × γ)

/-- What a link reports of itself: its hardware address and its MTU. -/
structure Attrs where
  mac : List UInt8
  mtu : ℤ

/-- What the kernel answers to an operation it refuses. -/
inductive Errno where
  | linkNotFound
  | noSuchDevice
  | fileExists
  | addrNotAvailable
  | unreachable
  | noSuchProcess
  | other (text : String)
deriving DecidableEq

/-- The text of the answer. -/
def Errno.message : Errno → String
  | .linkNotFound => "Link not found"
  | .noSuchDevice => "no such device"
  | .fileExists => "file exists"
  | .addrNotAvailable => "cannot assign requested address"
  | .unreachable => "network is unreachable"
  | .noSuchProcess => "no such process"
  | .other text => text

variable {α γ : Type}

/-- The link is not one end of a pair. -/
def Link.Single (l : Link α) : Prop :=
  ∀ netns peer, l.kind ≠ .veth netns peer

namespace Namespace

/-- The link of a name. -/
def link (ns : Namespace α γ) (name : String) : Option (Link α) :=
  ns.links.lookup name

/-- Stores a link. -/
def put (ns : Namespace α γ) (name : String) (l : Link α) : Namespace α γ :=
  { ns with links := ns.links.insert name l }

/-- Stores a link that is new, and attached to no bridge. -/
def add (ns : Namespace α γ) (name : String) (l : Link α) : Namespace α γ :=
  { ns.put name l with master := Function.update ns.master name none }

/-- Attaches a link to the bridge of the index. -/
def attach (ns : Namespace α γ) (name : String) (index : ℕ) : Namespace α γ :=
  { ns with master := Function.update ns.master name (some index) }

/-- Drops the link of the index.  What was attached to it no longer is, and a route through it is
gone. -/
def drop (ns : Namespace α γ) (name : String) (index : ℕ) : Namespace α γ where
  links := ns.links.erase name
  master n := if n = name then none else (ns.master n).filter (· ≠ index)
  route := ns.route.filter fun r => r.1 ≠ name

/-- No link has the index. -/
def Fresh (ns : Namespace α γ) (index : ℕ) : Prop :=
  ∀ n l, ns.link n = some l → l.index ≠ index

/-- No link is a tunnel with the identifier and port of the kind, if it is one. -/
def Unused (ns : Namespace α γ) (kind : Kind) : Prop :=
  ∀ t ∈ kind.tunnel, ∀ n l, ns.link n = some l → l.kind.tunnel ≠ some t

end Namespace

/-! ### Operations -/

/-- An operation on a namespace, which answers or is refused. -/
abbrev Operation (α γ β : Type) := Namespace α γ → Except Errno (β × Namespace α γ)

/-- The addresses of a link. -/
def addrList (name : String) : Operation α γ (List α) := fun ns =>
  match ns.link name with
  | none => .error .noSuchDevice
  | some l => .ok (l.addrs, ns)

/-- The gateways of the default routes through a link. -/
def routeList (name : String) : Operation α γ (List γ) := fun ns =>
  match ns.link name with
  | none => .error .noSuchDevice
  | some _ => .ok ((ns.route.filter fun r => r.1 = name).toList.map Prod.snd, ns)

/-- The operations of a kernel that change a namespace, what it reports of a link, and what it
accepts as the name, kind and MTU of a new link and as an address.  A new link may lie on the device
of an index; an MTU that is not positive stands for none. -/
structure Netlink (α γ : Type) where
  attrs : Namespace α γ → String → Attrs
  acceptsLink : String → Kind → ℤ → Prop
  acceptsAddr : α → Prop
  linkAdd : String → Kind → Option ℕ → ℤ → Operation α γ Unit
  linkDel : String → Operation α γ Unit
  linkSetUp : String → Operation α γ Unit
  linkSetMTU : String → ℤ → Operation α γ Unit
  linkSetMaster : String → ℕ → Operation α γ Unit
  addrReplace : String → α → Operation α γ Unit
  addrAdd : String → α → Operation α γ Unit
  addrDel : String → α → Operation α γ Unit
  routeReplace : String → γ → Operation α γ Unit
  routeAdd : String → γ → Operation α γ Unit
  routeDel : String → γ → Operation α γ Unit

namespace Netlink

/-- The link of a name, with what it reports. -/
def linkByName (nl : Netlink α γ) (name : String) : Operation α γ (Link α × Attrs) := fun ns =>
  match ns.link name with
  | none => .error .linkNotFound
  | some l => .ok ((l, nl.attrs ns name), ns)

/-- What a tunnel takes of the MTU of the device it lies on. -/
def headroom : ℤ := 50

/-- The device has room for a tunnel of the MTU. -/
def Carries (nl : Netlink α γ) (ns : Namespace α γ) (dev : Option ℕ) (mtu : ℤ) : Prop :=
  ∀ i ∈ dev, ∃ n l, ns.link n = some l ∧ l.index = i ∧ mtu + headroom ≤ (nl.attrs ns n).mtu

end Netlink

/-- The second list has the addresses of the first one and one more, at a place that is left
open. -/
def Gains (a : α) (addrs addrs' : List α) : Prop :=
  (∀ b, b ∈ addrs' ↔ b ∈ addrs ∨ b = a) ∧ (addrs = [] → addrs' = [a])

/-- The second list has addresses of the first one, but not the one that is lost; others may be lost
with it. -/
def Loses (a : α) (addrs addrs' : List α) : Prop :=
  addrs' ⊆ addrs ∧ a ∉ addrs'

/-- The gateway can be reached through the link: it is up and has an address in whose subnet the
gateway is a host, and the gateway is no address of the namespace itself. -/
def Namespace.Reaches (hosts isAt : α → γ → Prop) (ns : Namespace α γ) (name : String)
    (gateway : γ) : Prop :=
  (∃ l, ns.link name = some l ∧ l.up = true ∧ ∃ a ∈ l.addrs, hosts a gateway) ∧
    ∀ n l, ns.link n = some l → ∀ a ∈ l.addrs, ¬ isAt a gateway

/-! ### Laws -/

/-- What is assumed of a kernel.  A law `op_ok` says what an operation has changed when it succeeds,
and a law `op_of_…` when it succeeds; calls that are refused change nothing.  `hosts a g` says that
`g` is a host in the subnet of the address `a`, and `isAt a g` that it is the address itself. -/
structure Netlink.Lawful (nl : Netlink α γ) (hosts isAt : α → γ → Prop) : Prop where
  /-- A tunnel reports the hardware address it was made with. -/
  attrs_vxlan : ∀ {ns name l id port mac}, ns.link name = some l → l.kind = .vxlan id port mac →
    (nl.attrs ns name).mac = mac
  /-- A link that is no bridge reports the MTU that was set for it. -/
  attrs_mtu : ∀ {ns name l}, ns.link name = some l → l.kind ≠ .bridge →
    (nl.attrs ns name).mtu = l.mtu
  /-- A new link has a name that was free and an index of its own, and is down.  A tunnel with an
  identifier and port that are in use is refused.  The MTU is the one that is asked for, if the
  device below has room for it. -/
  linkAdd_ok : ∀ {name kind dev mtu ns u ns'}, nl.linkAdd name kind dev mtu ns = .ok (u, ns') →
    ns.link name = none ∧ ns.Unused kind ∧ ∃ i m, ns.Fresh i ∧
      (0 < mtu → nl.Carries ns dev mtu → m = mtu) ∧ ns' = ns.add name ⟨i, kind, m, false, []⟩
  linkAdd_of_unused : ∀ {name kind dev mtu ns}, ns.link name = none → ns.Unused kind →
    nl.acceptsLink name kind mtu → nl.Carries ns dev mtu →
    ∃ ns', nl.linkAdd name kind dev mtu ns = .ok ((), ns')
  /-- What is attached to a bridge that is deleted is attached to nothing afterwards.  No tunnel is
  assumed to lie on the link.  (Of a pair, the other end would go as well, which may be in another
  namespace.) -/
  linkDel_ok : ∀ {name ns u ns'}, nl.linkDel name ns = .ok (u, ns') →
    ∃ l, ns.link name = some l ∧ (l.Single → ns' = ns.drop name l.index)
  linkDel_of_bridge : ∀ {name ns l}, ns.link name = some l → l.kind = .bridge →
    ∃ ns', nl.linkDel name ns = .ok ((), ns')
  linkDel_of_vxlan : ∀ {name ns l id port mac}, ns.link name = some l →
    l.kind = .vxlan id port mac → ∃ ns', nl.linkDel name ns = .ok ((), ns')
  linkSetUp_ok : ∀ {name ns u ns'}, nl.linkSetUp name ns = .ok (u, ns') →
    ∃ l, ns.link name = some l ∧ ns' = ns.put name { l with up := true }
  /-- A link that is there can be set up; the port of a tunnel is taken to be free for it. -/
  linkSetUp_of_link : ∀ {name ns l}, ns.link name = some l →
    ∃ ns', nl.linkSetUp name ns = .ok ((), ns')
  linkSetMTU_ok : ∀ {name mtu ns u ns'}, nl.linkSetMTU name mtu ns = .ok (u, ns') →
    ∃ l, ns.link name = some l ∧ ns' = ns.put name { l with mtu := mtu }
  /-- One end of a pair takes every MTU that IPv4 and an Ethernet frame allow. -/
  linkSetMTU_of_veth : ∀ {name mtu ns l netns peer}, ns.link name = some l →
    l.kind = .veth netns peer → 68 ≤ mtu → mtu ≤ 65535 →
    ∃ ns', nl.linkSetMTU name mtu ns = .ok ((), ns')
  /-- Attaching a link changes nothing else that is set.  The bridge may report another hardware
  address and another MTU afterwards. -/
  linkSetMaster_ok : ∀ {name index ns u ns'}, nl.linkSetMaster name index ns = .ok (u, ns') →
    (∃ l, ns.link name = some l) ∧ ns' = ns.attach name index
  addrReplace_ok : ∀ {name a ns u ns'}, nl.addrReplace name a ns = .ok (u, ns') →
    ∃ l addrs, ns.link name = some l ∧ Gains a l.addrs addrs ∧
      ns' = ns.put name { l with addrs := addrs }
  addrReplace_of_link : ∀ {name a ns l}, ns.link name = some l → nl.acceptsAddr a →
    ∃ ns', nl.addrReplace name a ns = .ok ((), ns')
  addrAdd_ok : ∀ {name a ns u ns'}, nl.addrAdd name a ns = .ok (u, ns') →
    ∃ l addrs, ns.link name = some l ∧ Gains a l.addrs addrs ∧
      ns' = ns.put name { l with addrs := addrs }
  addrAdd_of_nil : ∀ {name a ns l}, ns.link name = some l → l.addrs = [] → nl.acceptsAddr a →
    ∃ ns', nl.addrAdd name a ns = .ok ((), ns')
  /-- An address is said to exist only if the link has it. -/
  addrAdd_exists : ∀ {name a ns l}, ns.link name = some l →
    nl.addrAdd name a ns = .error .fileExists → a ∈ l.addrs
  /-- Addresses that are secondary to the one that is deleted may go with it, and with the last one
  a route through the link. -/
  addrDel_ok : ∀ {name a ns u ns'}, nl.addrDel name a ns = .ok (u, ns') →
    ∃ l addrs route, ns.link name = some l ∧ Loses a l.addrs addrs ∧
      (route = ns.route ∨ route = none ∧ ∃ g, ns.route = some (name, g)) ∧
      ns' = { ns.put name { l with addrs := addrs } with route := route }
  addrDel_of_mem : ∀ {name a ns l}, ns.link name = some l → a ∈ l.addrs →
    ∃ ns', nl.addrDel name a ns = .ok ((), ns')
  addrDel_of_notMem : ∀ {name a ns l}, ns.link name = some l → a ∉ l.addrs →
    nl.addrDel name a ns = .error .addrNotAvailable
  routeReplace_ok : ∀ {name g ns u ns'}, nl.routeReplace name g ns = .ok (u, ns') →
    ns' = { ns with route := some (name, g) }
  routeReplace_of_reaches : ∀ {name g ns}, ns.Reaches hosts isAt name g →
    ∃ ns', nl.routeReplace name g ns = .ok ((), ns')
  routeAdd_ok : ∀ {name g ns u ns'}, nl.routeAdd name g ns = .ok (u, ns') →
    ns' = { ns with route := some (name, g) }
  /-- A route is said to exist only if there is one. -/
  routeAdd_exists : ∀ {name g ns}, nl.routeAdd name g ns = .error .fileExists → ns.route.isSome
  routeDel_of_route : ∀ {name g ns}, ns.route = some (name, g) →
    nl.routeDel name g ns = .ok ((), { ns with route := none })

/-! ### Links that are stored -/

namespace Namespace

/-- After a link is stored, its name has it and the other names have what they had. -/
theorem link_put (ns : Namespace α γ) (name n : String) (l : Link α) :
  (ns.put name l).link n = if n = name then some l else ns.link n
  := GoMap.lookup_insert_eq ns.links name n l

@[simp]
theorem link_put_self (ns : Namespace α γ) (name : String) (l : Link α) :
  (ns.put name l).link name = some l
  := by
  rw [link_put, if_pos rfl]

theorem link_put_ne (ns : Namespace α γ) {name n : String} (l : Link α) (h : n ≠ name) :
  (ns.put name l).link n = ns.link n
  := by
  rw [link_put, if_neg h]

@[simp]
theorem link_add_self (ns : Namespace α γ) (name : String) (l : Link α) :
  (ns.add name l).link name = some l
  := ns.link_put_self name l

theorem link_add_ne (ns : Namespace α γ) {name n : String} (l : Link α) (h : n ≠ name) :
  (ns.add name l).link n = ns.link n
  := ns.link_put_ne l h

/-- After a link is dropped its name is free, and the other names have what they had. -/
theorem link_drop (ns : Namespace α γ) (name n : String) (index : ℕ) :
  (ns.drop name index).link n = if n = name then none else ns.link n
  := GoMap.lookup_erase_eq ns.links name n

/-- A route through another link is kept. -/
theorem route_drop {ns : Namespace α γ} {name : String} (h : ∀ r ∈ ns.route, r.1 ≠ name)
    (index : ℕ) :
  (ns.drop name index).route = ns.route
  := by
  cases hroute : ns.route with
  | none => simp [drop, hroute]
  | some r => simp [drop, hroute, Option.filter, h r hroute]

/-- A link that is attached elsewhere stays attached. -/
theorem master_drop {ns : Namespace α γ} {name n : String} {index i : ℕ} (hn : n ≠ name)
    (hmaster : ns.master n = some i) (hi : i ≠ index) :
  (ns.drop name index).master n = some i
  := by
  simp [drop, hn, hmaster, hi]

end Namespace

/-! ### What the operations change -/

/-- The links are one, with other addresses, MTU or state. -/
structure Link.Same (l l' : Link α) : Prop where
  index : l'.index = l.index
  kind : l'.kind = l.kind

theorem Link.Same.refl (l : Link α) :
  l.Same l
  := ⟨rfl, rfl⟩

theorem Link.Same.trans {l l' l'' : Link α} (h : l.Same l') (h' : l'.Same l'') :
  l.Same l''
  := ⟨h'.index.trans h.index, h'.kind.trans h.kind⟩

/-- The namespaces differ at most in the addresses, MTU, state and bridge of one link, and in a
route through it. -/
structure Adjusts (name : String) (ns ns' : Namespace α γ) : Prop where
  others : ∀ n, n ≠ name → ns'.link n = ns.link n
  kept : ∀ l, ns.link name = some l → ∃ l', ns'.link name = some l' ∧ l.Same l'
  origin : ∀ l', ns'.link name = some l' → ∃ l, ns.link name = some l ∧ l.Same l'
  master : ∀ n, n ≠ name → ns'.master n = ns.master n
  route : (∀ r ∈ ns.route, r.1 ≠ name) → ns'.route = ns.route

theorem Adjusts.refl (name : String) (ns : Namespace α γ) :
  Adjusts name ns ns
  where
  others _ _ := rfl
  kept l hl := ⟨l, hl, Link.Same.refl l⟩
  origin l hl := ⟨l, hl, Link.Same.refl l⟩
  master _ _ := rfl
  route _ := rfl

/-- Adjustments of one link, one after the other, adjust it. -/
theorem Adjusts.trans {name : String} {ns ns' ns'' : Namespace α γ} (h : Adjusts name ns ns')
    (h' : Adjusts name ns' ns'') :
  Adjusts name ns ns''
  := by
  constructor
  · intro n hn
    rw [h'.others n hn, h.others n hn]
  · intro l hl
    obtain ⟨l', hl', hsame⟩ := h.kept l hl
    obtain ⟨l'', hl'', hsame'⟩ := h'.kept l' hl'
    exact ⟨l'', hl'', hsame.trans hsame'⟩
  · intro l'' hl''
    obtain ⟨l', hl', hsame'⟩ := h'.origin l'' hl''
    obtain ⟨l, hl, hsame⟩ := h.origin l' hl'
    exact ⟨l, hl, hsame.trans hsame'⟩
  · intro n hn
    rw [h'.master n hn, h.master n hn]
  · intro hroute
    have heq := h.route hroute
    rw [← heq] at hroute ⊢
    apply h'.route hroute

/-- Storing the same link with other properties adjusts it. -/
theorem Adjusts.put {name : String} {ns : Namespace α γ} {l : Link α}
    (hl : ns.link name = some l) (l' : Link α) (hsame : l.Same l') :
  Adjusts name ns (ns.put name l')
  := by
  constructor
  · intro n hn
    apply ns.link_put_ne l' hn
  · intro l₀ hl₀
    cases hl.symm.trans hl₀
    exact ⟨l', ns.link_put_self name l', hsame⟩
  · intro l₀ hl₀
    rw [ns.link_put_self, Option.some.injEq] at hl₀
    exact ⟨l, hl, hl₀ ▸ hsame⟩
  · intro _ _
    rfl
  · intro _
    rfl

/-- Every link of the namespace after an adjustment is one that was there. -/
theorem Adjusts.same {name : String} {ns ns' : Namespace α γ} (h : Adjusts name ns ns')
    {n : String} {l' : Link α} (hl' : ns'.link n = some l') :
  ∃ l, ns.link n = some l ∧ l.Same l'
  := by
  by_cases hn : n = name
  · subst hn
    exact h.origin l' hl'
  · exact ⟨l', (h.others n hn).symm.trans hl', Link.Same.refl l'⟩

/-! ### Consistent namespaces -/

/-- No two links have one index, and no two tunnels have one identifier and port. -/
structure Namespace.Consistent (ns : Namespace α γ) : Prop where
  index : ∀ n n' l l', ns.link n = some l → ns.link n' = some l' → l.index = l'.index → n = n'
  tunnel : ∀ n n' l l' t, ns.link n = some l → ns.link n' = some l' → l.kind.tunnel = some t →
    l'.kind.tunnel = some t → n = n'

/-- A namespace whose links are among those of a consistent one, up to what is adjusted. -/
theorem Namespace.Consistent.of_same {ns ns' : Namespace α γ} (hns : ns.Consistent)
    (hlink : ∀ n l', ns'.link n = some l' → ∃ l, ns.link n = some l ∧ l.Same l') :
  ns'.Consistent
  := by
  constructor
  · intro n₁ n₂ l₁' l₂' hl₁' hl₂' hindex
    obtain ⟨l₁, hl₁, hsame₁⟩ := hlink n₁ l₁' hl₁'
    obtain ⟨l₂, hl₂, hsame₂⟩ := hlink n₂ l₂' hl₂'
    rw [hsame₁.index, hsame₂.index] at hindex
    exact hns.index n₁ n₂ l₁ l₂ hl₁ hl₂ hindex
  · intro n₁ n₂ l₁' l₂' t hl₁' hl₂' ht₁ ht₂
    obtain ⟨l₁, hl₁, hsame₁⟩ := hlink n₁ l₁' hl₁'
    obtain ⟨l₂, hl₂, hsame₂⟩ := hlink n₂ l₂' hl₂'
    rw [hsame₁.kind] at ht₁
    rw [hsame₂.kind] at ht₂
    exact hns.tunnel n₁ n₂ l₁ l₂ t hl₁ hl₂ ht₁ ht₂

/-- A new link with an index of its own that is no tunnel in use. -/
theorem Namespace.Consistent.add {ns : Namespace α γ} (hns : ns.Consistent) {name : String}
    {l : Link α} (hfresh : ns.Fresh l.index) (hunused : ns.Unused l.kind) :
  (ns.add name l).Consistent
  := by
  have hlink : ∀ {n l'}, (ns.add name l).link n = some l' →
      n = name ∧ l' = l ∨ ns.link n = some l' := by
    intro n l' hl'
    replace hl' := (ns.link_put name n l).symm.trans hl'
    split at hl'
    case isTrue hn => exact .inl ⟨hn, (Option.some.inj hl').symm⟩
    case isFalse => exact .inr hl'
  constructor
  · intro n₁ n₂ l₁ l₂ hl₁ hl₂ hindex
    obtain ⟨rfl, rfl⟩ | hold₁ := hlink hl₁
    · obtain ⟨rfl, -⟩ | hold₂ := hlink hl₂
      · rfl
      · exact absurd hindex.symm (hfresh n₂ l₂ hold₂)
    · obtain ⟨rfl, rfl⟩ | hold₂ := hlink hl₂
      · exact absurd hindex (hfresh n₁ l₁ hold₁)
      · exact hns.index n₁ n₂ l₁ l₂ hold₁ hold₂ hindex
  · intro n₁ n₂ l₁ l₂ t hl₁ hl₂ ht₁ ht₂
    obtain ⟨rfl, rfl⟩ | hold₁ := hlink hl₁
    · obtain ⟨rfl, -⟩ | hold₂ := hlink hl₂
      · rfl
      · exact absurd ht₂ (hunused t ht₁ n₂ l₂ hold₂)
    · obtain ⟨rfl, rfl⟩ | hold₂ := hlink hl₂
      · exact absurd ht₁ (hunused t ht₂ n₁ l₁ hold₁)
      · exact hns.tunnel n₁ n₂ l₁ l₂ t hold₁ hold₂ ht₁ ht₂

/-! ### Operations that succeed -/

section

variable {name : String} {ns ns' : Namespace α γ} {u : Unit}

/-- The addresses are those of the link, and nothing changes. -/
theorem addrList_ok {addrs : List α} (h : addrList name ns = .ok (addrs, ns')) :
  (∃ l, ns.link name = some l ∧ l.addrs = addrs) ∧ ns' = ns
  := by
  rw [addrList] at h
  split at h
  · cases h
  case h_2 l hl =>
    cases h
    exact ⟨⟨l, hl, rfl⟩, rfl⟩

theorem addrList_of_link {l : Link α} (hl : ns.link name = some l) :
  addrList name ns = .ok (l.addrs, ns)
  := by
  rw [addrList, hl]

namespace Netlink

variable {nl : Netlink α γ}

/-- The link of the name is found, with what it reports, and nothing changes. -/
theorem linkByName_ok {r : Link α × Attrs} (h : nl.linkByName name ns = .ok (r, ns')) :
  ns.link name = some r.1 ∧ r.2 = nl.attrs ns name ∧ ns' = ns
  := by
  rw [linkByName] at h
  split at h
  · cases h
  case h_2 l' hl =>
    cases h
    exact ⟨hl, rfl, rfl⟩

/-- A link that is there is found. -/
theorem linkByName_of_link {l : Link α} (hl : ns.link name = some l) :
  nl.linkByName name ns = .ok ((l, nl.attrs ns name), ns)
  := by
  rw [linkByName, hl]

/-- A link that is not there is not found, and the answer says so. -/
theorem linkByName_of_none (hnone : ns.link name = none) :
  nl.linkByName name ns = .error .linkNotFound
  := by
  rw [linkByName, hnone]

namespace Lawful

variable {hosts isAt : α → γ → Prop} (laws : nl.Lawful hosts isAt)
include laws

/-- Setting a link up adjusts it. -/
theorem linkSetUp_adjusts (h : nl.linkSetUp name ns = .ok (u, ns')) :
  Adjusts name ns ns'
  := by
  obtain ⟨l, hl, rfl⟩ := laws.linkSetUp_ok h
  exact Adjusts.put hl _ ⟨rfl, rfl⟩

/-- Setting the MTU of a link adjusts it. -/
theorem linkSetMTU_adjusts {mtu : ℤ} (h : nl.linkSetMTU name mtu ns = .ok (u, ns')) :
  Adjusts name ns ns'
  := by
  obtain ⟨l, hl, rfl⟩ := laws.linkSetMTU_ok h
  exact Adjusts.put hl _ ⟨rfl, rfl⟩

/-- Replacing an address adjusts its link. -/
theorem addrReplace_adjusts {a : α} (h : nl.addrReplace name a ns = .ok (u, ns')) :
  Adjusts name ns ns'
  := by
  obtain ⟨l, addrs, hl, -, rfl⟩ := laws.addrReplace_ok h
  exact Adjusts.put hl _ ⟨rfl, rfl⟩

/-- Adding an address adjusts its link. -/
theorem addrAdd_adjusts {a : α} (h : nl.addrAdd name a ns = .ok (u, ns')) :
  Adjusts name ns ns'
  := by
  obtain ⟨l, addrs, hl, -, rfl⟩ := laws.addrAdd_ok h
  exact Adjusts.put hl _ ⟨rfl, rfl⟩

/-- Attaching a link leaves the links and the bridges of other links. -/
theorem linkSetMaster_adjusts {index : ℕ} (h : nl.linkSetMaster name index ns = .ok (u, ns')) :
  Adjusts name ns ns'
  := by
  obtain ⟨-, rfl⟩ := laws.linkSetMaster_ok h
  refine ⟨fun _ _ => rfl, fun l hl => ⟨l, hl, Link.Same.refl l⟩,
    fun l hl => ⟨l, hl, Link.Same.refl l⟩, ?_, fun _ => rfl⟩
  intro n hn
  exact Function.update_of_ne hn _ _

/-- Deleting an address may drop a route through its link, and no other. -/
theorem addrDel_adjusts {a : α} (h : nl.addrDel name a ns = .ok (u, ns')) :
  Adjusts name ns ns'
  := by
  obtain ⟨l, addrs, route, hl, -, hroute, rfl⟩ := laws.addrDel_ok h
  have hadjusts := Adjusts.put hl { l with addrs := addrs } ⟨rfl, rfl⟩
  refine ⟨hadjusts.others, hadjusts.kept, hadjusts.origin, hadjusts.master, ?_⟩
  intro hothers
  obtain heq | ⟨-, g, hg⟩ := hroute
  · exact heq
  · exact absurd rfl (hothers (name, g) hg)

end Lawful

end Netlink

end

end Links
