import Misokube.Lib.Links

/-!
# A kernel that keeps the laws

The netlink operations on a namespace as Linux does them, as far as they are used.  A bridge reports
the lowest hardware address and the lowest MTU of the links attached to it.  A tunnel with an
identifier and port that are in use is refused, and one has at most the MTU that the device below it
leaves.
Addresses are kept in the order they were added in; one is secondary if it is in the subnet of an
earlier one, and goes with it unless it is promoted.  The operations keep the laws
(`Linux.lawful`).
-/

namespace Links

/-- The addresses of a kernel, the hardware addresses it gives to links by index, and whether it
promotes secondary addresses. -/
structure Linux (α γ : Type) where
  sameSubnet : α → α → Bool
  hosts : α → γ → Bool
  isAt : α → γ → Bool
  macOf : ℕ → List UInt8
  promote : Bool

namespace Linux

variable {α γ : Type}

/-! ### What links report -/

/-- The links that are attached to the bridge of the index. -/
def ports (ns : Namespace α γ) (index : ℕ) : List (Link α) :=
  (ns.links.entries.filter fun e => ns.master e.1 = some index).map fun e => e.2

/-- The lowest one of some hardware addresses, or the given one if there are none. -/
def lowest (own : List UInt8) : List (List UInt8) → List UInt8
  | [] => own
  | mac :: macs => macs.foldl (fun m m' => if m' < m then m' else m) mac

def attrs (k : Linux α γ) (ns : Namespace α γ) (name : String) : Attrs :=
  match ns.link name with
  | none => ⟨[], 0⟩
  | some l =>
    match l.kind with
    | .bridge =>
      ⟨lowest (k.macOf l.index) ((ports ns l.index).map fun p => k.macOf p.index),
        (ports ns l.index).foldl (fun m p => min m p.mtu) l.mtu⟩
    | .vxlan _ _ mac => ⟨mac, l.mtu⟩
    | _ => ⟨k.macOf l.index, l.mtu⟩

/-! ### Operations -/

/-- An index above those of all links. -/
def nextIndex (ns : Namespace α γ) : ℕ :=
  (ns.links.entries.map fun e => e.2.index).foldr max 0 + 1

/-- Some link is a tunnel with the identifier and port of the kind. -/
def inUse (ns : Namespace α γ) (kind : Kind) : Bool :=
  ns.links.entries.any fun e => e.2.kind.tunnel.isSome && e.2.kind.tunnel == kind.tunnel

/-- Names have at most 15 bytes. -/
def acceptsLink (name : String) (_ : Kind) (_ : ℤ) : Prop :=
  name ≠ "" ∧ name.utf8ByteSize ≤ 15

instance (name : String) (kind : Kind) (mtu : ℤ) : Decidable (acceptsLink name kind mtu) :=
  inferInstanceAs (Decidable (_ ∧ _))

/-- The device has room for a tunnel of the MTU. -/
def carries (k : Linux α γ) (ns : Namespace α γ) (dev : Option ℕ) (mtu : ℤ) : Bool :=
  dev.all fun i => ns.links.entries.any fun e =>
    e.2.index == i && mtu + Netlink.headroom ≤ (k.attrs ns e.1).mtu

/-- The MTU of a new link: the one that is asked for, or what the device leaves if that is less. -/
def newMTU (k : Linux α γ) (ns : Namespace α γ) (dev : Option ℕ) (mtu : ℤ) : ℤ :=
  if mtu ≤ 0 then 1500
  else if k.carries ns dev mtu = true then mtu
  else ((ns.links.entries.filter fun e => dev = some e.2.index).map fun e =>
    (k.attrs ns e.1).mtu - Netlink.headroom).foldl min mtu

def linkAdd (k : Linux α γ) (name : String) (kind : Kind) (dev : Option ℕ) (mtu : ℤ) :
    Operation α γ Unit := fun ns =>
  if (ns.link name).isSome ∨ inUse ns kind = true then .error .fileExists
  else if acceptsLink name kind mtu ∧
      (dev.all fun i => ns.links.entries.any fun e => e.2.index == i) = true then
    .ok ((), ns.add name ⟨nextIndex ns, kind, k.newMTU ns dev mtu, false, []⟩)
  else .error (.other "invalid argument")

def linkDel (name : String) : Operation α γ Unit := fun ns =>
  match ns.link name with
  | none => .error .noSuchDevice
  | some l =>
    if l.kind = .other then .error (.other "operation not supported")
    else .ok ((), ns.drop name l.index)

/-- Changes a link. -/
def linkSet (name : String) (f : Link α → Link α) : Operation α γ Unit := fun ns =>
  match ns.link name with
  | none => .error .noSuchDevice
  | some l => .ok ((), ns.put name (f l))

def linkSetUp (name : String) : Operation α γ Unit :=
  linkSet name fun l => { l with up := true }

def linkSetMTU (name : String) (mtu : ℤ) : Operation α γ Unit := fun ns =>
  if 68 ≤ mtu ∧ mtu ≤ 65535 then linkSet name (fun l => { l with mtu := mtu }) ns
  else .error (.other "invalid argument")

def linkSetMaster (name : String) (index : ℕ) : Operation α γ Unit := fun ns =>
  if (ns.link name).isSome ∧ (ns.links.entries.any fun e =>
      e.2.index == index && e.2.kind == .bridge) = true then .ok ((), ns.attach name index)
  else .error .noSuchDevice

/-- Sets the default route, replacing the one there is. -/
def routeReplace (k : Linux α γ) (name : String) (gateway : γ) : Operation α γ Unit := fun ns =>
  if ((ns.link name).any fun l => l.up && l.addrs.any fun a => k.hosts a gateway) = true ∧
      (ns.links.entries.any fun e => e.2.addrs.any fun a => k.isAt a gateway) = false then
    .ok ((), { ns with route := some (name, gateway) })
  else .error .unreachable

/-- Adds a default route, if there is none. -/
def routeAdd (k : Linux α γ) (name : String) (gateway : γ) : Operation α γ Unit := fun ns =>
  match k.routeReplace name gateway ns with
  | .error e => .error e
  | .ok r => if ns.route.isSome then .error .fileExists else .ok r

/-- Deletes the default route through a link and a gateway. -/
def routeDel [DecidableEq γ] (name : String) (gateway : γ) : Operation α γ Unit := fun ns =>
  if ns.route = some (name, gateway) then .ok ((), { ns with route := none })
  else .error .noSuchProcess

section

variable [DecidableEq α]

def addrReplace (name : String) (a : α) : Operation α γ Unit :=
  linkSet name fun l => { l with addrs := if a ∈ l.addrs then l.addrs else l.addrs ++ [a] }

def addrAdd (name : String) (a : α) : Operation α γ Unit := fun ns =>
  match ns.link name with
  | none => .error .noSuchDevice
  | some l => if a ∈ l.addrs then .error .fileExists else addrReplace name a ns

/-- The addresses that are left when one is deleted: without those that are secondary to it, unless
they are promoted. -/
def withoutAddr (k : Linux α γ) (addrs : List α) (a : α) : List α :=
  let isPrimary := (addrs.takeWhile (· ≠ a)).all fun b => !k.sameSubnet b a
  addrs.filter fun b => b ≠ a ∧ ¬(isPrimary ∧ k.promote = false ∧ k.sameSubnet a b)

/-- Deletes an address; with the last one a route through the link is gone. -/
def addrDel (k : Linux α γ) (name : String) (a : α) : Operation α γ Unit := fun ns =>
  match ns.link name with
  | none => .error .noSuchDevice
  | some l =>
    if a ∉ l.addrs then .error .addrNotAvailable
    else
      let addrs := k.withoutAddr l.addrs a
      .ok ((), { ns.put name { l with addrs := addrs } with
        route := if addrs = [] then ns.route.filter fun r => r.1 ≠ name else ns.route })

/-- The operations of the kernel. -/
def netlink [DecidableEq γ] (k : Linux α γ) : Netlink α γ where
  attrs := k.attrs
  acceptsLink := acceptsLink
  acceptsAddr _ := True
  linkAdd := k.linkAdd
  linkDel := linkDel
  linkSetUp := linkSetUp
  linkSetMTU := linkSetMTU
  linkSetMaster := linkSetMaster
  addrReplace := addrReplace
  addrAdd := addrAdd
  addrDel := k.addrDel
  routeReplace := k.routeReplace
  routeAdd := k.routeAdd
  routeDel := routeDel

end

/-! ### The laws -/

section

variable {name : String} {ns ns' : Namespace α γ} {l : Link α} {u : Unit}

/-- A link that is found is listed. -/
theorem mem_entries (hl : ns.link name = some l) :
  ⟨name, l⟩ ∈ ns.links.entries
  := AList.mem_lookup_iff.mp hl

/-- The greatest number of a list is above all of them. -/
theorem le_foldr_max {i : ℕ} {is : List ℕ} (hi : i ∈ is) :
  i ≤ is.foldr max 0
  := by
  induction is with
  | nil => cases hi
  | cons j is ih =>
    rw [List.foldr_cons]
    obtain rfl | hi := List.mem_cons.mp hi
    · exact Nat.le_max_left _ _
    · exact (ih hi).trans (Nat.le_max_right _ _)

/-- The index of a new link is its own. -/
theorem fresh_nextIndex (ns : Namespace α γ) :
  ns.Fresh (nextIndex ns)
  := by
  intro n l hl heq
  have hle : l.index ≤ _ := le_foldr_max (List.mem_map_of_mem (f := fun e => e.2.index)
    (mem_entries hl))
  rw [nextIndex] at heq
  omega

/-- The test for a tunnel that is in use finds every one. -/
theorem unused_of_inUse {kind : Kind} (h : inUse ns kind = false) :
  ns.Unused kind
  := by
  intro t ht n l hl heq
  rw [inUse, List.any_eq_false] at h
  apply h _ (mem_entries hl)
  simp [heq, Option.mem_def.mp ht]

/-- And it finds no other. -/
theorem inUse_of_unused {kind : Kind} (h : ns.Unused kind) :
  inUse ns kind = false
  := by
  rw [inUse, List.any_eq_false]
  intro e he
  rw [Bool.and_eq_true, beq_iff_eq, Option.isSome_iff_exists]
  rintro ⟨⟨t, ht⟩, heq⟩
  exact h t (heq ▸ ht) e.1 e.2 (AList.mem_lookup_iff.mpr he) ht

/-- Setting a property of a link stores the link with it. -/
theorem linkSet_ok {f : Link α → Link α} (h : linkSet name f ns = .ok (u, ns')) :
  ∃ l, ns.link name = some l ∧ ns' = ns.put name (f l)
  := by
  rw [linkSet] at h
  split at h
  · cases h
  case h_2 l hl =>
    cases h
    exact ⟨l, hl, rfl⟩

theorem linkSet_of_link (f : Link α → Link α) (hl : ns.link name = some l) :
  linkSet name f ns = .ok ((), ns.put name (f l))
  := by
  rw [linkSet, hl]

theorem routeReplace_ok {k : Linux α γ} {gateway : γ}
    (h : k.routeReplace name gateway ns = .ok (u, ns')) :
  ns' = { ns with route := some (name, gateway) }
  := by
  rw [routeReplace] at h
  split at h
  · cases h
    rfl
  · cases h

/-- The test for room on the device below accepts every device with room. -/
theorem carries_of_carries [DecidableEq α] [DecidableEq γ] (k : Linux α γ) {dev : Option ℕ}
    {mtu : ℤ} (h : k.netlink.Carries ns dev mtu) :
  k.carries ns dev mtu = true
  := by
  cases dev with
  | none => rfl
  | some i =>
    obtain ⟨n, l, hl, hindex, hroom⟩ := h i rfl
    rw [carries, Option.all_some, List.any_eq_true]
    refine ⟨_, mem_entries hl, ?_⟩
    rw [Bool.and_eq_true, beq_iff_eq, decide_eq_true_iff]
    exact ⟨hindex, hroom⟩

/-- What is known of a link that was made. -/
theorem linkAdd_laws [DecidableEq α] [DecidableEq γ] (k : Linux α γ) {kind : Kind} {dev : Option ℕ}
    {mtu : ℤ} (h : k.linkAdd name kind dev mtu ns = .ok (u, ns')) :
  ns.link name = none ∧ ns.Unused kind ∧ ∃ i m, ns.Fresh i ∧
    (0 < mtu → k.netlink.Carries ns dev mtu → m = mtu) ∧ ns' = ns.add name ⟨i, kind, m, false, []⟩
  := by
  rw [linkAdd] at h
  split at h
  · cases h
  case isFalse hfree =>
    rw [not_or, Option.not_isSome_iff_eq_none, Bool.not_eq_true] at hfree
    split at h
    · cases h
      refine ⟨hfree.1, unused_of_inUse hfree.2, _, _, fresh_nextIndex ns, ?_, rfl⟩
      intro hpos hcarries
      rw [newMTU, if_neg (by omega), if_pos (carries_of_carries k hcarries)]
    · cases h

section

variable [DecidableEq α]

/-- What is known of the addresses after one was replaced. -/
theorem addrReplace_laws {a : α} (h : addrReplace name a ns = .ok (u, ns')) :
  ∃ l addrs, ns.link name = some l ∧ Gains a l.addrs addrs ∧
    ns' = ns.put name { l with addrs := addrs }
  := by
  obtain ⟨l, hl, rfl⟩ := linkSet_ok h
  refine ⟨l, _, hl, ⟨?_, ?_⟩, rfl⟩
  · intro b
    split
    case isTrue ha =>
      constructor
      · exact .inl
      · rintro (hb | rfl)
        · exact hb
        · exact ha
    case isFalse => simp
  · intro hnil
    simp [hnil]

/-- An address that the link has is refused; any other is added as a replacement is. -/
theorem addrAdd_cases {a : α} (hl : ns.link name = some l) :
  addrAdd name a ns = .error .fileExists ∧ a ∈ l.addrs ∨
    addrAdd name a ns = addrReplace name a ns ∧ a ∉ l.addrs
  := by
  simp only [addrAdd, hl]
  split
  case isTrue ha => exact .inl ⟨rfl, ha⟩
  case isFalse ha => exact .inr ⟨rfl, ha⟩

/-- Deleting an address takes it and those secondary to it from the list. -/
theorem loses_withoutAddr (k : Linux α γ) (addrs : List α) (a : α) :
  Loses a addrs (k.withoutAddr addrs a)
  := by
  constructor
  · exact List.filter_subset_self _
  · simp [withoutAddr]

/-- What is known of the addresses and the route after an address was deleted. -/
theorem addrDel_laws (k : Linux α γ) {a : α} (h : k.addrDel name a ns = .ok (u, ns')) :
  ∃ l addrs route, ns.link name = some l ∧ Loses a l.addrs addrs ∧
    (route = ns.route ∨ route = none ∧ ∃ g, ns.route = some (name, g)) ∧
    ns' = { ns.put name { l with addrs := addrs } with route := route }
  := by
  rw [addrDel] at h
  split at h
  · cases h
  case h_2 l hl =>
    split at h
    · cases h
    · cases h
      refine ⟨l, _, _, hl, loses_withoutAddr k _ _, ?_, rfl⟩
      split
      · cases hroute : ns.route with
        | none => exact .inl rfl
        | some r =>
          by_cases hr : r.1 = name
          · refine .inr ⟨?_, r.2, ?_⟩
            · simp [Option.filter, hr]
            · rw [← hr]
          · left
            simp [Option.filter, hr]
      · exact .inl rfl

end

/-- The kernel keeps the laws. -/
theorem lawful [DecidableEq α] [DecidableEq γ] (k : Linux α γ) :
  k.netlink.Lawful (fun a g => k.hosts a g = true) fun a g => k.isAt a g = true
  where
  attrs_vxlan hl hkind := by
    simp only [netlink, attrs, hl, hkind]
  attrs_mtu := by
    intro ns name l hl hkind
    simp only [netlink, attrs, hl]
    split
    · contradiction
    · rfl
    · rfl
  linkAdd_ok h := linkAdd_laws k h
  linkAdd_of_unused := by
    intro name kind dev mtu ns hnone hunused haccepts hcarries
    have hfree : ¬((ns.link name).isSome ∨ inUse ns kind = true) := by
      simp [hnone, inUse_of_unused hunused]
    have hdevice : (dev.all fun i => ns.links.entries.any fun e => e.2.index == i) = true := by
      rw [Option.all_eq_true]
      intro i hi
      obtain ⟨n, l, hl, hindex, -⟩ := hcarries i hi
      rw [List.any_eq_true]
      exact ⟨_, mem_entries hl, beq_iff_eq.mpr hindex⟩
    exact ⟨_, (if_neg hfree).trans (if_pos ⟨haccepts, hdevice⟩)⟩
  linkDel_ok := by
    intro name ns u ns' h
    simp only [netlink, linkDel] at h
    split at h
    · cases h
    case h_2 l hl =>
      split at h
      · cases h
      · cases h
        exact ⟨l, hl, fun _ => rfl⟩
  linkDel_of_bridge hl hkind := by
    simp [netlink, linkDel, hl, hkind]
  linkDel_of_vxlan hl hkind := by
    simp [netlink, linkDel, hl, hkind]
  linkSetUp_ok := linkSet_ok
  linkSetUp_of_link hl := ⟨_, linkSet_of_link _ hl⟩
  linkSetMTU_ok := by
    intro name mtu ns u ns' h
    simp only [netlink, linkSetMTU] at h
    split at h
    · exact linkSet_ok h
    · cases h
  linkSetMTU_of_veth hl _ hlow hhigh :=
    ⟨_, (if_pos ⟨hlow, hhigh⟩).trans (linkSet_of_link _ hl)⟩
  linkSetMaster_ok := by
    intro name index ns u ns' h
    simp only [netlink, linkSetMaster] at h
    split at h
    case isTrue hlinks =>
      cases h
      exact ⟨Option.isSome_iff_exists.mp hlinks.1, rfl⟩
    case isFalse => cases h
  addrReplace_ok := addrReplace_laws
  addrReplace_of_link hl _ := ⟨_, linkSet_of_link _ hl⟩
  addrAdd_ok := by
    intro name a ns u ns' h
    have hreplace : addrReplace name a ns = .ok (u, ns') := by
      simp only [netlink, addrAdd] at h
      split at h
      · cases h
      · split at h
        · cases h
        · exact h
    exact addrReplace_laws hreplace
  addrAdd_of_nil := by
    intro name a ns l hl hnil _
    obtain ⟨-, hmem⟩ | ⟨heq, -⟩ := addrAdd_cases (a := a) hl
    · simp [hnil] at hmem
    · exact ⟨_, heq.trans (linkSet_of_link _ hl)⟩
  addrAdd_exists := by
    intro name a ns l hl h
    obtain ⟨-, hmem⟩ | ⟨heq, -⟩ := addrAdd_cases (a := a) hl
    · exact hmem
    · cases (heq.trans (linkSet_of_link _ hl)).symm.trans h
  addrDel_ok h := addrDel_laws k h
  addrDel_of_mem hl ha := by
    simp [netlink, addrDel, hl, ha]
  addrDel_of_notMem hl ha := by
    simp [netlink, addrDel, hl, ha]
  routeReplace_ok := routeReplace_ok
  routeReplace_of_reaches := by
    rintro name g ns ⟨⟨l, hl, hup, a, ha, hhosts⟩, hothers⟩
    refine ⟨_, if_pos ⟨?_, ?_⟩⟩
    · rw [hl, Option.any_some, hup, Bool.true_and, List.any_eq_true]
      exact ⟨a, ha, hhosts⟩
    · rw [List.any_eq_false]
      intro e he
      rw [Bool.not_eq_true, List.any_eq_false]
      exact hothers e.1 e.2 (AList.mem_lookup_iff.mpr he)
  routeAdd_ok := by
    intro name g ns u ns' h
    simp only [netlink, routeAdd] at h
    split at h
    · cases h
    case h_2 r hr =>
      split at h
      · cases h
      · cases h
        exact routeReplace_ok hr
  routeAdd_exists := by
    intro name g ns h
    simp only [netlink, routeAdd] at h
    split at h
    case h_1 e he =>
      rw [routeReplace] at he
      split at he
      · cases he
      · cases he
        cases h
    case h_2 =>
      split at h
      case isTrue hsome => exact hsome
      case isFalse => cases h
  routeDel_of_route hroute := if_pos hroute

end

end Linux

end Links
