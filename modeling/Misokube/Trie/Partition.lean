import Misokube.Trie.Runs

/-!
# The subnet manager partitions its root network

After every run the networks of the free leaves and of the tenants partition the root network.
So the networks of different tenants are disjoint and inside the root network (`Isolated`), and
an allocation fails only when the tenants cover the whole root network.
-/

namespace Trie

open Net BinaryTree Linked

/-! ### Blocks of a well-formed tree -/

section

variable {p : IPNet} {ones bits : ℕ} {T : BinaryTree Label}

/-- The networks of a well-formed tree are in CIDR form. -/
theorem WellFormed.isCIDR_of_mem (hp : IsCIDR p ones bits) (h : WellFormed p T) {a : Label}
    (ha : a ∈ T.values) :
  ∃ n, IsCIDR a.pfx n bits
  := by
  obtain ⟨c, l, r, rfl⟩ := exists_plug_of_mem ha
  obtain ⟨hc, hpfx, -⟩ := (wellFormed_plug_iff (by simp)).mp h
  use ones + c.length
  rw [hpfx]
  apply (hc.isCIDR hp).1

theorem WellFormed.isCIDR_of_holding (hp : IsCIDR p ones bits) (h : WellFormed p T)
    {e : String × IPNet} (he : e ∈ holdings T) :
  ∃ n, IsCIDR e.2 n bits
  := by
  rw [holdings, List.mem_map] at he
  obtain ⟨a, ha, rfl⟩ := he
  apply h.isCIDR_of_mem hp
  apply List.mem_of_mem_filter ha

/-- The holdings are among the blocks. -/
theorem countP_holdings_le (T : BinaryTree Label) (a : ℕ) :
  (holdings T).countP (fun e => Covers e.2 a) ≤ (blocks T).countP (Covers · a)
  := by
  rw [blocks, List.map_append, List.countP_append, List.countP_map, List.countP_map, holdings,
    List.countP_map]
  apply Nat.le_add_left

/-- The network of a holding is inside the network of the tree. -/
theorem WellFormed.covers_of_holding (hp : IsCIDR p ones bits) (h : WellFormed p T)
    {e : String × IPNet} (he : e ∈ holdings T) {a : ℕ} (ha : Covers e.2 a) :
  Covers p a
  := by
  have hpos : 0 < (holdings T).countP (fun e => Covers e.2 a) := by
    apply List.countP_pos_iff.mpr
    use e, he
    simpa using ha
  have hle := countP_holdings_le T a
  rw [countP_blocks hp h] at hle
  by_contra hnot
  rw [if_neg hnot] at hle
  omega

/-- No two holdings cover the same address. -/
theorem WellFormed.holding_unique (hp : IsCIDR p ones bits) (h : WellFormed p T)
    {e e' : String × IPNet} (he : e ∈ holdings T) (he' : e' ∈ holdings T) {a : ℕ}
    (ha : Covers e.2 a) (ha' : Covers e'.2 a) :
  e = e'
  := by
  by_contra hne
  -- otherwise two blocks would cover the address
  have hsub : [e, e'].Subperm (holdings T) := by
    apply List.Nodup.subperm
    · simpa using hne
    · intro x hx
      rw [List.mem_cons, List.mem_singleton] at hx
      obtain rfl | rfl := hx
      · exact he
      · exact he'
  have hcount := hsub.countP_le (fun e => Covers e.2 a)
  have hle := countP_holdings_le T a
  rw [countP_blocks hp h, if_pos (h.covers_of_holding hp he ha)] at hle
  simp only [List.countP_cons, List.countP_nil, ha, ha', decide_true, if_true] at hcount
  omega

end

/-! ### The lists the manager returns -/

section

variable {tm : TrieManager} {t : BinaryTree (ℕ × Label)}

theorem Represents.nodup_holdings (h : Represents tm.t t) :
  (holdings (labels t)).Nodup
  := by
  rw [holdings, allocatedNodes, labels, values_map, List.filter_map, List.map_map]
  apply List.Nodup.map_on
  · rintro ⟨x, a⟩ hx ⟨y, b⟩ hy heq
    rw [List.mem_filter] at hx hy
    have hid : a.id = b.id := congrArg Prod.fst heq
    have hx' := (h.alloc_iff a.id x).mpr ⟨a, hx.1, hx.2, rfl⟩
    have hy' := (h.alloc_iff a.id y).mpr ⟨b, hy.1, hy.2, hid.symm⟩
    rw [hx', Option.some.injEq] at hy'
    subst hy'
    rw [value_unique h.nodup hx.1 hy.1]
  · apply List.Nodup.filter
    apply List.Nodup.of_map _ h.nodup

theorem nodup_list (tm : TrieManager) :
  tm.list.Nodup
  := by
  have hkeys := List.nodupKeys_iff_pairwise.mp tm.t.allocMap.nodupKeys
  rw [TrieManager.list, List.Nodup, List.pairwise_filterMap]
  apply hkeys.imp
  intro e e' hne b hb b' hb' heq
  rw [Option.map_eq_some_iff] at hb hb'
  obtain ⟨n, -, rfl⟩ := hb
  obtain ⟨n', -, rfl⟩ := hb'
  exact hne (congrArg Prod.fst heq)

/-- `List` returns the holdings, in some order. -/
theorem Represents.list_perm (h : Represents tm.t t) :
  tm.list.Perm (holdings (labels t))
  := by
  apply (List.perm_ext_iff_of_nodup (nodup_list tm) h.nodup_holdings).mpr
  rintro ⟨id, q⟩
  apply h.mem_list_iff

/-- The networks of the free leaves and of the tenants are the blocks of the tree. -/
theorem Represents.blocks_perm (h : Represents tm.t t) :
  (tm.t.freePrefixes ++ tm.list.map Prod.snd).Perm (blocks (labels t))
  := by
  rw [h.findAllFree_pfx, blocks, List.map_append]
  apply List.Perm.append_left
  apply (h.list_perm.map Prod.snd).trans
  rw [holdings, List.map_map]
  apply List.Perm.refl

end

/-! ### Isolation -/

/-- The node can be reached from the root of the trie. -/
def IPTrie.Reachable (tr : IPTrie) (x : ℕ) : Prop :=
  ∃ root, tr.root = some root ∧ Relation.ReflTransGen (Child tr.heap) root x

/-- The tenants are isolated: the networks of different tenants are disjoint and inside the root
network, the map leads exactly to the allocated nodes that can be reached from the root, each
with its own identifier, and no allocated node is below another one. -/
structure Isolated (root : IPNet) (tm : TrieManager) : Prop where
  disjoint : ∀ {id id' : String} {q q' : IPNet}, (id, q) ∈ tm.list → (id', q') ∈ tm.list →
    id ≠ id' → ∀ ip, ¬ (contains q ip = true ∧ contains q' ip = true)
  inside : ∀ {id : String} {q : IPNet}, (id, q) ∈ tm.list →
    ∀ ip, contains q ip = true → contains root ip = true
  alloc_iff : ∀ id x, tm.t.allocMap.lookup id = some x
    ↔ tm.t.Reachable x
      ∧ ∃ n, tm.t.heap[x]? = some n ∧ n.value.allocated = true ∧ n.value.id = id
  separate : ∀ {x y : ℕ}, tm.t.Reachable x → Relation.TransGen (Child tm.t.heap) x y →
    ¬ (isAllocated tm.t.heap (some x) = true ∧ isAllocated tm.t.heap (some y) = true)

section

variable {tr : IPTrie} {t : BinaryTree (ℕ × Label)}

/-- The nodes of the tree are those that can be reached from the root. -/
theorem Represents.reachable_iff (h : Represents tr t) {x : ℕ} :
  tr.Reachable x ↔ ∃ a, (x, a) ∈ t.values
  := by
  have hmem : x ∈ addresses t ↔ ∃ a, (x, a) ∈ t.values := by
    rw [addresses, List.mem_map]
    constructor
    · rintro ⟨⟨y, a⟩, hy, rfl⟩
      exact ⟨a, hy⟩
    · rintro ⟨a, ha⟩
      exact ⟨(x, a), ha, rfl⟩
  rw [← hmem, IPTrie.Reachable, h.root_eq]
  constructor
  · rintro ⟨root, hroot, hreach⟩
    exact (h.holds.reachable_iff hroot).mp hreach
  · intro hx
    cases t with
    | nil => simp at hx
    | node z l r => exact ⟨z.1, rfl, (h.holds.reachable_iff rfl).mpr hx⟩

/-- In a well-formed tree an allocated node has no children. -/
theorem Represents.no_child (h : Represents tr t) {p : IPNet} (hwf : WellFormed p (labels t))
    {x y : ℕ} (hx : tr.Reachable x) (halloc : isAllocated tr.heap (some x) = true) :
  ¬ Child tr.heap x y
  := by
  obtain ⟨a, ha⟩ := h.reachable_iff.mp hx
  obtain ⟨c, l, r, rfl⟩ := exists_plug_of_mem ha
  have hcell := h.get_focus
  simp only [isAllocated, Option.bind_some, hcell] at halloc
  rw [labels, plug_map] at hwf
  obtain ⟨-, -, -, hnode⟩ := (wellFormed_plug_iff (by simp)).mp hwf
  obtain ⟨hl, hr⟩ | ⟨hfree, -⟩ := hnode
  · rw [← isNil_iff, isNil_map, isNil_iff] at hl hr
    subst hl hr
    rintro ⟨n, hn, hchild⟩
    rw [hcell, Option.some.injEq] at hn
    subst hn
    simp at hchild
  · rw [halloc] at hfree
    simp at hfree

end

/-- A manager that represents a well-formed tree below an IPv4 network isolates the tenants. -/
theorem Refines.isolated {root : IPNet} {ones : ℕ} (hroot : IsCIDR root ones 32) {leafSize : ℤ}
    {tm : TrieManager} {T : BinaryTree Label} (h : Refines root leafSize tm T) :
  Isolated root tm
  := by
  obtain ⟨⟨t, ht, rfl⟩, hwf, -⟩ := h
  constructor
  · intro id id' q q' hq hq' hne ip hboth
    rw [ht.mem_list_iff] at hq hq'
    obtain ⟨n, hn⟩ := hwf.isCIDR_of_holding hroot hq
    obtain ⟨n', hn'⟩ := hwf.isCIDR_of_holding hroot hq'
    rw [hn.contains_iff, hn'.contains_iff] at hboth
    have heq := hwf.holding_unique hroot hq hq' hboth.1.2 hboth.2.2
    exact hne (congrArg Prod.fst heq)
  · intro id q hq ip hip
    rw [ht.mem_list_iff] at hq
    obtain ⟨n, hn⟩ := hwf.isCIDR_of_holding hroot hq
    rw [hn.contains_iff] at hip
    rw [hroot.contains_iff]
    exact ⟨hip.1, hwf.covers_of_holding hroot hq hip.2⟩
  · intro id x
    rw [ht.alloc_iff, ht.reachable_iff]
    constructor
    · rintro ⟨a, ha, halloc, hid⟩
      obtain ⟨n, hn, rfl⟩ := ht.holds.get ha
      exact ⟨⟨n.value, ha⟩, n, hn, halloc, hid⟩
    · rintro ⟨⟨a, ha⟩, n, hn, halloc, hid⟩
      obtain ⟨n', hn', rfl⟩ := ht.holds.get ha
      rw [hn, Option.some.injEq] at hn'
      subst hn'
      exact ⟨n.value, ha, halloc, hid⟩
  · intro x y hx hxy hboth
    -- a path down from `x` starts with a child of it
    obtain ⟨z, hxz, -⟩ := Relation.TransGen.head'_iff.mp hxy
    exact ht.no_child hwf hx hboth.1 hxz

/-- After every run of a new manager of an IPv4 network, the tenants are isolated. -/
theorem after_isolated {root : IPNet} {ones : ℕ} (hroot : IsCIDR root ones 32) {leafMask : ℤ}
    (hmax : leafMask ≤ 32) :
  ∃ tm, newTrieManager root leafMask = some tm
    ∧ ∀ ops, Isolated root (Machine.after step tm ops)
  := by
  obtain ⟨tm, htm⟩ := exists_newTrieManager hroot (Or.inr hmax)
  use tm, htm
  intro ops
  obtain ⟨k, hrefines, -⟩ := newTrieManager_models hroot htm
  apply (after_models hroot hrefines ops).isolated hroot

theorem after_isolated_slash24 :
  ∃ tm, newTrieManager ⟨[10, 0, 0, 0], cidrMask 24 32⟩ 30 = some tm
    ∧ ∀ ops, Isolated ⟨[10, 0, 0, 0], cidrMask 24 32⟩ (Machine.after step tm ops)
  := by
  have hroot : IsCIDR ⟨[10, 0, 0, 0], cidrMask 24 32⟩ 24 32 :=
    (isCIDR_mk (Or.inl rfl) (by decide) rfl).1
  apply after_isolated hroot (by decide)

/-! ### Exhaustion -/

/-- An allocation for a new identifier fails exactly when the tree has no free leaf. -/
theorem treeAllocate_error_iff {T : BinaryTree Label} {id : String} (hid : id ≠ "")
    (hlocate : locate (isOf id) [] T = none) :
  (∃ e, (treeAllocate id T).1 = .error e) ↔ freeLeaves T = []
  := by
  have hfree : freeLeaves T = [] ↔ bestFree T = none := by
    rw [freeLeaves, List.map_eq_nil_iff, bestFree, List.argmax_eq_none]
  rw [hfree, treeAllocate, if_neg hid, hlocate]
  cases bestFree T with
  | none => simp
  | some x => simp

/-- An address of the network is in one free leaf or in one holding. -/
theorem countP_free_add_holdings {p : IPNet} {ones bits : ℕ} (hp : IsCIDR p ones bits)
    {T : BinaryTree Label} (h : WellFormed p T) (a : ℕ) :
  ((freeLeaves T).map Label.pfx).countP (Covers · a)
      + (holdings T).countP (fun e => Covers e.2 a)
    = if Covers p a then 1 else 0
  := by
  rw [← countP_blocks hp h, blocks, List.map_append, List.countP_append, holdings,
    List.countP_map, List.countP_map, List.countP_map]
  rfl

/-- A well-formed tree has no free leaf exactly when its holdings cover its network. -/
theorem freeLeaves_eq_nil_iff {p : IPNet} {ones bits : ℕ} (hp : IsCIDR p ones bits)
    {T : BinaryTree Label} (h : WellFormed p T) :
  freeLeaves T = [] ↔ ∀ a, Covers p a → ∃ e ∈ holdings T, Covers e.2 a
  := by
  have hcount := countP_free_add_holdings hp h
  constructor
  · intro hnil a ha
    have hone := hcount a
    rw [hnil, List.map_nil, List.countP_nil, Nat.zero_add, if_pos ha] at hone
    have hpos : 0 < (holdings T).countP (fun e => Covers e.2 a) := by
      rw [hone]
      apply Nat.one_pos
    obtain ⟨e, he, hcovers⟩ := List.countP_pos_iff.mp hpos
    exact ⟨e, he, of_decide_eq_true hcovers⟩
  · intro hcovered
    by_contra hne
    obtain ⟨b, hb⟩ := List.exists_mem_of_ne_nil _ hne
    -- the first address of a free leaf would be covered twice
    have hbase := covers_base b.pfx
    have hfree : 0 < ((freeLeaves T).map Label.pfx).countP (Covers · (base b.pfx)) := by
      apply List.countP_pos_iff.mpr
      use b.pfx, List.mem_map_of_mem hb
      simpa using hbase
    have hone := hcount (base b.pfx)
    have hp' : Covers p (base b.pfx) := by
      by_contra hnot
      rw [if_neg hnot] at hone
      omega
    obtain ⟨e, he, hcovers⟩ := hcovered _ hp'
    have hheld : 0 < (holdings T).countP (fun e => Covers e.2 (base b.pfx)) := by
      apply List.countP_pos_iff.mpr
      use e, he
      simpa using hcovers
    rw [if_pos hp'] at hone
    omega

/-- No address is lost: every address of the root network is in exactly one of the networks of
the free leaves and of the tenants, and no other address is in any; and an allocation for a new
identifier fails exactly when the networks of the tenants cover the root network. -/
structure Partitioned (root : IPNet) (tm : TrieManager) : Prop where
  countP_eq : ∀ a, (tm.t.freePrefixes ++ tm.list.map Prod.snd).countP (Covers · a)
    = if Covers root a then 1 else 0
  exhausted_iff : ∀ id, id ≠ "" → (∀ q, (id, q) ∉ tm.list) →
    ((∃ e, (tm.allocate id).1 = .error e)
      ↔ ∀ a, Covers root a → ∃ e ∈ tm.list, Covers e.2 a)

/-- An identifier that is not listed has no entry. -/
theorem Represents.getNodeByID_of_not_mem_list {tm : TrieManager} {t : BinaryTree (ℕ × Label)}
    (h : Represents tm.t t) {id : String} (hid : ∀ q, (id, q) ∉ tm.list) :
  tm.t.getNodeByID id = none
  := by
  rw [IPTrie.getNodeByID]
  cases hlookup : tm.t.allocMap.lookup id with
  | none => rfl
  | some x =>
    obtain ⟨a, hx, halloc, rfl⟩ := (h.alloc_iff _ _).mp hlookup
    exfalso
    apply hid a.pfx
    apply h.mem_list_iff.mpr
    apply h.mem_holdings_iff.mpr
    use x, a, hlookup, hx
    rw [allocatedLabel, ← halloc]

/-- After every run of a new manager, no address is lost. -/
theorem after_partitioned {root : IPNet} {ones bits : ℕ} (hroot : IsCIDR root ones bits)
    {leafMask : ℤ} {tm : TrieManager} (hnew : newTrieManager root leafMask = some tm)
    (ops : List Op) :
  Partitioned root (Machine.after step tm ops)
  := by
  obtain ⟨k, hrefines, -⟩ := newTrieManager_models hroot hnew
  obtain ⟨⟨t, ht, hlabels⟩, hwf, -⟩ := after_models hroot hrefines ops
  rw [← hlabels] at hwf
  constructor
  · intro a
    rw [ht.blocks_perm.countP_eq, countP_blocks hroot hwf]
  · intro id hid hfresh
    rw [(allocate_models ht hwf id).1,
      treeAllocate_error_iff hid (ht.locate_none (ht.getNodeByID_of_not_mem_list hfresh)),
      freeLeaves_eq_nil_iff hroot hwf]
    simp only [ht.list_perm.mem_iff]

theorem after_partitioned_slash29 :
  ∃ tm, newTrieManager ⟨[10, 0, 0, 0], cidrMask 29 32⟩ 31 = some tm
    ∧ Partitioned ⟨[10, 0, 0, 0], cidrMask 29 32⟩
      (Machine.after step tm [.allocate "a", .expand "a", .allocate "b"])
  := by
  obtain ⟨hroot, tm, htm⟩ :=
    exists_newTrieManager_ipv4 [10, 0, 0, 0] 29 31 rfl (by decide) (by decide)
  use tm, htm
  apply after_partitioned hroot htm

end Trie
