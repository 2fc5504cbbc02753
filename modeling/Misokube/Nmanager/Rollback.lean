import Misokube.Nmanager.Steps
import Misokube.Trie.Canonical
import Misokube.Trie.Expansion

/-!
# A failed `EnsureTenant` rolls back

`EnsureTenant` allocates a network before it creates devices, policies and the IPAM, and frees it
again when one of these fails.  Freeing rebuilds a part of the trie, so that it is no undo in
general.  It is one for the networks of a canonical tree, and for a tenant that holds nothing or
the whole root network, which the subnet manager refuses to free
(`treeDeallocate_treeAllocate`).  All tenants without record are such (`after_reclaimed`), so after
a failed call the subnet manager represents the tree from before it.
-/

namespace Trie

open Net BinaryTree

section

variable {p : IPNet} {n bits : ℕ} {leafSize : ℤ} {tm : TrieManager} {T : BinaryTree Label}
  {id : String}

/-- A node of the identifier is the root if the identifier holds at most the whole network. -/
theorem locate_root (hp : IsCIDR p n bits) (hwf : WellFormed p T)
    (hroot : ∀ q, (id, q) ∈ holdings T → q = p) {c : Context Label} {a : Label}
    {l r : BinaryTree Label} (hlocate : locate (isOf id) [] T = some (c, a, l, r)) :
  c = []
  := by
  cases c with
  | nil => rfl
  | cons f c =>
    obtain ⟨hperm, -, hpfx, hcontext, -⟩ := locate_cons_cases hwf hlocate
    have hcidr := (hcontext.isCIDR hp).1
    rw [← hpfx, hroot a.pfx (hperm.mem_iff.mpr List.mem_cons_self)] at hcidr
    have hsize := hp.maskSize.symm.trans hcidr.maskSize
    rw [Prod.mk.injEq, List.length_cons] at hsize
    omega

/-- Freeing the leaf that was taken restores a canonical tree. -/
theorem treeDeallocate_take (hp : IsCIDR p n bits) (hn : n < 30) {c : Context Label} {q : IPNet}
    (hwf : WellFormed p (plug c (leaf (freeLabel q))))
    (hcanonical : Canonical (plug c (leaf (freeLabel q)))) (hid : id ≠ "")
    (hnone : locate (isOf id) [] (plug c (leaf (freeLabel q))) = none) :
  (treeDeallocate id (plug c (leaf (allocatedLabel q id)))).2 = plug c (leaf (freeLabel q))
  := by
  have hsize : (maskSize q.mask).1 = 30 := by
    rw [canonical_plug_iff (by simp [leaf]), canonical_leaf_iff] at hcanonical
    exact hcanonical.2.2 rfl
  have hlocate : locate (isOf id) [] (plug c (leaf (allocatedLabel q id)))
      = some (c, allocatedLabel q id, .nil, .nil) := by
    rw [locate_plug, List.append_nil]
    · simp [leaf, locate, isOf, allocatedLabel]
    · intro a ha
      apply locate_eq_none.mp hnone a
      apply mem_values_plug.mpr (Or.inr ha)
  rw [treeDeallocate, if_neg hid, hlocate]
  cases c with
  | nil =>
    -- the root network is larger than a leaf
    obtain ⟨hq, -⟩ := hwf
    rw [← hq, freeLabel] at hp
    rw [hp.maskSize] at hsize
    omega
  | cons f c =>
    dsimp only
    rw [rebuilt, if_neg (by rw [allocatedLabel, hsize]; apply lt_irrefl)]
    rfl

/-- `Deallocate` undoes `Allocate` for an identifier that holds at most the whole network. -/
theorem treeDeallocate_treeAllocate (hp : IsCIDR p n bits) (hn : n < 30) (hwf : WellFormed p T)
    (hcanonical : Canonical T) (hroot : ∀ q, (id, q) ∈ holdings T → q = p) :
  (treeDeallocate id (treeAllocate id T).2).2 = T
  := by
  by_cases hid : id = ""
  · rw [treeAllocate, if_pos hid, treeDeallocate, if_pos hid]
  rw [treeAllocate, if_neg hid]
  cases hlocate : locate (isOf id) [] T with
  | some x =>
    obtain ⟨c, a, l, r⟩ := x
    obtain rfl := locate_root hp hwf hroot hlocate
    dsimp only
    rw [treeDeallocate, if_neg hid, hlocate]
  | none =>
    cases hbest : bestFree T with
    | none =>
      dsimp only
      rw [treeDeallocate, if_neg hid, hlocate]
    | some x =>
      obtain ⟨c, a⟩ := x
      obtain ⟨hT, -⟩ := openLeaves_wellFormed hwf (List.argmax_mem hbest)
      rw [hT] at hwf hcanonical hlocate
      rw [hT]
      apply treeDeallocate_take hp hn hwf hcanonical hid hlocate

/-- An identifier that holds a network after `Deallocate` holds the whole one. -/
theorem Refines.held_deallocate (hp : IsCIDR p n bits) (h : Refines p leafSize tm T) (hid : id ≠ "")
    {q : IPNet} (hq : (tm.deallocate id).2.held id = some q) :
  q = p
  := by
  have hreply := (h.deallocate hp id).1
  obtain ⟨e, he, hheld⟩ | ⟨-, hheld⟩ := (Managed.deallocate ⟨T, h⟩ hp id).2
  · rw [hheld, h.held_iff] at hq
    rw [he, treeDeallocate, if_neg hid] at hreply
    cases hlocate : locate (isOf id) [] T with
    | none => simp [hlocate] at hreply
    | some x =>
      obtain ⟨c, a, l, r⟩ := x
      cases c with
      | cons f c => simp [hlocate] at hreply
      | nil =>
        obtain ⟨hT, -⟩ := locate_wellFormed h.wellFormed hlocate
        have hwf := h.wellFormed
        rw [hT, plug_nil] at hwf hq
        obtain ⟨hpfx, -⟩ := hwf
        rw [holdings_leaf] at hq
        split at hq
        · rw [List.mem_singleton, Prod.mk.injEq] at hq
          rw [hq.2, hpfx]
        · exact absurd hq List.not_mem_nil
  · rw [hheld, Function.update_self] at hq
    simp at hq

/-- The manager represents a canonical tree. -/
def IsCanonical (p : IPNet) (tm : TrieManager) : Prop :=
  ∃ T, Refines p 30 tm T ∧ Canonical T

/-- Runs without `Reduce` keep the tree canonical. -/
theorem IsCanonical.after (hp : IsCIDR p n bits) (h : IsCanonical p tm) {ops : List Op}
    (hops : ∀ op ∈ ops, ∀ id, op ≠ .reduce id) :
  IsCanonical p (Machine.after step tm ops)
  := by
  apply Machine.after_of_forall_mem (P := IsCanonical p) _ h hops
  rintro tm op ⟨T, h, hcanonical⟩ hop
  use (treeStep 30 T op).2, (step_models hp h op).2
  obtain hsame | hchange := treeStep_change h.wellFormed 30 op
  · rw [hsame]
    exact hcanonical
  · apply hchange.canonical hp hop h.wellFormed hcanonical

/-- A new manager with leaves of /30 represents a canonical tree. -/
theorem newTrieManager_isCanonical (hp : IsCIDR p n bits) (hn : n < 30)
    (hnew : newTrieManager p 30 = some tm) :
  IsCanonical p tm
  := by
  obtain ⟨k, h, hk⟩ := newTrieManager_models hp hnew
  use fullTree k p, h
  apply canonical_fullTree hp
  omega

end

end Trie

namespace Nmanager

open Net Device Trie

/-! ### What a failed call leaves -/

/-- The tenants are as before, and so are the subnet manager's list and its answers and lists in
every later run. -/
structure RolledBack (nm nm' : NetworkManager) : Prop where
  list : nm'.subnet.list.Perm nm.subnet.list
  replies : ∀ ops, Machine.replies Trie.step nm'.subnet ops
    = Machine.replies Trie.step nm.subnet ops
  lists : ∀ ops, (Machine.after Trie.step nm'.subnet ops).list.Perm
    (Machine.after Trie.step nm.subnet ops).list
  tenantRecords : nm'.tenantRecords = nm.tenantRecords
  tenantActors : nm'.tenantActors = nm.tenantActors

/-- What `EnsureTenant` does to a manager: nothing; an allocation that fails; an allocation that is
freed again; or an allocation and a record with it. -/
inductive Ensured (nm : NetworkManager) (id : String) :
    Except Error Unit → NetworkManager → Prop where
  | unchanged {result : Except Error Unit} : Ensured nm id result nm
  | refused {e : Error} {err : Trie.Error} (herr : (nm.subnet.allocate id).1 = .error err) :
      Ensured nm id (.error e) { nm with subnet := (nm.subnet.allocate id).2 }
  | undone {result : Except Error Unit} (hnone : nm.tenantRecords.lookup id = none) :
      Ensured nm id result
        (NetworkManager.deallocateSubnet { nm with subnet := (nm.subnet.allocate id).2 } id)
  | stored {nm' : NetworkManager} (hsubnet : nm'.subnet = (nm.subnet.allocate id).2) :
      Ensured nm id (.ok ()) nm'

section

variable {h : Hashes} {root : IPNet} {ones bits : ℕ} {nm : NetworkManager} {id : String}

theorem ensureTenant_ensured (h : Hashes) (o : Outcomes) (nm : NetworkManager) (id : String) :
  Ensured nm id (nm.ensureTenant h o id).1 (nm.ensureTenant h o id).2
  := by
  rw [NetworkManager.ensureTenant]
  split
  · apply Ensured.unchanged
  split
  · apply Ensured.unchanged
  case isFalse hsome =>
    have hnone : nm.tenantRecords.lookup id = none := by
      simpa using hsome
    have hrefused := @Ensured.refused nm id
    have hundone := @Ensured.undone nm id
    have hstored := @Ensured.stored nm id
    generalize nm.subnet.allocate id = x at hrefused hundone hstored ⊢
    obtain ⟨err | q, subnet⟩ := x
    · apply hrefused rfl
    dsimp only
    split
    · apply hundone hnone
    split
    · apply hundone hnone
    split
    · apply hundone hnone
    split
    · apply hundone hnone
    split
    · apply hstored rfl
    · apply hstored rfl

/-- Every operation is a run of the subnet manager without `Reduce`. -/
theorem step_subnet (h : Hashes) (nm : NetworkManager) (op : Op) :
  ∃ ops : List Trie.Op, (step h nm op).2.subnet = Machine.after Trie.step nm.subnet ops
    ∧ ∀ op ∈ ops, ∀ id, op ≠ .reduce id
  := by
  have hsame : ∃ ops : List Trie.Op, nm.subnet = Machine.after Trie.step nm.subnet ops
      ∧ ∀ op ∈ ops, ∀ id, op ≠ .reduce id := ⟨[], rfl, by simp⟩
  cases op with
  | ensureTenant id o =>
    have hensured := ensureTenant_ensured h o nm id
    rw [step]
    dsimp only
    generalize (nm.ensureTenant h o id).1 = result, (nm.ensureTenant h o id).2 = nm' at hensured ⊢
    cases hensured with
    | unchanged => exact hsame
    | refused => exact ⟨[.allocate id], rfl, by simp⟩
    | undone => exact ⟨[.allocate id, .deallocate id], rfl, by simp⟩
    | stored hsubnet => exact ⟨[.allocate id], hsubnet, by simp⟩
  | removeTenant id o =>
    rw [step, NetworkManager.removeTenant]
    split
    · exact hsame
    split
    · exact hsame
    dsimp only
    split
    · exact hsame
    · exact ⟨[.deallocate id], rfl, by simp⟩
  | expandTenant id o =>
    have hexpand : ∃ ops : List Trie.Op, (nm.subnet.expand id).2
        = Machine.after Trie.step nm.subnet ops ∧ ∀ op ∈ ops, ∀ id, op ≠ .reduce id :=
      ⟨[.expand id], rfl, by simp⟩
    rw [step, NetworkManager.expandTenant]
    split
    · exact hsame
    generalize nm.subnet.expand id = x at hexpand ⊢
    obtain ⟨e | q, subnet⟩ := x
    · exact hexpand
    dsimp only
    split
    · exact hexpand
    split
    · exact hexpand
    split
    · exact hexpand
    · exact hexpand
  | ensurePod id args o =>
    rw [step, NetworkManager.ensurePod]
    split
    · exact hsame
    split
    · exact hsame
    dsimp only
    split
    · exact hsame
    split
    · exact hsame
    split
    · exact hsame
    · exact hsame
  | removePod id args =>
    rw [step, NetworkManager.removePod]
    split
    · exact hsame
    · exact hsame

/-! ### Tenants without record -/

/-- The trie is canonical, and a tenant without record holds at most the whole root network. -/
structure Reclaimed (root : IPNet) (nm : NetworkManager) : Prop where
  canonical : IsCanonical root nm.subnet
  released : ∀ id q, nm.tenantRecords.lookup id = none → nm.subnet.held id = some q → q = root

/-- The tree after a failed call is the one from before it. -/
theorem Reclaimed.ensureTenant_error (hroot : IsCIDR root ones bits) (hlt : ones < 30)
    (hreclaimed : Reclaimed root nm) {o : Outcomes} {e : Error}
    (herror : (nm.ensureTenant h o id).1 = .error e) :
  (∀ T, Refines root 30 nm.subnet T → Canonical T →
      Refines root 30 (nm.ensureTenant h o id).2.subnet T)
    ∧ (nm.ensureTenant h o id).2.tenantRecords = nm.tenantRecords
    ∧ (nm.ensureTenant h o id).2.tenantActors = nm.tenantActors
  := by
  have hensured := ensureTenant_ensured h o nm id
  rw [herror] at hensured
  generalize (nm.ensureTenant h o id).2 = nm' at hensured ⊢
  cases hensured with
  | unchanged => exact ⟨fun _ hT _ => hT, rfl, rfl⟩
  | refused herr =>
    refine ⟨?_, rfl, rfl⟩
    intro T hT _
    obtain ⟨hreply, hT'⟩ := step_models hroot hT (.allocate id)
    obtain ⟨e', htree⟩ | ⟨q, hq, -⟩ := treeAllocate_cases hT.wellFormed id
    · rw [treeStep, htree] at hT'
      exact hT'
    · simp [Trie.step, treeStep, herr, hq, Except.map] at hreply
  | undone hnone =>
    refine ⟨?_, rfl, rfl⟩
    intro T hT hcanonical
    have hwhole : ∀ q, (id, q) ∈ holdings T → q = root := by
      intro q hq
      apply hreclaimed.released id q hnone (hT.held_iff.mpr hq)
    have hundo := treeDeallocate_treeAllocate hroot hlt hT.wellFormed hcanonical hwhole
    have hT' := after_models hroot hT [.allocate id, .deallocate id]
    rw [← hundo]
    exact hT'

/-- `RemoveTenant` does nothing, leaves a record, or frees the network. -/
theorem removeTenant_cases (o : Outcomes) (nm : NetworkManager) (id : String) :
  (nm.removeTenant o id).2 = nm
    ∨ (∃ r, (nm.removeTenant o id).2.tenantRecords.lookup id = some r)
    ∨ id ≠ "" ∧ (nm.removeTenant o id).2.subnet = (nm.subnet.deallocate id).2
  := by
  rw [NetworkManager.removeTenant]
  split
  · exact Or.inl rfl
  case isFalse hid =>
    split
    · exact Or.inl rfl
    dsimp only
    split
    · right
      left
      exact ⟨_, AList.lookup_insert _⟩
    · exact Or.inr (Or.inr ⟨hid, rfl⟩)

/-- A tenant that loses its record, or fails to get one, holds at most the whole root network. -/
theorem step_released (hroot : IsCIDR root ones bits) (hlt : ones < 30) {op : Op}
    (hreclaimed : Reclaimed root nm) (hnone : (step h nm op).2.tenantRecords.lookup op.id = none)
    {q : IPNet} (hq : (step h nm op).2.subnet.held op.id = some q) :
  q = root
  := by
  obtain ⟨T, hT, hcanonical⟩ := hreclaimed.canonical
  have heffect := (step_steps (h := h) hroot ⟨T, hT⟩ op).effect
  generalize hreply : (step h nm op).1 = reply at heffect
  generalize hview : nm.view op.id = v at heffect
  generalize hview' : (step h nm op).2.view op.id = v' at heffect
  have hrecord : v'.record = none := by
    rw [← hview']
    exact hnone
  have hheld : v'.held = some q := by
    rw [← hview']
    exact hq
  cases heffect with
  | same =>
    rw [← hview] at hrecord hheld
    apply hreclaimed.released op.id q hrecord hheld
  | @failed id o p q' e =>
    have herror : (nm.ensureTenant h o id).1 = .error e := by
      rw [step] at hreply
      cases hresult : (nm.ensureTenant h o id).1 with
      | ok => simp [hresult, Except.map] at hreply
      | error e' => simpa [hresult, Except.map] using hreply
    obtain ⟨hrefines, -⟩ := hreclaimed.ensureTenant_error hroot hlt herror
    have hsame := held_eq hT (hrefines T hT hcanonical)
    rw [step, hsame] at hq
    exact hreclaimed.released id q (congrArg View.record hview) hq
  | @removed id o r p q' =>
    obtain hsame | ⟨r', hr'⟩ | ⟨hid, hsubnet⟩ := removeTenant_cases o nm id
    · rw [step, hsame] at hnone hq
      exact hreclaimed.released id q hnone hq
    · rw [step, Op.id, hr'] at hnone
      simp at hnone
    · rw [step, hsubnet] at hq
      apply hT.held_deallocate hroot hid hq
  | created => simp at hrecord
  | panicked => simp at hrecord
  | expanded => simp at hrecord
  | exhausted => simp at hrecord
  | attached => simp at hrecord
  | bridgeless => simp at hrecord
  | detached => simp at hrecord

/-- Every operation keeps the networks of tenants without record reclaimed. -/
theorem step_reclaimed (hroot : IsCIDR root ones bits) (hlt : ones < 30) (nm : NetworkManager)
    (op : Op) (hreclaimed : Reclaimed root nm) :
  Reclaimed root (step h nm op).2
  := by
  constructor
  · obtain ⟨ops, hsubnet, hops⟩ := step_subnet h nm op
    rw [hsubnet]
    apply hreclaimed.canonical.after hroot hops
  · intro id q hnone hq
    by_cases hid : id = op.id
    · subst hid
      apply step_released hroot hlt hreclaimed hnone hq
    · obtain ⟨T, hT, -⟩ := hreclaimed.canonical
      have hframe := (step_steps (h := h) hroot ⟨T, hT⟩ op).frame id hid
      rw [NetworkManager.view, NetworkManager.view, View.mk.injEq, hnone, hq] at hframe
      apply hreclaimed.released id q hframe.1.symm hframe.2.symm

/-- They are reclaimed after every run of a new manager. -/
theorem after_reclaimed (hroot : IsCIDR root ones bits) (hlt : ones < 30) {tm : TrieManager}
    (hnew : newTrieManager root 30 = some tm) (nodeName : String) (ops : List Op) :
  Reclaimed root (Machine.after (step h) (newNetworkManager nodeName tm) ops)
  := by
  apply Machine.after_of_forall (step_reclaimed hroot hlt)
  constructor
  · apply newTrieManager_isCanonical hroot hlt hnew
  · intro id q _ hq
    rw [newNetworkManager, (newTrieManager_held hroot hnew).2] at hq
    simp at hq

end

/-- After a run of a new manager of a network larger than /30, a failed `EnsureTenant` is as if it
had not been called. -/
theorem ensureTenant_rolledBack {root : IPNet} {ones bits : ℕ} (hroot : IsCIDR root ones bits)
    (hlt : ones < 30) {tm : TrieManager} (hnew : newTrieManager root 30 = some tm)
    (h : Hashes) (nodeName : String) (ops : List Op) (o : Outcomes) (id : String) {e : Error}
    (herror : ((Machine.after (step h) (newNetworkManager nodeName tm) ops).ensureTenant h o id).1
      = .error e) :
  RolledBack (Machine.after (step h) (newNetworkManager nodeName tm) ops)
    ((Machine.after (step h) (newNetworkManager nodeName tm) ops).ensureTenant h o id).2
  := by
  have hreclaimed := after_reclaimed (h := h) hroot hlt hnew nodeName ops
  generalize Machine.after (step h) (newNetworkManager nodeName tm) ops = nm at herror hreclaimed ⊢
  obtain ⟨hrefines, hrecords, hactors⟩ := hreclaimed.ensureTenant_error hroot hlt herror
  obtain ⟨T, hT, hcanonical⟩ := hreclaimed.canonical
  have hT' := hrefines T hT hcanonical
  constructor
  · apply (hT.list_perm hT').1
  · intro more
    rw [replies_models hroot hT, replies_models hroot hT']
  · intro more
    apply ((after_models hroot hT more).list_perm (after_models hroot hT' more)).1
  · exact hrecords
  · exact hactors

/-- The policy of a second tenant fails. -/
theorem ensureTenant_rolledBack_slash28 :
  ∃ tm, newTrieManager ⟨[10, 0, 0, 0], cidrMask 28 32⟩ 30 = some tm
    ∧ (∃ e, ((Machine.after (step default) (newNetworkManager "node" tm)
        [.ensureTenant "a" .success]).ensureTenant default
          { Outcomes.success with policy := fun _ => false } "b").1 = .error e)
    ∧ RolledBack (Machine.after (step default) (newNetworkManager "node" tm)
        [.ensureTenant "a" .success])
      ((Machine.after (step default) (newNetworkManager "node" tm)
        [.ensureTenant "a" .success]).ensureTenant default
          { Outcomes.success with policy := fun _ => false } "b").2
  := by
  obtain ⟨hroot, tm, hnew⟩ :=
    exists_newTrieManager_ipv4 [10, 0, 0, 0] 28 30 rfl (by decide) (by decide)
  have hrun : (newTrieManager ⟨[10, 0, 0, 0], cidrMask 28 32⟩ 30).map (fun tm =>
      ((Machine.after (step default) (newNetworkManager "node" tm)
        [.ensureTenant "a" .success]).ensureTenant default
          { Outcomes.success with policy := fun _ => false } "b").1.toBool) = some false := by
    decide +kernel
  rw [hnew, Option.map_some, Option.some.injEq] at hrun
  obtain ⟨e, he⟩ : ∃ e, ((Machine.after (step default) (newNetworkManager "node" tm)
        [.ensureTenant "a" .success]).ensureTenant default
          { Outcomes.success with policy := fun _ => false } "b").1 = .error e := by
    generalize ((Machine.after (step default) (newNetworkManager "node" tm)
        [.ensureTenant "a" .success]).ensureTenant default
          { Outcomes.success with policy := fun _ => false } "b").1 = result at hrun
    cases result with
    | ok => simp [Except.toBool] at hrun
    | error e => exact ⟨e, rfl⟩
  use tm, hnew, ⟨e, he⟩
  apply ensureTenant_rolledBack hroot (by decide) hnew default "node" _ _ "b" he

end Nmanager
