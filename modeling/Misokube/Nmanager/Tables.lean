import Misokube.Nmanager.Programmed

/-!
# The tables of the VTEP are those of the stored peers

If no call of the managers fails and no two nodes have a VTEP address, a VTEP hardware address or
a subnet in common, then the kernel has exactly the entries of the stored peers (`after_precise`):
a peer that changes leaves none of its old entries, the calls for a node leave those of all others,
and a peer that is stored already is not programmed again.
-/

namespace Peers

open Net Command

/-- The values of a map. -/
def stored (peers : GoMap String RemoteTenantInfra) : List RemoteTenantInfra :=
  peers.entries.map fun e => e.2

/-- The entries of peers on a VTEP. -/
def entries (vtep : Option String) (peers : List RemoteTenantInfra) :
    Set (Netlink.Entry IP HardwareAddr (IP × ℕ × ℕ)) :=
  {e | ∃ device ∈ vtep, ∃ peer ∈ peers, ∃ subnet ∈ peer.subnet, peer.entry device subnet = e}

/-! ### Requests -/

/-- A call for the tenant in which no call of a manager fails. -/
inductive Request where
  | ensurePeer (remote : RemoteTenantInfra)
  | removePeer (remote : RemoteTenantInfra)
  | flushTenant

def Request.call : Request → Call
  | .ensurePeer remote => .ensurePeer remote .success
  | .removePeer remote => .removePeer remote .success
  | .flushTenant => .flushTenant fun _ => .success

def serve (tenantID : String) (nm : Manager) (request : Request) : Except Error Unit × Manager :=
  step tenantID nm request.call

/-- A peer has neither VTEP address, VTEP hardware address nor subnet in common with the stored
peers of other nodes. -/
def Request.Distinct (tenantID : String) (nm : Manager) : Request → Prop
  | .ensurePeer remote => ∀ ltr ∈ nm.tenantRecords.lookup tenantID,
      ∀ e ∈ ltr.peers.entries, e.1 ≠ remote.nodeName → SharesNothing remote e.2
  | .removePeer _ => True
  | .flushTenant => True

instance (tenantID : String) (nm : Manager) : ∀ request : Request,
    Decidable (request.Distinct tenantID nm)
  | .ensurePeer remote => inferInstanceAs (Decidable (∀ ltr ∈ nm.tenantRecords.lookup tenantID,
      ∀ e ∈ ltr.peers.entries, e.1 ≠ remote.nodeName → SharesNothing remote e.2))
  | .removePeer _ => inferInstanceAs (Decidable True)
  | .flushTenant => inferInstanceAs (Decidable True)

/-- The request is about the peer of a node. -/
def Request.About (node : String) : Request → Prop
  | .ensurePeer remote => remote.nodeName = node
  | .removePeer remote => remote.nodeName = node
  | .flushTenant => True

/-- The kernel has exactly the entries of the stored peers; a request about one node keeps the
peers of the others and their entries; and once `EnsurePeer` has succeeded, it does nothing for an
equal peer, whatever the managers would answer. -/
structure Precise (tenantID : String) (nm : Manager) : Prop where
  exact : ∀ ltr ∈ nm.tenantRecords.lookup tenantID,
    Netlink.Exactly (entries ltr.vtep (stored ltr.peers)) nm.kernel
  others : ∀ request, request.Distinct tenantID nm → ∀ node, ¬ request.About node →
    ∀ ltr ∈ nm.tenantRecords.lookup tenantID,
      ∃ ltr' ∈ (serve tenantID nm request).2.tenantRecords.lookup tenantID,
        ltr'.vtep = ltr.vtep ∧ ltr'.peers.lookup node = ltr.peers.lookup node
        ∧ ∀ peer ∈ ltr.peers.lookup node, Programmed nm.kernel ltr peer
          ∧ Programmed (serve tenantID nm request).2.kernel ltr' peer
  repeated : ∀ remote remote' nm', nm.ensurePeer .success tenantID remote = (.ok (), nm') →
    remotePeersEqual remote remote' = true →
      ∀ o, nm'.ensurePeer o tenantID remote' = (.ok (), nm')

/-! ### Entries of a peer -/

/-- The peer has what its entries on the device need. -/
structure Fits (vtep : Option String) (device : String) (peer : RemoteTenantInfra)
    (subnet : IPNet) : Prop where
  vtep_eq : vtep = some device
  device_ne : device ≠ ""
  subnet_eq : peer.subnet = some subnet
  ip_ne : peer.vtepIP ≠ []
  mac_ne : peer.vtepMAC ≠ []

section

variable {ltr : Record} {remote peer : RemoteTenantInfra} {kernel kernel' : Kernel}
  {device : String} {subnet : IPNet} {vtep : Option String}

/-- If no call fails, then the entries of a peer are added, or none is because something is
missing. -/
theorem ensurePeerEntries_enters (ltr : Record) (remote : RemoteTenantInfra) (kernel : Kernel) :
  (∃ e, (ensurePeerEntries .success ltr remote).run kernel = .error e kernel)
    ∨ ∃ device subnet, Fits ltr.vtep device remote subnet
      ∧ (ensurePeerEntries .success ltr remote).run kernel
        = .ok () (Netlink.enter (remote.entry device subnet) kernel)
  := by
  rw [ensurePeerEntries]
  split
  · exact Or.inl ⟨_, rfl⟩
  · exact Or.inl ⟨_, rfl⟩
  case h_3 device subnet hvtep hsubnet =>
    split
    · exact Or.inl ⟨_, rfl⟩
    case isFalse hsome =>
      push Not at hsome
      simp only [EStateM.run_bind, ARP.add, FDB.add, Route.update, run_guarded]
      by_cases hdevice : device = ""
      · left
        simp [hdevice]
      · right
        refine ⟨device, subnet, ⟨hvtep, hdevice, hsubnet, hsome.1, hsome.2⟩, ?_⟩
        simp only [Outcomes.success, hdevice, hsome.1, hsome.2, Bool.true_eq_false, or_self,
          if_false]
        rfl

/-- If no call fails, then the entries of a peer are deleted. -/
theorem removePeerEntries_withdraws (h : Fits ltr.vtep device peer subnet) :
  (removePeerEntries .success ltr peer).run kernel
    = .ok () (Netlink.withdraw (peer.entry device subnet) kernel)
  := by
  obtain ⟨hvtep, hdevice, hsubnet, hip, hmac⟩ := h
  rw [removePeerEntries, hvtep, hsubnet]
  simp only [hip, hmac, or_self, if_false, EStateM.run_bind, ARP.delete, FDB.delete, Route.delete,
    Outcomes.success, hdevice, Bool.true_eq_false]
  rfl

/-- Peers that share nothing have entries that are apart. -/
theorem SharesNothing.apart {subnet' : IPNet} (h : SharesNothing remote peer)
    (hremote : remote.subnet = some subnet) (hpeer : peer.subnet = some subnet') :
  Netlink.Apart (remote.entry device subnet) (peer.entry device subnet')
  := by
  obtain ⟨hip, hmac, hdst⟩ := h
  rw [hremote, hpeer, Option.map_some, Option.map_some] at hdst
  refine ⟨hip, hmac, ?_⟩
  intro heq
  exact hdst (congrArg some heq)

theorem entries_cons (h : Fits vtep device peer subnet) (peers : List RemoteTenantInfra) :
  entries vtep (peer :: peers) = insert (peer.entry device subnet) (entries vtep peers)
  := by
  ext e
  simp [entries, h.vtep_eq, h.subnet_eq, eq_comm]

/-- Peers that share nothing have entries that are apart. -/
theorem apart_of_mem_entries {peers : List RemoteTenantInfra} (h : Fits vtep device peer subnet)
    (hshares : ∀ p ∈ peers, SharesNothing peer p)
    {e : Netlink.Entry IP HardwareAddr (IP × ℕ × ℕ)} (he : e ∈ entries vtep peers) :
  Netlink.Apart (peer.entry device subnet) e
  := by
  obtain ⟨device', hdevice', p, hp, subnet', hsubnet', rfl⟩ := he
  rw [h.vtep_eq, Option.mem_some_iff] at hdevice'
  subst hdevice'
  apply (hshares p hp).apart h.subnet_eq hsubnet'

/-- Adding the entries of a peer that shares nothing with those of the tables. -/
theorem exactly_enter {peers : List RemoteTenantInfra} (h : Fits vtep device peer subnet)
    (hshares : ∀ p ∈ peers, SharesNothing peer p)
    (hkernel : Netlink.Exactly (entries vtep peers) kernel) :
  Netlink.Exactly (entries vtep (peer :: peers)) (Netlink.enter (peer.entry device subnet) kernel)
  := by
  rw [entries_cons h]
  apply hkernel.enter
  intro e he
  apply apart_of_mem_entries h hshares he

/-- Deleting the entries of a peer that shares nothing with the others of the tables. -/
theorem exactly_withdraw {peers : List RemoteTenantInfra} (h : Fits vtep device peer subnet)
    (hshares : ∀ p ∈ peers, SharesNothing peer p)
    (hkernel : Netlink.Exactly (entries vtep (peer :: peers)) kernel) :
  Netlink.Exactly (entries vtep peers) (Netlink.withdraw (peer.entry device subnet) kernel)
  := by
  rw [entries_cons h] at hkernel
  have hapart : ∀ e ∈ entries vtep peers, Netlink.Apart (peer.entry device subnet) e := by
    intro e he
    apply apart_of_mem_entries h hshares he
  have hnew : peer.entry device subnet ∉ entries vtep peers := by
    intro hmem
    exact (hapart _ hmem).1 rfl
  have hrest : insert (peer.entry device subnet) (entries vtep peers)
      \ {peer.entry device subnet} = entries vtep peers := by
    apply Set.insert_sdiff_self_of_notMem hnew
  rw [← hrest]
  apply hkernel.withdraw (Set.mem_insert _ _)
  intro e he hne
  rw [Set.mem_insert_iff] at he
  apply hapart e (he.resolve_left hne)

/-- The removal of peers one after the other. -/
theorem removeAll_success {peers : List RemoteTenantInfra}
    (hfits : ∀ p ∈ peers, ∃ device subnet, Fits ltr.vtep device p subnet)
    (hshares : peers.Pairwise SharesNothing)
    (hkernel : Netlink.Exactly (entries ltr.vtep peers) kernel) :
  ∃ kernel', (Manager.removeAll (fun _ => .success) ltr peers).run kernel = .ok () kernel'
    ∧ Netlink.Exactly (entries ltr.vtep []) kernel'
  := by
  induction peers generalizing kernel with
  | nil => exact ⟨kernel, rfl, hkernel⟩
  | cons peer peers ih =>
    obtain ⟨hpeer, hrest⟩ := List.pairwise_cons.mp hshares
    obtain ⟨device, subnet, hfit⟩ := hfits peer List.mem_cons_self
    have hnext := exactly_withdraw hfit hpeer hkernel
    obtain ⟨kernel', hrun, hempty⟩ :=
      ih (fun p hp => hfits p (List.mem_cons_of_mem _ hp)) hrest hnext
    use kernel'
    rw [Manager.removeAll, EStateM.run_bind, removePeerEntries_withdraws hfit]
    exact ⟨hrun, hempty⟩

/-! ### Stored peers -/

variable {peers : GoMap String RemoteTenantInfra} {node : String}

/-- The peers that are stored are those of the nodes. -/
theorem mem_stored :
  peer ∈ stored peers ↔ ∃ node, peer ∈ peers.lookup node
  := by
  simp only [stored, List.mem_map, AList.mem_lookup_iff]
  constructor
  · rintro ⟨e, he, rfl⟩
    exact ⟨e.1, he⟩
  · rintro ⟨node, he⟩
    exact ⟨_, he, rfl⟩

/-- The entries do not depend on the order of the peers. -/
theorem entries_congr {l l' : List RemoteTenantInfra} (h : ∀ p, p ∈ l ↔ p ∈ l') :
  entries vtep l = entries vtep l'
  := by
  simp only [entries, h]

/-- The entries with a peer that is stored, and without it. -/
theorem entries_erase (hpeer : peers.lookup node = some peer) :
  entries vtep (stored peers) = entries vtep (peer :: stored (peers.erase node))
  := by
  apply entries_congr
  intro p
  simp only [List.mem_cons, mem_stored, GoMap.lookup_erase_eq]
  constructor
  · rintro ⟨node', hp⟩
    by_cases hnode : node' = node
    · rw [hnode, hpeer] at hp
      exact Or.inl (Option.some.inj hp).symm
    · right
      use node'
      rw [if_neg hnode]
      exact hp
  · rintro (rfl | ⟨node', hp⟩)
    · exact ⟨node, hpeer⟩
    · split at hp
      · simp at hp
      · exact ⟨node', hp⟩

/-- The entries with a peer of a new node. -/
theorem entries_insert (hnew : peers.lookup node = none) :
  entries vtep (stored (peers.insert node peer)) = entries vtep (peer :: stored peers)
  := by
  apply entries_congr
  intro p
  simp only [List.mem_cons, mem_stored, GoMap.lookup_insert_eq]
  constructor
  · rintro ⟨node', hp⟩
    split at hp
    · exact Or.inl (Option.some.inj hp).symm
    · exact Or.inr ⟨node', hp⟩
  · rintro (rfl | ⟨node', hp⟩)
    · exact ⟨node, by simp⟩
    · use node'
      rw [if_neg]
      · exact hp
      · rintro rfl
        simp [hnew] at hp

/-- The peers are stored by the names of their nodes, have what their entries need, and share
nothing; and the kernel has exactly their entries. -/
structure Exact (vtep : Option String) (peers : GoMap String RemoteTenantInfra)
    (kernel : Kernel) : Prop where
  named : ∀ node, ∀ p ∈ peers.lookup node, p.nodeName = node
  fits : ∀ node, ∀ p ∈ peers.lookup node, ∃ device subnet, Fits vtep device p subnet
  apart : ∀ node node', ∀ p ∈ peers.lookup node, ∀ p' ∈ peers.lookup node', node' ≠ node →
    SharesNothing p p'
  tables : Netlink.Exactly (entries vtep (stored peers)) kernel

/-- The removal of a stored peer. -/
theorem Exact.remove (h : Exact ltr.vtep peers kernel) (hpeer : peers.lookup node = some peer) :
  ∃ kernel', (removePeerEntries .success ltr peer).run kernel = .ok () kernel'
    ∧ Exact ltr.vtep (peers.erase node) kernel'
  := by
  obtain ⟨device, subnet, hfit⟩ := h.fits node peer hpeer
  refine ⟨_, removePeerEntries_withdraws hfit, ?_⟩
  have hsub : ∀ n, ∀ p ∈ (peers.erase node).lookup n, n ≠ node ∧ p ∈ peers.lookup n := by
    intro n p hp
    rw [GoMap.lookup_erase_eq] at hp
    split at hp
    · simp at hp
    case isFalse hn => exact ⟨hn, hp⟩
  constructor
  · intro n p hp
    apply h.named n p (hsub n p hp).2
  · intro n p hp
    apply h.fits n p (hsub n p hp).2
  · intro n n' p hp p' hp'
    apply h.apart n n' p (hsub n p hp).2 p' (hsub n' p' hp').2
  · apply exactly_withdraw hfit
    · intro p hp
      obtain ⟨n, hp⟩ := mem_stored.mp hp
      obtain ⟨hn, hp⟩ := hsub n p hp
      apply h.apart node n peer hpeer p hp hn
    · rw [← entries_erase hpeer]
      exact h.tables

/-- The addition of a peer of a node that has none. -/
theorem Exact.add (h : Exact ltr.vtep peers kernel)
    (hnew : peers.lookup remote.nodeName = none)
    (hshares : ∀ n, ∀ p ∈ peers.lookup n, SharesNothing remote p) :
  (∃ e, (ensurePeerEntries .success ltr remote).run kernel = .error e kernel)
    ∨ ∃ kernel', (ensurePeerEntries .success ltr remote).run kernel = .ok () kernel'
      ∧ Exact ltr.vtep (peers.insert remote.nodeName remote) kernel'
  := by
  obtain herror | ⟨device, subnet, hfit, hrun⟩ := ensurePeerEntries_enters ltr remote kernel
  · exact Or.inl herror
  right
  refine ⟨_, hrun, ?_⟩
  have hcases : ∀ n, ∀ p ∈ (peers.insert remote.nodeName remote).lookup n,
      n = remote.nodeName ∧ p = remote ∨ n ≠ remote.nodeName ∧ p ∈ peers.lookup n := by
    intro n p hp
    rw [GoMap.lookup_insert_eq] at hp
    split at hp
    case isTrue hn => exact Or.inl ⟨hn, (Option.some.inj hp).symm⟩
    case isFalse hn => exact Or.inr ⟨hn, hp⟩
  constructor
  · intro n p hp
    obtain ⟨rfl, rfl⟩ | ⟨-, hp⟩ := hcases n p hp
    · rfl
    · apply h.named n p hp
  · intro n p hp
    obtain ⟨rfl, rfl⟩ | ⟨-, hp⟩ := hcases n p hp
    · exact ⟨device, subnet, hfit⟩
    · apply h.fits n p hp
  · intro n n' p hp p' hp' hne
    obtain ⟨hn, rfl⟩ | ⟨-, hold⟩ := hcases n p hp
    · obtain ⟨hn', -⟩ | ⟨-, hold'⟩ := hcases n' p' hp'
      · exact absurd (hn'.trans hn.symm) hne
      · apply hshares n' p' hold'
    · obtain ⟨-, rfl⟩ | ⟨-, hold'⟩ := hcases n' p' hp'
      · apply (hshares n p hold).symm
      · apply h.apart n n' p hold p' hold' hne
  · rw [entries_insert hnew]
    apply exactly_enter hfit _ h.tables
    intro p hp
    obtain ⟨n, hp⟩ := mem_stored.mp hp
    apply hshares n p hp

/-- Tables with exactly the entries of the peers have those of each peer. -/
theorem Exact.programmed (h : Exact ltr.vtep ltr.peers kernel)
    (hpeer : peer ∈ ltr.peers.lookup node) :
  Programmed kernel ltr peer
  := by
  obtain ⟨device, subnet, hfit⟩ := h.fits node peer hpeer
  refine ⟨device, hfit.vtep_eq, subnet, hfit.subnet_eq, ?_⟩
  apply h.tables.has
  exact ⟨device, hfit.vtep_eq, peer, mem_stored.mpr ⟨node, hpeer⟩, subnet, hfit.subnet_eq, rfl⟩

/-! ### Calls -/

variable {nm nm' : Manager} {tenantID : String}

/-- The tenant has a record with exact tables again, with the same VTEP and the same peers of the
nodes that the request is not about. -/
def Follows (tenantID : String) (ltr : Record) (about : String → Prop) (nm' : Manager) : Prop :=
  ∃ ltr', nm'.tenantRecords.lookup tenantID = some ltr' ∧ ltr'.vtep = ltr.vtep
    ∧ Exact ltr'.vtep ltr'.peers nm'.kernel
    ∧ ∀ node, ¬ about node → ltr'.peers.lookup node = ltr.peers.lookup node

theorem follows_refl (hlookup : nm.tenantRecords.lookup tenantID = some ltr)
    (h : Exact ltr.vtep ltr.peers nm.kernel) (about : String → Prop) :
  Follows tenantID ltr about nm
  := ⟨ltr, hlookup, rfl, h, fun _ _ => rfl⟩

/-- A change of the peers of the record. -/
theorem follows_modifyPeers (hlookup : nm.tenantRecords.lookup tenantID = some ltr)
    {f : GoMap String RemoteTenantInfra → GoMap String RemoteTenantInfra} {about : String → Prop}
    (h : Exact ltr.vtep (f ltr.peers) nm.kernel)
    (hother : ∀ node, ¬ about node → (f ltr.peers).lookup node = ltr.peers.lookup node) :
  Follows tenantID ltr about (nm.modifyPeers tenantID f)
  := by
  refine ⟨{ ltr with peers := f ltr.peers }, ?_, rfl, ?_, hother⟩
  · rw [lookup_modifyPeers, hlookup]
    rfl
  · rw [kernel_modifyPeers]
    exact h

/-- The end of `EnsurePeer`, for a record that has the VTEP of `ltr` and no peer of the node. -/
theorem addPeer_follows {ltr' : Record} (hlookup : nm.tenantRecords.lookup tenantID = some ltr')
    (hvtep : ltr'.vtep = ltr.vtep) (h : Exact ltr.vtep ltr'.peers nm.kernel)
    (hnew : ltr'.peers.lookup remote.nodeName = none)
    (hshares : ∀ n, ∀ p ∈ ltr'.peers.lookup n, SharesNothing remote p) :
  Follows tenantID ltr' (remote.nodeName = ·) (nm.addPeer .success tenantID ltr remote).2
  := by
  rw [Manager.addPeer]
  obtain ⟨e, hrun⟩ | ⟨kernel', hrun, hexact⟩ := h.add hnew hshares
  · rw [hrun]
    apply follows_refl hlookup
    rw [hvtep]
    exact h
  · rw [hrun]
    have hlookup' : ({ nm with kernel := kernel' } : Manager).tenantRecords.lookup tenantID
        = some ltr' := hlookup
    apply follows_modifyPeers hlookup'
    · rw [hvtep]
      exact hexact
    · intro node hnode
      rw [GoMap.lookup_insert_eq, if_neg (Ne.symm hnode)]

/-- `EnsurePeer` programs the peer and drops the entry of the one it replaces. -/
theorem ensurePeer_follows (hlookup : nm.tenantRecords.lookup tenantID = some ltr)
    (h : Exact ltr.vtep ltr.peers nm.kernel)
    (hdistinct : (Request.ensurePeer remote).Distinct tenantID nm) :
  Follows tenantID ltr (remote.nodeName = ·) (nm.ensurePeer .success tenantID remote).2
  := by
  have hshares : ∀ n, ∀ p ∈ ltr.peers.lookup n, n ≠ remote.nodeName → SharesNothing remote p := by
    intro n p hp
    apply hdistinct ltr hlookup ⟨n, p⟩ (AList.mem_lookup_iff.mp hp)
  rw [Manager.ensurePeer]
  split
  · apply follows_refl hlookup h
  rw [hlookup]
  dsimp only
  split
  · apply follows_refl hlookup h
  rw [Manager.lookupPeerState, Manager.getStoredPeer, hlookup, Option.bind_some]
  cases hprev : ltr.peers.lookup remote.nodeName with
  | none =>
    apply addPeer_follows hlookup rfl h hprev
    intro n p hp
    apply hshares n p hp
    rintro rfl
    simp [hprev] at hp
  | some prev =>
    dsimp only
    cases remotePeersEqual prev remote with
    | true => apply follows_refl hlookup h
    | false =>
      obtain ⟨kernel', hrun, hexact⟩ := h.remove hprev
      dsimp only
      rw [hrun, h.named _ prev hprev]
      have hdeleted : (Manager.deletePeerState { nm with kernel := kernel' } tenantID
          remote.nodeName).tenantRecords.lookup tenantID
            = some { ltr with peers := ltr.peers.erase remote.nodeName } := by
        rw [Manager.deletePeerState, lookup_modifyPeers, hlookup]
        rfl
      have hrest : Exact ltr.vtep (ltr.peers.erase remote.nodeName) (Manager.deletePeerState
          { nm with kernel := kernel' } tenantID remote.nodeName).kernel := by
        rw [Manager.deletePeerState, kernel_modifyPeers]
        exact hexact
      have hothers : ∀ n, ∀ p ∈ (ltr.peers.erase remote.nodeName).lookup n,
          SharesNothing remote p := by
        intro n p hp
        rw [GoMap.lookup_erase_eq] at hp
        split at hp
        · simp at hp
        case isFalse hn => apply hshares n p hp hn
      obtain ⟨ltr', hlookup', hvtep', hexact', hother⟩ :=
        addPeer_follows hdeleted rfl hrest (AList.lookup_erase _ _) hothers
      refine ⟨ltr', hlookup', hvtep', hexact', ?_⟩
      intro node hnode
      rw [hother node hnode, GoMap.lookup_erase_eq, if_neg (Ne.symm hnode)]

/-- `RemovePeer` drops the entry of the peer. -/
theorem removePeer_follows (hlookup : nm.tenantRecords.lookup tenantID = some ltr)
    (h : Exact ltr.vtep ltr.peers nm.kernel) :
  Follows tenantID ltr (remote.nodeName = ·) (nm.removePeer .success tenantID remote).2
  := by
  rw [Manager.removePeer]
  split
  · apply follows_refl hlookup h
  rw [hlookup]
  dsimp only
  split
  · apply follows_refl hlookup h
  rw [Manager.getStoredPeer, hlookup, Option.bind_some]
  cases hprev : ltr.peers.lookup remote.nodeName with
  | none => apply follows_refl hlookup h
  | some prev =>
    obtain ⟨kernel', hrun, hexact⟩ := h.remove hprev
    dsimp only
    rw [hrun, h.named _ prev hprev]
    have hlookup' : ({ nm with kernel := kernel' } : Manager).tenantRecords.lookup tenantID
        = some ltr := hlookup
    apply follows_modifyPeers hlookup' hexact
    intro node hnode
    rw [GoMap.lookup_erase_eq, if_neg (Ne.symm hnode)]

/-- `FlushTenant` drops all entries of the tenant. -/
theorem flushTenant_follows (hlookup : nm.tenantRecords.lookup tenantID = some ltr)
    (h : Exact ltr.vtep ltr.peers nm.kernel) :
  Follows tenantID ltr (fun _ => True) (nm.flushTenant (fun _ => .success) tenantID).2
  := by
  rw [Manager.flushTenant, hlookup]
  dsimp only
  split
  · apply follows_refl hlookup h
  have hpairwise : (stored ltr.peers).Pairwise SharesNothing := by
    rw [stored, List.pairwise_map]
    apply List.Pairwise.imp_of_mem _ (List.nodupKeys_iff_pairwise.mp ltr.peers.nodupKeys)
    intro e e' he he' hne
    apply h.apart e.1 e'.1 e.2 (AList.mem_lookup_iff.mpr he) e'.2 (AList.mem_lookup_iff.mpr he')
      hne.symm
  have hfits : ∀ p ∈ stored ltr.peers, ∃ device subnet, Fits ltr.vtep device p subnet := by
    intro p hp
    obtain ⟨n, hp⟩ := mem_stored.mp hp
    apply h.fits n p hp
  obtain ⟨kernel', hrun, htables⟩ := removeAll_success hfits hpairwise h.tables
  rw [kernel_modifyPeers]
  have hrun' : (Manager.removeAll (fun _ => .success) ltr
      (ltr.peers.entries.map fun e => e.2)).run nm.kernel = .ok () kernel' := hrun
  rw [hrun']
  refine ⟨{ ltr with peers := ∅ }, ?_, rfl, ?_, fun _ hnot => absurd trivial hnot⟩
  · dsimp only
    rw [lookup_modifyPeers, hlookup]
    rfl
  · constructor
    · intro n p hp
      simp at hp
    · intro n p hp
      simp at hp
    · intro n n' p hp
      simp at hp
    · exact htables

/-- Every request keeps the tables exact, and is about the nodes it names. -/
theorem serve_follows (hlookup : nm.tenantRecords.lookup tenantID = some ltr)
    (h : Exact ltr.vtep ltr.peers nm.kernel) {request : Request}
    (hdistinct : request.Distinct tenantID nm) :
  Follows tenantID ltr (fun node => request.About node) (serve tenantID nm request).2
  := by
  cases request with
  | ensurePeer remote => apply ensurePeer_follows hlookup h hdistinct
  | removePeer remote => apply removePeer_follows hlookup h
  | flushTenant => apply flushTenant_follows hlookup h

/-! ### Equal peers -/

theorem ipEqual_trans {a b c : IP} (h : ipEqual a b = true) (h' : ipEqual b c = true) :
  ipEqual a c = true
  := by
  rw [ipEqual] at *
  by_cases ha : a = []
  · by_cases hb : b = []
    · simpa [ha, hb] using h'
    · simp [ha, hb] at h
  · by_cases hb : b = []
    · simp [ha, hb] at h
    · by_cases hc : c = []
      · simp [hb, hc] at h'
      · simp only [ha, hb, hc, or_self, if_false] at h h' ⊢
        apply equalIP_trans h h'

theorem cidrEqual_trans {a b c : Option IPNet} (h : cidrEqual a b = true)
    (h' : cidrEqual b c = true) :
  cidrEqual a c = true
  := by
  match a, b, c with
  | none, none, none => rfl
  | some a, some b, some c =>
    rw [cidrEqual, Bool.and_eq_true, beq_iff_eq] at *
    exact ⟨equalIP_trans h.1 h'.1, h.2.trans h'.2⟩

theorem remotePeersEqual_iff (a b : RemoteTenantInfra) :
  remotePeersEqual a b = true ↔ a.nodeName = b.nodeName ∧ a.vni = b.vni
    ∧ cidrEqual a.subnet b.subnet = true ∧ ipEqual a.nodeIP b.nodeIP = true
    ∧ ipEqual a.vtepIP b.vtepIP = true ∧ macEqual a.vtepMAC b.vtepMAC = true
  := by
  rw [remotePeersEqual]
  split_ifs with hname hsubnet hip hmac <;> grind

/-- Being equal for the manager is transitive. -/
theorem remotePeersEqual_trans {a b c : RemoteTenantInfra} (h : remotePeersEqual a b = true)
    (h' : remotePeersEqual b c = true) :
  remotePeersEqual a c = true
  := by
  rw [remotePeersEqual_iff] at *
  obtain ⟨hname, hvni, hsubnet, hnode, hvtep, hmac⟩ := h
  obtain ⟨hname', hvni', hsubnet', hnode', hvtep', hmac'⟩ := h'
  refine ⟨hname.trans hname', hvni.trans hvni', cidrEqual_trans hsubnet hsubnet',
    ipEqual_trans hnode hnode', ipEqual_trans hvtep hvtep', ?_⟩
  rw [eq_of_macEqual hmac]
  exact hmac'

theorem ipEqual_refl (a : IP) :
  ipEqual a a = true
  := by
  by_cases ha : a = [] <;> simp [ipEqual, equalIP, ha]

theorem remotePeersEqual_refl (a : RemoteTenantInfra) :
  remotePeersEqual a a = true
  := by
  rw [remotePeersEqual_iff]
  refine ⟨rfl, rfl, ?_, ipEqual_refl _, ipEqual_refl _, ?_⟩
  · cases a.subnet with
    | none => rfl
    | some n => simp [cidrEqual, equalIP]
  · by_cases hmac : a.vtepMAC = [] <;> simp [macEqual, hmac]

/-- The tenant has a record in which an equal peer is stored, so `EnsurePeer` skips the peer. -/
structure Skips (tenantID : String) (nm : Manager) (remote : RemoteTenantInfra) : Prop where
  name_ne : remote.nodeName ≠ ""
  managers_eq : nm.managers = true
  equal : ∃ prev ∈ nm.getStoredPeer tenantID remote.nodeName, remotePeersEqual prev remote = true

/-- A peer that is skipped changes nothing, whatever the calls would answer. -/
theorem Skips.ensurePeer (h : Skips tenantID nm remote) (o : Outcomes) :
  nm.ensurePeer o tenantID remote = (.ok (), nm)
  := by
  obtain ⟨prev, hprev, hequal⟩ := h.equal
  have hstored : nm.getStoredPeer tenantID remote.nodeName = some prev := hprev
  rw [Manager.getStoredPeer, Option.mem_def, Option.bind_eq_some_iff] at hprev
  obtain ⟨ltr, hlookup, -⟩ := hprev
  simp only [Manager.ensurePeer, if_neg h.name_ne, hlookup, h.managers_eq, Bool.true_eq_false,
    if_false, Manager.lookupPeerState, hstored, hequal]

/-- What is equal to a peer that is skipped is skipped. -/
theorem Skips.of_equal (h : Skips tenantID nm remote) {remote' : RemoteTenantInfra}
    (hequal : remotePeersEqual remote remote' = true) :
  Skips tenantID nm remote'
  := by
  obtain ⟨prev, hprev, hprev'⟩ := h.equal
  have hname := ((remotePeersEqual_iff _ _).mp hequal).1
  constructor
  · rw [← hname]
    exact h.name_ne
  · exact h.managers_eq
  · rw [← hname]
    exact ⟨prev, hprev, remotePeersEqual_trans hprev' hequal⟩

/-- A peer that was stored is skipped. -/
theorem skips_storePeerState (hname : remote.nodeName ≠ "") (hmanagers : nm.managers = true)
    (hlookup : (nm.tenantRecords.lookup tenantID).isSome) :
  Skips tenantID (nm.storePeerState tenantID remote) remote
  := by
  obtain ⟨ltr, hlookup⟩ := Option.isSome_iff_exists.mp hlookup
  constructor
  · exact hname
  · rw [Manager.storePeerState, Manager.modifyPeers, hlookup]
    exact hmanagers
  · refine ⟨remote, ?_, remotePeersEqual_refl remote⟩
    rw [Manager.getStoredPeer, Manager.storePeerState, lookup_modifyPeers, hlookup]
    simp

/-- A peer that was programmed is skipped from then on. -/
theorem addPeer_ok {o : Outcomes} (hname : remote.nodeName ≠ "") (hmanagers : nm.managers = true)
    (hlookup : (nm.tenantRecords.lookup tenantID).isSome)
    (hok : nm.addPeer o tenantID ltr remote = (.ok (), nm')) :
  Skips tenantID nm' remote
  := by
  rw [Manager.addPeer] at hok
  split at hok
  · simp at hok
  case h_2 kernel hrun =>
    obtain ⟨-, rfl⟩ := Prod.mk.inj hok
    apply skips_storePeerState hname
    · exact hmanagers
    · exact hlookup

/-- Once `EnsurePeer` has succeeded, it skips the peer. -/
theorem ensurePeer_ok {o : Outcomes} (hok : nm.ensurePeer o tenantID remote = (.ok (), nm')) :
  Skips tenantID nm' remote
  := by
  rw [Manager.ensurePeer] at hok
  split at hok
  · simp at hok
  case isFalse hname =>
    split at hok
    · simp at hok
    case h_2 ltr hlookup =>
      have hsome : (nm.tenantRecords.lookup tenantID).isSome := by
        rw [hlookup]
        rfl
      split at hok
      · simp at hok
      case isFalse hmanagers =>
        rw [Bool.not_eq_false] at hmanagers
        split at hok
        case h_1 prev hstate =>
          obtain ⟨-, rfl⟩ := Prod.mk.inj hok
          constructor
          · exact hname
          · exact hmanagers
          · rw [Manager.lookupPeerState] at hstate
            split at hstate
            · simp at hstate
            case h_2 prev' hprev =>
              exact ⟨prev', hprev, (Prod.mk.inj hstate).2⟩
        case h_2 hstate => apply addPeer_ok hname hmanagers hsome hok
        case h_3 prev hstate =>
          split at hok
          · simp at hok
          case h_2 kernel hrun =>
            apply addPeer_ok hname _ _ hok
            · simp only [Manager.deletePeerState, Manager.modifyPeers, hlookup]
              exact hmanagers
            · rw [Manager.deletePeerState, lookup_modifyPeers, hlookup]
              rfl

end

/-! ### Runs -/

/-- The tables of the tenant are exact. -/
def ExactTenant (tenantID : String) (nm : Manager) : Prop :=
  ∀ ltr ∈ nm.tenantRecords.lookup tenantID, Exact ltr.vtep ltr.peers nm.kernel

/-- Every request keeps the tables exact. -/
theorem serve_exact {tenantID : String} {nm : Manager} {request : Request}
    (h : ExactTenant tenantID nm) (hdistinct : request.Distinct tenantID nm) :
  ExactTenant tenantID (serve tenantID nm request).2
  := by
  cases hlookup : nm.tenantRecords.lookup tenantID with
  | none =>
    -- without a record the calls do nothing
    have hsame : (serve tenantID nm request).2 = nm := by
      cases request with
      | ensurePeer remote =>
        simp only [serve, Request.call, step, Manager.ensurePeer, hlookup]
        split <;> rfl
      | removePeer remote =>
        simp only [serve, Request.call, step, Manager.removePeer, hlookup]
        split <;> rfl
      | flushTenant => simp only [serve, Request.call, step, Manager.flushTenant, hlookup]
    rw [hsame]
    exact h
  | some ltr =>
    obtain ⟨ltr', hlookup', -, hexact, -⟩ := serve_follows hlookup (h ltr hlookup) hdistinct
    intro r hr
    obtain rfl : ltr' = r := Option.some.inj (hlookup'.symm.trans hr)
    exact hexact

/-- Exact tables have the entries of the peers and no other of the tenant. -/
theorem ExactTenant.precise {tenantID : String} {nm : Manager} (h : ExactTenant tenantID nm) :
  Precise tenantID nm
  := by
  constructor
  · intro ltr hltr
    apply (h ltr hltr).tables
  · intro request hdistinct node hnode ltr hltr
    obtain ⟨ltr', hlookup', hvtep, hexact, hother⟩ := serve_follows hltr (h ltr hltr) hdistinct
    refine ⟨ltr', hlookup', hvtep, hother node hnode, ?_⟩
    intro peer hpeer
    use (h ltr hltr).programmed hpeer
    rw [← hother node hnode] at hpeer
    apply hexact.programmed hpeer
  · intro remote remote' nm' hok hequal o
    apply ((ensurePeer_ok hok).of_equal hequal).ensurePeer

/-- After every run of requests on empty tables in which no call fails and different nodes have
nothing in common, the tables are those of the stored peers. -/
theorem after_precise (tenantID : String) (nm : Manager)
    (hinit : ∀ ltr ∈ nm.tenantRecords.lookup tenantID, ltr.peers = ∅)
    (hkernel : nm.kernel = ⟨∅, ∅, ∅⟩) (requests : List Request)
    (hdistinct : Machine.Meets (serve tenantID) (Request.Distinct tenantID) nm requests) :
  Precise tenantID (Machine.after (serve tenantID) nm requests)
  := by
  apply ExactTenant.precise
  apply Machine.after_of_meets _ _ hdistinct
  · intro s request hs hrequest
    apply serve_exact hs hrequest
  · intro ltr hltr
    rw [hinit ltr hltr, hkernel]
    constructor
    · intro n p hp
      simp at hp
    · intro n p hp
      simp at hp
    · intro n n' p hp
      simp at hp
    · have hempty : entries ltr.vtep (stored ∅) = ∅ := by
        simp [entries, stored]
      rw [hempty]
      exact Netlink.exactly_empty

theorem after_precise_changing :
  Precise "red" (Machine.after (serve "red") (redManager ⟨∅, ∅, ∅⟩)
    [.ensurePeer (redPeer "b" 2), .ensurePeer (redPeer "c" 3),
      .ensurePeer { redPeer "b" 4 with vtepMAC := (redPeer "b" 2).vtepMAC },
      .removePeer (redPeer "c" 5), .ensurePeer (redPeer "d" 3), .flushTenant,
      .ensurePeer (redPeer "c" 2)])
  := by
  apply after_precise
  · intro ltr hltr
    obtain rfl : _ = ltr := Option.some.inj hltr
    rfl
  · rfl
  · decide +kernel

end Peers
