import Misokube.Nmanager.Programmed

/-!
# Peers without failures

If all calls of the managers succeed, then `EnsurePeer` stores a complete peer and `RemovePeer`
forgets it (`ensurePeer_replaces`, `removePeer_replaces`), and nothing else changes in the records.
-/

namespace Peers

open Net

/-- The addresses are in 16-byte form, and nothing is missing. -/
structure Complete (r : RemoteTenantInfra) : Prop where
  nodeIP : r.nodeIP.length = 16
  vtepIP : r.vtepIP.length = 16
  vtepMAC : r.vtepMAC ≠ []
  subnet : ∃ n, r.subnet = some n ∧ n.ip.length = n.mask.length

section

variable {a b : RemoteTenantInfra}

theorem Complete.vtepIP_ne (h : Complete a) :
  a.vtepIP ≠ []
  := by
  intro hnil
  have hlength := h.vtepIP
  simp [hnil] at hlength

theorem eq_of_equalIP {x y : IP} (hlength : x.length = y.length) (h : equalIP x y = true) :
  x = y
  := by
  rw [equalIP, if_pos hlength] at h
  apply eq_of_beq h

theorem eq_of_ipEqual {x y : IP} (hlength : x.length = y.length) (h : ipEqual x y = true) :
  x = y
  := by
  rw [ipEqual] at h
  split at h
  · obtain ⟨rfl, rfl⟩ := of_decide_eq_true h
    rfl
  · apply eq_of_equalIP hlength h

theorem eq_of_cidrEqual {m n : IPNet} (hm : m.ip.length = m.mask.length)
    (hn : n.ip.length = n.mask.length) (h : cidrEqual (some m) (some n) = true) :
  m = n
  := by
  rw [cidrEqual, Bool.and_eq_true, beq_iff_eq] at h
  obtain ⟨hip, hmask⟩ := h
  rw [IPNet.mk.injEq]
  use eq_of_equalIP (by rw [hm, hn, hmask]) hip

/-- Complete peers that are equal as peers are the same. -/
theorem eq_of_remotePeersEqual (ha : Complete a) (hb : Complete b)
    (h : remotePeersEqual a b = true) :
  a = b
  := by
  obtain ⟨m, hm, hlm⟩ := ha.subnet
  obtain ⟨n, hn, hln⟩ := hb.subnet
  rw [remotePeersEqual] at h
  split_ifs at h with hname hsubnet hip hmac
  rw [not_or, not_not, not_not] at hname
  rw [not_or, Bool.not_eq_false, Bool.not_eq_false] at hip
  rw [Bool.not_eq_false, hm, hn] at hsubnet
  rw [Bool.not_eq_false] at hmac
  rw [RemoteTenantInfra.mk.injEq]
  refine ⟨hname.1, ?_, ?_, eq_of_macEqual hmac, ?_, hname.2⟩
  · apply eq_of_ipEqual (ha.nodeIP.trans hb.nodeIP.symm) hip.1
  · apply eq_of_ipEqual (ha.vtepIP.trans hb.vtepIP.symm) hip.2
  · rw [hm, hn, eq_of_cidrEqual hlm hln hsubnet]

end

/-! ### Entries -/

section

variable {ltr : Record} {device : String} {r : RemoteTenantInfra} {kernel : Kernel}

theorem ensurePeerEntries_success (hvtep : ltr.vtep = some device) (hdevice : device ≠ "")
    (hr : Complete r) (kernel : Kernel) :
  ∃ kernel', (ensurePeerEntries .success ltr r).run kernel = .ok () kernel'
  := by
  obtain ⟨n, hn, -⟩ := hr.subnet
  rw [ensurePeerEntries, hvtep, hn]
  simp [hr.vtepIP_ne, hr.vtepMAC, ARP.add, FDB.add, Route.update, Outcomes.success, hdevice]

theorem removePeerEntries_success (hvtep : ltr.vtep = some device) (hdevice : device ≠ "")
    (hr : Complete r) (kernel : Kernel) :
  ∃ kernel', (removePeerEntries .success ltr r).run kernel = .ok () kernel'
  := by
  obtain ⟨n, hn, -⟩ := hr.subnet
  rw [removePeerEntries, hvtep, hn]
  simp [hr.vtepIP_ne, hr.vtepMAC, ARP.delete, FDB.delete, Route.delete, Outcomes.success, hdevice]

end

/-! ### Records -/

/-- The managers are set, every tenant has a VTEP, and the peers that are stored for the node are
complete. -/
structure Healthy (node : String) (nm : Manager) : Prop where
  managers : nm.managers = true
  vtep : ∀ tenantID, ∀ ltr ∈ nm.tenantRecords.lookup tenantID, ∃ device ∈ ltr.vtep, device ≠ ""
  peers : ∀ tenantID, ∀ ltr ∈ nm.tenantRecords.lookup tenantID, ∀ p ∈ ltr.peers.lookup node,
    p.nodeName = node ∧ Complete p

/-- The peer stored for a tenant and node is replaced, and the other records are unchanged. -/
structure Replaces (tenantID node : String) (peer : Option RemoteTenantInfra) (nm nm' : Manager) :
    Prop where
  managers : nm'.managers = nm.managers
  other : ∀ t, t ≠ tenantID → nm'.tenantRecords.lookup t = nm.tenantRecords.lookup t
  absent : nm.tenantRecords.lookup tenantID = none → nm'.tenantRecords.lookup tenantID = none
  record : ∀ ltr ∈ nm.tenantRecords.lookup tenantID, ∃ peers,
    nm'.tenantRecords.lookup tenantID = some { ltr with peers := peers } ∧ peers.lookup node = peer

section

variable {tenantID node : String} {peer : Option RemoteTenantInfra} {nm nm' nm'' : Manager}

theorem getStoredPeer_of_lookup {ltr : Record}
    (hltr : nm.tenantRecords.lookup tenantID = some ltr) :
  nm.getStoredPeer tenantID node = ltr.peers.lookup node
  := by
  rw [Manager.getStoredPeer, hltr, Option.bind_some]

/-- The tenants with a record stay the same. -/
theorem Replaces.isSome_lookup (h : Replaces tenantID node peer nm nm') (t : String) :
  (nm'.tenantRecords.lookup t).isSome = (nm.tenantRecords.lookup t).isSome
  := by
  by_cases ht : t = tenantID
  · subst ht
    cases hltr : nm.tenantRecords.lookup t with
    | none => rw [h.absent hltr]
    | some ltr =>
      obtain ⟨peers, hpeers, -⟩ := h.record ltr hltr
      rw [hpeers]
      rfl
  · rw [h.other t ht]

theorem Replaces.getStoredPeer (h : Replaces tenantID node peer nm nm') (t : String) :
  nm'.getStoredPeer t node
    = if t = tenantID ∧ (nm.tenantRecords.lookup t).isSome then peer else nm.getStoredPeer t node
  := by
  rw [Manager.getStoredPeer, Manager.getStoredPeer]
  by_cases ht : t = tenantID
  · subst ht
    cases hltr : nm.tenantRecords.lookup t with
    | none =>
      rw [h.absent hltr]
      simp
    | some ltr =>
      obtain ⟨peers, hpeers, hnode⟩ := h.record ltr hltr
      rw [hpeers]
      simpa using hnode
  · rw [h.other t ht, if_neg (by simp [ht])]

theorem Replaces.healthy (h : Replaces tenantID node peer nm nm') (hnm : Healthy node nm)
    (hpeer : ∀ p ∈ peer, p.nodeName = node ∧ Complete p) :
  Healthy node nm'
  := by
  -- a record after is one before, with the peer of the node perhaps replaced
  have hbefore : ∀ t, ∀ ltr' ∈ nm'.tenantRecords.lookup t, ∃ ltr ∈ nm.tenantRecords.lookup t,
      ltr'.vtep = ltr.vtep ∧ (ltr'.peers.lookup node = ltr.peers.lookup node
        ∨ ltr'.peers.lookup node = peer) := by
    intro t ltr' hltr'
    by_cases ht : t = tenantID
    · subst ht
      cases hltr : nm.tenantRecords.lookup t with
      | none =>
        rw [h.absent hltr] at hltr'
        simp at hltr'
      | some ltr =>
        obtain ⟨peers, hpeers, hnode⟩ := h.record ltr hltr
        rw [hpeers] at hltr'
        cases hltr'
        exact ⟨ltr, rfl, rfl, .inr hnode⟩
    · rw [h.other t ht] at hltr'
      exact ⟨ltr', hltr', rfl, .inl rfl⟩
  constructor
  · rw [h.managers]
    exact hnm.managers
  · intro t ltr' hltr'
    obtain ⟨ltr, hltr, hvtep, -⟩ := hbefore t ltr' hltr'
    rw [hvtep]
    apply hnm.vtep t ltr hltr
  · intro t ltr' hltr' p hp
    obtain ⟨ltr, hltr, -, hsame | hnode⟩ := hbefore t ltr' hltr'
    · rw [hsame] at hp
      apply hnm.peers t ltr hltr p hp
    · rw [hnode] at hp
      apply hpeer p hp

theorem Replaces.trans {peer' : Option RemoteTenantInfra} (h : Replaces tenantID node peer nm nm')
    (h' : Replaces tenantID node peer' nm' nm'') :
  Replaces tenantID node peer' nm nm''
  := by
  constructor
  · rw [h'.managers, h.managers]
  · intro t ht
    rw [h'.other t ht, h.other t ht]
  · intro hnone
    apply h'.absent (h.absent hnone)
  · intro ltr hltr
    obtain ⟨peers, hpeers, -⟩ := h.record ltr hltr
    apply h'.record _ hpeers

/-- Nothing changes if the peer is stored already, or the tenant has no record. -/
theorem Replaces.refl
    (h : ∀ ltr ∈ nm.tenantRecords.lookup tenantID, ltr.peers.lookup node = peer) :
  Replaces tenantID node peer nm nm
  := by
  constructor
  · rfl
  · intro t _
    rfl
  · exact id
  · intro ltr hltr
    use ltr.peers, hltr, h ltr hltr

theorem modifyPeers_replaces (kernel : Kernel)
    {f : GoMap String RemoteTenantInfra → GoMap String RemoteTenantInfra}
    (hf : ∀ peers, (f peers).lookup node = peer) :
  Replaces tenantID node peer nm (Manager.modifyPeers { nm with kernel := kernel } tenantID f)
  := by
  constructor
  · rw [Manager.modifyPeers]
    split <;> rfl
  · intro t ht
    rw [Manager.modifyPeers]
    split
    · rfl
    · apply AList.lookup_insert_ne ht
  · intro hnone
    rw [lookup_modifyPeers, hnone]
    rfl
  · intro ltr hltr
    use f ltr.peers
    rw [lookup_modifyPeers, hltr]
    exact ⟨rfl, hf ltr.peers⟩

/-- A peer that is complete is stored. -/
theorem addPeer_replaces {ltr : Record} {device : String} {r : RemoteTenantInfra}
    (hvtep : ltr.vtep = some device) (hdevice : device ≠ "") (hr : Complete r) :
  Replaces tenantID r.nodeName (some r) nm (nm.addPeer .success tenantID ltr r).2
  := by
  obtain ⟨kernel', hrun⟩ := ensurePeerEntries_success hvtep hdevice hr nm.kernel
  rw [Manager.addPeer, hrun]
  apply modifyPeers_replaces
  intro peers
  apply AList.lookup_insert

/-- The entries of a stored peer are deleted, and the peer is forgotten. -/
theorem deletePeerState_replaces (nm : Manager) (tenantID : String) {ltr : Record}
    {device : String} {r : RemoteTenantInfra} (hvtep : ltr.vtep = some device)
    (hdevice : device ≠ "") (hr : Complete r) :
  ∃ kernel, (removePeerEntries .success ltr r).run nm.kernel = .ok () kernel
    ∧ Replaces tenantID r.nodeName none nm
        (Manager.deletePeerState { nm with kernel := kernel } tenantID r.nodeName)
  := by
  obtain ⟨kernel, hrun⟩ := removePeerEntries_success hvtep hdevice hr nm.kernel
  use kernel, hrun
  apply modifyPeers_replaces
  intro peers
  apply AList.lookup_erase

theorem ensurePeer_replaces {r : RemoteTenantInfra} (hnm : Healthy r.nodeName nm)
    (hname : r.nodeName ≠ "") (hr : Complete r) :
  Replaces tenantID r.nodeName (some r) nm (nm.ensurePeer .success tenantID r).2
  := by
  rw [Manager.ensurePeer, if_neg hname]
  split
  case h_1 hnone =>
    apply Replaces.refl
    simp [hnone]
  case h_2 ltr hltr =>
    obtain ⟨device, hvtep, hdevice⟩ := hnm.vtep tenantID ltr hltr
    rw [if_neg (by simp [hnm.managers]), Manager.lookupPeerState, getStoredPeer_of_lookup hltr]
    cases hprev : ltr.peers.lookup r.nodeName with
    | none => apply addPeer_replaces hvtep hdevice hr
    | some prev =>
      obtain ⟨hprevname, hprevr⟩ := hnm.peers tenantID ltr hltr prev hprev
      dsimp only
      cases hequal : remotePeersEqual prev r with
      | true =>
        apply Replaces.refl
        rintro ltr' hltr'
        obtain rfl : ltr = ltr' := Option.some.inj (hltr.symm.trans hltr')
        rw [hprev, eq_of_remotePeersEqual hprevr hr hequal]
      | false =>
        obtain ⟨kernel, hrun, hdelete⟩ :=
          deletePeerState_replaces nm tenantID hvtep hdevice hprevr
        dsimp only
        rw [hrun]
        rw [hprevname] at hdelete ⊢
        apply hdelete.trans
        apply addPeer_replaces hvtep hdevice hr

theorem removePeer_replaces {r : RemoteTenantInfra} (hnm : Healthy r.nodeName nm)
    (hname : r.nodeName ≠ "") :
  Replaces tenantID r.nodeName none nm (nm.removePeer .success tenantID r).2
  := by
  rw [Manager.removePeer, if_neg hname]
  split
  case h_1 hnone =>
    apply Replaces.refl
    simp [hnone]
  case h_2 ltr hltr =>
    obtain ⟨device, hvtep, hdevice⟩ := hnm.vtep tenantID ltr hltr
    rw [if_neg (by simp [hnm.managers]), getStoredPeer_of_lookup hltr]
    cases hstored : ltr.peers.lookup r.nodeName with
    | none =>
      apply Replaces.refl
      rintro ltr' hltr'
      obtain rfl : ltr = ltr' := Option.some.inj (hltr.symm.trans hltr')
      exact hstored
    | some stored =>
      obtain ⟨hname, hcomplete⟩ := hnm.peers tenantID ltr hltr stored hstored
      obtain ⟨kernel, hrun, hdelete⟩ :=
        deletePeerState_replaces nm tenantID hvtep hdevice hcomplete
      dsimp only
      rw [hrun]
      rw [hname] at hdelete ⊢
      exact hdelete

/-! ### Other nodes -/

/-- A change of the peers of a tenant that leaves those of a node. -/
theorem getStoredPeer_modifyPeers (nm : Manager) (kernel : Kernel) (tenantID t : String)
    {f : GoMap String RemoteTenantInfra → GoMap String RemoteTenantInfra}
    (hf : ∀ peers, (f peers).lookup node = peers.lookup node) :
  (Manager.modifyPeers { nm with kernel := kernel } tenantID f).getStoredPeer t node
    = nm.getStoredPeer t node
  := by
  rw [Manager.getStoredPeer, Manager.getStoredPeer]
  by_cases ht : t = tenantID
  · subst ht
    rw [lookup_modifyPeers]
    cases nm.tenantRecords.lookup t with
    | none => rfl
    | some ltr => apply hf
  · rw [Manager.modifyPeers]
    split
    · rfl
    · dsimp only
      rw [AList.lookup_insert_ne ht]

theorem addPeer_other (nm : Manager) (o : Outcomes) (t : String) {ltr : Record}
    {r : RemoteTenantInfra} (hne : node ≠ r.nodeName) :
  (nm.addPeer o tenantID ltr r).2.getStoredPeer t node = nm.getStoredPeer t node
  := by
  rw [Manager.addPeer]
  split
  · rfl
  · apply getStoredPeer_modifyPeers
    intro peers
    apply AList.lookup_insert_ne hne

/-- `EnsurePeer` leaves the peers of other nodes. -/
theorem ensurePeer_other (o : Outcomes) (t : String) {r : RemoteTenantInfra}
    (hnm : Healthy r.nodeName nm) (hne : node ≠ r.nodeName) :
  (nm.ensurePeer o tenantID r).2.getStoredPeer t node = nm.getStoredPeer t node
  := by
  rw [Manager.ensurePeer]
  split
  · rfl
  split
  · rfl
  case h_2 ltr hltr =>
    split
    · rfl
    rw [Manager.lookupPeerState, getStoredPeer_of_lookup hltr]
    cases hprev : ltr.peers.lookup r.nodeName with
    | none => apply addPeer_other nm o t hne
    | some prev =>
      dsimp only
      cases remotePeersEqual prev r with
      | true => rfl
      | false =>
        dsimp only
        split
        · rfl
        · rw [addPeer_other _ o t hne, (hnm.peers tenantID ltr hltr prev hprev).1]
          apply getStoredPeer_modifyPeers
          intro peers
          apply AList.lookup_erase_ne hne

/-- `RemovePeer` leaves the peers of other nodes. -/
theorem removePeer_other (o : Outcomes) (t : String) {r : RemoteTenantInfra}
    (hnm : Healthy r.nodeName nm) (hne : node ≠ r.nodeName) :
  (nm.removePeer o tenantID r).2.getStoredPeer t node = nm.getStoredPeer t node
  := by
  rw [Manager.removePeer]
  split
  · rfl
  split
  · rfl
  case h_2 ltr hltr =>
    split
    · rfl
    rw [getStoredPeer_of_lookup hltr]
    cases hstored : ltr.peers.lookup r.nodeName with
    | none => rfl
    | some stored =>
      dsimp only
      split
      · rfl
      · rw [(hnm.peers tenantID ltr hltr stored hstored).1]
        apply getStoredPeer_modifyPeers
        intro peers
        apply AList.lookup_erase_ne hne

end

end Peers
