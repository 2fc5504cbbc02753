import Misokube.Lib.Machine
import Misokube.Nmanager.Peers

/-!
# Stored peers are programmed

A peer that is stored for a tenant has its ARP entry, its forwarding entry and its route on the
VTEP of the tenant, so that `EnsurePeer` may skip a peer that is stored already (`Sound`).  This
holds for the runs in which no removal of a peer fails after its first step, no two nodes have a
VTEP address, a VTEP hardware address or a subnet in common, and no other device has the route.

In general it does not hold: a removal that fails after the ARP entry is deleted leaves the peer
stored.
-/

namespace Peers

open Net Command

/-- The entry of a peer on a device. -/
def RemoteTenantInfra.entry (r : RemoteTenantInfra) (device : String) (subnet : IPNet) :
    Netlink.Entry IP HardwareAddr (IP × ℕ × ℕ) :=
  ⟨device, kernelIP r.vtepIP, r.vtepMAC, kernelRemote r.nodeIP, kernelDst subnet⟩

/-- The peer has its ARP entry, forwarding entry and route on the VTEP of the tenant. -/
def Programmed (kernel : Kernel) (ltr : Record) (peer : RemoteTenantInfra) : Prop :=
  ∃ device ∈ ltr.vtep, ∃ subnet ∈ peer.subnet, Netlink.Has kernel (peer.entry device subnet)

instance (kernel : Kernel) (ltr : Record) (peer : RemoteTenantInfra) :
    Decidable (Programmed kernel ltr peer) :=
  inferInstanceAs (Decidable (∃ device ∈ ltr.vtep, ∃ subnet ∈ peer.subnet,
    Netlink.Has kernel (peer.entry device subnet)))

/-- The peers that are stored for the tenant are programmed, and so are those `EnsurePeer` skips. -/
structure Sound (tenantID : String) (nm : Manager) : Prop where
  stored : ∀ ltr ∈ nm.tenantRecords.lookup tenantID, ∀ node, ∀ peer ∈ ltr.peers.lookup node,
    Programmed nm.kernel ltr peer
  skipped : ∀ ltr ∈ nm.tenantRecords.lookup tenantID, ∀ remote,
    (nm.lookupPeerState tenantID remote.nodeName remote).2 = true →
      Programmed nm.kernel ltr remote

/-! ### Conditions -/

/-- The peers have neither VTEP address, VTEP hardware address nor subnet in common. -/
def SharesNothing (a b : RemoteTenantInfra) : Prop :=
  kernelIP a.vtepIP ≠ kernelIP b.vtepIP ∧ a.vtepMAC ≠ b.vtepMAC
    ∧ a.subnet.map kernelDst ≠ b.subnet.map kernelDst

instance (a b : RemoteTenantInfra) : Decidable (SharesNothing a b) :=
  inferInstanceAs (Decidable (_ ∧ _ ∧ _))

/-- The kernel routes the subnet of the peer, if at all, on the VTEP of the tenant. -/
def RoutedHere (kernel : Kernel) (ltr : Record) (remote : RemoteTenantInfra) : Prop :=
  ∀ device ∈ ltr.vtep, ∀ subnet ∈ remote.subnet,
    ∀ r ∈ kernel.routes.lookup (kernelDst subnet), r.1 = device

instance (kernel : Kernel) (ltr : Record) (remote : RemoteTenantInfra) :
    Decidable (RoutedHere kernel ltr remote) :=
  inferInstanceAs (Decidable (∀ device ∈ ltr.vtep, ∀ subnet ∈ remote.subnet,
    ∀ r ∈ kernel.routes.lookup (kernelDst subnet), r.1 = device))

/-- A removal that begins is completed. -/
def Outcomes.Completes (o : Outcomes) : Prop :=
  o.arpDelete = true → o.fdbDelete = true ∧ o.routeDelete = true

instance (o : Outcomes) : Decidable o.Completes :=
  inferInstanceAs (Decidable (_ → _))

/-- The call completes the removal it begins, and does not mix up the peer with that of another
node or with a route on another device. -/
def Call.Clean (tenantID : String) (nm : Manager) : Call → Prop
  | .ensurePeer remote o => o.Completes ∧ ∀ ltr ∈ nm.tenantRecords.lookup tenantID,
      (∀ e ∈ ltr.peers.entries, e.1 ≠ remote.nodeName → SharesNothing remote e.2)
        ∧ RoutedHere nm.kernel ltr remote
  | .removePeer _ o => o.Completes
  | .flushTenant _ => True

instance (tenantID : String) (nm : Manager) : ∀ c : Call, Decidable (c.Clean tenantID nm)
  | .ensurePeer remote o => inferInstanceAs (Decidable (o.Completes ∧
      ∀ ltr ∈ nm.tenantRecords.lookup tenantID,
        (∀ e ∈ ltr.peers.entries, e.1 ≠ remote.nodeName → SharesNothing remote e.2)
          ∧ RoutedHere nm.kernel ltr remote))
  | .removePeer _ o => inferInstanceAs (Decidable o.Completes)
  | .flushTenant _ => inferInstanceAs (Decidable True)

/-! ### Entries of a peer -/

section

variable {o : Outcomes} {ltr : Record} {remote peer : RemoteTenantInfra} {kernel kernel' : Kernel}

theorem SharesNothing.symm {a b : RemoteTenantInfra} (h : SharesNothing a b) :
  SharesNothing b a
  := ⟨h.1.symm, h.2.1.symm, h.2.2.symm⟩

/-- Adding the entries of a peer changes only them. -/
theorem ensurePeerEntries_along {device : String} {subnet : IPNet} (hvtep : ltr.vtep = some device)
    (hsubnet : remote.subnet = some subnet) :
  Along (Netlink.OnlyAt (remote.entry device subnet)) (ensurePeerEntries o ltr remote)
  := by
  rw [ensurePeerEntries, hvtep, hsubnet]
  dsimp only
  split
  · apply Along.throw fun _ => Netlink.OnlyAt.refl
  apply Along.bind
  · rw [ARP.add]
    split
    · apply Along.throw fun _ => Netlink.OnlyAt.refl
    · apply Along.modify fun _ => Netlink.neighSet_onlyAt
  intro _
  apply Along.bind
  · rw [FDB.add]
    split
    · apply Along.throw fun _ => Netlink.OnlyAt.refl
    · apply Along.modify fun _ => Netlink.fdbSet_onlyAt
  intro _
  rw [Route.update]
  split
  · apply Along.throw fun _ => Netlink.OnlyAt.refl
  · apply Along.modify fun _ => Netlink.routeReplace_onlyAt

/-- A relation that the deletion of each entry of a peer keeps holds along their removal. -/
theorem removePeerEntries_along {R : Kernel → Kernel → Prop} [IsTrans Kernel R]
    (hrefl : ∀ τ, R τ τ)
    (h : ∀ device subnet, ltr.vtep = some device → remote.subnet = some subnet → ∀ τ,
      R τ (Netlink.neighDel device (kernelIP remote.vtepIP) τ)
        ∧ R τ (Netlink.fdbDel device remote.vtepMAC (kernelRemote remote.nodeIP) τ)
        ∧ R τ (Netlink.routeDel device (kernelDst subnet) (kernelIP remote.vtepIP) τ)) :
  Along R (removePeerEntries o ltr remote)
  := by
  rw [removePeerEntries]
  split
  · apply Along.throw hrefl
  · apply Along.throw hrefl
  case h_3 device subnet hvtep hsubnet =>
    have hdel := h device subnet hvtep hsubnet
    split
    · apply Along.throw hrefl
    apply Along.bind
    · rw [ARP.delete]
      split
      · apply Along.throw hrefl
      · apply Along.modify fun τ => (hdel τ).1
    intro _
    apply Along.bind
    · rw [FDB.delete]
      split
      · apply Along.throw hrefl
      · apply Along.modify fun τ => (hdel τ).2.1
    intro _
    rw [Route.delete]
    split
    · apply Along.throw hrefl
    · apply Along.modify fun τ => (hdel τ).2.2

/-- Deleting the entries of a peer changes only them. -/
theorem removePeerEntries_onlyAt {device : String} {subnet : IPNet}
    (hvtep : ltr.vtep = some device) (hsubnet : remote.subnet = some subnet) :
  Along (Netlink.OnlyAt (remote.entry device subnet)) (removePeerEntries o ltr remote)
  := by
  apply removePeerEntries_along (R := Netlink.OnlyAt _) fun _ => Netlink.OnlyAt.refl
  intro device' subnet' hvtep' hsubnet' τ
  rw [hvtep, Option.some.injEq] at hvtep'
  rw [hsubnet, Option.some.injEq] at hsubnet'
  subst hvtep' hsubnet'
  exact ⟨Netlink.neighDel_onlyAt, Netlink.fdbDel_onlyAt, Netlink.routeDel_onlyAt⟩

theorem removePeerEntries_noNewRoute :
  Along Netlink.NoNewRoute (removePeerEntries o ltr remote)
  := by
  apply removePeerEntries_along fun τ dst r hr => hr
  intro device subnet _ _ τ
  refine ⟨fun dst r hr => hr, ?_, Netlink.routeDel_noNewRoute _ _ _⟩
  intro dst r hr
  rw [Netlink.fdbDel_routes] at hr
  exact hr

/-- A removal that completes what it begins does nothing if it fails. -/
theorem removePeerEntries_error {e : Error} (ho : o.Completes)
    (hrun : (removePeerEntries o ltr remote).run kernel = .error e kernel') :
  kernel' = kernel
  := by
  rw [removePeerEntries] at hrun
  split at hrun
  · cases hrun
    rfl
  · cases hrun
    rfl
  split at hrun
  · cases hrun
    rfl
  simp only [EStateM.run_bind, ARP.delete, run_guarded] at hrun
  split at hrun
  case h_2 e' _ hfail =>
    split_ifs at hfail
    cases hfail
    cases hrun
    rfl
  case h_1 hfirst =>
    -- the first step succeeds, so the others do
    split_ifs at hfirst with h
    push Not at h
    obtain ⟨hfdb, hroute⟩ := ho (by simpa using h.2.2)
    simp only [FDB.delete, Route.delete, run_guarded, hfdb, hroute, h.1] at hrun
    simp at hrun

/-- Once the entries of a peer are added, it is programmed. -/
theorem ensurePeerEntries_ok (hroute : RoutedHere kernel ltr remote)
    (hrun : (ensurePeerEntries o ltr remote).run kernel = .ok () kernel') :
  Programmed kernel' ltr remote
  := by
  rw [ensurePeerEntries] at hrun
  split at hrun
  · cases hrun
  · cases hrun
  case h_3 device subnet hvtep hsubnet =>
    use device, hvtep, subnet, hsubnet
    have hset := Netlink.has_enter (e := remote.entry device subnet) (τ := kernel)
      (hroute device hvtep subnet hsubnet)
    split at hrun
    · cases hrun
    simp only [EStateM.run_bind, ARP.add, FDB.add, Route.update, run_guarded] at hrun
    split_ifs at hrun
    cases hrun
    exact hset

/-- A programmed peer stays programmed while a command changes only the entries of a peer it
shares nothing with. -/
theorem Programmed.of_along {x : Peers.Command Unit} (h : Programmed kernel ltr peer)
    (hshares : SharesNothing remote peer)
    (halong : ∀ device subnet, ltr.vtep = some device → remote.subnet = some subnet →
      Along (Netlink.OnlyAt (remote.entry device subnet)) x)
    (hnone : remote.subnet = none → final x kernel = kernel) :
  Programmed (final x kernel) ltr peer
  := by
  obtain ⟨device, hdevice, subnet, hsubnet, hhas⟩ := h
  cases hremote : remote.subnet with
  | none =>
    rw [hnone hremote]
    exact ⟨device, hdevice, subnet, hsubnet, hhas⟩
  | some dst =>
    use device, hdevice, subnet, hsubnet
    apply hhas.of_onlyAt _ ((halong device dst hdevice hremote).rel kernel)
    rw [SharesNothing, hremote, Option.mem_def.mp hsubnet] at hshares
    refine ⟨hshares.1, hshares.2.1, ?_⟩
    intro heq
    apply hshares.2.2
    rw [Option.map_some, Option.map_some, Option.some.injEq]
    exact heq

theorem Programmed.ensurePeerEntries (h : Programmed kernel ltr peer)
    (hshares : SharesNothing remote peer) :
  Programmed (final (ensurePeerEntries o ltr remote) kernel) ltr peer
  := by
  apply h.of_along hshares
  · intro device subnet
    apply ensurePeerEntries_along
  · intro hnone
    rw [Peers.ensurePeerEntries, hnone]
    cases ltr.vtep <;> rfl

theorem Programmed.removePeerEntries (h : Programmed kernel ltr peer)
    (hshares : SharesNothing remote peer) :
  Programmed (final (removePeerEntries o ltr remote) kernel) ltr peer
  := by
  apply h.of_along hshares
  · intro device subnet
    apply removePeerEntries_onlyAt
  · intro hnone
    rw [Peers.removePeerEntries, hnone]
    cases ltr.vtep <;> rfl

theorem RoutedHere.removePeerEntries (h : RoutedHere kernel ltr remote) :
  RoutedHere (final (removePeerEntries o ltr peer) kernel) ltr remote
  := by
  intro device hdevice subnet hsubnet r hr
  apply h device hdevice subnet hsubnet
  apply removePeerEntries_noNewRoute.rel kernel _ r hr

/-! ### Peers of a record -/

/-- The peers are stored by the names of their nodes, are programmed, and share nothing. -/
def Wired (kernel : Kernel) (ltr : Record) (peers : GoMap String RemoteTenantInfra) : Prop :=
  ∀ node, ∀ p ∈ peers.lookup node, p.nodeName = node ∧ Programmed kernel ltr p
    ∧ ∀ node', ∀ p' ∈ peers.lookup node', node' ≠ node → SharesNothing p p'

variable {peers : GoMap String RemoteTenantInfra} {node : String}

theorem Wired.erase (h : Wired kernel ltr peers) (node : String) :
  Wired kernel ltr (peers.erase node)
  := by
  have hsub : ∀ n, ∀ p ∈ (peers.erase node).lookup n, p ∈ peers.lookup n := by
    intro n p hp
    rw [GoMap.lookup_erase_eq] at hp
    split at hp
    · simp at hp
    · exact hp
  intro n p hp
  obtain ⟨hname, hprogrammed, hshares⟩ := h n p (hsub n p hp)
  use hname, hprogrammed
  intro n' p' hp'
  apply hshares n' p' (hsub n' p' hp')

/-- A change of the kernel that keeps the peers programmed keeps them wired. -/
theorem Wired.of_programmed (h : Wired kernel ltr peers)
    (hkeeps : ∀ n, ∀ p ∈ peers.lookup n, Programmed kernel ltr p → Programmed kernel' ltr p) :
  Wired kernel' ltr peers
  := by
  intro n p hp
  obtain ⟨hname, hprogrammed, hshares⟩ := h n p hp
  exact ⟨hname, hkeeps n p hp hprogrammed, hshares⟩

theorem Wired.insert (h : Wired kernel ltr peers) (hremote : Programmed kernel ltr remote)
    (hshares : ∀ n, ∀ p ∈ peers.lookup n, n ≠ remote.nodeName → SharesNothing remote p) :
  Wired kernel ltr (peers.insert remote.nodeName remote)
  := by
  intro n p hp
  rw [GoMap.lookup_insert_eq] at hp
  split at hp
  case isTrue hn =>
    cases hp
    use hn.symm, hremote
    intro n' p' hp' hne
    rw [GoMap.lookup_insert_eq, if_neg (hn ▸ hne)] at hp'
    apply hshares n' p' hp' (hn ▸ hne)
  case isFalse hn =>
    obtain ⟨hname, hprogrammed, hapart⟩ := h n p hp
    use hname, hprogrammed
    intro n' p' hp' hne
    rw [GoMap.lookup_insert_eq] at hp'
    split at hp'
    · cases hp'
      apply (hshares n p hp hn).symm
    · apply hapart n' p' hp' hne

/-- The removal of the entries of one peer keeps the others wired. -/
theorem Wired.removePeerEntries (h : Wired kernel ltr peers) (hpeer : peer ∈ peers.lookup node) :
  Wired (final (removePeerEntries o ltr peer) kernel) ltr (peers.erase node)
  := by
  apply (h.erase node).of_programmed
  intro n p hp hprogrammed
  rw [GoMap.lookup_erase_eq] at hp
  split at hp
  · simp at hp
  case isFalse hn =>
    apply hprogrammed.removePeerEntries
    apply (h node peer hpeer).2.2 n p hp hn

/-! ### Records of the manager -/

/-- The peers of the tenant are wired. -/
def WiredTenant (tenantID : String) (nm : Manager) : Prop :=
  ∀ ltr ∈ nm.tenantRecords.lookup tenantID, Wired nm.kernel ltr ltr.peers

variable {nm : Manager} {tenantID : String}

theorem lookup_modifyPeers (f : GoMap String RemoteTenantInfra → GoMap String RemoteTenantInfra) :
  (nm.modifyPeers tenantID f).tenantRecords.lookup tenantID
    = (nm.tenantRecords.lookup tenantID).map fun r => { r with peers := f r.peers }
  := by
  rw [Manager.modifyPeers]
  cases hlookup : nm.tenantRecords.lookup tenantID with
  | none =>
    simp only [hlookup]
    rfl
  | some r => apply AList.lookup_insert

theorem kernel_modifyPeers (f : GoMap String RemoteTenantInfra → GoMap String RemoteTenantInfra) :
  (nm.modifyPeers tenantID f).kernel = nm.kernel
  := by
  rw [Manager.modifyPeers]
  split <;> rfl

theorem wiredTenant_modifyPeers
    {f : GoMap String RemoteTenantInfra → GoMap String RemoteTenantInfra}
    (h : ∀ ltr ∈ nm.tenantRecords.lookup tenantID, Wired nm.kernel ltr (f ltr.peers)) :
  WiredTenant tenantID (nm.modifyPeers tenantID f)
  := by
  intro ltr hltr
  rw [lookup_modifyPeers, Option.mem_def, Option.map_eq_some_iff] at hltr
  obtain ⟨r, hr, rfl⟩ := hltr
  rw [kernel_modifyPeers]
  apply h r hr

/-- Adding a peer that shares nothing with those of other nodes. -/
theorem addPeer_wired {ltr' : Record} (hltr : nm.tenantRecords.lookup tenantID = some ltr')
    (hvtep : ltr'.vtep = ltr.vtep) (h : Wired nm.kernel ltr ltr'.peers)
    (hnew : ltr'.peers.lookup remote.nodeName = none)
    (hshares : ∀ n, ∀ p ∈ ltr'.peers.lookup n, n ≠ remote.nodeName → SharesNothing remote p)
    (hroute : RoutedHere nm.kernel ltr remote) :
  WiredTenant tenantID (nm.addPeer o tenantID ltr remote).2
  := by
  have hkeeps : Wired (final (ensurePeerEntries o ltr remote) nm.kernel) ltr ltr'.peers := by
    apply h.of_programmed
    intro n p hp hprogrammed
    apply hprogrammed.ensurePeerEntries
    apply hshares n p hp
    rintro rfl
    rw [hnew] at hp
    simp at hp
  have hrecord : ∀ kernel peers, Wired kernel ltr peers → Wired kernel ltr' peers := by
    intro kernel peers hw
    simp only [Wired, Programmed, hvtep]
    exact hw
  rw [Manager.addPeer]
  rw [final] at hkeeps
  split
  case h_1 e kernel hrun =>
    rw [hrun] at hkeeps
    intro r hr
    obtain rfl : ltr' = r := Option.some.inj (hltr.symm.trans hr)
    apply hrecord _ _ hkeeps
  case h_2 kernel hrun =>
    rw [hrun] at hkeeps
    apply wiredTenant_modifyPeers
    intro r hr
    obtain rfl : ltr' = r := Option.some.inj (hltr.symm.trans hr)
    apply hrecord
    apply hkeeps.insert (ensurePeerEntries_ok hroute hrun) hshares

/-- The state after the removal of a stored peer. -/
theorem deletePeerState_wired {prev : RemoteTenantInfra} (h : WiredTenant tenantID nm)
    (hlookup : nm.tenantRecords.lookup tenantID = some ltr)
    (hstored : ltr.peers.lookup node = some prev)
    (hrun : (removePeerEntries o ltr prev).run nm.kernel = .ok () kernel) :
  prev.nodeName = node ∧ Wired kernel ltr (ltr.peers.erase node)
    ∧ WiredTenant tenantID (Manager.deletePeerState { nm with kernel := kernel } tenantID node)
  := by
  have hw := h ltr hlookup
  have hrest : Wired (final (removePeerEntries o ltr prev) nm.kernel) ltr (ltr.peers.erase node) :=
    hw.removePeerEntries hstored
  rw [final, hrun] at hrest
  use (hw node prev hstored).1, hrest
  apply wiredTenant_modifyPeers
  intro r hr
  obtain rfl : ltr = r := Option.some.inj (hlookup.symm.trans hr)
  exact hrest

theorem removePeer_wired (h : WiredTenant tenantID nm) (ho : o.Completes) :
  WiredTenant tenantID (nm.removePeer o tenantID remote).2
  := by
  rw [Manager.removePeer]
  split
  · exact h
  split
  · exact h
  case h_2 ltr hlookup =>
    split
    · exact h
    split
    · exact h
    case h_2 stored hstored =>
      rw [Manager.getStoredPeer, hlookup, Option.bind_some] at hstored
      split
      case h_1 e kernel hrun =>
        rw [removePeerEntries_error ho hrun]
        exact h
      case h_2 kernel hrun =>
        obtain ⟨hname, _, hwired⟩ := deletePeerState_wired h hlookup hstored hrun
        rw [hname]
        exact hwired

theorem ensurePeer_wired (h : WiredTenant tenantID nm)
    (hclean : (Call.ensurePeer remote o).Clean tenantID nm) :
  WiredTenant tenantID (nm.ensurePeer o tenantID remote).2
  := by
  obtain ⟨ho, hltr⟩ := hclean
  rw [Manager.ensurePeer]
  split
  · exact h
  split
  · exact h
  case h_2 ltr hlookup =>
    have hw := h ltr hlookup
    obtain ⟨hentries, hroute⟩ := hltr ltr hlookup
    have hshares : ∀ n, ∀ p ∈ ltr.peers.lookup n, n ≠ remote.nodeName → SharesNothing remote p := by
      intro n p hp
      apply hentries ⟨n, p⟩ (AList.mem_lookup_iff.mp hp)
    split
    · exact h
    rw [Manager.lookupPeerState, Manager.getStoredPeer, hlookup, Option.bind_some]
    cases hprev : ltr.peers.lookup remote.nodeName with
    | none => apply addPeer_wired hlookup rfl hw hprev hshares hroute
    | some prev =>
      dsimp only
      cases remotePeersEqual prev remote with
      | true => exact h
      | false =>
        dsimp only
        split
        case h_1 e kernel hrun =>
          rw [removePeerEntries_error ho hrun]
          exact h
        case h_2 kernel hrun =>
          obtain ⟨hname, hrest, _⟩ := deletePeerState_wired h hlookup hprev hrun
          have hroute' : RoutedHere (final (removePeerEntries o ltr prev) nm.kernel) ltr remote :=
            hroute.removePeerEntries
          rw [final, hrun] at hroute'
          have hdeleted : (Manager.deletePeerState { nm with kernel := kernel } tenantID
              remote.nodeName).tenantRecords.lookup tenantID
                = some { ltr with peers := ltr.peers.erase remote.nodeName } := by
            rw [Manager.deletePeerState, lookup_modifyPeers, hlookup]
            rfl
          rw [hname]
          apply addPeer_wired hdeleted
          · rfl
          · rw [Manager.deletePeerState, kernel_modifyPeers]
            exact hrest
          · apply AList.lookup_erase
          · intro n p hp hn
            rw [GoMap.lookup_erase_eq, if_neg hn] at hp
            apply hshares n p hp hn
          · rw [Manager.deletePeerState, kernel_modifyPeers]
            exact hroute'

theorem flushTenant_wired {o : String → Outcomes} (h : WiredTenant tenantID nm) :
  WiredTenant tenantID (nm.flushTenant o tenantID).2
  := by
  have hempty : ∀ kernel ltr, Wired kernel ltr ∅ := by
    intro kernel ltr n p hp
    simp at hp
  rw [Manager.flushTenant]
  split
  · exact h
  split
  · exact h
  dsimp only
  split
  all_goals
    intro r hr
    rw [lookup_modifyPeers, Option.mem_def, Option.map_eq_some_iff] at hr
    obtain ⟨ltr, _, rfl⟩ := hr
    apply hempty

theorem step_wired (c : Call) (h : WiredTenant tenantID nm) (hclean : c.Clean tenantID nm) :
  WiredTenant tenantID (step tenantID nm c).2
  := by
  cases c with
  | ensurePeer remote o => apply ensurePeer_wired h hclean
  | removePeer remote o => apply removePeer_wired h hclean
  | flushTenant o => apply flushTenant_wired h

/-! ### Equal peers -/

theorem kernelIP_of_equalIP {a b : IP} (h : equalIP a b = true) :
  kernelIP a = kernelIP b
  := by
  -- the 4-byte form of an address is not nil, and of a 16-byte form it is the end
  have hforms : ∀ a b : IP, a.length = 4 → b.length = 16 → b.take 12 = v4InV6Prefix →
      a = b.drop 12 → kernelIP a = kernelIP b := by
    rintro a b ha hb hv4 rfl
    have hne : b.drop 12 ≠ [] := by
      apply List.ne_nil_of_length_pos
      omega
    have hb4 : to4 b = b.drop 12 := by
      rw [to4, if_neg (by omega), if_pos ⟨hb, hv4⟩]
    have ha4 : to4 (b.drop 12) = b.drop 12 := by
      rw [to4, if_pos ha]
    rw [kernelIP, kernelIP, ha4, hb4]
    simp [hne]
  rw [equalIP] at h
  split_ifs at h with hlen h4 h16
  · rw [eq_of_beq h]
  · rw [Bool.and_eq_true, beq_iff_eq, beq_iff_eq] at h
    apply hforms a b h4.1 h4.2 h.1 h.2
  · rw [Bool.and_eq_true, beq_iff_eq, beq_iff_eq] at h
    symm
    apply hforms b a h16.2 h16.1 h.1 h.2.symm

theorem kernelIP_of_ipEqual {a b : IP} (h : ipEqual a b = true) :
  (a = [] ↔ b = []) ∧ kernelIP a = kernelIP b
  := by
  rw [ipEqual] at h
  split at h
  case isTrue hnil =>
    obtain ⟨rfl, rfl⟩ := of_decide_eq_true h
    simp
  case isFalse hnil =>
    push Not at hnil
    use iff_of_false hnil.1 hnil.2
    apply kernelIP_of_equalIP h

theorem kernelDst_of_cidrEqual {a b : Option IPNet} (h : cidrEqual a b = true) :
  a.map kernelDst = b.map kernelDst
  := by
  match a, b with
  | none, none => rfl
  | some a, some b =>
    rw [cidrEqual, Bool.and_eq_true, beq_iff_eq] at h
    rw [Option.map_some, Option.map_some, kernelDst, kernelDst, kernelIP_of_equalIP h.1, h.2]

theorem eq_of_macEqual {x y : HardwareAddr} (h : macEqual x y = true) :
  x = y
  := by
  rw [macEqual] at h
  split at h
  · obtain ⟨rfl, rfl⟩ := of_decide_eq_true h
    rfl
  · apply eq_of_beq h

/-- Of equal peers both or none are programmed. -/
theorem Programmed.of_equal (h : Programmed kernel ltr peer)
    (hequal : remotePeersEqual peer remote = true) :
  Programmed kernel ltr remote
  := by
  rw [remotePeersEqual] at hequal
  split_ifs at hequal with hname hsubnet hip hmac
  rw [not_or, Bool.not_eq_false, Bool.not_eq_false] at hip
  rw [Bool.not_eq_false] at hsubnet hmac
  obtain ⟨device, hdevice, subnet, hmem, hhas⟩ := h
  have hdst := kernelDst_of_cidrEqual hsubnet
  rw [Option.mem_def.mp hmem, Option.map_some, eq_comm, Option.map_eq_some_iff] at hdst
  obtain ⟨subnet', hmem', hdst⟩ := hdst
  obtain ⟨hnil, hnode⟩ := kernelIP_of_ipEqual hip.1
  have hentry : peer.entry device subnet = remote.entry device subnet' := by
    rw [RemoteTenantInfra.entry, RemoteTenantInfra.entry, (kernelIP_of_ipEqual hip.2).2,
      eq_of_macEqual hmac, kernelRemote, kernelRemote, hnode, hdst]
    simp only [hnil]
  use device, hdevice, subnet', hmem'
  rw [← hentry]
  exact hhas

theorem WiredTenant.sound (h : WiredTenant tenantID nm) :
  Sound tenantID nm
  := by
  have hstored : ∀ ltr ∈ nm.tenantRecords.lookup tenantID, ∀ node, ∀ peer ∈ ltr.peers.lookup node,
      Programmed nm.kernel ltr peer := by
    intro ltr hltr node peer hpeer
    apply (h ltr hltr node peer hpeer).2.1
  use hstored
  intro ltr hltr remote hskip
  rw [Manager.lookupPeerState, Manager.getStoredPeer, Option.mem_def.mp hltr,
    Option.bind_some] at hskip
  cases hprev : ltr.peers.lookup remote.nodeName with
  | none => simp [hprev] at hskip
  | some prev =>
    rw [hprev] at hskip
    apply (hstored ltr hltr remote.nodeName prev hprev).of_equal hskip

end

/-- If no removal fails after its first step, no two nodes have something in common and no other
device has a route to the subnet of a peer, then the stored peers are programmed. -/
theorem after_sound (tenantID : String) (nm : Manager)
    (hinit : ∀ ltr ∈ nm.tenantRecords.lookup tenantID, ltr.peers = ∅) (calls : List Call)
    (hclean : Machine.Meets (step tenantID) (Call.Clean tenantID) nm calls) :
  Sound tenantID (Machine.after (step tenantID) nm calls)
  := by
  apply WiredTenant.sound
  apply Machine.after_of_meets _ _ hclean
  · intro s c hs hc
    apply step_wired c hs hc
  · intro ltr hltr n p hp
    rw [hinit ltr hltr] at hp
    simp at hp

/-- A manager with the tenant `red`, which has no peers. -/
def redManager (kernel : Kernel) : Manager :=
  ⟨true, AList.singleton "red" ⟨some "vtep-red", ∅⟩, kernel⟩

/-- A peer of the tenant on the node 192.168.0.`n`. -/
def redPeer (node : String) (n : UInt8) : RemoteTenantInfra :=
  ⟨node, [192, 168, 0, n], [10, 0, n, 0], [2, 0, 0, 0, 0, n],
    some ⟨[10, 0, n, 0], [255, 255, 255, 0]⟩, 42⟩

/-- A run with a removal that fails at once, a peer that changes, and a second node. -/
theorem after_sound_changing :
  Sound "red" (Machine.after (step "red") (redManager ⟨∅, ∅, ∅⟩)
    [.ensurePeer (redPeer "b" 2) .success,
      .removePeer (redPeer "b" 2) { Outcomes.success with arpDelete := false },
      .ensurePeer (redPeer "c" 3) { Outcomes.success with routeUpdate := false },
      .ensurePeer (redPeer "b" 4) .success, .ensurePeer (redPeer "c" 3) .success])
  := by
  apply after_sound
  · intro ltr hltr
    obtain rfl : _ = ltr := Option.some.inj hltr
    rfl
  · decide +kernel

/-- A removal that fails after the ARP entry is deleted leaves the peer stored, and `EnsurePeer`
skips it then.  Nor is a peer programmed if another has its VTEP address, or if the route to its
subnet is on another device. -/
theorem stored_not_programmed :
  (∃ nm, nm = Machine.after (step "red") (redManager ⟨∅, ∅, ∅⟩)
      [.ensurePeer (redPeer "b" 2) .success,
        .removePeer (redPeer "b" 2) { Outcomes.success with fdbDelete := false }]
    ∧ ¬ Sound "red" nm
    ∧ nm.ensurePeer .success "red" (redPeer "b" 2) = (.ok (), nm))
  ∧ ¬ Sound "red" (Machine.after (step "red") (redManager ⟨∅, ∅, ∅⟩)
      [.ensurePeer (redPeer "b" 2) .success,
        .ensurePeer { redPeer "c" 3 with vtepIP := [10, 0, 2, 0] } .success])
  ∧ ¬ Sound "red" (Machine.after (step "red")
      (redManager ⟨∅, ∅, AList.singleton ([10, 0, 2, 0], 24, 32) ("eth0", [192, 168, 0, 1])⟩)
      [.ensurePeer (redPeer "b" 2) .success])
  := by
  -- node b is stored and is not programmed
  have hunsound : ∀ nm : Manager, (∃ ltr ∈ nm.tenantRecords.lookup "red",
      ∃ peer ∈ ltr.peers.lookup "b", ¬ Programmed nm.kernel ltr peer) → ¬ Sound "red" nm := by
    rintro nm ⟨ltr, hltr, peer, hpeer, hnot⟩ h
    apply hnot
    apply h.stored ltr hltr "b" peer hpeer
  refine ⟨⟨_, rfl, ?_, ?_⟩, ?_, ?_⟩
  · apply hunsound
    decide +kernel
  · rfl
  · apply hunsound
    decide +kernel
  · apply hunsound
    decide +kernel

end Peers
