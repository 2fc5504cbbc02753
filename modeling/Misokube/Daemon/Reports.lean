import Misokube.Daemon.Model
import Misokube.Nmanager.Storing

/-!
# What a node reports and the peers made of it

Reports that the update handler takes for equal (`SameReport`) give the same peers, the peers that
are built are complete, and a sync that succeeds sends exactly one command for each local tenant:
to lead to the node if it reports the tenant, and to forget it otherwise.
-/

namespace Daemon

open Net Api Peers

/-- The part of a report the update handler compares. -/
def forPeers (i : TenantInfra) : TenantInfra :=
  { i with name := "", pods := [] }

/-- The nodes report the same tenants, and the same of them apart from their pods. -/
def SameReport (a b : GoMap String TenantInfra) : Prop :=
  ∀ t, (a.lookup t).map forPeers = (b.lookup t).map forPeers

theorem SameReport.refl (a : GoMap String TenantInfra) :
  SameReport a a
  := fun _ => rfl

theorem SameReport.trans {a b c : GoMap String TenantInfra} (h : SameReport a b)
    (h' : SameReport b c) :
  SameReport a c
  := fun t => (h t).trans (h' t)

theorem equalInfraForPeers_iff {a b : TenantInfra} :
  equalInfraForPeers a b = true ↔ forPeers a = forPeers b
  := by
  simp only [equalInfraForPeers, forPeers, Bool.and_eq_true, beq_iff_eq, TenantInfra.mk.injEq]
  tauto

/-- Maps that are equal for peers report the same. -/
theorem sameReport_of_equal {a b : GoMap String TenantInfra}
    (h : equalTenantInfraForPeers a b = true) :
  SameReport a b
  := by
  rw [equalTenantInfraForPeers] at h
  split at h
  · simp at h
  case isFalse hlength =>
    rw [not_not] at hlength
    rw [List.all_eq_true] at h
    have hentry : ∀ t, ∀ i ∈ a.lookup t, ∃ j, b.lookup t = some j ∧ forPeers i = forPeers j := by
      intro t i hi
      have ht := h ⟨t, i⟩ (AList.mem_lookup_iff.mp hi)
      dsimp only at ht
      split at ht
      · simp at ht
      case h_2 j hj => exact ⟨j, hj, equalInfraForPeers_iff.mp ht⟩
    -- the tenants of `a` are tenants of `b`, and there are as many
    have hsub : a.keys ⊆ b.keys := by
      intro t ht
      obtain ⟨i, hi⟩ := Option.isSome_iff_exists.mp (AList.lookup_isSome.mpr ht)
      obtain ⟨j, hj, -⟩ := hentry t i hi
      apply AList.lookup_isSome.mp
      rw [hj]
      rfl
    have hperm : a.keys.Perm b.keys := by
      apply (a.keys_nodup.subperm hsub).perm_of_length_le
      simp only [AList.keys, List.keys, List.length_map]
      omega
    intro t
    cases hi : a.lookup t with
    | some i =>
      obtain ⟨j, hj, hij⟩ := hentry t i hi
      rw [hj, Option.map_some, Option.map_some, hij]
    | none =>
      have hnone : b.lookup t = none := by
        rw [AList.lookup_eq_none] at hi ⊢
        intro ht
        apply hi
        apply hperm.mem_iff.mpr ht
      rw [hnone]

/-! ### Peers that are built -/

section

variable {p : Parsers} {ns ns' : NodeStore} {info info' : TenantInfra} {peer : RemoteTenantInfra}

theorem build_complete (h : buildRemoteTenantInfra p ns info = .ok peer) :
  peer.nodeName = ns.specName ∧ Complete peer
  := by
  rw [buildRemoteTenantInfra] at h
  split at h
  · cases h
  split at h
  · cases h
  case h_2 subnet hsubnet =>
    split at h
    · cases h
    case h_2 vtepIP hvtepIP =>
      split at h
      · cases h
      case h_2 nodeIP hnodeIP =>
        split at h
        · cases h
        case h_2 mac hmac =>
          cases h
          use rfl
          exact ⟨p.length_ip hnodeIP, p.length_ip hvtepIP, p.mac_ne_nil hmac, subnet, rfl,
            p.length_cidr hsubnet⟩

theorem build_of_mem_toOption (h : peer ∈ (buildRemoteTenantInfra p ns info).toOption) :
  buildRemoteTenantInfra p ns info = .ok peer
  := by
  cases hbuild : buildRemoteTenantInfra p ns info with
  | error e => simp [hbuild, Except.toOption] at h
  | ok peer' =>
    simp only [hbuild, Except.toOption, Option.mem_def, Option.some.injEq] at h
    rw [h]

/-- The same report gives the same peer. -/
theorem build_of_forPeers (hname : ns'.specName = ns.specName) (hip : ns'.nodeIP = ns.nodeIP)
    (hinfo : forPeers info' = forPeers info) (h : buildRemoteTenantInfra p ns info = .ok peer) :
  buildRemoteTenantInfra p ns' info' = .ok peer
  := by
  simp only [forPeers, TenantInfra.mk.injEq] at hinfo
  obtain ⟨-, hcidr, -, hvni, hvtepIP, hvtepMAC, -⟩ := hinfo
  rw [buildRemoteTenantInfra] at h ⊢
  rw [hcidr, hvni, hvtepIP, hvtepMAC, hname, hip]
  split
  case isTrue hempty =>
    rw [if_pos hempty] at h
    cases h
  case isFalse hempty =>
    rw [if_neg hempty] at h
    exact h

end

/-! ### Commands of a sync -/

section

variable {p : Parsers} {nodeName : String} {ns : NodeStore} {localSnaps : List String} {t : String}

theorem mem_send {c c' : Command} :
  c ∈ c'.send ↔ c = c' ∧ c'.tenantID ≠ ""
  := by
  rw [Command.send]
  split <;> simp_all

/-- The commands for the tenants a node reports. -/
theorem mem_ensurePeers {entries : List ((_ : String) × TenantInfra)} {c : Command}
    (h : c ∈ (ensurePeers p ns localSnaps entries).2) :
  ∃ e ∈ entries, ∃ peer, buildRemoteTenantInfra p ns e.2 = .ok peer ∧ c = .ensurePeer peer e.1
  := by
  induction entries with
  | nil => simp [ensurePeers] at h
  | cons e entries ih =>
    rw [ensurePeers] at h
    split at h
    · simp at h
    case h_2 peer hpeer =>
      obtain hhead | hrest := List.mem_append.mp h
      · split at hhead
        · obtain ⟨rfl, -⟩ := mem_send.mp hhead
          exact ⟨e, List.mem_cons_self, peer, hpeer, rfl⟩
        · simp at hhead
      · obtain ⟨e', he', hc⟩ := ih hrest
        exact ⟨e', List.mem_cons_of_mem e he', hc⟩

/-- If all reports are valid, then there is a command for each tenant that is there locally. -/
theorem ensurePeer_mem {entries : List ((_ : String) × TenantInfra)}
    {e : (_ : String) × TenantInfra} {peer : RemoteTenantInfra}
    (hok : (ensurePeers p ns localSnaps entries).1 = .ok ()) (he : e ∈ entries)
    (hbuild : buildRemoteTenantInfra p ns e.2 = .ok peer) (hlocal : e.1 ∈ localSnaps)
    (hne : e.1 ≠ "") :
  .ensurePeer peer e.1 ∈ (ensurePeers p ns localSnaps entries).2
  := by
  induction entries with
  | nil => simp at he
  | cons e' entries ih =>
    rw [ensurePeers] at hok ⊢
    split at hok
    · cases hok
    case h_2 peer' hpeer' =>
      dsimp only at hok ⊢
      apply List.mem_append.mpr
      obtain rfl | he := List.mem_cons.mp he
      · left
        rw [hbuild] at hpeer'
        cases hpeer'
        have hsend : (Command.ensurePeer peer e.1).send = [.ensurePeer peer e.1] :=
          Command.send_of_ne hne
        rw [if_pos hlocal, hsend]
        apply List.mem_singleton_self
      · right
        apply ih hok he

theorem ensurePeers_ok {entries : List ((_ : String) × TenantInfra)} (localSnaps : List String)
    (h : ∀ e ∈ entries, ∃ peer, buildRemoteTenantInfra p ns e.2 = .ok peer) :
  (ensurePeers p ns localSnaps entries).1 = .ok ()
  := by
  induction entries with
  | nil => rfl
  | cons e entries ih =>
    obtain ⟨peer, hpeer⟩ := h e List.mem_cons_self
    rw [ensurePeers, hpeer]
    apply ih
    intro e' he'
    apply h e' (List.mem_cons_of_mem e he')

theorem mem_removePeers {c : Command} (h : c ∈ removePeers ns localSnaps) :
  ∃ t ∈ localSnaps, ns.tenants.lookup t = none
    ∧ c = .removePeer ⟨ns.specName, [], [], [], none, 0⟩ t
  := by
  obtain ⟨t, ht, hc⟩ := List.mem_flatMap.mp h
  split at hc
  · simp at hc
  case isFalse hnone =>
    rw [Option.not_isSome_iff_eq_none] at hnone
    exact ⟨t, ht, hnone, (mem_send.mp hc).1⟩

/-- A command of a sync leads to the node with a valid report of it, or forgets the node. -/
theorem mem_reconcileNodeStoreUpdate {c : Command}
    (h : c ∈ (reconcileNodeStoreUpdate p nodeName ns localSnaps).2) :
  (∃ t, ∃ info ∈ ns.tenants.lookup t, ∃ peer, buildRemoteTenantInfra p ns info = .ok peer
      ∧ c = .ensurePeer peer t)
    ∨ ∃ t, ns.tenants.lookup t = none ∧ c = .removePeer ⟨ns.specName, [], [], [], none, 0⟩ t
  := by
  have hensure : c ∈ (ensurePeers p ns localSnaps ns.tenants.entries).2 →
      ∃ t, ∃ info ∈ ns.tenants.lookup t, ∃ peer, buildRemoteTenantInfra p ns info = .ok peer
        ∧ c = .ensurePeer peer t := by
    intro hc
    obtain ⟨⟨t, info⟩, he, peer, hpeer, hc⟩ := mem_ensurePeers hc
    exact ⟨t, info, AList.mem_lookup_iff.mpr he, peer, hpeer, hc⟩
  rw [reconcileNodeStoreUpdate] at h
  split_ifs at h
  · simp at h
  · simp at h
  · simp at h
  split at h
  case h_1 e cmds heq =>
    left
    apply hensure
    rw [heq]
    exact h
  case h_2 cmds heq =>
    obtain hc | hc := List.mem_append.mp h
    · left
      apply hensure
      rw [heq]
      exact hc
    · right
      obtain ⟨t, -, hnone, rfl⟩ := mem_removePeers hc
      exact ⟨t, hnone, rfl⟩

/-- A sync that succeeds goes through the whole report and then forgets the tenants that are not in
it. -/
theorem reconcileNodeStoreUpdate_of_ok (hremote : ns.specName ≠ nodeName)
    (hok : (reconcileNodeStoreUpdate p nodeName ns localSnaps).1 = .ok ()) :
  (ensurePeers p ns localSnaps ns.tenants.entries).1 = .ok ()
    ∧ (reconcileNodeStoreUpdate p nodeName ns localSnaps).2
      = (ensurePeers p ns localSnaps ns.tenants.entries).2 ++ removePeers ns localSnaps
  := by
  rw [reconcileNodeStoreUpdate, if_neg hremote] at hok ⊢
  by_cases hsnaps : localSnaps = []
  · rw [if_pos hsnaps] at hok
    cases hok
  by_cases hreport : ns.tenants.entries = []
  · rw [if_neg hsnaps, if_pos hreport] at hok
    cases hok
  rw [if_neg hsnaps, if_neg hreport] at hok ⊢
  generalize ensurePeers p ns localSnaps ns.tenants.entries = x at hok ⊢
  obtain ⟨e | ⟨⟩, cmds⟩ := x
  · cases hok
  · exact ⟨rfl, rfl⟩

/-- A sync with local tenants and a report whose entries are all valid succeeds. -/
theorem reconcileNodeStoreUpdate_ok (hremote : ns.specName ≠ nodeName) (hlocal : localSnaps ≠ [])
    (hreport : ns.tenants.entries ≠ [])
    (h : ∀ e ∈ ns.tenants.entries, ∃ peer, buildRemoteTenantInfra p ns e.2 = .ok peer) :
  (reconcileNodeStoreUpdate p nodeName ns localSnaps).1 = .ok ()
  := by
  have hok := ensurePeers_ok localSnaps h
  rw [reconcileNodeStoreUpdate, if_neg hremote, if_neg hlocal, if_neg hreport]
  generalize ensurePeers p ns localSnaps ns.tenants.entries = x at hok ⊢
  obtain ⟨e | ⟨⟩, cmds⟩ := x
  · cases hok
  · rfl

/-- A sync that succeeds leads to the node for each local tenant it reports. -/
theorem ensurePeer_mem_reconcile {info : TenantInfra} {peer : RemoteTenantInfra}
    (hremote : ns.specName ≠ nodeName)
    (hok : (reconcileNodeStoreUpdate p nodeName ns localSnaps).1 = .ok ())
    (hinfo : ns.tenants.lookup t = some info) (hbuild : buildRemoteTenantInfra p ns info = .ok peer)
    (hlocal : t ∈ localSnaps) (hne : t ≠ "") :
  .ensurePeer peer t ∈ (reconcileNodeStoreUpdate p nodeName ns localSnaps).2
  := by
  obtain ⟨hensure, hcmds⟩ := reconcileNodeStoreUpdate_of_ok hremote hok
  rw [hcmds]
  apply List.mem_append_left
  apply ensurePeer_mem hensure (AList.mem_lookup_iff.mp hinfo) hbuild hlocal hne

/-- A sync that succeeds forgets the node for each local tenant it does not report. -/
theorem removePeer_mem_reconcile (hremote : ns.specName ≠ nodeName)
    (hok : (reconcileNodeStoreUpdate p nodeName ns localSnaps).1 = .ok ())
    (hnone : ns.tenants.lookup t = none) (hlocal : t ∈ localSnaps) (hne : t ≠ "") :
  .removePeer ⟨ns.specName, [], [], [], none, 0⟩ t
    ∈ (reconcileNodeStoreUpdate p nodeName ns localSnaps).2
  := by
  rw [(reconcileNodeStoreUpdate_of_ok hremote hok).2]
  apply List.mem_append_right
  apply List.mem_flatMap.mpr
  use t, hlocal
  rw [hnone, if_neg (by simp)]
  apply mem_send.mpr
  exact ⟨rfl, hne⟩

end

end Daemon
