import Misokube.Daemon.Dropped
import Misokube.Daemon.Sync

/-!
# One sync with a node

A sync reads the report of another node and the local tenants, and the dispatcher runs the commands
it sends.  The local tenants then have the peers of the report and no others (`Matches`), whatever
the order of the loops, if the report is not empty and all its entries are valid.  An empty report
and an invalid entry end the sync before it has sent all commands, so that it then succeeds only if
nothing was to be changed (`converges_iff`).
-/

namespace Daemon

namespace Sync

open Net Api Peers

/-- The orders in which a sync goes through a report and the local tenants. -/
structure Order (ns : NodeStore) (nm : Manager) where
  tenants : GoMap String TenantInfra
  localSnaps : List String
  tenants_perm : tenants.entries.Perm ns.tenants.entries
  localSnaps_perm : localSnaps.Perm nm.tenantRecords.keys

/-- The dispatcher runs commands one after the other. -/
def runCommands (hashes : Device.Hashes) (nm : Manager) (cmds : List Command) : Manager :=
  cmds.foldl (fun nm c => (execute hashes true nm c).2) nm

/-- The object of the node with the report in the order of the loop. -/
def Order.object {ns : NodeStore} {nm : Manager} (order : Order ns nm) : NodeStore :=
  { ns with tenants := order.tenants }

/-- The commands of a sync. -/
def Order.commands {ns : NodeStore} {nm : Manager} (order : Order ns nm) (p : Parsers)
    (nodeName : String) : List Command :=
  (reconcileNodeStoreUpdate p nodeName order.object order.localSnaps).2

/-- The manager after a sync and its commands. -/
def syncPeers (p : Parsers) (hashes : Device.Hashes) (nodeName : String) {ns : NodeStore}
    {nm : Manager} (order : Order ns nm) : Manager :=
  runCommands hashes nm (order.commands p nodeName)

/-- The local tenants have the peers of the report of the node, and no peer if they are not in the
report. -/
structure Matches (p : Parsers) (ns : NodeStore) (nm : Manager) : Prop where
  reported : ∀ t, (nm.tenantRecords.lookup t).isSome → ∀ info ∈ ns.tenants.lookup t, ∀ peer,
    buildRemoteTenantInfra p ns info = .ok peer → nm.getStoredPeer t ns.specName = some peer
  absent : ∀ t, (nm.tenantRecords.lookup t).isSome → ns.tenants.lookup t = none →
    nm.getStoredPeer t ns.specName = none

/-- A sync makes the peers match the report, and its orders do not matter. -/
structure Converges (p : Parsers) (hashes : Device.Hashes) (nodeName : String) (ns : NodeStore)
    (nm : Manager) : Prop where
  agrees : ∀ order : Order ns nm, Matches p ns (syncPeers p hashes nodeName order)
  unordered : ∀ (order order' : Order ns nm) (t node : String),
    (syncPeers p hashes nodeName order).getStoredPeer t node
      = (syncPeers p hashes nodeName order').getStoredPeer t node

/-- The node has a name, and its report is not empty and has valid entries only. -/
structure Valid (p : Parsers) (ns : NodeStore) : Prop where
  named : ns.specName ≠ ""
  nonempty : ns.tenants.entries ≠ []
  entries : ∀ e ∈ ns.tenants.entries, ∃ peer, buildRemoteTenantInfra p ns e.2 = .ok peer

/-- The managers are set, the tenants have a name and a VTEP, and what is stored for the node was
built from reports of it. -/
structure Stocked (p : Parsers) (node : String) (nm : Manager) : Prop where
  managers : nm.managers = true
  named : nm.tenantRecords.lookup "" = none
  vtep : ∀ t, ∀ ltr ∈ nm.tenantRecords.lookup t, ∃ device ∈ ltr.vtep, device ≠ ""
  peers : ∀ t, ∀ peer ∈ nm.getStoredPeer t node, ∃ ns info, ns.specName = node
    ∧ buildRemoteTenantInfra p ns info = .ok peer

section

variable {p : Parsers} {hashes : Device.Hashes} {nodeName node : String} {ns : NodeStore}
  {nm nm' : Manager} {cmds : List Command}

theorem Stocked.sane (h : Stocked p node nm) :
  Sane node nm
  := by
  refine ⟨⟨h.managers, h.vtep, ?_⟩, h.named⟩
  intro t ltr hltr peer hpeer
  rw [← getStoredPeer_of_lookup hltr] at hpeer
  obtain ⟨ns, info, rfl, hbuild⟩ := h.peers t peer hpeer
  apply build_complete hbuild

/-! ### Runs of commands -/

/-- The commands leave the tenants, have their effects on the peers of the node, and leave the peers
of all others. -/
structure Runs (node : String) (cmds : List Command) (nm nm' : Manager) : Prop where
  sane : Sane node nm'
  tenants : ∀ t, (nm'.tenantRecords.lookup t).isSome = (nm.tenantRecords.lookup t).isSome
  peer : ∀ t, (nm.tenantRecords.lookup t).isSome →
    nm'.getStoredPeer t node = cmds.foldl (effect t) (nm.getStoredPeer t node)
  other : ∀ t node', node' ≠ node → nm'.getStoredPeer t node' = nm.getStoredPeer t node'

/-- A command to lead to a peer or to forget one. -/
def IsPeering : Command → Prop
  | .ensurePeer _ _ => True
  | .removePeer _ _ => True
  | _ => False

theorem execute_runs (hashes : Device.Hashes) (hnode : node ≠ "") (hnm : Sane node nm)
    {c : Command} (hc : About node c) (hpeering : IsPeering c) :
  Runs node [c] nm (execute hashes true nm c).2
  := by
  have hexecutes := execute_spec hnode hnm hc hashes true
  constructor
  · exact hexecutes.sane
  · intro t
    rw [Bool.eq_iff_iff]
    constructor
    · intro ht
      obtain ht | rfl := hexecutes.new t ht
      · exact ht
      · exact hpeering.elim
    · apply hexecutes.keeps
  · apply hexecutes.peer
  · intro t node' hne
    cases c with
    | ensurePeer remote t' =>
      obtain ⟨rfl, -⟩ := hc
      apply ensurePeer_other _ t hnm.toHealthy hne
    | removePeer remote t' =>
      obtain rfl := hc
      apply removePeer_other _ t hnm.toHealthy hne
    | ensureTenant => exact hpeering.elim
    | removeTenant => exact hpeering.elim
    | ensureDefaultProxy => exact hpeering.elim

theorem runCommands_runs (hnode : node ≠ "") (hnm : Sane node nm)
    (hcmds : ∀ c ∈ cmds, About node c ∧ IsPeering c) :
  Runs node cmds nm (runCommands hashes nm cmds)
  := by
  induction cmds generalizing nm with
  | nil => exact ⟨hnm, fun _ => rfl, fun _ _ => rfl, fun _ _ _ => rfl⟩
  | cons c cmds ih =>
    obtain ⟨hc, hpeering⟩ := hcmds c List.mem_cons_self
    have hfirst := execute_runs hashes hnode hnm hc hpeering
    have hrest := ih hfirst.sane fun c' hc' => hcmds c' (List.mem_cons_of_mem c hc')
    constructor
    · exact hrest.sane
    · intro t
      exact (hrest.tenants t).trans (hfirst.tenants t)
    · intro t ht
      rw [List.foldl_cons]
      apply (hrest.peer t (by rw [hfirst.tenants]; exact ht)).trans
      rw [hfirst.peer t ht]
      rfl
    · intro t node' hne
      exact (hrest.other t node' hne).trans (hfirst.other t node' hne)

/-- Nothing is done for a node without name. -/
theorem runCommands_unnamed (hcmds : ∀ c ∈ cmds, About "" c ∧ IsPeering c) :
  runCommands hashes nm cmds = nm
  := by
  induction cmds with
  | nil => rfl
  | cons c cmds ih =>
    obtain ⟨hc, hpeering⟩ := hcmds c List.mem_cons_self
    have hsame : (execute hashes true nm c).2 = nm := by
      cases c with
      | ensurePeer remote t => rw [execute, Manager.ensurePeer, if_pos hc.1]
      | removePeer remote t =>
        have hname : remote.nodeName = "" := hc
        rw [execute, Manager.removePeer, if_pos hname]
      | ensureTenant => exact hpeering.elim
      | removeTenant => exact hpeering.elim
      | ensureDefaultProxy => exact hpeering.elim
    rw [runCommands, List.foldl_cons, hsame]
    apply ih
    intro c' hc'
    apply hcmds c' (List.mem_cons_of_mem c hc')

/-! ### The commands of a sync -/

/-- A command leads a tenant of the report to its peer, or lets a tenant that is not in the report
forget the node. -/
theorem Order.mem_commands (order : Order ns nm) {c : Command}
    (hc : c ∈ order.commands p nodeName) :
  (∃ t, ∃ info ∈ ns.tenants.lookup t, ∃ peer, buildRemoteTenantInfra p ns info = .ok peer
      ∧ c = .ensurePeer peer t)
    ∨ ∃ t, ns.tenants.lookup t = none ∧ c = .removePeer ⟨ns.specName, [], [], [], none, 0⟩ t
  := by
  obtain ⟨t, info, hinfo, peer, hpeer, rfl⟩ | ⟨t, hnone, rfl⟩ := mem_reconcileNodeStoreUpdate hc
  · left
    refine ⟨t, info, ?_, peer, hpeer, rfl⟩
    rw [← AList.perm_lookup order.tenants_perm]
    exact hinfo
  · right
    refine ⟨t, ?_, rfl⟩
    rw [← AList.perm_lookup order.tenants_perm]
    exact hnone

theorem Order.commands_about (order : Order ns nm) :
  ∀ c ∈ order.commands p nodeName, About ns.specName c ∧ IsPeering c
  := by
  intro c hc
  obtain ⟨t, info, -, peer, hpeer, rfl⟩ | ⟨t, -, rfl⟩ := order.mem_commands hc
  · exact ⟨build_complete hpeer, trivial⟩
  · exact ⟨rfl, trivial⟩

/-- The peer that the report gives to a tenant. -/
def expected (p : Parsers) (ns : NodeStore) (t : String) : Option RemoteTenantInfra :=
  (ns.tenants.lookup t).bind fun info => (buildRemoteTenantInfra p ns info).toOption

theorem expected_of_build {t : String} {info : TenantInfra} {peer : RemoteTenantInfra}
    (hinfo : ns.tenants.lookup t = some info)
    (hpeer : buildRemoteTenantInfra p ns info = .ok peer) :
  expected p ns t = some peer
  := by
  rw [expected, hinfo, Option.bind_some, hpeer]
  rfl

theorem expected_of_none {t : String} (hnone : ns.tenants.lookup t = none) :
  expected p ns t = none
  := by
  rw [expected, hnone, Option.bind_none]

/-- The commands for a tenant leave the peer that the report gives to it. -/
theorem Order.effect_commands (order : Order ns nm) {c : Command}
    (hc : c ∈ order.commands p nodeName) (before : Option RemoteTenantInfra) :
  effect c.tenantID before c = expected p ns c.tenantID
  := by
  obtain ⟨t, info, hinfo, peer, hpeer, rfl⟩ | ⟨t, hnone, rfl⟩ := order.mem_commands hc
  · rw [Command.tenantID, effect, if_pos rfl, expected_of_build hinfo hpeer]
  · rw [Command.tenantID, effect, if_pos rfl, expected_of_none hnone]

/-- A valid report gives a command for every local tenant. -/
theorem Order.exists_command (order : Order ns nm) (hremote : ns.specName ≠ nodeName)
    (hvalid : Valid p ns) {t : String} (hlocal : (nm.tenantRecords.lookup t).isSome)
    (hne : t ≠ "") :
  ∃ c ∈ order.commands p nodeName, c.tenantID = t
  := by
  have hsnaps : t ∈ order.localSnaps :=
    order.localSnaps_perm.mem_iff.mpr (AList.lookup_isSome.mp hlocal)
  have hremote : order.object.specName ≠ nodeName := hremote
  have hok : (reconcileNodeStoreUpdate p nodeName order.object order.localSnaps).1 = .ok () := by
    apply reconcileNodeStoreUpdate_ok hremote (List.ne_nil_of_mem hsnaps)
    · intro hnil
      apply hvalid.nonempty
      apply List.perm_nil.mp
      rw [← hnil]
      exact order.tenants_perm.symm
    · intro e he
      apply hvalid.entries e (order.tenants_perm.mem_iff.mp he)
  cases hinfo : order.tenants.lookup t with
  | none =>
    exact ⟨_, removePeer_mem_reconcile hremote hok hinfo hsnaps hne, rfl⟩
  | some info =>
    obtain ⟨peer, hpeer⟩ := hvalid.entries ⟨t, info⟩
      (order.tenants_perm.mem_iff.mp (AList.mem_lookup_iff.mp hinfo))
    exact ⟨_, ensurePeer_mem_reconcile hremote hok hinfo hpeer hsnaps hne, rfl⟩

/-! ### The result -/

/-- A sync leaves the local tenants, and the peers of other nodes. -/
theorem syncPeers_runs (hnm : Stocked p ns.specName nm) (hnamed : ns.specName ≠ "")
    (order : Order ns nm) :
  Runs ns.specName (order.commands p nodeName) nm (syncPeers p hashes nodeName order)
  := runCommands_runs hnamed hnm.sane order.commands_about

theorem syncPeers_unnamed (hnamed : ns.specName = "") (order : Order ns nm) :
  syncPeers p hashes nodeName order = nm
  := by
  apply runCommands_unnamed
  rw [← hnamed]
  apply order.commands_about

theorem syncPeers_of_nil {order : Order ns nm} (h : order.commands p nodeName = []) :
  syncPeers p hashes nodeName order = nm
  := by
  rw [syncPeers, h, runCommands, List.foldl_nil]

/-- After a sync with a valid report, the local tenants have the peers of the report. -/
theorem syncPeers_of_valid (hremote : ns.specName ≠ nodeName) (hnm : Stocked p ns.specName nm)
    (hvalid : Valid p ns) (order : Order ns nm) {t : String}
    (hlocal : (nm.tenantRecords.lookup t).isSome) :
  (syncPeers p hashes nodeName order).getStoredPeer t ns.specName = expected p ns t
  := by
  have hne : t ≠ "" := by
    rintro rfl
    rw [hnm.named] at hlocal
    simp at hlocal
  rw [(syncPeers_runs hnm hvalid.named order).peer t hlocal]
  apply foldl_effect
  · rintro c hc rfl before
    apply order.effect_commands hc
  · apply order.exists_command hremote hvalid hlocal hne

/-- If the peers match the report already, then a sync leaves them. -/
theorem syncPeers_of_matches (hnm : Stocked p ns.specName nm) (hmatches : Matches p ns nm)
    (order : Order ns nm) {t : String} (hlocal : (nm.tenantRecords.lookup t).isSome) :
  (syncPeers p hashes nodeName order).getStoredPeer t ns.specName = nm.getStoredPeer t ns.specName
  := by
  by_cases hnamed : ns.specName = ""
  · rw [syncPeers_unnamed hnamed]
  rw [(syncPeers_runs hnm hnamed order).peer t hlocal]
  apply List.foldlRecOn (motive := fun peer => peer = nm.getStoredPeer t ns.specName)
  · rfl
  · rintro peer rfl c hc
    by_cases hct : c.tenantID = t
    · obtain ⟨t', info, hinfo, peer, hpeer, rfl⟩ | ⟨t', hnone, rfl⟩ := order.mem_commands hc
      · obtain rfl : t' = t := hct
        rw [effect, if_pos rfl, hmatches.reported t' hlocal info hinfo peer hpeer]
      · obtain rfl : t' = t := hct
        rw [effect, if_pos rfl, hmatches.absent t' hlocal hnone]
    · rw [effect_of_ne hct]

/-- The order of the maps themselves. -/
def Order.id (ns : NodeStore) (nm : Manager) : Order ns nm :=
  ⟨ns.tenants, nm.tenantRecords.keys, List.Perm.refl _, List.Perm.refl _⟩

/-- An entry of the report can come first. -/
theorem exists_order_cons (nm : Manager) {e : (_ : String) × TenantInfra}
    (he : e ∈ ns.tenants.entries) :
  ∃ (order : Order ns nm) (rest : List ((_ : String) × TenantInfra)),
    order.tenants.entries = e :: rest
  := by
  obtain ⟨before, after, hsplit⟩ := List.append_of_mem he
  have hperm : (e :: (before ++ after)).Perm ns.tenants.entries := by
    rw [hsplit]
    exact List.perm_middle.symm
  have hkeys : (e :: (before ++ after)).NodupKeys :=
    (List.perm_nodupKeys hperm).mpr ns.tenants.nodupKeys
  exact ⟨⟨⟨_, hkeys⟩, _, hperm, List.Perm.refl _⟩, before ++ after, rfl⟩

/-- With a report that is not valid, a sync may do nothing. -/
theorem exists_idle (hashes : Device.Hashes) (nodeName : String) (nm : Manager)
    (hvalid : ¬ Valid p ns) :
  ∃ order : Order ns nm, syncPeers p hashes nodeName order = nm
  := by
  by_cases hnamed : ns.specName = ""
  · exact ⟨Order.id ns nm, syncPeers_unnamed hnamed _⟩
  by_cases hempty : ns.tenants.entries = []
  · use Order.id ns nm
    have hnone : (Order.id ns nm).commands p nodeName = [] := by
      have hentries : (Order.id ns nm).object.tenants.entries = [] := hempty
      rw [Order.commands, reconcileNodeStoreUpdate]
      simp only [if_pos hentries]
      split_ifs <;> rfl
    apply syncPeers_of_nil hnone
  · -- an entry that is not valid comes first
    obtain ⟨e, he, hbuild⟩ : ∃ e ∈ ns.tenants.entries,
        ∀ peer, buildRemoteTenantInfra p ns e.2 ≠ .ok peer := by
      by_contra hall
      push Not at hall
      exact hvalid ⟨hnamed, hempty, hall⟩
    obtain ⟨order, rest, horder⟩ := exists_order_cons nm he
    use order
    have hnone : order.commands p nodeName = [] := by
      have hentries : order.object.tenants.entries = e :: rest := horder
      obtain ⟨err, herr⟩ : ∃ err, buildRemoteTenantInfra p order.object e.2 = .error err := by
        cases hresult : buildRemoteTenantInfra p order.object e.2 with
        | error err => exact ⟨err, rfl⟩
        | ok peer => exact absurd hresult (hbuild peer)
      rw [Order.commands, reconcileNodeStoreUpdate, hentries, ensurePeers, herr]
      split_ifs <;> rfl
    apply syncPeers_of_nil hnone

/-- The tenants with a record stay the same. -/
theorem isSome_syncPeers (hnm : Stocked p ns.specName nm) (order : Order ns nm) (t : String) :
  ((syncPeers p hashes nodeName order).tenantRecords.lookup t).isSome
    = (nm.tenantRecords.lookup t).isSome
  := by
  by_cases hnamed : ns.specName = ""
  · rw [syncPeers_unnamed hnamed]
  · apply (syncPeers_runs hnm hnamed order).tenants

/-- The orders do not matter if the peers of the local tenants are determined. -/
theorem converges_of_determined (hnm : Stocked p ns.specName nm)
    {peers : String → Option RemoteTenantInfra}
    (hpeers : ∀ (order : Order ns nm) (t : String), (nm.tenantRecords.lookup t).isSome →
      (syncPeers p hashes nodeName order).getStoredPeer t ns.specName = peers t)
    (hreported : ∀ t, (nm.tenantRecords.lookup t).isSome → ∀ info ∈ ns.tenants.lookup t, ∀ peer,
      buildRemoteTenantInfra p ns info = .ok peer → peers t = some peer)
    (habsent : ∀ t, (nm.tenantRecords.lookup t).isSome → ns.tenants.lookup t = none →
      peers t = none) :
  Converges p hashes nodeName ns nm
  := by
  constructor
  · intro order
    constructor
    · intro t ht info hinfo peer hpeer
      rw [isSome_syncPeers hnm] at ht
      rw [hpeers order t ht]
      apply hreported t ht info hinfo peer hpeer
    · intro t ht hnone
      rw [isSome_syncPeers hnm] at ht
      rw [hpeers order t ht]
      apply habsent t ht hnone
  · intro order order' t node
    by_cases hnamed : ns.specName = ""
    · rw [syncPeers_unnamed hnamed, syncPeers_unnamed hnamed]
    by_cases hnode : node = ns.specName
    · subst hnode
      cases ht : (nm.tenantRecords.lookup t).isSome with
      | true => rw [hpeers order t ht, hpeers order' t ht]
      | false =>
        have hnone : ∀ order : Order ns nm,
            (syncPeers p hashes nodeName order).getStoredPeer t ns.specName = none := by
          intro order
          rw [← isSome_syncPeers hnm order, Option.isSome_eq_false_iff,
            Option.isNone_iff_eq_none] at ht
          rw [Manager.getStoredPeer, ht, Option.bind_none]
        rw [hnone, hnone]
    · rw [(syncPeers_runs hnm hnamed order).other t node hnode,
        (syncPeers_runs hnm hnamed order').other t node hnode]

end

/-- A sync makes the peers match the report in every order exactly when the report is valid, or the
peers match it already. -/
theorem converges_iff (p : Parsers) (hashes : Device.Hashes) (nodeName : String) (ns : NodeStore)
    (nm : Manager) (hremote : ns.specName ≠ nodeName) (hnm : Stocked p ns.specName nm) :
  Converges p hashes nodeName ns nm ↔ Valid p ns ∨ Matches p ns nm
  := by
  constructor
  · intro h
    by_cases hvalid : Valid p ns
    · exact Or.inl hvalid
    · right
      obtain ⟨order, hidle⟩ := exists_idle hashes nodeName nm hvalid
      rw [← hidle]
      apply h.agrees
  · rintro (hvalid | hmatches)
    · apply converges_of_determined hnm fun order t => syncPeers_of_valid hremote hnm hvalid order
      · intro t _ info hinfo peer hpeer
        apply expected_of_build hinfo hpeer
      · intro t _ hnone
        apply expected_of_none hnone
    · apply converges_of_determined hnm fun order t => syncPeers_of_matches hnm hmatches order
      · exact hmatches.reported
      · exact hmatches.absent

/-- A manager without peers is stocked. -/
theorem Fresh.stocked {nm : Manager} (h : Fresh nm) (p : Parsers) (node : String) :
  Stocked p node nm
  := by
  refine ⟨h.managers, h.named, h.vtep, ?_⟩
  intro t peer hpeer
  rw [Manager.getStoredPeer] at hpeer
  obtain ⟨ltr, hltr, hlookup⟩ := Option.mem_bind_iff.mp hpeer
  rw [h.peers t ltr hltr] at hlookup
  simp at hlookup

/-- The only local tenant is in the report. -/
theorem converges_red :
  Converges goParsers default "a" (redNode "192.168.0.2" []) redOnly
  := by
  apply (converges_iff goParsers default "a" (redNode "192.168.0.2" []) redOnly (by decide)
    (redOnly_fresh.stocked _ _)).mpr
  left
  refine ⟨by decide, by decide, ?_⟩
  intro e he
  simp only [redNode, AList.singleton, List.mem_singleton] at he
  subst he
  exact ⟨_, rfl⟩

/-- A node that reports `red`, and `blue` with a network that is not valid. -/
def badBlueNode : NodeStore :=
  ⟨"b", "b", "192.168.0.2", (redNode "192.168.0.2" []).tenants.insert "blue"
    ⟨"blue", "10.0.3.0", "vxlan-blue", 2, "10.0.2.254", "02:00:00:00:00:01", "br-blue", "10.0.3.1",
      "02:00:00:00:00:02", []⟩⟩

/-- The entry of `blue` is not valid, and `red` does not get its peer if it comes after it. -/
theorem not_converges_bad_blue :
  ¬ Converges goParsers default "a" badBlueNode redOnly
  := by
  intro h
  have hmatches := h.agrees (Order.id badBlueNode redOnly)
  -- red has a record and a valid entry, but not the peer of it
  have hred : ((syncPeers goParsers default "a"
        (Order.id badBlueNode redOnly)).tenantRecords.lookup "red").isSome
      ∧ ∃ info ∈ badBlueNode.tenants.lookup "red",
        ∃ peer ∈ (buildRemoteTenantInfra goParsers badBlueNode info).toOption,
          (syncPeers goParsers default "a" (Order.id badBlueNode redOnly)).getStoredPeer "red" "b"
            ≠ some peer := by
    decide +kernel
  obtain ⟨hlocal, info, hinfo, peer, hpeer, hnot⟩ := hred
  apply hnot
  apply hmatches.reported "red" hlocal info hinfo peer (build_of_mem_toOption hpeer)

end Sync

end Daemon
