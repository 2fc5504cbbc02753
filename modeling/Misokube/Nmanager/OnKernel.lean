import Misokube.Device.Refinement
import Misokube.Nmanager.Node
import Misokube.Nmanager.Tenants

/-!
# The network manager over the kernel refines the one with outcomes

Whatever faults the calls to the kernel meet, a run of a node is a run of the network manager with
some outcomes of its device operations: the same calls, with the same answers up to the text of
errors, and the same records.
-/

namespace Nmanager

open Net Device Trie Links Command

namespace Node

open Device.Kernel (State System Scope Config Within Changes Footprint NoPanic Owned Uplink Present
  Moved Foreign vethFootprint tenantFootprint netlink must wrap attempt)

/-! ### Pods that are moved -/

section

variable {F : Footprint} (cfg : Config)

theorem along_delAddr_pod {path : String} (hpath : path ∈ F.paths) (name : String)
    (ignored : Errno → Bool) (a : IPNet) :
  Along (Within F) (Kernel.delAddr cfg (.pod path) name ignored a)
  := by
  apply Along.bind (Kernel.along_pod hpath _)
  intro r
  cases r with
  | ok u => apply Along.pure (Within.refl F)
  | error e =>
    dsimp only
    split
    · apply Along.pure (Within.refl F)
    · apply Along.throw (Within.refl F)

/-- Moving the interface of a pod stays within its namespace. -/
theorem along_updateLink {path : String} (hpath : path ∈ F.paths) (name : String) (podIPNet : IPNet)
    (gateway : IP) :
  Along (Within F) (updateLink cfg path name podIPNet gateway)
  := by
  apply Along.bind (Kernel.along_must (Kernel.along_pod hpath _))
  intro _
  apply Along.bind (Kernel.along_must (Kernel.along_pod hpath _))
  intro _
  apply Along.bind
  · apply Kernel.along_wrap
    apply Along.bind (Kernel.along_pod hpath _)
    intro r
    cases r with
    | error e => apply Along.throw (Within.refl F)
    | ok addrs =>
      apply Kernel.along_forM
      intro a
      apply along_delAddr_pod cfg hpath
  intro _
  apply Along.bind (Kernel.along_must (Kernel.along_pod hpath _))
  intro _
  apply Along.bind (Kernel.along_must (Kernel.along_pod hpath _))
  intro _
  apply Along.bind (Kernel.along_must (Kernel.along_pod hpath _))
  intro _
  apply Along.bind (Kernel.along_pod hpath _)
  intro r
  apply Along.bind
  · cases r with
    | error e => apply Along.pure (Within.refl F)
    | ok gateways =>
      rw [delRoutes]
      split
      · apply Kernel.along_forM
        intro g
        apply Along.bind (Kernel.along_pod hpath _)
        intro r
        cases r with
        | ok u => apply Along.pure (Within.refl F)
        | error e =>
          dsimp only
          split
          · apply Along.pure (Within.refl F)
          · apply Along.throw (Within.refl F)
      · apply Along.pure (Within.refl F)
  intro _
  apply Kernel.along_must (Kernel.along_pod hpath _)

theorem noPanic_updateLink (path name : String) (podIPNet : IPNet) (gateway : IP) :
  NoPanic (updateLink cfg path name podIPNet gateway)
  := by
  apply Raises.bind (Kernel.noPanic_must _)
  intro _
  apply Raises.bind (Kernel.noPanic_must _)
  intro _
  apply Raises.bind (Kernel.noPanic_wrap (Kernel.noPanic_flushAddrs cfg _))
  intro _
  apply Raises.bind (Kernel.noPanic_must _)
  intro _
  apply Raises.bind (Kernel.noPanic_must _)
  intro _
  apply Raises.bind (Kernel.noPanic_must _)
  intro _
  apply Raises.bind (Kernel.noPanic_netlink _)
  intro r
  apply Raises.bind
  · cases r with
    | error e => apply Raises.pure
    | ok gateways =>
      rw [delRoutes]
      split
      · apply Raises.forM
        intro g
        apply Raises.bind (Kernel.noPanic_netlink _)
        intro r
        cases r with
        | ok u => apply Raises.pure
        | error e =>
          dsimp only
          split
          · apply Raises.pure
          · apply Raises.throw nofun
      · apply Raises.pure
  intro _
  apply Kernel.noPanic_must

/-- What moving pods may change: the namespaces of pods. -/
def netnsFootprint : Footprint where
  names := ∅
  deletes := ∅
  paths := Set.univ
  new _ _ := False

/-- `UpdatePod` returns, and changes namespaces of pods only. -/
theorem updatePod_returns (nm : NetworkManager) (id : String) (args : PodAttachArgs) (s : System) :
  ∃ r s', (updatePod cfg nm id args).run s = .ok r s' ∧
    Changes netnsFootprint s.system s'.system
  := by
  rw [updatePod]
  split
  · exact ⟨_, s, rfl, Changes.refl _ _⟩
  case h_2 r _ =>
    dsimp only
    split
    · exact ⟨_, s, rfl, Changes.refl _ _⟩
    case h_2 ci _ =>
      split
      · exact ⟨_, s, rfl, Changes.refl _ _⟩
      case h_2 br _ =>
        obtain ⟨result, s', hrun⟩ :=
          (noPanic_updateLink cfg ci.netns ci.ifname ⟨ci.ip, r.subnet.mask⟩ br.ip.ip).attempt s
        refine ⟨_, s', run_bind_of_ok hrun _, ?_⟩
        have halong : Along (Within netnsFootprint) (attempt (updateLink cfg ci.netns ci.ifname
            ⟨ci.ip, r.subnet.mask⟩ br.ip.ip)) :=
          Kernel.along_attempt (along_updateLink cfg (Set.mem_univ ci.netns) _ _ _)
        exact (halong.rel s).of_run_ok hrun

/-- A loop over commands that return. -/
theorem forM_returns {α : Type} {f : α → Kernel.Command Unit}
    (hf : ∀ a s, ∃ s', (f a).run s = .ok () s' ∧ Changes netnsFootprint s.system s'.system)
    (as : List α) (s : System) :
  ∃ s', (as.forM f).run s = .ok () s' ∧ Changes netnsFootprint s.system s'.system
  := by
  induction as generalizing s with
  | nil => exact ⟨s, rfl, Changes.refl _ _⟩
  | cons a as ih =>
    obtain ⟨s₁, hrun, hchanges⟩ := hf a s
    obtain ⟨s₂, hrun', hchanges'⟩ := ih s₁
    exact ⟨s₂, (run_bind_of_ok hrun _).trans hrun', hchanges.trans hchanges'⟩

/-- Moving a pod to the new subnet returns, whether it succeeds or not. -/
theorem reconcilePod_returns (nm : NetworkManager) (id : String)
    (alloc : String × Ipam.ContainerNetInfo) (s : System) :
  ∃ s', (reconcilePod cfg nm id alloc).run s = .ok () s' ∧
    Changes netnsFootprint s.system s'.system
  := by
  obtain ⟨r, s', hrun, hchanges⟩ := updatePod_returns cfg nm id
    ⟨(splitPodKey alloc.1).1, (splitPodKey alloc.1).2, alloc.2.id, alloc.2.netns, alloc.2.ifname⟩ s
  exact ⟨s', run_bind_of_ok hrun _, hchanges⟩

/-- Moving the pods of a tenant fails exactly when the tenant has no record. -/
theorem reconcileExistingPods_refines (order : Order) (nm : NetworkManager) (id : String)
    (s : System) :
  ∃ s', (reconcileExistingPods cfg order nm id).run s = .ok (nm.reconcileExistingPods id) s' ∧
    Changes netnsFootprint s.system s'.system
  := by
  cases hrecord : nm.tenantRecords.lookup id with
  | none =>
    refine ⟨s, ?_, Changes.refl _ _⟩
    simp only [reconcileExistingPods, NetworkManager.reconcileExistingPods, hrecord]
    rfl
  | some r =>
    obtain ⟨s', hrun, hchanges⟩ := forM_returns (reconcilePod_returns cfg nm id)
      (order.visit r.ipam.listAllocations) s
    refine ⟨s', ?_, hchanges⟩
    simp only [reconcileExistingPods, NetworkManager.reconcileExistingPods, hrecord]
    rw [run_bind_of_ok hrun]
    rfl

end

/-! ### Tenants -/

section

variable {cfg : Config} {nm : NetworkManager} {id : String} {s : System}

/-- The command returns, changing the kernel within the footprint.  It leaves the manager that is
said, and its result is the one that is said up to the error. -/
structure Follows {α : Type} (F : Footprint) (x : Kernel.Command (Except Error α × NetworkManager))
    (s : System) (said : Except Error α × NetworkManager) (s' : System) : Prop where
  run : ∃ r, x.run s = .ok (r, said.2) s' ∧ r.toOption = said.1.toOption
  changes : Changes F s.system s'.system

/-- The outcomes of one call, given those for the devices. -/
def outcomes (o : Device.Outcomes) (policy : PolicyCall → Bool) (veth : Bool) : Outcomes where
  toOutcomes := o
  policy := policy
  setupVeth _ := veth
  ipamCreate := true
  ipamExpand := true

/-- What the part of `EnsureTenant` after the devices are made answers and records. -/
def finished (policy : PolicyCall → Bool) (nm : NetworkManager) (id : String) (subnetNet : IPNet)
    (be : Backend) : Except Error Unit × NetworkManager :=
  if policy (nm.policyCall id be) = false then
    (.error (.policy (nm.policyCall id be)), nm.deallocateSubnet id)
  else
    match Ipam.newBitmapIPAM (some subnetNet) with
    | .error e => (.error (.ipamCreate e), nm.deallocateSubnet id)
    | .ok ipm =>
      if (nm.tenantRecords.lookup id).isSome then (.ok (), nm.deallocateSubnet id)
      else (.ok (), commit nm id ⟨subnetNet, be, ipm, .ready⟩)

theorem lookup_commit (nm : NetworkManager) (id : String) (r : TenantRecord) :
  (commit nm id r).tenantRecords.lookup id = some r
  := by
  rw [commit]
  split
  · apply AList.lookup_insert
  · apply AList.lookup_insert

/-- The part after the devices are made leaves no record, or one with these devices. -/
theorem finishTenant_run {nodeName : String} {be : Backend}
    (policy : PolicyCall → Bool) (subnetNet : IPNet) (hpresent : Present cfg.hashes id be s.system)
    (hnone : nm.tenantRecords.lookup id = none) :
  ∃ s', (finishTenant cfg policy nm id subnetNet be).run s
      = .ok (finished policy nm id subnetNet be) s' ∧
    Changes (tenantFootprint cfg.hashes nodeName id) s.system s'.system ∧
    ∀ r, (finished policy nm id subnetNet be).2.tenantRecords.lookup id = some r →
      Present cfg.hashes id r.backend s'.system
  := by
  obtain ⟨result, be', s', hdelete, -⟩ := Kernel.delete_returns cfg hpresent.managers s
  have hchanges : Changes (tenantFootprint cfg.hashes nodeName id) s.system s'.system :=
    (Kernel.within_delete nodeName hpresent).of_run_ok hdelete
  have hgone : ∀ r, (nm.deallocateSubnet id).tenantRecords.lookup id = some r →
      Present cfg.hashes id r.backend s'.system := by
    intro r hr
    cases hnone.symm.trans hr
  by_cases hpolicy : policy (nm.policyCall id be) = false
  · simp only [finishTenant, finished, hpolicy, ↓reduceIte]
    exact ⟨s', run_bind_of_ok hdelete _, hchanges, hgone⟩
  cases hipam : Ipam.newBitmapIPAM (some subnetNet) with
  | error e =>
    simp only [finishTenant, finished, hpolicy, hipam]
    exact ⟨s', run_bind_of_ok hdelete _, hchanges, hgone⟩
  | ok ipm =>
    simp only [finishTenant, finished, hpolicy, hipam, hnone, Option.isSome_none,
      Bool.false_eq_true, ↓reduceIte]
    refine ⟨s, rfl, Changes.refl _ _, ?_⟩
    intro r hr
    cases (lookup_commit nm id ⟨subnetNet, be, ipm, .ready⟩).symm.trans hr
    exact hpresent

/-- The manager with outcomes does the same once the devices are made. -/
theorem ensureTenant_of_create {h : Hashes} {o : Device.Outcomes} {subnet : TrieManager}
    {subnetNet : IPNet} {be : Backend} (policy : PolicyCall → Bool) (hne : id ≠ "")
    (hnone : nm.tenantRecords.lookup id = none)
    (halloc : nm.subnet.allocate id = (.ok subnetNet, subnet))
    (hcreate : newBridgeVTEPBackend.create h o id subnetNet nm.nodeName = (.ok (), be)) :
  nm.ensureTenant h (outcomes o policy true) id
    = finished policy { nm with subnet := subnet } id subnetNet be
  := by
  simp only [NetworkManager.ensureTenant, hne, hnone, halloc, outcomes, hcreate, finished,
    Option.isSome_none, Bool.false_eq_true, Bool.true_eq_false, ↓reduceIte]
  cases Ipam.newBitmapIPAM (some subnetNet) with
  | error e => rfl
  | ok ipm =>
    simp only [commit]
    congr 1
    split
    · rfl
    · rfl

/-- `EnsureTenant` over the kernel is that of the network manager with the outcomes of its calls.
If the tenant has a record afterwards, it had it before, or its devices are now there. -/
theorem ensureTenant_refines (policy : PolicyCall → Bool) (huplink : Uplink cfg.hashes s.system)
    (hown : Owned cfg.hashes nm.nodeName id s.system) :
  ∃ o s', Follows (tenantFootprint cfg.hashes nm.nodeName id) (ensureTenant cfg policy nm id) s
      (nm.ensureTenant cfg.hashes (outcomes o policy true) id) s' ∧
    ∀ r, (nm.ensureTenant cfg.hashes (outcomes o policy true) id).2.tenantRecords.lookup id
      = some r →
      (nm.tenantRecords.lookup id = some r ∧ s'.system = s.system) ∨
        Present cfg.hashes id r.backend s'.system
  := by
  by_cases hne : id = ""
  · use Outcomes.done, s
    simp only [NetworkManager.ensureTenant, ensureTenant, hne, ↓reduceIte]
    exact ⟨⟨⟨_, rfl, rfl⟩, Changes.refl _ _⟩, fun r hr => .inl ⟨hr, trivial⟩⟩
  by_cases hsome : (nm.tenantRecords.lookup id).isSome
  · use Outcomes.done, s
    simp only [NetworkManager.ensureTenant, ensureTenant, hne, hsome, ↓reduceIte]
    exact ⟨⟨⟨_, rfl, rfl⟩, Changes.refl _ _⟩, fun r hr => .inl ⟨hr, trivial⟩⟩
  have hnone : nm.tenantRecords.lookup id = none := by
    simpa using hsome
  cases halloc : nm.subnet.allocate id with
  | mk result subnet =>
    cases result with
    | error e =>
      use Outcomes.done, s
      simp only [NetworkManager.ensureTenant, ensureTenant, hne, hsome, halloc, ↓reduceIte,
        Bool.false_eq_true]
      exact ⟨⟨⟨_, rfl, rfl⟩, Changes.refl _ _⟩, fun r hr => .inl ⟨hr, trivial⟩⟩
    | ok subnetNet =>
      obtain ⟨r, s₁, hrun, hchanges, o, hcases⟩ := Kernel.create_refines huplink hown subnetNet
      obtain ⟨be, rfl, hpresent, hcreate⟩ | ⟨e, e', rfl, hcreate⟩ := hcases
      · have hensure : (ensureTenant cfg policy nm id).run s
            = (finishTenant cfg policy { nm with subnet := subnet } id subnetNet be).run s₁ := by
          simp only [ensureTenant, hne, hsome, halloc, ↓reduceIte, Bool.false_eq_true]
          exact run_bind_of_ok hrun _
        obtain ⟨s', hfinish, hchanges', hrecord⟩ := finishTenant_run policy subnetNet hpresent
          (show ({ nm with subnet := subnet } : NetworkManager).tenantRecords.lookup id
            = none from hnone)
        use o, s'
        rw [ensureTenant_of_create policy hne hnone halloc hcreate]
        exact ⟨⟨⟨_, hensure.trans hfinish, rfl⟩, hchanges.trans hchanges'⟩,
          fun r hr => .inr (hrecord r hr)⟩
      · have hfailed : nm.ensureTenant cfg.hashes (outcomes o policy true) id
            = (.error (.backendCreate e'),
              NetworkManager.deallocateSubnet { nm with subnet := subnet } id) := by
          simp [NetworkManager.ensureTenant, hne, hnone, halloc, outcomes, hcreate]
        use o, s₁
        rw [hfailed]
        refine ⟨⟨⟨.error (.backendCreate (cause e)), ?_, rfl⟩, hchanges⟩, ?_⟩
        · simp only [ensureTenant, hne, hsome, halloc, ↓reduceIte, Bool.false_eq_true]
          exact run_bind_of_ok hrun _
        intro r hr
        cases hnone.symm.trans hr

/-- `RemoveTenant` over the kernel is that of the network manager, and changes nothing or drops the
record. -/
theorem removeTenant_refines (nodeName : String) (o : Outcomes)
    (hpresent : ∀ r, nm.tenantRecords.lookup id = some r →
      Present cfg.hashes id r.backend s.system) :
  ∃ s', Follows (tenantFootprint cfg.hashes nodeName id) (removeTenant cfg nm id) s
      (nm.removeTenant o id) s' ∧
    ((nm.removeTenant o id).2 = nm ∧ s'.system = s.system ∨
      (∃ r, nm.tenantRecords.lookup id = some r) ∧
        (nm.removeTenant o id).2.tenantRecords.lookup id = none)
  := by
  by_cases hne : id = ""
  · use s
    simp only [NetworkManager.removeTenant, removeTenant, hne, ↓reduceIte]
    exact ⟨⟨⟨_, rfl, rfl⟩, Changes.refl _ _⟩, .inl ⟨trivial, trivial⟩⟩
  cases hrecord : nm.tenantRecords.lookup id with
  | none =>
    use s
    simp only [NetworkManager.removeTenant, removeTenant, hne, hrecord, ↓reduceIte]
    exact ⟨⟨⟨_, rfl, rfl⟩, Changes.refl _ _⟩, .inl ⟨trivial, trivial⟩⟩
  | some r =>
    have hr := hpresent r hrecord
    obtain ⟨result, be', s', hdelete, hresult⟩ := Kernel.delete_returns cfg hr.managers s
    have hsaid : ∀ be', r.backend.delete o.toOutcomes ≠ (.error .nilManager, be') := by
      intro be' heq
      rw [Backend.delete, hr.managers] at heq
      grind
    have hremove : nm.removeTenant o id = (.ok (), { nm.deallocateSubnet id with
        tenantActors := nm.tenantActors.erase id
        tenantRecords := (nm.put id { r with state := .closing }).tenantRecords.erase id }) := by
      simp only [NetworkManager.removeTenant, hne, hrecord, ↓reduceIte]
      rfl
    refine ⟨s', ⟨⟨.ok (), ?_, by rw [hremove]⟩,
      (Kernel.within_delete nodeName hr).of_run_ok hdelete⟩, .inr ⟨⟨r, rfl⟩, ?_⟩⟩
    case refine_2 =>
      rw [hremove]
      apply AList.lookup_erase
    rw [hremove]
    simp only [removeTenant, hne, hrecord, ↓reduceIte]
    rw [run_bind_of_ok hdelete]
    split
    case h_1 heq =>
      exact absurd (Prod.mk.inj heq).1 hresult
    case h_2 => rfl

/-- What moving the devices of a tenant may change. -/
def moveFootprint (h : Hashes) (id : String) : Footprint where
  names := {bridgeName h id, vtepName h id}
  deletes := ∅
  paths := ∅
  new _ _ := False

/-- The record has both devices, under the names of the tenant. -/
def Named (h : Hashes) (id : String) (be : Backend) : Prop :=
  ∃ br vt, be = ⟨true, some br, some vt⟩ ∧ br.name = bridgeName h id ∧ vt.name = vtepName h id

/-- Devices that are there have records with their names. -/
theorem Named.of_present {h : Hashes} {be : Backend} {k : State} (hpresent : Present h id be k) :
  Named h id be
  := by
  obtain ⟨managers, bridge, vtep⟩ := be
  obtain ⟨hmanagers, ⟨br, -, hbr, hname, -⟩, vt, -, -, hvt, hvname, -⟩ := hpresent
  cases hmanagers
  cases hbr
  cases hvt
  exact ⟨br, vt, rfl, hname, hvname⟩

/-- Moving devices keeps their names. -/
theorem Named.moved {h : Hashes} {be be' : Backend} (hnamed : Named h id be)
    (hmoved : Moved be be') :
  Named h id be'
  := by
  obtain ⟨br, vt, rfl, hname, hvname⟩ := hnamed
  obtain ⟨managers, bridge, vtep⟩ := be'
  obtain ⟨hmanagers, hbridge, hvtep⟩ := hmoved
  cases hmanagers
  cases hvtep
  obtain ⟨br', rfl, heq⟩ := Option.map_eq_some_iff.mp hbridge
  exact ⟨br', vt, rfl, (Prod.mk.inj heq).1.trans hname, hvname⟩

/-- `ExpandTenant` over the kernel is that of the network manager with the outcomes of its calls. -/
theorem expandTenant_refines
    (hnamed : ∀ r, nm.tenantRecords.lookup id = some r → Named cfg.hashes id r.backend) :
  ∃ o s', ∀ policy veth, Follows (moveFootprint cfg.hashes id) (expandTenant cfg nm id) s
    (nm.expandTenant (outcomes o policy veth) id) s'
  := by
  cases hrecord : nm.tenantRecords.lookup id with
  | none =>
    refine ⟨Outcomes.done, s, fun policy veth => ?_⟩
    simp only [NetworkManager.expandTenant, expandTenant, hrecord]
    exact ⟨⟨_, rfl, rfl⟩, Changes.refl _ _⟩
  | some r =>
    cases hexpand : nm.subnet.expand id with
    | mk result subnet =>
      cases result with
      | error e =>
        refine ⟨Outcomes.done, s, fun policy veth => ?_⟩
        simp only [NetworkManager.expandTenant, expandTenant, hrecord, hexpand]
        exact ⟨⟨_, rfl, rfl⟩, Changes.refl _ _⟩
      | ok newNet =>
        obtain ⟨br, vt, hbe, hname, hvname⟩ := hnamed r hrecord
        obtain ⟨result, be, s', hrun, o, result', hupdate, hresult⟩ :=
          Kernel.update_refines cfg br vt newNet s
        have hchanges : Changes (moveFootprint cfg.hashes id) s.system s'.system := by
          apply ((Kernel.along_update _ newNet _ _).rel s).of_run_ok hrun
          · rintro _ ⟨⟩
            exact Or.inl hname
          · rintro _ ⟨⟩
            exact Or.inr hvname
        rw [← hbe] at hrun hupdate
        refine ⟨o, s', fun policy veth => ⟨?_, hchanges⟩⟩
        simp only [NetworkManager.expandTenant, expandTenant, hrecord, hexpand, outcomes, hupdate]
        rw [run_bind_of_ok hrun]
        cases result with
        | error e =>
          cases result' with
          | ok u => cases hresult
          | error e' => exact ⟨_, rfl, rfl⟩
        | ok u =>
          cases result' with
          | error e' => cases hresult
          | ok u' =>
            dsimp only
            cases r.ipam.expand (some newNet) with
            | mk result ipam =>
              cases result with
              | error e => exact ⟨_, rfl, rfl⟩
              | ok u => exact ⟨_, rfl, rfl⟩

/-- However far an expansion gets, it keeps the devices. -/
theorem expandTenant_moved (o : Outcomes) {r' : TenantRecord}
    (hr' : (nm.expandTenant o id).2.tenantRecords.lookup id = some r') :
  ∃ r, nm.tenantRecords.lookup id = some r ∧ Moved r.backend r'.backend
  := by
  rw [NetworkManager.expandTenant] at hr'
  split at hr'
  · exact ⟨r', hr', Moved.refl _⟩
  case h_2 r hr =>
    refine ⟨r, hr, ?_⟩
    split at hr'
    · cases hr.symm.trans hr'
      apply Moved.refl
    case h_2 newNet subnet _ =>
      have hmoved := Kernel.moved_update o.toOutcomes r.backend newNet
      dsimp only at hr'
      split at hr'
      case h_1 e be heq =>
        rw [heq] at hmoved
        cases (AList.lookup_insert _).symm.trans hr'
        exact hmoved
      case h_2 be heq =>
        rw [heq] at hmoved
        split at hr'
        · cases (AList.lookup_insert _).symm.trans hr'
          exact hmoved
        split at hr'
        · cases (AList.lookup_insert _).symm.trans hr'
          exact hmoved
        · cases (AList.lookup_insert _).symm.trans hr'
          exact hmoved

/-! ### Requests for pods -/

/-- What a request for a pod may change: the devices of its tenant, which are moved, the interfaces
of the host to the pods, and the namespaces of the pods. -/
def podsFootprint (h : Hashes) (id : String) : Footprint where
  names := {name | name = bridgeName h id ∨ name = vtepName h id ∨
    ∃ suffix, name = vethName suffix}
  deletes := ∅
  paths := Set.univ
  new name kind := (∃ suffix, name = vethName suffix) ∧ ∃ netns peer, kind = .veth netns peer

/-- Moving the devices of a tenant is part of what a pod request may do. -/
theorem moveFootprint_le (h : Hashes) (id : String) :
  (moveFootprint h id).Le (podsFootprint h id)
  where
  names _ hname := hname.imp_right Or.inl
  deletes := subset_rfl
  paths := Set.empty_subset _
  new _ _ := False.elim

/-- So is moving its pods. -/
theorem netnsFootprint_le (h : Hashes) (id : String) :
  netnsFootprint.Le (podsFootprint h id)
  where
  names := Set.empty_subset _
  deletes := subset_rfl
  paths := subset_rfl
  new _ _ := False.elim

/-- So is attaching a pod. -/
theorem vethFootprint_le (h : Hashes) (id path : String) (free : Set String) :
  (vethFootprint path free).Le (podsFootprint h id)
  where
  names _ hname := .inr (.inr hname.2)
  deletes := subset_rfl
  paths := Set.subset_univ _
  new _ _ hnew := ⟨hnew.1, path, hnew.2⟩

/-- `EnsurePod` over the kernel is that of the network manager, where the interface of the pod is
set up or not. -/
theorem ensurePod_run (cfg : Config) (nm : NetworkManager) (id : String) (s : System)
    (suffixes : List String) (args : PodAttachArgs) :
  ∃ veth s', (∀ o policy, (ensurePod cfg suffixes nm id args).run s
      = .ok (nm.ensurePod (outcomes o policy veth) id args) s') ∧
    Changes (podsFootprint cfg.hashes id) s.system s'.system
  := by
  cases hrecord : nm.tenantRecords.lookup id with
  | none =>
    refine ⟨true, s, fun o policy => ?_, Changes.refl _ _⟩
    simp only [ensurePod, NetworkManager.ensurePod, hrecord]
    rfl
  | some r =>
    by_cases hclosing : r.state = .closing
    · refine ⟨true, s, fun o policy => ?_, Changes.refl _ _⟩
      simp only [ensurePod, NetworkManager.ensurePod, hrecord, hclosing, ↓reduceIte]
      rfl
    cases halloc : r.ipam.allocate (podKey args.namespaceName args.podName) args.containerID
        args.ifName args.netNS with
    | mk result ipam =>
      cases result with
      | error e =>
        refine ⟨true, s, fun o policy => ?_, Changes.refl _ _⟩
        simp only [ensurePod, NetworkManager.ensurePod, hrecord, hclosing, halloc, ↓reduceIte]
        rfl
      | ok ci =>
        cases hbridge : r.backend.bridge with
        | none =>
          refine ⟨true, s, fun o policy => ?_, Changes.refl _ _⟩
          simp only [ensurePod, NetworkManager.ensurePod, hrecord, hclosing, halloc, hbridge,
            ↓reduceIte]
          rfl
        | some br =>
          obtain ⟨result, s', hrun⟩ := (Kernel.noPanic_setupVeth cfg args.netNS br.name 1500
            args.ifName ⟨ci.ip, r.subnet.mask⟩ br.ip.ip suffixes).attempt s
          refine ⟨result.isOk, s', fun o policy => ?_, ?_⟩
          · simp only [ensurePod, NetworkManager.ensurePod, hrecord, hclosing, halloc, hbridge,
              outcomes, ↓reduceIte]
            rw [run_bind_of_ok hrun]
            cases result with
            | ok u => rfl
            | error e => rfl
          · have hwithin : Within (vethFootprint args.netNS Set.univ) s (final (attempt
                (Kernel.setupVeth cfg args.netNS br.name 1500 args.ifName ⟨ci.ip, r.subnet.mask⟩
                  br.ip.ip suffixes)) s) :=
              Kernel.within_attempt
                (Kernel.within_setupVeth _ _ _ _ _ _ _ fun n _ => Set.mem_univ n)
            exact (hwithin.of_run_ok hrun).mono (vethFootprint_le _ _ _ _)

/-- An attempt to attach a pod does not depend on the outcomes for devices. -/
theorem ensurePod_refines (cfg : Config) (nm : NetworkManager) (id : String) (s : System)
    (suffixes : List String) (args : PodAttachArgs) :
  ∃ veth result nm' s', (ensurePod cfg suffixes nm id args).run s = .ok (result, nm') s' ∧
    (∀ o policy, nm.ensurePod (outcomes o policy veth) id args = (result, nm')) ∧
    Changes (podsFootprint cfg.hashes id) s.system s'.system
  := by
  obtain ⟨veth, s', hrun, hchanges⟩ := ensurePod_run cfg nm id s suffixes args
  refine ⟨veth, _, _, s', hrun Outcomes.done fun _ => true, ?_, hchanges⟩
  intro o policy
  exact (EStateM.Result.ok.inj ((hrun o policy).symm.trans (hrun _ _))).1

/-- Attaching a pod keeps the devices of the tenant. -/
theorem ensurePod_backend (o : Outcomes) (args : PodAttachArgs) {r' : TenantRecord}
    (hr' : (nm.ensurePod o id args).2.tenantRecords.lookup id = some r') :
  ∃ r, nm.tenantRecords.lookup id = some r ∧ Moved r.backend r'.backend
  := by
  rw [NetworkManager.ensurePod] at hr'
  split at hr'
  · exact ⟨r', hr', Moved.refl _⟩
  case h_2 r hr =>
    refine ⟨r, hr, ?_⟩
    split at hr'
    · cases hr.symm.trans hr'
      apply Moved.refl
    dsimp only at hr'
    split at hr'
    · cases (AList.lookup_insert _).symm.trans hr'
      apply Moved.refl
    split at hr'
    · cases (AList.lookup_insert _).symm.trans hr'
      apply Moved.refl
    split at hr'
    · cases (AList.lookup_insert _).symm.trans hr'
      apply Moved.refl
    · cases (AList.lookup_insert _).symm.trans hr'
      apply Moved.refl

/-- An expansion over the kernel, with the moves of the pods, is one of the network manager. -/
theorem requestTenantExpansion_refines
    (hnamed : ∀ r, nm.tenantRecords.lookup id = some r → Named cfg.hashes id r.backend) :
  ∃ o s', ∀ policy veth, Follows (moveFootprint cfg.hashes id) (requestTenantExpansion cfg nm id) s
    (nm.requestTenantExpansion (outcomes o policy veth) id) s'
  := by
  cases hrecord : nm.tenantRecords.lookup id with
  | none =>
    refine ⟨Outcomes.done, s, fun policy veth => ?_⟩
    simp only [requestTenantExpansion, NetworkManager.requestTenantExpansion, hrecord]
    exact ⟨⟨_, rfl, rfl⟩, Changes.refl _ _⟩
  | some r =>
    by_cases hclosing : r.state = .closing
    · refine ⟨Outcomes.done, s, fun policy veth => ?_⟩
      simp only [requestTenantExpansion, NetworkManager.requestTenantExpansion, hrecord, hclosing,
        ↓reduceIte]
      exact ⟨⟨_, rfl, rfl⟩, Changes.refl _ _⟩
    obtain ⟨o, s', hfollows⟩ := expandTenant_refines (s := s) hnamed
    refine ⟨o, s', fun policy veth => ?_⟩
    obtain ⟨⟨result, hrun, hresult⟩, hchanges⟩ := hfollows policy veth
    simp only [requestTenantExpansion, NetworkManager.requestTenantExpansion, hrecord, hclosing,
      ↓reduceIte]
    refine ⟨⟨_, run_bind_of_ok hrun _, ?_⟩, hchanges⟩
    cases result with
    | error e =>
      cases hsaid : (nm.expandTenant (outcomes o policy veth) id).1 with
      | error e' => rfl
      | ok r' =>
        rw [hsaid] at hresult
        cases hresult
    | ok r =>
      cases hsaid : (nm.expandTenant (outcomes o policy veth) id).1 with
      | error e' =>
        rw [hsaid] at hresult
        cases hresult
      | ok r' => rfl

/-- An expansion keeps the devices, up to their addresses. -/
theorem requestTenantExpansion_moved (o : Outcomes) {r' : TenantRecord}
    (hr' : (nm.requestTenantExpansion o id).2.tenantRecords.lookup id = some r') :
  ∃ r, nm.tenantRecords.lookup id = some r ∧ Moved r.backend r'.backend
  := by
  rw [NetworkManager.requestTenantExpansion] at hr'
  split at hr'
  · exact ⟨r', hr', Moved.refl _⟩
  split at hr'
  · exact ⟨r', hr', Moved.refl _⟩
  · apply expandTenant_moved o hr'

/-- The attempts depend only on the outcomes of the retries that are left. -/
theorem ensurePodRetry_congr {o o' : ℕ → Outcomes} (args : PodAttachArgs) {retries : ℕ}
    (h : ∀ n ≤ retries, o n = o' n) (nm : NetworkManager) :
  nm.ensurePodRetry o id args retries = nm.ensurePodRetry o' id args retries
  := by
  induction retries generalizing nm with
  | zero => rw [NetworkManager.ensurePodRetry, NetworkManager.ensurePodRetry, h 0 le_rfl]
  | succ retries ih =>
    have hrest := ih fun n hn => h n (by omega)
    rw [NetworkManager.ensurePodRetry, NetworkManager.ensurePodRetry]
    simp only [hrest, h (retries + 1) le_rfl]

theorem ensurePodRetry_zero (o : ℕ → Outcomes) (args : PodAttachArgs) (nm : NetworkManager) :
  nm.ensurePodRetry o id args 0 = nm.ensurePod (o 0) id args
  := by
  rw [NetworkManager.ensurePodRetry]
  split
  case h_1 heq => rw [heq]
  case h_2 => rfl

/-- The tenant has the devices it had before. -/
def KeepsDevices (nm : NetworkManager) (id : String) (nm' : NetworkManager) : Prop :=
  ∀ r', nm'.tenantRecords.lookup id = some r' →
    ∃ r, nm.tenantRecords.lookup id = some r ∧ Moved r.backend r'.backend

theorem KeepsDevices.trans {nm' nm'' : NetworkManager} (h : KeepsDevices nm id nm')
    (h' : KeepsDevices nm' id nm'') :
  KeepsDevices nm id nm''
  := by
  intro r'' hr''
  obtain ⟨r', hr', hmoved'⟩ := h' r'' hr''
  obtain ⟨r, hr, hmoved⟩ := h r' hr'
  exact ⟨r, hr, hmoved.trans hmoved'⟩

/-- Devices that are kept have the names they had. -/
theorem KeepsDevices.named {h : Hashes} {nm' : NetworkManager} (hkeeps : KeepsDevices nm id nm')
    (hnamed : ∀ r, nm.tenantRecords.lookup id = some r → Named h id r.backend) :
  ∀ r', nm'.tenantRecords.lookup id = some r' → Named h id r'.backend
  := by
  intro r' hr'
  obtain ⟨r, hr, hmoved⟩ := hkeeps r' hr'
  apply (hnamed r hr).moved hmoved

section

variable {o : ℕ → Outcomes} {args : PodAttachArgs} {retries : ℕ} {nm₁ nm₂ : NetworkManager}

/-- An attempt that is the last one. -/
theorem ensurePodRetry_done {result : Except Error PodAttachment}
    (hpod : nm.ensurePod (o (retries + 1)) id args = (result, nm₁))
    (hresult : ∀ n, result ≠ .error (.ipam (.noAvailableIPs n))) :
  nm.ensurePodRetry o id args (retries + 1) = (result, nm₁)
  := by
  rw [NetworkManager.ensurePodRetry, hpod]
  split
  case h_1 n nm' heq => exact absurd (Prod.mk.inj heq).1 (hresult n)
  case h_2 => rfl

/-- An attempt that finds no address, and an expansion that fails. -/
theorem ensurePodRetry_failed {n : IPNet} {e : Error}
    (hpod : nm.ensurePod (o (retries + 1)) id args = (.error (.ipam (.noAvailableIPs n)), nm₁))
    (hexpand : nm₁.requestTenantExpansion (o (retries + 1)) id = (.error e, nm₂)) :
  nm.ensurePodRetry o id args (retries + 1) = (.error (.expandTenant e), nm₂)
  := by
  rw [NetworkManager.ensurePodRetry, hpod]
  simp only [hexpand]

/-- An attempt that finds no address, and an expansion after which the pods are not moved. -/
theorem ensurePodRetry_unmoved {n : IPNet} {e : Error}
    (hpod : nm.ensurePod (o (retries + 1)) id args = (.error (.ipam (.noAvailableIPs n)), nm₁))
    (hexpand : nm₁.requestTenantExpansion (o (retries + 1)) id = (.ok (), nm₂))
    (hpods : nm₂.reconcileExistingPods id = .error e) :
  nm.ensurePodRetry o id args (retries + 1) = (.error (.reconcilePods e), nm₂)
  := by
  rw [NetworkManager.ensurePodRetry, hpod]
  simp only [hexpand, hpods]

/-- An attempt that finds no address, and an expansion before the next one. -/
theorem ensurePodRetry_again {n : IPNet}
    (hpod : nm.ensurePod (o (retries + 1)) id args = (.error (.ipam (.noAvailableIPs n)), nm₁))
    (hexpand : nm₁.requestTenantExpansion (o (retries + 1)) id = (.ok (), nm₂))
    (hpods : nm₂.reconcileExistingPods id = .ok ()) :
  nm.ensurePodRetry o id args (retries + 1) = nm₂.ensurePodRetry o id args retries
  := by
  rw [NetworkManager.ensurePodRetry, hpod]
  simp only [hexpand, hpods]

end

section

variable {choices : ℕ → Choice} {args : PodAttachArgs} {retries : ℕ} {n : IPNet}
  {nm₁ nm₂ : NetworkManager} {s₁ s₂ s₃ : System}

/-- The runs of a node after an attempt that finds no address: the expansion fails. -/
theorem run_ensurePodRetry_failed {e : Error}
    (hpod : (ensurePod cfg (choices (retries + 1)).suffixes nm id args).run s
      = .ok (.error (.ipam (.noAvailableIPs n)), nm₁) s₁)
    (hexpand : (requestTenantExpansion cfg nm₁ id).run s₁ = .ok (.error e, nm₂) s₂) :
  (ensurePodRetry cfg choices id args (retries + 1) nm).run s
    = .ok (.error (.expandTenant e), nm₂) s₂
  := by
  rw [ensurePodRetry, run_bind_of_ok hpod, run_bind_of_ok hexpand]
  rfl

/-- The expansion succeeds, and the pods are not moved. -/
theorem run_ensurePodRetry_unmoved {e : Error}
    (hpod : (ensurePod cfg (choices (retries + 1)).suffixes nm id args).run s
      = .ok (.error (.ipam (.noAvailableIPs n)), nm₁) s₁)
    (hexpand : (requestTenantExpansion cfg nm₁ id).run s₁ = .ok (.ok (), nm₂) s₂)
    (hpods : (reconcileExistingPods cfg (choices (retries + 1)).order nm₂ id).run s₂
      = .ok (.error e) s₃) :
  (ensurePodRetry cfg choices id args (retries + 1) nm).run s
    = .ok (.error (.reconcilePods e), nm₂) s₃
  := by
  rw [ensurePodRetry, run_bind_of_ok hpod, run_bind_of_ok hexpand, run_bind_of_ok hpods]
  rfl

/-- The expansion succeeds, and the pods are moved. -/
theorem run_ensurePodRetry_again
    (hpod : (ensurePod cfg (choices (retries + 1)).suffixes nm id args).run s
      = .ok (.error (.ipam (.noAvailableIPs n)), nm₁) s₁)
    (hexpand : (requestTenantExpansion cfg nm₁ id).run s₁ = .ok (.ok (), nm₂) s₂)
    (hpods : (reconcileExistingPods cfg (choices (retries + 1)).order nm₂ id).run s₂
      = .ok (.ok ()) s₃) :
  (ensurePodRetry cfg choices id args (retries + 1) nm).run s
    = (ensurePodRetry cfg choices id args retries nm₂).run s₃
  := by
  rw [ensurePodRetry, run_bind_of_ok hpod, run_bind_of_ok hexpand, run_bind_of_ok hpods]

/-- The attempts after one that finds no address, given those after the expansion. -/
theorem ensurePodRetry_exhausted {veth : Bool}
    (ih : ∀ {nm : NetworkManager} {s : System},
      (∀ r, nm.tenantRecords.lookup id = some r → Named cfg.hashes id r.backend) →
      ∃ o s', Follows (podsFootprint cfg.hashes id)
          (ensurePodRetry cfg choices id args retries nm) s
          (nm.ensurePodRetry o id args retries) s' ∧
        KeepsDevices nm id (nm.ensurePodRetry o id args retries).2)
    (hrun : (ensurePod cfg (choices (retries + 1)).suffixes nm id args).run s
      = .ok (.error (.ipam (.noAvailableIPs n)), nm₁) s₁)
    (hpod : ∀ o policy, nm.ensurePod (outcomes o policy veth) id args
      = (.error (.ipam (.noAvailableIPs n)), nm₁))
    (hchanges : Changes (podsFootprint cfg.hashes id) s.system s₁.system)
    (hkeeps : KeepsDevices nm id nm₁)
    (hnamed : ∀ r, nm.tenantRecords.lookup id = some r → Named cfg.hashes id r.backend) :
  ∃ o s', Follows (podsFootprint cfg.hashes id)
      (ensurePodRetry cfg choices id args (retries + 1) nm) s
      (nm.ensurePodRetry o id args (retries + 1)) s' ∧
    KeepsDevices nm id (nm.ensurePodRetry o id args (retries + 1)).2
  := by
  obtain ⟨o, s₂, hrequest⟩ := requestTenantExpansion_refines (s := s₁) (hkeeps.named hnamed)
  obtain ⟨⟨result₂, hrun₂, hresult₂⟩, hchanges₂⟩ := hrequest (fun _ => true) veth
  have hkeeps₂ : KeepsDevices nm₁ id _ := fun r' =>
    requestTenantExpansion_moved (outcomes o (fun _ => true) veth)
  replace hchanges₂ := hchanges.trans (hchanges₂.mono (moveFootprint_le cfg.hashes id))
  replace hpod := hpod o fun _ => true
  generalize outcomes o (fun _ => true) veth = out at hpod hrun₂ hresult₂ hkeeps₂
  cases hexpand : nm₁.requestTenantExpansion out id with
  | mk said nm₂ =>
    rw [hexpand] at hrun₂ hresult₂ hkeeps₂
    replace hkeeps₂ := hkeeps.trans hkeeps₂
    cases said with
    | error e =>
      cases result₂ with
      | ok u => cases hresult₂
      | error e' =>
        have hfailed : nm.ensurePodRetry (fun _ => out) id args (retries + 1) = _ :=
          ensurePodRetry_failed hpod hexpand
        refine ⟨fun _ => out, s₂, ?_⟩
        rw [hfailed]
        exact ⟨⟨⟨_, run_ensurePodRetry_failed hrun hrun₂, rfl⟩, hchanges₂⟩, hkeeps₂⟩
    | ok u =>
      cases result₂ with
      | error e => cases hresult₂
      | ok u' =>
        obtain ⟨s₃, hrun₃, hchanges₃⟩ :=
          reconcileExistingPods_refines cfg (choices (retries + 1)).order nm₂ id s₂
        replace hchanges₃ := hchanges₂.trans (hchanges₃.mono (netnsFootprint_le cfg.hashes id))
        cases hpods : nm₂.reconcileExistingPods id with
        | error e =>
          rw [hpods] at hrun₃
          have hunmoved : nm.ensurePodRetry (fun _ => out) id args (retries + 1) = _ :=
            ensurePodRetry_unmoved hpod hexpand hpods
          refine ⟨fun _ => out, s₃, ?_⟩
          rw [hunmoved]
          exact ⟨⟨⟨_, run_ensurePodRetry_unmoved hrun hrun₂ hrun₃, rfl⟩, hchanges₃⟩, hkeeps₂⟩
        | ok u =>
          rw [hpods] at hrun₃
          obtain ⟨o', s₄, ⟨⟨result₄, hrun₄, hresult₄⟩, hchanges₄⟩, hkeeps₄⟩ :=
            ih (s := s₃) (hkeeps₂.named hnamed)
          have hself : Function.update o' (retries + 1) out (retries + 1) = out :=
            Function.update_self ..
          have hagain :
              nm.ensurePodRetry (Function.update o' (retries + 1) out) id args (retries + 1)
                = nm₂.ensurePodRetry o' id args retries := by
            rw [ensurePodRetry_again (hself.symm ▸ hpod) (hself.symm ▸ hexpand) hpods]
            apply ensurePodRetry_congr
            intro m hm
            apply Function.update_of_ne
            omega
          refine ⟨Function.update o' (retries + 1) out, s₄, ?_⟩
          rw [hagain]
          exact ⟨⟨⟨_, (run_ensurePodRetry_again hrun hrun₂ hrun₃).trans hrun₄, hresult₄⟩,
            hchanges₃.trans hchanges₄⟩, hkeeps₂.trans hkeeps₄⟩

end

/-- The attempts to attach a pod, with their expansions. -/
theorem ensurePodRetry_refines (choices : ℕ → Choice) (args : PodAttachArgs) (retries : ℕ)
    (hnamed : ∀ r, nm.tenantRecords.lookup id = some r → Named cfg.hashes id r.backend) :
  ∃ o s', Follows (podsFootprint cfg.hashes id) (ensurePodRetry cfg choices id args retries nm) s
      (nm.ensurePodRetry o id args retries) s' ∧
    KeepsDevices nm id (nm.ensurePodRetry o id args retries).2
  := by
  induction retries generalizing nm s with
  | zero =>
    obtain ⟨veth, result, nm', s', hrun, hpod, hchanges⟩ :=
      ensurePod_refines cfg nm id s (choices 0).suffixes args
    refine ⟨fun _ => outcomes Outcomes.done (fun _ => true) veth, s', ?_, ?_⟩
    · rw [ensurePodRetry_zero, hpod]
      exact ⟨⟨_, hrun, rfl⟩, hchanges⟩
    · rw [ensurePodRetry_zero]
      intro r'
      apply ensurePod_backend
  | succ retries ih =>
    obtain ⟨veth, result, nm₁, s₁, hrun, hpod, hchanges⟩ :=
      ensurePod_refines cfg nm id s (choices (retries + 1)).suffixes args
    have hkeeps : KeepsDevices nm id nm₁ := by
      intro r' hr'
      apply ensurePod_backend (outcomes Outcomes.done (fun _ => true) veth)
        args
      rw [hpod]
      exact hr'
    by_cases hexhausted : ∃ n, result = .error (.ipam (.noAvailableIPs n))
    case pos =>
      obtain ⟨n, rfl⟩ := hexhausted
      apply ensurePodRetry_exhausted ih hrun hpod hchanges hkeeps hnamed
    case neg =>
      replace hpod := hpod Outcomes.done fun _ => true
      generalize outcomes Outcomes.done (fun _ => true) veth = out at hpod
      have hdone : nm.ensurePodRetry (fun _ => out) id args (retries + 1) = _ :=
        ensurePodRetry_done hpod (not_exists.mp hexhausted)
      refine ⟨fun _ => out, s₁, ?_⟩
      rw [hdone]
      refine ⟨⟨⟨result, ?_, rfl⟩, hchanges⟩, hkeeps⟩
      rw [ensurePodRetry, run_bind_of_ok hrun]
      split
      case h_1 n nm' heq => exact absurd ⟨n, (Prod.mk.inj heq).1⟩ hexhausted
      case h_2 => rfl

end

end Node

end Nmanager
