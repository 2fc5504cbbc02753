import Misokube.Ipam.Invariant
import Misokube.Nmanager.Steps

/-!
# Failed pod requests

`EnsurePod` allocates before it looks for the bridge and sets up the interface, and undoes the
allocation by freeing the address.  A failed request leaves the IPAM as it was exactly when there
is something to undo and the undo restores it (`ensurePod_atomic_iff`): not without a bridge, and
not for a pod that was listed already, whose entry the allocation has replaced.
-/

namespace Nmanager

open Net Device Trie

/-- If the request fails, then the IPAM of the tenant lists the same entries and has as many
addresses left as before. -/
def Atomic (o : Outcomes) (nm : NetworkManager) (tenantID : String) (args : PodAttachArgs) : Prop :=
  ∀ e, (nm.ensurePod o tenantID args).1 = .error e →
    ∀ r, nm.tenantRecords.lookup tenantID = some r →
      ∃ r', (nm.ensurePod o tenantID args).2.tenantRecords.lookup tenantID = some r'
        ∧ Ipam.SameAllocations r.ipam r'.ipam

/-- What `SetupVeth` is called with for the next address of the tenant. -/
def TenantRecord.vethCall (r : TenantRecord) (br : Bridge) (args : PodAttachArgs) : VethCall :=
  ⟨args.netNS, br.name, 1500, args.ifName, ⟨r.ipam.nextIP, r.subnet.mask⟩, br.ip.ip⟩

/-- Nothing is allocated; or there is a bridge, and `SetupVeth` succeeds or the pod was not
listed. -/
def TenantRecord.Undoable (o : Outcomes) (r : TenantRecord) (args : PodAttachArgs) : Prop :=
  r.state = .closing ∨ r.ipam.remaining = 0
    ∨ ∃ br, r.backend.bridge = some br ∧ (o.setupVeth (r.vethCall br args) = true
      ∨ r.ipam.getAllocation (podKey args.namespaceName args.podName) = none)

section

variable {o : Outcomes} {nm : NetworkManager} {tenantID : String} {args : PodAttachArgs}
  {r : TenantRecord}

/-- With a record, the request is atomic if it succeeds or leaves a record of the same
allocations. -/
theorem atomic_iff_of_lookup (hlookup : nm.tenantRecords.lookup tenantID = some r)
    {result : Except Error PodAttachment} {r' : TenantRecord} {nm' : NetworkManager}
    (hensure : nm.ensurePod o tenantID args = (result, nm'))
    (hlookup' : nm'.tenantRecords.lookup tenantID = some r') :
  Atomic o nm tenantID args ↔ ∀ e, result = .error e → Ipam.SameAllocations r.ipam r'.ipam
  := by
  simp only [Atomic, hensure, hlookup, hlookup', Option.some.injEq, forall_eq', exists_eq_left']

/-- A request that is refused is atomic, and so is one for which no address is left. -/
theorem atomic_of_not_allocated (hlookup : nm.tenantRecords.lookup tenantID = some r)
    (hnone : r.state = .closing ∨ ∀ key containerID ifName netns,
      ∃ e, r.ipam.allocate key containerID ifName netns = (.error e, r.ipam)) :
  Atomic o nm tenantID args
  := by
  by_cases hclosing : r.state = .closing
  · have hensure : nm.ensurePod o tenantID args = (.error .tenantClosing, nm) := by
      simp only [NetworkManager.ensurePod, hlookup, if_pos hclosing]
    rw [atomic_iff_of_lookup hlookup hensure hlookup]
    intro _ _
    apply Ipam.SameAllocations.refl
  · obtain ⟨e, halloc⟩ := hnone.resolve_left hclosing (podKey args.namespaceName args.podName)
      args.containerID args.ifName args.netNS
    have hensure : nm.ensurePod o tenantID args = (.error (.ipam e), nm.put tenantID r) := by
      simp only [NetworkManager.ensurePod, hlookup, if_neg hclosing, halloc]
    rw [atomic_iff_of_lookup hlookup hensure (AList.lookup_insert _)]
    intro _ _
    apply Ipam.SameAllocations.refl

/-- Once an address is allocated, the request is atomic if there is a bridge, and the interface is
set up or the pod was not listed. -/
theorem atomic_iff_of_allocated (hlookup : nm.tenantRecords.lookup tenantID = some r)
    (hsound : Ipam.Sound r.ipam) (hready : ¬ r.state = .closing) {ci : Ipam.ContainerNetInfo}
    {ipam : Ipam.BitmapIPAM}
    (halloc : r.ipam.allocate (podKey args.namespaceName args.podName) args.containerID
      args.ifName args.netNS = (.ok ci, ipam)) :
  Atomic o nm tenantID args
    ↔ ∃ br, r.backend.bridge = some br ∧ (o.setupVeth (r.vethCall br args) = true
      ∨ r.ipam.getAllocation (podKey args.namespaceName args.podName) = none)
  := by
  have hip := Ipam.allocate_ok halloc
  cases hbridge : r.backend.bridge with
  | none =>
    have hensure : nm.ensurePod o tenantID args
        = (.error (.bridgeNotFound tenantID), nm.put tenantID { r with ipam := ipam }) := by
      simp only [NetworkManager.ensurePod, hlookup, if_neg hready, halloc, hbridge]
    rw [atomic_iff_of_lookup hlookup hensure (AList.lookup_insert _)]
    -- the address stays allocated
    have hremaining := hsound.remaining_allocate halloc
    simp only [Except.error.injEq, forall_eq', Ipam.SameAllocations]
    constructor
    · rintro ⟨-, hsame⟩
      omega
    · simp
  | some br =>
    by_cases hveth : o.setupVeth (r.vethCall br args) = true
    · have hensure : nm.ensurePod o tenantID args
          = (.ok ⟨⟨ci.ip, r.subnet.mask⟩, br.ip.ip, args.ifName⟩,
            nm.put tenantID { r with ipam := ipam }) := by
        rw [TenantRecord.vethCall, ← hip] at hveth
        simp only [NetworkManager.ensurePod, hlookup, if_neg hready, halloc, hbridge, if_pos hveth]
      rw [atomic_iff_of_lookup hlookup hensure (AList.lookup_insert _)]
      simp [hveth]
    · have hensure : nm.ensurePod o tenantID args
          = (.error .setupVeth, (nm.put tenantID { r with ipam := ipam }).put tenantID
            { r with ipam := (ipam.free ci.ip).2 }) := by
        have hcall := hveth
        rw [TenantRecord.vethCall, ← hip] at hcall
        simp only [NetworkManager.ensurePod, hlookup, if_neg hready, halloc, hbridge, if_neg hcall]
      rw [atomic_iff_of_lookup hlookup hensure (AList.lookup_insert _)]
      obtain ⟨hremaining, hfreed⟩ := hsound.free_allocate halloc
      simp only [Except.error.injEq, forall_eq', Ipam.SameAllocations,
        Ipam.listAllocations_perm_iff, hremaining, and_true, hfreed, Option.some.injEq,
        exists_eq_left', hveth, Bool.false_eq_true, false_or,
        Ipam.BitmapIPAM.getAllocation]
      -- the entry of the pod is deleted, and all others are kept
      constructor
      · intro hsame
        have hkey := hsame (podKey args.namespaceName args.podName)
        rw [if_pos rfl] at hkey
        exact hkey.symm
      · intro hnone key
        split
        case isTrue hkey => rw [hkey, hnone]
        case isFalse => rfl

end

/-- A request is atomic exactly when the tenant has no record or what it does to the IPAM can be
undone by freeing the address. -/
theorem ensurePod_atomic_iff (o : Outcomes) (nm : NetworkManager) (tenantID : String)
    (args : PodAttachArgs)
    (hreach : ∀ r, nm.tenantRecords.lookup tenantID = some r → Ipam.Reachable r.ipam) :
  Atomic o nm tenantID args
    ↔ ∀ r, nm.tenantRecords.lookup tenantID = some r → r.Undoable o args
  := by
  cases hlookup : nm.tenantRecords.lookup tenantID with
  | none => simp [Atomic, hlookup]
  | some r =>
    simp only [Option.some.injEq, forall_eq', TenantRecord.Undoable]
    by_cases hclosing : r.state = .closing
    · exact iff_of_true (atomic_of_not_allocated hlookup (Or.inl hclosing)) (Or.inl hclosing)
    rcases (hreach r hlookup).sound_or_void with hsound | hvoid
    · rcases Ipam.allocate_cases hsound (podKey args.namespaceName args.podName) args.containerID
        args.ifName args.netNS with ⟨e, -, hzero⟩ | ⟨pos, hpos, hfree, -, halloc⟩
      · apply iff_of_true _ (Or.inr (Or.inl hzero))
        apply atomic_of_not_allocated hlookup
        right
        intro key containerID ifName netns
        obtain ⟨e, halloc, -⟩ | ⟨pos, hpos, hfree, -⟩ :=
          Ipam.allocate_cases hsound key containerID ifName netns
        · exact ⟨e, halloc⟩
        · rw [hsound.remaining_eq_zero_iff.mp hzero pos hpos] at hfree
          simp at hfree
      · have hleft : r.ipam.remaining ≠ 0 := by
          have := hsound.remaining_allocate halloc
          omega
        rw [atomic_iff_of_allocated hlookup hsound hclosing halloc, or_iff_right hclosing,
          or_iff_right hleft]
    · apply iff_of_true
      · apply atomic_of_not_allocated hlookup
        right
        intro key containerID ifName netns
        apply hvoid.allocate_error
      · exact Or.inr (Or.inl hvoid.remaining_eq)

theorem ensurePod_atomic_slash29 :
  ∃ tm, newTrieManager ⟨[10, 0, 0, 0], cidrMask 28 32⟩ 30 = some tm
    ∧ Atomic { Outcomes.success with setupVeth := fun _ => false }
      ((newNetworkManager "node" tm).put "t"
        ⟨⟨[10, 0, 0, 0], cidrMask 29 32⟩,
          ⟨true, some ⟨"br", ⟨[10, 0, 0, 1], cidrMask 29 32⟩, []⟩, none⟩,
          ⟨⟨[10, 0, 0, 0], cidrMask 29 32⟩, [0], ∅⟩, .ready⟩)
      "t" ⟨"", "p1", "c1", "ns1", "eth0"⟩
  := by
  obtain ⟨-, tm, hnew⟩ :=
    exists_newTrieManager_ipv4 [10, 0, 0, 0] 28 30 rfl (by decide) (by decide)
  use tm, hnew
  rw [ensurePod_atomic_iff, NetworkManager.put, AList.lookup_insert]
  · rintro r ⟨⟩
    exact Or.inr (Or.inr ⟨_, rfl, Or.inr rfl⟩)
  · rw [NetworkManager.put, AList.lookup_insert]
    rintro r ⟨⟩
    exact ⟨⟨[10, 0, 0, 0], cidrMask 29 32⟩, _, [], by decide, rfl, by simp, rfl⟩

/-- A second request for a pod, whose interface cannot be set up: the entry of the first request is
no longer listed. -/
theorem ensurePod_not_atomic :
  ∃ tm, newTrieManager ⟨[10, 0, 0, 0], cidrMask 28 32⟩ 30 = some tm
    ∧ ¬ Atomic { Outcomes.success with setupVeth := fun _ => false }
      (Machine.after (step default) (newNetworkManager "node" tm)
        [.ensureTenant "t" .success, .expandTenant "t" .success,
          .ensurePod "t" ⟨"", "p1", "c1", "ns1", "eth0"⟩ .success])
      "t" ⟨"", "p1", "c1", "ns1", "eth0"⟩
  := by
  obtain ⟨-, tm, hnew⟩ :=
    exists_newTrieManager_ipv4 [10, 0, 0, 0] 28 30 rfl (by decide) (by decide)
  use tm, hnew
  -- the answer, and how many entries are listed before and after
  have hrun : (newTrieManager ⟨[10, 0, 0, 0], cidrMask 28 32⟩ 30).map (fun tm =>
      let nm := Machine.after (step default) (newNetworkManager "node" tm)
        [.ensureTenant "t" .success, .expandTenant "t" .success,
          .ensurePod "t" ⟨"", "p1", "c1", "ns1", "eth0"⟩ .success]
      let x := nm.ensurePod { Outcomes.success with setupVeth := fun _ => false } "t"
        ⟨"", "p1", "c1", "ns1", "eth0"⟩
      (x.1, (nm.tenantRecords.lookup "t").map (·.ipam.listAllocations.length),
        (x.2.tenantRecords.lookup "t").map (·.ipam.listAllocations.length)))
      = some (.error .setupVeth, some 1, some 0) := by
    decide +kernel
  rw [hnew, Option.map_some, Option.some.injEq, Prod.mk.injEq, Prod.mk.injEq] at hrun
  obtain ⟨hresult, hbefore, hafter⟩ := hrun
  obtain ⟨r, hr, hbefore⟩ := Option.map_eq_some_iff.mp hbefore
  intro hatomic
  obtain ⟨r', hr', hperm, -⟩ := hatomic _ hresult r hr
  rw [hr', Option.map_some, Option.some.injEq] at hafter
  have hlength := hperm.length_eq
  omega

end Nmanager
