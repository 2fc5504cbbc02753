import Misokube.Device.Addresses
import Misokube.Ipam.Runs
import Misokube.Nmanager.Model
import Misokube.Trie.Subnets

/-!
# What the operations of the network manager do

The network manager as a machine.  An operation is about one tenant, of which its record and the
network the subnet manager holds for it may change (`Effect`); whatever else is known about
other tenants stays (`step_effect`).  What the tenant actor does with a request for a pod is a
run of these operations (`ensurePodRetry_steps`).
-/

namespace Nmanager

open Net Device Trie

/-- An operation of the network manager. -/
inductive Op where
  | ensureTenant (id : String) (o : Outcomes)
  | removeTenant (id : String) (o : Outcomes)
  | expandTenant (id : String) (o : Outcomes)
  | ensurePod (id : String) (args : PodAttachArgs) (o : Outcomes)
  | removePod (id : String) (args : PodAttachArgs)

/-- The tenant an operation is about. -/
def Op.id : Op → String
  | .ensureTenant id _ => id
  | .removeTenant id _ => id
  | .expandTenant id _ => id
  | .ensurePod id _ _ => id
  | .removePod id _ => id

/-- The answer of an operation: what `EnsurePod` returns, or an error. -/
abbrev Reply := Except Error (Option PodAttachment)

/-- An operation of the network manager. -/
def step (h : Hashes) (nm : NetworkManager) : Op → Reply × NetworkManager
  | .ensureTenant id o => ((nm.ensureTenant h o id).1.map fun _ => none, (nm.ensureTenant h o id).2)
  | .removeTenant id o => ((nm.removeTenant o id).1.map fun _ => none, (nm.removeTenant o id).2)
  | .expandTenant id o => ((nm.expandTenant o id).1.map fun _ => none, (nm.expandTenant o id).2)
  | .ensurePod id args o => ((nm.ensurePod o id args).1.map some, (nm.ensurePod o id args).2)
  | .removePod id args => ((nm.removePod id args).1.map fun _ => none, (nm.removePod id args).2)

/-! ### Views -/

/-- What is known of a tenant: its record, and the network the subnet manager holds for it. -/
structure View where
  record : Option TenantRecord
  held : Option IPNet

/-- What the network manager knows of a tenant. -/
def NetworkManager.view (nm : NetworkManager) (id : String) : View :=
  ⟨nm.tenantRecords.lookup id, nm.subnet.held id⟩

/-- The record after an expansion of the subnet to `q`, and the answer: a step that fails keeps
what the steps before it did. -/
inductive Expanded (o : Outcomes) (q : IPNet) (r : TenantRecord) : Reply → TenantRecord → Prop where
  | backend {e : Device.Error} {be : Backend}
      (h : r.backend.update o.toOutcomes q = (.error e, be)) :
      Expanded o q r (.error (.backendUpdate e)) { r with backend := be }
  | fault {be : Backend} (h : r.backend.update o.toOutcomes q = (.ok (), be))
      (hfault : o.ipamExpand = false) :
      Expanded o q r (.error .ipamFault) { r with backend := be }
  | ipam {e : Ipam.Error} {be : Backend} {ipam : Ipam.BitmapIPAM}
      (h : r.backend.update o.toOutcomes q = (.ok (), be))
      (hipam : r.ipam.expand (some q) = (.error e, ipam)) :
      Expanded o q r (.error (.ipamExpand e)) { r with backend := be, ipam := ipam }
  | done {be : Backend} {ipam : Ipam.BitmapIPAM}
      (h : r.backend.update o.toOutcomes q = (.ok (), be))
      (hipam : r.ipam.expand (some q) = (.ok (), ipam)) :
      Expanded o q r (.ok none) { r with backend := be, ipam := ipam, subnet := q }

/-- The answers of calls that change nothing: an error other than one of the IPAM, or success,
which an expansion does not have without a change. -/
def Idle (op : Op) (reply : Reply) : Prop :=
  (reply = .ok none ∧ ∀ id o, op ≠ .expandTenant id o)
    ∨ ∃ e, reply = .error e ∧ ∀ err, e ≠ .ipam err

/-- The subnet manager would expand the network of the tenant to `q`. -/
def NetworkManager.Grants (nm : NetworkManager) (id : String) (q : IPNet) : Prop :=
  (nm.subnet.expand id).1 = .ok q

/-- What an operation can do to what is known of its tenant; `grants q` says that the subnet
manager would expand the network of the tenant to `q`. -/
inductive Effect (h : Hashes) (nodeName : String) (bits : ℕ) (grants : IPNet → Prop) :
    Op → View → Reply → View → Prop where
  | same {op : Op} {v : View} {reply : Reply} (hreply : Idle op reply) :
      Effect h nodeName bits grants op v reply v
  | failed {id : String} {o : Outcomes} {p q : Option IPNet} {e : Error} :
      Effect h nodeName bits grants (.ensureTenant id o) ⟨none, p⟩ (.error e) ⟨none, q⟩
  | created {id : String} {o : Outcomes} {p : Option IPNet} {q : IPNet} {n : ℕ} {be : Backend}
      {ipam : Ipam.BitmapIPAM} (hcidr : IsCIDR q n bits)
      (hcreate : newBridgeVTEPBackend.create h o.toOutcomes id q nodeName = (.ok (), be))
      (hipam : Ipam.newBitmapIPAM (some q) = .ok ipam) :
      Effect h nodeName bits grants (.ensureTenant id o) ⟨none, p⟩ (.ok none)
        ⟨some ⟨q, be, ipam, .ready⟩, some q⟩
  | removed {id : String} {o : Outcomes} {r : TenantRecord} {p q : Option IPNet} :
      Effect h nodeName bits grants (.removeTenant id o) ⟨some r, p⟩ (.ok none) ⟨none, q⟩
  | panicked {id : String} {o : Outcomes} {r : TenantRecord} {p : Option IPNet}
      (hmanagers : r.backend.managers = false) :
      Effect h nodeName bits grants (.removeTenant id o) ⟨some r, p⟩ (.error .panicked)
        ⟨some { r with state := .closing }, p⟩
  | expanded {id : String} {o : Outcomes} {r r' : TenantRecord} {p q : IPNet} {n : ℕ}
      {reply : Reply} (hgrants : grants q) (hcidr : IsCIDR q n bits) (hlt : n < bits)
      (hhalf : p = lower q ∨ p = upper q) (hrecord : Expanded o q r reply r') :
      Effect h nodeName bits grants (.expandTenant id o) ⟨some r, some p⟩ reply ⟨some r', some q⟩
  | exhausted {id : String} {args : PodAttachArgs} {o : Outcomes} {r : TenantRecord}
      {p : Option IPNet} {e : Ipam.Error}
      (halloc : r.ipam.allocate (podKey args.namespaceName args.podName) args.containerID
        args.ifName args.netNS = (.error e, r.ipam)) :
      Effect h nodeName bits grants (.ensurePod id args o) ⟨some r, p⟩ (.error (.ipam e))
        ⟨some r, p⟩
  | attached {id : String} {args : PodAttachArgs} {o : Outcomes} {r : TenantRecord}
      {p : Option IPNet} {ci : Ipam.ContainerNetInfo} {ipam : Ipam.BitmapIPAM} {br : Bridge}
      (hready : r.state = .ready)
      (halloc : r.ipam.allocate (podKey args.namespaceName args.podName) args.containerID
        args.ifName args.netNS = (.ok ci, ipam))
      (hbridge : r.backend.bridge = some br) :
      Effect h nodeName bits grants (.ensurePod id args o) ⟨some r, p⟩
        (.ok (some ⟨⟨ci.ip, r.subnet.mask⟩, br.ip.ip, args.ifName⟩))
        ⟨some { r with ipam := ipam }, p⟩
  | bridgeless {id : String} {args : PodAttachArgs} {o : Outcomes} {r : TenantRecord}
      {p : Option IPNet} {ci : Ipam.ContainerNetInfo} {ipam : Ipam.BitmapIPAM}
      (hready : r.state = .ready)
      (halloc : r.ipam.allocate (podKey args.namespaceName args.podName) args.containerID
        args.ifName args.netNS = (.ok ci, ipam))
      (hbridge : r.backend.bridge = none) :
      Effect h nodeName bits grants (.ensurePod id args o) ⟨some r, p⟩ (.error (.bridgeNotFound id))
        ⟨some { r with ipam := ipam }, p⟩
  | detached {id : String} {args : PodAttachArgs} {o : Outcomes} {r : TenantRecord}
      {p : Option IPNet} {ci : Ipam.ContainerNetInfo} {ipam : Ipam.BitmapIPAM}
      (hready : r.state = .ready)
      (halloc : r.ipam.allocate (podKey args.namespaceName args.podName) args.containerID
        args.ifName args.netNS = (.ok ci, ipam)) :
      Effect h nodeName bits grants (.ensurePod id args o) ⟨some r, p⟩ (.error .setupVeth)
        ⟨some { r with ipam := (ipam.free ci.ip).2 }, p⟩

/-- The step of an operation: it has its effect on its tenant and leaves all others. -/
structure Steps (h : Hashes) (root : IPNet) (leafSize : ℤ) (bits : ℕ) (op : Op)
    (nm : NetworkManager) (reply : Reply) (nm' : NetworkManager) : Prop where
  managed : Managed root leafSize nm'.subnet
  nodeName : nm'.nodeName = nm.nodeName
  effect : Effect h nm.nodeName bits (nm.Grants op.id) op (nm.view op.id) reply (nm'.view op.id)
  frame : ∀ id, id ≠ op.id → nm'.view id = nm.view id

section

variable {h : Hashes} {root : IPNet} {ones bits : ℕ} {leafSize : ℤ} {nm : NetworkManager}

theorem view_put (nm : NetworkManager) (id id' : String) (r : TenantRecord) :
  (nm.put id r).view id' = if id' = id then ⟨some r, nm.subnet.held id⟩ else nm.view id'
  := by
  rw [NetworkManager.view, NetworkManager.put, GoMap.lookup_insert_eq]
  split
  case isTrue hid => rw [hid]
  case isFalse => rfl

/-- Nothing is known differently after a call that changes no record and no network. -/
theorem Steps.of_view_eq {nm' : NetworkManager} (hm : Managed root leafSize nm'.subnet)
    (hnode : nm'.nodeName = nm.nodeName) (hview : nm'.view = nm.view) {op : Op} {reply : Reply}
    (hreply : Idle op reply) :
  Steps h root leafSize bits op nm reply nm'
  := by
  constructor
  · exact hm
  · exact hnode
  · rw [hview]
    apply Effect.same hreply
  · intro id _
    rw [hview]

/-- A record is stored for the tenant of the operation. -/
theorem Steps.put {nm' : NetworkManager} (op : Op) {r : TenantRecord} {reply : Reply}
    (hm : Managed root leafSize nm'.subnet) (hnode : nm'.nodeName = nm.nodeName)
    (heffect : Effect h nm.nodeName bits (nm.Grants op.id) op (nm.view op.id) reply
      ⟨some r, nm'.subnet.held op.id⟩)
    (hframe : ∀ id, id ≠ op.id → nm'.view id = nm.view id) :
  Steps h root leafSize bits op nm reply (nm'.put op.id r)
  := by
  constructor
  · exact hm
  · exact hnode
  · rw [view_put, if_pos rfl]
    exact heffect
  · intro id hid
    rw [view_put, if_neg hid]
    apply hframe id hid

/-- Views with another network of the tenant. -/
theorem view_subnet {subnet : TrieManager} {id : String} {q : Option IPNet}
    (hheld : subnet.held = Function.update nm.subnet.held id q) (id' : String) :
  NetworkManager.view { nm with subnet := subnet } id'
    = if id' = id then ⟨nm.tenantRecords.lookup id, q⟩ else nm.view id'
  := by
  rw [NetworkManager.view, hheld]
  split
  case isTrue hid => rw [hid, Function.update_self]
  case isFalse hid =>
    rw [Function.update_of_ne hid]
    rfl

/-! ### Tenants -/

/-- Freeing the subnet changes at most the network of the tenant. -/
theorem deallocateSubnet_spec (hroot : IsCIDR root ones bits)
    (hm : Managed root leafSize nm.subnet) (id : String) :
  Managed root leafSize (nm.deallocateSubnet id).subnet
    ∧ ∃ q, (nm.deallocateSubnet id).subnet.held = Function.update nm.subnet.held id q
  := by
  obtain ⟨hm', ⟨e, -, hheld⟩ | ⟨-, hheld⟩⟩ := hm.deallocate hroot id
  · use hm', nm.subnet.held id
    rw [Function.update_eq_self]
    exact hheld
  · exact ⟨hm', none, hheld⟩

/-- A failed `EnsureTenant` leaves the tenant without record. -/
theorem Steps.failed (hroot : IsCIDR root ones bits) {id : String} {o : Outcomes}
    {subnet : TrieManager} {q : IPNet} {e : Error} (hm : Managed root leafSize subnet)
    (hheld : subnet.held = Function.update nm.subnet.held id (some q))
    (hnone : nm.tenantRecords.lookup id = none) :
  Steps h root leafSize bits (.ensureTenant id o) nm (.error e)
    (NetworkManager.deallocateSubnet { nm with subnet := subnet } id)
  := by
  have hspec := deallocateSubnet_spec hroot (show Managed root leafSize
    ({ nm with subnet := subnet } : NetworkManager).subnet from hm) id
  obtain ⟨hm', q', hheld'⟩ := hspec
  rw [hheld, Function.update_idem] at hheld'
  have hview := view_subnet hheld'
  constructor
  · exact hm'
  · rfl
  · have hself : (NetworkManager.deallocateSubnet { nm with subnet := subnet } id).view id = _ :=
      hview id
    rw [Op.id, hself, if_pos rfl, NetworkManager.view, hnone]
    apply Effect.failed
  · intro id' (hid : id' ≠ id)
    apply (hview id').trans
    rw [if_neg hid]

theorem ensureTenant_steps (hroot : IsCIDR root ones bits) (hm : Managed root leafSize nm.subnet)
    (o : Outcomes) (id : String) :
  Steps h root leafSize bits (.ensureTenant id o) nm (step h nm (.ensureTenant id o)).1
    (step h nm (.ensureTenant id o)).2
  := by
  rw [step, NetworkManager.ensureTenant]
  split
  · apply Steps.of_view_eq hm rfl rfl
    simp [Idle, Except.map]
  split
  · apply Steps.of_view_eq hm rfl rfl
    simp [Idle, Except.map]
  case isFalse hsome =>
    have hnone : nm.tenantRecords.lookup id = none := by
      simpa using hsome
    obtain ⟨hm', hcases⟩ := hm.allocate hroot id
    generalize nm.subnet.allocate id = x at hm' hcases ⊢
    obtain ⟨result, subnet⟩ := x
    dsimp only at hm' hcases
    obtain ⟨e, rfl, hheld⟩ | ⟨q, rfl, hheld⟩ := hcases
    · dsimp only
      apply Steps.of_view_eq
      · exact hm'
      · rfl
      · funext id'
        rw [NetworkManager.view, hheld]
        rfl
      · simp [Idle, Except.map]
    dsimp only
    split
    · apply Steps.failed hroot hm' hheld hnone
    case h_2 be hcreate =>
      split
      · apply Steps.failed hroot hm' hheld hnone
      split
      · apply Steps.failed hroot hm' hheld hnone
      split
      · apply Steps.failed hroot hm' hheld hnone
      case h_2 ipam hipam =>
        have hview := view_subnet hheld
        have hself : subnet.held id = some q := by
          rw [hheld, Function.update_self]
        obtain ⟨n, hcidr⟩ := hm'.isCIDR hroot hself
        have hsteps : Steps h root leafSize bits (.ensureTenant id o) nm (.ok none)
            (NetworkManager.put { nm with subnet := subnet } id ⟨q, be, ipam, .ready⟩) := by
          apply Steps.put (.ensureTenant id o)
          · exact hm'
          · rfl
          · rw [Op.id, NetworkManager.view, hnone, hself]
            apply Effect.created hcidr hcreate hipam
          · intro id' (hid : id' ≠ id)
            rw [hview, if_neg hid]
        split
        · exact hsteps
        · exact ⟨hsteps.managed, rfl, hsteps.effect, hsteps.frame⟩

theorem removeTenant_steps (hroot : IsCIDR root ones bits) (hm : Managed root leafSize nm.subnet)
    (o : Outcomes) (id : String) :
  Steps h root leafSize bits (.removeTenant id o) nm (step h nm (.removeTenant id o)).1
    (step h nm (.removeTenant id o)).2
  := by
  rw [step, NetworkManager.removeTenant]
  split
  · apply Steps.of_view_eq hm rfl rfl
    simp [Idle, Except.map]
  split
  · apply Steps.of_view_eq hm rfl rfl
    simp [Idle, Except.map]
  case h_2 r hlookup =>
    have hview : nm.view id = ⟨some r, nm.subnet.held id⟩ := by
      rw [NetworkManager.view, hlookup]
    dsimp only
    split
    case h_1 be hdelete =>
      have hmanagers : r.backend.managers = false := by
        rw [Backend.delete] at hdelete
        grind
      apply Steps.put (.removeTenant id o)
      · exact hm
      · rfl
      · rw [Op.id, hview]
        apply Effect.panicked hmanagers
      · intro id' _
        rfl
    case h_2 =>
      have hput : Managed root leafSize (nm.put id { r with state := .closing }).subnet := hm
      obtain ⟨hm', q, hheld⟩ := deallocateSubnet_spec hroot hput id
      constructor
      · exact hm'
      · rfl
      · rw [Op.id, hview, NetworkManager.view]
        dsimp only
        rw [AList.lookup_erase]
        apply Effect.removed
      · intro id' (hid : id' ≠ id)
        rw [NetworkManager.view, NetworkManager.view]
        dsimp only
        rw [hheld, Function.update_of_ne hid, NetworkManager.deallocateSubnet, NetworkManager.put,
          AList.lookup_erase_ne hid, AList.lookup_insert_ne hid]

theorem expandTenant_steps (hroot : IsCIDR root ones bits) (hm : Managed root leafSize nm.subnet)
    (o : Outcomes) (id : String) :
  Steps h root leafSize bits (.expandTenant id o) nm (step h nm (.expandTenant id o)).1
    (step h nm (.expandTenant id o)).2
  := by
  rw [step, NetworkManager.expandTenant]
  split
  · apply Steps.of_view_eq hm rfl rfl
    simp [Idle, Except.map]
  case h_2 r hlookup =>
    obtain ⟨hm', hcases⟩ := hm.expand hroot id
    have hgrants : ∀ q, (nm.subnet.expand id).1 = .ok q → nm.Grants id q := fun _ hq => hq
    generalize nm.subnet.expand id = x at hm' hcases hgrants ⊢
    obtain ⟨result, subnet⟩ := x
    dsimp only at hm' hcases
    obtain ⟨e, rfl, hheld⟩ | ⟨q, n, rfl, hheld, hcidr, hlt, hhalf⟩ := hcases
    · dsimp only
      apply Steps.of_view_eq
      · exact hm'
      · rfl
      · funext id'
        rw [NetworkManager.view, hheld]
        rfl
      · simp [Idle, Except.map]
    have hview := view_subnet hheld
    -- however far the call gets, it stores a record
    have hput : ∀ {reply : Reply} {r' : TenantRecord}, Expanded o q r reply r' →
        Steps h root leafSize bits (.expandTenant id o) nm reply
          (NetworkManager.put { nm with subnet := subnet } id r') := by
      intro reply r' hrecord
      apply Steps.put (.expandTenant id o)
      · exact hm'
      · rfl
      · rw [Op.id, NetworkManager.view, hlookup, hheld, Function.update_self]
        obtain hheld | hheld := hhalf
        · rw [hheld]
          apply Effect.expanded (hgrants q rfl) hcidr hlt (Or.inl rfl) hrecord
        · rw [hheld]
          apply Effect.expanded (hgrants q rfl) hcidr hlt (Or.inr rfl) hrecord
      · intro id' (hid : id' ≠ id)
        rw [hview, if_neg hid]
    dsimp only
    split
    case h_1 e be hupdate =>
      apply hput
      apply Expanded.backend hupdate
    case h_2 be hupdate =>
      split
      case isTrue hfault =>
        apply hput
        apply Expanded.fault hupdate hfault
      split
      case h_1 e ipam hipam =>
        apply hput
        apply Expanded.ipam hupdate hipam
      case h_2 ipam hipam =>
        apply hput
        apply Expanded.done hupdate hipam

/-! ### Pods -/

theorem ensurePod_steps (hm : Managed root leafSize nm.subnet) (o : Outcomes) (id : String)
    (args : PodAttachArgs) :
  Steps h root leafSize bits (.ensurePod id args o) nm (step h nm (.ensurePod id args o)).1
    (step h nm (.ensurePod id args o)).2
  := by
  rw [step, NetworkManager.ensurePod]
  split
  · apply Steps.of_view_eq hm rfl rfl
    simp [Idle, Except.map]
  case h_2 r hlookup =>
    have hview : nm.view id = ⟨some r, nm.subnet.held id⟩ := by
      rw [NetworkManager.view, hlookup]
    split
    · apply Steps.of_view_eq hm rfl rfl
      simp [Idle, Except.map]
    case isFalse hclosing =>
      have hready : r.state = .ready := by
        cases hstate : r.state with
        | ready => rfl
        | closing => exact absurd hstate hclosing
      dsimp only
      split
      case h_1 e ipam halloc =>
        obtain ⟨-, rfl⟩ := Ipam.allocate_error halloc
        apply Steps.put (.ensurePod id args o) hm rfl
        · rw [Op.id, hview]
          apply Effect.exhausted halloc
        · intro id' _
          rfl
      case h_2 ci ipam halloc =>
        split
        case h_1 hbridge =>
          apply Steps.put (.ensurePod id args o) hm rfl
          · rw [Op.id, hview]
            apply Effect.bridgeless hready halloc hbridge
          · intro id' _
            rfl
        case h_2 br hbridge =>
          split
          · apply Steps.put (.ensurePod id args o) hm rfl
            · rw [Op.id, hview]
              apply Effect.attached hready halloc hbridge
            · intro id' _
              rfl
          · apply Steps.put (.ensurePod id args o)
            · exact hm
            · rfl
            · rw [Op.id, hview]
              apply Effect.detached hready halloc
            · intro id' (hid : id' ≠ id)
              rw [view_put, if_neg hid]

theorem removePod_steps (hm : Managed root leafSize nm.subnet) (id : String)
    (args : PodAttachArgs) :
  Steps h root leafSize bits (.removePod id args) nm (step h nm (.removePod id args)).1
    (step h nm (.removePod id args)).2
  := by
  rw [step, NetworkManager.removePod]
  split
  · apply Steps.of_view_eq hm rfl rfl
    simp [Idle, Except.map]
  · apply Steps.of_view_eq hm rfl rfl
    simp [Idle, Except.map]

/-- Every operation has its effect. -/
theorem step_steps (hroot : IsCIDR root ones bits) (hm : Managed root leafSize nm.subnet)
    (op : Op) :
  Steps h root leafSize bits op nm (step h nm op).1 (step h nm op).2
  := by
  cases op with
  | ensureTenant id o => apply ensureTenant_steps hroot hm
  | removeTenant id o => apply removeTenant_steps hroot hm
  | expandTenant id o => apply expandTenant_steps hroot hm
  | ensurePod id args o => apply ensurePod_steps hm
  | removePod id args => apply removePod_steps hm

/-! ### Runs -/

/-- The manager is one of the root network and knows of every tenant what `P` says. -/
structure Throughout (root : IPNet) (leafSize : ℤ) (nodeName : String) (P : View → Prop)
    (nm : NetworkManager) : Prop where
  managed : Managed root leafSize nm.subnet
  nodeName_eq : nm.nodeName = nodeName
  views : ∀ id, P (nm.view id)

/-- What every effect keeps about its tenant holds of all tenants after a run. -/
theorem after_throughout (hroot : IsCIDR root ones bits) {cond : NetworkManager → Op → Prop}
    {P : View → Prop} {nodeName : String}
    (heffect : ∀ nm op reply v, cond nm op → P (nm.view op.id) →
      Effect h nodeName bits (nm.Grants op.id) op (nm.view op.id) reply v → P v)
    (hnm : Throughout root leafSize nodeName P nm) {ops : List Op}
    (hmeets : Machine.Meets (step h) cond nm ops) :
  Throughout root leafSize nodeName P (Machine.after (step h) nm ops)
  := by
  apply Machine.after_of_meets (P := Throughout root leafSize nodeName P) _ hnm hmeets
  intro nm op hnm hcond
  have hsteps := step_steps (h := h) hroot hnm.managed op
  constructor
  · exact hsteps.managed
  · exact hsteps.nodeName.trans hnm.nodeName_eq
  · intro id
    by_cases hid : id = op.id
    · rw [hid]
      apply heffect nm op _ _ hcond (hnm.views _)
      rw [← hnm.nodeName_eq]
      exact hsteps.effect
    · rw [hsteps.frame id hid]
      apply hnm.views

/-- A new manager knows of no tenant. -/
theorem newNetworkManager_view (hroot : IsCIDR root ones bits) {tm : TrieManager}
    (hnew : newTrieManager root leafSize = some tm) (nodeName : String) :
  Managed root leafSize (newNetworkManager nodeName tm).subnet
    ∧ ∀ id, (newNetworkManager nodeName tm).view id = ⟨none, none⟩
  := by
  obtain ⟨hm, hheld⟩ := newTrieManager_held hroot hnew
  use hm
  intro id
  rw [NetworkManager.view, newNetworkManager, hheld]
  rfl

/-- What holds of an unknown tenant and is kept by every effect holds of all tenants after every
run of a new manager. -/
theorem after_newNetworkManager (hroot : IsCIDR root ones bits) {tm : TrieManager}
    (hnew : newTrieManager root leafSize = some tm) {nodeName : String}
    {cond : NetworkManager → Op → Prop} {P : View → Prop} (hunknown : P ⟨none, none⟩)
    (heffect : ∀ nm op reply v, cond nm op → P (nm.view op.id) →
      Effect h nodeName bits (nm.Grants op.id) op (nm.view op.id) reply v → P v) {ops : List Op}
    (hmeets : Machine.Meets (step h) cond (newNetworkManager nodeName tm) ops) :
  Throughout root leafSize nodeName P
    (Machine.after (step h) (newNetworkManager nodeName tm) ops)
  := by
  obtain ⟨hm, hviews⟩ := newNetworkManager_view hroot hnew nodeName
  apply after_throughout hroot heffect _ hmeets
  constructor
  · exact hm
  · rfl
  · intro id
    rw [hviews]
    exact hunknown

/-! ### The tenant actor -/

/-- The actor expands the tenant as `ExpandTenant` does, or not at all. -/
theorem requestTenantExpansion_snd (nm : NetworkManager) (o : Outcomes) (id : String) :
  (nm.requestTenantExpansion o id).2 = nm
    ∨ (nm.requestTenantExpansion o id).2 = (step h nm (.expandTenant id o)).2
  := by
  rw [NetworkManager.requestTenantExpansion]
  split
  · exact Or.inl rfl
  split
  · exact Or.inl rfl
  · exact Or.inr rfl

/-- The operations the actor's work for a request is made of. -/
def Op.ForRequest (id : String) (args : PodAttachArgs) (op : Op) : Prop :=
  (∃ o, op = .ensurePod id args o) ∨ ∃ o, op = .expandTenant id o

/-- What the tenant actor does for a request is a run of `EnsurePod` and `ExpandTenant`. -/
theorem ensurePodRetry_steps (h : Hashes) (o : ℕ → Outcomes) (id : String) (args : PodAttachArgs)
    (retries : ℕ) (nm : NetworkManager) :
  ∃ ops : List Op, (∀ op ∈ ops, op.ForRequest id args)
    ∧ (nm.ensurePodRetry o id args retries).2 = Machine.after (step h) nm ops
  := by
  have hensure : ∀ o, (Op.ensurePod id args o).ForRequest id args := fun o => Or.inl ⟨o, rfl⟩
  have hexpand : ∀ o, (Op.expandTenant id o).ForRequest id args := fun o => Or.inr ⟨o, rfl⟩
  induction retries generalizing nm with
  | zero =>
    use [.ensurePod id args (o 0)]
    constructor
    · simpa using hensure (o 0)
    · rw [NetworkManager.ensurePodRetry, Machine.after_cons, Machine.after_nil, step]
      dsimp only
      split
      case h_1 n nm' heq => rw [heq]
      case h_2 => rfl
  | succ retries ih =>
    rw [NetworkManager.ensurePodRetry]
    split
    case h_2 =>
      use [.ensurePod id args (o (retries + 1))]
      constructor
      · simpa using hensure _
      · rfl
    case h_1 n nm' heq =>
      have hfirst : nm' = (step h nm (.ensurePod id args (o (retries + 1)))).2 := by
        rw [step, heq]
      -- the operations up to the answer of the expansion
      obtain ⟨ops, hops, hafter⟩ : ∃ ops : List Op, (∀ op ∈ ops, op.ForRequest id args)
          ∧ (nm'.requestTenantExpansion (o (retries + 1)) id).2
            = Machine.after (step h) nm ops := by
        obtain hsnd | hsnd := requestTenantExpansion_snd (h := h) nm' (o (retries + 1)) id
        · use [.ensurePod id args (o (retries + 1))]
          constructor
          · simpa using hensure _
          · rw [hsnd, hfirst]
            rfl
        · use [.ensurePod id args (o (retries + 1)), .expandTenant id (o (retries + 1))]
          constructor
          · simpa using ⟨hensure _, hexpand _⟩
          · rw [hsnd, hfirst]
            rfl
      dsimp only
      generalize nm'.requestTenantExpansion (o (retries + 1)) id = x at hafter ⊢
      obtain ⟨e | ⟨⟩, nm''⟩ := x
      · exact ⟨ops, hops, hafter⟩
      · dsimp only at hafter ⊢
        subst hafter
        split
        · exact ⟨ops, hops, rfl⟩
        · obtain ⟨ops', hops', hafter'⟩ := ih (Machine.after (step h) nm ops)
          use ops ++ ops'
          constructor
          · intro op hop
            obtain hop | hop := List.mem_append.mp hop
            · apply hops op hop
            · apply hops' op hop
          · rw [Machine.after_append]
            exact hafter'

end

end Nmanager
