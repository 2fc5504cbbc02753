import Misokube.Ipam.InUse
import Misokube.Nmanager.Tenants

/-!
# Addresses of live endpoints

The requests to the actor of one tenant, which handles them one after the other.  An endpoint is
a container with an interface; it is live from the answer to the request that attached it until
it is removed.  If every expansion starts when as many addresses are in use as are listed, then
no address is given to two live endpoints (`Unshared`).  Without the condition this fails:
another request for a listed pod takes the pod's entry for its new address, and an expansion
then frees the old one.
-/

namespace Nmanager

open Net Device Trie

/-- A request to the actor of a tenant. -/
inductive Request where
  | ensure (args : PodAttachArgs) (o : ℕ → Outcomes)
  | remove (args : PodAttachArgs)
  | expand (o : Outcomes)

/-- What the actor does with a request. -/
def handle (id : String) (nm : NetworkManager) : Request → Reply × NetworkManager
  | .ensure args o => ((nm.actorEnsure o id args).1.map some, (nm.actorEnsure o id args).2)
  | .remove args => ((nm.removePod id args).1.map fun _ => none, (nm.removePod id args).2)
  | .expand o => ((nm.expandTenant o id).1.map fun _ => none, (nm.expandTenant o id).2)

/-- The container and the interface of a request. -/
def PodAttachArgs.endpoint (args : PodAttachArgs) : String × String :=
  (args.containerID, args.ifName)

/-- As many addresses of the tenant are in use as are listed. -/
def Accounted (nm : NetworkManager) (id : String) : Prop :=
  ∀ r, nm.tenantRecords.lookup id = some r →
    r.ipam.capacity - r.ipam.remaining = r.ipam.listAllocations.length

instance (nm : NetworkManager) (id : String) : Decidable (Accounted nm id) :=
  inferInstanceAs (Decidable (∀ r ∈ nm.tenantRecords.lookup id,
    r.ipam.capacity - r.ipam.remaining = r.ipam.listAllocations.length))

/-- The IPAM of the tenant has no address left. -/
def Full (nm : NetworkManager) (id : String) : Prop :=
  ∃ r, nm.tenantRecords.lookup id = some r ∧ r.ipam.remaining = 0

instance (nm : NetworkManager) (id : String) : Decidable (Full nm id) :=
  inferInstanceAs (Decidable (∃ r ∈ nm.tenantRecords.lookup id, r.ipam.remaining = 0))

/-- A request that may expand the tenant comes when the addresses are accounted for. -/
def Request.Safe (id : String) (nm : NetworkManager) : Request → Prop
  | .ensure _ _ => Full nm id → Accounted nm id
  | .remove _ => True
  | .expand _ => Accounted nm id

instance (id : String) (nm : NetworkManager) :
  ∀ request : Request, Decidable (request.Safe id nm)
  | .ensure _ _ => inferInstanceAs (Decidable (Full nm id → Accounted nm id))
  | .remove _ => inferInstanceAs (Decidable True)
  | .expand _ => inferInstanceAs (Decidable (Accounted nm id))

/-- No address is given to an endpoint while another endpoint it was given to is live. -/
def Unshared (id : String) (nm : NetworkManager) (requests : List Request) : Prop :=
  ∀ pre args o mid args' o' post att att',
    requests = pre ++ .ensure args o :: (mid ++ .ensure args' o' :: post) →
    (handle id (Machine.after (handle id) nm pre) (.ensure args o)).1 = .ok (some att) →
    (∀ args'', .remove args'' ∈ mid → args''.endpoint ≠ args.endpoint) →
    (handle id (Machine.after (handle id) nm (pre ++ .ensure args o :: mid))
      (.ensure args' o')).1 = .ok (some att') →
    args'.endpoint ≠ args.endpoint → equalIP att.ipNet.ip att'.ipNet.ip = false

/-! ### Addresses in use -/

/-- The address is in use in the IPAM of the tenant. -/
def View.InUse (v : View) (ip : IP) : Prop :=
  ∃ r, v.record = some r ∧ Ipam.InUse r.ipam ip

/-- Every address that is in use is listed. -/
def View.Tight (v : View) : Prop :=
  ∀ r, v.record = some r → Ipam.Tight r.ipam

section

variable {h : Hashes} {nodeName : String} {bits : ℕ} {grants : IPNet → Prop}
  {v v' : View} {reply : Reply}

/-- An expansion of a tight IPAM keeps the addresses in use, however far it gets. -/
theorem Expanded.inUse {o : Outcomes} {q : IPNet} {n : ℕ} {r r' : TenantRecord}
    (hexpanded : Expanded o q r reply r') (hcidr : IsCIDR q n bits) (hvalid : Valid bits r)
    (htight : Ipam.Tight r.ipam) {ip : IP} (hip : Ipam.InUse r.ipam ip) :
  Ipam.InUse r'.ipam ip
  := by
  obtain ⟨rfl, hsound, -, -⟩ := hvalid
  have hip' := Ipam.expand_inUse hsound htight hcidr hip
  cases hexpanded with
  | backend => exact hip
  | fault => exact hip
  | ipam hbackend hipam =>
    rw [hipam] at hip'
    exact hip'
  | done hbackend hipam =>
    rw [hipam] at hip'
    exact hip'

/-- Addresses stay in use when a pod is attached and when a tight tenant is expanded. -/
theorem Effect.inUse {op : Op} (heffect : Effect h nodeName bits grants op v reply v')
    (hinside : Inside bits v) (hremove : ∀ id o, op ≠ .removeTenant id o)
    (htight : ∀ id o, op = .expandTenant id o → v.Tight) {ip : IP} (hip : v.InUse ip) :
  v'.InUse ip
  := by
  obtain ⟨r, hr, hip⟩ := hip
  cases heffect with
  | same => exact ⟨r, hr, hip⟩
  | exhausted => exact ⟨r, hr, hip⟩
  | failed => simp at hr
  | created => simp at hr
  | removed => exact absurd rfl (hremove _ _)
  | panicked => exact absurd rfl (hremove _ _)
  | expanded hgrants hcidr hlt hhalf hexpanded =>
    cases hr
    refine ⟨_, rfl, ?_⟩
    apply hexpanded.inUse hcidr (hinside r rfl).1 (htight _ _ rfl r rfl) hip
  | attached hready halloc =>
    cases hr
    refine ⟨_, rfl, ?_⟩
    apply (Ipam.allocate_inUse (hinside r rfl).1.sound halloc).2.2.2 ip hip
  | bridgeless hready halloc =>
    cases hr
    refine ⟨_, rfl, ?_⟩
    apply (Ipam.allocate_inUse (hinside r rfl).1.sound halloc).2.2.2 ip hip
  | detached hready halloc =>
    cases hr
    have hsound := (hinside r rfl).1.sound
    obtain ⟨hnew, -, hlength, hkeep⟩ := Ipam.allocate_inUse hsound halloc
    refine ⟨_, rfl, ?_⟩
    apply Ipam.free_inUse (Ipam.allocate_spec hsound halloc).1 (hkeep ip hip)
    rw [to4_of_length hlength]
    rintro rfl
    exact hnew hip

/-- The address a pod is attached with was not in use before. -/
theorem Effect.fresh {op : Op} {att : PodAttachment}
    (heffect : Effect h nodeName bits grants op v (.ok (some att)) v')
    (hinside : Inside bits v) :
  ¬ v.InUse att.ipNet.ip ∧ v'.InUse att.ipNet.ip ∧ att.ipNet.ip.length = 4
  := by
  cases heffect with
  | same hreply => simp [Idle] at hreply
  | expanded _ _ _ _ hexpanded => cases hexpanded
  | attached hready halloc =>
    obtain ⟨hnew, hused, hlength, -⟩ := Ipam.allocate_inUse (hinside _ rfl).1.sound halloc
    refine ⟨?_, ⟨_, rfl, hused⟩, hlength⟩
    rintro ⟨_, ⟨⟩, hip⟩
    exact hnew hip

/-- An expansion that succeeds makes the tenant tight. -/
theorem Effect.tight {id : String} {o : Outcomes}
    (heffect : Effect h nodeName bits grants (.expandTenant id o) v (.ok none) v')
    (hinside : Inside bits v) :
  v'.Tight
  := by
  cases heffect with
  | same hreply => simp [Idle] at hreply
  | @expanded _ _ r r' _ _ _ _ _ hcidr _ _ hexpanded =>
    obtain ⟨rfl, hsound, -, -⟩ := (hinside _ rfl).1
    cases hexpanded with
    | done hbackend hipam =>
      rintro _ ⟨⟩
      have htight := Ipam.expand_tight hsound hcidr
      rw [hipam] at htight
      apply htight rfl

/-- When the IPAM has no address left, nothing changes. -/
theorem Effect.remaining {id : String} {args : PodAttachArgs} {o : Outcomes} {e : Ipam.Error}
    (heffect : Effect h nodeName bits grants (.ensurePod id args o) v (.error (.ipam e)) v')
    (hinside : Inside bits v) :
  v' = v ∧ ∃ r, v.record = some r ∧ r.ipam.remaining = 0
  := by
  cases heffect with
  | same hreply => simp [Idle] at hreply
  | @exhausted _ _ _ r _ _ halloc =>
    refine ⟨rfl, r, rfl, ?_⟩
    obtain ⟨e', heq, hzero⟩ | ⟨pos, -, -, -, heq⟩ := Ipam.allocate_cases (hinside r rfl).1.sound
      (podKey args.namespaceName args.podName) args.containerID args.ifName args.netNS
    · exact hzero
    · simp [heq] at halloc

end

/-! ### The work of the actor -/

/-- The manager is one of the root network, and keeps the IPAM of the tenant inside its network. -/
structure Good (root : IPNet) (leafSize : ℤ) (bits : ℕ) (id : String) (nm : NetworkManager) :
    Prop where
  managed : Managed root leafSize nm.subnet
  inside : Inside bits (nm.view id)

/-- The manager after some work of the actor: the addresses in use stay in use. -/
structure Keeps (root : IPNet) (leafSize : ℤ) (bits : ℕ) (id : String)
    (nm nm' : NetworkManager) : Prop where
  good : Good root leafSize bits id nm'
  inUse : ∀ ip, (nm.view id).InUse ip → (nm'.view id).InUse ip

section

variable {root : IPNet} {ones bits : ℕ} {leafSize : ℤ} {id : String}
  {nm nm' nm'' : NetworkManager}

theorem Good.keeps (hgood : Good root leafSize bits id nm) :
  Keeps root leafSize bits id nm nm
  := ⟨hgood, fun _ hip => hip⟩

theorem Keeps.trans (hkeeps : Keeps root leafSize bits id nm nm')
    (hkeeps' : Keeps root leafSize bits id nm' nm'') :
  Keeps root leafSize bits id nm nm''
  := ⟨hkeeps'.good, fun ip hip => hkeeps'.inUse ip (hkeeps.inUse ip hip)⟩

/-- An operation that does not remove the tenant keeps its addresses in use. -/
theorem Steps.keeps {h : Hashes} {op : Op} {reply : Reply}
    (hsteps : Steps h root leafSize bits op nm reply nm')
    (hgood : Good root leafSize bits op.id nm) (hremove : ∀ id o, op ≠ .removeTenant id o)
    (htight : ∀ id o, op = .expandTenant id o → (nm.view op.id).Tight) :
  Keeps root leafSize bits op.id nm nm'
  := by
  constructor
  · constructor
    · exact hsteps.managed
    · apply hsteps.effect.inside hgood.inside
  · intro ip hip
    apply hsteps.effect.inUse hgood.inside hremove htight hip

/-- The result of a request: the addresses in use stay in use, and the address of an attached pod
was not in use. -/
structure Attaches (root : IPNet) (leafSize : ℤ) (bits : ℕ) (id : String) (nm : NetworkManager)
    (result : Except Error PodAttachment) (nm' : NetworkManager) : Prop where
  keeps : Keeps root leafSize bits id nm nm'
  fresh : ∀ att, result = .ok att → ¬ (nm.view id).InUse att.ipNet.ip
    ∧ (nm'.view id).InUse att.ipNet.ip ∧ att.ipNet.ip.length = 4

theorem Attaches.of_error {e : Error} (hkeeps : Keeps root leafSize bits id nm nm') :
  Attaches root leafSize bits id nm (.error e) nm'
  := by
  use hkeeps
  intro att hatt
  simp at hatt

theorem Attaches.of_keeps {result : Except Error PodAttachment}
    (hkeeps : Keeps root leafSize bits id nm nm')
    (hattaches : Attaches root leafSize bits id nm' result nm'') :
  Attaches root leafSize bits id nm result nm''
  := by
  constructor
  · apply hkeeps.trans hattaches.keeps
  · intro att hatt
    obtain ⟨hnew, hused⟩ := hattaches.fresh att hatt
    refine ⟨?_, hused⟩
    intro hip
    exact hnew (hkeeps.inUse _ hip)

/-- One attempt to attach a pod; it finds no address only if none remains. -/
theorem ensurePod_attaches (hgood : Good root leafSize bits id nm) (o : Outcomes)
    (args : PodAttachArgs) :
  Attaches root leafSize bits id nm (nm.ensurePod o id args).1 (nm.ensurePod o id args).2
    ∧ ∀ e, (nm.ensurePod o id args).1 = .error (.ipam e) →
      (nm.ensurePod o id args).2.view id = nm.view id
        ∧ ∃ r, (nm.view id).record = some r ∧ r.ipam.remaining = 0
  := by
  have hsteps : Steps default root leafSize bits (.ensurePod id args o) nm _ _ :=
    ensurePod_steps hgood.managed o id args
  constructor
  · constructor
    · apply hsteps.keeps hgood
      · simp
      · simp
    · intro att hatt
      have heffect := hsteps.effect
      rw [step, hatt] at heffect
      apply heffect.fresh hgood.inside
  · intro e he
    have heffect := hsteps.effect
    rw [step, he] at heffect
    apply heffect.remaining hgood.inside

/-- An expansion of a tight tenant; if it succeeds the tenant is tight again. -/
theorem requestTenantExpansion_keeps (hroot : IsCIDR root ones bits)
    (hgood : Good root leafSize bits id nm) (htight : (nm.view id).Tight) (o : Outcomes) :
  Keeps root leafSize bits id nm (nm.requestTenantExpansion o id).2
    ∧ ((nm.requestTenantExpansion o id).1 = .ok () →
      ((nm.requestTenantExpansion o id).2.view id).Tight)
  := by
  have hsteps := expandTenant_steps (h := default) hroot hgood.managed o id
  rw [NetworkManager.requestTenantExpansion]
  split
  · exact ⟨hgood.keeps, by simp⟩
  split
  · exact ⟨hgood.keeps, by simp⟩
  constructor
  · apply hsteps.keeps hgood
    · simp
    · intro _ _ _
      exact htight
  · intro hok
    have heffect := hsteps.effect
    cases hresult : (nm.expandTenant o id).1 with
    | error e => simp [hresult, Except.map] at hok
    | ok r =>
      rw [step, hresult] at heffect
      apply heffect.tight hgood.inside

/-- The attempts of the actor, if the tenant is tight whenever no address remains. -/
theorem ensurePodRetry_attaches (hroot : IsCIDR root ones bits) (o : ℕ → Outcomes)
    (args : PodAttachArgs) (retries : ℕ) {nm : NetworkManager}
    (hgood : Good root leafSize bits id nm)
    (htight : (∃ r, (nm.view id).record = some r ∧ r.ipam.remaining = 0) → (nm.view id).Tight) :
  Attaches root leafSize bits id nm (nm.ensurePodRetry o id args retries).1
    (nm.ensurePodRetry o id args retries).2
  := by
  induction retries generalizing nm with
  | zero =>
    obtain ⟨hattaches, -⟩ := ensurePod_attaches hgood (o 0) args
    rw [NetworkManager.ensurePodRetry]
    split
    case h_1 n nm' heq =>
      rw [heq] at hattaches
      exact hattaches
    case h_2 => exact hattaches
  | succ retries ih =>
    obtain ⟨hattaches, hexhausted⟩ := ensurePod_attaches hgood (o (retries + 1)) args
    rw [NetworkManager.ensurePodRetry]
    split
    case h_2 => exact hattaches
    case h_1 n nm' heq =>
      rw [heq] at hattaches hexhausted
      obtain ⟨hview, hzero⟩ := hexhausted _ rfl
      have htight' : (nm'.view id).Tight := by
        rw [hview]
        exact htight hzero
      obtain ⟨hkeeps, hok⟩ := requestTenantExpansion_keeps hroot hattaches.keeps.good htight'
        (o (retries + 1))
      have hboth := hattaches.keeps.trans hkeeps
      dsimp only
      generalize nm'.requestTenantExpansion (o (retries + 1)) id = x at hkeeps hok hboth ⊢
      obtain ⟨e | ⟨⟩, nm''⟩ := x
      · apply Attaches.of_error hboth
      · dsimp only at hkeeps hok hboth ⊢
        split
        · apply Attaches.of_error hboth
        · apply Attaches.of_keeps hboth
          apply ih hboth.good
          intro _
          apply hok rfl

theorem Accounted.tight (haccounted : Accounted nm id) (hgood : Good root leafSize bits id nm) :
  (nm.view id).Tight
  := by
  intro r hr
  apply Ipam.tight_of_count (hgood.inside r hr).1.sound (haccounted r hr)

/-- The actor attaches pods with addresses that are not in use. -/
theorem actorEnsure_attaches (hroot : IsCIDR root ones bits)
    (hgood : Good root leafSize bits id nm) (o : ℕ → Outcomes) (args : PodAttachArgs)
    (hsafe : (Request.ensure args o).Safe id nm) :
  Attaches root leafSize bits id nm (nm.actorEnsure o id args).1 (nm.actorEnsure o id args).2
  := by
  have hattaches : Attaches root leafSize bits id nm (nm.ensurePodWithExpansion o id args).1
      (nm.ensurePodWithExpansion o id args).2 := by
    apply ensurePodRetry_attaches hroot o args _ hgood
    intro hzero
    apply (hsafe hzero).tight hgood
  rw [NetworkManager.actorEnsure]
  split
  · exact hattaches
  split
  · apply Attaches.of_error hgood.keeps
  · exact hattaches

theorem handle_ensure_ok {o : ℕ → Outcomes} {args : PodAttachArgs} {att : PodAttachment}
    (h : (handle id nm (.ensure args o)).1 = .ok (some att)) :
  (nm.actorEnsure o id args).1 = .ok att
  := by
  rw [handle] at h
  cases hresult : (nm.actorEnsure o id args).1 with
  | error e => simp [hresult, Except.map] at h
  | ok a => simpa [hresult, Except.map] using h

/-- Every safe request keeps the addresses in use. -/
theorem handle_keeps (hroot : IsCIDR root ones bits) (hgood : Good root leafSize bits id nm)
    {request : Request} (hsafe : request.Safe id nm) :
  Keeps root leafSize bits id nm (handle id nm request).2
  := by
  cases request with
  | ensure args o => apply (actorEnsure_attaches hroot hgood o args hsafe).keeps
  | remove args =>
    have hsteps : Steps default root leafSize bits (.removePod id args) nm _ _ :=
      removePod_steps hgood.managed id args
    apply hsteps.keeps hgood
    · simp
    · simp
  | expand o =>
    have hsteps := expandTenant_steps (h := default) hroot hgood.managed o id
    apply hsteps.keeps hgood
    · simp
    · intro _ _ _
      apply Accounted.tight hsafe hgood

/-- A run of safe requests keeps the addresses in use. -/
theorem after_keeps (hroot : IsCIDR root ones bits) (hgood : Good root leafSize bits id nm)
    {requests : List Request} (hsafe : Machine.Meets (handle id) (Request.Safe id) nm requests) :
  Keeps root leafSize bits id nm (Machine.after (handle id) nm requests)
  := by
  apply Machine.after_of_meets (P := Keeps root leafSize bits id nm) _ hgood.keeps hsafe
  intro nm' request hkeeps hsafe
  apply hkeeps.trans (handle_keeps hroot hkeeps.good hsafe)

/-- In a run of safe requests no address is given to two live endpoints. -/
theorem Good.unshared (hgood : Good root leafSize bits id nm) (hroot : IsCIDR root ones bits)
    {requests : List Request} (hsafe : Machine.Meets (handle id) (Request.Safe id) nm requests) :
  Unshared id nm requests
  := by
  rintro pre args o mid args' o' post att att' rfl hatt - hatt' -
  rw [Machine.meets_append] at hsafe
  obtain ⟨hpre, hensure, hrest⟩ := hsafe
  rw [Machine.meets_append] at hrest
  obtain ⟨hmid, hensure', -⟩ := hrest
  rw [Machine.after_append, Machine.after_cons] at hatt'
  -- the address is in use from its first answer on, so the second answer is another one
  have hgood₁ := (after_keeps hroot hgood hpre).good
  have hattaches := actorEnsure_attaches hroot hgood₁ o args hensure
  have hkeeps := after_keeps hroot hattaches.keeps.good hmid
  have hattaches' := actorEnsure_attaches hroot hkeeps.good o' args' hensure'
  obtain ⟨-, hused, hlength⟩ := hattaches.fresh att (handle_ensure_ok hatt)
  obtain ⟨hnew, -, hlength'⟩ := hattaches'.fresh att' (handle_ensure_ok hatt')
  by_contra hequal
  rw [Bool.not_eq_false, equalIP_iff hlength, to4_of_length hlength'] at hequal
  rw [hequal] at hnew
  exact hnew (hkeeps.inUse _ hused)

end

/-- From every state of a network manager, in every run of requests to the actor of a tenant in
which expansions start when as many addresses are in use as are listed, no address is given to
two live endpoints. -/
theorem after_unshared {root : IPNet} {ones bits : ℕ} (hroot : IsCIDR root ones bits)
    {leafMask : ℤ} {tm : TrieManager} (hnew : newTrieManager root leafMask = some tm)
    (h : Hashes) (nodeName id : String) (ops : List Op) (requests : List Request)
    (hsafe : Machine.Meets (handle id) (Request.Safe id)
      (Machine.after (step h) (newNetworkManager nodeName tm) ops) requests) :
  Unshared id (Machine.after (step h) (newNetworkManager nodeName tm) ops) requests
  := by
  have hinside := after_inside hroot hnew h nodeName ops
  have hgood : Good root leafMask bits id
      (Machine.after (step h) (newNetworkManager nodeName tm) ops) :=
    ⟨hinside.managed, hinside.views id⟩
  apply hgood.unshared hroot hsafe

theorem after_unshared_slash28 :
  ∃ tm, newTrieManager ⟨[10, 0, 0, 0], cidrMask 28 32⟩ 30 = some tm
    ∧ Unshared "t" (Machine.after (step default) (newNetworkManager "node" tm)
        [.ensureTenant "t" .success])
      [.expand .success, .ensure ⟨"", "p1", "c1", "ns1", "eth0"⟩ (fun _ => .success),
        .ensure ⟨"", "p2", "c2", "ns2", "eth0"⟩ (fun _ => .success)]
  := by
  obtain ⟨hroot, tm, hnew⟩ :=
    exists_newTrieManager_ipv4 [10, 0, 0, 0] 28 30 rfl (by decide) (by decide)
  use tm, hnew
  apply after_unshared hroot hnew
  have hsafe : (newTrieManager ⟨[10, 0, 0, 0], cidrMask 28 32⟩ 30).map (fun tm =>
      decide (Machine.Meets (handle "t") (Request.Safe "t")
        (Machine.after (step default) (newNetworkManager "node" tm)
          [.ensureTenant "t" .success])
        [.expand .success, .ensure ⟨"", "p1", "c1", "ns1", "eth0"⟩ (fun _ => .success),
          .ensure ⟨"", "p2", "c2", "ns2", "eth0"⟩ (fun _ => .success)]))
      = some true := by
    decide +kernel
  rw [hnew, Option.map_some, Option.some.injEq] at hsafe
  apply of_decide_eq_true hsafe

/-- Two requests for one pod, of which only the second is listed, and an expansion: a request for
another pod then gets the address of the first, whose endpoint is live. -/
theorem ensure_twice_shared :
  ∃ tm, newTrieManager ⟨[10, 0, 0, 0], cidrMask 28 32⟩ 30 = some tm
    ∧ ¬ Unshared "t" (Machine.after (step default) (newNetworkManager "node" tm)
        [.ensureTenant "t" .success])
      [.ensure ⟨"", "p1", "c1", "ns1", "eth0"⟩ (fun _ => .success),
        .ensure ⟨"", "p1", "c2", "ns2", "eth0"⟩ (fun _ => .success),
        .expand .success,
        .ensure ⟨"", "p2", "c3", "ns3", "eth0"⟩ (fun _ => .success)]
  := by
  obtain ⟨-, tm, hnew⟩ :=
    exists_newTrieManager_ipv4 [10, 0, 0, 0] 28 30 rfl (by decide) (by decide)
  use tm, hnew
  -- the answers to the first and to the last request
  have hrun : (newTrieManager ⟨[10, 0, 0, 0], cidrMask 28 32⟩ 30).map (fun tm =>
      let replies := Machine.replies (handle "t") (Machine.after (step default)
          (newNetworkManager "node" tm) [.ensureTenant "t" .success])
        [.ensure ⟨"", "p1", "c1", "ns1", "eth0"⟩ (fun _ => .success),
          .ensure ⟨"", "p1", "c2", "ns2", "eth0"⟩ (fun _ => .success),
          .expand .success,
          .ensure ⟨"", "p2", "c3", "ns3", "eth0"⟩ (fun _ => .success)]
      (replies[0]?, replies[3]?))
      = some (some (.ok (some ⟨⟨[10, 0, 0, 2], cidrMask 30 32⟩, [10, 0, 0, 1], "eth0"⟩)),
        some (.ok (some ⟨⟨[10, 0, 0, 2], cidrMask 28 32⟩, [10, 0, 0, 1], "eth0"⟩))) := by
    decide +kernel
  rw [hnew, Option.map_some, Option.some.injEq, Prod.mk.injEq] at hrun
  simp only [Machine.replies, List.getElem?_cons_zero, List.getElem?_cons_succ,
    Option.some.injEq] at hrun
  intro hunshared
  have hne := hunshared [] _ _ [_, _] _ _ [] _ _ rfl hrun.1 (by simp) hrun.2 (by decide)
  simp [equalIP] at hne

end Nmanager
