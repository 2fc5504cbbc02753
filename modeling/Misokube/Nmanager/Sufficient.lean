import Misokube.Nmanager.Endpoints

/-!
# One expansion suffices

An expansion doubles the network that is held for a tenant, and the network of the IPAM is inside
it.  So a successful expansion leaves a free address whatever addresses are listed or leaked, and
the next attempt for the pod does not run out of addresses (`after_suffices`): the retries of the
tenant actor expand the tenant at most once.
-/

namespace Nmanager

open Net Device Trie

namespace NetworkManager

/-- `ensurePodRetry`, with the number of expansions that succeeded. -/
def ensurePodCounted (o : ℕ → Outcomes) (tenantID : String) (args : PodAttachArgs) :
    ℕ → NetworkManager → (Except Error PodAttachment × NetworkManager) × ℕ
  | retries, nm =>
    match nm.ensurePod (o retries) tenantID args with
    | (.error (.ipam (.noAvailableIPs n)), nm) =>
      match retries with
      | 0 => ((.error (.ipam (.noAvailableIPs n)), nm), 0)
      | retries + 1 =>
        match nm.requestTenantExpansion (o (retries + 1)) tenantID with
        | (.error e, nm) => ((.error (.expandTenant e), nm), 0)
        | (.ok (), nm) =>
          match nm.reconcileExistingPods tenantID with
          | .error e => ((.error (.reconcilePods e), nm), 1)
          | .ok () =>
            let x := ensurePodCounted o tenantID args retries nm
            (x.1, x.2 + 1)
    | result => (result, 0)

end NetworkManager

/-- Counting does not change what is done. -/
theorem ensurePodCounted_fst (o : ℕ → Outcomes) (tenantID : String) (args : PodAttachArgs)
    (retries : ℕ) (nm : NetworkManager) :
  (nm.ensurePodCounted o tenantID args retries).1 = nm.ensurePodRetry o tenantID args retries
  := by
  induction retries generalizing nm with
  | zero =>
    rw [NetworkManager.ensurePodCounted, NetworkManager.ensurePodRetry]
    generalize nm.ensurePod (o 0) tenantID args = x
    obtain ⟨e | att, nm'⟩ := x
    · cases e with
      | ipam e => cases e <;> rfl
      | _ => rfl
    · rfl
  | succ retries ih =>
    rw [NetworkManager.ensurePodCounted, NetworkManager.ensurePodRetry]
    generalize nm.ensurePod (o (retries + 1)) tenantID args = x
    obtain ⟨e | att, nm'⟩ := x
    · cases e with
      | ipam e =>
        cases e with
        | noAvailableIPs n =>
          dsimp only
          generalize nm'.requestTenantExpansion (o (retries + 1)) tenantID = y
          obtain ⟨e | ⟨⟩, nm''⟩ := y
          · rfl
          · dsimp only
            cases nm''.reconcileExistingPods tenantID with
            | error e => rfl
            | ok => apply ih
        | _ => rfl
      | _ => rfl
    · rfl

/-- The IPAM has no address for the pod. -/
def NoAvailableIPs (result : Except Error PodAttachment) : Prop :=
  ∃ n, result = .error (.ipam (.noAvailableIPs n))

/-- An attempt that does not run out of addresses is the last one. -/
theorem ensurePodCounted_of_available {o : ℕ → Outcomes} {tenantID : String}
    {args : PodAttachArgs} {retries : ℕ} {nm : NetworkManager}
    (havailable : ¬ NoAvailableIPs (nm.ensurePod (o retries) tenantID args).1) :
  nm.ensurePodCounted o tenantID args retries = (nm.ensurePod (o retries) tenantID args, 0)
  := by
  rw [NetworkManager.ensurePodCounted]
  split
  case h_1 n nm' heq =>
    rw [heq] at havailable
    exact absurd ⟨n, rfl⟩ havailable
  case h_2 => rfl

/-! ### The room after an expansion -/

/-- The network of the IPAM is inside the one that is held, and has addresses for pods. -/
def Usable (bits : ℕ) (v : View) : Prop :=
  Inside bits v ∧ ∀ r, v.record = some r → 0 < r.ipam.capacity

section

variable {h : Hashes} {nodeName : String} {bits : ℕ} {grants : IPNet → Prop} {v v' : View}
  {reply : Reply}

/-- The expansion of a network has more addresses for pods than any network inside the old one
that has some. -/
theorem capacity_lt_of_half {p q s : IPNet} {m n : ℕ} (hs : IsCIDR s m 32) (hq : IsCIDR q n 32)
    (hlt : n < 32) (hhalf : p = lower q ∨ p = upper q) (hcovers : ∀ a, Covers s a → Covers p a)
    (hpos : 0 < Ipam.capacity s) :
  Ipam.capacity s < Ipam.capacity q
  := by
  have hsize := size_le_of_covers hcovers
  have hdouble : size q = 2 * size p := by
    have hp : IsCIDR p (n + 1) 32 := by
      rcases hhalf with rfl | rfl
      · apply lower_isCIDR hq hlt
      · apply upper_isCIDR hq hlt
    rw [hq.size, hp.size, ← Nat.pow_succ']
    congr 1
    omega
  rw [Ipam.capacity_eq hs] at hpos ⊢
  rw [Ipam.capacity_eq hq]
  omega

theorem Usable.with_ipam {r : TenantRecord} {p : Option IPNet} (hv : Usable bits ⟨some r, p⟩)
    {ipam : Ipam.BitmapIPAM} (hsound : Ipam.Sound ipam) (hnetwork : ipam.network = r.ipam.network) :
  Usable bits ⟨some { r with ipam := ipam }, p⟩
  := by
  use hv.1.with_ipam hsound hnetwork
  rintro _ ⟨⟩
  have hpos := hv.2 r rfl
  rw [Ipam.BitmapIPAM.capacity] at hpos ⊢
  rw [hnetwork]
  exact hpos

/-- Every effect keeps the IPAM usable. -/
theorem Effect.usable {op : Op} (heffect : Effect h nodeName bits grants op v reply v')
    (hv : Usable bits v) :
  Usable bits v'
  := by
  have hinside := heffect.inside hv.1
  cases heffect with
  | same => exact hv
  | exhausted => exact hv
  | failed =>
    use hinside
    simp
  | removed =>
    use hinside
    simp
  | @created _ _ _ _ n _ _ hcidr hcreate hipam =>
    use hinside
    rintro _ ⟨⟩
    obtain ⟨rfl, hones, hnetwork, -⟩ := Ipam.newBitmapIPAM_ok hcidr hipam
    rw [Ipam.BitmapIPAM.capacity, hnetwork, Ipam.capacity_eq hcidr, hcidr.size]
    have hpow : 2 ^ 2 ≤ 2 ^ (32 - n) := Nat.pow_le_pow_right (by decide) (by omega)
    omega
  | panicked =>
    use hinside
    rintro _ ⟨⟩
    apply hv.2 _ rfl
  | expanded hgrants hcidr hlt hhalf hexpanded =>
    obtain ⟨hvalid, p, ⟨⟩, hcovers⟩ := hv.1 _ rfl
    have hpos := hv.2 _ rfl
    use hinside
    rintro _ ⟨⟩
    rw [Ipam.BitmapIPAM.capacity] at hpos ⊢
    obtain hnetwork | hnetwork := hexpanded.network hcidr hvalid
    · rw [hnetwork]
      exact hpos
    · obtain ⟨rfl, hsound, -⟩ := hvalid
      obtain ⟨m, hcidr'⟩ := hsound.cidr
      have hlt' := capacity_lt_of_half hcidr' hcidr hlt hhalf hcovers hpos
      rw [hnetwork]
      omega
  | attached hready halloc =>
    obtain ⟨hsound, hnetwork⟩ := Ipam.allocate_spec (hv.1 _ rfl).1.sound halloc
    apply hv.with_ipam hsound hnetwork
  | bridgeless hready halloc =>
    obtain ⟨hsound, hnetwork⟩ := Ipam.allocate_spec (hv.1 _ rfl).1.sound halloc
    apply hv.with_ipam hsound hnetwork
  | detached hready halloc =>
    obtain ⟨hsound, hnetwork⟩ := Ipam.allocate_spec (hv.1 _ rfl).1.sound halloc
    apply hv.with_ipam
    · apply Ipam.free_sound hsound
    · apply (Ipam.free_network _ _).trans hnetwork

/-- An expansion that succeeds leaves a free address. -/
theorem Effect.room {id : String} {o : Outcomes}
    (heffect : Effect h nodeName bits grants (.expandTenant id o) v (.ok none) v')
    (hv : Usable bits v) :
  ∃ r, v'.record = some r ∧ r.ipam.remaining ≠ 0
  := by
  cases heffect with
  | same hreply => simp [Idle] at hreply
  | @expanded _ _ r r' _ _ _ _ _ hcidr hlt hhalf hexpanded =>
    obtain ⟨⟨rfl, hsound, -, -⟩, p, ⟨⟩, hcovers⟩ := hv.1 _ rfl
    obtain ⟨m, hcidr'⟩ := hsound.cidr
    have hmore := capacity_lt_of_half hcidr' hcidr hlt hhalf hcovers (hv.2 _ rfl)
    cases hexpanded with
    | done hbackend hipam =>
      refine ⟨_, rfl, ?_⟩
      have hremaining := Ipam.expand_remaining hsound hcidr hmore
      rw [hipam] at hremaining
      apply hremaining rfl

end

/-! ### Attempts -/

/-- Pod requests of the actor expand the tenant at most once. -/
structure Suffices (nm : NetworkManager) : Prop where
  next : ∀ tenantID args o o' o'' nm' nm'' n,
    nm.ensurePod o tenantID args = (.error (.ipam (.noAvailableIPs n)), nm') →
      nm'.requestTenantExpansion o' tenantID = (.ok (), nm'') →
        ¬ NoAvailableIPs (nm''.ensurePod o'' tenantID args).1
  once : ∀ o tenantID args, (nm.ensurePodCounted o tenantID args NetworkManager.maxRetries).2 ≤ 1
  last : ∀ o tenantID args, ¬ NoAvailableIPs (nm.ensurePodWithExpansion o tenantID args).1

section

variable {root : IPNet} {ones bits : ℕ} {leafSize : ℤ} {nodeName : String}
  {nm nm' nm'' : NetworkManager} {id : String} {args : PodAttachArgs}

/-- The manager is usable after every operation. -/
theorem Throughout.step_usable (hnm : Throughout root leafSize nodeName (Usable bits) nm)
    (hroot : IsCIDR root ones bits) (h : Hashes) (op : Op) :
  Throughout root leafSize nodeName (Usable bits) (step h nm op).2
  := by
  exact after_throughout hroot (fun _ _ _ _ _ hv heffect => heffect.usable hv) hnm
    (Machine.meets_true nm [op])

theorem requestTenantExpansion_ok {o : Outcomes} (h : Hashes)
    (hok : nm.requestTenantExpansion o id = (.ok (), nm')) :
  step h nm (.expandTenant id o) = (.ok none, nm')
  := by
  rw [NetworkManager.requestTenantExpansion] at hok
  split at hok
  · simp at hok
  split at hok
  · simp at hok
  obtain ⟨hresult, rfl⟩ := Prod.mk.inj hok
  rw [step]
  cases hexpand : (nm.expandTenant o id).1 with
  | error e => simp [hexpand, Except.map] at hresult
  | ok r => rfl

/-- After an expansion that succeeds the next attempt does not run out of addresses. -/
theorem Throughout.available (hnm : Throughout root leafSize nodeName (Usable bits) nm)
    (hroot : IsCIDR root ones bits) {o : Outcomes}
    (hok : nm.requestTenantExpansion o id = (.ok (), nm')) (o' : Outcomes) :
  ¬ NoAvailableIPs (nm'.ensurePod o' id args).1
  := by
  have hstep := requestTenantExpansion_ok default hok
  have hexpand := step_steps (h := default) hroot hnm.managed (.expandTenant id o)
  have hnm' := hnm.step_usable hroot default (.expandTenant id o)
  rw [hstep] at hexpand hnm'
  obtain ⟨r, hr, hroom⟩ := hexpand.effect.room (hnm.views id)
  rintro ⟨n, hn⟩
  have hsteps : Steps default root leafSize bits (.ensurePod id args o') nm'
      (step default nm' (.ensurePod id args o')).1 (step default nm' (.ensurePod id args o')).2 :=
    ensurePod_steps hnm'.managed o' id args
  have hensure := hsteps.effect
  rw [step, hn] at hensure
  obtain ⟨-, r', hr', hzero⟩ := hensure.remaining (hnm'.views id).1
  obtain rfl : r = r' := Option.some.inj (hr.symm.trans hr')
  exact hroom hzero

/-- The attempts of the actor: the tenant is expanded at most once, and if there is a retry, then
the last attempt does not run out of addresses. -/
theorem Throughout.counted (hnm : Throughout root leafSize nodeName (Usable bits) nm)
    (hroot : IsCIDR root ones bits) (o : ℕ → Outcomes) (retries : ℕ) :
  (nm.ensurePodCounted o id args (retries + 1)).2 ≤ 1
    ∧ ¬ NoAvailableIPs (nm.ensurePodCounted o id args (retries + 1)).1.1
  := by
  by_cases hfirst : NoAvailableIPs (nm.ensurePod (o (retries + 1)) id args).1
  · obtain ⟨n, hn⟩ := hfirst
    have hnm' := hnm.step_usable hroot default (.ensurePod id args (o (retries + 1)))
    rw [step] at hnm'
    rw [NetworkManager.ensurePodCounted]
    generalize nm.ensurePod (o (retries + 1)) id args = x at hn hnm'
    obtain ⟨result, nm'⟩ := x
    dsimp only at hn hnm'
    subst hn
    dsimp only
    cases hok : nm'.requestTenantExpansion (o (retries + 1)) id with
    | mk result nm'' =>
      cases result with
      | error e => simp [NoAvailableIPs]
      | ok u =>
        dsimp only
        cases nm''.reconcileExistingPods id with
        | error e => simp [NoAvailableIPs]
        | ok =>
          have havailable : ¬ NoAvailableIPs (nm''.ensurePod (o retries) id args).1 :=
            hnm'.available hroot hok (o retries)
          simp only [ensurePodCounted_of_available havailable]
          exact ⟨le_refl 1, havailable⟩
  · rw [ensurePodCounted_of_available hfirst]
    exact ⟨Nat.zero_le 1, hfirst⟩

end

/-- After every run of a new network manager, whatever fails outside of it, one expansion suffices
for a request. -/
theorem after_suffices {root : IPNet} {ones bits : ℕ} (hroot : IsCIDR root ones bits)
    {leafMask : ℤ} {tm : TrieManager} (hnew : newTrieManager root leafMask = some tm)
    (h : Hashes) (nodeName : String) (ops : List Op) :
  Suffices (Machine.after (step h) (newNetworkManager nodeName tm) ops)
  := by
  have hunknown : Usable bits ⟨none, none⟩ := by
    simp [Usable, Inside]
  have hnm : Throughout root leafMask nodeName (Usable bits)
      (Machine.after (step h) (newNetworkManager nodeName tm) ops) :=
    after_newNetworkManager hroot hnew hunknown (fun _ _ _ _ _ hv heffect => heffect.usable hv)
      (Machine.meets_true _ ops)
  constructor
  · intro id args o o' o'' nm' nm'' n hensure hok
    have hnm' := hnm.step_usable hroot default (.ensurePod id args o)
    rw [step, hensure] at hnm'
    apply hnm'.available hroot hok
  · intro o id args
    apply (hnm.counted hroot o 1).1
  · intro o id args
    rw [NetworkManager.ensurePodWithExpansion, ← ensurePodCounted_fst]
    apply (hnm.counted hroot o 1).2

theorem after_suffices_slash24 :
  ∃ tm, newTrieManager ⟨[10, 0, 0, 0], cidrMask 24 32⟩ 30 = some tm
    ∧ ∀ h nodeName ops, Suffices (Machine.after (step h) (newNetworkManager nodeName tm) ops)
  := by
  obtain ⟨hroot, tm, hnew⟩ :=
    exists_newTrieManager_ipv4 [10, 0, 0, 0] 24 30 rfl (by decide) (by decide)
  use tm, hnew
  intro h nodeName ops
  apply after_suffices hroot hnew

end Nmanager
