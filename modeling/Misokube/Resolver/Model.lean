import Misokube.Lib.Machine
import Misokube.Webhook.Model

/-!
# The resolver of tenants, and admission

Package `internal/resolver` as `cmd/stub-daemon` starts it: the tenant of a pod, found by the UID of
the pod among the pods of an informer.  `Resolve` reads an annotation of the pod and the webhook a
label, with different keys, so that they agree only on the pods with both (`resolve_eq_iff`).
-/

namespace Resolver

open Api

/-! ### Pods -/

/-- The pods that an informer has.  The API server gives every pod a UID of its own. -/
structure PodInformer where
  pods : List Pod
  uid_ne : ∀ p ∈ pods, p.uid ≠ ""
  uid_inj : ∀ p ∈ pods, ∀ q ∈ pods, p.uid = q.uid → p = q

/-- An informer that has not listed anything. -/
def newPodInformer : PodInformer :=
  ⟨[], by simp, by simp⟩

/-- The values of a pod in the index `byUID`. -/
def indexByUID (p : Pod) : List String :=
  if p.uid = "" then [] else [p.uid]

/-- The pods with a value in the index. -/
def PodInformer.byIndex (podInf : PodInformer) (puid : String) : List Pod :=
  podInf.pods.filter fun p => puid ∈ indexByUID p

/-! ### The resolver -/

structure Config where
  tenantLabelKey : String
  nodeName : String
  defaultTenant : String
deriving DecidableEq

def Config.setDefaults (c : Config) : Config :=
  { c with
    tenantLabelKey := if c.tenantLabelKey = "" then "setera.com/tenant" else c.tenantLabelKey
    defaultTenant := if c.defaultTenant = "" then "default" else c.defaultTenant }

inductive Error where
  | notReady
deriving DecidableEq

structure ResolverImpl where
  cfg : Config
  podInf : PodInformer
  podsSynced : Bool

def newResolver (pods : PodInformer) (cfg : Config) : ResolverImpl :=
  ⟨cfg.setDefaults, pods, false⟩

/-- The tenant, whether to ask again, and the error. -/
def ResolverImpl.resolve (r : ResolverImpl) (puid : String) : String × Bool × Option Error :=
  if r.podsSynced = false then ("", true, some .notReady)
  else
    match r.podInf.byIndex puid with
    | [] => ("", true, some .notReady)
    | p :: _ =>
      let tenantID := (p.annotations.lookup r.cfg.tenantLabelKey).getD ""
      if tenantID = "" then (r.cfg.defaultTenant, false, none) else (tenantID, false, none)

/-- What the daemon starts with, given a client. -/
def initResolver (nodeName : String) : Except String ResolverImpl :=
  if nodeName = "" then .error "empty node name"
  else .ok (newResolver newPodInformer
    { tenantLabelKey := "setera.com/tenant", nodeName := nodeName, defaultTenant := "default" })

/-- What happens to a resolver: the informer has other pods, or the wait for its first list ends,
with or without success. -/
inductive Event where
  | observed (podInf : PodInformer)
  | waited (okPods : Bool)

def step (r : ResolverImpl) : Event → Unit × ResolverImpl
  | .observed podInf => ((), { r with podInf := podInf })
  | .waited okPods => ((), { r with podsSynced := okPods })

/-! ### Lookups -/

section

variable {r : ResolverImpl} {pod : Pod}

theorem PodInformer.mem_byIndex (podInf : PodInformer) (puid : String) :
  pod ∈ podInf.byIndex puid ↔ pod ∈ podInf.pods ∧ pod.uid = puid
  := by
  rw [byIndex, List.mem_filter, decide_eq_true_eq, indexByUID]
  apply and_congr_right
  intro hpod
  rw [if_neg (podInf.uid_ne pod hpod), List.mem_singleton, eq_comm]

/-- A pod of the informer is the first one found by its UID. -/
theorem PodInformer.head_byIndex (podInf : PodInformer) (hpod : pod ∈ podInf.pods) :
  (podInf.byIndex pod.uid).head? = some pod
  := by
  have hfound : pod ∈ podInf.byIndex pod.uid := (podInf.mem_byIndex pod.uid).mpr ⟨hpod, rfl⟩
  cases hlist : podInf.byIndex pod.uid with
  | nil => simp [hlist] at hfound
  | cons p rest =>
    have hp : p ∈ podInf.byIndex pod.uid := by simp [hlist]
    obtain ⟨hmem, huid⟩ := (podInf.mem_byIndex pod.uid).mp hp
    rw [podInf.uid_inj p hmem pod hpod huid]
    rfl

/-- The tenant of a pod that the informer has. -/
theorem ResolverImpl.resolve_of_mem (hsynced : r.podsSynced = true) (hpod : pod ∈ r.podInf.pods) :
  r.resolve pod.uid
    = (if (pod.annotations.lookup r.cfg.tenantLabelKey).getD "" = "" then r.cfg.defaultTenant
      else (pod.annotations.lookup r.cfg.tenantLabelKey).getD "", false, none)
  := by
  have hhead := r.podInf.head_byIndex hpod
  rw [resolve, hsynced, if_neg (by simp)]
  cases hlist : r.podInf.byIndex pod.uid with
  | nil => simp [hlist] at hhead
  | cons p rest =>
    obtain rfl : p = pod := by simpa [hlist] using hhead
    dsimp only
    split <;> rfl

/-- The configuration of the daemon stays. -/
theorem after_cfg {nodeName : String} (hinit : initResolver nodeName = .ok r)
    (events : List Event) :
  (Machine.after step r events).cfg = ⟨"setera.com/tenant", nodeName, "default"⟩
  := by
  have hstep : ∀ (r : ResolverImpl) (event : Event),
      r.cfg = ⟨"setera.com/tenant", nodeName, "default"⟩ →
      (step r event).2.cfg = ⟨"setera.com/tenant", nodeName, "default"⟩ := by
    intro r event hr
    cases event <;> exact hr
  apply Machine.after_of_forall hstep
  rw [initResolver] at hinit
  split at hinit
  · simp at hinit
  · obtain rfl := Except.ok.inj hinit
    simp [newResolver, Config.setDefaults]

end

/-! ### Admission -/

/-- An entry of a map, or a default if it is missing or empty. -/
theorem ite_getD_eq_iff (value : Option String) (defaultTenant tenantID : String) :
  (if value.getD "" = "" then defaultTenant else value.getD "") = tenantID
    ↔ value = some tenantID ∧ tenantID ≠ ""
      ∨ (value = none ∨ value = some "") ∧ tenantID = defaultTenant
  := by
  cases value with
  | none => simp [eq_comm]
  | some value =>
    simp only [Option.getD_some, Option.some.injEq]
    split
    case isTrue hempty =>
      subst hempty
      simp [eq_comm]
    case isFalse hne =>
      constructor
      · rintro rfl
        exact Or.inl ⟨rfl, hne⟩
      · rintro (⟨rfl, -⟩ | ⟨hnone | hempty, -⟩)
        · rfl
        · simp at hnone
        · exact absurd hempty hne

/-- A pod that is allowed because its label names a tenant is resolved to this tenant exactly if the
annotation of the pod names the tenant as well, or the annotation is missing or empty and the tenant
is the default one. -/
theorem resolve_eq_iff {nodeName : String} {r : ResolverImpl}
    (hinit : initResolver nodeName = .ok r) (events : List Event)
    (hsynced : (Machine.after step r events).podsSynced = true) {pod : Pod}
    (hpod : pod ∈ (Machine.after step r events).podInf.pods) {ws : Webhook.Clientset}
    {request : Webhook.AdmissionRequest} {tenant : Tenant}
    (hallows : Webhook.AllowsFor ws request pod tenant) :
  (Machine.after step r events).resolve pod.uid = (tenant.name, false, none)
    ↔ pod.annotations.lookup "setera.com/tenant" = pod.labels.lookup "setera.com.v1.tenant"
        ∧ pod.labels.lookup "setera.com.v1.tenant" ≠ some ""
      ∨ (pod.annotations.lookup "setera.com/tenant" = none
          ∨ pod.annotations.lookup "setera.com/tenant" = some "")
        ∧ pod.labels.lookup "setera.com.v1.tenant" = some "default"
  := by
  have hnamed : pod.labels.lookup "setera.com.v1.tenant" = some tenant.name := hallows.named
  rw [ResolverImpl.resolve_of_mem hsynced hpod, after_cfg hinit, hnamed, Prod.mk.injEq,
    ite_getD_eq_iff]
  simp only [and_true, ne_eq, Option.some.injEq]

/-- The tenant `one`. -/
def tenantOne : Tenant :=
  ⟨"one", 1, [], []⟩

/-- A pod with the label of the tenant `one`. -/
def podOfOne (annotations : GoMap String String) : Pod :=
  ⟨"uid", (∅ : GoMap String String).insert "setera.com.v1.tenant" "one", annotations⟩

/-- The informer has the pod, and has listed all pods. -/
def observePodOfOne (annotations : GoMap String String) : List Event :=
  [.observed ⟨[podOfOne annotations], by simp [podOfOne], by simp⟩, .waited true]

theorem allowsFor_podOfOne (annotations : GoMap String String) :
  Webhook.AllowsFor ⟨.ok [tenantOne], .ok []⟩
    ⟨"request", some Webhook.podGVK, .ok (podOfOne annotations), .error ""⟩ (podOfOne annotations)
    tenantOne
  := by
  have hnamed : (podOfOne annotations).labels.lookup Webhook.tenantLabelKey = some tenantOne.name :=
    AList.lookup_insert _
  have hallowed : (Webhook.checkTenantLabel (podOfOne annotations).labels [tenantOne]).1 = true :=
    (Webhook.checkTenantLabel_eq_true_iff _ _).mpr ⟨tenantOne, List.mem_singleton_self _, hnamed⟩
  refine ⟨rfl, ?_, ⟨[tenantOne], rfl, List.mem_singleton_self _⟩, hnamed⟩
  have hcheck := Webhook.checkTenantLabel_of_eq_true hallowed
  simp [Webhook.validatePod, hcheck, Webhook.createAdmissionResponse, bind, Except.bind, pure,
    Except.pure]

/-- With the same tenant in the label and in the annotation. -/
theorem resolve_eq_of_both :
  ∃ r, initResolver "node" = .ok r
    ∧ (Machine.after step r
        (observePodOfOne
          ((∅ : GoMap String String).insert "setera.com/tenant" "one"))).resolve "uid"
      = ("one", false, none)
  := by
  obtain ⟨r, hinit⟩ : ∃ r, initResolver "node" = .ok r := ⟨_, rfl⟩
  use r, hinit
  apply (resolve_eq_iff hinit _ rfl (List.mem_singleton_self _) (allowsFor_podOfOne _)).mpr
  left
  decide +kernel

/-- A pod that is allowed for the tenant `one`, and attached to the default tenant. -/
theorem resolve_ne_of_label :
  ∃ r, initResolver "node" = .ok r
    ∧ Webhook.AllowsFor ⟨.ok [tenantOne], .ok []⟩
      ⟨"request", some Webhook.podGVK, .ok (podOfOne ∅), .error ""⟩ (podOfOne ∅) tenantOne
    ∧ (Machine.after step r (observePodOfOne ∅)).podsSynced = true
    ∧ podOfOne ∅ ∈ (Machine.after step r (observePodOfOne ∅)).podInf.pods
    ∧ (Machine.after step r (observePodOfOne ∅)).resolve (podOfOne ∅).uid = ("default", false, none)
    ∧ tenantOne.name ≠ "default"
  := by
  refine ⟨_, rfl, allowsFor_podOfOne ∅, rfl, List.mem_singleton_self _, ?_, ?_⟩
  · decide +kernel
  · decide

end Resolver
