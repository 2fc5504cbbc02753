import Misokube.Api.Types

/-!
# The admission webhook

Package `internal/webhook`: which pods and tenants the cluster admits.  What the body of a request
and its object decode to is part of the request, and the answers of the API server are inputs.  A
request is admitted only if it is for a pod whose label names a tenant, or for a tenant with at most
as many nodes as the cluster has (`allowed_of_review`).
-/

namespace Webhook

open Api

/-! ### Checks -/

def tenantLabelKey : String := "setera.com.v1.tenant"

def tenantNotFound : String := "tenant not found"

def tenantLabelNotFound : String := "tenant label not found"

def tenantIsValid : String := "tenant is valid"

def zonesAboveNodes : String := "the number of tenant zones is greater than the number of nodes"

def checkTenantLabel (labels : GoMap String String) (tenantList : List Tenant) : Bool × String :=
  match labels.lookup tenantLabelKey with
  | none => (false, tenantLabelNotFound)
  | some tenant_label =>
    if tenantList.any fun tenant => tenant_label = tenant.name then (true, tenantIsValid)
    else (false, tenantNotFound)

/-- Of the nodes of the cluster only their number is used. -/
def checkNodeZones (nodeList : List String) (zoneList : List NodeInfo) : Bool × String :=
  if nodeList.length < zoneList.length then (false, zonesAboveNodes) else (true, tenantIsValid)

/-! ### Requests -/

structure GroupVersionKind where
  group : String
  version : String
  kind : String
deriving DecidableEq

def deploymentGVK : GroupVersionKind := ⟨"apps", "v1", "Deployment"⟩

def daemonsetGVK : GroupVersionKind := ⟨"apps", "v1", "Daemonset"⟩

def podGVK : GroupVersionKind := ⟨"", "v1", "Pod"⟩

def tenantGVK : GroupVersionKind := ⟨"setera.com", "v1", "Tenant"⟩

/-- A request, with what its object decodes to as a pod and as a tenant. -/
structure AdmissionRequest where
  uid : String
  requestKind : Option GroupVersionKind
  pod : Except String Pod
  tenant : Except String Tenant

/-- A response; one without a status has no message. -/
structure AdmissionResponse where
  allowed : Bool
  message : Option String
deriving DecidableEq

/-- What the API server answers: the tenants, and the names of the nodes. -/
structure Clientset where
  tenants : Except String (List Tenant)
  nodes : Except String (List String)

def createAdmissionResponse (result : Bool) (msg : String) : AdmissionResponse :=
  ⟨result, some msg⟩

def validatePod (ws : Clientset) (admissionRequest : AdmissionRequest) :
    Except String AdmissionResponse := do
  let pod ← admissionRequest.pod
  let tenantList ← ws.tenants
  let (allowed, reason) := checkTenantLabel pod.labels tenantList
  return createAdmissionResponse allowed reason

def validateTenant (ws : Clientset) (admissionRequest : AdmissionRequest) :
    Except String AdmissionResponse := do
  let tenant ← admissionRequest.tenant
  let nodes ← ws.nodes
  let (allowed, reason) := checkNodeZones nodes tenant.assignedNodes
  return createAdmissionResponse allowed reason

/-- What the handler does: it reports an error over HTTP, writes a review with the UID of the
request, or panics. -/
inductive Handled where
  | httpError (statusCode : ℕ) (msg : String)
  | review (uid : String) (response : AdmissionResponse)
  | panicked
deriving DecidableEq

/-- A body is an error of the decoder or a review, whose request may be missing. -/
def admissionValidationHandler (ws : Clientset) (body : Except String (Option AdmissionRequest)) :
    Handled :=
  match body with
  | .error err => .httpError 400 ("failed decoding admission request: " ++ err)
  | .ok none => .panicked
  | .ok (some request) =>
    match request.requestKind with
    | none => .httpError 400 "failed to extract resource from request"
    | some kind =>
      if kind = daemonsetGVK then .review request.uid ⟨false, none⟩
      else if kind = deploymentGVK then .review request.uid ⟨false, none⟩
      else if kind = podGVK then
        match validatePod ws request with
        | .error err => .httpError 500 err
        | .ok response => .review request.uid response
      else if kind = tenantGVK then
        match validateTenant ws request with
        | .error err => .httpError 500 err
        | .ok response => .review request.uid response
      else .review request.uid ⟨false, none⟩

/-! ### What is admitted -/

/-- The object of the request is the pod, and it is allowed because its label names the tenant. -/
structure AllowsFor (ws : Clientset) (request : AdmissionRequest) (pod : Pod) (tenant : Tenant) :
    Prop where
  decoded : request.pod = .ok pod
  allowed : validatePod ws request = .ok ⟨true, some tenantIsValid⟩
  listed : ∃ tenants, ws.tenants = .ok tenants ∧ tenant ∈ tenants
  named : pod.labels.lookup tenantLabelKey = some tenant.name

/-- The object of the request is a tenant that has at most as many nodes as the cluster. -/
structure FitsNodes (ws : Clientset) (request : AdmissionRequest) (tenant : Tenant) : Prop where
  decoded : request.tenant = .ok tenant
  fits : ∃ nodes, ws.nodes = .ok nodes ∧ tenant.assignedNodes.length ≤ nodes.length

section

variable {ws : Clientset} {request : AdmissionRequest} {response : AdmissionResponse}

/-- The label is accepted exactly if it names a tenant. -/
theorem checkTenantLabel_eq_true_iff (labels : GoMap String String) (tenantList : List Tenant) :
  (checkTenantLabel labels tenantList).1 = true
    ↔ ∃ tenant ∈ tenantList, labels.lookup tenantLabelKey = some tenant.name
  := by
  rw [checkTenantLabel]
  cases labels.lookup tenantLabelKey with
  | none => simp
  | some tenant_label =>
    dsimp only
    split <;> simp_all

theorem checkTenantLabel_of_eq_true {labels : GoMap String String} {tenantList : List Tenant}
    (h : (checkTenantLabel labels tenantList).1 = true) :
  checkTenantLabel labels tenantList = (true, tenantIsValid)
  := by
  rw [checkTenantLabel] at h ⊢
  cases hlabel : labels.lookup tenantLabelKey with
  | none => simp [hlabel] at h
  | some tenant_label =>
    rw [hlabel] at h
    dsimp only at h ⊢
    split at h
    case isTrue hany => rw [if_pos hany]
    case isFalse => simp at h

/-- A review that answers has decoded the pod and listed the tenants. -/
theorem validatePod_ok (h : validatePod ws request = .ok response) :
  ∃ pod tenants, request.pod = .ok pod ∧ ws.tenants = .ok tenants
    ∧ response = createAdmissionResponse (checkTenantLabel pod.labels tenants).1
      (checkTenantLabel pod.labels tenants).2
  := by
  rw [validatePod] at h
  cases hpod : request.pod with
  | error err => simp [hpod, bind, Except.bind] at h
  | ok pod =>
    cases htenants : ws.tenants with
    | error err => simp [hpod, htenants, bind, Except.bind] at h
    | ok tenants =>
      refine ⟨pod, tenants, rfl, rfl, ?_⟩
      rw [hpod, htenants] at h
      exact (Except.ok.inj h).symm

/-- A review that answers has decoded the tenant and listed the nodes. -/
theorem validateTenant_ok (h : validateTenant ws request = .ok response) :
  ∃ tenant nodes, request.tenant = .ok tenant ∧ ws.nodes = .ok nodes
    ∧ response = createAdmissionResponse (checkNodeZones nodes tenant.assignedNodes).1
      (checkNodeZones nodes tenant.assignedNodes).2
  := by
  rw [validateTenant] at h
  cases htenant : request.tenant with
  | error err => simp [htenant, bind, Except.bind] at h
  | ok tenant =>
    cases hnodes : ws.nodes with
    | error err => simp [htenant, hnodes, bind, Except.bind] at h
    | ok nodes =>
      refine ⟨tenant, nodes, rfl, rfl, ?_⟩
      rw [htenant, hnodes] at h
      exact (Except.ok.inj h).symm

/-- An allowed pod is allowed because its label names a tenant. -/
theorem allowsFor_of_validatePod (h : validatePod ws request = .ok response)
    (hallowed : response.allowed = true) :
  ∃ pod tenant, AllowsFor ws request pod tenant
  := by
  obtain ⟨pod, tenants, hpod, htenants, rfl⟩ := validatePod_ok h
  obtain ⟨tenant, htenant, hnamed⟩ :=
    (checkTenantLabel_eq_true_iff pod.labels tenants).mp hallowed
  rw [checkTenantLabel_of_eq_true hallowed] at h
  exact ⟨pod, tenant, hpod, h, ⟨tenants, htenants, htenant⟩, hnamed⟩

/-- A tenant that is admitted has no more assigned nodes than the cluster has. -/
theorem fitsNodes_of_validateTenant (h : validateTenant ws request = .ok response)
    (hallowed : response.allowed = true) :
  ∃ tenant, FitsNodes ws request tenant
  := by
  obtain ⟨tenant, nodes, htenant, hnodes, rfl⟩ := validateTenant_ok h
  refine ⟨tenant, htenant, nodes, hnodes, ?_⟩
  by_contra hlt
  rw [not_le] at hlt
  simp [createAdmissionResponse, checkNodeZones, hlt] at hallowed

/-- Whatever the handler allows is a pod whose label names a tenant, or a tenant that fits the
cluster; requests for deployments and daemonsets are denied. -/
theorem allowed_of_review {body : Except String (Option AdmissionRequest)} {uid : String}
    (h : admissionValidationHandler ws body = .review uid response)
    (hallowed : response.allowed = true) :
  ∃ request, body = .ok (some request) ∧ request.uid = uid
    ∧ (request.requestKind = some podGVK ∧ (∃ pod tenant, AllowsFor ws request pod tenant)
      ∨ request.requestKind = some tenantGVK ∧ ∃ tenant, FitsNodes ws request tenant)
  := by
  match body with
  | .error err => simp [admissionValidationHandler] at h
  | .ok none => simp [admissionValidationHandler] at h
  | .ok (some request) =>
    cases hkind : request.requestKind with
    | none => simp [admissionValidationHandler, hkind] at h
    | some kind =>
      simp only [admissionValidationHandler, hkind] at h
      split at h
      · obtain ⟨-, rfl⟩ := Handled.review.inj h
        simp at hallowed
      split at h
      · obtain ⟨-, rfl⟩ := Handled.review.inj h
        simp at hallowed
      split at h
      case isTrue hpod =>
        subst hpod
        split at h
        case h_1 => simp at h
        case h_2 response' hvalid =>
          obtain ⟨rfl, rfl⟩ := Handled.review.inj h
          exact ⟨request, rfl, rfl, Or.inl ⟨hkind, allowsFor_of_validatePod hvalid hallowed⟩⟩
      case isFalse =>
        split at h
        case isTrue htenant =>
          subst htenant
          split at h
          case h_1 => simp at h
          case h_2 response' hvalid =>
            obtain ⟨rfl, rfl⟩ := Handled.review.inj h
            exact ⟨request, rfl, rfl, Or.inr ⟨hkind, fitsNodes_of_validateTenant hvalid hallowed⟩⟩
        case isFalse =>
          obtain ⟨-, rfl⟩ := Handled.review.inj h
          simp at hallowed

end

end Webhook
