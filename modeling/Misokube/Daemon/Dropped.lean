import Misokube.Daemon.Reports
import Misokube.Nmanager.Tables

/-!
# Updates that are dropped

The update handler drops an update of another node if the node reports the same of its tenants,
apart from their pods.  But the peers are built from the address of the node as well, which the
handler does not look at.  So a dropped update is irrelevant to peering exactly when the peers
cannot tell the addresses apart (`dropped_irrelevant_iff`).
-/

namespace Daemon

open Net Api Peers

/-- The conversions fail with the same error, or succeed with equal peers. -/
def SameOutcome : Except Error RemoteTenantInfra → Except Error RemoteTenantInfra → Prop
  | .error e, .error e' => e = e'
  | .ok a, .ok b => remotePeersEqual a b = true
  | _, _ => False

instance : ∀ x y : Except Error RemoteTenantInfra, Decidable (SameOutcome x y)
  | .error e, .error e' => inferInstanceAs (Decidable (e = e'))
  | .ok a, .ok b => inferInstanceAs (Decidable (remotePeersEqual a b = true))
  | .error _, .ok _ => isFalse id
  | .ok _, .error _ => isFalse id

/-- The versions of a node list the same tenants, and the peers that are built from them are
equal. -/
structure Irrelevant (p : Parsers) (oldNS newNS : NodeStore) : Prop where
  tenants : ∀ t, (oldNS.tenants.lookup t).isSome = (newNS.tenants.lookup t).isSome
  outcome : ∀ t, ∀ i ∈ oldNS.tenants.lookup t, ∀ j ∈ newNS.tenants.lookup t,
    SameOutcome (buildRemoteTenantInfra p oldNS i) (buildRemoteTenantInfra p newNS j)

/-- Both addresses cannot be parsed, or both can, to the same one if it ends up in a peer. -/
def SameAddress (p : Parsers) (oldIP newIP vtepMAC : String) : Prop :=
  match p.parseIP oldIP, p.parseIP newIP with
  | none, none => True
  | some a, some b => (p.parseMAC vtepMAC).isSome → a = b
  | _, _ => False

/-- What the handler does not compare and the conversion uses: the name of a tenant without network,
which is in the error, and the address of the node, once the other fields before it are parsed. -/
def Unnoticed (p : Parsers) (oldNS newNS : NodeStore) (i j : TenantInfra) : Prop :=
  if i.tenantCIDR = "" then i.name = j.name
  else (p.parseCIDR i.tenantCIDR).isSome → (p.parseIP i.vtepIP).isSome →
    SameAddress p oldNS.nodeIP newNS.nodeIP i.vtepMAC

section

variable {p : Parsers} {oldNS newNS : NodeStore} {i j : TenantInfra}

/-- Reports that are equal for peers give the same outcome exactly when nothing that matters goes
unnoticed. -/
theorem sameOutcome_iff (hname : newNS.specName = oldNS.specName)
    (hinfo : forPeers i = forPeers j) :
  SameOutcome (buildRemoteTenantInfra p oldNS i) (buildRemoteTenantInfra p newNS j)
    ↔ Unnoticed p oldNS newNS i j
  := by
  simp only [forPeers, TenantInfra.mk.injEq] at hinfo
  obtain ⟨-, hcidr, -, hvni, hvtepIP, hvtepMAC, -⟩ := hinfo
  rw [buildRemoteTenantInfra, buildRemoteTenantInfra, Unnoticed, ← hcidr, ← hvni, ← hvtepIP,
    ← hvtepMAC, hname]
  by_cases hempty : i.tenantCIDR = ""
  · simp [if_pos hempty, SameOutcome]
  rw [if_neg hempty, if_neg hempty, if_neg hempty]
  cases hsubnet : p.parseCIDR i.tenantCIDR with
  | none => simp [SameOutcome]
  | some subnet =>
    cases hvtep : p.parseIP i.vtepIP with
    | none => simp [SameOutcome]
    | some vtepIP =>
      simp only [Option.isSome_some, forall_const, SameAddress]
      cases hold : p.parseIP oldNS.nodeIP with
      | none =>
        cases hnew : p.parseIP newNS.nodeIP with
        | none => simp [SameOutcome]
        | some newIP => cases hmac : p.parseMAC i.vtepMAC <;> simp [SameOutcome]
      | some oldIP =>
        cases hnew : p.parseIP newNS.nodeIP with
        | none => cases hmac : p.parseMAC i.vtepMAC <;> simp [SameOutcome]
        | some newIP =>
          cases hmac : p.parseMAC i.vtepMAC with
          | none => simp [SameOutcome]
          | some mac =>
            simp only [SameOutcome, Option.isSome_some, forall_const]
            constructor
            · intro hequal
              have hip := ((remotePeersEqual_iff _ _).mp hequal).2.2.2.1
              apply eq_of_ipEqual _ hip
              rw [p.length_ip hold, p.length_ip hnew]
            · rintro rfl
              apply remotePeersEqual_refl

/-- An update of another node is dropped only if its reports are equal for peers. -/
theorem sameReport_of_dropped {nodeName : String} (hremote : newNS.specName ≠ nodeName)
    (hdropped : updateNodestoreEventHandler nodeName oldNS newNS = none) :
  SameReport oldNS.tenants newNS.tenants
  := by
  rw [updateNodestoreEventHandler, if_neg hremote] at hdropped
  split at hdropped
  case isTrue hequal => apply sameReport_of_equal hequal
  case isFalse => simp at hdropped

end

/-- An update of another node that is dropped is irrelevant to peering exactly when nothing that
matters goes unnoticed, for any tenant. -/
theorem dropped_irrelevant_iff (p : Parsers) (nodeName : String) (oldNS newNS : NodeStore)
    (hname : newNS.specName = oldNS.specName) (hremote : newNS.specName ≠ nodeName)
    (hdropped : updateNodestoreEventHandler nodeName oldNS newNS = none) :
  Irrelevant p oldNS newNS
    ↔ ∀ t, ∀ i ∈ oldNS.tenants.lookup t, ∀ j ∈ newNS.tenants.lookup t,
      Unnoticed p oldNS newNS i j
  := by
  have hreport := sameReport_of_dropped hremote hdropped
  have hinfo : ∀ t, ∀ i ∈ oldNS.tenants.lookup t, ∀ j ∈ newNS.tenants.lookup t,
      forPeers i = forPeers j := by
    intro t i hi j hj
    have ht := hreport t
    rw [hi, hj, Option.map_some, Option.map_some, Option.some.injEq] at ht
    exact ht
  constructor
  · intro h t i hi j hj
    apply (sameOutcome_iff hname (hinfo t i hi j hj)).mp
    apply h.outcome t i hi j hj
  · intro h
    constructor
    · intro t
      have ht := congrArg Option.isSome (hreport t)
      rw [Option.isSome_map, Option.isSome_map] at ht
      exact ht
    · intro t i hi j hj
      apply (sameOutcome_iff hname (hinfo t i hi j hj)).mpr
      apply h t i hi j hj

/-- A node with an address that reports the tenant `red` with pods. -/
def redNode (nodeIP : String) (pods : List PodInfo) : NodeStore :=
  ⟨"b", "b", nodeIP, AList.singleton "red" ⟨"red", "10.0.2.0/24", "vxlan-red", 1, "10.0.2.254",
    "02:00:00:00:00:01", "br-red", "10.0.2.1", "02:00:00:00:00:02", pods⟩⟩

/-- A pod of the tenant is new. -/
theorem dropped_irrelevant_new_pod :
  updateNodestoreEventHandler "a" (redNode "192.168.0.2" [])
      (redNode "192.168.0.2" [⟨"p", "10.0.2.5"⟩]) = none
    ∧ Irrelevant goParsers (redNode "192.168.0.2" [])
      (redNode "192.168.0.2" [⟨"p", "10.0.2.5"⟩])
  := by
  have hdropped : updateNodestoreEventHandler "a" (redNode "192.168.0.2" [])
      (redNode "192.168.0.2" [⟨"p", "10.0.2.5"⟩]) = none := by
    decide +kernel
  use hdropped
  apply (dropped_irrelevant_iff goParsers "a" (redNode "192.168.0.2" [])
    (redNode "192.168.0.2" [⟨"p", "10.0.2.5"⟩]) rfl (by decide) hdropped).mpr
  intro t i hi j _
  have hmem := AList.mem_lookup_iff.mp hi
  simp only [redNode, AList.singleton, List.mem_singleton] at hmem
  cases hmem
  rw [Unnoticed, if_neg (by decide)]
  intro _ _ _
  rfl

/-- The address of the node changes: the update is dropped, although the peer is another one. -/
theorem dropped_new_address :
  updateNodestoreEventHandler "a" (redNode "192.168.0.2" []) (redNode "192.168.0.3" []) = none
    ∧ ¬ Irrelevant goParsers (redNode "192.168.0.2" []) (redNode "192.168.0.3" [])
  := by
  use by decide +kernel
  -- the entries are the same, the peers are not
  have hpeers : ∃ i ∈ (redNode "192.168.0.2" []).tenants.lookup "red",
      ∃ j ∈ (redNode "192.168.0.3" []).tenants.lookup "red",
        ¬ SameOutcome (buildRemoteTenantInfra goParsers (redNode "192.168.0.2" []) i)
          (buildRemoteTenantInfra goParsers (redNode "192.168.0.3" []) j) := by
    decide +kernel
  intro h
  obtain ⟨i, hi, j, hj, hnot⟩ := hpeers
  exact hnot (h.outcome "red" i hi j hj)

end Daemon
