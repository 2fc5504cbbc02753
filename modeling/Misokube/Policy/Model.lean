import Misokube.Lib.Iptables

/-!
# The tenant policy manager

The chains of rules that keep the traffic of private tenants apart.  Every tenant has a chain of
its own, which lets packets pass to the tenant's interfaces and to the extra interfaces it is
given, and discards the others.  The chain `SETERA-PRIV-FORWARD`, which is called from `FORWARD`,
hands the packets that come in through an interface of a tenant to the chain of that tenant.
-/

namespace Policy

open Iptables

def privateAnchorChain : String := "SETERA-PRIV-FORWARD"

def privateAnchorComment : String := "setera:private-anchor"

/-! ### Names of chains -/

def maxChainLen : ℕ := 29

/-- The character that stands for a character of a name. -/
def chainRune (r : Char) : Char :=
  if ('a' ≤ r ∧ r ≤ 'z') ∨ ('A' ≤ r ∧ r ≤ 'Z') ∨ ('0' ≤ r ∧ r ≤ '9') ∨ r = '-' ∨ r = '_' then r
  else '-'

/-- The name with characters that may not stand in the name of a chain replaced, cut to the
greatest length.  All characters of the result are one byte long. -/
def chainName (pfx tenant : String) : String :=
  if tenant = "" then
    if pfx.toList.getLast? = some '-' then String.ofList pfx.toList.dropLast else pfx
  else String.ofList (((pfx ++ tenant).toList.map chainRune).take maxChainLen)

def fwChain (tenant : String) : String :=
  chainName "FW-" tenant

/-! ### Rules -/

/-- Which of the interfaces of a tenant a packet comes in through. -/
inductive Kind where
  | bridge
  | vxlan
deriving DecidableEq, Repr

def Kind.suffix : Kind → String
  | bridge => "bridge"
  | vxlan => "vxlan"

/-- The rule that hands packets from an interface of a tenant to its chain. -/
def ingressJump (tenant iface : String) (kind : Kind) : Rule where
  inIface := some iface
  comment := some ("tenant:" ++ tenant ++ ":ingress:" ++ kind.suffix)
  target := .jump (fwChain tenant)

/-- The rule that lets packets pass to an interface of the tenant. -/
def egressAccept (tenant iface : String) (kind : Kind) : Rule where
  outIface := some iface
  comment := some ("tenant:" ++ tenant ++ ":egress:" ++ kind.suffix)
  target := .accept

/-- The rule that lets packets pass to another interface. -/
def extraAccept (iface : String) : Rule where
  outIface := some iface
  target := .accept

/-- The rule that discards packets. -/
def defaultDrop (tenant : String) : Rule where
  comment := some ("tenant:" ++ tenant ++ ":default-drop")
  target := .drop

/-- The rule that hands packets to the chain with the rules of all private tenants. -/
def privateAnchor : Rule where
  comment := some privateAnchorComment
  target := .jump privateAnchorChain

/-! ### Operations -/

/-- Source addresses in the cluster are replaced on the way out of it. -/
def addClusterMasquerade (clusterCIDR : String) : Command Unit := do
  if clusterCIDR = "" then throw (.errorf "clusterCIDR cannot be empty")
  appendUnique "nat" "POSTROUTING"
    { others := ["-s", clusterCIDR, "!", "-d", clusterCIDR], target := .jump "MASQUERADE" }

/-- An empty chain for the tenant. -/
def ensureTenantChains (tenant : String) : Command Unit := do
  if tenant = "" then throw (.errorf "tenant cannot be empty")
  try newChain "filter" (fwChain tenant) catch _ => pure ()
  clearChain "filter" (fwChain tenant)

def isChainExistsErr (err : Error) : Bool :=
  err = .chainExists

def ensureChainExists (chain : String) : Command Unit := do
  if chain = "" then throw (.errorf "chain name required")
  try newChain "filter" chain
  catch err => if !isChainExistsErr err then throw err

/-- The text occurs in the line. -/
def contains (line text : String) : Bool :=
  decide (text.toList <:+: line.toList)

/-- The position for the rule of the private tenants among the lines printed for `FORWARD`: that
of the first Kubernetes rule, or else one after the last rule of the default tenant. -/
def blockPosition (lines : List String) : ℕ :=
  let (lastDefault, firstKube) := lines.zipIdx.foldl (fun (lastDefault, firstKube) (line, idx) =>
    if contains line "default-tenant-" then (idx + 1, firstKube)
    else if firstKube = 0 ∧ (contains line "KUBE-" ∨ contains line "kubernetes ") then
      (lastDefault, idx + 1)
    else (lastDefault, firstKube)) (0, 0)
  if firstKube > 0 then firstKube else if lastDefault > 0 then lastDefault + 1 else 1

def afterDefaultBlockPosition : Command ℕ := do
  return blockPosition (← list "filter" "FORWARD")

/-- Packets reach the rules of the private tenants from `FORWARD`. -/
def ensurePrivateAnchor : Command Unit := do
  ensureChainExists privateAnchorChain
  try delete "filter" "FORWARD" privateAnchor catch _ => pure ()
  let pos ← afterDefaultBlockPosition
  insertUnique "filter" "FORWARD" pos privateAnchor

def insertPrivateJump (tenant iface : String) (kind : Kind) : Command Unit := do
  if iface = "" then return
  appendUnique "filter" privateAnchorChain (ingressJump tenant iface kind)

/-- Packets pass to an interface of the tenant. -/
def acceptEgress (tenant iface : String) (kind : Kind) : Command Unit := do
  if iface ≠ "" then
    appendUnique "filter" (fwChain tenant) (egressAccept tenant iface kind)

/-- Packets pass to the other interfaces the tenant is given. -/
def acceptExtras (tenant : String) (extraAllowedEgressIfaces : List String) : Command Unit := do
  for ifc in extraAllowedEgressIfaces do
    if ifc = "" then continue
    appendUnique "filter" (fwChain tenant) (extraAccept ifc)

def ensureTenantIsolation (tenant brIf vxIf : String) (extraAllowedEgressIfaces : List String) :
  Command Unit := do
  ensureTenantChains tenant
  ensurePrivateAnchor
  insertPrivateJump tenant vxIf .vxlan
  insertPrivateJump tenant brIf .bridge
  acceptEgress tenant brIf .bridge
  acceptEgress tenant vxIf .vxlan
  acceptExtras tenant extraAllowedEgressIfaces
  appendUnique "filter" (fwChain tenant) (defaultDrop tenant)

def removeFromPrivateAnchor (tenant iface : String) (kind : Kind) : Command Unit := do
  if iface = "" then return
  delete "filter" privateAnchorChain (ingressJump tenant iface kind)

def deleteTenantChains (tenant brIf vxIf : String) : Command Unit := do
  if tenant = "" then throw (.errorf "tenant is empty")
  else
    removeFromPrivateAnchor tenant brIf .bridge
    removeFromPrivateAnchor tenant vxIf .vxlan
    clearChain "filter" (fwChain tenant)
    deleteChain "filter" (fwChain tenant)

/-- A rule at the top of `FORWARD`. -/
def insertTop (r : Rule) : Command Unit :=
  insertUnique "filter" "FORWARD" 1 r

/-- Packets from and to the interfaces of the default tenant pass.  The rules are inserted in the
reverse of their final order. -/
def ensureDefaultTenant (brDefault vxDefault : String) : Command Unit := do
  if vxDefault ≠ "" then
    insertTop { outIface := some vxDefault, comment := some "default-tenant-egress:vxlan",
                target := .accept }
  if brDefault ≠ "" then
    insertTop { outIface := some brDefault, comment := some "default-tenant-egress:bridge",
                target := .accept }
  if vxDefault ≠ "" then
    insertTop { inIface := some vxDefault, comment := some "default-tenant-ingress:vxlan",
                target := .accept }
  if brDefault ≠ "" then
    insertTop { inIface := some brDefault, comment := some "default-tenant-ingress:bridge",
                target := .accept }
  ensurePrivateAnchor

def deleteRule (table chain : String) (rulespec : Rule) : Command Unit := do
  if table = "" ∨ chain = "" then throw (.errorf "table/chain required")
  delete table chain rulespec

end Policy
