import Misokube.Lib.Map

/-!
# The objects of the API

The custom resources of `pkg/api/setera.com/v1`, and the pods of Kubernetes, with the fields that
the daemons, the orchestrator and the webhook read or write.
-/

namespace Api

structure PodInfo where
  name : String
  ip : String
deriving DecidableEq

/-- What a node reports of a tenant. -/
structure TenantInfra where
  name : String
  tenantCIDR : String
  vtepName : String
  vni : ℤ
  vtepIP : String
  vtepMAC : String
  bridgeName : String
  bridgeIP : String
  bridgeMAC : String
  pods : List PodInfo
deriving DecidableEq

/-- A node: the name of the object, the name and address of the node, and the tenants it reports. -/
structure NodeStore where
  name : String
  specName : String
  nodeIP : String
  tenants : GoMap String TenantInfra

/-- What a tenant records of a node that has it. -/
structure NodeInfo where
  name : String
  nodeIP : String
  tenantCIDR : String
  vtepIP : String
  vtepMAC : String
deriving DecidableEq

/-- A tenant: the number of nodes it is to have, the nodes that have it, and the nodes that are to
set it up. -/
structure Tenant where
  name : String
  zones : ℤ
  assignedNodes : List NodeInfo
  awaitingNodeConfiguration : List String
deriving DecidableEq

/-- A pod. -/
structure Pod where
  uid : String
  labels : GoMap String String
  annotations : GoMap String String

end Api
