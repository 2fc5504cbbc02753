import Misokube.Net.Cidr

/-!
# Devices and their backend

The packages `pkg/network/device`, `device/bridge` and `device/vtep` and the backend
`bv_backend` over them: the addresses, names and identifiers a tenant's bridge and VTEP get, and
what is recorded of them.  Whether the kernel calls of an operation succeed is given by
`Outcomes`.  The hash functions are parameters.
-/

namespace Device

open Net

/-- The hash functions of the standard library. -/
structure Hashes where
  sha1 : List UInt8 → List UInt8
  sha256 : List UInt8 → List UInt8
deriving Inhabited

/-- What the kernel answers during one call: whether the calls for a device succeed, and the
hardware address it gives a bridge. -/
structure Outcomes where
  bridgeCreate : Bool
  vtepCreate : Bool
  bridgeUpdate : Bool
  vtepUpdate : Bool
  bridgeDelete : Bool
  vtepDelete : Bool
  bridgeMAC : List UInt8

/-- The errors of the packages, and the panic of a call on a nil manager. -/
inductive Error where
  | firstIPNotInNetwork (first : IP) (network : IPNet)
  | prefixTooLong (pfx : String)
  | noRoomForSuffix (pfx : String)
  | nilDevice
  | netlink
  | nilManager
deriving DecidableEq

/-! ### Addresses -/

/-- Adds one to a number of bytes, the least significant first, with carry. -/
def carry : List UInt8 → List UInt8
  | [] => []
  | b :: bs => if b + 1 = 0 then 0 :: carry bs else (b + 1) :: bs

/-- The first address after the network address, with the mask of the network. -/
def firstIP (n : IPNet) : Except Error IPNet :=
  let first := (carry (network n).reverse).reverse
  if contains n first then .ok ⟨first, n.mask⟩ else .error (.firstIPNotInNetwork first n)

/-- The network address, with the mask of the network. -/
def hostIP (n : IPNet) : IPNet :=
  ⟨network n, n.mask⟩

/-! ### Names and identifiers -/

/-- The bytes of a string. -/
def bytes (s : String) : List UInt8 :=
  s.toUTF8.data.toList

/-- The hexadecimal digits of the bytes. -/
def hexEncode (bs : List UInt8) : String :=
  String.ofList (bs.flatMap fun b => [Nat.digitChar (b.toNat / 16), Nat.digitChar (b.toNat % 16)])

def maxDeviceNameLength : ℕ := 15

def brPrefix : String := "br-"

def vxlanPrefix : String := "vxlan-"

/-- A device name: the prefix and as many digits of the hash of the name as there is room for,
but no more than after the longest prefix. -/
@[irreducible]
def generateDeviceName (h : Hashes) (pfx name : String) : Except Error String :=
  if maxDeviceNameLength < pfx.utf8ByteSize then .error (.prefixTooLong pfx)
  else
    let longestPrefixLen := 6
    let suffixLen := maxDeviceNameLength - longestPrefixLen
    let hashedName := hexEncode (h.sha1 (bytes name))
    if maxDeviceNameLength < pfx.utf8ByteSize + suffixLen then
      let suffixLen := maxDeviceNameLength - pfx.utf8ByteSize
      if suffixLen = 0 then .error (.noRoomForSuffix pfx)
      else .ok (pfx ++ String.ofList (hashedName.toList.take suffixLen))
    else .ok (pfx ++ String.ofList (hashedName.toList.take suffixLen))

/-- The hardware address of the VTEP of a tenant on a node: local and unicast. -/
def vtepMAC (h : Hashes) (tenantID nodeName : String) : List UInt8 :=
  match (h.sha1 (bytes (tenantID ++ "|" ++ nodeName))).take 6 with
  | [] => []
  | b :: rest => ((b &&& 0xFE) ||| 0x02) :: rest

/-- The VXLAN identifier of a tenant: 24 bits of a hash, never 0. -/
def vni (h : Hashes) (tenant : String) : ℕ :=
  let vni := toNat ((h.sha256 (bytes tenant)).take 4) &&& 0xFFFFFF
  if vni = 0 then 1 else vni

/-! ### Devices -/

/-- What is recorded of a bridge. -/
structure Bridge where
  name : String
  ip : IPNet
  mac : List UInt8
deriving DecidableEq

/-- What is recorded of a VTEP. -/
structure VTEP where
  name : String
  ip : IPNet
  mac : List UInt8
  vni : ℕ
deriving DecidableEq

/-- `bridge.Manager.Create`: the bridge has the first address of the subnet. -/
def createBridge (h : Hashes) (o : Outcomes) (tenantID : String) (subnet : IPNet) :
    Except Error Bridge := do
  let name ← generateDeviceName h brPrefix tenantID
  let ip ← firstIP subnet
  if o.bridgeCreate then .ok ⟨name, ip, o.bridgeMAC⟩ else .error .netlink

/-- `vtep.Manager.Create`: the VTEP has the network address, with a mask of 32 ones. -/
def createVTEP (h : Hashes) (o : Outcomes) (tenantID : String) (subnet : IPNet)
    (nodeName : String) : Except Error VTEP := do
  let name ← generateDeviceName h vxlanPrefix tenantID
  if o.vtepCreate then
    .ok ⟨name, ⟨(hostIP subnet).ip, cidrMask 32 32⟩, vtepMAC h tenantID nodeName, vni h tenantID⟩
  else .error .netlink

/-- `bridge.Manager.Update`: moves the bridge to the first address of the subnet. -/
def updateBridge (o : Outcomes) (br : Bridge) (subnet : IPNet) : Except Error Bridge := do
  let ip ← firstIP subnet
  if o.bridgeUpdate then .ok { br with ip := ip } else .error .netlink

/-! ### The backend -/

/-- `bv_backend`: the devices of a tenant, and whether the managers of the devices are there. -/
structure Backend where
  managers : Bool
  bridge : Option Bridge
  vtep : Option VTEP
deriving DecidableEq

/-- `NewBridgeVTEPBackend`. -/
def newBridgeVTEPBackend : Backend :=
  ⟨true, none, none⟩

namespace Backend

/-- Creates the devices.  A bridge without VTEP is deleted again, which may fail as well. -/
def create (h : Hashes) (o : Outcomes) (be : Backend) (tenantID : String) (subnet : IPNet)
    (host : String) : Except Error Unit × Backend :=
  match createBridge h o tenantID subnet with
  | .error e => (.error e, be)
  | .ok br =>
    match createVTEP h o tenantID subnet host with
    | .error e => (.error (if o.bridgeDelete then e else .netlink), be)
    | .ok vt => (.ok (), { be with bridge := some br, vtep := some vt })

/-- Moves the devices to a subnet.  The address of the VTEP is set in the kernel but not in the
record of the device: `vtep.Manager.Update` drops the address `UpdateIP` returns. -/
def update (o : Outcomes) (be : Backend) (subnet : IPNet) : Except Error Unit × Backend :=
  match be.bridge with
  | none => (.error .nilDevice, be)
  | some br =>
    match updateBridge o br subnet with
    | .error e => (.error e, be)
    | .ok br =>
      let be := { be with bridge := some br }
      if be.managers = false then (.error .nilManager, be)
      else if be.vtep = none then (.error .nilDevice, be)
      else if o.vtepUpdate then (.ok (), be)
      else (.error .netlink, be)

/-- Deletes the devices and drops the managers. -/
def delete (o : Outcomes) (be : Backend) : Except Error Unit × Backend :=
  if be.managers = false then (.error .nilManager, be)
  else if be.vtep = none then (.error .nilDevice, be)
  else if o.vtepDelete = false then (.error .netlink, be)
  else if be.bridge = none then (.error .nilDevice, be)
  else if o.bridgeDelete = false then (.error .netlink, be)
  else (.ok (), ⟨false, none, none⟩)

end Backend

end Device
