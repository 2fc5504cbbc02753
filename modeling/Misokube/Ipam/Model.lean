import Misokube.Lib.Bitmap
import Misokube.Lib.Map
import Misokube.Net.Cidr
import Mathlib.Data.Int.Bitwise

/-!
# The bitmap IPAM

The package `pkg/network/ipam`: the pod addresses of a subnet, with a bit for every address and
a map from pod keys to the addresses given out.  The network address, the address of the bridge
after it and the broadcast address are not given out.  The subnet of an IPAM is never nil, since
the constructor and `Expand` refuse a nil subnet; and `1 << (bits - ones)` is an exact power of
two, which an `int` holds for every IPv4 mask.
-/

namespace Ipam

open Net

/-- The errors of the package, and the panic of a call that does not return. -/
inductive Error where
  | nilSubnet
  | noAvailableIPs (subnet : IPNet)
  | ipNotInRange (ip : IP) (subn : IPNet)
  | ipv4OnlySupported (maskSize : ℕ)
  | subnetTooSmall (subnet : IPNet)
  | bitmapIndexOutOfRange
  | notIncluded (newSubnet previous : IPNet)
  | notInExpandedSubnet (ip : IP) (newSubnet : IPNet)
  | bitmapIndexOverflow (ip : IP)
  | panicked
deriving DecidableEq

/-- What is stored about a container. -/
structure ContainerNetInfo where
  id : String
  ifname : String
  netns : String
  ip : IP
deriving DecidableEq

/-- `BitmapIPAM`. -/
structure BitmapIPAM where
  network : IPNet
  bitmap : List (BitVec 64)
  ips : GoMap String ContainerNetInfo

/-! ### Addresses -/

/-- The address `delta` after `base`, for IPv4. -/
def addIPv4 (base : IP) (delta : ℕ) : IP :=
  let b := to4 base
  if b = [] then []
  else
    let v := toNat b + delta
    [UInt8.ofNat (v >>> 24), UInt8.ofNat (v >>> 16), UInt8.ofNat (v >>> 8), UInt8.ofNat v]

/-- The offset of `ip` from `base`: the differences of the bytes, shifted and joined by a bitwise
or.  `none` is the panic for slices that are too short. -/
def ipv4Diff : IP → IP → Option ℤ
  | b₀ :: b₁ :: b₂ :: b₃ :: _, x₀ :: x₁ :: x₂ :: x₃ :: _ =>
    some ((((((x₀.toNat : ℤ) - b₀.toNat) * 2 ^ 24).lor
      (((x₁.toNat : ℤ) - b₁.toNat) * 2 ^ 16)).lor
      (((x₂.toNat : ℤ) - b₂.toNat) * 2 ^ 8)).lor
      ((x₃.toNat : ℤ) - b₃.toNat))
  | _, _ => none

/-- The address of a bitmap index: index 0 is two after the network address. -/
@[irreducible]
def indexToIP (subnet : IPNet) (idx : ℕ) : IP :=
  addIPv4 (to4 (maskIP subnet.ip subnet.mask)) (2 + idx)

/-- The bitmap index of an address, -1 outside the pod range; `none` is a panic. -/
def ipToIndex (subnet : IPNet) (ip : IP) : Option ℤ :=
  let ip4 := to4 ip
  if ip4 = [] then some (-1)
  else
    let base := to4 (maskIP subnet.ip subnet.mask)
    match ipv4Diff base ip4 with
    | none => none
    | some offset =>
      let total : ℤ := 2 ^ ((maskSize subnet.mask).2 - (maskSize subnet.mask).1)
      if offset < 2 ∨ total - 1 ≤ offset then some (-1) else some (offset - 2)

/-- The 16-byte form of an address. -/
def to16 (ip : IP) : IP :=
  if ip.length = 4 then v4InV6Prefix ++ ip
  else if ip.length = 16 then ip
  else []

/-- The last address of a network; `none` is the panic for a mask that is too short. -/
def lastIP (subnet : IPNet) : Option IP :=
  let ip := if to4 subnet.ip ≠ [] then to4 subnet.ip else to16 subnet.ip
  if ip = [] then some []
  else if subnet.mask.length < ip.length then none
  else some (List.zipWith (fun b m => b ||| ~~~m) ip subnet.mask)

/-- The address and the last address of `inner` are in `outer`; `none` is a panic. -/
def cidrContains (outer inner : IPNet) : Option Bool :=
  if contains outer inner.ip then (lastIP inner).map (contains outer) else some false

/-! ### The IPAM -/

/-- The number of pod addresses of a subnet. -/
def capacity (subnet : IPNet) : ℕ :=
  let total := 2 ^ ((maskSize subnet.mask).2 - (maskSize subnet.mask).1)
  let usable := total - 2
  if usable ≤ 1 then 0 else usable - 1

/-- A new IPAM of a subnet. -/
def newBitmapIPAM (subnet : Option IPNet) : Except Error BitmapIPAM :=
  match subnet with
  | none => .error .nilSubnet
  | some subnet =>
    let ones := (maskSize subnet.mask).1
    let bits := (maskSize subnet.mask).2
    if bits ≠ 32 then .error (.ipv4OnlySupported bits)
    else
      let total := 2 ^ (bits - ones)
      if total < 4 then .error (.subnetTooSmall subnet)
      else
        let usable := total - 2
        let podIPs := usable - 1
        if podIPs = 0 then .error (.subnetTooSmall subnet)
        else .ok ⟨subnet, List.replicate ((podIPs + 63) / 64) 0, ∅⟩

/-- The loop of `Allocate` over the words of the bitmap, the first of which has index `idx`: the
first position that is not set, if it is below the capacity. -/
def firstFree (capacity : ℕ) : ℕ → List (BitVec 64) → Option ℕ
  | _, [] => none
  | idx, word :: words =>
    if ~~~word = 0 then firstFree capacity (idx + 1) words
    else
      let bit := Bitmap.trailingZeros (~~~word)
      if 64 ≤ bit then firstFree capacity (idx + 1) words
      else
        let pos := idx * 64 + bit
        if capacity ≤ pos then none else some pos

namespace BitmapIPAM

/-- The number of pod addresses. -/
def capacity (s : BitmapIPAM) : ℕ :=
  Ipam.capacity s.network

/-- The number of pod addresses that are not set. -/
def remaining (s : BitmapIPAM) : ℕ :=
  let used := Bitmap.used s.bitmap
  s.capacity - if s.capacity < used then s.capacity else used

/-- Gives the first free address to the pod. -/
def allocate (s : BitmapIPAM) (podKey containerID ifName netns : String) :
    Except Error ContainerNetInfo × BitmapIPAM :=
  if s.capacity = 0 then (.error (.noAvailableIPs s.network), s)
  else
    match firstFree s.capacity 0 s.bitmap with
    | none => (.error (.noAvailableIPs s.network), s)
    | some pos =>
      let res := ⟨containerID, ifName, netns, indexToIP s.network pos⟩
      (.ok res,
        { s with bitmap := Bitmap.set s.bitmap pos, ips := s.ips.insert podKey res })

/-- The map without the first entry of the address. -/
def deleteIP (ips : GoMap String ContainerNetInfo) (ip : IP) : GoMap String ContainerNetInfo :=
  match ips.entries.find? fun e => equalIP e.2.ip ip with
  | none => ips
  | some e => ips.erase e.1

/-- Releases an address. -/
def free (s : BitmapIPAM) (ip : IP) : Except Error Unit × BitmapIPAM :=
  match ipToIndex s.network ip with
  | none => (.error .panicked, s)
  | some idx =>
    if idx < 0 then (.error (.ipNotInRange ip s.network), s)
    else if s.bitmap.length ≤ idx.toNat / 64 then (.error .bitmapIndexOutOfRange, s)
    else
      (.ok (), { s with bitmap := Bitmap.clear s.bitmap idx.toNat, ips := deleteIP s.ips ip })

/-- The loop of `Expand` over the entries of the map, with the new subnet in place: sets the bits
of the addresses in the new bitmap.  On an error the subnet `oldNet` is put back. -/
def expandLoop (oldNet : IPNet) :
    BitmapIPAM → List (Σ _ : String, ContainerNetInfo) → List (BitVec 64) →
      Except Error Unit × BitmapIPAM
  | s, [], newBitmap => (.ok (), { s with bitmap := newBitmap })
  | s, ⟨podName, info⟩ :: entries, newBitmap =>
    if info.ip = [] then expandLoop oldNet { s with ips := s.ips.erase podName } entries newBitmap
    else
      match ipToIndex s.network info.ip with
      | none => (.error .panicked, s)
      | some idx =>
        if idx < 0 then
          (.error (.notInExpandedSubnet info.ip s.network), { s with network := oldNet })
        else if newBitmap.length ≤ idx.toNat / 64 then
          (.error (.bitmapIndexOverflow info.ip), { s with network := oldNet })
        else expandLoop oldNet s entries (Bitmap.set newBitmap idx.toNat)

/-- Moves the IPAM to a subnet that includes the old one. -/
def expand (s : BitmapIPAM) (newSubnet : Option IPNet) : Except Error Unit × BitmapIPAM :=
  match newSubnet with
  | none => (.error .nilSubnet, s)
  | some newSubnet =>
    match cidrContains newSubnet s.network with
    | none => (.error .panicked, s)
    | some false => (.error (.notIncluded newSubnet s.network), s)
    | some true =>
      let words := if 0 < Ipam.capacity newSubnet then (Ipam.capacity newSubnet + 63) / 64 else 0
      expandLoop s.network { s with network := newSubnet } s.ips.entries
        (List.replicate words 0)

/-- The entries of the map. -/
def listAllocations (s : BitmapIPAM) : List (String × ContainerNetInfo) :=
  s.ips.entries.map fun e => (e.1, e.2)

/-- The entry of a pod. -/
def getAllocation (s : BitmapIPAM) (podName : String) : Option ContainerNetInfo :=
  s.ips.lookup podName

end BitmapIPAM

end Ipam
