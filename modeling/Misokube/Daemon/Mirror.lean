import Misokube.Daemon.Model
import Misokube.Nmanager.WiringRuns

/-!
# What a node publishes of its tenants

The daemon writes a snapshot of the tenants into the status of the node's object, as texts, and the
daemons of the other nodes read it back (`buildRemoteTenantInfra` with Go's parsers).  What they
read is what the node has in its kernel: every entry is valid, and names a VTEP that is up, with the
identifier, the hardware address and an address of its own (`after_readBack`).
-/

namespace Daemon

open Net Api Device
open Nmanager (NetworkManager TenantRecord TenantInfraSnapshot buildTenantSnapshot)
open Peers (RemoteTenantInfra kernelIP kernelDst)

/-! ### The status -/

/-- The text of an address that is not nil. -/
def ipText (ip : IP) : String :=
  if ip = [] then "" else ipString ip

/-- The text of a hardware address that is not nil. -/
def macText (mac : List UInt8) : String :=
  if mac = [] then "" else macString mac

/-- What is published of a tenant. -/
def tenantInfra (tenant : String) (snap : TenantInfraSnapshot) : TenantInfra where
  name := tenant
  tenantCIDR := ipNetString snap.subnet
  vtepName := snap.vtepDev
  vni := snap.vni
  vtepIP := ipText snap.vtepIP
  vtepMAC := macText snap.vtepMAC
  bridgeName := snap.bridge
  bridgeIP := ipText snap.bridgeIP
  bridgeMAC := macText snap.bridgeMAC
  pods := snap.pods.map fun pod => ⟨pod.1, ipText pod.2⟩

/-- `SnapshotAllTenantInfra`. -/
def snapshotAllTenantInfra (nm : NetworkManager) : GoMap String TenantInfraSnapshot :=
  nm.tenantRecords.mapValues fun _ r => buildTenantSnapshot r

/-- The status that is made of the records. -/
def mirror (nm : NetworkManager) : GoMap String TenantInfra :=
  (snapshotAllTenantInfra nm).mapValues tenantInfra

theorem lookup_mirror (nm : NetworkManager) (id : String) :
  (mirror nm).lookup id
    = (nm.tenantRecords.lookup id).map fun r => tenantInfra id (buildTenantSnapshot r)
  := by
  rw [mirror, snapshotAllTenantInfra, GoMap.lookup_mapValues, GoMap.lookup_mapValues,
    Option.map_map]
  rfl

/-- Replaces the tenants of the object of the node by the status of the records.  An object that
cannot be fetched is left, without an error. -/
def reconcileNodestoreTenantUpdate (o : StatusOutcomes) (nm : NetworkManager) (ns : NodeStore) :
    Except Error Unit × NodeStore :=
  if o.get = false then (.ok (), ns)
  else if o.updateStatus = false then (.error .updateStatus, ns)
  else (.ok (), { ns with tenants := mirror nm })

/-- Does the same, and returns no error either if the status cannot be written. -/
def reconcileNodestoreTenantDelete (o : StatusOutcomes) (nm : NetworkManager) (ns : NodeStore) :
    Except Error Unit × NodeStore :=
  if o.get = false then (.ok (), ns)
  else if o.updateStatus = false then (.ok (), ns)
  else (.ok (), { ns with tenants := mirror nm })

/-! ### Reading it back -/

theorem to4_v4InV6Prefix {v4 : IP} (hv4 : v4.length = 4) :
  to4 (v4InV6Prefix ++ v4) = v4
  := by
  have htake : (v4InV6Prefix ++ v4).take 12 = v4InV6Prefix := by simp [v4InV6Prefix]
  have hdrop : (v4InV6Prefix ++ v4).drop 12 = v4 := by simp [v4InV6Prefix]
  have hlength : (v4InV6Prefix ++ v4).length = 16 := by
    rw [List.length_append, hv4]
    rfl
  simp [to4, hlength, htake, hdrop]

theorem kernelIP_v4InV6Prefix {v4 : IP} (hv4 : v4.length = 4) :
  kernelIP (v4InV6Prefix ++ v4) = v4
  := by
  have hne : v4 ≠ [] := List.ne_nil_of_length_eq_add_one hv4
  rw [kernelIP, to4_v4InV6Prefix hv4, if_pos hne]

theorem vni_lt (h : Hashes) (tenant : String) :
  vni h tenant < 2 ^ 24
  := by
  have hle : ∀ n : ℕ, n &&& 0xFFFFFF < 2 ^ 24 := fun n => Nat.and_lt_two_pow n (by decide)
  rw [vni]
  split
  · decide
  · apply hle

/-- The text of an IPv4 network is not empty. -/
theorem ipNetString_ne_empty {q : IPNet} {ones : ℕ} (hq : IsCIDR q ones 32) :
  ipNetString q ≠ ""
  := by
  intro hempty
  have hparse := parseCIDR_ipNetString hq
  rw [hempty] at hparse
  cases hparse

/-- The peer that the other nodes make of what is published of a tenant with an IPv4 subnet and
VTEP. -/
theorem build_tenantInfra {r : TenantRecord} {vt : VTEP} {ones : ℕ} {ns : NodeStore} {nodeIP : IP}
    (hsubnet : IsCIDR r.subnet ones 32) (hvtep : r.backend.vtep = some vt)
    (hip : vt.ip.ip.length = 4) (hmac : vt.mac.length = 6) (hnode : nodeIP.length = 4)
    (hnodeIP : ns.nodeIP = ipString nodeIP) (id : String) :
  buildRemoteTenantInfra goParsers ns (tenantInfra id (buildTenantSnapshot r))
    = .ok ⟨ns.specName, v4InV6Prefix ++ nodeIP, v4InV6Prefix ++ vt.ip.ip, vt.mac,
        some ⟨network r.subnet, r.subnet.mask⟩, UInt32.ofNat (vt.vni % 2 ^ 32)⟩
  := by
  have hip_ne : vt.ip.ip ≠ [] := List.ne_nil_of_length_eq_add_one hip
  have hmac_ne : vt.mac ≠ [] := List.ne_nil_of_length_eq_add_one hmac
  have hcidr : goParsers.parseCIDR (ipNetString r.subnet)
      = some ⟨network r.subnet, r.subnet.mask⟩ :=
    parseCIDR_ipNetString hsubnet
  have hvtepIP : goParsers.parseIP (ipText vt.ip.ip) = some (v4InV6Prefix ++ vt.ip.ip) := by
    rw [ipText, if_neg hip_ne]
    exact parseIP_ipString_of_length hip
  have hnodeIP' : goParsers.parseIP ns.nodeIP = some (v4InV6Prefix ++ nodeIP) := by
    rw [hnodeIP]
    exact parseIP_ipString_of_length hnode
  have hmac' : goParsers.parseMAC (macText vt.mac) = some vt.mac := by
    rw [macText, if_neg hmac_ne]
    exact parseMAC_macString (.inl hmac)
  simp only [buildRemoteTenantInfra, tenantInfra, buildTenantSnapshot, hvtep, Option.map_some,
    Option.getD_some, if_neg (ipNetString_ne_empty hsubnet), hcidr, hvtepIP, hnodeIP', hmac']
  rfl

/-- The peer is what the node has: its address, the network of the subnet, and a VTEP that is up on
the port of VXLAN, with the identifier, the hardware address and an address of the peer. -/
structure Describes (h : Hashes) (id : String) (nodeIP : IP) (subnet : IPNet)
    (k : Kernel.State) (peer : RemoteTenantInfra) : Prop where
  nodeIP_eq : kernelIP peer.nodeIP = nodeIP
  subnet_eq : peer.subnet = some ⟨network subnet, subnet.mask⟩
  vtep : ∃ l, k.host.link (vtepName h id) = some l ∧ l.up = true ∧
    l.kind = .vxlan peer.vni.toNat Kernel.vxlanPort peer.vtepMAC ∧
    ∃ a ∈ l.addrs, a.ip = kernelIP peer.vtepIP

section

variable {cfg : Kernel.Config} {tenants : Set String} {root : IPNet} {ones : ℕ} {leafMask : ℤ}
  {nodeName : String} {nm : NetworkManager} {k : Kernel.State}

/-- What is published of a record describes the devices of the tenant. -/
theorem describes_of_wiring (hroot : IsCIDR root ones 32)
    (hwiring : Nmanager.Node.Wiring cfg.hashes tenants root leafMask nodeName
      Nmanager.Node.Everyone nm k)
    {id : String} {r : TenantRecord} (hr : nm.tenantRecords.lookup id = some r)
    (hmac : (vtepMAC cfg.hashes id nodeName).length = 6) (ns : NodeStore) {nodeIP : IP}
    (hnode : nodeIP.length = 4) (hnodeIP : ns.nodeIP = ipString nodeIP) :
  ∃ peer, buildRemoteTenantInfra goParsers ns (tenantInfra id (buildTenantSnapshot r)) = .ok peer ∧
    peer.nodeName = ns.specName ∧ Describes cfg.hashes id nodeIP r.subnet k peer
  := by
  obtain ⟨-, hheld, -⟩ := hwiring.ledger.agreeing.views id r hr
  obtain ⟨n, hsubnet⟩ := hwiring.ledger.agreeing.managed.isCIDR hroot hheld
  obtain ⟨-, -, vt, hvtep, hname, hvni, hvmac, l, gw, lg, hl, hkind, hup, haddr, -⟩ :=
    (hwiring.devices.serves id r hr).2
  obtain ⟨hlength, -⟩ := hwiring.ledger.homed id r hr vt hvtep
  rw [hwiring.ledger.agreeing.nodeName_eq] at hvmac
  have hvni_lt : vt.vni < 2 ^ 32 := by
    rw [hvni]
    exact (vni_lt cfg.hashes id).trans (by decide)
  refine ⟨_, build_tenantInfra hsubnet hvtep hlength (hvmac ▸ hmac) hnode hnodeIP id, rfl, ?_⟩
  refine ⟨kernelIP_v4InV6Prefix hnode, rfl, l, hname ▸ hl, hup, ?_, vt.ip, haddr, ?_⟩
  · rw [hkind, UInt32.toNat_ofNat', Nat.mod_mod, Nat.mod_eq_of_lt hvni_lt]
  · exact (kernelIP_v4InV6Prefix hlength).symm

end

end Daemon

namespace Nmanager

open Net Api Device

namespace Node

open Daemon

section

variable {cfg : Kernel.Config} {tenants : Set String} {root : IPNet} {ones : ℕ} {leafMask : ℤ}
  {nodeName : String} {n : Node} {actions : List Action}

/-- After every run without faults, what the daemon publishes is read back by other nodes, for each
tenant that has a record and no other, as a peer that has the address of the node and describes the
VTEP of the tenant; its network contains the addresses of all pods of the tenant. -/
theorem after_readBack (hinj : tenants.InjOn (digits cfg.hashes)) (hroot : IsCIDR root ones 32)
    (hones : ones ≤ 30) (hleaf : leafMask ≤ 30) (haccepts : Accepts cfg root)
    (hstarts : StartsClean cfg.hashes tenants root leafMask nodeName n)
    (hmeets : Machine.Meets (calmStep cfg) (Action.Usual tenants root) n actions)
    (hmac : ∀ id ∈ tenants, (vtepMAC cfg.hashes id nodeName).length = 6) (ns : NodeStore)
    {ns' : NodeStore} {nodeIP : IP} (hnode : nodeIP.length = 4)
    (hnodeIP : ns.nodeIP = ipString nodeIP)
    (hns : reconcileNodestoreTenantUpdate ⟨true, true⟩
      (Machine.after (calmStep cfg) n actions).nm ns = (.ok (), ns')) (id : String) :
  ((Machine.after (calmStep cfg) n actions).nm.tenantRecords.lookup id = none →
    ns'.tenants.lookup id = none) ∧
  ∀ r, (Machine.after (calmStep cfg) n actions).nm.tenantRecords.lookup id = some r →
    ∃ info peer, ns'.tenants.lookup id = some info ∧
      buildRemoteTenantInfra goParsers ns' info = .ok peer ∧ peer.nodeName = ns.specName ∧
      Describes cfg.hashes id nodeIP r.subnet (Machine.after (calmStep cfg) n actions).kernel peer ∧
      ∀ key ci, r.ipam.getAllocation key = some ci → ∃ q ∈ peer.subnet, contains q ci.ip = true
  := by
  have hwiring := hstarts.after hinj hroot hones hleaf haccepts hmeets
  cases hns
  dsimp only
  rw [lookup_mirror]
  refine ⟨fun hnone => by rw [hnone]; rfl, ?_⟩
  intro r hr
  obtain ⟨peer, hbuild, hname, hdescribes⟩ := describes_of_wiring hroot hwiring hr
    (hmac id (hwiring.devices.serves id r hr).1) { ns with tenants := mirror _ } hnode hnodeIP
  rw [hr]
  refine ⟨_, peer, rfl, hbuild, hname, hdescribes, ?_⟩
  intro key ci hci
  refine ⟨_, hdescribes.subnet_eq, ?_⟩
  obtain ⟨hvalid, hheld, hnetwork⟩ := hwiring.ledger.agreeing.views id r hr
  obtain ⟨ones', hcidr⟩ := hwiring.ledger.agreeing.managed.isCIDR hroot hheld
  obtain ⟨hlength, hcovers⟩ :=
    covers_of_mem_listAllocations hvalid.sound (Ipam.mem_listAllocations.mpr hci)
  obtain ⟨hmasked, hbase⟩ := hcidr.masked
  rw [hmasked.contains_iff, to4_of_length hlength]
  rw [hnetwork] at hcovers
  rw [Covers, hbase, hmasked.size, ← hcidr.size]
  exact ⟨hlength, hcovers⟩

/-- The tenant was expanded for its second pod, and the status has the larger network. -/
theorem after_readBack_grown :
  ∃ tm r info peer, Trie.newTrieManager ⟨[10, 0, 0, 0], cidrMask 28 32⟩ 30 = some tm ∧
    (Machine.after (calmStep plainConfig) ⟨newNetworkManager "node" tm, uplinkHost⟩
      grown).nm.tenantRecords.lookup "a" = some r ∧
    info.tenantCIDR = "10.0.0.0/29" ∧
    buildRemoteTenantInfra goParsers
      ⟨"node", "node", "192.168.1.1", mirror (Machine.after (calmStep plainConfig)
        ⟨newNetworkManager "node" tm, uplinkHost⟩ grown).nm⟩ info = .ok peer ∧
    Describes plainConfig.hashes "a" [192, 168, 1, 1] r.subnet (Machine.after (calmStep plainConfig)
      ⟨newNetworkManager "node" tm, uplinkHost⟩ grown).kernel peer
  := by
  have heval : ((Trie.newTrieManager ⟨[10, 0, 0, 0], cidrMask 28 32⟩ 30).bind fun tm =>
      let after count := Machine.after (calmStep plainConfig)
        ⟨newNetworkManager "node" tm, uplinkHost⟩ (grown.take count)
      if Pristine (after 3) "/run/netns/0" ∧ Pristine (after 4) "/run/netns/1" then
        ((after 5).nm.tenantRecords.lookup "a").bind fun r =>
          if ((mirror (after 5).nm).lookup "a").map (·.tenantCIDR) = some "10.0.0.0/29" then some r
          else none
      else none).isSome = true := by
    decide +kernel
  obtain ⟨r, heval⟩ := Option.isSome_iff_exists.mp heval
  obtain ⟨tm, hnew, heval⟩ := Option.bind_eq_some_iff.mp heval
  obtain ⟨⟨hfirst, hsecond⟩, heval⟩ := Option.ite_none_right_eq_some.mp heval
  obtain ⟨r', hr, heval⟩ := Option.bind_eq_some_iff.mp heval
  obtain ⟨htext, heq⟩ := Option.ite_none_right_eq_some.mp heval
  cases heq
  have hmac : ∀ id ∈ ({"a", "b"} : Set String),
      (vtepMAC plainConfig.hashes id "node").length = 6 := by
    rintro id (rfl | rfl)
    · decide +kernel
    · decide +kernel
  have hnode : ([192, 168, 1, 1] : IP).length = 4 := rfl
  have hread := after_readBack plainConfig_injOn slash28 (by decide) (by decide)
    (plainConfig_accepts _) (uplinkHost_startsClean hnew) (grown_usual _ hfirst hsecond) hmac
    ⟨"node", "node", "192.168.1.1", ∅⟩ hnode (by decide +kernel) rfl "a"
  obtain ⟨info, peer, hinfo, hbuild, -, hdescribes, -⟩ := hread.2 r hr
  refine ⟨tm, r, info, peer, hnew, hr, ?_, hbuild, hdescribes⟩
  have hlookup : (mirror (Machine.after (calmStep plainConfig)
      ⟨newNetworkManager "node" tm, uplinkHost⟩ (grown.take 5)).nm).lookup "a" = some info := hinfo
  rw [hlookup] at htext
  exact Option.some.inj htext

end

end Node

end Nmanager
