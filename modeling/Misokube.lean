import Misokube.Lib.Machine
import Misokube.Trie.Traversal
import Misokube.Trie.Refinement
import Misokube.Trie.Runs
import Misokube.Trie.Partition
import Misokube.Trie.Canonical
import Misokube.Ipam.Model
import Misokube.Ipam.Accounting
import Misokube.Ipam.Runs
import Misokube.Device.Model
import Misokube.Nmanager.Model
import Misokube.Trie.Subnets
import Misokube.Device.Addresses
import Misokube.Nmanager.Steps
import Misokube.Nmanager.Tenants
import Misokube.Nmanager.Agreement
import Misokube.Nmanager.Reserved
import Misokube.Ipam.InUse
import Misokube.Nmanager.Endpoints
import Misokube.Lib.Iptables
import Misokube.Policy.Model
import Misokube.Policy.Specs
import Misokube.Policy.Isolation
import Misokube.Lib.Threads
import Misokube.Nmanager.Threads
import Misokube.Nmanager.Interleaving
import Misokube.Trie.Release
import Misokube.Lib.Netlink
import Misokube.Nmanager.Peers
import Misokube.Nmanager.Programmed
import Misokube.Api.Types
import Misokube.Daemon.Model
import Misokube.Lib.WorkQueue
import Misokube.Daemon.Lifecycle
import Misokube.Nmanager.Storing
import Misokube.Daemon.Reports
import Misokube.Daemon.Sync
import Misokube.Lib.Decoder
import Misokube.Lib.Binary
import Misokube.Wire.Model
import Misokube.Wire.Framing
import Misokube.Wire.Codec
import Misokube.Cni.Server
import Misokube.Cni.Stale
import Misokube.Cni.Once
import Misokube.Orchestrator.Model
import Misokube.Orchestrator.Placement
import Misokube.Orchestrator.Deletion
import Misokube.Trie.Expansion
import Misokube.Lib.Levels
import Misokube.Trie.Spread
import Misokube.Trie.LeafSize
import Misokube.Ipam.Invariant
import Misokube.Nmanager.Atomic
import Misokube.Nmanager.Sufficient
import Misokube.Nmanager.Tables
import Misokube.Teardown.Fence
import Misokube.Webhook.Model
import Misokube.Resolver.Model
import Misokube.Ipam.Expansion
import Misokube.Ipam.Calls
import Misokube.Device.Tiling
import Misokube.Orchestrator.Zones
import Misokube.Nmanager.Rollback
import Misokube.Daemon.Dropped
import Misokube.Daemon.Matching
import Misokube.Lib.Edits
import Misokube.Policy.Anchor
import Misokube.Policy.Undo
import Misokube.Wire.Delimited
import Misokube.Trie.Build
import Misokube.Nmanager.Waiters
import Misokube.Cni.Args
import Misokube.Device.Calm
import Misokube.Nmanager.Node
import Misokube.Nmanager.NodeRuns
import Misokube.Nmanager.Calm
import Misokube.Nmanager.Recovery
import Misokube.Daemon.Mirror
import Misokube.Daemon.Publication
