import Misokube.Lib.Linked
import Misokube.Lib.Map
import Misokube.Net.Cidr

/-!
# The subnet trie

The package `pkg/data/trie` and the subnet manager `pkg/network/subnet/trie` over it.  Trie
nodes are cells of a memory, linked by pointers to their parent and children; a nil pointer is
`none`.  An operation returns its result and the state it leaves.  Where the code recurses over
the nodes or climbs to the root, the definition takes a bound on the number of levels, which
every caller chooses large enough.
-/

namespace Trie

open Net Linked

/-- What a trie node stores besides its links. -/
structure Label where
  pfx : IPNet
  allocated : Bool
  id : String
deriving DecidableEq

/-- A trie node. -/
abbrev TrieNode := Cell Label

/-- The trie nodes that were allocated. -/
abbrev Heap := Memory Label

/-- The errors of the package, and the panic of a call that does not return. -/
inductive Error where
  | maxSubnetSize (maskMaxSize : ℤ)
  | notFound (id : String)
  | rootDeallocation
  | rootNil
  | alreadyExists (id : String)
  | noFreeSubnet
  | noSuitableSubnet
  | emptyNode
  | nilSibling
  | mergeAllocated (id : String) (pfx : IPNet) (siblingID : String) (sibling : IPNet)
  | unstableState
  | emptyID
  | sameAsRoot (id : String) (root : IPNet)
  | missingAfterMerge (id : String)
  | alreadyAtLeaf (leafSize : ℤ) (pfx : IPNet)
  | reduceSplit (pfx : IPNet) (err : Error)
  | panicked
deriving DecidableEq

/-! ### Nodes -/

/-- A free node without children. -/
def newTrieNode (pfx : IPNet) (parent : Option ℕ) : TrieNode :=
  ⟨⟨pfx, false, ""⟩, parent, none, none⟩

/-- The two halves of a network: the mask is one bit longer, and the address of the second has
the bit after the old mask set. -/
def splitSubnet (network : IPNet) (maskMaxSize : ℤ) : Except Error (IPNet × IPNet) :=
  let size := (maskSize network.mask).1
  let bits := (maskSize network.mask).2
  if maskMaxSize ≤ size ∨ 32 ≤ size then .error (.maxSubnetSize maskMaxSize)
  else
    let newMask := cidrMask (size + 1) bits
    let firstIP := maskIP network.ip network.mask
    -- byte `size / 8` of the copy, or 1 shifted by `7 - size % 8`
    let secondIP := setBit firstIP size
    .ok (⟨firstIP, newMask⟩, ⟨secondIP, newMask⟩)

/-- Allocates a child of `node` for the first half. -/
def addChild0 (h : Heap) (node : ℕ) (subnet : IPNet) : Heap :=
  (h ++ [newTrieNode subnet (some node)]).modify node fun n => { n with child0 := some h.length }

/-- Allocates a child of `node` for the second half. -/
def addChild1 (h : Heap) (node : ℕ) (subnet : IPNet) : Heap :=
  (h ++ [newTrieNode subnet (some node)]).modify node fun n => { n with child1 := some h.length }

/-- Builds the nodes below `node` down to masks of size `maxMaskSize`; `none` is a panic. -/
def buildRecursive (maxMaskSize : ℤ) : ℕ → Heap → ℕ → Option Heap
  | 0, _, _ => none
  | fuel + 1, h, node =>
    match h[node]? with
    | none => none
    | some n =>
      if maxMaskSize ≤ (maskSize n.value.pfx.mask).1 then some h
      else
        match splitSubnet n.value.pfx maxMaskSize with
        | .error _ => none
        | .ok subnets =>
          (buildRecursive maxMaskSize fuel (addChild0 h node subnets.1) h.length).bind fun h' =>
            buildRecursive maxMaskSize fuel (addChild1 h' node subnets.2) h'.length

/-- `TrieNode.Build`, which repeats `buildRecursive` as a method; `none` is a panic. -/
def build (maxMaskSize : ℤ) : ℕ → Heap → ℕ → Option Heap
  | 0, _, _ => none
  | fuel + 1, h, node =>
    match h[node]? with
    | none => none
    | some n =>
      if maxMaskSize ≤ (maskSize n.value.pfx.mask).1 then some h
      else
        match splitSubnet n.value.pfx maxMaskSize with
        | .error _ => none
        | .ok subnets =>
          (build maxMaskSize fuel (addChild0 h node subnets.1) h.length).bind fun h' =>
            build maxMaskSize fuel (addChild1 h' node subnets.2) h'.length

/-- The node or one below it is allocated. -/
def hasAllocatedDescendant (h : Heap) : ℕ → Option ℕ → Bool
  | 0, _ => false
  | _ + 1, none => false
  | fuel + 1, some x =>
    match h[x]? with
    | none => false
    | some n =>
      n.value.allocated || hasAllocatedDescendant h fuel n.child0
        || hasAllocatedDescendant h fuel n.child1

/-- `TrieNode.hasAllocatedDescendants`, which repeats `hasAllocatedDescendant` as a method. -/
def hasAllocatedDescendants (h : Heap) : ℕ → Option ℕ → Bool
  | 0, _ => false
  | _ + 1, none => false
  | fuel + 1, some x =>
    match h[x]? with
    | none => false
    | some n =>
      n.value.allocated || hasAllocatedDescendants h fuel n.child0
        || hasAllocatedDescendants h fuel n.child1

/-- The leaves below `node`, from left to right, that have no allocated ancestor and are not
allocated. -/
def findFreeLeavesRecursive (h : Heap) : ℕ → Option ℕ → Bool → List ℕ
  | 0, _, _ => []
  | _ + 1, none, _ => []
  | fuel + 1, some x, hasAllocatedAncestor =>
    match h[x]? with
    | none => []
    | some n =>
      let hasAllocatedAncestor := hasAllocatedAncestor || n.value.allocated
      if n.child0 = none ∧ n.child1 = none then
        if hasAllocatedAncestor then [] else [x]
      else
        findFreeLeavesRecursive h fuel n.child0 hasAllocatedAncestor
          ++ findFreeLeavesRecursive h fuel n.child1 hasAllocatedAncestor

/-- The other child of the parent. -/
def getSibling (h : Heap) (x : ℕ) : Option ℕ :=
  match (h[x]?).bind (·.parent) with
  | none => none
  | some p =>
    match h[p]? with
    | none => none
    | some parent => if parent.child0 = some x then parent.child1 else parent.child0

/-- The node a pointer leads to is allocated; false for nil. -/
def isAllocated (h : Heap) (o : Option ℕ) : Bool :=
  match o.bind (h[·]?) with
  | none => false
  | some n => n.value.allocated

/-- The number of times the node could be merged with its sibling. -/
def maxExpandableDepth (h : Heap) : ℕ → ℕ → ℕ
  | 0, _ => 0
  | fuel + 1, current =>
    match (h[current]?).bind (·.parent) with
    | none => 0
    | some parent =>
      let sibling := getSibling h current
      if isAllocated h sibling then 0
      else if hasAllocatedDescendant h (h.length + 1) sibling then 0
      else maxExpandableDepth h fuel parent + 1

/-! ### The trie -/

/-- `IPTrie`, with the memory its nodes are in. -/
structure IPTrie where
  heap : Heap
  root : Option ℕ
  rootCIDR : IPNet
  allocMap : GoMap String ℕ

/-- A trie of one node. -/
def newTrie (rootNet : IPNet) : IPTrie :=
  ⟨[newTrieNode rootNet none], some 0, rootNet, ∅⟩

/-- `IPTrie.Build`; `none` is a panic. -/
def IPTrie.build (t : IPTrie) (maxMaskSize : ℤ) : Option IPTrie :=
  match t.root with
  | none => some t
  | some root =>
    (buildRecursive maxMaskSize (maxMaskSize.toNat + 1) t.heap root).map fun h =>
      { t with heap := h }

/-- The node allocated to the tenant. -/
def IPTrie.getNodeByID (t : IPTrie) (id : String) : Option ℕ :=
  t.allocMap.lookup id

/-- The free leaves of the trie. -/
def IPTrie.findAllFree (t : IPTrie) : List ℕ :=
  findFreeLeavesRecursive t.heap (t.heap.length + 1) t.root false

/-- Sets the `Allocated` and `ID` fields of a node. -/
def setAllocation (h : Heap) (x : ℕ) (allocated : Bool) (id : String) : Heap :=
  h.modify x fun n => { n with value := { n.value with allocated := allocated, id := id } }

/-- Sets the children of a node to nil. -/
def clearChildren (h : Heap) (x : ℕ) : Heap :=
  h.modify x fun n => { n with child0 := none, child1 := none }

/-- Frees the node of the tenant and rebuilds the nodes below it down to /30. -/
def IPTrie.deallocate (t : IPTrie) (id : String) : Except Error Unit × IPTrie :=
  match t.getNodeByID id with
  | none => (.error (.notFound id), t)
  | some node =>
    match t.heap[node]? with
    | none => (.error .panicked, t)
    | some n =>
      if n.parent = none then (.error .rootDeallocation, t)
      else
        let h := setAllocation t.heap node false ""
        let t' := { t with heap := h, allocMap := t.allocMap.erase id }
        if (maskSize n.value.pfx.mask).1 < 30 then
          match Trie.build 30 31 (clearChildren h node) node with
          | none => (.error .panicked, t')
          | some h' => (.ok (), { t' with heap := h' })
        else (.ok (), t')

/-- The first leaf of the largest expansion, with this expansion. -/
def bestLeaf (h : Heap) (leaves : List ℕ) : Option ℕ × ℤ :=
  leaves.foldl
    (fun best leaf =>
      let expansion : ℤ := maxExpandableDepth h (h.length + 1) leaf
      if best.2 < expansion then (some leaf, expansion) else best)
    (none, -1)

/-- Allocates to the tenant the free leaf with most room to expand. -/
def IPTrie.allocate (t : IPTrie) (id : String) : Except Error ℕ × IPTrie :=
  if t.root = none then (.error .rootNil, t)
  else if (t.allocMap.lookup id).isSome then (.error (.alreadyExists id), t)
  else if t.findAllFree = [] then (.error .noFreeSubnet, t)
  else
    match (bestLeaf t.heap t.findAllFree).1 with
    | none => (.error .noSuitableSubnet, t)
    | some bestNode =>
      (.ok bestNode,
        { t with
          heap := setAllocation t.heap bestNode true id
          allocMap := t.allocMap.insert id bestNode })

/-- Merges the node of the tenant with its sibling into their parent. -/
def IPTrie.merge (t : IPTrie) (id : String) : Except Error Unit × IPTrie :=
  match t.getNodeByID id with
  | none => (.error .emptyNode, t)
  | some node =>
    match t.heap[node]? with
    | none => (.error .panicked, t)
    | some n =>
      match n.parent with
      | none => (.error .emptyNode, t)
      | some parent =>
        match t.heap[parent]? with
        | none => (.error .panicked, t)
        | some p =>
          let sibling := if p.child0 = some node then p.child1 else p.child0
          match sibling with
          | none => (.error .nilSibling, t)
          | some sib =>
            match t.heap[sib]? with
            | none => (.error .panicked, t)
            | some s =>
              if s.value.allocated
                  ∨ hasAllocatedDescendants t.heap (t.heap.length + 1) (some sib) then
                (.error (.mergeAllocated n.value.id n.value.pfx s.value.id s.value.pfx), t)
              else if p.value.allocated then (.error .unstableState, t)
              else
                let h := clearChildren (setAllocation t.heap parent true id) parent
                let h := setAllocation h node false ""
                let h := setAllocation h sib false ""
                (.ok (), { t with heap := h, allocMap := t.allocMap.insert id parent })

/-! ### The subnet manager -/

/-- `TrieManager`. -/
structure TrieManager where
  t : IPTrie
  leafSize : ℤ

/-- The manager of a root network and a leaf size; `none` is a panic. -/
def newTrieManager (root : IPNet) (leafMask : ℤ) : Option TrieManager :=
  ((newTrie root).build leafMask).map fun t => ⟨t, leafMask⟩

namespace TrieManager

/-- The prefix of a node. -/
def prefixOf (tm : TrieManager) (x : ℕ) : Except Error IPNet :=
  match tm.t.heap[x]? with
  | none => .error .panicked
  | some n => .ok n.value.pfx

/-- The network of the tenant, which is allocated if it has none. -/
def allocate (tm : TrieManager) (id : String) : Except Error IPNet × TrieManager :=
  if id = "" then (.error .emptyID, tm)
  else
    match tm.t.getNodeByID id with
    | some existing => (tm.prefixOf existing, tm)
    | none =>
      match tm.t.allocate id with
      | (.error e, t) => (.error e, { tm with t := t })
      | (.ok n, t) => (prefixOf { tm with t := t } n, { tm with t := t })

/-- Frees the network of the tenant, if it has one. -/
def deallocate (tm : TrieManager) (id : String) : Except Error Unit × TrieManager :=
  if id = "" then (.error .emptyID, tm)
  else if tm.t.getNodeByID id = none then (.ok (), tm)
  else ((tm.t.deallocate id).1, { tm with t := (tm.t.deallocate id).2 })

/-- Doubles the network of the tenant. -/
def expand (tm : TrieManager) (id : String) : Except Error IPNet × TrieManager :=
  if id = "" then (.error .emptyID, tm)
  else
    match tm.t.getNodeByID id with
    | none => (.error (.notFound id), tm)
    | some n =>
      match tm.t.heap[n]? with
      | none => (.error .panicked, tm)
      | some node =>
        if node.parent = none then (.error (.notFound id), tm)
        -- the root is the only node with the pointer `RootCIDR`
        else if some n = tm.t.root then (.error (.sameAsRoot id tm.t.rootCIDR), tm)
        else
          match tm.t.merge id with
          | (.error e, t) => (.error e, { tm with t := t })
          | (.ok (), t) =>
            match t.getNodeByID id with
            | none => (.error (.missingAfterMerge id), { tm with t := t })
            | some nM => (prefixOf { tm with t := t } nM, { tm with t := t })

/-- Halves the network of the tenant, which keeps the lower half. -/
def reduce (tm : TrieManager) (id : String) : Except Error IPNet × TrieManager :=
  if id = "" then (.error .emptyID, tm)
  else
    match tm.t.getNodeByID id with
    | none => (.error (.notFound id), tm)
    | some n =>
      match tm.t.heap[n]? with
      | none => (.error .panicked, tm)
      | some node =>
        let size : ℤ := (maskSize node.value.pfx.mask).1
        if tm.leafSize ≤ size then (.error (.alreadyAtLeaf tm.leafSize node.value.pfx), tm)
        else
          match splitSubnet node.value.pfx (size + 1) with
          | .error e => (.error (.reduceSplit node.value.pfx e), tm)
          | .ok child =>
            let left := tm.t.heap.length
            let right := tm.t.heap.length + 1
            let oldID := node.value.id
            let h := tm.t.heap ++ [newTrieNode child.1 (some n), newTrieNode child.2 (some n)]
            let h := h.modify n fun c => { c with child0 := some left, child1 := some right }
            let h := setAllocation h n false ""
            let h := setAllocation h left true oldID
            (.ok child.1,
              { tm with
                t := { tm.t with heap := h, allocMap := tm.t.allocMap.insert oldID left } })

/-- `Release`, which frees the network of the tenant as `Deallocate` does. -/
def release (tm : TrieManager) (id : String) : Except Error Unit × TrieManager :=
  if id = "" then (.error .emptyID, tm)
  else
    match tm.t.getNodeByID id with
    | none => (.ok (), tm)
    | some _ =>
      match tm.t.deallocate id with
      | (.error e, t) => (.error e, { tm with t := t })
      | (.ok (), t) => (.ok (), { tm with t := t })

/-- The network of the tenant. -/
def get (tm : TrieManager) (id : String) : Except Error IPNet :=
  match tm.t.getNodeByID id with
  | none => .error (.notFound id)
  | some n => tm.prefixOf n

/-- The networks of all tenants. -/
def list (tm : TrieManager) : List (String × IPNet) :=
  tm.t.allocMap.entries.filterMap fun e => (tm.t.heap[e.2]?).map fun n => (e.1, n.value.pfx)

end TrieManager

end Trie
