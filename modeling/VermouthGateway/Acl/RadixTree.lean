import VermouthGateway.Go.Map
import VermouthGateway.Utils.Net

/-!
# The access-control tree

`RadixTree` is the black list of one proxy: a binary trie over the bits of an
IPv4 address whose nodes are linked by pointers, a list of pruned nodes kept
for reuse and linked through their `right` pointers, and the map `Record` of
the entries as they were written.

The nodes live in a heap of their own; a pointer is an index into it and a nil
pointer is `none`.  Loops over the bits of a mask run at most 32 times, since
`bit` is shifted right each time.  The two loops that follow pointers without
such a bound carry fuel, and running out of it is the halt `diverged`.
-/

namespace VermouthGateway
namespace Acl

open Go

/-- `MAX_IPV4_BIT`. -/
def maxIpv4Bit : BitVec 32 := 0x80000000#32

/-- `NO_VALUE`. -/
def noValue : String := ""

/-- The error values of the package, and the one `strconv.Atoi` returns. -/
inductive AclError
  | invaildIpAddress
  | invaildNetMask
  | cantFindIpNet
  | atoi
deriving DecidableEq, Repr

/-- The error texts of the package; the one of `Atoi` stands for those of `strconv`. -/
def AclError.message : AclError → String
  | .invaildIpAddress => "invaild ip address, maybe with out mask"
  | .invaildNetMask => "invaild net mask, must in [0, 32]"
  | .cantFindIpNet => "can't find ip"
  | .atoi => "strconv.Atoi: parsing error"

abbrev Ptr := Nat

structure RadixNode where
  right : Option Ptr
  left : Option Ptr
  parent : Option Ptr
  value : String
deriving DecidableEq, Repr

/-- `&radixNode{nil, nil, nil, NO_VALUE}`. -/
def RadixNode.blank : RadixNode := ⟨none, none, none, noValue⟩

structure RadixTree where
  root : Option Ptr
  free : Option Ptr
  record : GoMap String Bool
  /-- The nodes of the tree; pointers from `next` on are not allocated yet. -/
  heap : Ptr → RadixNode
  next : Ptr

/-- `NewRadixTree`. -/
def newRadixTree : RadixTree where
  root := some 0
  free := none
  record := ∅
  heap := fun _ => RadixNode.blank
  next := 1

namespace RadixTree

/-- Overwrite one node. -/
def setNode (t : RadixTree) (p : Ptr) (node : RadixNode) : RadixTree :=
  { t with heap := Function.update t.heap p node }

/-- The child on the side of a bit: 1 goes right, 0 goes left. -/
def child (t : RadixTree) (p : Ptr) (bit : Bool) : Option Ptr :=
  if bit then (t.heap p).right else (t.heap p).left

def setChild (t : RadixTree) (p : Ptr) (bit : Bool) (target : Option Ptr) : RadixTree :=
  t.setNode p (if bit then { t.heap p with right := target }
    else { t.heap p with left := target })

def setValue (t : RadixTree) (p : Ptr) (value : String) : RadixTree :=
  t.setNode p { t.heap p with value := value }

/-- `newNode`: the head of the free list, as it was left there, or a fresh
blank node. -/
def newNode (t : RadixTree) : Ptr × RadixTree :=
  match t.free with
  -- nothing of the node is reset: its right link still names the next free node
  | some node => (node, { t with free := (t.heap node).right })
  | none =>
      (t.next, { t.setNode t.next RadixNode.blank with next := t.next + 1 })

/-- The first loop of `insert`: follow the network down while there are nodes.
Returns `bit`, `node` and `next` as the loop leaves them. -/
def descend (t : RadixTree) (key mask : BitVec 32) :
    Nat → BitVec 32 → Ptr → BitVec 32 × Ptr × Option Ptr
  | 0, bit, node => (bit, node, some node)
  | fuel + 1, bit, node =>
      if bit &&& mask = 0 then (bit, node, some node)
      else
        match t.child node (key &&& bit != 0) with
        -- the `break`: `bit` is not shifted, so the second loop starts with this letter
        | none => (bit, node, none)
        | some next => descend t key mask fuel (bit >>> 1) next

/-- One round of the second loop of `insert`: hang a new node without a value
below `node`. -/
def attach (t : RadixTree) (node : Ptr) (bit : Bool) : Ptr × RadixTree :=
  let (next, t) := t.newNode
  -- `right` and `left` stay as `newNode` left them
  let t := t.setNode next { t.heap next with parent := some node, value := noValue }
  (next, t.setChild node bit (some next))

/-- The second loop of `insert`: a new node for every bit of the network that
is left.  Returns the last node. -/
def extend (key mask : BitVec 32) : Nat → BitVec 32 → Ptr → RadixTree → Ptr × RadixTree
  | 0, _, node, t => (node, t)
  | fuel + 1, bit, node, t =>
      if bit &&& mask = 0 then (node, t)
      else
        let (next, t) := t.attach node (key &&& bit != 0)
        extend key mask fuel (bit >>> 1) next t

/-- The two loops of `insert` below a root that is there. -/
def insertBelow (t : RadixTree) (key mask : BitVec 32) (value : String) (root : Ptr) :
    RadixTree :=
  let (bit, node, next) := t.descend key mask 32 maxIpv4Bit root
  -- the network has its node already, only the value is written
  if next.isSome then t.setValue node value
  else
    let (node, t) := extend key mask 32 bit node t
    t.setValue node value

/-- `insert`.  A nil root is dereferenced by the first loop, or by the final
assignment when the mask is empty. -/
def insert (key mask : BitVec 32) (value : String) : Eff RadixTree Unit := do
  let t ← get
  match t.root with
  | none => panic .nilDereference
  | some root => set (t.insertBelow key mask value root)

/-- The mask with the first `cidr` bits set:
`((1 << (32 - cidr)) - 1) ^ 0xffffffff` on 32-bit words. -/
def netMask (cidr : Nat) : BitVec 32 :=
  ((1#32 <<< (32 - cidr)) - 1#32) ^^^ 0xffffffff#32

/-- What `Add` and `Delete` read of an entry `a.b.c.d/n`: its pieces around
the slash. -/
def pieces (ipNet : String) : List String := split ipNet '/'

/-- `RadixTree.Add`; `none` is the nil error. -/
def add (ipNet value : String) : Eff RadixTree (Option AclError) := do
  let strs := pieces ipNet
  match ← ofPure (Utils.inetToi (strs.headD "")) with
  | none => pure (some .invaildIpAddress)
  | some ip =>
      match strs[1]? with
      | none => pure (some .invaildIpAddress)
      | some mask =>
          match atoi mask with
          | none => pure (some .atoi)
          | some cidr =>
              if cidr < 0 ∨ cidr > 32 then pure (some .invaildNetMask)
              else
                insert ip (netMask cidr.toNat) value
                -- the record is keyed by the text, the tree by the masked bits
                modify fun t => { t with record := t.record.insert ipNet true }
                pure none

/-- The loop of `search`; `none` when the fuel runs out. -/
def searchLoop (t : RadixTree) (key : BitVec 32) :
    Nat → BitVec 32 → Option Ptr → String → Option String
  | _, _, none, value => some value
  | 0, _, some _, _ => none
  | fuel + 1, bit, some node, value =>
      -- a deeper value replaces the one found so far
      let value := if (t.heap node).value ≠ noValue then (t.heap node).value else value
      searchLoop t key fuel (bit >>> 1) (t.child node (key &&& bit != 0)) value

/-- `search`.  After 32 steps the loop only goes left, so with one more step
for every node of the heap it has either ended or come back to a node it has
seen. -/
def search (t : RadixTree) (key : BitVec 32) : Option String :=
  t.searchLoop key (33 + t.next) maxIpv4Bit t.root noValue

/-- `RadixTree.Search`: the error of `InetToi` is dropped, and its value is
then 0. -/
def searchText (t : RadixTree) (ip : String) : Except Halt String := do
  let i ← Utils.inetToi ip
  match t.search (i.getD 0) with
  | none => .error .diverged
  | some value => .ok value

/-- The walk of `delete` to the node of a network. -/
def walk (t : RadixTree) (key mask : BitVec 32) :
    Nat → BitVec 32 → Option Ptr → Option Ptr
  | 0, _, node => node
  | fuel + 1, bit, node =>
      match node with
      | none => none
      | some p =>
          if bit &&& mask = 0 then some p
          else walk t key mask fuel (bit >>> 1) (t.child p (key &&& bit != 0))

/-- The body of the pruning loop of `delete`: unlink `node` from `parent` and
put it on the free list. -/
def detach (t : RadixTree) (node parent : Ptr) : RadixTree :=
  -- the test of the source is for the right side, everything else goes left
  let t := t.setChild parent (t.child parent true == some node) none
  { t.setChild node true t.free with free := some node }

/-- The pruning loop of `delete`: go on with the parent while that has become
a leaf without a value. -/
def prune : Nat → Ptr → Eff RadixTree Unit
  | 0, _ => diverge
  | fuel + 1, node => do
      let t ← get
      match (t.heap node).parent with
      | none => panic .nilDereference
      | some parent =>
          let t := t.detach node parent
          set t
          -- the three `break`s of the loop, in the order of the source
          if t.child parent true ≠ none ∨ t.child parent false ≠ none then pure ()
          else if (t.heap parent).value ≠ noValue then pure ()
          else if (t.heap parent).parent = none then pure ()
          else prune fuel parent

/-- `delete`. -/
def delete (key mask : BitVec 32) : Eff RadixTree Bool := do
  let t ← get
  match t.walk key mask 32 maxIpv4Bit t.root with
  | none => pure false
  | some node =>
      if t.child node true ≠ none ∨ t.child node false ≠ none then
        if (t.heap node).value ≠ noValue then
          set (t.setValue node noValue)
          pure true
        -- an inner node without a value is no entry of the list
        else pure false
      else
        prune (33 + 2 * t.next) node
        pure true

/-- `RadixTree.Delete`; `none` is the nil error. -/
def deleteText (ipNet : String) : Eff RadixTree (Option AclError) := do
  let strs := pieces ipNet
  match ← ofPure (Utils.inetToi (strs.headD "")) with
  | none => pure (some .invaildIpAddress)
  | some ip =>
      match strs[1]? with
      | none => pure (some .invaildIpAddress)
      | some mask =>
          match atoi mask with
          | none => pure (some .invaildNetMask)
          | some cidr =>
              if cidr < 0 ∨ cidr > 32 then pure (some .invaildNetMask)
              else
                let ret ← delete ip (netMask cidr.toNat)
                if ret then
                  modify fun t => { t with record := t.record.erase ipNet }
                  pure none
                else pure (some .cantFindIpNet)

/-- `RadixTree.AccessControl`: true forbids the access. -/
def accessControl (t : RadixTree) (ipAddress : String) : Except Halt Bool := do
  let ip := (split ipAddress ':').headD ""
  let value ← t.searchText ip
  pure (value != "")

end RadixTree
end Acl
end VermouthGateway
