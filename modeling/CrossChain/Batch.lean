import CrossChain.Leaf.Hash
import CrossChain.Merkle.Multiproof
/-! Batches. A source chain commits to the messages of a lane in an interval of sequence numbers
by the root of the tree over their leaves. From the messages at hand those of the lane are
chosen, and a bundle proves some of them against the root. -/
namespace CrossChain

structure Interval where
  least : UInt64
  greatest : UInt64
deriving DecidableEq

namespace Interval

def contains (i : Interval) (n : UInt64) : Bool :=
  i.least ≤ n && n ≤ i.greatest

/-- How many numbers there are from the least to the greatest one, as far as 64 bits can say. -/
def size (i : Interval) : Nat :=
  min (i.greatest.toNat - i.least.toNat + 1) (UInt64.size - 1)

end Interval

structure Bundle where
  messages : List Message
  proof : Merkle.Multiproof
  root : Bytes32
deriving DecidableEq

namespace Batch

def counts (lane : Lane) (interval : Option Interval) (m : Message) : Bool :=
  lane.carries m && interval.all fun i => i.contains m.header.sequenceNumber

/-- The messages that count, by ascending sequence number, the first one for each. -/
def select (lane : Lane) (interval : Option Interval) (batch : List Message) : List Message :=
  Ascending.ofList (fun m => m.header.sequenceNumber.toNat) (batch.filter (counts lane interval))

def span (messages : List Message) : Option Interval := do
  let first ← messages.head?
  let last ← messages.getLast?
  return ⟨first.header.sequenceNumber, last.header.sequenceNumber⟩

/-- The messages that count, which must be there and must be all of the interval. -/
def complete (lane : Lane) (interval : Option Interval) (batch : List Message) :
    Except Error (List Message) :=
  let messages := select lane interval batch
  match span messages with
  | none => .error .emptyBatch
  | some own =>
    let i := interval.getD own
    if messages.length = i.size then .ok messages
    else .error (.incompleteBatch i.least i.greatest i.size messages.length)

def position (messages : List Message) (id : Bytes32) : Except Error Nat :=
  match messages.findIdx? (·.header.id = id) with
  | some i => .ok i
  | none => .error (.notInBatch id)

def positions (messages : List Message) (ids : List Bytes32) : Except Error (List Nat) :=
  ids.mapM (position messages)

/-- The tree over the leaves of some messages, which must have the root if one is expected. -/
def commit (registry : Registry) (lane : Lane) (messages : List Message)
    (expectedRoot : Option Bytes32) : Hashing Error Merkle.Tree := do
  let leaves ← messages.mapM (Leaf.verified registry lane)
  let tree ← Merkle.Tree.ofLeaves leaves
  match expectedRoot with
  | some expected => if expected ≠ tree.root then throw (.rootMismatch expected tree.root)
  | none => pure ()
  return tree

def prove (registry : Registry) (lane : Lane) (batch : List Message) (targets : List Bytes32)
    (interval : Option Interval) (expectedRoot : Option Bytes32) : Hashing Error Bundle := do
  let _ ← Scheme.ofLane registry lane
  let messages ← complete lane interval batch
  let known ← positions messages targets
  let tree ← commit registry lane messages expectedRoot
  let proof ← (tree.prove known).adapt .badProof
  let proven := (Ascending.ofList id known).filterMap (messages[·]?)
  return ⟨proven, proof, tree.root⟩

/-- The bundle for a single message of a batch that spans its own interval. -/
def proveOne (registry : Registry) (lane : Lane) (batch : List Message) (target : Bytes32)
    (expectedRoot : Option Bytes32) : Hashing Error Bundle :=
  prove registry lane batch [target] none expectedRoot

end Batch

end CrossChain
