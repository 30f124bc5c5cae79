import CrossChain.Ascending
import CrossChain.Error
import CrossChain.Merkle.Tree
/-! Multiproofs. The verifier keeps a queue that starts as the proven leaves, and each step puts
the parent of two nodes at its end. The second node comes from the front of the queue, the
first one too or else from the proof. -/
namespace CrossChain.Merkle

def maxSteps : Nat := 256

/-- Nodes from outside of the queue, and a bit for each step from the lowest on, set where
both nodes come from the queue. -/
structure Multiproof where
  proofs : List Bytes32
  flags : U256
deriving DecidableEq

/-- Makes the steps of the given flags; the last node left is the root. The first two numbers
are those of the current step and of all proofs. -/
def replay (step count : Nat) : List Bool → (queue proofs : List Bytes32) →
    Hashing ProofFault Bytes32
  | [], [root], [] => pure root
  | [], _, _ => throw .leftover
  | true :: flags, a :: b :: queue, proofs => do
    let parent ← node a b
    replay (step + 1) count flags (queue ++ [parent]) proofs
  | true :: _, _, _ => throw .nothingToRead
  | false :: flags, b :: queue, p :: proofs => do
    let parent ← node p b
    replay (step + 1) count flags (queue ++ [parent]) proofs
  | false :: _, _, [] => throw (.tooFewProofs step count)
  | false :: _, [], _ => throw .nothingToRead

namespace Multiproof

def rootOf (proof : Multiproof) (leaves : List Bytes32) : Hashing ProofFault Bytes32 :=
  let steps := leaves.length + proof.proofs.length - 1
  if leaves = [] then throw .noLeaves
  else if maxSteps < steps then throw (.tooLarge leaves.length proof.proofs.length)
  else replay 0 proof.proofs.length ((List.range steps).map proof.flags.getLsbD) leaves
    proof.proofs

end Multiproof

inductive Step where
  | queued
  | supplied (hash : Bytes32)
deriving DecidableEq

namespace Step

def isQueued : Step → Bool
  | .queued => true
  | .supplied _ => false

def hash? : Step → Option Bytes32
  | .queued => none
  | .supplied hash => some hash

end Step

def ofBits : List Bool → Nat
  | [] => 0
  | b :: rest => b.toNat + 2 * ofBits rest

def Multiproof.ofSteps (steps : List Step) : Multiproof :=
  ⟨steps.filterMap Step.hash?, BitVec.ofNat 256 (ofBits (steps.map Step.isQueued))⟩

namespace Tree

def sibling (position : Nat) : Nat :=
  if position % 2 = 0 then position + 1 else position - 1

/-- The steps from known nodes of a level, by ascending position, to their parents. A node
that moves up as it is takes none. -/
def stepsOf (level : List Bytes32) : List Nat → List Step
  | [] => []
  | [i] => (level[sibling i]?).toList.map .supplied
  | i :: j :: known =>
    match level[sibling i]? with
    | none => stepsOf level (j :: known)
    | some hash =>
      if j = sibling i then .queued :: stepsOf level known
      else .supplied hash :: stepsOf level (j :: known)

/-- The steps from known nodes of the first level up to the root above the last one. -/
def climb : List (List Bytes32) → List Nat → List Step
  | [], _ => []
  | level :: above, known =>
    stepsOf level known ++ climb above (Ascending.ofList id (known.map (· / 2)))

/-- The proof for the leaves at some positions. The queue may reach the nodes of a level in
another order than the tree has them, so that the proof is tried before it is given out. -/
def prove (t : Tree) (positions : List Nat) : Hashing ProofFault Multiproof := do
  let known := Ascending.ofList id positions
  if known = [] then throw .nothingToProve
  if let some i := known.find? (t.leaves.length ≤ ·) then
    throw (.outside i t.leaves.length)
  let steps := climb t.levels.dropLast known
  if maxSteps < steps.length then throw (.tooManySteps steps.length maxSteps)
  let proof := Multiproof.ofSteps steps
  let found ← proof.rootOf (known.filterMap (t.leaves[·]?))
  if found ≠ t.root then throw (.wrongRoot known found t.root)
  return proof

end Tree

end CrossChain.Merkle
