import CrossChain.Error
import CrossChain.Hashed
import CrossChain.Leaf.Scheme
/-! Trees that commit to a list of leaves. Neighbours share a parent, and the last node of a
level of odd length moves up as it is. Main statement: each level is half as long as the one
below, so the levels end in one node, the root. -/
namespace CrossChain.Merkle

/-- The byte string of an inner node. Its children stand in the order of their numbers, so a
proof need not say on which side they are. -/
def nodePreimage (a b : Bytes32) : Bytes :=
  if a ≤ b then Domain.node.toBytes ++ a.toBytes ++ b.toBytes
  else Domain.node.toBytes ++ b.toBytes ++ a.toBytes

def node (a b : Bytes32) : Hashed Bytes32 := Hashed.keccak (nodePreimage a b)

def parents : List Bytes32 → Hashed (List Bytes32)
  | a :: b :: rest => do
    let parent ← node a b
    return parent :: (← parents rest)
  | nodes => pure nodes

theorem length_parents (nodes : List Bytes32) :
    (parents nodes).value.length = (nodes.length + 1) / 2 := by
  fun_induction parents nodes with
  | case1 a b rest ih => simp [ih]; omega
  | case2 nodes h =>
    match nodes, h with
    | [], _ => rfl
    | [_], _ => simp
    | a :: b :: rest, h => exact absurd rfl (h a b rest)

def levelsAbove (nodes : List Bytes32) : Hashed (List (List Bytes32)) :=
  if _h : nodes.length ≤ 1 then pure []
  else
    let next := parents nodes
    let rest := levelsAbove next.value
    ⟨next.value :: rest.value, next.inputs ++ rest.inputs⟩
termination_by nodes.length
decreasing_by rw [length_parents]; omega

/-- Some leaves, of which there is at least one, and the levels above them. -/
structure Tree where
  leaves : List Bytes32
  above : List (List Bytes32)
  leaves_ne_nil : leaves ≠ []
  above_eq : above = (levelsAbove leaves).value

namespace Tree

def ofLeaves (leaves : List Bytes32) : Hashing Error Tree :=
  if h : leaves = [] then throw .emptyBatch
  else
    let above := levelsAbove leaves
    ⟨.ok ⟨leaves, above.value, h, rfl⟩, above.inputs⟩

def levels (t : Tree) : List (List Bytes32) := t.leaves :: t.above

def root (t : Tree) : Bytes32 := ((t.levels.getLast?.getD []).head?).getD .zero

end Tree

end CrossChain.Merkle
