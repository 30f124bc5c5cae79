import CrossChain.Proofs.Merkle.Root
/-! The root from the top down. Levels are built from the bottom up, and the last node of an odd
level waits until there is a neighbour for it. Main statement: this gives the root of the tree that
is cut, at every node, behind the largest power of two of its leaves that leaves some over. -/
namespace CrossChain.Merkle

variable {nodes leaves : List Bytes32}

theorem parents_of_length_le_one (h : nodes.length ≤ 1) : (parents nodes).value = nodes := by
  obtain _ | ⟨a, _ | ⟨b, rest⟩⟩ := nodes
  · rfl
  · rfl
  · simp at h

theorem top_parents (nodes : List Bytes32) : top (parents nodes).value = top nodes := by
  rcases Nat.lt_or_ge 1 nodes.length with htwo | hone
  · exact (top_of_one_lt htwo).symm
  · rw [parents_of_length_le_one hone]

theorem take_parents (count : Nat) (nodes : List Bytes32) :
    (parents nodes).value.take count = (parents (nodes.take (2 * count))).value := by
  induction count generalizing nodes with
  | zero => rfl
  | succ count ih =>
    obtain _ | ⟨a, _ | ⟨b, rest⟩⟩ := nodes
    · rfl
    · simp [parents, Nat.mul_succ]
    · exact congrArg ((node a b).value :: ·) (ih rest)

theorem drop_parents (count : Nat) (nodes : List Bytes32) :
    (parents nodes).value.drop count = (parents (nodes.drop (2 * count))).value := by
  induction count generalizing nodes with
  | zero => rfl
  | succ count ih =>
    obtain _ | ⟨a, _ | ⟨b, rest⟩⟩ := nodes
    · rfl
    · simp [parents, Nat.mul_succ]
    · exact ih rest

/-- The top is the parent of the tops of the two parts, of which the first one is a full tree. -/
theorem top_eq_node {height : Nat} (hlt : 2 ^ height < nodes.length)
    (hle : nodes.length ≤ 2 ^ (height + 1)) :
    top nodes = (node (top (nodes.take (2 ^ height))) (top (nodes.drop (2 ^ height)))).value := by
  -- One level up both the nodes and the place of the cut are halved.
  induction height generalizing nodes with
  | zero =>
    obtain ⟨a, b, rfl⟩ := List.length_eq_two.mp (Nat.le_antisymm hle hlt)
    have hfront : [a, b].take (2 ^ 0) = [a] := rfl
    have hback : [a, b].drop (2 ^ 0) = [b] := rfl
    rw [hfront, hback, ← top_parents, top_singleton, top_singleton]
    exact top_singleton _
  | succ height ih =>
    rw [Nat.pow_succ] at hlt hle
    have hcut : 2 * 2 ^ height = 2 ^ (height + 1) := by rw [Nat.pow_succ, Nat.mul_comm]
    have hlength := length_parents nodes
    rw [← top_parents, ih (by omega) (by omega), take_parents, drop_parents, top_parents,
      top_parents, hcut]

/-- How many leaves stand in the first part: the largest power of two that leaves some over. -/
def splitPoint (length : Nat) : Nat := 2 ^ Nat.log 2 (length - 1)

theorem splitPoint_lt {length : Nat} (h : 1 < length) : splitPoint length < length := by
  have hle := Nat.pow_log_le_self 2 (x := length - 1) (by omega)
  rw [splitPoint]
  omega

theorem splitPoint_pos (length : Nat) : 0 < splitPoint length := Nat.two_pow_pos _

theorem isGreatest_splitPoint {length : Nat} (h : 1 < length) :
    IsGreatest {k | k.isPowerOfTwo ∧ k < length} (splitPoint length) := by
  refine ⟨⟨⟨_, rfl⟩, splitPoint_lt h⟩, ?_⟩
  rintro _ ⟨⟨height, rfl⟩, hlt⟩
  exact Nat.pow_le_pow_right (by decide) (Nat.le_log_of_pow_le (by decide) (by omega))

/-- The root of the tree that is cut at the split point of its leaves, and so on in both parts. -/
def prefixRoot (leaves : List Bytes32) : Bytes32 :=
  if _h : leaves.length ≤ 1 then leaves.headD .zero
  else
    let front := leaves.take (splitPoint leaves.length)
    let back := leaves.drop (splitPoint leaves.length)
    (node (prefixRoot front) (prefixRoot back)).value
termination_by leaves.length
decreasing_by
  · have hlt : splitPoint leaves.length < leaves.length := splitPoint_lt (by omega)
    rw [List.length_take]
    omega
  · have hpos := splitPoint_pos leaves.length
    rw [List.length_drop]
    omega

theorem prefixRoot_singleton (leaf : Bytes32) : prefixRoot [leaf] = leaf := by
  rw [prefixRoot]
  rfl

theorem prefixRoot_of_one_lt (h : 1 < leaves.length) :
    prefixRoot leaves = (node (prefixRoot (leaves.take (splitPoint leaves.length)))
      (prefixRoot (leaves.drop (splitPoint leaves.length)))).value := by
  rw [prefixRoot, dif_neg (by omega)]

theorem top_of_splitPoint (h : 1 < leaves.length) :
    top leaves = (node (top (leaves.take (splitPoint leaves.length)))
      (top (leaves.drop (splitPoint leaves.length)))).value := by
  refine top_eq_node (splitPoint_lt h) ?_
  have hlt := Nat.lt_pow_succ_log_self (b := 2) (by decide) (leaves.length - 1)
  omega

theorem top_eq_prefixRoot (h : leaves ≠ []) : top leaves = prefixRoot leaves := by
  induction hn : leaves.length using Nat.strong_induction_on generalizing leaves with
  | _ n ih =>
    subst hn
    rcases Nat.lt_or_ge 1 leaves.length with htwo | hone
    · have hlt := splitPoint_lt htwo
      have hpos := splitPoint_pos leaves.length
      rw [top_of_splitPoint htwo, prefixRoot_of_one_lt htwo]
      congr 2
      · refine ih _ ?_ (List.ne_nil_of_length_pos ?_) rfl <;> rw [List.length_take] <;> omega
      · refine ih _ ?_ (List.ne_nil_of_length_pos ?_) rfl <;> rw [List.length_drop] <;> omega
    · have hpos := List.length_pos_of_ne_nil h
      obtain ⟨leaf, rfl⟩ := List.length_eq_one_iff.mp (Nat.le_antisymm hone hpos)
      rw [top_singleton, prefixRoot_singleton]

/-- Some leaves have a tree, whose root is the leaf if there is one only, and else the parent of the
roots of two trees, one of them over the longest part that is a power of two. -/
theorem ofLeaves_root_eq_prefixRoot (h : leaves ≠ []) :
    ∃ tree, (Tree.ofLeaves leaves).result = .ok tree ∧ tree.root = prefixRoot leaves ∧
      (∀ leaf, leaves = [leaf] → tree.root = leaf) ∧
      (1 < leaves.length → ∃ k front back,
        IsGreatest {k | k.isPowerOfTwo ∧ k < leaves.length} k ∧
        (Tree.ofLeaves (leaves.take k)).result = .ok front ∧
        (Tree.ofLeaves (leaves.drop k)).result = .ok back ∧
        tree.root = (node front.root back.root).value) := by
  obtain ⟨tree, htree, -, -⟩ := Tree.ofLeaves_eq h
  have hroot := Tree.root_of_ofLeaves htree
  refine ⟨tree, htree, hroot.trans (top_eq_prefixRoot h), ?_, fun htwo => ?_⟩
  · rintro leaf rfl
    rw [hroot, top_singleton]
  · have hlt := splitPoint_lt htwo
    have hpos := splitPoint_pos leaves.length
    have hfront : leaves.take (splitPoint leaves.length) ≠ [] :=
      List.ne_nil_of_length_pos (by rw [List.length_take]; omega)
    have hback : leaves.drop (splitPoint leaves.length) ≠ [] :=
      List.ne_nil_of_length_pos (by rw [List.length_drop]; omega)
    obtain ⟨front, hfrontTree, -, -⟩ := Tree.ofLeaves_eq hfront
    obtain ⟨back, hbackTree, -, -⟩ := Tree.ofLeaves_eq hback
    refine ⟨_, front, back, isGreatest_splitPoint htwo, hfrontTree, hbackTree, ?_⟩
    rw [hroot, top_of_splitPoint htwo, Tree.root_of_ofLeaves hfrontTree,
      Tree.root_of_ofLeaves hbackTree]

/-- The last of five leaves moves up twice before it has a neighbour. -/
theorem root_of_five :
    ∃ tree, (Tree.ofLeaves [.ofU256 1, .ofU256 2, .ofU256 3, .ofU256 4, .ofU256 5]).result =
        .ok tree ∧
      tree.root = (node (node (node (.ofU256 1) (.ofU256 2)).value
        (node (.ofU256 3) (.ofU256 4)).value).value (.ofU256 5)).value := by
  have hne : [Bytes32.ofU256 1, .ofU256 2, .ofU256 3, .ofU256 4, .ofU256 5] ≠ [] := by simp
  obtain ⟨tree, htree, hroot, -⟩ := ofLeaves_root_eq_prefixRoot hne
  have hfive : splitPoint 5 = 4 := by decide
  have hfour : splitPoint 4 = 2 := by decide
  have htwo : splitPoint 2 = 1 := by decide
  refine ⟨tree, htree, hroot.trans ?_⟩
  simp [prefixRoot_of_one_lt, prefixRoot_singleton, hfive, hfour, htwo]

end CrossChain.Merkle
