import CrossChain.Proofs.Merkle.Path
/-! What a root says about the leaves below it. Children are hashed in the order of their numbers
and a last node moves up as it is, so lists in different orders may have one root. Main statement:
lists that have one root differ in their order only. -/
namespace CrossChain.Merkle

theorem Tree.root_of_ofLeaves {leaves : List Bytes32} {tree : Tree}
    (h : (ofLeaves leaves).result = .ok tree) : tree.root = top leaves := by
  unfold ofLeaves at h
  split at h
  next => cases h
  next =>
    cases h
    exact Tree.root_eq_top _

/-- Trees with one root have the same leaves, each of them as often, whatever their sizes and
shapes. No leaf of them may be an inner node. -/
theorem leaves_perm_of_root_eq {leaves others : List Bytes32} (hleaves : leaves ≠ [])
    (hothers : others ≠ []) :
    ∃ tree other : Tree, (Tree.ofLeaves leaves).result = .ok tree ∧
      (Tree.ofLeaves others).result = .ok other ∧
      (tree.root = other.root →
        CollisionFree ((Tree.ofLeaves leaves).inputs ++ (Tree.ofLeaves others).inputs) →
        (∀ leaf ∈ leaves ++ others, ∀ m ∈ (Tree.ofLeaves leaves).inputs ++
          (Tree.ofLeaves others).inputs, leaf ≠ keccak256 m) →
        leaves.Perm others) := by
  obtain ⟨tree, htree, rfl, hinputs⟩ := Tree.ofLeaves_eq hleaves
  obtain ⟨other, hother, rfl, hotherInputs⟩ := Tree.ofLeaves_eq hothers
  refine ⟨tree, other, htree, hother, fun hroot hfree hinner => ?_⟩
  obtain ⟨d, hdhash, hdleaves, hdoutsiders, hdinputs⟩ := Derivation.exists_of_tree tree
  obtain ⟨e, hehash, heleaves, heoutsiders, heinputs⟩ := Derivation.exists_of_tree other
  rw [hinputs, hotherInputs] at hfree hinner
  have hd : d.inputs ⊆ (levelsAbove tree.leaves).inputs ++ (levelsAbove other.leaves).inputs :=
    fun m hm => List.mem_append_left _ ((hdinputs m).mp hm)
  have he : e.inputs ⊆ (levelsAbove tree.leaves).inputs ++ (levelsAbove other.leaves).inputs :=
    fun m hm => List.mem_append_right _ ((heinputs m).mp hm)
  have hhash : d.hash = e.hash := hdhash.trans (hroot.trans hehash.symm)
  have hperm := Derivation.leaves_perm hfree hhash hd he (by rwa [hdleaves, heleaves])
    hdoutsiders heoutsiders
  rwa [hdleaves, heleaves] at hperm

/-- The levels above four nodes end in one node, in whatever order the pairs and the nodes of a
pair stand. -/
theorem top_turned (a b c d : Bytes32) : top [a, b, c, d] = top [c, d, b, a] := by
  have hfour : ∀ a b c d : Bytes32, top [a, b, c, d] =
      (node (node a b).value (node c d).value).value := by
    intro a b c d
    rw [top_of_one_lt (by simp), top_of_one_lt (by simp [parents])]
    exact top_singleton _
  rw [hfour, hfour, node_comm (node a b).value, node_comm a]

theorem turned_pairs_perm :
    ∃ tree other : Tree, (Tree.ofLeaves [.ofU256 1, .ofU256 2, .ofU256 3, .ofU256 4]).result =
        .ok tree ∧
      (Tree.ofLeaves [.ofU256 3, .ofU256 4, .ofU256 2, .ofU256 1]).result = .ok other ∧
      tree.root = other.root ∧
      [Bytes32.ofU256 1, .ofU256 2, .ofU256 3, .ofU256 4].Perm
        [.ofU256 3, .ofU256 4, .ofU256 2, .ofU256 1] := by
  have hleaves : [Bytes32.ofU256 1, .ofU256 2, .ofU256 3, .ofU256 4] ≠ [] := by simp
  have hothers : [Bytes32.ofU256 3, .ofU256 4, .ofU256 2, .ofU256 1] ≠ [] := by simp
  obtain ⟨tree, other, htree, hother, h⟩ := leaves_perm_of_root_eq hleaves hothers
  have hroot : tree.root = other.root := by
    rw [Tree.root_of_ofLeaves htree, Tree.root_of_ofLeaves hother, top_turned]
  exact ⟨tree, other, htree, hother, hroot, h hroot (by decide +kernel) (by decide +kernel)⟩

end CrossChain.Merkle
