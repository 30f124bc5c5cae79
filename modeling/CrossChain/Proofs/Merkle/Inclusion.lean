import CrossChain.Proofs.Leaf.Preimage
import CrossChain.Proofs.Merkle.Derivation
/-! What a proof against the root of a tree shows. Domains keep leaves and inner nodes apart, so
that the derivation which the proof spells out is part of the tree. -/
namespace CrossChain.Merkle

theorem leaf_preimage_ne_nodePreimage {hash a b : Bytes32} {p : Bytes} (h : Leaf.IsLeaf hash p) :
    p ≠ nodePreimage a b := by
  obtain ⟨s, lane, m, -, hp⟩ := h
  obtain ⟨rest, rfl⟩ := Scheme.preimage_starts_with_domain hp
  have hne : Domain.leaf ≠ Domain.node := by decide
  unfold nodePreimage
  split <;> rw [List.append_assoc, Ne, Bytes32.append_inj] <;> exact fun h => hne h.1

theorem leaf_ne_keccak256_of_mem_inputs {strings preimages : List Bytes}
    (hfree : CollisionFree (strings ++ preimages)) {d : Derivation} (hd : d.inputs ⊆ strings)
    {hash : Bytes32} (hleaf : ∃ p ∈ preimages, Leaf.IsLeaf hash p) {m : Bytes}
    (hm : m ∈ d.inputs) : hash ≠ keccak256 m := by
  obtain ⟨p, hp, hleaf⟩ := hleaf
  obtain ⟨a, b, rfl⟩ := Derivation.exists_eq_nodePreimage hm
  rw [hleaf.eq_keccak256]
  intro h
  have hpm := hfree p (List.mem_append_right _ hp) _ (List.mem_append_left _ (hd hm)) h
  exact leaf_preimage_ne_nodePreimage hleaf hpm

/-- A proof that leads from some leaves to the root of a tree of leaves shows that they are in the
tree, as often as they are proven, and that none of them is an inner node of it. Both the proof
and what it is made of may be anything. -/
theorem proven_subperm_committed {committed proven : List Bytes32} {preimages : List Bytes}
    (hne : committed ≠ [])
    (hleaves : ∀ leaf ∈ committed ++ proven, ∃ p ∈ preimages, Leaf.IsLeaf leaf p) :
    ∃ tree : Tree, (Tree.ofLeaves committed).result = .ok tree ∧ ∀ proof : Multiproof,
      (proof.rootOf proven).result = .ok tree.root →
      CollisionFree ((Tree.ofLeaves committed).inputs ++ (proof.rootOf proven).inputs ++
        preimages) →
      proven.Subperm committed ∧
        ∀ leaf ∈ proven, ∀ m ∈ (Tree.ofLeaves committed).inputs, leaf ≠ keccak256 m := by
  obtain ⟨tree, htree, rfl, hinputs⟩ := Tree.ofLeaves_eq hne
  refine ⟨tree, htree, fun proof hroot hfree => ?_⟩
  obtain ⟨d, hdhash, hdleaves, -, hdinputs⟩ := Derivation.exists_of_rootOf hroot
  obtain ⟨e, hehash, heleaves, heoutsiders, heinputs⟩ := Derivation.exists_of_tree tree
  rw [← hinputs] at heinputs
  have hd : d.inputs ⊆ (Tree.ofLeaves tree.leaves).inputs ++ (proof.rootOf proven).inputs :=
    fun m hm => List.mem_append_right _ ((hdinputs m).mp hm)
  have he : e.inputs ⊆ (Tree.ofLeaves tree.leaves).inputs ++ (proof.rootOf proven).inputs :=
    fun m hm => List.mem_append_left _ ((heinputs m).mp hm)
  have hapart : ∀ leaf ∈ tree.leaves ++ proven, ∀ m ∈ d.inputs ++ e.inputs,
      leaf ≠ keccak256 m := by
    intro leaf hleaf m hm
    rcases List.mem_append.mp hm with hm | hm
    · exact leaf_ne_keccak256_of_mem_inputs hfree hd (hleaves leaf hleaf) hm
    · exact leaf_ne_keccak256_of_mem_inputs hfree he (hleaves leaf hleaf) hm
  have hsub : d.leaves.Subperm e.leaves := by
    have hown : CollisionFree (d.inputs ++ e.inputs) :=
      hfree.mono (List.Subset.trans (List.append_subset.mpr ⟨hd, he⟩)
        (List.subset_append_left _ _))
    refine Derivation.leaves_subperm hown (hdhash.trans hehash.symm)
      (List.subset_append_left _ _) (List.subset_append_right _ _)
      (fun leaf hleaf => ?_) (fun leaf hleaf => ?_) heoutsiders
    · exact hapart leaf (List.mem_append_right _ (hdleaves.mem_iff.mp hleaf))
    · exact hapart leaf (List.mem_append_left _ (heleaves ▸ hleaf))
  refine ⟨hdleaves.symm.subperm.trans (heleaves ▸ hsub), fun leaf hleaf m hm => ?_⟩
  exact hapart leaf (List.mem_append_right _ hleaf) m
    (List.mem_append_right _ ((heinputs m).mpr hm))

/-- The second of two leaves, proven with the first one from outside. -/
theorem second_of_two_subperm :
    ∃ tree : Tree, (Tree.ofLeaves [Leaf.sample 1, Leaf.sample 2]).result = .ok tree ∧
      (Multiproof.rootOf ⟨[Leaf.sample 1], 0⟩ [Leaf.sample 2]).result = .ok tree.root ∧
      [Leaf.sample 2].Subperm [Leaf.sample 1, Leaf.sample 2] := by
  have hleaves : ∀ leaf ∈ [Leaf.sample 1, Leaf.sample 2] ++ [Leaf.sample 2],
      ∃ p ∈ [Leaf.samplePreimage 1, Leaf.samplePreimage 2], Leaf.IsLeaf leaf p := by
    simp [Leaf.isLeaf_sample]
  obtain ⟨tree, htree, h⟩ := proven_subperm_committed (by simp) hleaves
  have hroot : tree.root = top [Leaf.sample 1, Leaf.sample 2] := by
    have hne : [Leaf.sample 1, Leaf.sample 2] ≠ [] := by simp
    obtain ⟨tree', htree', hleaves', -⟩ := Tree.ofLeaves_eq hne
    obtain rfl : tree = tree' := Except.ok.inj (htree.symm.trans htree')
    rw [tree.root_eq_top, hleaves']
  have hproof : (Multiproof.rootOf ⟨[Leaf.sample 1], 0⟩ [Leaf.sample 2]).result =
      .ok tree.root := by
    rw [hroot, top_of_one_lt (by decide)]
    exact congrArg Except.ok (top_singleton _).symm
  exact ⟨tree, htree, hproof, (h _ hproof (by decide +kernel)).1⟩

end CrossChain.Merkle
