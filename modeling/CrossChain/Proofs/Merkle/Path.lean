import CrossChain.Proofs.Merkle.Derivation
/-! The way of a single leaf up to the root. At each level its neighbour is supplied, or there is
none and the node moves up as it is. Main statement: a tree of no more leaves than the verifier
can climb gives out a proof for each of them. -/
namespace CrossChain.Merkle

variable {nodes : List Bytes32} {i : Nat} {x p : Bytes32}

theorem nodePreimage_comm (a b : Bytes32) : nodePreimage a b = nodePreimage b a := by
  unfold nodePreimage
  split <;> split
  next hab hba => rw [List.le_antisymm hab hba]
  next => rfl
  next => rfl
  next hab hba => exact absurd (List.le_total a.toBytes b.toBytes) (not_or_intro hab hba)

theorem node_comm (a b : Bytes32) : node a b = node b a := by
  rw [node, node, nodePreimage_comm]

/-- Two neighbours have their parent at half of their positions. -/
theorem parents_of_neighbours {j : Nat} {a b : Bytes32} (ha : nodes[2 * j]? = some a)
    (hb : nodes[2 * j + 1]? = some b) : (parents nodes).value[j]? = some (node a b).value := by
  induction j generalizing nodes with
  | zero =>
    obtain _ | ⟨c, _ | ⟨d, rest⟩⟩ := nodes
    · simp at ha
    · simp at hb
    · obtain rfl : c = a := by simpa using ha
      obtain rfl : d = b := by simpa using hb
      rfl
  | succ j ih =>
    obtain _ | ⟨c, _ | ⟨d, rest⟩⟩ := nodes
    · simp at ha
    · simp at hb
    · have ha' : rest[2 * j]? = some a := ha
      have hb' : rest[2 * j + 1]? = some b := hb
      exact ih ha' hb'

theorem parents_of_last {j : Nat} {a : Bytes32} (ha : nodes[2 * j]? = some a)
    (hlast : nodes[2 * j + 1]? = none) : (parents nodes).value[j]? = some a := by
  induction j generalizing nodes with
  | zero =>
    obtain _ | ⟨c, _ | ⟨d, rest⟩⟩ := nodes
    · simp at ha
    · simpa [parents] using ha
    · simp at hlast
  | succ j ih =>
    obtain _ | ⟨c, _ | ⟨d, rest⟩⟩ := nodes
    · simp at ha
    · simp at ha
    · have ha' : rest[2 * j]? = some a := ha
      have hlast' : rest[2 * j + 1]? = none := hlast
      exact ih ha' hlast'

namespace Tree

theorem parents_of_sibling (hx : nodes[i]? = some x) (hp : nodes[sibling i]? = some p) :
    (parents nodes).value[i / 2]? = some (node p x).value := by
  rcases Nat.mod_two_eq_zero_or_one i with heven | hodd
  · rw [sibling, if_pos heven] at hp
    have hparent := parents_of_neighbours (j := i / 2) (a := x) (b := p)
      (by rwa [Nat.mul_div_cancel' (Nat.dvd_of_mod_eq_zero heven)])
      (by rwa [Nat.mul_div_cancel' (Nat.dvd_of_mod_eq_zero heven)])
    rw [hparent, node_comm]
  · rw [sibling, if_neg (by omega)] at hp
    exact parents_of_neighbours (by rwa [show 2 * (i / 2) = i - 1 by omega])
      (by rwa [show 2 * (i / 2) + 1 = i by omega])

theorem parents_of_no_sibling (hx : nodes[i]? = some x) (hnone : nodes[sibling i]? = none) :
    (parents nodes).value[i / 2]? = some x := by
  -- A node at an odd position always has a neighbour before it.
  have heven : i % 2 = 0 := by
    by_contra hodd
    rw [sibling, if_neg hodd, List.getElem?_eq_none_iff] at hnone
    have := (List.getElem?_eq_some_iff.mp hx).1
    omega
  rw [sibling, if_pos heven] at hnone
  exact parents_of_last (by rwa [Nat.mul_div_cancel' (Nat.dvd_of_mod_eq_zero heven)])
    (by rwa [Nat.mul_div_cancel' (Nat.dvd_of_mod_eq_zero heven)])

/-- The steps of one node up to the top of its levels: no more than the number of nodes has
binary digits, each with a supplied node, and the verifier that makes them finds the top. -/
theorem exists_path (hx : nodes[i]? = some x) : ∃ hashes : List Bytes32,
    climb (nodes :: (levelsAbove nodes).value).dropLast [i] = hashes.map .supplied ∧
    (∀ k, nodes.length ≤ 2 ^ k → hashes.length ≤ k) ∧
    ∀ step count, (replay step count (List.replicate hashes.length false) [x] hashes).result =
      .ok (top nodes) := by
  induction hn : nodes.length using Nat.strong_induction_on generalizing nodes i x with
  | _ n ih =>
    subst hn
    have hi := (List.getElem?_eq_some_iff.mp hx).1
    rcases Nat.lt_or_ge 1 nodes.length with htwo | hone
    · have hshorter : (parents nodes).value.length < nodes.length := by
        rw [length_parents]
        omega
      have hclimb : climb (nodes :: (levelsAbove nodes).value).dropLast [i] =
          stepsOf nodes [i] ++ climb ((parents nodes).value ::
            (levelsAbove (parents nodes).value).value).dropLast [i / 2] := by
        rw [levelsAbove, dif_neg (by omega)]
        rfl
      have hbound : ∀ k, nodes.length ≤ 2 ^ k → ∃ l, k = l + 1 ∧
          (parents nodes).value.length ≤ 2 ^ l := by
        intro k hk
        cases k with
        | zero => omega
        | succ l =>
          refine ⟨l, rfl, ?_⟩
          rw [length_parents]
          omega
      rw [hclimb, stepsOf, top_of_one_lt htwo]
      cases hp : nodes[sibling i]? with
      | some p =>
        obtain ⟨hashes, hsteps, hlength, hreplay⟩ := ih _ hshorter (parents_of_sibling hx hp) rfl
        refine ⟨p :: hashes, by rw [hsteps]; rfl, fun k hk => ?_, fun step count => ?_⟩
        · obtain ⟨l, rfl, hl⟩ := hbound k hk
          exact Nat.succ_le_succ (hlength l hl)
        · exact hreplay (step + 1) count
      | none =>
        obtain ⟨hashes, hsteps, hlength, hreplay⟩ := ih _ hshorter (parents_of_no_sibling hx hp) rfl
        refine ⟨hashes, by rw [hsteps]; rfl, fun k hk => ?_, hreplay⟩
        obtain ⟨l, rfl, hl⟩ := hbound k hk
        exact (hlength l hl).trans (Nat.le_succ l)
    · obtain ⟨y, rfl⟩ := List.length_eq_one_iff.mp (by omega : nodes.length = 1)
      obtain ⟨rfl, rfl⟩ : i = 0 ∧ y = x := by
        obtain rfl : i = 0 := by simpa using hi
        exact ⟨rfl, by simpa using hx⟩
      refine ⟨[], ?_, by simp, fun _ _ => ?_⟩
      · rw [levelsAbove, dif_pos (by simp)]
        rfl
      · rw [top_singleton]
        rfl

end Tree

theorem ofBits_replicate_false (count : Nat) : ofBits (List.replicate count false) = 0 := by
  induction count with
  | zero => rfl
  | succ count ih => rw [List.replicate_succ, ofBits, ih]; rfl

namespace Multiproof

theorem ofSteps_supplied (hashes : List Bytes32) :
    ofSteps (hashes.map .supplied) = ⟨hashes, 0⟩ := by
  have hqueued : (hashes.map Step.supplied).map Step.isQueued =
      List.replicate hashes.length false := by
    rw [List.map_map, ← List.map_const]
    rfl
  have hsupplied : (hashes.map Step.supplied).filterMap Step.hash? = hashes := by
    rw [List.filterMap_map]
    exact List.filterMap_some
  rw [ofSteps, hqueued, hsupplied, ofBits_replicate_false]
  rfl

theorem rootOf_supplied {hashes : List Bytes32} (h : hashes.length ≤ maxSteps) :
    rootOf ⟨hashes, 0⟩ [x] =
      replay 0 hashes.length (List.replicate hashes.length false) [x] hashes := by
  have hsteps : [x].length + hashes.length - 1 = hashes.length := by
    rw [List.length_singleton]
    omega
  have hflags : (List.range hashes.length).map (0 : U256).getLsbD =
      List.replicate hashes.length false := by
    rw [List.eq_replicate_iff]
    simp
  unfold rootOf
  rw [if_neg (List.cons_ne_nil _ _)]
  simp only [hsteps, hflags]
  rw [if_neg h.not_gt]

end Multiproof

/-- Each single leaf of a tree has a proof, as long as its way up is one that a verifier goes. -/
theorem Tree.exists_prove_singleton {t : Tree} (hi : i < t.leaves.length)
    (hsize : t.leaves.length ≤ 2 ^ maxSteps) : ∃ proof, (t.prove [i]).result = .ok proof := by
  obtain ⟨hashes, hsteps, hlength, hreplay⟩ := exists_path (List.getElem?_eq_getElem hi)
  have hshort := hlength maxSteps hsize
  have hknown : Ascending.ofList id [i] = [i] := rfl
  have hinside : [i].find? (t.leaves.length ≤ ·) = none := by simp [hi]
  have hclimb : climb t.levels.dropLast [i] = hashes.map .supplied := by
    rw [Tree.levels, t.above_eq, hsteps]
  have hleaf : [i].filterMap (t.leaves[·]?) = [t.leaves[i]] := by simp [hi]
  have hfound : (Multiproof.rootOf ⟨hashes, 0⟩ [t.leaves[i]]).result = .ok t.root := by
    rw [Multiproof.rootOf_supplied hshort, t.root_eq_top]
    exact hreplay 0 _
  refine ⟨⟨hashes, 0⟩, ?_⟩
  unfold prove
  simp only [hknown, hinside, hclimb, hleaf, Multiproof.ofSteps_supplied, List.length_map]
  rw [if_neg (List.cons_ne_nil _ _), if_neg hshort.not_gt]
  exact Hashing.result_bind_eq_ok_iff.mpr ⟨t.root, hfound, by simp⟩

end CrossChain.Merkle
