import CrossChain.Proofs.Merkle.Climb
/-! Which sets of leaves have a proof. A last node that moves up as it is comes to stand in front of
the parents of the others, and the queue cannot turn it back; it does no harm if it is the only
known node, or if it and the one other parent are neighbours. Main statement: the prover has a proof
for every set of leaves of which this holds at each level. -/
namespace CrossChain.Merkle

namespace Tree

/-- The positions above some positions, a number of levels higher. -/
def ancestors (positions : Finset Nat) (up : Nat) : Finset Nat := positions.image (· / 2 ^ up)

/-- Wherever a known last node moves up, it is the only known node, or the known nodes of the next
level are the last two and neighbours. -/
def Expressible (levels : List (List Bytes32)) (positions : Finset Nat) : Prop :=
  ∀ l level above, levels[l]? = some level → levels[l + 1]? = some above →
    level.length % 2 = 1 → level.length - 1 ∈ ancestors positions l →
      ancestors positions l = {level.length - 1} ∨
        above.length % 2 = 0 ∧ ancestors positions (l + 1) = {above.length - 2, above.length - 1}

/-- One step for each pair of known nodes that meet, and one for each neighbour that the prover
supplies. -/
def hashSteps (levels : List (List Bytes32)) (positions : Finset Nat) : Nat :=
  positions.card - 1 + ∑ l ∈ Finset.range (levels.length - 1),
    (lacking (levels.getD l []).length (ancestors positions l)).card

variable {nodes : List Bytes32} {known : List Nat} {positions : Finset Nat}

theorem ancestors_zero : ancestors positions 0 = positions := by
  simp [ancestors]

theorem ancestors_image (up : Nat) :
    ancestors (positions.image (· / 2)) up = ancestors positions (up + 1) := by
  rw [ancestors, ancestors, Finset.image_image]
  refine Finset.image_congr fun i _ => ?_
  rw [Function.comp_apply, Nat.div_div_eq_div_mul, pow_succ']

theorem toFinset_parentsAt : (parentsAt known).toFinset = known.toFinset.image (· / 2) := by
  ext j
  simp [mem_parentsAt]

theorem Expressible.tail {level : List Bytes32} {levels : List (List Bytes32)}
    (h : Expressible (level :: levels) positions) :
    Expressible levels (positions.image (· / 2)) := by
  intro l lower above hlower habove
  rw [ancestors_image, ancestors_image]
  exact h (l + 1) lower above hlower habove

theorem levelsAbove_of_one_lt (h : 1 < nodes.length) : (levelsAbove nodes).value =
    (parents nodes).value :: (levelsAbove (parents nodes).value).value := by
  rw [levelsAbove, dif_neg (by omega)]

theorem climb_of_one_lt (h : 1 < nodes.length) (known : List Nat) :
    climb (nodes :: (levelsAbove nodes).value).dropLast known = stepsOf nodes known ++
      climb ((parents nodes).value :: (levelsAbove (parents nodes).value).value).dropLast
        (parentsAt known) := by
  rw [levelsAbove_of_one_lt h]
  rfl

theorem exists_eq_append_last {last : Nat} (hks : known.Pairwise (· < ·)) (hmem : last ∈ known)
    (hle : ∀ k ∈ known, k ≤ last) :
    ∃ init, known = init ++ [last] ∧ init.Pairwise (· < ·) ∧ ∀ k ∈ init, k < last := by
  obtain ⟨init, greatest, rfl⟩ := known.eq_nil_or_concat'.resolve_left (List.ne_nil_of_mem hmem)
  rw [List.pairwise_append] at hks
  obtain rfl : greatest = last := by
    refine Nat.le_antisymm (hle greatest (by simp)) ?_
    obtain h | h := List.mem_append.mp hmem
    · exact (hks.2.2 last h greatest (by simp)).le
    · exact (List.mem_singleton.mp h).le
  exact ⟨init, rfl, hks.1, fun k hk => hks.2.2 k hk greatest (by simp)⟩

/-- A known last node without a neighbour comes to stand in front of the parents of the others. -/
theorem leads_stepsOf_last {init : List Nat} {x : Bytes32} (hks : init.Pairwise (· < ·))
    (hodd : nodes.length % 2 = 1) (hx : nodes[nodes.length - 1]? = some x)
    (hinit : ∀ k ∈ init, k < nodes.length - 1) :
    Leads (stepsOf nodes (init ++ [nodes.length - 1])) (valuesAt nodes (init ++ [nodes.length - 1]))
      (x :: valuesAt (parents nodes).value (parentsAt init)) := by
  have hlast : nodes.length ≤ sibling (nodes.length - 1) := by
    unfold sibling
    split <;> omega
  have hinside : ∀ k ∈ init, k < nodes.length ∧ sibling k < nodes.length := by
    intro k hk
    have := hinit k hk
    unfold sibling
    split <;> omega
  have hvalues : valuesAt nodes (init ++ [nodes.length - 1]) = valuesAt nodes init ++ [x] := by
    rw [valuesAt, List.filterMap_append, ← valuesAt]
    simp [hx]
  rw [stepsOf_append_last hlast fun k hk => (hinside k hk).1, hvalues]
  exact leads_stepsOf hks hinside [x]

/-- Two known nodes in the wrong order are none the worse if they are neighbours. -/
theorem leads_stepsOf_turned {i : Nat} {x y : Bytes32} (hi : i % 2 = 0) (hx : nodes[i]? = some x)
    (hy : nodes[i + 1]? = some y) :
    Leads (stepsOf nodes [i, i + 1]) [y, x] (valuesAt (parents nodes).value [i / 2]) := by
  have hsibling : sibling i = i + 1 := by rw [sibling, if_pos hi]
  have hy' : nodes[sibling i]? = some y := by rwa [hsibling]
  have hsteps : stepsOf nodes [i, i + 1] = [.queued] := by
    simp [stepsOf, hsibling, hy]
  rw [hsteps, valuesAt_cons (parents_of_sibling hx hy')]
  exact .queued .nil

theorem eq_pair_of_toFinset {a b : Nat} (hks : known.Pairwise (· < ·)) (hab : a < b)
    (h : known.toFinset = {a, b}) : known = [a, b] := by
  refine List.Pairwise.eq_of_mem_iff hks (by simpa using hab) fun j => ?_
  rw [← List.mem_toFinset, h]
  simp

theorem parentsAt_pair {i : Nat} (hi : i % 2 = 0) : parentsAt [i, i + 1] = [i / 2] := by
  have hsibling : sibling i = i + 1 := by rw [sibling, if_pos hi]
  rw [← hsibling, parentsAt_cons_sibling, parentsAt_singleton]

theorem lt_of_mem_parentsAt (hinside : ∀ k ∈ known, k < nodes.length) :
    ∀ j ∈ parentsAt known, j < (parents nodes).value.length := by
  intro j hj
  obtain ⟨i, hi, rfl⟩ := mem_parentsAt.mp hj
  have := hinside i hi
  rw [length_parents]
  omega

/-- The other known nodes have one parent, if there are just two parents. -/
theorem parentsAt_init {init : List Nat} {last : Nat} (heven : last % 2 = 0) (htwo : 2 ≤ last)
    (hinit : ∀ k ∈ init, k < last)
    (h : parentsAt (init ++ [last]) = [last / 2 - 1, last / 2]) :
    parentsAt init = [last / 2 - 1] := by
  refine List.Pairwise.eq_of_mem_iff (pairwise_parentsAt _) (by simp) fun j => ?_
  have hmem (j : Nat) : j ∈ parentsAt (init ++ [last]) ↔ j = last / 2 - 1 ∨ j = last / 2 := by
    rw [h]
    simp
  simp only [mem_parentsAt, List.mem_append, List.mem_singleton] at hmem ⊢
  constructor
  · rintro ⟨k, hk, rfl⟩
    have := hinit k hk
    obtain hj | hj := (hmem (k / 2)).mp ⟨k, .inl hk, rfl⟩ <;> omega
  · rintro rfl
    obtain ⟨k, hk | rfl, hkj⟩ := (hmem (last / 2 - 1)).mpr (.inl rfl)
    · exact ⟨k, hk, hkj⟩
    · omega

/-- The verifier gets from the known nodes of a level to the top with the steps of the prover. -/
def Climbs (nodes : List Bytes32) (known : List Nat) : Prop :=
  Leads (climb (nodes :: (levelsAbove nodes).value).dropLast known) (valuesAt nodes known)
    [top nodes]

/-- Known nodes of a level from which all levels above can be expressed. -/
structure Ready (nodes : List Bytes32) (known : List Nat) : Prop where
  ne_nil : known ≠ []
  pairwise : known.Pairwise (· < ·)
  inside : ∀ k ∈ known, k < nodes.length
  expressible : Expressible (nodes :: (levelsAbove nodes).value) known.toFinset

namespace Ready

theorem parents (h : Ready nodes known) (htwo : 1 < nodes.length) :
    Ready (parents nodes).value (parentsAt known) := by
  refine ⟨?_, pairwise_parentsAt known, lt_of_mem_parentsAt h.inside, ?_⟩
  · obtain ⟨i, hi⟩ := List.exists_mem_of_ne_nil known h.ne_nil
    exact List.ne_nil_of_mem (mem_parentsAt.mpr ⟨i, hi, rfl⟩)
  · rw [toFinset_parentsAt, ← levelsAbove_of_one_lt htwo]
    exact h.expressible.tail

theorem climbs_of_top (h : Ready nodes known) (hone : nodes.length ≤ 1) : Climbs nodes known := by
  obtain ⟨i, hi⟩ := List.exists_mem_of_ne_nil known h.ne_nil
  have hi' := h.inside i hi
  obtain ⟨y, rfl⟩ := List.length_eq_one_iff.mp (by omega : nodes.length = 1)
  have hknown : known = [0] := by
    refine List.Pairwise.eq_of_mem_iff h.pairwise (by simp) fun j => ?_
    rw [List.mem_singleton]
    constructor
    · intro hj
      simpa using h.inside j hj
    · rintro rfl
      rwa [Nat.lt_one_iff.mp hi'] at hi
  rw [Climbs, hknown, top_singleton, levelsAbove, dif_pos (by simp)]
  exact .nil

theorem climbs_of_neighbours (h : Ready nodes known) (htwo : 1 < nodes.length)
    (hpromoted : ¬ (nodes.length % 2 = 1 ∧ nodes.length - 1 ∈ known))
    (hnext : Climbs (Merkle.parents nodes).value (parentsAt known)) : Climbs nodes known := by
  have hsibling : ∀ k ∈ known, k < nodes.length ∧ sibling k < nodes.length := by
    intro k hk
    have hk' := h.inside k hk
    have hkn : nodes.length % 2 = 1 → k ≠ nodes.length - 1 :=
      fun hodd heq => hpromoted ⟨hodd, heq ▸ hk⟩
    unfold sibling
    split <;> omega
  have hlevel := leads_stepsOf h.pairwise hsibling []
  rw [List.append_nil, List.nil_append] at hlevel
  rw [Climbs, climb_of_one_lt htwo, top_of_one_lt htwo]
  exact hlevel.append hnext

theorem parents_getElem?_last {x : Bytes32} (hodd : nodes.length % 2 = 1)
    (hx : nodes[nodes.length - 1]? = some x) :
    (Merkle.parents nodes).value[(nodes.length - 1) / 2]? = some x := by
  refine parents_of_no_sibling hx (List.getElem?_eq_none_iff.mpr ?_)
  unfold sibling
  split <;> omega

theorem climbs_of_single (htwo : 1 < nodes.length) (hodd : nodes.length % 2 = 1)
    (hnext : Climbs (Merkle.parents nodes).value (parentsAt [nodes.length - 1])) :
    Climbs nodes [nodes.length - 1] := by
  obtain ⟨x, hx⟩ : ∃ x, nodes[nodes.length - 1]? = some x :=
    ⟨_, List.getElem?_eq_getElem (by omega)⟩
  have hlevel := leads_stepsOf_last .nil hodd hx (by simp)
  rw [Climbs, parentsAt_singleton, valuesAt_cons (parents_getElem?_last hodd hx)] at hnext
  rw [Climbs, climb_of_one_lt htwo, top_of_one_lt htwo, parentsAt_singleton]
  exact hlevel.append hnext

/-- Two levels at once: a last node that moves up and comes to stand in front of its neighbour, and
the step that takes both of them. -/
theorem climbs_of_pair (h : Ready nodes known) (hodd : nodes.length % 2 = 1)
    (hmem : nodes.length - 1 ∈ known) {j : Nat} (hj : j + 2 = (Merkle.parents nodes).value.length)
    (heven : j % 2 = 0) (hparents : parentsAt known = [j, j + 1])
    (hnext : Climbs (Merkle.parents (Merkle.parents nodes).value).value [j / 2]) :
    Climbs nodes known := by
  have hlast : (nodes.length - 1) / 2 = j + 1 := by
    rw [length_parents] at hj
    omega
  obtain ⟨init, rfl, hinit, hlt⟩ := exists_eq_append_last h.pairwise hmem fun k hk => by
    have := h.inside k hk
    omega
  obtain ⟨x, hx⟩ : ∃ x, nodes[nodes.length - 1]? = some x :=
    ⟨_, List.getElem?_eq_getElem (by omega)⟩
  obtain ⟨y, hy⟩ : ∃ y, (Merkle.parents nodes).value[j]? = some y :=
    ⟨_, List.getElem?_eq_getElem (by omega)⟩
  have hup := parents_getElem?_last hodd hx
  rw [hlast] at hup
  have hother : parentsAt init = [j] := by
    have hinit' := parentsAt_init (by omega) (by omega) hlt (by rwa [hlast, Nat.add_sub_cancel])
    rwa [hlast, Nat.add_sub_cancel] at hinit'
  have hlevel := leads_stepsOf_last hinit hodd hx hlt
  rw [hother, valuesAt_cons hy] at hlevel
  rw [Climbs, climb_of_one_lt (by omega), top_of_one_lt (by omega), hparents,
    climb_of_one_lt (by omega), top_of_one_lt (by omega), parentsAt_pair heven]
  exact hlevel.append ((leads_stepsOf_turned heven hy hup).append hnext)

theorem climbs (h : Ready nodes known) : Climbs nodes known := by
  induction hn : nodes.length using Nat.strong_induction_on generalizing nodes known with
  | _ n ih =>
    subst hn
    by_cases hone : nodes.length ≤ 1
    · exact h.climbs_of_top hone
    have htwo : 1 < nodes.length := by omega
    have hlength := length_parents nodes
    have hparents := h.parents htwo
    have hnext := ih _ (by omega) hparents rfl
    by_cases hpromoted : nodes.length % 2 = 1 ∧ nodes.length - 1 ∈ known
    · obtain ⟨hodd, hmem⟩ := hpromoted
      have habove : (nodes :: (levelsAbove nodes).value)[0 + 1]? =
          some (Merkle.parents nodes).value := by
        rw [levelsAbove_of_one_lt htwo]
        rfl
      have hmem' : nodes.length - 1 ∈ ancestors known.toFinset 0 := by
        rwa [ancestors_zero, List.mem_toFinset]
      obtain hsingle | ⟨heven, hpair⟩ := h.expressible 0 nodes _ rfl habove hodd hmem'
      · rw [ancestors_zero] at hsingle
        obtain rfl : known = [nodes.length - 1] := by
          refine List.Pairwise.eq_of_mem_iff h.pairwise (by simp) fun j => ?_
          rw [← List.mem_toFinset, hsingle, Finset.mem_singleton, List.mem_singleton]
        exact climbs_of_single htwo hodd hnext
      · obtain ⟨j, hj⟩ : ∃ j, j + 2 = (Merkle.parents nodes).value.length :=
          ⟨(Merkle.parents nodes).value.length - 2, by omega⟩
        rw [← ancestors_image, ancestors_zero, ← toFinset_parentsAt, ← hj, Nat.add_sub_cancel,
          show j + 2 - 1 = j + 1 by omega] at hpair
        have hboth := eq_pair_of_toFinset hparents.pairwise (Nat.lt_succ_self j) hpair
        have hfurther := hparents.parents (by omega)
        rw [hboth, parentsAt_pair (by omega)] at hfurther
        have hlength' := length_parents (Merkle.parents nodes).value
        exact h.climbs_of_pair hodd hmem hj (by omega) hboth (ih _ (by omega) hfurther rfl)
    · exact h.climbs_of_neighbours htwo hpromoted hnext

theorem length_valuesAt (h : Ready nodes known) : (valuesAt nodes known).length = known.length := by
  rw [valuesAt, List.length_filterMap_eq_countP, List.countP_eq_length]
  intro k hk
  rw [List.getElem?_eq_getElem (h.inside k hk)]
  rfl

theorem length_hashes_climb (hks : known.Pairwise (· < ·))
    (hinside : ∀ k ∈ known, k < nodes.length) :
    ((climb (nodes :: (levelsAbove nodes).value).dropLast known).filterMap Step.hash?).length =
      ∑ l ∈ Finset.range (levelsAbove nodes).value.length,
        (lacking ((nodes :: (levelsAbove nodes).value).getD l []).length
          (ancestors known.toFinset l)).card := by
  induction hn : nodes.length using Nat.strong_induction_on generalizing nodes known with
  | _ n ih =>
    subst hn
    by_cases hone : nodes.length ≤ 1
    · rw [levelsAbove, dif_pos hone]
      rfl
    have htwo : 1 < nodes.length := by omega
    have hlength := length_parents nodes
    have hnext := ih _ (by omega) (pairwise_parentsAt known) (lt_of_mem_parentsAt hinside) rfl
    rw [climb_of_one_lt htwo, List.filterMap_append, List.length_append, hnext,
      length_hashes_stepsOf hks hinside, levelsAbove_of_one_lt htwo, List.length_cons,
      Finset.sum_range_succ', toFinset_parentsAt, Nat.add_comm]
    simp only [ancestors_image, ancestors_zero, List.getD_cons_succ, List.getD_cons_zero]

/-- One step less than known nodes takes both of its nodes from the queue. -/
theorem length_climb (h : Ready nodes known) :
    (climb (nodes :: (levelsAbove nodes).value).dropLast known).length =
      hashSteps (nodes :: (levelsAbove nodes).value) known.toFinset := by
  have hcard : known.toFinset.card = known.length :=
    List.toFinset_card_of_nodup h.pairwise.nodup
  obtain ⟨hqueue, hproofs, -⟩ := lengths_of_advance (h.climbs 0 0 [])
  rw [h.length_valuesAt, List.length_singleton] at hqueue
  rw [List.append_nil, List.length_nil, length_hashes_climb h.pairwise h.inside] at hproofs
  rw [hashSteps, hcard, List.length_cons, Nat.add_sub_cancel, ← hproofs,
    ← List.length_map (f := Step.isQueued), ← List.count_true_add_count_false]
  omega

end Ready

end Tree

theorem testBit_ofBits (bits : List Bool) (i : Nat) :
    (ofBits bits).testBit i = (bits[i]?).getD false := by
  induction bits generalizing i with
  | nil => simp [ofBits]
  | cons b bits ih =>
    rw [ofBits]
    cases i with
    | zero => cases b <;> simp [Nat.add_mod]
    | succ i =>
      have hhalf : (b.toNat + 2 * ofBits bits) / 2 = ofBits bits := by
        have := b.toNat_lt
        omega
      rw [Nat.testBit_succ, hhalf, ih, List.getElem?_cons_succ]

namespace Multiproof

theorem flagList_ofSteps {steps : List Step} {leaves : List Bytes32}
    (hlength : leaves.length + (ofSteps steps).proofs.length - 1 = steps.length)
    (hsize : steps.length ≤ maxSteps) :
    (ofSteps steps).flagList leaves = steps.map Step.isQueued := by
  refine List.ext_getElem ?_ fun i hi hi' => ?_
  · rw [length_flagList, hlength, List.length_map]
  · have hsmall : i < 256 := by
      rw [List.length_map] at hi'
      exact Nat.lt_of_lt_of_le hi' hsize
    simp only [flagList, ofSteps, List.getElem_map, List.getElem_range, BitVec.getLsbD_ofNat,
      hsmall, decide_true, Bool.true_and, testBit_ofBits]
    rw [List.getElem?_eq_getElem hi', Option.getD_some, List.getElem_map]

theorem rootOf_ofSteps {nodes : List Bytes32} {known : List Nat} (h : Tree.Ready nodes known)
    (hsize : Tree.hashSteps (nodes :: (levelsAbove nodes).value) known.toFinset ≤ maxSteps) :
    ((ofSteps (Tree.climb (nodes :: (levelsAbove nodes).value).dropLast known)).rootOf
      (Tree.valuesAt nodes known)).result = .ok (top nodes) := by
  have hclimbs := h.climbs
  rw [← h.length_climb] at hsize
  unfold Tree.Climbs at hclimbs
  generalize Tree.climb (nodes :: (levelsAbove nodes).value).dropLast known = steps
    at hclimbs hsize ⊢
  have hrun := hclimbs 0 (ofSteps steps).proofs.length []
  rw [List.append_nil] at hrun
  obtain ⟨hqueue, hproofs, -⟩ := lengths_of_advance hrun
  have hcounts := List.count_true_add_count_false (steps.map Step.isQueued)
  rw [List.length_map] at hcounts
  rw [List.length_singleton] at hqueue
  rw [List.length_nil, Nat.zero_add] at hproofs
  have hlength : (Tree.valuesAt nodes known).length + (ofSteps steps).proofs.length - 1 =
      steps.length := by
    change _ + List.length (List.filterMap _ _) - 1 = _
    omega
  have hne : Tree.valuesAt nodes known ≠ [] := by
    refine List.ne_nil_of_length_pos ?_
    rw [h.length_valuesAt]
    exact List.length_pos_of_ne_nil h.ne_nil
  rw [← flagList_ofSteps hlength hsize] at hrun
  unfold maxSteps at hsize
  obtain ⟨root, hleft, hroot⟩ := rootOf_result_of_advance hne (by omega) hrun
  obtain rfl : top nodes = root := by simpa using hleft
  exact hroot

end Multiproof

namespace Tree

theorem expressible_of_pow {nodes : List Bytes32} {k : Nat} (h : nodes.length = 2 ^ k)
    (positions : Finset Nat) : Expressible (nodes :: (levelsAbove nodes).value) positions := by
  induction k generalizing nodes positions with
  | zero =>
    intro l level above _ habove
    rw [levelsAbove, dif_pos (by omega)] at habove
    simp at habove
  | succ k ih =>
    have htwo : 1 < nodes.length := by
      rw [h]
      exact Nat.one_lt_two_pow (Nat.succ_ne_zero k)
    have hhalf : (parents nodes).value.length = 2 ^ k := by
      rw [length_parents, h, pow_succ]
      omega
    rw [levelsAbove_of_one_lt htwo]
    intro l level above hlevel habove hodd hmem
    cases l with
    | zero =>
      obtain rfl : nodes = level := by simpa using hlevel
      rw [h, pow_succ] at hodd
      omega
    | succ l =>
      rw [← ancestors_image] at hmem ⊢
      rw [← ancestors_image]
      exact ih hhalf _ l level above hlevel habove hodd hmem

theorem expressible_singleton (levels : List (List Bytes32)) (i : Nat) :
    Expressible levels {i} := by
  intro l level above _ _ _ hmem
  rw [ancestors, Finset.image_singleton, Finset.mem_singleton] at hmem
  rw [ancestors, Finset.image_singleton, hmem]
  exact .inl rfl

theorem ofList_eq_sort (positions : List Nat) :
    Ascending.ofList id positions = positions.toFinset.sort := by
  refine List.Pairwise.eq_of_mem_iff (Ascending.pairwise_ofList id positions)
    (Finset.sortedLT_sort positions.toFinset).pairwise fun i => ?_
  rw [Ascending.mem_ofList_id, Finset.mem_sort, List.mem_toFinset]

theorem toFinset_ofList (positions : List Nat) :
    (Ascending.ofList id positions).toFinset = positions.toFinset := by
  rw [ofList_eq_sort, Finset.sort_toFinset]

theorem ready_ofList {t : Tree} {positions : List Nat} (hne : positions ≠ [])
    (hinside : ∀ i ∈ positions, i < t.leaves.length)
    (hexpressible : Expressible t.levels positions.toFinset) :
    Ready t.leaves (Ascending.ofList id positions) := by
  obtain ⟨i, hi⟩ := List.exists_mem_of_ne_nil positions hne
  refine ⟨List.ne_nil_of_mem (Ascending.mem_ofList_id.mpr hi), Ascending.pairwise_ofList id _,
    fun i hi => hinside i (Ascending.mem_ofList_id.mp hi), ?_⟩
  rwa [toFinset_ofList, ← t.above_eq]

theorem levels_eq (t : Tree) : t.levels = t.leaves :: (levelsAbove t.leaves).value := by
  rw [levels, t.above_eq]

/-- The prover gives out its steps as a proof if they are not too many and lead to the root. -/
theorem prove_eq_ok {t : Tree} {positions : List Nat}
    (hne : Ascending.ofList id positions ≠ [])
    (hinside : ∀ i ∈ Ascending.ofList id positions, i < t.leaves.length)
    (hsize : (climb t.levels.dropLast (Ascending.ofList id positions)).length ≤ maxSteps)
    (hroot : ((Multiproof.ofSteps (climb t.levels.dropLast
      (Ascending.ofList id positions))).rootOf
        (valuesAt t.leaves (Ascending.ofList id positions))).result = .ok t.root) :
    (t.prove positions).result =
      .ok (Multiproof.ofSteps (climb t.levels.dropLast (Ascending.ofList id positions))) := by
  have hfind : (Ascending.ofList id positions).find? (t.leaves.length ≤ ·) = none := by
    rw [List.find?_eq_none]
    intro k hk
    simpa using hinside k hk
  unfold prove
  simp only [hfind]
  rw [if_neg hne, if_neg (Nat.not_lt.mpr hsize)]
  exact Hashing.result_bind_eq_ok_iff.mpr ⟨t.root, hroot, by simp⟩

theorem hashSteps_singleton {t : Tree} {i : Nat} (hi : i < t.leaves.length)
    (hleaves : t.leaves.length ≤ 2 ^ maxSteps) : hashSteps t.levels {i} ≤ maxSteps := by
  have hinside : ∀ k ∈ [i], k < t.leaves.length := by simpa using hi
  have hready := ready_ofList (List.cons_ne_nil i []) hinside (expressible_singleton _ i)
  obtain ⟨hashes, hsteps, hlength, -⟩ := exists_path (List.getElem?_eq_getElem hi)
  have hcount := hready.length_climb
  rw [show Ascending.ofList id [i] = [i] from rfl, hsteps, List.length_map, ← levels_eq] at hcount
  exact hcount ▸ hlength maxSteps hleaves

/-- The prover finds a proof for leaves from which all levels can be expressed, if the steps are not
too many for the verifier, and the verifier is led to the root by it. Trees of as many leaves as a
power of two have no last node that moves up, and a single leaf never waits for another. -/
theorem exists_prove_of_expressible (t : Tree) (positions : List Nat) (hne : positions ≠ [])
    (hinside : ∀ i ∈ positions, i < t.leaves.length) :
    (Expressible t.levels positions.toFinset → hashSteps t.levels positions.toFinset ≤ 256 →
      ∃ proof, (t.prove positions).result = .ok proof ∧
        (proof.rootOf (positions.toFinset.sort.filterMap (t.leaves[·]?))).result = .ok t.root) ∧
    (∀ k, t.leaves.length = 2 ^ k → Expressible t.levels positions.toFinset) ∧
    (∀ i, positions.toFinset = {i} → Expressible t.levels positions.toFinset ∧
      (t.leaves.length ≤ 2 ^ 256 → hashSteps t.levels positions.toFinset ≤ 256)) := by
  refine ⟨fun hexpressible hsize => ?_, fun k hk => ?_, fun i hi => ?_⟩
  · have hready := ready_ofList hne hinside hexpressible
    rw [levels_eq, ← toFinset_ofList] at hsize
    have hroot := Multiproof.rootOf_ofSteps hready hsize
    rw [← hready.length_climb] at hsize
    rw [← t.root_eq_top, ← levels_eq] at hroot
    rw [← levels_eq] at hsize
    rw [← ofList_eq_sort]
    exact ⟨_, prove_eq_ok hready.ne_nil hready.inside hsize hroot, hroot⟩
  · rw [levels_eq]
    exact expressible_of_pow hk _
  · have hmem : i ∈ positions := by
      rw [← List.mem_toFinset, hi]
      exact Finset.mem_singleton_self i
    rw [hi]
    exact ⟨expressible_singleton _ i, hashSteps_singleton (hinside i hmem)⟩

/-- The last of three leaves moves up, and is proven together with the first one: above them only
two nodes are left, and they are neighbours. -/
theorem promoted_of_three_proven :
    ∃ tree : Tree, (Tree.ofLeaves [.ofU256 1, .ofU256 2, .ofU256 3]).result = .ok tree ∧
      Expressible tree.levels {0, 2} ∧ hashSteps tree.levels {0, 2} = 2 ∧
      ∃ proof, (tree.prove [2, 0, 2]).result = .ok proof ∧
        (proof.rootOf [.ofU256 1, .ofU256 3]).result = .ok tree.root := by
  obtain ⟨tree, htree, hleaves, -⟩ := Tree.ofLeaves_eq
    (List.cons_ne_nil (Bytes32.ofU256 1) [.ofU256 2, .ofU256 3])
  have hlevels : tree.levels = [[.ofU256 1, .ofU256 2, .ofU256 3],
      [(node (.ofU256 1) (.ofU256 2)).value, .ofU256 3],
      [(node (node (.ofU256 1) (.ofU256 2)).value (.ofU256 3)).value]] := by
    rw [levels_eq, hleaves, levelsAbove_of_one_lt (by simp),
      levelsAbove_of_one_lt (by simp [parents]), levelsAbove, dif_pos (by simp [parents])]
    rfl
  have hexpressible : Expressible tree.levels {0, 2} := by
    rw [hlevels]
    intro l level above hlevel habove hodd _
    obtain _ | _ | l := l
    · obtain rfl := Option.some.inj hlevel
      obtain rfl := Option.some.inj habove
      exact .inr ⟨rfl, by decide⟩
    · obtain rfl := Option.some.inj hlevel
      cases hodd
    · cases habove
  have hsteps : hashSteps tree.levels {0, 2} = 2 := by
    rw [hlevels]
    rfl
  have hinside : ∀ i ∈ [2, 0, 2], i < tree.leaves.length := by
    rw [hleaves]
    decide
  obtain ⟨proof, hproof, hroot⟩ := (exists_prove_of_expressible tree [2, 0, 2] (by simp)
    hinside).1 hexpressible (le_of_eq_of_le hsteps (by decide))
  rw [hleaves, ← ofList_eq_sort] at hroot
  exact ⟨tree, htree, hexpressible, hsteps, proof, hproof, hroot⟩

end Tree

end CrossChain.Merkle
