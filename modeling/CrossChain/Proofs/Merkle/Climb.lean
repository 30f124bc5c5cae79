import CrossChain.Proofs.Ascending
import CrossChain.Proofs.Merkle.Acceptance
import CrossChain.Proofs.Merkle.Path
/-! One level of a multiproof. The steps of the prover, made by the verifier, turn the known nodes
of a level into their parents, in the same order; a last node without a neighbour is passed over,
and so it comes to stand in front of the parents of the others. -/
namespace CrossChain.Merkle

theorem Tree.sibling_sibling (i : Nat) : Tree.sibling (Tree.sibling i) = i := by
  unfold Tree.sibling
  split <;> split <;> omega

theorem Tree.sibling_div_two (i : Nat) : Tree.sibling i / 2 = i / 2 := by
  unfold Tree.sibling
  split <;> omega

namespace Tree

def parentsAt (known : List Nat) : List Nat := Ascending.ofList id (known.map (· / 2))

theorem mem_parentsAt {known : List Nat} {j : Nat} :
    j ∈ parentsAt known ↔ ∃ i ∈ known, i / 2 = j := by
  rw [parentsAt, Ascending.mem_ofList_id, List.mem_map]

theorem pairwise_parentsAt (known : List Nat) : (parentsAt known).Pairwise (· < ·) :=
  Ascending.pairwise_ofList id _

theorem parentsAt_singleton (i : Nat) : parentsAt [i] = [i / 2] := rfl

theorem parentsAt_cons_sibling (i : Nat) (known : List Nat) :
    parentsAt (i :: sibling i :: known) = parentsAt (i :: known) := by
  refine List.Pairwise.eq_of_mem_iff (pairwise_parentsAt _) (pairwise_parentsAt _) ?_
  intro j
  simp [mem_parentsAt, sibling_div_two]

theorem parentsAt_cons_of_lt {i : Nat} {known : List Nat} (h : ∀ k ∈ known, i / 2 < k / 2) :
    parentsAt (i :: known) = i / 2 :: parentsAt known := by
  refine List.Pairwise.eq_of_mem_iff (pairwise_parentsAt _) ?_ ?_
  · refine List.pairwise_cons.mpr ⟨fun j hj => ?_, pairwise_parentsAt _⟩
    obtain ⟨k, hk, rfl⟩ := mem_parentsAt.mp hj
    exact h k hk
  · intro j
    simp [mem_parentsAt, eq_comm]

/-- What comes after two neighbours, or after a node without its neighbour, has other parents. -/
theorem div_two_lt_of_pairwise {i : Nat} {known : List Nat}
    (hks : (i :: known).Pairwise (· < ·)) (hsibling : sibling i ∉ known) :
    ∀ k ∈ known, i / 2 < k / 2 := by
  intro k hk
  have hlt := (List.pairwise_cons.mp hks).1 k hk
  have hne : k ≠ sibling i := fun h => hsibling (h ▸ hk)
  unfold sibling at hne
  split at hne <;> omega

/-- The neighbour of a node is the next one or does not come after it. -/
theorem sibling_not_mem_of_ne {i j : Nat} {known : List Nat}
    (hks : (i :: j :: known).Pairwise (· < ·)) (hne : j ≠ sibling i) :
    sibling i ∉ j :: known := by
  intro h
  obtain ⟨hi, hrest⟩ := List.pairwise_cons.mp hks
  have hij := hi j List.mem_cons_self
  obtain h | h := List.mem_cons.mp h
  · exact hne h.symm
  · have hjs := (List.pairwise_cons.mp hrest).1 _ h
    unfold sibling at hjs
    split at hjs <;> omega

theorem not_mem_of_pairwise {i : Nat} {known : List Nat}
    (hks : (i :: known).Pairwise (· < ·)) : i ∉ known := fun h =>
  Nat.lt_irrefl i ((List.pairwise_cons.mp hks).1 i h)

variable {nodes : List Bytes32} {known : List Nat}

def valuesAt (nodes : List Bytes32) (known : List Nat) : List Bytes32 :=
  known.filterMap (nodes[·]?)

theorem valuesAt_cons {i : Nat} {x : Bytes32} (h : nodes[i]? = some x) (known : List Nat) :
    valuesAt nodes (i :: known) = x :: valuesAt nodes known := by
  simp [valuesAt, h]

end Tree

theorem result_advance_append (step count : Nat) (flags more : List Bool)
    (queue proofs : List Bytes32) :
    (advance step count (flags ++ more) queue proofs).result =
      (advance step count flags queue proofs).result >>= fun left =>
        (advance (step + flags.length) count more left.1 left.2).result := by
  fun_induction advance step count flags queue proofs with
  | case1 step queue proofs => rfl
  | case2 step flags a b queue proofs ih | case4 step flags b queue p proofs ih =>
    have hstep : step + (flags.length + 1) = step + 1 + flags.length := by omega
    rw [List.length_cons, hstep]
    exact ih _
  | case3 step queue proofs flags h =>
    obtain _ | ⟨a, _ | ⟨b, queue⟩⟩ := queue
    · rfl
    · rfl
    · exact (h a b queue rfl).elim
  | case5 => rw [List.cons_append, advance]; rfl
  | case6 step proofs flags h =>
    cases proofs with
    | nil => exact (h rfl).elim
    | cons p proofs => rfl

/-- The verifier that makes the steps turns one queue into another and takes from the proof just the
nodes that the steps supply. -/
def Leads (steps : List Step) (queue left : List Bytes32) : Prop :=
  ∀ step count proofs, (advance step count (steps.map Step.isQueued) queue
    (steps.filterMap Step.hash? ++ proofs)).result = .ok (left, proofs)

namespace Leads

variable {steps more : List Step} {queue left last : List Bytes32} {a b p : Bytes32}

theorem nil : Leads [] queue queue := fun _ _ _ => rfl

theorem queued (h : Leads steps (queue ++ [(node a b).value]) left) :
    Leads (.queued :: steps) (a :: b :: queue) left := fun step => h (step + 1)

theorem supplied (h : Leads steps (queue ++ [(node p b).value]) left) :
    Leads (.supplied p :: steps) (b :: queue) left := fun step => h (step + 1)

theorem append (h : Leads steps queue left) (hmore : Leads more left last) :
    Leads (steps ++ more) queue last := by
  intro step count proofs
  rw [List.map_append, List.filterMap_append, List.append_assoc, result_advance_append, h]
  exact hmore _ count proofs

end Leads

namespace Tree

variable {nodes : List Bytes32} {known : List Nat}

/-- The steps of a level on which every known node has a neighbour. -/
theorem leads_stepsOf (hks : known.Pairwise (· < ·))
    (hinside : ∀ k ∈ known, k < nodes.length ∧ sibling k < nodes.length) (queue : List Bytes32) :
    Leads (stepsOf nodes known) (valuesAt nodes known ++ queue)
      (queue ++ valuesAt (parents nodes).value (parentsAt known)) := by
  -- Along the known nodes; what a step computes goes to the end of the queue, so the queue behind
  -- them is left open.
  fun_induction stepsOf nodes known generalizing queue with
  | case1 =>
    rw [show parentsAt [] = [] from rfl, valuesAt, valuesAt, List.filterMap_nil, List.filterMap_nil,
      List.append_nil]
    exact .nil
  | case2 i =>
    obtain ⟨hi, hsibling⟩ := hinside i (by simp)
    have hx := List.getElem?_eq_getElem hi
    have hp := List.getElem?_eq_getElem hsibling
    rw [parentsAt_singleton, valuesAt_cons hx, valuesAt_cons (parents_of_sibling hx hp), hp]
    exact .supplied .nil
  | case3 i j known hnone ih =>
    have hsibling := (hinside i (by simp)).2
    rw [List.getElem?_eq_none_iff] at hnone
    omega
  | case4 i known hash hhash ih =>
    obtain ⟨x, hx⟩ : ∃ x, nodes[i]? = some x :=
      ⟨_, List.getElem?_eq_getElem (hinside i (by simp)).1⟩
    have hparent : (parents nodes).value[i / 2]? = some (node x hash).value := by
      rw [node_comm]
      exact parents_of_sibling hx hhash
    have hrest := (List.pairwise_cons.mp hks).2
    have hlt := div_two_lt_of_pairwise (hks.sublist (by simp)) (not_mem_of_pairwise hrest)
    rw [parentsAt_cons_sibling, parentsAt_cons_of_lt hlt, valuesAt_cons hx, valuesAt_cons hhash,
      valuesAt_cons hparent]
    have hnext := ih (List.pairwise_cons.mp hrest).2 (fun k hk => hinside k (by simp [hk]))
      (queue ++ [(node x hash).value])
    rw [← List.append_assoc, List.append_assoc queue] at hnext
    exact hnext.queued
  | case5 i j known hash hhash hne ih =>
    obtain ⟨x, hx⟩ : ∃ x, nodes[i]? = some x :=
      ⟨_, List.getElem?_eq_getElem (hinside i (by simp)).1⟩
    have hlt := div_two_lt_of_pairwise hks (sibling_not_mem_of_ne hks hne)
    rw [parentsAt_cons_of_lt hlt, valuesAt_cons hx, valuesAt_cons (parents_of_sibling hx hhash)]
    have hnext := ih (List.pairwise_cons.mp hks).2 (fun k hk => hinside k (by simp [hk]))
      (queue ++ [(node hash x).value])
    rw [← List.append_assoc, List.append_assoc queue] at hnext
    exact hnext.supplied

/-- A last node without a neighbour takes no step. -/
theorem stepsOf_append_last {last : Nat} (hlast : nodes.length ≤ sibling last)
    (hinside : ∀ k ∈ known, k < nodes.length) :
    stepsOf nodes (known ++ [last]) = stepsOf nodes known := by
  have hnone : nodes[sibling last]? = none := List.getElem?_eq_none_iff.mpr hlast
  fun_induction stepsOf nodes known with
  | case1 => simp [stepsOf, hnone]
  | case2 i =>
    have hne : last ≠ sibling i := by
      rintro rfl
      rw [sibling_sibling] at hlast
      exact Nat.not_lt.mpr hlast (hinside i (by simp))
    rw [List.singleton_append, stepsOf]
    cases hhash : nodes[sibling i]? with
    | none => simp [stepsOf, hnone]
    | some hash => simp [stepsOf, hnone, if_neg hne]
  | case3 i j known hhash ih =>
    rw [List.cons_append, List.cons_append, stepsOf, hhash]
    exact ih fun k hk => hinside k (by simp [hk])
  | case4 i known hash hhash ih =>
    rw [List.cons_append, List.cons_append, stepsOf, hhash]
    simp only [if_true]
    rw [ih fun k hk => hinside k (by simp [hk])]
  | case5 i j known hash hhash hne ih =>
    rw [List.cons_append, List.cons_append, stepsOf, hhash]
    simp only [if_neg hne]
    exact congrArg _ (ih fun k hk => hinside k (by simp [hk]))

/-- The known positions whose neighbour the prover has to supply. -/
def lacking (size : Nat) (known : Finset Nat) : Finset Nat :=
  known.filter fun i => sibling i < size ∧ sibling i ∉ known

theorem sibling_ne (i : Nat) : sibling i ≠ i := by
  unfold sibling
  split <;> omega

theorem lacking_insert {size i : Nat} {known : Finset Nat} (hsibling : sibling i ∉ known) :
    lacking size (insert i known) =
      if sibling i < size then insert i (lacking size known) else lacking size known := by
  have hother : ∀ k ∈ known, sibling k ≠ i := by
    rintro k hk rfl
    rw [sibling_sibling] at hsibling
    exact hsibling hk
  split
  all_goals
    ext k
    simp only [lacking, Finset.mem_filter, Finset.mem_insert, not_or]
    constructor
  · rintro ⟨rfl | hk, hsize, -, hnot⟩
    · exact .inl rfl
    · exact .inr ⟨hk, hsize, hnot⟩
  · rintro (rfl | ⟨hk, hsize, hnot⟩)
    · exact ⟨.inl rfl, by assumption, sibling_ne k, hsibling⟩
    · exact ⟨.inr hk, hsize, hother k hk, hnot⟩
  · rintro ⟨rfl | hk, hsize, -, hnot⟩
    · contradiction
    · exact ⟨hk, hsize, hnot⟩
  · rintro ⟨hk, hsize, hnot⟩
    exact ⟨.inr hk, hsize, hother k hk, hnot⟩

theorem lacking_insert_sibling {size i : Nat} {known : Finset Nat} (hi : i ∉ known)
    (hsibling : sibling i ∉ known) :
    lacking size (insert i (insert (sibling i) known)) = lacking size known := by
  ext k
  simp only [lacking, Finset.mem_filter, Finset.mem_insert, not_or]
  constructor
  · rintro ⟨rfl | rfl | hk, hsize, hne, hnot⟩
    · exact absurd rfl hnot.1
    · exact absurd (sibling_sibling i) hne
    · exact ⟨hk, hsize, hnot.2⟩
  · rintro ⟨hk, hsize, hnot⟩
    refine ⟨.inr (.inr hk), hsize, ?_, ?_, hnot⟩
    · rintro rfl
      rw [sibling_sibling] at hsibling
      exact hsibling hk
    · intro h
      have hki : k = i := by rw [← sibling_sibling k, h, sibling_sibling]
      exact hi (hki ▸ hk)

/-- A level takes a supplied node for each known one that lacks its neighbour. -/
theorem length_hashes_stepsOf (hks : known.Pairwise (· < ·))
    (hinside : ∀ k ∈ known, k < nodes.length) :
    ((stepsOf nodes known).filterMap Step.hash?).length =
      (lacking nodes.length known.toFinset).card := by
  fun_induction stepsOf nodes known with
  | case1 => rfl
  | case2 i =>
    rw [List.toFinset_cons, lacking_insert (by simp)]
    cases hhash : nodes[sibling i]? with
    | none =>
      rw [List.getElem?_eq_none_iff] at hhash
      rw [if_neg (by omega)]
      rfl
    | some hash =>
      rw [if_pos (List.getElem?_eq_some_iff.mp hhash).1]
      rfl
  | case3 i j known hhash ih =>
    rw [List.getElem?_eq_none_iff] at hhash
    have hnotmem : sibling i ∉ (j :: known).toFinset := fun h =>
      Nat.not_lt.mpr hhash (hinside _ (List.mem_cons_of_mem i (List.mem_toFinset.mp h)))
    rw [ih (List.pairwise_cons.mp hks).2 fun k hk => hinside k (by simp [hk]),
      List.toFinset_cons (a := i), lacking_insert hnotmem, if_neg (by omega)]
  | case4 i known hash hhash ih =>
    have hrest := (List.pairwise_cons.mp hks).2
    have hi := not_mem_of_pairwise (hks.sublist (by simp) : (i :: known).Pairwise (· < ·))
    rw [List.toFinset_cons, List.toFinset_cons, lacking_insert_sibling (by simpa using hi)
      (by simpa using not_mem_of_pairwise hrest),
      ← ih (List.pairwise_cons.mp hrest).2 fun k hk => hinside k (by simp [hk])]
    rfl
  | case5 i j known hash hhash hne ih =>
    have hi := not_mem_of_pairwise hks
    rw [List.toFinset_cons (a := i),
      lacking_insert (by simpa using sibling_not_mem_of_ne hks hne),
      if_pos (List.getElem?_eq_some_iff.mp hhash).1, Finset.card_insert_of_notMem,
      ← ih (List.pairwise_cons.mp hks).2 fun k hk => hinside k (by simp [hk])]
    · rfl
    · intro h
      exact hi (List.mem_toFinset.mp (Finset.mem_of_mem_filter i h))

end Tree

end CrossChain.Merkle
