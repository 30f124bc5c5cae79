import CrossChain.Proofs.Merkle.Derivation
/-! Which runs of the verifier come to an end. A step shortens the queue by one node if its flag is
set and the proof by one node if it is not, so it is the number of set flags that decides, and not
their order. A run that makes all its steps leaves nothing over. -/
namespace CrossChain.Merkle

/-- Makes the steps of the given flags, and gives what is left of the queue and of the proof. -/
def advance (step count : Nat) : List Bool → (queue proofs : List Bytes32) →
    Hashing ProofFault (List Bytes32 × List Bytes32)
  | [], queue, proofs => pure (queue, proofs)
  | true :: flags, a :: b :: queue, proofs => do
    let parent ← node a b
    advance (step + 1) count flags (queue ++ [parent]) proofs
  | true :: _, _, _ => throw .nothingToRead
  | false :: flags, b :: queue, p :: proofs => do
    let parent ← node p b
    advance (step + 1) count flags (queue ++ [parent]) proofs
  | false :: _, _, [] => throw (.tooFewProofs step count)
  | false :: _, [], _ => throw .nothingToRead

def finish : List Bytes32 × List Bytes32 → Hashing ProofFault Bytes32
  | ([root], []) => pure root
  | _ => throw .leftover

theorem replay_eq_advance (step count : Nat) (flags : List Bool) (queue proofs : List Bytes32) :
    replay step count flags queue proofs = advance step count flags queue proofs >>= finish := by
  fun_induction replay step count flags queue proofs with
  | case1 => rfl
  | case2 step queue proofs h =>
    obtain _ | ⟨root, _ | ⟨next, queue⟩⟩ := queue
    · rfl
    · cases proofs with
      | nil => exact absurd rfl (h root rfl)
      | cons p proofs => rfl
    · rfl
  | case3 step flags a b queue proofs ih => simp [advance, ih]
  | case4 step queue proofs flags h =>
    obtain _ | ⟨a, _ | ⟨b, queue⟩⟩ := queue
    · rfl
    · rfl
    · exact (h a b queue rfl).elim
  | case5 step flags b queue p proofs ih => simp [advance, ih]
  | case6 => rw [advance]; rfl
  | case7 step proofs flags h =>
    cases proofs with
    | nil => exact (h rfl).elim
    | cons p proofs => rfl

variable {step count : Nat} {flags : List Bool} {queue proofs rest unused : List Bytes32}

theorem lengths_of_advance
    (h : (advance step count flags queue proofs).result = .ok (rest, unused)) :
    rest.length + flags.count true = queue.length ∧
      unused.length + flags.count false = proofs.length ∧ (queue ≠ [] → rest ≠ []) := by
  -- Each step puts one node in, and takes two from the queue or one from there and one from the
  -- proof.
  fun_induction advance step count flags queue proofs with
  | case1 step queue proofs =>
    cases h
    simp
  | case2 step flags a b queue proofs ih =>
    obtain ⟨hrest, hunused, hne⟩ := ih _ h
    simp only [List.length_append, List.length_cons, List.length_nil] at hrest
    exact ⟨by simp; omega, by simpa using hunused, fun _ => hne (by simp)⟩
  | case4 step flags b queue p proofs ih =>
    obtain ⟨hrest, hunused, hne⟩ := ih _ h
    simp only [List.length_append, List.length_cons, List.length_nil] at hrest
    exact ⟨by simp; omega, by simp; omega, fun _ => hne (by simp)⟩
  | case3 | case5 | case6 => cases h

theorem exists_advance (hqueue : flags.count true < queue.length)
    (hproofs : flags.count false ≤ proofs.length) :
    ∃ left, (advance step count flags queue proofs).result = .ok left := by
  fun_induction advance step count flags queue proofs with
  | case1 step queue proofs => exact ⟨_, rfl⟩
  | case2 step flags a b queue proofs ih =>
    refine ih _ ?_ ?_
    · simp at hqueue ⊢
      omega
    · simpa using hproofs
  | case3 step queue proofs flags h =>
    match queue, h with
    | [], _ => simp at hqueue
    | [_], _ => simp at hqueue
    | a :: b :: queue, h => exact (h a b queue rfl).elim
  | case4 step flags b queue p proofs ih =>
    refine ih _ ?_ ?_
    · simp at hqueue ⊢
      omega
    · simpa using hproofs
  | case5 => simp at hproofs
  | case6 => simp at hqueue

theorem failsOnly_advance :
    FailsOnly (fun e => e = .nothingToRead ∨
        ∃ i, step ≤ i ∧ i < step + flags.length ∧ e = .tooFewProofs i count)
      (advance step count flags queue proofs).result := by
  fun_induction advance step count flags queue proofs with
  | case1 => exact .ok _
  | case2 step flags a b queue proofs ih | case4 step flags b queue p proofs ih =>
    intro e h
    obtain rfl | ⟨i, hstep, hi, rfl⟩ := ih _ e h
    · exact .inl rfl
    · refine .inr ⟨i, by omega, ?_, rfl⟩
      rw [List.length_cons]
      omega
  | case3 | case6 => exact .error (.inl rfl)
  | case5 step flags queue =>
    refine .error (.inr ⟨step, le_rfl, ?_, rfl⟩)
    rw [List.length_cons]
    omega

/-- A run with as many flags as leaves and proof call for uses both up. -/
theorem eq_singleton_of_advance (hne : queue ≠ [])
    (hflags : flags.length = queue.length + proofs.length - 1)
    (h : (advance step count flags queue proofs).result = .ok (rest, unused)) :
    ∃ root, rest = [root] ∧ unused = [] := by
  obtain ⟨hrest, hunused, hkept⟩ := lengths_of_advance h
  have hpos := List.length_pos_of_ne_nil hne
  have hleft := List.length_pos_of_ne_nil (hkept hne)
  have hcounts := List.count_true_add_count_false flags
  obtain ⟨root, rfl⟩ := List.length_eq_one_iff.mp (by omega : rest.length = 1)
  exact ⟨root, rfl, List.length_eq_zero_iff.mp (by omega)⟩

theorem Derivation.length_inputs (d : Derivation) :
    d.inputs.length + 1 = d.leaves.length + d.outsiders.length := by
  induction d with
  | leaf _ => rfl
  | outside _ => rfl
  | parent left right ihl ihr =>
    simp only [inputs, leaves, outsiders, List.length_cons, List.length_append]
    omega

namespace Multiproof

/-- The flags of the steps that use up the leaves and the proof. -/
def flagList (proof : Multiproof) (leaves : List Bytes32) : List Bool :=
  (List.range (leaves.length + proof.proofs.length - 1)).map proof.flags.getLsbD

/-- Each leaf and each node of the proof goes into the root once, and so does the hash of each step
but the last one, which is the root. -/
def UsesAllOnce (proof : Multiproof) (leaves : List Bytes32) (root : Bytes32) : Prop :=
  ∃ d : Derivation, d.hash = root ∧ d.leaves.Perm leaves ∧ d.outsiders.Perm proof.proofs ∧
    d.inputs.length = leaves.length + proof.proofs.length - 1

variable {proof : Multiproof} {leaves : List Bytes32} {root : Bytes32}

theorem length_flagList :
    (proof.flagList leaves).length = leaves.length + proof.proofs.length - 1 := by
  simp [flagList]

theorem rootOf_eq_advance (hne : leaves ≠ []) (hsize : leaves.length + proof.proofs.length ≤ 257) :
    proof.rootOf leaves =
      advance 0 proof.proofs.length (proof.flagList leaves) leaves proof.proofs >>= finish := by
  have hsteps : ¬ maxSteps < leaves.length + proof.proofs.length - 1 := by
    unfold maxSteps
    omega
  rw [← replay_eq_advance, rootOf, if_neg hne, if_neg hsteps]
  rfl

theorem result_rootOf_nil : (proof.rootOf []).result = .error .noLeaves := rfl

theorem result_rootOf_of_lt (hne : leaves ≠ [])
    (hsize : 257 < leaves.length + proof.proofs.length) :
    (proof.rootOf leaves).result = .error (.tooLarge leaves.length proof.proofs.length) := by
  have hsteps : maxSteps < leaves.length + proof.proofs.length - 1 := by
    unfold maxSteps
    omega
  rw [rootOf, if_neg hne, if_pos hsteps]
  rfl

theorem rootOf_result_of_advance {left : List Bytes32 × List Bytes32} (hne : leaves ≠ [])
    (hsize : leaves.length + proof.proofs.length ≤ 257)
    (h : (advance 0 proof.proofs.length (proof.flagList leaves) leaves proof.proofs).result =
      .ok left) :
    ∃ root, left = ([root], []) ∧ (proof.rootOf leaves).result = .ok root := by
  obtain ⟨root, hrest, hunused⟩ := eq_singleton_of_advance hne length_flagList h
  obtain rfl : left = ([root], []) := Prod.ext hrest hunused
  refine ⟨root, rfl, ?_⟩
  rw [rootOf_eq_advance hne hsize, Hashing.result_bind, h]
  rfl

theorem usesAllOnce_of_rootOf (h : (proof.rootOf leaves).result = .ok root) :
    proof.UsesAllOnce leaves root := by
  obtain ⟨d, hhash, hleaves, houtsiders, -⟩ := Derivation.exists_of_rootOf h
  refine ⟨d, hhash, hleaves, houtsiders, ?_⟩
  rw [← hleaves.length_eq, ← houtsiders.length_eq, ← d.length_inputs, Nat.add_sub_cancel]

theorem count_true_flagList : (proof.flagList leaves).count true =
    (List.range (leaves.length + proof.proofs.length - 1)).countP proof.flags.getLsbD := by
  rw [flagList, List.count, List.countP_map]
  exact List.countP_congr fun i _ => by simp

/-- What has to hold of leaves and a proof for the verifier to find a root: its limit is kept, and
each set flag takes one leaf more out of the queue than it puts in, until one node is left. -/
theorem exists_root_iff : (∃ root, (proof.rootOf leaves).result = .ok root) ↔
    1 ≤ leaves.length ∧ leaves.length + proof.proofs.length ≤ 257 ∧
      (proof.flagList leaves).count true = leaves.length - 1 := by
  by_cases hne : leaves = []
  · subst hne
    exact iff_of_false (by simp [result_rootOf_nil]) (by simp)
  have hpos := List.length_pos_of_ne_nil hne
  by_cases hsize : 257 < leaves.length + proof.proofs.length
  · exact iff_of_false (by simp [result_rootOf_of_lt hne hsize]) (by omega)
  have hcounts := List.count_true_add_count_false (proof.flagList leaves)
  rw [length_flagList] at hcounts
  rw [rootOf_eq_advance hne (by omega)]
  constructor
  · rintro ⟨root, h⟩
    obtain ⟨⟨rest, unused⟩, h, -⟩ := Hashing.result_bind_eq_ok_iff.mp h
    obtain ⟨root, rfl, rfl⟩ := eq_singleton_of_advance hne length_flagList h
    obtain ⟨hrest, -, -⟩ := lengths_of_advance h
    rw [List.length_singleton] at hrest
    exact ⟨hpos, by omega, by omega⟩
  · rintro ⟨-, -, hcount⟩
    obtain ⟨left, h⟩ : ∃ left, (advance 0 proof.proofs.length (proof.flagList leaves) leaves
        proof.proofs).result = .ok left := exists_advance (by omega) (by omega)
    rw [← rootOf_eq_advance hne (by omega)]
    obtain ⟨root, -, hroot⟩ := rootOf_result_of_advance hne (by omega) h
    exact ⟨root, hroot⟩

theorem failsOnly_rootOf : FailsOnly (fun fault => fault = .noLeaves ∨
      fault = .tooLarge leaves.length proof.proofs.length ∨ fault = .nothingToRead ∨
      ∃ step < leaves.length + proof.proofs.length - 1,
        fault = .tooFewProofs step proof.proofs.length) (proof.rootOf leaves).result := by
  intro fault h
  by_cases hne : leaves = []
  · subst hne
    cases h
    exact .inl rfl
  by_cases hsize : 257 < leaves.length + proof.proofs.length
  · rw [result_rootOf_of_lt hne hsize] at h
    cases h
    exact .inr (.inl rfl)
  cases hrun :
    (advance 0 proof.proofs.length (proof.flagList leaves) leaves proof.proofs).result with
  | ok left =>
    obtain ⟨root, -, hroot⟩ := rootOf_result_of_advance hne (by omega) hrun
    rw [hroot] at h
    cases h
  | error e =>
    rw [rootOf_eq_advance hne (by omega), Hashing.result_bind, hrun] at h
    cases h
    obtain rfl | ⟨i, -, hi, rfl⟩ := failsOnly_advance _ hrun
    · exact .inr (.inr (.inl rfl))
    · rw [length_flagList, Nat.zero_add] at hi
      exact .inr (.inr (.inr ⟨i, hi, rfl⟩))

/-- Only the number of set flags decides on leaves and a proof. What is refused is refused for its
size or for a node that a step lacks, never for what the steps leave over: they leave nothing. -/
theorem rootOf_accepts_iff_count (proof : Multiproof) (leaves : List Bytes32) :
    ((∃ root, (proof.rootOf leaves).result = .ok root) ↔
      1 ≤ leaves.length ∧ leaves.length + proof.proofs.length ≤ 257 ∧
        (List.range (leaves.length + proof.proofs.length - 1)).countP proof.flags.getLsbD =
          leaves.length - 1) ∧
    (∀ root, (proof.rootOf leaves).result = .ok root →
      (List.range (leaves.length + proof.proofs.length - 1)).countP (!proof.flags.getLsbD ·) =
        proof.proofs.length ∧ proof.UsesAllOnce leaves root) ∧
    (∀ fault, (proof.rootOf leaves).result = .error fault → fault = .noLeaves ∨
      fault = .tooLarge leaves.length proof.proofs.length ∨ fault = .nothingToRead ∨
      ∃ step < leaves.length + proof.proofs.length - 1,
        fault = .tooFewProofs step proof.proofs.length) ∧
    (leaves ≠ [] → leaves.length + proof.proofs.length ≤ 257 → ∀ left,
      (advance 0 proof.proofs.length (proof.flagList leaves) leaves proof.proofs).result =
        .ok left → ∃ root, left = ([root], []) ∧ (proof.rootOf leaves).result = .ok root) := by
  refine ⟨?_, fun root h => ⟨?_, usesAllOnce_of_rootOf h⟩, failsOnly_rootOf,
    fun hne hsize left h => rootOf_result_of_advance hne hsize h⟩
  · rw [exists_root_iff, count_true_flagList]
  · obtain ⟨hpos, -, hcount⟩ := exists_root_iff.mp ⟨root, h⟩
    rw [count_true_flagList] at hcount
    have hcounts := List.length_eq_countP_add_countP proof.flags.getLsbD
      (l := List.range (leaves.length + proof.proofs.length - 1))
    rw [List.length_range, hcount] at hcounts
    have hcongr : (List.range (leaves.length + proof.proofs.length - 1)).countP
        (!proof.flags.getLsbD ·) = (List.range (leaves.length + proof.proofs.length - 1)).countP
        (fun i => decide ¬ proof.flags.getLsbD i = true) :=
      List.countP_congr fun i _ => by simp
    omega

/-- With two leaves and one node from outside, either step may be the one that takes both nodes from
the queue, but not none and not both. -/
theorem one_of_two_flags :
    (∃ root, (rootOf ⟨[.ofU256 3], 1⟩ [.ofU256 1, .ofU256 2]).result = .ok root ∧
      UsesAllOnce ⟨[.ofU256 3], 1⟩ [.ofU256 1, .ofU256 2] root) ∧
    (∃ root, (rootOf ⟨[.ofU256 3], 2⟩ [.ofU256 1, .ofU256 2]).result = .ok root) ∧
    (¬ ∃ root, (rootOf ⟨[.ofU256 3], 0⟩ [.ofU256 1, .ofU256 2]).result = .ok root) ∧
    ¬ ∃ root, (rootOf ⟨[.ofU256 3], 3⟩ [.ofU256 1, .ofU256 2]).result = .ok root := by
  have haccepts (flags : U256) := rootOf_accepts_iff_count ⟨[.ofU256 3], flags⟩
    [.ofU256 1, .ofU256 2]
  obtain ⟨root, hroot⟩ := (haccepts 1).1.mpr (by decide)
  exact ⟨⟨root, hroot, ((haccepts 1).2.1 root hroot).2⟩, (haccepts 2).1.mpr (by decide),
    mt (haccepts 0).1.mp (by decide), mt (haccepts 3).1.mp (by decide)⟩

end Multiproof

end CrossChain.Merkle
