import CrossChain.Proofs.Batch.Soundness
/-! What of a batch a bundle depends on: for each number the first message that counts and carries
it, and nothing else. Main statement: messages that do not count may be put in anywhere, messages
whose number is taken behind the others, and if no two messages compete for a number then all may
be put in any order. -/
namespace List

variable {α : Type} {p : α → Bool} {l : List α}

theorem find?_eq_some_iff_mem (h : ∀ a ∈ l, ∀ b ∈ l, p a → p b → a = b) {a : α} :
    l.find? p = some a ↔ a ∈ l ∧ p a := by
  constructor
  · exact fun ha => ⟨mem_of_find?_eq_some ha, find?_some ha⟩
  · rintro ⟨ha, hpa⟩
    obtain ⟨b, hb⟩ := Option.isSome_iff_exists.mp (find?_isSome.mpr ⟨a, ha, hpa⟩)
    rw [hb, h b (mem_of_find?_eq_some hb) a ha (find?_some hb) hpa]

/-- A list in which all but the items of a shorter one lack a property has the same items with the
property. -/
theorem Sublist.filter_eq [DecidableEq α] {wider : List α} (h : l.Sublist wider)
    (hlack : ∀ a ∈ wider.diff l, p a = false) : wider.filter p = l.filter p := by
  have hcount : ∀ a, (wider.filter p).count a = (l.filter p).count a := by
    intro a
    cases hpa : p a with
    | false => rw [count_eq_zero.mpr (by simp [hpa]), count_eq_zero.mpr (by simp [hpa])]
    | true =>
      rw [count_filter hpa, count_filter hpa]
      have hnone : (wider.diff l).count a = 0 :=
        count_eq_zero.mpr fun ha => by simp [hlack a ha] at hpa
      rw [count_diff] at hnone
      have := h.count_le a
      omega
  exact ((h.filter p).eq_of_length (perm_iff_count.mpr hcount).length_eq.symm).symm

end List

namespace CrossChain.Batch

variable {registry : Registry} {lane : Lane} {batch other : List Message}
  {targets : List Bytes32} {interval : Option Interval} {expectedRoot : Option Bytes32}

def firstCounted? (lane : Lane) (interval : Option Interval) (batch : List Message)
    (n : UInt64) : Option Message :=
  batch.find? fun m => counts lane interval m && m.header.sequenceNumber = n

theorem mem_select_iff_firstCounted? {m : Message} : m ∈ select lane interval batch ↔
    firstCounted? lane interval batch m.header.sequenceNumber = some m := by
  rw [select, Ascending.mem_ofList_iff, List.find?_filter, firstCounted?]
  simp [UInt64.toNat_inj]

/-- The chosen messages are the values of a map from numbers, by ascending number. -/
theorem select_eq_of_firstCounted?
    (h : ∀ n, firstCounted? lane interval batch n = firstCounted? lane interval other n) :
    select lane interval batch = select lane interval other := by
  refine Ascending.eq_of_mem_iff pairwise_select pairwise_select fun m => ?_
  rw [mem_select_iff_firstCounted?, mem_select_iff_firstCounted?, h]

theorem prove_eq_of_select_eq
    (h : select lane interval batch = select lane interval other) :
    prove registry lane batch targets interval expectedRoot =
      prove registry lane other targets interval expectedRoot := by
  simp only [prove, complete, h]

theorem firstCounted?_append_of_taken {extra : List Message}
    (h : ∀ m ∈ extra, ∃ a ∈ batch, counts lane interval a ∧
      a.header.sequenceNumber = m.header.sequenceNumber) (n : UInt64) :
    firstCounted? lane interval (batch ++ extra) n = firstCounted? lane interval batch n := by
  unfold firstCounted?
  rw [List.find?_append]
  cases hfirst : batch.find? fun m => counts lane interval m && m.header.sequenceNumber = n with
  | some a => rfl
  | none =>
    rw [Option.none_or, List.find?_eq_none]
    intro m hm hcounts
    obtain ⟨a, ha, hacounts, hnumber⟩ := h m hm
    rw [Bool.and_eq_true, decide_eq_true_eq] at hcounts
    exact List.find?_eq_none.mp hfirst a ha (by simp [hacounts, hnumber, hcounts.2])

theorem firstCounted?_perm (hperm : batch.Perm other)
    (h : ∀ a ∈ batch, ∀ b ∈ batch, counts lane interval a → counts lane interval b →
      a.header.sequenceNumber = b.header.sequenceNumber → a = b) (n : UInt64) :
    firstCounted? lane interval other n = firstCounted? lane interval batch n := by
  have hunique : ∀ a ∈ batch, ∀ b ∈ batch,
      (counts lane interval a && decide (a.header.sequenceNumber = n)) →
      (counts lane interval b && decide (b.header.sequenceNumber = n)) → a = b := by
    intro a ha b hb hacounts hbcounts
    simp only [Bool.and_eq_true, decide_eq_true_eq] at hacounts hbcounts
    exact h a ha b hb hacounts.1 hbcounts.1 (hacounts.2.trans hbcounts.2.symm)
  ext m
  rw [firstCounted?, firstCounted?, List.find?_eq_some_iff_mem hunique,
    List.find?_eq_some_iff_mem (fun a ha b hb => hunique a (hperm.mem_iff.mpr ha) b
      (hperm.mem_iff.mpr hb)), hperm.mem_iff]

/-- A bundle, or why there is none, depends on the first message that counts for each number, and
on nothing else of a batch. -/
theorem prove_eq_of_first_messages_eq (registry : Registry) (lane : Lane)
    (targets : List Bytes32) (interval : Option Interval) (expectedRoot : Option Bytes32) :
    (∀ batch other : List Message,
      (∀ n, firstCounted? lane interval batch n = firstCounted? lane interval other n) →
      prove registry lane batch targets interval expectedRoot =
        prove registry lane other targets interval expectedRoot) ∧
    (∀ batch wider : List Message, batch.Sublist wider →
      (∀ m ∈ wider.diff batch, counts lane interval m = false) →
      prove registry lane wider targets interval expectedRoot =
        prove registry lane batch targets interval expectedRoot) ∧
    (∀ batch extra : List Message,
      (∀ m ∈ extra, ∃ a ∈ batch, counts lane interval a ∧
        a.header.sequenceNumber = m.header.sequenceNumber) →
      prove registry lane (batch ++ extra) targets interval expectedRoot =
        prove registry lane batch targets interval expectedRoot) ∧
    (∀ batch other : List Message, batch.Perm other →
      (∀ a ∈ batch, ∀ b ∈ batch, counts lane interval a → counts lane interval b →
        a.header.sequenceNumber = b.header.sequenceNumber → a = b) →
      prove registry lane other targets interval expectedRoot =
        prove registry lane batch targets interval expectedRoot) := by
  refine ⟨?first, ?foreign, ?taken, ?reordered⟩
  case first =>
    intro batch other h
    exact prove_eq_of_select_eq (select_eq_of_firstCounted? h)
  case foreign =>
    intro batch wider hsub hforeign
    apply prove_eq_of_select_eq
    rw [select, select, hsub.filter_eq hforeign]
  case taken =>
    intro batch extra htaken
    exact prove_eq_of_select_eq (select_eq_of_firstCounted? (firstCounted?_append_of_taken htaken))
  case reordered =>
    intro batch other hperm hdistinct
    exact prove_eq_of_select_eq (select_eq_of_firstCounted? (firstCounted?_perm hperm hdistinct))

theorem firstCounted?_sampleBatch (n : UInt64) :
    firstCounted? Leaf.sampleLane none sampleBatch n =
      firstCounted? Leaf.sampleLane none [Leaf.sampleMessage 1, Leaf.sampleMessage 2] n := by
  have hone : counts Leaf.sampleLane none (Leaf.sampleMessage 1) = true := by decide
  have htwo : counts Leaf.sampleLane none (Leaf.sampleMessage 2) = true := by decide
  have hother : counts Leaf.sampleLane none { Leaf.sampleMessage 1 with version := .v1_5 } =
      false := by decide
  simp only [firstCounted?, sampleBatch, List.find?_cons, hone, htwo, hother]
  by_cases hn : (Leaf.sampleMessage 1).header.sequenceNumber = n
  · subst hn
    rfl
  · cases decide ((Leaf.sampleMessage 2).header.sequenceNumber = n) <;> simp [hn]

/-- The bundle of a message out of two, with the messages the other way round, with one of another
version in between, and with one of them once more at the end. -/
theorem sampleBundle_of_other_batches :
    ∀ batch ∈ [[Leaf.sampleMessage 1, Leaf.sampleMessage 2],
      [Leaf.sampleMessage 2, Leaf.sampleMessage 1],
      [Leaf.sampleMessage 2, { Leaf.sampleMessage 1 with version := .v1_5 }, Leaf.sampleMessage 1],
      [Leaf.sampleMessage 2, { Leaf.sampleMessage 1 with version := .v1_5 }, Leaf.sampleMessage 1]
        ++ [Leaf.sampleMessage 2]],
      (prove Registry.builtin Leaf.sampleLane batch [(Leaf.sampleMessage 1).header.id] none
        (some sampleBundle.root)).result = .ok sampleBundle := by
  obtain ⟨hfirst, hforeign, htaken, hreordered⟩ := prove_eq_of_first_messages_eq Registry.builtin
    Leaf.sampleLane [(Leaf.sampleMessage 1).header.id] none (some sampleBundle.root)
  have htwo := (hfirst _ _ firstCounted?_sampleBatch).symm
  have hturned := hreordered [Leaf.sampleMessage 1, Leaf.sampleMessage 2]
    [Leaf.sampleMessage 2, Leaf.sampleMessage 1] (.swap _ _ _) (by decide)
  have hmixed := hforeign [Leaf.sampleMessage 2, Leaf.sampleMessage 1]
    [Leaf.sampleMessage 2, { Leaf.sampleMessage 1 with version := .v1_5 }, Leaf.sampleMessage 1]
    (by simp) (by decide)
  have hagain := htaken
    [Leaf.sampleMessage 2, { Leaf.sampleMessage 1 with version := .v1_5 }, Leaf.sampleMessage 1]
    [Leaf.sampleMessage 2] (by decide)
  have hbundle : (prove Registry.builtin Leaf.sampleLane sampleBatch
      [(Leaf.sampleMessage 1).header.id] none (some sampleBundle.root)).result =
      .ok sampleBundle := proveOne_sampleBatch
  simp only [List.forall_mem_cons, List.not_mem_nil, false_imp_iff, implies_true, and_true]
  rw [hagain, hmixed, hturned, htwo]
  exact ⟨hbundle, hbundle, hbundle, hbundle⟩

end CrossChain.Batch
