import CrossChain.Proofs.Batch.Selection
import CrossChain.Proofs.Leaf.Preimage
import CrossChain.Registry.Builtin
/-! Bundles prove what they say. The messages of a batch that fill an interval are committed to
in order, and the bundle holds the wanted ones with a proof that leads to the committed root. -/
namespace List.Forall₂

variable {α β : Type} {R : α → β → Prop} {as : List α} {bs : List β}

theorem rel_getElem? (h : Forall₂ R as bs) (i : Nat) : Option.Rel R as[i]? bs[i]? := by
  induction h generalizing i with
  | nil => exact .none
  | cons hab _ ih =>
    cases i with
    | zero => exact .some hab
    | succ i => exact ih i

theorem filterMap_getElem? (h : Forall₂ R as bs) (positions : List Nat) :
    Forall₂ R (positions.filterMap (as[·]?)) (positions.filterMap (bs[·]?)) := by
  refine rel_filterMap (R := (· = ·)) ?_ (forall₂_refl positions)
  rintro i _ rfl
  exact h.rel_getElem? i

end List.Forall₂

namespace CrossChain

namespace Leaf

theorem hash_of_verified {registry : Registry} {lane : Lane} {m : Message} {leaf : Bytes32}
    (h : (verified registry lane m).result = .ok leaf) :
    (hash registry lane m).result = .ok leaf := by
  obtain ⟨scheme, -, h⟩ := Hashing.result_bind_eq_ok_iff.mp h
  obtain ⟨found, hfound, h⟩ := Hashing.result_bind_eq_ok_iff.mp h
  dsimp only at h
  split at h
  next => cases h
  next =>
    cases h
    exact hfound

end Leaf

namespace Merkle.Tree

theorem leaves_of_ofLeaves {leaves : List Bytes32} {t : Tree}
    (h : (ofLeaves leaves).result = .ok t) : t.leaves = leaves := by
  unfold ofLeaves at h
  split at h
  next => cases h
  next =>
    cases h
    rfl

/-- A proof that is given out leads from the chosen leaves to the root. -/
theorem rootOf_of_prove {t : Tree} {positions : List Nat} {proof : Multiproof}
    (h : (t.prove positions).result = .ok proof) :
    (proof.rootOf ((Ascending.ofList id positions).filterMap (t.leaves[·]?))).result =
      .ok t.root := by
  unfold prove at h
  dsimp only at h
  split at h
  next => cases h
  split at h
  next => cases h
  split at h
  next => cases h
  obtain ⟨found, hfound, h⟩ := Hashing.result_bind_eq_ok_iff.mp h
  split at h
  next => cases h
  next hroot =>
    cases h
    rw [hfound, not_not.mp hroot]

end Merkle.Tree

namespace Batch

variable {registry : Registry} {lane : Lane} {batch messages : List Message}
  {targets : List Bytes32} {interval : Option Interval} {expectedRoot : Option Bytes32}
  {bundle : Bundle}

theorem position_eq_ok {id : Bytes32} {i : Nat} (h : position messages id = .ok i) :
    ∃ m, messages[i]? = some m ∧ m.header.id = id := by
  unfold position at h
  split at h
  next j hj =>
    cases h
    obtain ⟨hlt, hid, -⟩ := List.findIdx?_eq_some_iff_getElem.mp hj
    exact ⟨messages[i], List.getElem?_eq_getElem hlt, of_decide_eq_true hid⟩
  next => cases h

theorem commit_eq_ok {tree : Merkle.Tree}
    (h : (commit registry lane messages expectedRoot).result = .ok tree) :
    ∃ leaves,
      List.Forall₂ (fun m leaf => (Leaf.verified registry lane m).result = .ok leaf)
        messages leaves ∧
      (Merkle.Tree.ofLeaves leaves).result = .ok tree ∧
      ∀ expected, expectedRoot = some expected → expected = tree.root := by
  obtain ⟨leaves, hleaves, h⟩ := Hashing.result_bind_eq_ok_iff.mp h
  obtain ⟨built, hbuilt, h⟩ := Hashing.result_bind_eq_ok_iff.mp h
  refine ⟨leaves, Hashing.result_mapM_eq_ok_iff.mp hleaves, ?_⟩
  dsimp only at h
  split at h
  next root =>
    split at h
    next => cases h
    next hroot =>
      cases h
      refine ⟨hbuilt, ?_⟩
      rintro _ ⟨⟩
      exact not_not.mp hroot
  next =>
    cases h
    exact ⟨hbuilt, by simp⟩

theorem prove_eq_ok (h : (prove registry lane batch targets interval expectedRoot).result =
    .ok bundle) : ∃ messages known tree,
      complete lane interval batch = .ok messages ∧
      positions messages targets = .ok known ∧
      (commit registry lane messages expectedRoot).result = .ok tree ∧
      (tree.prove known).result = .ok bundle.proof ∧
      bundle.messages = (Ascending.ofList id known).filterMap (messages[·]?) ∧
      bundle.root = tree.root := by
  obtain ⟨-, -, h⟩ := Hashing.result_bind_eq_ok_iff.mp h
  obtain ⟨messages, hmessages, h⟩ := Hashing.result_bind_eq_ok_iff.mp h
  obtain ⟨known, hknown, h⟩ := Hashing.result_bind_eq_ok_iff.mp h
  obtain ⟨tree, htree, h⟩ := Hashing.result_bind_eq_ok_iff.mp h
  obtain ⟨proof, hproof, h⟩ := Hashing.result_bind_eq_ok_iff.mp h
  cases h
  exact ⟨messages, known, tree, hmessages, hknown, htree,
    Hashing.result_adapt_eq_ok_iff.mp hproof, rfl, rfl⟩

theorem positions_eq_ok {known : List Nat} (h : positions messages targets = .ok known) :
    List.Forall₂ (fun id i => ∃ m, messages[i]? = some m ∧ m.header.id = id) targets known :=
  (Except.mapM_eq_ok_iff.mp h).imp fun _ _ => position_eq_ok

theorem Fills.committed {i : Interval} {leaves : List Bytes32} {P : Message → Bytes32 → Prop}
    (h : Fills lane batch i messages) (hleaves : List.Forall₂ P messages leaves) :
    List.Forall₂ (fun n leaf => ∃ m, first? lane batch n = some m ∧ P m leaf)
      i.numbers leaves := by
  rw [← h.numbers, List.forall₂_map_left_iff]
  have hboth := (List.forall₂_and_left _ _).mpr ⟨h.first, hleaves⟩
  exact hboth.imp fun m leaf hm => ⟨m, hm⟩

/-- What a bundle says about an interval of a lane: the first messages for its numbers have the
root of the bundle, and the bundle proves those that were asked for. -/
structure Proves (registry : Registry) (lane : Lane) (batch : List Message)
    (targets : List Bytes32) (expectedRoot : Option Bytes32) (i : Interval)
    (bundle : Bundle) : Prop where
  full : ∀ n, i.contains n → ∃ m, first? lane batch n = some m
  committed : ∃ leaves tree,
    List.Forall₂ (fun n leaf => ∃ m, first? lane batch n = some m ∧
      (Leaf.verified registry lane m).result = .ok leaf) i.numbers leaves ∧
    (Merkle.Tree.ofLeaves leaves).result = .ok tree ∧ bundle.root = tree.root
  expected : ∀ root, expectedRoot = some root → bundle.root = root
  ascending : bundle.messages.Pairwise
    fun a b => a.header.sequenceNumber.toNat < b.header.sequenceNumber.toNat
  wanted : ∀ m ∈ bundle.messages, m.header.id ∈ targets ∧
    i.contains m.header.sequenceNumber ∧ first? lane batch m.header.sequenceNumber = some m
  found : ∀ id ∈ targets, ∃ m ∈ bundle.messages, m.header.id = id
  proven : ∃ leaves,
    List.Forall₂ (fun m leaf => (Leaf.hash registry lane m).result = .ok leaf)
      bundle.messages leaves ∧
    (bundle.proof.rootOf leaves).result = .ok bundle.root

/-- A bundle that is made proves what was asked for, about the interval given or else the one
that the lane spans. -/
theorem proves_of_prove (hlength : batch.length < UInt64.size - 1)
    (h : (prove registry lane batch targets interval expectedRoot).result = .ok bundle) :
    ∃ i, IsScope lane batch interval i ∧
      Proves registry lane batch targets expectedRoot i bundle := by
  obtain ⟨messages, known, tree, hcomplete, hknown, htree, hproof, hproven, hroot⟩ :=
    prove_eq_ok h
  obtain ⟨i, hscope, hfills⟩ := fills_of_complete hlength hcomplete
  obtain ⟨leaves, hleaves, hbuilt, hexpected⟩ := commit_eq_ok htree
  have htargets := positions_eq_ok hknown
  have hwanted : ∀ m, m ∈ bundle.messages ↔ ∃ n ∈ known, messages[n]? = some m := by
    simp [hproven, Ascending.mem_ofList_id]
  have hhashed := hleaves.imp fun _ _ => Leaf.hash_of_verified
  refine ⟨i, hscope, ?full, ⟨leaves, tree, hfills.committed hleaves, hbuilt, hroot⟩, ?expected,
    ?ascending, ?wanted, ?found, ⟨(Ascending.ofList id known).filterMap (leaves[·]?), ?hashed,
    ?replayed⟩⟩
  case full =>
    intro n hn
    obtain ⟨m, hm, rfl⟩ := hfills.exists_number hn
    exact ⟨m, hfills.first m hm⟩
  case expected =>
    intro root h
    rw [hroot, hexpected root h]
  case ascending =>
    rw [hproven]
    exact Ascending.pairwise_filterMap_getElem? hfills.ascending known
  case wanted =>
    intro m hm
    obtain ⟨n, hn, hnm⟩ := (hwanted m).mp hm
    obtain ⟨id, hid, a, ha, rfl⟩ := htargets.flip.exists_of_mem_left hn
    have hmem := List.mem_of_getElem? hnm
    obtain rfl : a = m := Option.some.inj (ha.symm.trans hnm)
    exact ⟨hid, hfills.contains hmem, hfills.first a hmem⟩
  case found =>
    intro id hid
    obtain ⟨n, hn, m, hm, rfl⟩ := htargets.exists_of_mem_left hid
    exact ⟨m, (hwanted m).mpr ⟨n, hn, hm⟩, rfl⟩
  case hashed =>
    rw [hproven]
    exact hhashed.filterMap_getElem? _
  case replayed =>
    rw [hroot, ← Merkle.Tree.leaves_of_ofLeaves hbuilt]
    exact Merkle.Tree.rootOf_of_prove hproof

/-- Two messages of a lane, one of them twice, and one of another version, in no order. -/
def sampleBatch : List Message :=
  [Leaf.sampleMessage 2, { Leaf.sampleMessage 1 with version := .v1_5 }, Leaf.sampleMessage 1,
    Leaf.sampleMessage 2]

def sampleBundle : Bundle :=
  ⟨[Leaf.sampleMessage 1], ⟨[Leaf.sample 2], 0⟩,
    (Merkle.node (Leaf.sample 2) (Leaf.sample 1)).value⟩

theorem proveOne_sampleBatch : (proveOne Registry.builtin Leaf.sampleLane sampleBatch
    (Leaf.sampleMessage 1).header.id (some sampleBundle.root)).result = .ok sampleBundle := by
  decide +kernel

theorem first_of_two_proved :
    ∃ i, IsScope Leaf.sampleLane sampleBatch none i ∧
      Proves Registry.builtin Leaf.sampleLane sampleBatch [(Leaf.sampleMessage 1).header.id]
        (some sampleBundle.root) i sampleBundle :=
  proves_of_prove (by decide) proveOne_sampleBatch

end Batch

end CrossChain
