import CrossChain.Proofs.Leaf.Views
/-! Leaves bind the lane and the scheme. The byte string that stands for a lane starts with a label
of the scheme and tells the ends of the lane and its contract. A leaf holds the digest of that
string, so that leaves of two lanes, or under two schemes, do not meet. -/
namespace CrossChain

/-- Lanes with the same ends and one contract, by the bytes that messages carry for it. -/
structure Lane.Same (lane lane' : Lane) : Prop where
  source : lane.source = lane'.source
  dest : lane.dest = lane'.dest
  onRamp : lane.onRamp.crossChainBytes = lane'.onRamp.crossChainBytes

open Leaf

namespace Scheme

variable {s s' : Scheme} {lane lane' : Lane} {p x y : Bytes}

/-- What the byte string of a lane starts with: on Solana the name of the scheme as it is, and
its digest elsewhere. -/
def label : Scheme → Bytes
  | .any2svm => Scheme.any2svm.nameBytes
  | s => s.domain.toBytes

theorem label_append_inj : s.label ++ x = s'.label ++ y ↔ s = s' ∧ x = y := by
  constructor
  · intro h
    -- Labels differ in length, but two bytes of them are enough to tell the scheme.
    have hlong : ∀ t : Scheme, 2 ≤ t.label.length := by
      intro t
      cases t <;> decide
    have hfirst : s.label.take 2 = s'.label.take 2 := by
      have htake := congrArg (List.take 2) h
      rwa [List.take_append_of_le_length (hlong s), List.take_append_of_le_length (hlong s')]
        at htake
    have htell : ∀ t t' : Scheme, t.label.take 2 = t'.label.take 2 → t = t' := by
      intro t t'
      cases t <;> cases t' <;> decide
    obtain rfl := htell s s' hfirst
    exact ⟨rfl, List.append_cancel_left h⟩
  · rintro ⟨rfl, rfl⟩
    rfl

def laneFields (s : Scheme) (lane : Lane) : Except Error Bytes :=
  let onRamp := lane.onRamp.crossChainBytes
  match s with
  | .evm2evm => do
    let word ← lane.onRamp.evmWord
    return Abi.word lane.source.toNat ++ (Abi.word lane.dest.toNat ++ word.toBytes)
  | .any2evm =>
    .ok (Abi.word lane.source.toNat ++ (Abi.word lane.dest.toNat ++ (keccak256 onRamp).toBytes))
  | .any2svm =>
    .ok (Bytes.ofNatLE 8 lane.source.toNat ++ (Bytes.ofNatLE 8 lane.dest.toNat ++
      (Bytes.ofNatLE 4 onRamp.length ++ onRamp)))
  | .any2aptos | .any2sui =>
    .ok (Bcs.u64 lane.source ++ (Bcs.u64 lane.dest ++ (keccak256 onRamp).toBytes))

def laneParts (s : Scheme) (lane : Lane) : List Bytes :=
  match s with
  | .evm2evm | .any2svm => []
  | .any2evm | .any2aptos | .any2sui => [lane.onRamp.crossChainBytes]

/-- All schemes hash a lane alike: its parts, then the byte string of label and fields. -/
theorem metadata_eq (s : Scheme) (lane : Lane) : s.metadata lane = (do
    let fields ← s.laneFields lane
    (⟨(), s.laneParts lane⟩ : Hashed Unit)
    Hashing.keccak (s.label ++ fields)) := by
  cases s with
  | evm2evm =>
    simp only [metadata, laneFields, label, List.append_assoc]
    cases lane.onRamp.evmWord <;> rfl
  | any2evm => simp only [metadata, List.append_assoc]; rfl
  | any2svm => simp only [metadata, List.append_assoc]; rfl
  | any2aptos => simp only [metadata, List.append_assoc]; rfl
  | any2sui => simp only [metadata, List.append_assoc]; rfl

theorem metadata_result_eq_ok_iff {w : Bytes32} : (s.metadata lane).result = .ok w ↔
    ∃ fields, s.laneFields lane = .ok fields ∧ w = keccak256 (s.label ++ fields) := by
  rw [metadata_eq, Hashing.result_bind_eq_ok_iff]
  apply exists_congr
  intro fields
  rw [Hashing.result_bind_eq_ok_iff]
  simp [eq_comm]

theorem metadata_inputs {fields : Bytes} (h : s.laneFields lane = .ok fields) :
    (s.metadata lane).inputs = s.laneParts lane ++ [s.label ++ fields] := by
  rw [metadata_eq, h, Hashing.liftExcept_ok_bind,
    Hashing.inputs_bind_of_ok (Hashing.result_liftHashed _), Hashing.inputs_liftHashed,
    Hashing.inputs_keccak]

theorem same_of_laneFields_eq {strings : List Bytes} (hfree : CollisionFree strings)
    (hparts : s.laneParts lane ⊆ strings) (hparts' : s.laneParts lane' ⊆ strings)
    (h : s.laneFields lane = .ok x) (h' : s.laneFields lane' = .ok x) : lane.Same lane' := by
  cases s with
  | evm2evm =>
    obtain ⟨word, hword, h⟩ := Except.bind_eq_ok_iff.mp h
    obtain ⟨word', hword', h'⟩ := Except.bind_eq_ok_iff.mp h'
    have heq := Except.ok.inj (h.trans h'.symm)
    rw [Abi.word_u64_append_inj, Abi.word_u64_append_inj, Bytes32.toBytes_inj] at heq
    obtain ⟨hsource, hdest, rfl⟩ := heq
    have honRamp := Address.toBytes_of_evmWord hword
    exact ⟨hsource, hdest, honRamp.symm.trans (Address.toBytes_of_evmWord hword')⟩
  | any2evm =>
    have heq := Except.ok.inj (h.trans h'.symm)
    rw [Abi.word_u64_append_inj, Abi.word_u64_append_inj, Bytes32.toBytes_inj] at heq
    obtain ⟨hsource, hdest, hdigest⟩ := heq
    exact ⟨hsource, hdest, hfree _ (hparts (by simp [laneParts])) _
      (hparts' (by simp [laneParts])) hdigest⟩
  | any2svm =>
    have heq := Except.ok.inj (h.trans h'.symm)
    rw [Bytes.ofNatLE_u64_append_inj, Bytes.ofNatLE_u64_append_inj] at heq
    obtain ⟨hsource, hdest, htail⟩ := heq
    exact ⟨hsource, hdest, (List.append_inj htail (by simp)).2⟩
  | any2aptos | any2sui =>
    have heq := Except.ok.inj (h.trans h'.symm)
    rw [Bcs.u64, Bcs.u64, Bcs.u64, Bcs.u64, Bytes.ofNatLE_u64_append_inj,
      Bytes.ofNatLE_u64_append_inj, Bytes32.toBytes_inj] at heq
    obtain ⟨hsource, hdest, hdigest⟩ := heq
    exact ⟨hsource, hdest, hfree _ (hparts (by simp [laneParts])) _
      (hparts' (by simp [laneParts])) hdigest⟩

/-- Messages with one leaf travel on one lane and are hashed under one scheme, unless two hashed
byte strings share a digest. -/
theorem lane_of_leaf_eq {m n : Message} {leaf : Bytes32} (hm : (s.leaf lane m).result = .ok leaf)
    (hn : (s'.leaf lane' n).result = .ok leaf)
    (hfree : CollisionFree ((s.leaf lane m).inputs ++ (s'.leaf lane' n).inputs)) :
    s = s' ∧ lane.Same lane' := by
  obtain ⟨p, hp, hq⟩ := preimage_of_leaf_eq hm hn hfree
  obtain ⟨metadata, r, hmetadata, hr, rfl⟩ := preimage_result_eq_ok_iff.mp hp
  obtain ⟨metadata', r', hmetadata', hr', hpq⟩ := preimage_result_eq_ok_iff.mp hq
  -- The digest of the lane is the second word of the byte string of a leaf.
  have hdigest : metadata = metadata' := by
    simp only [Remainder.preimage, joined_cons, List.append_assoc, Bytes32.append_inj] at hpq
    exact hpq.2.1
  obtain ⟨fields, hfields, rfl⟩ := metadata_result_eq_ok_iff.mp hmetadata
  obtain ⟨fields', hfields', rfl⟩ := metadata_result_eq_ok_iff.mp hmetadata'
  rw [leaf_inputs hp, leaf_inputs hq, preimage_inputs hmetadata hr, preimage_inputs hmetadata' hr',
    metadata_inputs hfields, metadata_inputs hfields'] at hfree
  have hstrings : s.label ++ fields = s'.label ++ fields' :=
    hfree _ (by simp) _ (by simp) hdigest
  obtain ⟨rfl, rfl⟩ := label_append_inj.mp hstrings
  exact ⟨rfl, same_of_laneFields_eq hfree (fun x hx => by simp [hx]) (fun x hx => by simp [hx])
    hfields hfields'⟩

theorem lane_of_sample_leaf :
    (Scheme.any2svm.leaf sampleLane (sampleMessage 1)).result = .ok (sample 1) ∧
      (Scheme.any2svm.leaf { sampleLane with version := .v1_5 }
        { sampleMessage 1 with feeTokenAmount := 5 }).result = .ok (sample 1) ∧
      sampleLane.Same { sampleLane with version := .v1_5 } := by
  have hleaf : ∀ version fee, (Scheme.any2svm.leaf { sampleLane with version }
      { sampleMessage 1 with feeTokenAmount := fee }).result = .ok (sample 1) := fun _ _ => rfl
  refine ⟨hleaf .v1_6 0, hleaf .v1_5 5, ?_⟩
  exact (lane_of_leaf_eq (hleaf .v1_6 0) (hleaf .v1_5 5) (by decide +kernel)).2

end Scheme

end CrossChain
