import CrossChain.Leaf.Hash
import CrossChain.Proofs.Codec.Fixed
import CrossChain.Proofs.Hashing
/-! The byte string of a leaf in one form for all schemes: the domain of leaves, the digest of
the lane, digests of some parts of the message, and for Solana the rest of it as it is. -/
namespace CrossChain

namespace Leaf

/-- What stands behind the digest of the lane: the parts that are hashed one by one, and bytes
that stand as they are. -/
structure Remainder where
  hashed : List Bytes
  plain : Bytes

def Remainder.preimage (metadata : Bytes32) (r : Remainder) : Bytes :=
  joined (Domain.leaf :: metadata :: r.hashed.map keccak256) ++ r.plain

def LegacyContent.remainder (c : LegacyContent) : Remainder :=
  ⟨[c.abiHeader, c.data, c.abiAmounts, c.abiTokenData], []⟩

def RampContent.abiRemainder (c : RampContent) : Remainder :=
  ⟨[c.abiHeader, c.sender, c.data, c.abiTransfers], []⟩

def RampContent.bcsRemainder (c : RampContent) : Remainder :=
  ⟨[c.bcsHeader, c.sender, c.data, c.bcsTransfers], []⟩

def SuiContent.remainder (c : SuiContent) : Remainder :=
  ⟨[c.bcsHeader, c.sender, c.data, c.bcsTransfers, Bcs.addresses c.objectIds], []⟩

def SolanaContent.remainder (c : SolanaContent) : Except Error Remainder :=
  match c.borsh? with
  | some body => .ok ⟨[], body⟩
  | none => .error (.malformedEvent .tooLong "")

theorem joined_cons (w : Bytes32) (ws : List Bytes32) :
    joined (w :: ws) = w.toBytes ++ joined ws :=
  List.flatMap_cons

theorem joined_append_inj {ws vs : List Bytes32} {r s : Bytes} (hlen : ws.length = vs.length) :
    joined ws ++ r = joined vs ++ s ↔ ws = vs ∧ r = s := by
  induction ws generalizing vs with
  | nil =>
    obtain rfl := List.eq_nil_of_length_eq_zero hlen.symm
    simp [joined]
  | cons w ws ih =>
    cases vs with
    | nil => simp at hlen
    | cons v vs =>
      rw [joined_cons, joined_cons, List.append_assoc, List.append_assoc, Bytes32.append_inj,
        ih (by simpa using hlen), List.cons.injEq, and_assoc]

/-- Hashes the parts of a message; the byte string they end up in is the value. -/
def Remainder.hash (metadata : Bytes32) (r : Remainder) : Hashed Bytes :=
  ⟨r.preimage metadata, r.hashed⟩

theorem legacyPreimage_eq (metadata : Bytes32) (c : LegacyContent) :
    legacyPreimage metadata c = c.remainder.hash metadata := by
  rw [Remainder.hash, Remainder.preimage, LegacyContent.remainder, List.append_nil]
  rfl

theorem evmPreimage_eq (metadata : Bytes32) (c : RampContent) :
    evmPreimage metadata c = c.abiRemainder.hash metadata := by
  rw [Remainder.hash, Remainder.preimage, RampContent.abiRemainder, List.append_nil]
  rfl

theorem aptosPreimage_eq (metadata : Bytes32) (c : RampContent) :
    aptosPreimage metadata c = c.bcsRemainder.hash metadata := by
  rw [Remainder.hash, Remainder.preimage, RampContent.bcsRemainder, List.append_nil]
  rfl

theorem suiPreimage_eq (metadata : Bytes32) (c : SuiContent) :
    suiPreimage metadata c = c.remainder.hash metadata := by
  rw [Remainder.hash, Remainder.preimage, SuiContent.remainder, List.append_nil]
  rfl

end Leaf

open Leaf

namespace Scheme

def remainder (s : Scheme) (m : Message) : Except Error Remainder :=
  match s with
  | .evm2evm => LegacyContent.remainder <$> LegacyContent.ofMessage m
  | .any2evm => RampContent.abiRemainder <$> RampContent.ofMessage Address.evmWord m
  | .any2svm => SolanaContent.ofMessage m >>= SolanaContent.remainder
  | .any2aptos => RampContent.bcsRemainder <$> RampContent.ofMessage Address.toBytes32 m
  | .any2sui => SuiContent.remainder <$> SuiContent.ofMessage m

/-- All schemes hash a message alike: its parts one by one, then the byte string they end up in
behind the digest of the lane. -/
theorem preimage_eq (s : Scheme) (lane : Lane) (m : Message) :
    s.preimage lane m = (do
      let metadata ← s.metadata lane
      let r ← s.remainder m
      r.hash metadata) := by
  unfold preimage
  apply congrArg (s.metadata lane >>= ·)
  funext metadata
  cases s with
  | evm2evm =>
    simp only [remainder, legacyPreimage_eq]
    cases LegacyContent.ofMessage m <;> rfl
  | any2evm =>
    simp only [remainder, evmPreimage_eq]
    cases RampContent.ofMessage Address.evmWord m <;> rfl
  | any2svm =>
    unfold remainder
    cases SolanaContent.ofMessage m with
    | error e => rfl
    | ok c =>
      change (liftM (solanaPreimage metadata c) : Hashing Error Bytes) =
        (do let r ← c.remainder; r.hash metadata)
      unfold solanaPreimage SolanaContent.remainder
      cases c.borsh? <;> rfl
  | any2aptos =>
    simp only [remainder, aptosPreimage_eq]
    cases RampContent.ofMessage Address.toBytes32 m <;> rfl
  | any2sui =>
    simp only [remainder, suiPreimage_eq]
    cases SuiContent.ofMessage m <;> rfl

theorem preimage_result_eq_ok_iff {s : Scheme} {lane : Lane} {m : Message} {p : Bytes} :
    (s.preimage lane m).result = .ok p ↔ ∃ metadata r, (s.metadata lane).result = .ok metadata ∧
      s.remainder m = .ok r ∧ p = r.preimage metadata := by
  rw [preimage_eq, Hashing.result_bind_eq_ok_iff]
  apply exists_congr
  intro metadata
  rw [Hashing.result_bind_eq_ok_iff, ← exists_and_left]
  apply exists_congr
  intro r
  simp [Remainder.hash, eq_comm]

theorem preimage_inputs {s : Scheme} {lane : Lane} {m : Message} {metadata : Bytes32}
    {r : Remainder} (hmetadata : (s.metadata lane).result = .ok metadata)
    (hr : s.remainder m = .ok r) :
    (s.preimage lane m).inputs = (s.metadata lane).inputs ++ r.hashed := by
  rw [preimage_eq, Hashing.inputs_bind_of_ok hmetadata, hr, Hashing.liftExcept_ok_bind,
    Hashing.inputs_liftHashed]
  rfl

theorem leaf_result_eq_ok_iff {s : Scheme} {lane : Lane} {m : Message} {leaf : Bytes32} :
    (s.leaf lane m).result = .ok leaf ↔
      ∃ p, (s.preimage lane m).result = .ok p ∧ leaf = keccak256 p := by
  unfold Scheme.leaf
  rw [Hashing.result_bind_eq_ok_iff]
  simp [eq_comm]

theorem leaf_inputs {s : Scheme} {lane : Lane} {m : Message} {p : Bytes}
    (h : (s.preimage lane m).result = .ok p) :
    (s.leaf lane m).inputs = (s.preimage lane m).inputs ++ [p] := by
  unfold Scheme.leaf
  rw [Hashing.inputs_bind_of_ok h, Hashing.inputs_keccak]

/-- The last string that is hashed is the one behind the leaf, so equal leaves, of whatever lanes
and schemes, are made from the same bytes. -/
theorem preimage_of_leaf_eq {s s' : Scheme} {lane lane' : Lane} {m n : Message} {leaf : Bytes32}
    (hm : (s.leaf lane m).result = .ok leaf) (hn : (s'.leaf lane' n).result = .ok leaf)
    (hfree : CollisionFree ((s.leaf lane m).inputs ++ (s'.leaf lane' n).inputs)) :
    ∃ p, (s.preimage lane m).result = .ok p ∧ (s'.preimage lane' n).result = .ok p := by
  obtain ⟨p, hp, hleaf⟩ := leaf_result_eq_ok_iff.mp hm
  obtain ⟨q, hq, hleaf'⟩ := leaf_result_eq_ok_iff.mp hn
  rw [leaf_inputs hp, leaf_inputs hq] at hfree
  obtain rfl : p = q := hfree p (by simp) q (by simp) (hleaf.symm.trans hleaf')
  exact ⟨p, hp, hq⟩

/-- The byte string of every leaf starts with the domain of leaves. -/
theorem preimage_starts_with_domain {s : Scheme} {lane : Lane} {m : Message} {p : Bytes}
    (h : (s.preimage lane m).result = .ok p) : ∃ rest, p = Domain.leaf.toBytes ++ rest := by
  obtain ⟨metadata, r, -, -, rfl⟩ := preimage_result_eq_ok_iff.mp h
  refine ⟨joined (metadata :: r.hashed.map keccak256) ++ r.plain, ?_⟩
  rw [Remainder.preimage, joined_cons, List.append_assoc]

end Scheme

namespace Leaf

/-- A hash is the leaf of some message, on some lane and under some scheme, and has the given byte
string. -/
def IsLeaf (hash : Bytes32) (preimage : Bytes) : Prop :=
  ∃ (s : Scheme) (lane : Lane) (m : Message),
    (s.leaf lane m).result = .ok hash ∧ (s.preimage lane m).result = .ok preimage

theorem IsLeaf.eq_keccak256 {hash : Bytes32} {preimage : Bytes} (h : IsLeaf hash preimage) :
    hash = keccak256 preimage := by
  obtain ⟨s, lane, m, hleaf, hpreimage⟩ := h
  obtain ⟨p, hp, rfl⟩ := Scheme.leaf_result_eq_ok_iff.mp hleaf
  rw [hp] at hpreimage
  rw [Except.ok.inj hpreimage]

/-- A lane to Solana with messages on it that differ in their number only, to see the theorems at
work. -/
def sampleLane : Lane :=
  ⟨5009297550715157269, 124615329519749607, .zero .evm, .v1_6⟩

def sampleMessage (n : UInt64) : Message where
  sourceFamily := .evm
  destFamily := .svm
  version := .v1_6
  header := ⟨.ofU256 (BitVec.ofNat 256 n.toNat), sampleLane.source, sampleLane.dest, n, 0⟩
  sender := .zero .evm
  receiver := .zero .svm
  data := [0x70, 0x69, 0x6e, 0x67]
  feeToken := .zero .evm
  feeTokenAmount := 0
  extraArgs := .svmV1 200000 1 true .zero [.ofU256 7]
  rawExtraArgs := []
  body := .ramp ⟨0, [⟨.zero .evm, .zero .svm, 0, [], 1⟩]⟩

def samplePreimage (n : UInt64) : Bytes :=
  match (Scheme.any2svm.preimage sampleLane (sampleMessage n)).result with
  | .ok p => p
  | .error _ => []

def sample (n : UInt64) : Bytes32 := keccak256 (samplePreimage n)

theorem isLeaf_sample (n : UInt64) : IsLeaf (sample n) (samplePreimage n) :=
  ⟨.any2svm, sampleLane, sampleMessage n, rfl, rfl⟩

end Leaf

end CrossChain
