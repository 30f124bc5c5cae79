import CrossChain.Hashed
import CrossChain.Leaf.Layout
import CrossChain.Leaf.Scheme
/-! Leaf hashes as the contract of the destination computes them. The digest of the lane and
those of the parts of a message are put behind the domain of leaves and hashed again. -/
namespace CrossChain

namespace Leaf

def joined (words : List Bytes32) : Bytes := words.flatMap Bytes32.toBytes

def legacyPreimage (metadata : Bytes32) (c : LegacyContent) : Hashed Bytes := do
  let header ← Hashed.keccak c.abiHeader
  let data ← Hashed.keccak c.data
  let amounts ← Hashed.keccak c.abiAmounts
  let tokenData ← Hashed.keccak c.abiTokenData
  return joined [Domain.leaf, metadata, header, data, amounts, tokenData]

def evmPreimage (metadata : Bytes32) (c : RampContent) : Hashed Bytes := do
  let header ← Hashed.keccak c.abiHeader
  let sender ← Hashed.keccak c.sender
  let data ← Hashed.keccak c.data
  let transfers ← Hashed.keccak c.abiTransfers
  return joined [Domain.leaf, metadata, header, sender, data, transfers]

def aptosPreimage (metadata : Bytes32) (c : RampContent) : Hashed Bytes := do
  let header ← Hashed.keccak c.bcsHeader
  let sender ← Hashed.keccak c.sender
  let data ← Hashed.keccak c.data
  let transfers ← Hashed.keccak c.bcsTransfers
  return joined [Domain.leaf, metadata, header, sender, data, transfers]

def suiPreimage (metadata : Bytes32) (c : SuiContent) : Hashed Bytes := do
  let header ← Hashed.keccak c.bcsHeader
  let sender ← Hashed.keccak c.sender
  let data ← Hashed.keccak c.data
  let transfers ← Hashed.keccak c.bcsTransfers
  let objects ← Hashed.keccak (Bcs.addresses c.objectIds)
  return joined [Domain.leaf, metadata, header, sender, data, transfers, objects]

def solanaPreimage (metadata : Bytes32) (c : SolanaContent) : Except Error Bytes :=
  match c.borsh? with
  | some body => .ok (joined [Domain.leaf, metadata] ++ body)
  | none => .error (.malformedEvent .tooLong "")

end Leaf

namespace Scheme

/-- The digest of a lane under a scheme. Legacy lanes name their contract by its word. -/
def metadata (s : Scheme) (lane : Lane) : Hashing Error Bytes32 := do
  let onRamp := lane.onRamp.crossChainBytes
  match s with
  | .evm2evm =>
    let word ← lane.onRamp.evmWord
    Hashing.keccak (s.domain.toBytes ++ Abi.word lane.source.toNat ++ Abi.word lane.dest.toNat ++
      word.toBytes)
  | .any2evm =>
    let digest ← Hashing.keccak onRamp
    Hashing.keccak (s.domain.toBytes ++ Abi.word lane.source.toNat ++ Abi.word lane.dest.toNat ++
      digest.toBytes)
  | .any2svm =>
    Hashing.keccak (s.nameBytes ++ Bytes.ofNatLE 8 lane.source.toNat ++
      Bytes.ofNatLE 8 lane.dest.toNat ++ Bytes.ofNatLE 4 onRamp.length ++ onRamp)
  | .any2aptos | .any2sui =>
    let digest ← Hashing.keccak onRamp
    Hashing.keccak (s.domain.toBytes ++ Bcs.u64 lane.source ++ Bcs.u64 lane.dest ++
      digest.toBytes)

/-- The byte string whose digest is the leaf of a message. -/
def preimage (s : Scheme) (lane : Lane) (m : Message) : Hashing Error Bytes := do
  let metadata ← s.metadata lane
  match s with
  | .evm2evm => Leaf.legacyPreimage metadata (← Leaf.LegacyContent.ofMessage m)
  | .any2evm => Leaf.evmPreimage metadata (← Leaf.RampContent.ofMessage Address.evmWord m)
  | .any2svm => Leaf.solanaPreimage metadata (← Leaf.SolanaContent.ofMessage m)
  | .any2aptos => Leaf.aptosPreimage metadata (← Leaf.RampContent.ofMessage Address.toBytes32 m)
  | .any2sui => Leaf.suiPreimage metadata (← Leaf.SuiContent.ofMessage m)

def leaf (s : Scheme) (lane : Lane) (m : Message) : Hashing Error Bytes32 := do
  Hashing.keccak (← s.preimage lane m)

end Scheme

namespace Leaf

def metadataHash (registry : Registry) (lane : Lane) : Hashing Error Bytes32 := do
  (← Scheme.ofLane registry lane).metadata lane

/-- The leaf of a message on a lane, whose version must be that of the message. -/
def hash (registry : Registry) (lane : Lane) (m : Message) : Hashing Error Bytes32 := do
  if m.version ≠ lane.version then throw (noBody m)
  (← Scheme.ofLane registry lane).leaf lane m

/-- The leaf of a message, which must be its identifier where the scheme has it so. -/
def verified (registry : Registry) (lane : Lane) (m : Message) : Hashing Error Bytes32 := do
  let scheme ← Scheme.ofLane registry lane
  let leaf ← hash registry lane m
  if scheme.idIsLeaf ∧ leaf ≠ m.header.id then
    throw (.idMismatch m.header.sequenceNumber m.header.id leaf)
  return leaf

end Leaf

end CrossChain
