import CrossChain.Abi
import CrossChain.Bcs.Reader
import CrossChain.Bcs.Writer
import CrossChain.Borsh
import CrossChain.ExtraArgs.Basic
/-! The bytes behind the tag in each of the three layouts. -/
namespace CrossChain.ExtraArgs

/-- The arguments as one ABI value; those with a list start with the distance to it. -/
def abiBody : ExtraArgs → Bytes
  | .evmV1 gas => Abi.word gas.toNat
  | .evmV2 gas outOfOrder => Abi.word gas.toNat ++ Abi.bool outOfOrder
  | .svmV1 units writable outOfOrder receiver accounts =>
    Abi.single <| .dynamic <| Abi.tuple
      [.static (Abi.word units.toNat), .static (Abi.word writable.toNat),
        .static (Abi.bool outOfOrder), .static receiver.toBytes, .dynamic (Abi.words accounts)]
  | .suiV1 gas outOfOrder receiver objectIds =>
    Abi.single <| .dynamic <| Abi.tuple
      [.static (Abi.word gas.toNat), .static (Abi.bool outOfOrder), .static receiver.toBytes,
        .dynamic (Abi.words objectIds)]
  | .genericV3 gas confirmations executor executorArgs verifiers verifierArgs receiver tokenArgs =>
    Abi.single <| .dynamic <| Abi.tuple
      [.static (Abi.word gas.toNat), .static (Abi.word confirmations.toNat),
        .dynamic (Abi.bytes executor), .dynamic (Abi.bytes executorArgs),
        .dynamic (Abi.bytesList verifiers), .dynamic (Abi.bytesList verifierArgs),
        .dynamic (Abi.bytes receiver), .dynamic (Abi.bytes tokenArgs)]

def abiDecoder : Variant → Decoder ExtraArgs
  | .evmV1 => do
    return .evmV1 (BitVec.ofNat 256 (← Abi.Decoder.natural))
  | .evmV2 => do
    return .evmV2 (BitVec.ofNat 256 (← Abi.Decoder.natural)) (← Abi.Decoder.bool)
  | .svmV1 => do
    Abi.Decoder.offsets 1
    let units ← Abi.Decoder.uint 32
    let writable ← Abi.Decoder.uint 64
    let outOfOrder ← Abi.Decoder.bool
    let receiver ← Decoder.word
    Abi.Decoder.offsets 1
    return .svmV1 (UInt32.ofNat units) (UInt64.ofNat writable) outOfOrder receiver
      (← Abi.Decoder.words)
  | .suiV1 => do
    Abi.Decoder.offsets 1
    let gas ← Abi.Decoder.uint 64
    let outOfOrder ← Abi.Decoder.bool
    let receiver ← Decoder.word
    Abi.Decoder.offsets 1
    return .suiV1 (UInt64.ofNat gas) outOfOrder receiver (← Abi.Decoder.words)
  | .genericV3 => do
    Abi.Decoder.offsets 1
    let gas ← Abi.Decoder.uint 32
    let confirmations ← Abi.Decoder.uint 16
    Abi.Decoder.offsets 6
    let executor ← Abi.Decoder.bytes
    let executorArgs ← Abi.Decoder.bytes
    let verifiers ← Abi.Decoder.bytesList
    let verifierArgs ← Abi.Decoder.bytesList
    let receiver ← Abi.Decoder.bytes
    let tokenArgs ← Abi.Decoder.bytes
    return .genericV3 (UInt32.ofNat gas) (UInt16.ofNat confirmations) executor executorArgs
      verifiers verifierArgs receiver tokenArgs

/-- The Borsh bytes, if no list is too long for its length field. A gas limit takes 16
bytes here; the oldest variant has no such layout. -/
def borshBody? : ExtraArgs → Option Bytes
  | .evmV1 _ => none
  | .evmV2 gas outOfOrder =>
    if gas.toNat < 1 <<< 128 then some (Bytes.ofNatLE 16 gas.toNat ++ Borsh.bool outOfOrder)
    else none
  | .svmV1 units writable outOfOrder receiver accounts => do
    return Bytes.ofNatLE 4 units.toNat ++ Bytes.ofNatLE 8 writable.toNat ++
      Borsh.bool outOfOrder ++ receiver.toBytes ++ (← Borsh.words? accounts)
  | .suiV1 gas outOfOrder receiver objectIds => do
    return Bytes.ofNatLE 8 gas.toNat ++ Borsh.bool outOfOrder ++ receiver.toBytes ++
      (← Borsh.words? objectIds)
  | .genericV3 gas confirmations executor executorArgs verifiers verifierArgs receiver tokenArgs =>
    do
    return Bytes.ofNatLE 4 gas.toNat ++ Bytes.ofNatLE 2 confirmations.toNat ++
      (← Borsh.bytes? executor) ++ (← Borsh.bytes? executorArgs) ++
      (← Borsh.list? Borsh.bytes? verifiers) ++ (← Borsh.list? Borsh.bytes? verifierArgs) ++
      (← Borsh.bytes? receiver) ++ (← Borsh.bytes? tokenArgs)

def borshDecoder : Variant → Decoder ExtraArgs
  | .evmV1 => Decoder.fail
  | .evmV2 => do
    let gas ← Borsh.Decoder.natural 16
    return .evmV2 (BitVec.ofNat 256 gas) (← Borsh.Decoder.bool)
  | .svmV1 => do
    let units ← Borsh.Decoder.natural 4
    let writable ← Borsh.Decoder.natural 8
    let outOfOrder ← Borsh.Decoder.bool
    let receiver ← Decoder.word
    return .svmV1 (UInt32.ofNat units) (UInt64.ofNat writable) outOfOrder receiver
      (← Borsh.Decoder.list Decoder.word)
  | .suiV1 => do
    let gas ← Borsh.Decoder.natural 8
    let outOfOrder ← Borsh.Decoder.bool
    let receiver ← Decoder.word
    return .suiV1 (UInt64.ofNat gas) outOfOrder receiver (← Borsh.Decoder.list Decoder.word)
  | .genericV3 => do
    let gas ← Borsh.Decoder.natural 4
    let confirmations ← Borsh.Decoder.natural 2
    let executor ← Borsh.Decoder.bytes
    let executorArgs ← Borsh.Decoder.bytes
    let verifiers ← Borsh.Decoder.list Borsh.Decoder.bytes
    let verifierArgs ← Borsh.Decoder.list Borsh.Decoder.bytes
    let receiver ← Borsh.Decoder.bytes
    let tokenArgs ← Borsh.Decoder.bytes
    return .genericV3 (UInt32.ofNat gas) (UInt16.ofNat confirmations) executor executorArgs
      verifiers verifierArgs receiver tokenArgs

def bcsBody? : ExtraArgs → Option Bytes
  | .evmV1 _ => none
  | .evmV2 gas outOfOrder => some (Bcs.u256 gas ++ Bcs.bool outOfOrder)
  | .svmV1 units writable outOfOrder receiver accounts =>
    some (Bcs.u32 units ++ Bcs.u64 writable ++ Bcs.bool outOfOrder ++ Bcs.address receiver ++
      Bcs.addresses accounts)
  | .suiV1 gas outOfOrder receiver objectIds =>
    some (Bcs.u64 gas ++ Bcs.bool outOfOrder ++ Bcs.address receiver ++ Bcs.addresses objectIds)
  | .genericV3 gas confirmations executor executorArgs verifiers verifierArgs receiver tokenArgs =>
    some (Bcs.u32 gas ++ Bcs.u16 confirmations ++ Bcs.bytes executor ++ Bcs.bytes executorArgs ++
      Bcs.bytesList verifiers ++ Bcs.bytesList verifierArgs ++ Bcs.bytes receiver ++
      Bcs.bytes tokenArgs)

/-- Reads a body; the oldest variant, which has none, gives no value. -/
def bcsReader : Variant → Bcs.Reader (Option ExtraArgs)
  | .evmV1 => pure none
  | .evmV2 => do
    let gas ← Bcs.Reader.u256
    let outOfOrder ← Bcs.Reader.bool
    return some (.evmV2 gas outOfOrder)
  | .svmV1 => do
    let units ← Bcs.Reader.u32
    let writable ← Bcs.Reader.u64
    let outOfOrder ← Bcs.Reader.bool
    let receiver ← Bcs.Reader.address
    let accounts ← Bcs.Reader.addresses
    return some (.svmV1 units writable outOfOrder receiver accounts)
  | .suiV1 => do
    let gas ← Bcs.Reader.u64
    let outOfOrder ← Bcs.Reader.bool
    let receiver ← Bcs.Reader.address
    let objectIds ← Bcs.Reader.addresses
    return some (.suiV1 gas outOfOrder receiver objectIds)
  | .genericV3 => do
    let gas ← Bcs.Reader.u32
    let confirmations ← Bcs.Reader.u16
    let executor ← Bcs.Reader.bytes
    let executorArgs ← Bcs.Reader.bytes
    let verifiers ← Bcs.Reader.bytesList
    let verifierArgs ← Bcs.Reader.bytesList
    let receiver ← Bcs.Reader.bytes
    let tokenArgs ← Bcs.Reader.bytes
    return some (.genericV3 gas confirmations executor executorArgs verifiers verifierArgs
      receiver tokenArgs)

def bcsDecode (v : Variant) (body : Bytes) : Option ExtraArgs :=
  match (do
      let args ← bcsReader v
      Bcs.Reader.finish
      return args : Bcs.Reader (Option ExtraArgs)) body with
  | (.ok args, _) => args
  | (.error _, _) => none

end CrossChain.ExtraArgs
