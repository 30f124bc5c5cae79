import CrossChain.Error
/-! Arguments for the execution of a message on its destination. Each variant is known by a
tag of four bytes, and the family of the origin decides on the layout behind the tag. -/
namespace CrossChain

inductive ExtraArgs where
  | evmV1 (gasLimit : U256)
  | evmV2 (gasLimit : U256) (outOfOrder : Bool)
  | svmV1 (computeUnits : UInt32) (writable : UInt64) (outOfOrder : Bool)
      (tokenReceiver : Bytes32) (accounts : List Bytes32)
  | suiV1 (gasLimit : UInt64) (outOfOrder : Bool) (tokenReceiver : Bytes32)
      (objectIds : List Bytes32)
  | genericV3 (gasLimit : UInt32) (confirmations : UInt16) (executor executorArgs : Bytes)
      (verifiers verifierArgs : List Bytes) (tokenReceiver tokenArgs : Bytes)
deriving DecidableEq

namespace ExtraArgs

inductive Variant where
  | evmV1
  | evmV2
  | svmV1
  | suiV1
  | genericV3
deriving DecidableEq

namespace Variant

def all : List Variant := [.evmV1, .evmV2, .svmV1, .suiV1, .genericV3]

def name : Variant → String
  | .evmV1 => "EVMExtraArgsV1"
  | .evmV2 => "EVMExtraArgsV2"
  | .svmV1 => "SVMExtraArgsV1"
  | .suiV1 => "SuiExtraArgsV1"
  | .genericV3 => "GenericExtraArgsV3"

/-- The first four bytes of the digest of `CCIP`, a blank and the name. -/
def tag : Variant → Bytes
  | .evmV1 => [0x97, 0xa6, 0x57, 0xc9]
  | .evmV2 => [0x18, 0x1d, 0xcf, 0x10]
  | .svmV1 => [0x1f, 0x3b, 0x3a, 0xba]
  | .suiV1 => [0x21, 0xea, 0x4c, 0xa9]
  | .genericV3 => [0xa6, 0x9d, 0xd4, 0xaa]

def ofTag? (tag : Bytes) : Option Variant := all.find? fun v => v.tag = tag

@[simp] theorem ofTag?_tag (v : Variant) : ofTag? v.tag = some v := by cases v <;> decide

@[simp] theorem length_tag (v : Variant) : v.tag.length = 4 := by cases v <;> rfl

end Variant

def variant : ExtraArgs → Variant
  | .evmV1 .. => .evmV1
  | .evmV2 .. => .evmV2
  | .svmV1 .. => .svmV1
  | .suiV1 .. => .suiV1
  | .genericV3 .. => .genericV3

def defaultGasLimit : Nat := 200000

/-- Gas, or compute units on Solana. -/
def gasLimit : ExtraArgs → U256
  | .evmV1 gas => gas
  | .evmV2 gas _ => gas
  | .svmV1 units .. => BitVec.ofNat 256 units.toNat
  | .suiV1 gas .. => BitVec.ofNat 256 gas.toNat
  | .genericV3 gas .. => BitVec.ofNat 256 gas.toNat

/-- The first variant knows no execution out of order, the generic one no other. -/
def outOfOrder : ExtraArgs → Bool
  | .evmV1 _ => false
  | .evmV2 _ b => b
  | .svmV1 _ _ b .. => b
  | .suiV1 _ b .. => b
  | .genericV3 .. => true

/-- Who takes the tokens in place of the receiver, if the variant can say so and does. -/
def tokenReceiver? : ExtraArgs → Option Bytes
  | .svmV1 _ _ _ receiver _ => if receiver.isZero then none else some receiver.toBytes
  | .suiV1 _ _ receiver _ => if receiver.isZero then none else some receiver.toBytes
  | .genericV3 _ _ _ _ _ _ receiver _ => if receiver = [] then none else some receiver
  | _ => none

inductive Layout where
  | abi
  | borsh
  | bcs
deriving DecidableEq

namespace Layout

/-- TON messages carry no arguments of this kind. -/
def ofOrigin? : Family → Option Layout
  | .evm => some .abi
  | .svm => some .borsh
  | .aptos | .sui => some .bcs
  | .ton => none

def origin : Layout → Family
  | .abi => .evm
  | .borsh => .svm
  | .bcs => .aptos

end Layout

end ExtraArgs

end CrossChain
