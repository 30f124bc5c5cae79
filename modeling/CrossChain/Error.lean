import CrossChain.Family
import CrossChain.Json.Record
import CrossChain.Text.Base58
import CrossChain.Version
/-! What can go wrong, by cause, and the text of each cause. -/
namespace CrossChain

/-- Why a text or byte string is no address of a family. -/
inductive AddressFault where
  | hex (fault : Hex.Fault)
  | base58 (fault : Base58.Fault)
  | base64 (fault : Base64.Fault)
  | slotNotPadded
  | emptyModule
  | empty
  | badWorkchain
  | unknownTag
  | badChecksum
  | notEvm (family : Family)
  | receiverOf (family : Family)
deriving DecidableEq

def AddressFault.message : AddressFault → String
  | .hex fault => fault.message
  | .base58 fault => fault.message
  | .base64 fault => fault.message
  | .slotNotPadded => "32-byte slot does not hold a left-padded 20-byte address"
  | .emptyModule => "empty module name"
  | .empty => "empty address"
  | .badWorkchain => "workchain must be an int32"
  | .unknownTag => "unknown address tag"
  | .badChecksum => "checksum mismatch"
  | .notEvm family => family.name ++ " address where an EVM address is required"
  | .receiverOf family => "receiver is a " ++ family.name ++ " address"

inductive RegistryFault where
  | notAList
  | emptyName (selector : UInt64)
  | duplicateSelector (selector : UInt64)
  | duplicateName (name : String)
deriving DecidableEq

def RegistryFault.message : RegistryFault → String
  | .notAList => "invalid chain list"
  | .emptyName selector => "chain " ++ toString selector.toNat ++ " has an empty name"
  | .duplicateSelector selector => "duplicate chain selector " ++ toString selector.toNat
  | .duplicateName name => "duplicate chain name '" ++ name ++ "'"

/-- Why execution arguments cannot be built, written or hashed. -/
inductive ArgsFault where
  | solanaFields (destination : Family)
  | objectIds (destination : Family)
  | tokenReceiver (destination : Family)
  | tooWide (field : String) (value : Nat) (bits : Nat)
  | gasLimitForSolana (value : Nat)
  | tooLong
  | zeroTokenReceiver (family : Family)
  | notSolana (variant : String)
deriving DecidableEq

def ArgsFault.message : ArgsFault → String
  | .solanaFields destination =>
    "Solana execution fields do not apply to a " ++ destination.name ++ " destination"
  | .objectIds destination =>
    "receiverObjectIds do not apply to a " ++ destination.name ++ " destination"
  | .tokenReceiver destination =>
    "tokenReceiver does not apply to a " ++ destination.name ++ " destination"
  | .tooWide field value bits =>
    field ++ " " ++ toString value ++ " does not fit in u" ++ toString bits
  | .gasLimitForSolana value =>
    "gasLimit " ++ toString value ++ " does not fit the u128 Solana layout"
  | .tooLong => "borsh serialization failed: invalid input parameter"
  | .zeroTokenReceiver family =>
    "token transfer to " ++ family.name ++ " needs a non-zero token receiver"
  | .notSolana variant => "Solana destination requires SVMExtraArgsV1, got " ++ variant

inductive Shape where
  | legacy
  | ramp
deriving DecidableEq

def Shape.name : Shape → String
  | .legacy => "legacy"
  | .ramp => "ramp"

inductive EventFault where
  | notAnObject
  | noHeader
  | fields (fault : Json.Fault)
  | wrongShape (shape : Shape) (version : Version)
  | otherSource (found lane : UInt64)
  | otherLane (source dest laneSource laneDest : UInt64)
  | unknownArgs (bytes : Bytes)
  | gasTooWide (amount : UInt64)
  | unknownExecData (bytes : Bytes)
  | tooLong
deriving DecidableEq

def EventFault.message : EventFault → String
  | .notAnObject => "message is not a JSON object"
  | .noHeader => "no message header: expected a nested header or a flat messageId"
  | .fields fault => fault.message
  | .wrongShape shape version =>
    shape.name ++ " message shape does not belong to a " ++ version.text ++ " lane"
  | .otherSource found lane =>
    "sourceChainSelector " ++ toString found.toNat ++ " does not match lane source " ++
      toString lane.toNat
  | .otherLane source dest laneSource laneDest =>
    "header selectors " ++ toString source.toNat ++ " -> " ++ toString dest.toNat ++
      " do not match lane " ++ toString laneSource.toNat ++ " -> " ++ toString laneDest.toNat
  | .unknownArgs bytes => "undecodable extraArgs " ++ Hex.text bytes
  | .gasTooWide amount => "destGasAmount " ++ toString amount.toNat ++ " exceeds u32"
  | .unknownExecData bytes => "unsupported destExecData " ++ Hex.text bytes
  | .tooLong => "borsh serialization failed: invalid input parameter"

inductive ProofFault where
  | nothingToProve
  | outside (index size : Nat)
  | tooManySteps (steps limit : Nat)
  | wrongRoot (indices : List Nat) (found root : Bytes32)
  | noLeaves
  | tooLarge (leaves proofs : Nat)
  | nothingToRead
  | tooFewProofs (step proofs : Nat)
  | leftover
deriving DecidableEq

def ProofFault.message : ProofFault → String
  | .nothingToProve => "no leaves to prove"
  | .outside index size =>
    "leaf index " ++ toString index ++ " outside a tree of " ++ toString size
  | .tooManySteps steps limit => toString steps ++ " hash steps exceed " ++ toString limit
  | .wrongRoot indices found root =>
    "proof for leaves [" ++ String.intercalate ", " (indices.map toString) ++ "] reconstructs " ++
      Hex.text found.toBytes ++ " instead of " ++ Hex.text root.toBytes
  | .noLeaves => "no leaves"
  | .tooLarge leaves proofs =>
    toString leaves ++ " leaves and " ++ toString proofs ++ " proofs exceed the verifier limits"
  | .nothingToRead => "step reads a hash that has not been computed yet"
  | .tooFewProofs step proofs =>
    "step " ++ toString step ++ " needs more than " ++ toString proofs ++ " proofs"
  | .leftover => "proof does not consume every leaf and proof exactly once"

/-- Every failure of the library but those of the byte readers. -/
inductive Error where
  | malformedEvent (fault : EventFault) (raw : String)
  | addressLength (family : Family) (expected actual : Nat) (raw : String)
  | badAddress (family : Family) (raw : String) (fault : AddressFault)
  | unknownFamily (name : String)
  | noLayout (variant : String) (family : Family)
  | badArgs (fault : ArgsFault)
  | sameEnds (selector : UInt64)
  | unknownVersion (raw : String)
  | rootMismatch (expected computed : Bytes32)
  | notInBatch (id : Bytes32)
  | incompleteBatch (least greatest : UInt64) (expected found : Nat)
  | emptyBatch
  | idMismatch (sequenceNumber : UInt64) (declared computed : Bytes32)
  | badProof (fault : ProofFault)
  | unknownSelector (selector : UInt64)
  | noScheme (family : Family) (version : Version)
  | badRegistry (fault : RegistryFault)
deriving DecidableEq

/-- Whose mistake an error is: of the caller's input, of the batch or expectation that does
not fit what was computed, or of the set-up. -/
inductive ErrorKind where
  | inputShape
  | consistency
  | configuration
deriving DecidableEq

namespace Error

def kind : Error → ErrorKind
  | .malformedEvent .. | .addressLength .. | .badAddress .. | .unknownFamily _
  | .noLayout .. | .badArgs _ | .sameEnds _ | .unknownVersion _ => .inputShape
  | .rootMismatch .. | .notInBatch _ | .incompleteBatch .. | .emptyBatch
  | .idMismatch .. | .badProof _ => .consistency
  | .unknownSelector _ | .noScheme .. | .badRegistry _ => .configuration

def message : Error → String
  | .malformedEvent fault raw => "Malformed log: " ++ fault.message ++ " (raw: " ++ raw ++ ")"
  | .addressLength family expected actual raw =>
    "Invalid " ++ family.name ++ " address length: expected " ++ toString expected ++
      " bytes, got " ++ toString actual ++ " (" ++ raw ++ ")"
  | .badAddress family raw fault =>
    "Invalid " ++ family.name ++ " address " ++ raw ++ ": " ++ fault.message
  | .unknownFamily name => "Unsupported chain family: " ++ name
  | .noLayout variant family =>
    variant ++ " cannot be encoded for messages originating on " ++ family.name
  | .badArgs fault => "Invalid extra args: " ++ fault.message
  | .sameEnds selector =>
    "Invalid lane: source and destination selector are both " ++ toString selector.toNat
  | .unknownVersion raw => "Unsupported protocol version: " ++ raw
  | .rootMismatch expected computed =>
    "Merkle root mismatch: expected " ++ Hex.text expected.toBytes ++ ", computed " ++
      Hex.text computed.toBytes
  | .notInBatch id => "Message " ++ Hex.text id.toBytes ++ " is not in the batch"
  | .incompleteBatch least greatest expected found =>
    "Incomplete batch for [" ++ toString least.toNat ++ ", " ++ toString greatest.toNat ++
      "]: expected " ++ toString expected ++ " messages, found " ++ toString found
  | .emptyBatch => "Batch contains no messages for the lane"
  | .idMismatch sequenceNumber declared computed =>
    "Message id mismatch at sequence number " ++ toString sequenceNumber.toNat ++
      ": declared " ++ Hex.text declared.toBytes ++ ", computed " ++ Hex.text computed.toBytes
  | .badProof fault => "Invalid proof: " ++ fault.message
  | .unknownSelector selector => "Unknown chain selector: " ++ toString selector.toNat
  | .noScheme family version =>
    "No leaf hasher for " ++ family.name ++ " destination at version " ++ version.text
  | .badRegistry fault => "Invalid chain registry: " ++ fault.message

end Error

def Family.parse (s : String) : Except Error Family :=
  match Family.ofName? s with
  | some f => .ok f
  | none => .error (.unknownFamily s)

def Version.parse (s : String) : Except Error Version :=
  match Version.ofText? s with
  | some v => .ok v
  | none => .error (.unknownVersion s)

end CrossChain
