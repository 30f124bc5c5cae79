import CrossChain.Error
import CrossChain.Json.Loose
/-! Message events as a chain reports them, in one of two shapes: the flat record of a legacy
message, or a record with a header. Addresses stay as they are spelled, since it takes the lane
to know the families they belong to. -/
namespace CrossChain

namespace Event

open Json (LooseBytes)

structure TokenAmount where
  token : LooseBytes
  amount : U256
deriving DecidableEq

structure Legacy where
  source : UInt64
  sequenceNumber : UInt64
  nonce : UInt64
  sender : LooseBytes
  receiver : LooseBytes
  gasLimit : U256
  strict : Bool
  feeToken : LooseBytes
  feeTokenAmount : U256
  data : Bytes
  amounts : List TokenAmount
  tokenData : List Bytes
  id : Bytes32
deriving DecidableEq

structure Header where
  id : Bytes32
  source : UInt64
  dest : UInt64
  sequenceNumber : UInt64
  nonce : UInt64
deriving DecidableEq

/-- The gas for the token on the destination is a number or, failing that, encoded. -/
structure Transfer where
  sourcePool : LooseBytes
  destToken : LooseBytes
  extraData : Bytes
  amount : U256
  destGas : Option UInt64
  execData : Option Bytes
deriving DecidableEq

structure Ramp where
  header : Header
  sender : LooseBytes
  receiver : LooseBytes
  data : Bytes
  extraArgs : Bytes
  feeToken : LooseBytes
  feeTokenAmount : U256
  feeValueJuels : U256
  transfers : List Transfer
deriving DecidableEq

end Event

inductive Event where
  | legacy (record : Event.Legacy)
  | ramp (record : Event.Ramp)
deriving DecidableEq

namespace Event

def shape : Event → Shape
  | .legacy _ => .legacy
  | .ramp _ => .ramp

/-- An error about an event quotes the start of it. -/
def malformed (event : Json) (fault : EventFault) : Error :=
  .malformedEvent fault event.excerpt

end Event

end CrossChain
