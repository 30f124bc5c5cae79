import CrossChain.ExtraArgs.Basic
import CrossChain.Lane
/-! Messages in their canonical form. The part that differs between the two generations of the
format is the body; everything else has one shape. -/
namespace CrossChain

namespace Message

structure Header where
  id : Bytes32
  source : UInt64
  dest : UInt64
  sequenceNumber : UInt64
  nonce : UInt64
deriving DecidableEq

structure TokenAmount where
  token : Address
  amount : U256
deriving DecidableEq

/-- An amount that a pool of the source chain sends to a token of the destination. -/
structure Transfer where
  sourcePool : Address
  destToken : Address
  destGas : UInt32
  extraData : Bytes
  amount : U256
deriving DecidableEq

/-- What only messages before 1.6 hold. -/
structure Legacy where
  strict : Bool
  gasLimit : U256
  amounts : List TokenAmount
  tokenData : List Bytes
deriving DecidableEq

structure Ramp where
  feeValueJuels : U256
  transfers : List Transfer
deriving DecidableEq

inductive Body where
  | legacy (body : Legacy)
  | ramp (body : Ramp)
deriving DecidableEq

end Message

/-- The arguments are kept as decoded and as the event carried them; a legacy message carries
none, and its arguments say what it was sent with. -/
structure Message where
  sourceFamily : Family
  destFamily : Family
  version : Version
  header : Message.Header
  sender : Address
  receiver : Address
  data : Bytes
  feeToken : Address
  feeTokenAmount : U256
  extraArgs : ExtraArgs
  rawExtraArgs : Bytes
  body : Message.Body
deriving DecidableEq

namespace Message

def gasLimit (m : Message) : U256 :=
  match m.body with
  | .legacy body => body.gasLimit
  | .ramp _ => m.extraArgs.gasLimit

def outOfOrder (m : Message) : Bool := m.extraArgs.outOfOrder

def legacy? (m : Message) : Option Legacy :=
  match m.body with
  | .legacy body => some body
  | .ramp _ => none

def ramp? (m : Message) : Option Ramp :=
  match m.body with
  | .legacy _ => none
  | .ramp body => some body

def hasTokens (m : Message) : Bool :=
  match m.body with
  | .legacy body => !body.amounts.isEmpty
  | .ramp body => !body.transfers.isEmpty

end Message

/-- Whether a message travels on a lane, by its ends and version. -/
def Lane.carries (lane : Lane) (m : Message) : Bool :=
  m.header.source = lane.source && m.header.dest = lane.dest && m.version = lane.version

end CrossChain
