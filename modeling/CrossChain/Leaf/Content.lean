import CrossChain.Message.Basic
/-! What a leaf says about a message: the fields that are hashed, addresses as the words or
bytes that stand for them. A message without such a content has no leaf under the scheme. -/
namespace CrossChain

def Address.evmWord (a : Address) : Except Error Bytes32 :=
  if h : a.family = .evm then
    .ok ⟨a.crossChainBytes, by simp [length_crossChainBytes, h]⟩
  else .error (.badAddress .evm a.text (.notEvm a.family))

namespace Leaf

/-- A message whose body belongs to another generation than the scheme. -/
def noBody (m : Message) : Error := .noScheme m.destFamily m.version

structure LegacyContent where
  sender : Bytes32
  receiver : Bytes32
  sequenceNumber : UInt64
  gasLimit : U256
  strict : Bool
  nonce : UInt64
  feeToken : Bytes32
  feeTokenAmount : U256
  data : Bytes
  amounts : List (Bytes32 × U256)
  tokenData : List Bytes
deriving DecidableEq

structure TransferContent where
  sourcePool : Bytes
  destToken : Bytes32
  destGas : UInt32
  extraData : Bytes
  amount : U256
deriving DecidableEq

structure RampContent where
  id : Bytes32
  receiver : Bytes32
  sequenceNumber : UInt64
  gasLimit : U256
  nonce : UInt64
  sender : Bytes
  data : Bytes
  transfers : List TransferContent
deriving DecidableEq

structure SolanaContent extends RampContent where
  units : UInt32
  writable : UInt64
  tokenReceiver : Bytes32
  accounts : List Bytes32
deriving DecidableEq

structure SuiContent extends RampContent where
  tokenReceiver : Bytes32
  objectIds : List Bytes32
deriving DecidableEq

def LegacyContent.ofMessage (m : Message) : Except Error LegacyContent := do
  match m.body with
  | .ramp _ => throw (noBody m)
  | .legacy body =>
    return {
      sender := ← m.sender.evmWord
      receiver := ← m.receiver.evmWord
      sequenceNumber := m.header.sequenceNumber
      gasLimit := body.gasLimit
      strict := body.strict
      nonce := m.header.nonce
      feeToken := ← m.feeToken.evmWord
      feeTokenAmount := m.feeTokenAmount
      data := m.data
      amounts := ← body.amounts.mapM fun t => do return (← t.token.evmWord, t.amount)
      tokenData := body.tokenData }

/-- The transfers of a message. The destination decides how its tokens become words. -/
def transfers (toWord : Address → Except Error Bytes32) (m : Message) :
    Except Error (List TransferContent) :=
  match m.body with
  | .legacy _ => .error (noBody m)
  | .ramp body => body.transfers.mapM fun t => do
    let destToken ← toWord t.destToken
    return ⟨t.sourcePool.crossChainBytes, destToken, t.destGas, t.extraData, t.amount⟩

namespace RampContent

def ofParts (m : Message) (receiver : Bytes32) (transfers : List TransferContent) : RampContent :=
  { id := m.header.id
    receiver
    sequenceNumber := m.header.sequenceNumber
    gasLimit := m.gasLimit
    nonce := m.header.nonce
    sender := m.sender.crossChainBytes
    data := m.data
    transfers }

/-- The receiver is looked at before the transfers. -/
def ofMessage (toWord : Address → Except Error Bytes32) (m : Message) :
    Except Error RampContent := do
  match m.body with
  | .legacy _ => throw (noBody m)
  | .ramp _ =>
    let receiver ← toWord m.receiver
    return ofParts m receiver (← Leaf.transfers toWord m)

end RampContent

/-- The arguments must be those of Solana, and transfers are looked at before the receiver. -/
def SolanaContent.ofMessage (m : Message) : Except Error SolanaContent := do
  match m.body, m.extraArgs with
  | .legacy _, _ => throw (noBody m)
  | .ramp _, .svmV1 units writable _ tokenReceiver accounts =>
    let transfers ← Leaf.transfers Address.toBytes32 m
    let receiver ← m.receiver.toBytes32
    let content := RampContent.ofParts m receiver transfers
    return { content with units, writable, tokenReceiver, accounts }
  | .ramp _, args => throw (.badArgs (.notSolana args.variant.name))

/-- Other arguments than those of Sui name no token receiver and no objects. -/
def SuiContent.ofMessage (m : Message) : Except Error SuiContent := do
  let content ← RampContent.ofMessage Address.toBytes32 m
  match m.extraArgs with
  | .suiV1 _ _ tokenReceiver objectIds => return { content with tokenReceiver, objectIds }
  | _ => return { content with tokenReceiver := .zero, objectIds := [] }

end Leaf

end CrossChain
