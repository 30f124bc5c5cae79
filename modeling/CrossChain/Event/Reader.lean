import CrossChain.Event.Basic
/-! Reading events. A field of several words goes by two names, in camel case and in snake
case. Move chains wrap the message in an object of its own, which is looked through first. -/
namespace CrossChain

namespace EventField

open Json (LooseBytes Reader)

def messageId : Json.Field Bytes32 := .orName (.required "messageId" Reader.bytes32) "message_id"
def source : Json.Field UInt64 :=
  .orName (.required "sourceChainSelector" Reader.u64) "source_chain_selector"
def dest : Json.Field UInt64 :=
  .orName (.required "destChainSelector" Reader.u64) "dest_chain_selector"
def sequenceNumber : Json.Field UInt64 :=
  .orName (.required "sequenceNumber" Reader.u64) "sequence_number"
def nonce : Json.Field UInt64 := .required "nonce" Reader.u64
def sender : Json.Field LooseBytes := .required "sender" Reader.address
def receiver : Json.Field LooseBytes := .required "receiver" Reader.address
def data : Json.Field Bytes := .withDefault "data" [] Reader.bytes
def feeToken : Json.Field LooseBytes := .orName (.required "feeToken" Reader.address) "fee_token"
def feeTokenAmount : Json.Field U256 :=
  .orName (.withDefault "feeTokenAmount" 0 Reader.u256) "fee_token_amount"
def gasLimit : Json.Field U256 := .orName (.required "gasLimit" Reader.u256) "gas_limit"
def strict : Json.Field Bool := .withDefault "strict" false Reader.bool
def tokenData : Json.Field (List Bytes) :=
  .orName (.withDefault "sourceTokenData" [] Reader.bytesList) "source_token_data"
def extraArgs : Json.Field Bytes := .orName (.withDefault "extraArgs" [] Reader.bytes) "extra_args"
def feeValueJuels : Json.Field U256 :=
  .orName (.withDefault "feeValueJuels" 0 Reader.u256) "fee_value_juels"
def token : Json.Field LooseBytes := .required "token" Reader.address
def amount : Json.Field U256 := .required "amount" Reader.u256
def sourcePool : Json.Field LooseBytes :=
  .orName (.required "sourcePoolAddress" Reader.address) "source_pool_address"
def destToken : Json.Field LooseBytes :=
  .orName (.required "destTokenAddress" Reader.address) "dest_token_address"
def extraData : Json.Field Bytes := .orName (.withDefault "extraData" [] Reader.bytes) "extra_data"
def destGas : Json.Field (Option UInt64) :=
  .orName (.withDefault "destGasAmount" none (Reader.optional Reader.u64)) "dest_gas_amount"
def execData : Json.Field (Option Bytes) :=
  .orName (.withDefault "destExecData" none (Reader.optional Reader.bytes)) "dest_exec_data"

/-- Both shapes list their tokens under one name. -/
def tokens {α : Type} (item : Reader α) : Json.Field (List α) :=
  .orName (.withDefault "tokenAmounts" [] (Reader.list item)) "token_amounts"

end EventField

namespace EventReader

open EventField

def tokenAmount : Json.Reader Event.TokenAmount := fun v => do
  let members ← Json.members "RawLegacyTokenAmount" [token.slot, amount.slot] v
  return ⟨← token.get members, ← amount.get members⟩

def header : Json.Reader Event.Header := fun v => do
  let members ← Json.members "RawRampHeader"
    [messageId.slot, source.slot, dest.slot, sequenceNumber.slot, nonce.slot] v
  return ⟨← messageId.get members, ← source.get members, ← dest.get members,
    ← sequenceNumber.get members, ← nonce.get members⟩

def transfer : Json.Reader Event.Transfer := fun v => do
  let members ← Json.members "RawTokenTransfer"
    [sourcePool.slot, destToken.slot, extraData.slot, amount.slot, destGas.slot, execData.slot] v
  return ⟨← sourcePool.get members, ← destToken.get members, ← extraData.get members,
    ← amount.get members, ← destGas.get members, ← execData.get members⟩

def amounts : Json.Field (List Event.TokenAmount) := tokens tokenAmount

/-- In the order in which a record that is an array has them. -/
def legacySlots : List Json.Slot :=
  [source.slot, sequenceNumber.slot, nonce.slot, sender.slot, receiver.slot, gasLimit.slot,
    strict.slot, feeToken.slot, feeTokenAmount.slot, data.slot, amounts.slot,
    tokenData.slot, messageId.slot]

def legacy : Json.Reader Event.Legacy := fun v => do
  let members ← Json.members "RawLegacyMessage" legacySlots v
  return {
    source := ← source.get members
    sequenceNumber := ← sequenceNumber.get members
    nonce := ← nonce.get members
    sender := ← sender.get members
    receiver := ← receiver.get members
    gasLimit := ← gasLimit.get members
    strict := ← strict.get members
    feeToken := ← feeToken.get members
    feeTokenAmount := ← feeTokenAmount.get members
    data := ← data.get members
    amounts := ← amounts.get members
    tokenData := ← tokenData.get members
    id := ← messageId.get members }

def headerField : Json.Field Event.Header := .required "header" header
def transfers : Json.Field (List Event.Transfer) := tokens transfer

def rampSlots : List Json.Slot :=
  [headerField.slot, sender.slot, receiver.slot, data.slot, extraArgs.slot, feeToken.slot,
    feeTokenAmount.slot, feeValueJuels.slot, transfers.slot]

def ramp : Json.Reader Event.Ramp := fun v => do
  let members ← Json.members "RawRampMessage" rampSlots v
  return {
    header := ← headerField.get members
    sender := ← sender.get members
    receiver := ← receiver.get members
    data := ← data.get members
    extraArgs := ← extraArgs.get members
    feeToken := ← feeToken.get members
    feeTokenAmount := ← feeTokenAmount.get members
    feeValueJuels := ← feeValueJuels.get members
    transfers := ← transfers.get members }

end EventReader

namespace Event

/-- The message inside of a wrapper, or the value itself. -/
def unwrap (v : Json) : Json :=
  match v.get? "message" with
  | some inner => if inner.isObject then inner else v
  | none => v

/-- The shape of an object: a header that is an object, or else an identifier of its own. -/
def shapeOf (body : Json) : Except EventFault Shape :=
  if !body.isObject then .error .notAnObject
  else if ((body.get? "header").map Json.isObject).getD false then .ok .ramp
  else if (body.get? "messageId").isSome || (body.get? "message_id").isSome then .ok .legacy
  else .error .noHeader

def ofJson (v : Json) : Except EventFault Event := do
  let body := unwrap v
  match ← shapeOf body with
  | .ramp => return .ramp (← (EventReader.ramp body).mapError .fields)
  | .legacy => return .legacy (← (EventReader.legacy body).mapError .fields)

/-- An event that is not understood is quoted. -/
def read (v : Json) : Except Error Event :=
  (ofJson v).mapError (malformed v)

end Event

end CrossChain
