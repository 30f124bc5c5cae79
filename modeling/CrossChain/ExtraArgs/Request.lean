import CrossChain.Address.Text
import CrossChain.ExtraArgs.Basic
/-! Arguments as a caller asks for them, every field optional, and what a destination family
makes of them. A field of the generic variant selects it; otherwise the family decides, and
fields of another family are refused. -/
namespace CrossChain.ExtraArgs

structure Request where
  gasLimit : Option U256
  outOfOrder : Option Bool
  computeUnits : Option UInt64
  writable : Option UInt64
  accounts : Option (List String)
  tokenReceiver : Option String
  objectIds : Option (List String)
  confirmations : Option UInt64
  executor : Option String
  executorArgs : Option Bytes
  verifiers : Option (List String)
  verifierArgs : Option (List Bytes)
  tokenArgs : Option Bytes
deriving DecidableEq

namespace RequestField

open Json (Reader)

/-- A field that may be missing or `null`, under its second name too. -/
def optional {α : Type} (name secondName : String) (read : Reader α) : Json.Field (Option α) :=
  ⟨name, some secondName, some none, Reader.optional read⟩

def optionalOnly {α : Type} (name : String) (read : Reader α) : Json.Field (Option α) :=
  ⟨name, none, some none, Reader.optional read⟩

def gasLimit := optional "gasLimit" "gas_limit" Reader.u256
def outOfOrder :=
  optional "allowOutOfOrderExecution" "allow_out_of_order_execution" Reader.bool
def computeUnits := optional "computeUnits" "compute_units" Reader.u64
def writable := optional "accountIsWritableBitmap" "account_is_writable_bitmap" Reader.u64
def accounts := optionalOnly "accounts" (Reader.list Reader.text)
def tokenReceiver := optional "tokenReceiver" "token_receiver" Reader.text
def objectIds := optional "receiverObjectIds" "receiver_object_ids" (Reader.list Reader.text)
def confirmations := optional "blockConfirmations" "block_confirmations" Reader.u64
def executor := optionalOnly "executor" Reader.text
def executorArgs := optional "executorArgs" "executor_args" Reader.bytes
def verifiers := optionalOnly "ccvs" (Reader.list Reader.text)
def verifierArgs := optional "ccvArgs" "ccv_args" Reader.bytesList
def tokenArgs := optional "tokenArgs" "token_args" Reader.bytes

def slots : List Json.Slot :=
  [gasLimit.slot, outOfOrder.slot, computeUnits.slot, writable.slot, accounts.slot,
    tokenReceiver.slot, objectIds.slot, confirmations.slot, executor.slot, executorArgs.slot,
    verifiers.slot, verifierArgs.slot, tokenArgs.slot]

end RequestField

namespace Request

def read : Json.Reader Request := fun v => do
  let members ← Json.members "ExtraArgsInput" RequestField.slots v
  return {
    gasLimit := ← RequestField.gasLimit.get members
    outOfOrder := ← RequestField.outOfOrder.get members
    computeUnits := ← RequestField.computeUnits.get members
    writable := ← RequestField.writable.get members
    accounts := ← RequestField.accounts.get members
    tokenReceiver := ← RequestField.tokenReceiver.get members
    objectIds := ← RequestField.objectIds.get members
    confirmations := ← RequestField.confirmations.get members
    executor := ← RequestField.executor.get members
    executorArgs := ← RequestField.executorArgs.get members
    verifiers := ← RequestField.verifiers.get members
    verifierArgs := ← RequestField.verifierArgs.get members
    tokenArgs := ← RequestField.tokenArgs.get members }

/-- Whether a field is set that only the generic variant has. -/
def isGeneric (r : Request) : Bool :=
  r.confirmations.isSome || r.executor.isSome || r.executorArgs.isSome || r.verifiers.isSome ||
    r.verifierArgs.isSome || r.tokenArgs.isSome

def isSolana (r : Request) : Bool :=
  r.computeUnits.isSome || r.writable.isSome || r.accounts.isSome

/-- The gas asked for, or what a message with or without data is given. -/
def gas (r : Request) (hasData : Bool) : U256 :=
  r.gasLimit.getD (if hasData then BitVec.ofNat 256 defaultGasLimit else 0)

def inOrder (r : Request) : Bool := r.outOfOrder.getD true

/-- A number that must fit a field of the arguments. -/
def fitting (field : String) (bits n : Nat) : Except Error Nat :=
  if n < 1 <<< bits then .ok n else .error (.badArgs (.tooWide field n bits))

def parseWord (family : Family) (s : String) : Except Error Bytes32 := do
  (← Address.parse s family).toBytes32

def parseAccount (family : Family) (s : String) : Except Error Bytes := do
  return (← Address.parse s family).bytes

def optionalAccount (family : Family) : Option String → Except Error Bytes
  | some s => parseAccount family s
  | none => .ok []

/-- The arguments of the generic variant, which any destination may take. -/
def generic (r : Request) (dest : Family) (gas : U256) : Except Error ExtraArgs := do
  let gas ← fitting "gasLimit" 32 gas.toNat
  let confirmations ← fitting "blockConfirmations" 16 (r.confirmations.getD 0).toNat
  let executor ← optionalAccount dest r.executor
  let verifiers ← (r.verifiers.getD []).mapM (parseAccount dest)
  let receiver ← optionalAccount dest r.tokenReceiver
  return .genericV3 (UInt32.ofNat gas) (UInt16.ofNat confirmations) executor
    (r.executorArgs.getD []) verifiers (r.verifierArgs.getD []) receiver (r.tokenArgs.getD [])

/-- With tokens the recipient becomes the token receiver, and the message goes to the zero
address. -/
def splitReceiver (r : Request) (receiver : Address) (hasTokens : Bool) :
    Except Error (Address × Bytes32) := do
  let explicit ← r.tokenReceiver.mapM (parseWord receiver.family)
  if !hasTokens then return (receiver, explicit.getD .zero)
  let tokenReceiver ← match explicit with
    | some w => pure w
    | none => receiver.toBytes32
  if tokenReceiver.isZero then throw (.badArgs (.zeroTokenReceiver receiver.family))
  return (.zero receiver.family, tokenReceiver)

end Request

/-- A receiver and arguments that can be put on a message. -/
structure Prepared where
  receiver : Address
  args : ExtraArgs
deriving DecidableEq

namespace Request

def prepareEvm (r : Request) (dest : Family) (receiver : Address) (gas : U256) :
    Except Error Prepared :=
  if r.tokenReceiver.isSome then .error (.badArgs (.tokenReceiver dest))
  else .ok ⟨receiver, .evmV2 gas r.inOrder⟩

def prepareSolana (r : Request) (receiver : Address) (gas : U256) (hasTokens : Bool) :
    Except Error Prepared := do
  let units ← fitting "computeUnits" 32 ((r.computeUnits.map UInt64.toNat).getD gas.toNat)
  let accounts ← (r.accounts.getD []).mapM (parseWord .svm)
  let (receiver, tokenReceiver) ← r.splitReceiver receiver hasTokens
  return ⟨receiver, .svmV1 (UInt32.ofNat units) (r.writable.getD 0) r.inOrder tokenReceiver
    accounts⟩

def prepareSui (r : Request) (receiver : Address) (gas : U256) (hasTokens : Bool) :
    Except Error Prepared := do
  let gas ← fitting "gasLimit" 64 gas.toNat
  let objectIds ← (r.objectIds.getD []).mapM (parseWord .sui)
  let (receiver, tokenReceiver) ← r.splitReceiver receiver hasTokens
  return ⟨receiver, .suiV1 (UInt64.ofNat gas) r.inOrder tokenReceiver objectIds⟩

/-- The arguments of a message to a receiver in the destination family. A field of the
generic variant selects it, whatever the destination. -/
def prepare (r : Request) (dest : Family) (receiver : Address) (hasData hasTokens : Bool) :
    Except Error Prepared := do
  if receiver.family ≠ dest then
    throw (.badAddress dest receiver.text (.receiverOf receiver.family))
  let gas := r.gas hasData
  if r.isGeneric then return ⟨receiver, ← r.generic dest gas⟩
  if r.isSolana ∧ dest ≠ .svm then throw (.badArgs (.solanaFields dest))
  if r.objectIds.isSome ∧ dest ≠ .sui then throw (.badArgs (.objectIds dest))
  match dest with
  | .evm | .aptos | .ton => r.prepareEvm dest receiver gas
  | .svm => r.prepareSolana receiver gas hasTokens
  | .sui => r.prepareSui receiver gas hasTokens

end Request

end CrossChain.ExtraArgs
