import CrossChain.Event.Reader
import CrossChain.ExtraArgs.Codec
import CrossChain.Message.Basic
/-! The message an event on a lane stands for. Sender, fee token and what tokens leave belong to
the family of the source, receiver and what tokens reach to that of the destination. -/
namespace CrossChain

namespace Event

/-- The gas of a transfer: a number, or 32 or 4 bytes that spell one, the former with the most
significant byte first. -/
def Transfer.gas (t : Transfer) : Except EventFault UInt32 :=
  match t.destGas with
  | some n => if n.toNat < UInt32.size then .ok (UInt32.ofNat n.toNat) else .error (.gasTooWide n)
  | none =>
    let bs := t.execData.getD []
    if bs = [] then .ok 0
    else if bs.length = 4 then .ok (UInt32.ofNat (Bytes.toNatLE bs))
    else if bs.length = 32 ∧ (bs.take 28).all (· = 0) then
      .ok (UInt32.ofNat (Bytes.toNatBE (bs.drop 28)))
    else .error (.unknownExecData bs)

def Legacy.args (e : Legacy) : Version → ExtraArgs
  | .v1_2 => .evmV1 e.gasLimit
  | _ => .evmV2 e.gasLimit (e.nonce = 0)

/-- No bytes stand for the first variant with the default gas limit. -/
def Ramp.args (e : Ramp) : Except EventFault ExtraArgs :=
  if e.extraArgs = [] then .ok (.evmV1 (BitVec.ofNat 256 ExtraArgs.defaultGasLimit))
  else match ExtraArgs.decode? e.extraArgs with
    | some args => .ok args
    | none => .error (.unknownArgs e.extraArgs)

end Event

namespace Message

open Event (malformed)

/-- The message of a legacy record; the event is for quoting. -/
def ofLegacy (lane : Lane) (ends : Lane.Ends) (event : Json) (e : Event.Legacy) :
    Except Error Message := do
  if e.source ≠ lane.source then
    throw (malformed event (.otherSource e.source lane.source))
  let amounts ← e.amounts.mapM fun t => do
    return { token := ← Address.resolve t.token ends.source, amount := t.amount : TokenAmount }
  return {
    sourceFamily := ends.source
    destFamily := ends.dest
    version := lane.version
    header := ⟨e.id, e.source, lane.dest, e.sequenceNumber, e.nonce⟩
    sender := ← Address.resolve e.sender ends.source
    receiver := ← Address.resolve e.receiver ends.dest
    data := e.data
    feeToken := ← Address.resolve e.feeToken ends.source
    feeTokenAmount := e.feeTokenAmount
    extraArgs := e.args lane.version
    rawExtraArgs := []
    body := .legacy ⟨e.strict, e.gasLimit, amounts, e.tokenData⟩ }

def ofTransfer (ends : Lane.Ends) (event : Json) (t : Event.Transfer) : Except Error Transfer := do
  return {
    sourcePool := ← Address.resolve t.sourcePool ends.source
    destToken := ← Address.resolve t.destToken ends.dest
    destGas := ← t.gas.mapError (malformed event)
    extraData := t.extraData
    amount := t.amount }

def ofRamp (lane : Lane) (ends : Lane.Ends) (event : Json) (e : Event.Ramp) :
    Except Error Message := do
  let h := e.header
  if h.source ≠ lane.source ∨ h.dest ≠ lane.dest then
    throw (malformed event (.otherLane h.source h.dest lane.source lane.dest))
  let extraArgs ← e.args.mapError (malformed event)
  let transfers ← e.transfers.mapM (ofTransfer ends event)
  return {
    sourceFamily := ends.source
    destFamily := ends.dest
    version := lane.version
    header := ⟨h.id, h.source, h.dest, h.sequenceNumber, h.nonce⟩
    sender := ← Address.resolve e.sender ends.source
    receiver := ← Address.resolve e.receiver ends.dest
    data := e.data
    feeToken := ← Address.resolve e.feeToken ends.source
    feeTokenAmount := e.feeTokenAmount
    extraArgs
    rawExtraArgs := e.extraArgs
    body := .ramp ⟨e.feeValueJuels, transfers⟩ }

def ofEvent (registry : Registry) (lane : Lane) (event : Json) : Except Error Message := do
  let ends ← lane.ends registry
  match ← Event.read event, lane.version.isLegacy with
  | .legacy e, true => ofLegacy lane ends event e
  | .ramp e, false => ofRamp lane ends event e
  | e, _ => throw (malformed event (.wrongShape e.shape lane.version))

def ofEvents (registry : Registry) (lane : Lane) (events : List Json) :
    Except Error (List Message) :=
  events.mapM (ofEvent registry lane)

end Message

end CrossChain
