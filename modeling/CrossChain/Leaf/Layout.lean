import CrossChain.Abi
import CrossChain.Bcs.Writer
import CrossChain.Borsh
import CrossChain.Leaf.Content
/-! The bytes of the parts of a leaf: ABI words for EVM destinations, Borsh for Solana, BCS for
Aptos and Sui. -/
namespace CrossChain.Leaf

namespace LegacyContent

def abiHeader (c : LegacyContent) : Bytes :=
  Abi.tuple
    [.static c.sender.toBytes, .static c.receiver.toBytes,
      .static (Abi.word c.sequenceNumber.toNat), .static (Abi.word c.gasLimit.toNat),
      .static (Abi.bool c.strict), .static (Abi.word c.nonce.toNat), .static c.feeToken.toBytes,
      .static (Abi.word c.feeTokenAmount.toNat)]

def abiAmounts (c : LegacyContent) : Bytes :=
  Abi.single <| .dynamic <| Abi.array <| c.amounts.map fun (token, amount) =>
    .static (token.toBytes ++ Abi.word amount.toNat)

def abiTokenData (c : LegacyContent) : Bytes :=
  Abi.single (.dynamic (Abi.bytesList c.tokenData))

end LegacyContent

namespace TransferContent

def abi (t : TransferContent) : Bytes :=
  Abi.tuple
    [.dynamic (Abi.bytes t.sourcePool), .static t.destToken.toBytes,
      .static (Abi.word t.destGas.toNat), .dynamic (Abi.bytes t.extraData),
      .static (Abi.word t.amount.toNat)]

def borsh? (t : TransferContent) : Option Bytes := do
  return (← Borsh.bytes? t.sourcePool) ++ t.destToken.toBytes ++
    Bytes.ofNatLE 4 t.destGas.toNat ++ (← Borsh.bytes? t.extraData) ++
    Bytes.ofNatLE 32 t.amount.toNat

def bcs (t : TransferContent) : Bytes :=
  Bcs.bytes t.sourcePool ++ Bcs.address t.destToken ++ Bcs.u32 t.destGas ++
    Bcs.bytes t.extraData ++ Bcs.u256 t.amount

end TransferContent

namespace RampContent

def abiHeader (c : RampContent) : Bytes :=
  Abi.tuple
    [.static c.id.toBytes, .static c.receiver.toBytes,
      .static (Abi.word c.sequenceNumber.toNat), .static (Abi.word c.gasLimit.toNat),
      .static (Abi.word c.nonce.toNat)]

def abiTransfers (c : RampContent) : Bytes :=
  Abi.single <| .dynamic <| Abi.array <| c.transfers.map fun t => .dynamic t.abi

def bcsHeader (c : RampContent) : Bytes :=
  Bcs.address c.id ++ Bcs.address c.receiver ++ Bcs.u64 c.sequenceNumber ++
    Bcs.u256 c.gasLimit ++ Bcs.u64 c.nonce

def bcsTransfers (c : RampContent) : Bytes :=
  Bcs.length c.transfers.length ++ c.transfers.flatMap TransferContent.bcs

end RampContent

/-- The header for Sui also names who takes the tokens. -/
def SuiContent.bcsHeader (c : SuiContent) : Bytes :=
  Bcs.address c.id ++ Bcs.address c.receiver ++ Bcs.address c.tokenReceiver ++
    Bcs.u64 c.sequenceNumber ++ Bcs.u256 c.gasLimit ++ Bcs.u64 c.nonce

/-- The whole content, unless some part is too long for the layout. -/
def SolanaContent.borsh? (c : SolanaContent) : Option Bytes := do
  return c.id.toBytes ++ c.receiver.toBytes ++ c.tokenReceiver.toBytes ++
    Bytes.ofNatLE 8 c.sequenceNumber.toNat ++ Bytes.ofNatLE 4 c.units.toNat ++
    Bytes.ofNatLE 8 c.writable.toNat ++ (← Borsh.words? c.accounts) ++
    Bytes.ofNatLE 8 c.nonce.toNat ++ (← Borsh.bytes? c.sender) ++ (← Borsh.bytes? c.data) ++
    (← Borsh.list? TransferContent.borsh? c.transfers)

end CrossChain.Leaf
