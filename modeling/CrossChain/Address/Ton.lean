import CrossChain.Address.Basic
import CrossChain.Crc16
/-! The two texts of a TON address: `workchain:hash`, and a base 64 payload of a tag, one byte
of workchain, the hash and a checksum. -/
namespace CrossChain.Ton

/-- A workchain number as four bytes, the negative ones counted down from `2 ^ 32`. -/
def workchainBytes (workchain : Int) : Bytes :=
  Bytes.ofNatBE 4 (workchain % 0x100000000).toNat

def workchainOf (bs : Bytes) : Int :=
  let n := Bytes.toNatBE bs
  if n < 0x80000000 then n else (n : Int) - 0x100000000

/-- The number one byte stands for, from `-128` on. -/
def smallWorkchain (b : UInt8) : Int :=
  if b.toNat < 128 then b.toNat else (b.toNat : Int) - 256

/-- The lower six bits of a tag; the others say how a wallet treats the address. -/
def isTag (b : UInt8) : Bool :=
  b &&& 0x3F == 0x11

def isChecked (payload : Bytes) : Bool :=
  payload.drop 34 == Crc16.trailer (payload.take 34)

def payload (tag workchain : UInt8) (hash : Bytes32) : Bytes :=
  let body := tag :: workchain :: hash.toBytes
  body ++ Crc16.trailer body

def parseFriendly (cs : List Char) : Except Error Address := do
  let bad fault := Error.badAddress .ton (String.ofList cs) fault
  let bs ← match Base64.decode .url cs with
    | .ok bs => pure bs
    | .error _ => (Base64.decode .standard cs).mapError fun fault => bad (.base64 fault)
  match bs with
  | tag :: workchain :: rest =>
    if bs.length ≠ 36 then throw (.addressLength .ton 36 bs.length (String.ofList cs))
    if !isTag tag then throw (bad .unknownTag)
    if !isChecked bs then throw (bad .badChecksum)
    Address.ofBytes (workchainBytes (smallWorkchain workchain) ++ rest.take 32) .ton
  | _ => throw (.addressLength .ton 36 bs.length (String.ofList cs))

def parseRaw (cs workchain hash : List Char) : Except Error Address := do
  let bad fault := Error.badAddress .ton (String.ofList cs) fault
  match Numeral.int32? workchain with
  | none => throw (bad .badWorkchain)
  | some w =>
    let bs ← (Hex.decode hash).mapError fun fault => bad (.hex fault)
    if bs.length ≠ 32 then throw (.addressLength .ton 32 bs.length (String.ofList cs))
    Address.ofBytes (workchainBytes w ++ bs) .ton

end CrossChain.Ton
