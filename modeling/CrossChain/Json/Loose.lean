import CrossChain.Json.Record
/-! Numbers and byte strings in the spellings that events use: a number as itself or as a
decimal or hexadecimal text, a byte string as hexadecimal or base 64 text or as an array. -/
namespace CrossChain.Json

/-- The number a text spells, blanks around it aside. -/
def parseInteger (s : String) : Except Fault U256 :=
  let cs := Text.trim s.toList
  if cs = [] then .error .emptyInteger
  else
    let parsed := match Hex.dropMark? cs with
      | some digits => Numeral.u256OfHex digits
      | none => Numeral.u256OfDecimal cs
    parsed.mapError (.badInteger (String.ofList cs))

def parseBytes (s : String) : Except Fault Bytes :=
  let cs := Text.trim s.toList
  match Hex.dropMark? cs with
  | some digits => (Hex.decode digits).mapError (.badHex (String.ofList cs))
  | none => (Base64.decode .standard cs).mapError (.badBase64 (String.ofList cs))

/-- A byte string before its text is read. -/
inductive LooseBytes where
  | text (s : String)
  | bytes (bs : Bytes)
deriving DecidableEq

def LooseBytes.toBytes : LooseBytes → Except Fault Bytes
  | .text s => parseBytes s
  | .bytes bs => .ok bs

namespace Reader

def byte? : Json → Option UInt8
  | .number (.natural n) => if n.toNat < 256 then some (UInt8.ofNat n.toNat) else none
  | _ => none

/-- A text or an array of bytes; the name says in which role it was expected. -/
def loose (name : String) : Reader LooseBytes
  | .text s => .ok (.text s)
  | .array items =>
    match items.mapM byte? with
    | some bs => .ok (.bytes bs)
    | none => .error (.noVariant name)
  | _ => .error (.noVariant name)

def bytesLike : Reader LooseBytes := loose "BytesLike"

def address : Reader LooseBytes := loose "RawAddress"

def u256 : Reader U256
  | .number (.natural n) => .ok (BitVec.ofNat 256 n.toNat)
  | .text s => parseInteger s
  | _ => .error (.noVariant "NumberLike")

def narrow (n : U256) : Except Fault UInt64 :=
  if n.toNat < UInt64.size then .ok (UInt64.ofNat n.toNat) else .error (.tooWide n)

def u64 : Reader UInt64 := fun v => do narrow (← u256 v)

def bytes : Reader Bytes := fun v => do (← bytesLike v).toBytes

/-- All items are checked for their shape before the first text is read. -/
def bytesList : Reader (List Bytes) := fun v => do
  (← list bytesLike v).mapM LooseBytes.toBytes

def bytes32 : Reader Bytes32 := fun v => do
  let bs ← bytes v
  match Bytes32.ofBytes? bs with
  | some w => return w
  | none => throw (.wrongSize bs.length)

end Reader

end CrossChain.Json
