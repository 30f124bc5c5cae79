import CrossChain.Address.Ton
import CrossChain.Json.Loose
import CrossChain.Keccak
/-! Addresses as text, and addresses in an event, which may be a text or bytes. -/
namespace CrossChain.Address

def relabel (cs : List Char) : Error → Error
  | .addressLength family expected actual _ =>
    .addressLength family expected actual (String.ofList cs)
  | .badAddress family _ fault => .badAddress family (String.ofList cs) fault
  | e => e

/-- The bytes of hexadecimal digits, with or without a mark. -/
def decodeHex (cs : List Char) (family : Family) : Except Error Bytes :=
  (Hex.decode ((Hex.dropMark? cs).getD cs)).mapError fun fault =>
    .badAddress family (String.ofList cs) (.hex fault)

def decodeBase58 (cs : List Char) (family : Family) : Except Error Bytes :=
  (Base58.decode cs).mapError fun fault => .badAddress family (String.ofList cs) (.base58 fault)

/-- The account of a Move address without its module. Short digits stand at the end of
the 32 bytes. -/
def parseAccount (cs account : List Char) (family : Family) : Except Error Address := do
  let digits := (Hex.dropMark? account).getD account
  let size := (Text.utf8 digits).length
  if digits = [] then throw (.badAddress family (String.ofList cs) .empty)
  if 64 < size then throw (.addressLength family 32 ((size + 1) / 2) (String.ofList cs))
  let padded := List.replicate (64 - digits.length) '0' ++ digits
  let bs ← (Hex.decode padded).mapError fun fault =>
    .badAddress family (String.ofList cs) (.hex fault)
  ofBytes bs family

def parseMove (cs : List Char) (family : Family) : Except Error Address :=
  match Text.cut? [':', ':'] cs with
  | none => parseAccount cs cs family
  | some (_, []) => .error (.badAddress family (String.ofList cs) .emptyModule)
  | some (account, name) =>
    (parseAccount cs account family).map (·.withModule (String.ofList name))

def parseTon (cs : List Char) : Except Error Address :=
  match Text.cut? [':'] cs with
  | some (workchain, hash) => Ton.parseRaw cs workchain hash
  | none =>
    if (Hex.dropMark? cs).isSome then do
      (ofBytes (← decodeHex cs .ton) .ton).mapError (relabel cs)
    else Ton.parseFriendly cs

def parse (s : String) (family : Family) : Except Error Address :=
  let cs := Text.trim s.toList
  match family with
  | .evm => do (ofBytes (← decodeHex cs .evm) .evm).mapError (relabel cs)
  | .svm => do
    let bs ← if (Hex.dropMark? cs).isSome then decodeHex cs .svm else decodeBase58 cs .svm
    (ofBytes bs .svm).mapError (relabel cs)
  | .aptos => parseMove cs .aptos
  | .sui => parseMove cs .sui
  | .ton => parseTon cs

/-- Hexadecimal digits with a checksum in their case: a letter is capital if the digit at
its place in the digest of the small digits is eight or more. -/
def checksumCase (digits : List Char) : List Char :=
  let digest := (keccak256 (Text.utf8 digits)).toBytes.flatMap fun b =>
    [b.toNat / 16, b.toNat % 16]
  digits.zipWith (fun c n => if 8 ≤ n then c.toUpper else c) digest

def accountText (bs : Bytes) : Family → List Char
  | .evm => '0' :: 'x' :: checksumCase (Hex.encode bs)
  | .svm => Base58.encode bs
  | .aptos | .sui => '0' :: 'x' :: Hex.encode bs
  | .ton =>
    (toString (Ton.workchainOf (bs.take 4))).toList ++ ':' :: Hex.encode (bs.drop 4)

def text (a : Address) : String :=
  let account := accountText a.bytes a.family
  match a.moduleName with
  | some name => String.ofList (account ++ ':' :: ':' :: name.toList)
  | none => String.ofList account

/-- The 32 bytes of an address; a TON address has more. -/
def toBytes32 (a : Address) : Except Error Bytes32 :=
  match Bytes32.ofBytes? a.crossChainBytes with
  | some w => .ok w
  | none => .error (.addressLength a.family 32 a.crossChainBytes.length a.text)

/-- The address an event means: its text as an address, failing that as bytes. -/
def resolve (raw : Json.LooseBytes) (family : Family) : Except Error Address :=
  match raw with
  | .bytes bs => ofBytes bs family
  | .text s =>
    match parse s family with
    | .ok a => .ok a
    | .error e =>
      match Json.parseBytes s with
      | .ok bs => if bs = [] then .error e else ofBytes bs family
      | .error _ => .error e

end CrossChain.Address
