import CrossChain.ExtraArgs.Body
/-! Writing tagged arguments for an origin, and reading them back without being told the
origin: a layout is accepted if writing what it reads gives the same bytes again. -/
namespace CrossChain.ExtraArgs

namespace Layout

/-- The bytes behind the tag. The origin is only named in an error. -/
def encodeBody (layout : Layout) (args : ExtraArgs) (origin : Family) : Except Error Bytes :=
  match layout, args with
  | .abi, _ => .ok args.abiBody
  | .borsh, .evmV1 _ => .error (.noLayout args.variant.name origin)
  | .borsh, .evmV2 gas _ =>
    match args.borshBody? with
    | some body => .ok body
    | none => .error (.badArgs (.gasLimitForSolana gas.toNat))
  | .borsh, _ =>
    match args.borshBody? with
    | some body => .ok body
    | none => .error (.badArgs .tooLong)
  | .bcs, _ =>
    match args.bcsBody? with
    | some body => .ok body
    | none => .error (.noLayout args.variant.name origin)

def decodeBody (layout : Layout) (v : Variant) (body : Bytes) : Option ExtraArgs :=
  match layout with
  | .abi => (abiDecoder v).run? body
  | .borsh => (borshDecoder v).run? body
  | .bcs => bcsDecode v body

/-- What the layout reads, if it is also how that is written. -/
def accept? (layout : Layout) (v : Variant) (body : Bytes) : Option ExtraArgs := do
  let args ← layout.decodeBody v body
  if (layout.encodeBody args layout.origin).toOption = some body then some args else none

end Layout

/-- The layouts that bytes of some length may have. The EVM variants have a fixed length
in each. -/
def Variant.layouts (v : Variant) (length : Nat) : List Layout :=
  match v, length with
  | .evmV1, 36 => [.abi]
  | .evmV1, _ => []
  | .evmV2, 68 => [.abi]
  | .evmV2, 21 => [.borsh]
  | .evmV2, 37 => [.bcs]
  | .evmV2, _ => []
  | _, _ => [.abi, .borsh, .bcs]

def encode (args : ExtraArgs) (origin : Family) : Except Error Bytes :=
  match Layout.ofOrigin? origin with
  | none => .error (.noLayout args.variant.name origin)
  | some layout => (layout.encodeBody args origin).map (args.variant.tag ++ ·)

def decodeWithLayout? (bs : Bytes) : Option (ExtraArgs × Layout) := do
  let v ← Variant.ofTag? (bs.take 4)
  (v.layouts bs.length).findSome? fun layout =>
    (layout.accept? v (bs.drop 4)).map fun args => (args, layout)

def decode? (bs : Bytes) : Option ExtraArgs :=
  (decodeWithLayout? bs).map Prod.fst

end CrossChain.ExtraArgs
