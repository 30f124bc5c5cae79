import CrossChain.Json.Value
import CrossChain.Text.Base64
import CrossChain.Text.Hex
import CrossChain.Text.Numeral
import CrossChain.Text.Position
/-! Reading JSON values by shape: texts, lists, optional values, and records whose fields may
go by a second name. Members of an object are visited in their order and the first one that
offends is reported; a field that is missing is reported only after that. -/
namespace CrossChain.Json

inductive Fault where
  | wrongType (found : String) (expected : String)
  | noVariant (name : String)
  | missingField (name : String)
  | duplicateField (name : String)
  | wrongLength (length : Nat) (expected : String)
  | emptyInteger
  | badInteger (s : String) (fault : Numeral.Fault)
  | badHex (s : String) (fault : Hex.Fault)
  | badBase64 (s : String) (fault : Base64.Fault)
  | tooWide (value : U256)
  | wrongSize (length : Nat)
  | unknownFamily (name : String)
deriving DecidableEq

def Fault.message : Fault → String
  | .wrongType found expected => "invalid type: " ++ found ++ ", expected " ++ expected
  | .noVariant name => "data did not match any variant of untagged enum " ++ name
  | .missingField name => "missing field `" ++ name ++ "`"
  | .duplicateField name => "duplicate field `" ++ name ++ "`"
  | .wrongLength length expected =>
    "invalid length " ++ toString length ++ ", expected " ++ expected
  | .emptyInteger => "empty integer"
  | .badInteger s fault => "invalid integer '" ++ s ++ "': " ++ fault.message
  | .badHex s fault => "invalid hex '" ++ s ++ "': " ++ fault.message
  | .badBase64 s fault => "invalid base64 '" ++ s ++ "': " ++ fault.message
  | .tooWide value => toString value.toNat ++ " does not fit in u64"
  | .wrongSize length => "expected 32 bytes, got " ++ toString length
  | .unknownFamily name => Text.Position.normalize ("Unsupported chain family: " ++ name)

def describe : Json → String
  | .null => "null"
  | .bool b => "boolean `" ++ (if b then "true" else "false") ++ "`"
  | .number (.float x) => "floating point `" ++ Number.render (.float x) ++ "`"
  | .number n => "integer `" ++ n.render ++ "`"
  | .text s => "string " ++ Text.Quoted.text s
  | .array _ => "sequence"
  | .object _ => "map"

def wrongType (found : Json) (expected : String) : Fault :=
  .wrongType found.describe expected

abbrev Reader (α : Type) := Json → Except Fault α

namespace Reader

def text : Reader String
  | .text s => .ok s
  | v => .error (wrongType v "a string")

def bool : Reader Bool
  | .bool b => .ok b
  | v => .error (wrongType v "a boolean")

def list {α : Type} (item : Reader α) : Reader (List α)
  | .array items => items.mapM item
  | v => .error (wrongType v "a sequence")

/-- `null` is read as no value. -/
def optional {α : Type} (read : Reader α) : Reader (Option α)
  | .null => .ok none
  | v => (read v).map some

end Reader

/-- A field of a record: its names, how it is read, and what its absence stands for. -/
structure Field (α : Type) where
  name : String
  secondName : Option String
  absent : Option α
  read : Reader α

namespace Field

variable {α : Type}

def required (name : String) (read : Reader α) : Field α :=
  ⟨name, none, none, read⟩

def withDefault (name : String) (absent : α) (read : Reader α) : Field α :=
  ⟨name, none, some absent, read⟩

def orName (field : Field α) (name : String) : Field α :=
  { field with secondName := some name }

end Field

/-- A field without its type: enough to check a member against it. -/
structure Slot where
  name : String
  secondName : Option String
  isRequired : Bool
  check : Json → Except Fault Unit

def Field.slot {α : Type} (field : Field α) : Slot :=
  ⟨field.name, field.secondName, field.absent.isNone, fun v => (field.read v).map fun _ => ()⟩

def Slot.accepts (slot : Slot) (key : String) : Bool :=
  key == slot.name || slot.secondName == some key

abbrev Members := List (String × Json)

/-- Visits members in order; the names of the fields already seen come first. -/
def checkMembers (slots : List Slot) : List String → Members → Except Fault Unit
  | _, [] => .ok ()
  | seen, (key, v) :: rest =>
    match slots.find? (·.accepts key) with
    | none => checkMembers slots seen rest
    | some slot =>
      if slot.name ∈ seen then .error (.duplicateField slot.name)
      else do
        slot.check v
        checkMembers slots (slot.name :: seen) rest

def checkItems (expected : String) : Nat → List Slot → List Json → Except Fault Unit
  | _, [], [] => .ok ()
  | i, [], rest => .error (.wrongLength (i + rest.length) "fewer elements in array")
  | i, slot :: slots, [] =>
    if slot.isRequired then .error (.wrongLength i expected)
    else checkItems expected (i + 1) slots []
  | i, slot :: slots, v :: rest => do
    slot.check v
    checkItems expected (i + 1) slots rest

/-- The checked members of a record. An array gives its fields by position. -/
def members (typeName : String) (slots : List Slot) : Reader Members
  | .object members => do
    checkMembers slots [] members
    return members
  | .array items => do
    let expected := "struct " ++ typeName ++ " with " ++ toString slots.length ++ " elements"
    checkItems expected 0 slots items
    return (slots.map Slot.name).zip items
  | v => .error (wrongType v ("struct " ++ typeName))

def Field.get {α : Type} (field : Field α) (members : Members) : Except Fault α :=
  match members.find? fun m => field.slot.accepts m.1 with
  | some (_, v) => field.read v
  | none =>
    match field.absent with
    | some a => .ok a
    | none => .error (.missingField field.name)

end CrossChain.Json
