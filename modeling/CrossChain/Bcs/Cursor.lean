import CrossChain.Bcs.Item
/-! Reading BCS by position. The input stays whole, and a cursor says how far it has been read. Here
nothing is safe by itself: a difference may fall below zero, a part may reach beyond the input, a
shift may be as wide as its word, a loop may not come to its end. A reader that lets one of these
happen has no outcome at all. -/
namespace CrossChain.Bcs

/-- A place in the input, and how many items of lists were begun before it was reached. -/
structure Cursor where
  position : Nat
  begun : Nat
deriving DecidableEq

def Cursor.start : Cursor := ⟨0, 0⟩

def CheckedReader (α : Type) : Type := Bytes → Cursor → Option (Except Fault α × Cursor)

/-- The difference of two sizes. -/
def minus? (a b : Nat) : Option Nat := if b ≤ a then some (a - b) else none

/-- The part of a byte string between two places. -/
def slice? (data : Bytes) (start stop : Nat) : Option Bytes :=
  if start ≤ stop ∧ stop ≤ data.length then some ((data.drop start).take (stop - start)) else none

def shiftLeft? (w : UInt64) (count : Nat) : Option UInt64 :=
  if count < 64 then some (w <<< UInt64.ofNat count) else none

def shiftRight? (w : UInt64) (count : Nat) : Option UInt64 :=
  if count < 64 then some (w >>> UInt64.ofNat count) else none

namespace CheckedReader

instance : Monad CheckedReader where
  pure a := fun _ c => some (.ok a, c)
  bind read next := fun data c =>
    match read data c with
    | some (.ok a, c) => next a data c
    | some (.error e, c) => some (.error e, c)
    | none => none

variable {α β : Type} {read : CheckedReader α} {next : α → CheckedReader β} {data : Bytes}
  {c stop : Cursor}

theorem bind_of_ok {a : α} (h : read data c = some (.ok a, stop)) :
    (read >>= next) data c = next a data stop := by
  simp [bind, h]

theorem bind_of_error {e : Fault} (h : read data c = some (.error e, stop)) :
    (read >>= next) data c = some (.error e, stop) := by
  simp [bind, h]

def fail (e : Fault) : CheckedReader α := fun _ c => some (.error e, c)

/-- The value of a step that must be possible. -/
def must (a : Option α) : CheckedReader α := fun _ c => a.map fun a => (.ok a, c)

def remaining : CheckedReader Nat := fun data c => must (minus? data.length c.position) data c

def part (n : Nat) : CheckedReader Bytes := fun data c =>
  must (slice? data c.position (c.position + n)) data c

def advance (n : Nat) : CheckedReader Unit := fun _ c =>
  some (.ok (), { c with position := c.position + n })

def beginItem : CheckedReader Unit := fun _ c => some (.ok (), { c with begun := c.begun + 1 })

def take (n : Nat) : CheckedReader Bytes := do
  let left ← remaining
  if left < n then fail (.unexpectedEnd n left)
  else
    let bs ← part n
    advance n
    return bs

/-- Bytes that are copied to where there is room for exactly so many. -/
def array (n : Nat) : CheckedReader Bytes := do
  let bs ← take n
  must (if bs.length = n then some bs else none)

def natural (width : Nat) : CheckedReader Nat := Bytes.toNatLE <$> array width

def u8 : CheckedReader UInt8 := UInt8.ofNat <$> natural 1

def u16 : CheckedReader UInt16 := UInt16.ofNat <$> natural 2

def u32 : CheckedReader UInt32 := UInt32.ofNat <$> natural 4

def u64 : CheckedReader UInt64 := UInt64.ofNat <$> natural 8

def u256 : CheckedReader U256 := BitVec.ofNat 256 <$> natural 32

def bool : CheckedReader Bool := do
  let b ← u8
  if b = 0 then return false
  else if b = 1 then return true
  else fail (.badBool b)

/-- The rest of a length, in words of 64 bits. A digit fits its place if nothing is lost by moving
it there and back. -/
def lengthRounds : Nat → UInt64 → Nat → CheckedReader Nat
  | 0, _, _ => must none
  | rounds + 1, known, place => do
    let b ← u8
    let digit := (b &&& 0x7F).toUInt64
    if 64 ≤ place then fail .lengthOverflow
    else
      let moved ← must (shiftLeft? digit place)
      let back ← must (shiftRight? moved place)
      if 0 < place ∧ back ≠ digit then fail .lengthOverflow
      else
        let known := known ||| moved
        if b &&& 0x80 ≠ 0 then lengthRounds rounds known (place + 7)
        else if 0 < place ∧ digit = 0 then fail .longLength
        else if Reader.maxLength < known.toNat then fail .lengthOverflow
        else return known.toNat

/-- The rounds that a length may take: ten digits of seven bits, and one that comes too late. -/
def lengthLimit : Nat := 11

def length : CheckedReader Nat := lengthRounds lengthLimit 0 0

def address : CheckedReader Bytes32 := do
  let bs ← array 32
  must (Bytes32.ofBytes? bs)

def bytes : CheckedReader Bytes := do
  let n ← length
  take n

def many (item : CheckedReader α) : Nat → CheckedReader (List α)
  | 0 => pure []
  | n + 1 => do
    beginItem
    let a ← item
    let rest ← many item n
    return a :: rest

def addresses : CheckedReader (List Bytes32) := do
  let n ← length
  let left ← remaining
  if left / 32 < n then fail (.unexpectedEnd (n * 32) left) else many address n

def bytesList : CheckedReader (List Bytes) := do
  let n ← length
  let left ← remaining
  if left < n then fail (.unexpectedEnd n left) else many bytes n

end CheckedReader

namespace Kind

def readAt : Kind → CheckedReader Item
  | .u8 => Item.u8 <$> CheckedReader.u8
  | .u16 => Item.u16 <$> CheckedReader.u16
  | .u32 => Item.u32 <$> CheckedReader.u32
  | .u64 => Item.u64 <$> CheckedReader.u64
  | .u256 => Item.u256 <$> CheckedReader.u256
  | .bool => Item.bool <$> CheckedReader.bool
  | .length => Item.length <$> CheckedReader.length
  | .address => Item.address <$> CheckedReader.address
  | .bytes => Item.bytes <$> CheckedReader.bytes
  | .addresses => Item.addresses <$> CheckedReader.addresses
  | .bytesList => Item.bytesList <$> CheckedReader.bytesList

/-- The cursor after values have been read in a row, whether or not the readers succeed. -/
def cursorAfter (data : Bytes) : List Kind → Cursor → Option Cursor
  | [], c => some c
  | k :: ks, c => (k.readAt data c).bind fun done => cursorAfter data ks done.2

/-- What the readers leave of the input when they read in a row, whether or not they succeed. -/
def restAfter (kinds : List Kind) (data : Bytes) : Bytes :=
  kinds.foldl (fun rest k => (k.read rest).2) data

end Kind

end CrossChain.Bcs
