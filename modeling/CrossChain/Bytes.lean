/-! Byte strings, the fixed-width numbers written in them, and 32-byte words. Main statement: a
number has one written form of each width. -/
namespace CrossChain

abbrev Bytes := List UInt8

abbrev U256 := BitVec 256

namespace Bytes

/-- The `width` lowest base-256 digits of a number, the least significant first. -/
def ofNatLE : Nat → Nat → Bytes
  | 0, _ => []
  | width + 1, n => UInt8.ofNat n :: ofNatLE width (n / 256)

def toNatLE : Bytes → Nat
  | [] => 0
  | b :: bs => b.toNat + 256 * toNatLE bs

/-- The `width` lowest base-256 digits of a number, the most significant first. -/
def ofNatBE (width n : Nat) : Bytes :=
  (ofNatLE width n).reverse

def toNatBE (bs : Bytes) : Nat :=
  toNatLE bs.reverse

@[simp] theorem length_ofNatLE (width n : Nat) : (ofNatLE width n).length = width := by
  induction width generalizing n with
  | zero => rfl
  | succ width ih => simp [ofNatLE, ih]

@[simp] theorem length_ofNatBE (width n : Nat) : (ofNatBE width n).length = width := by
  simp [ofNatBE]

/-- A byte string of some width is what its number is written as in that width. -/
theorem ofNatLE_toNatLE (bs : Bytes) : ofNatLE bs.length (toNatLE bs) = bs := by
  induction bs with
  | nil => rfl
  | cons b bs ih =>
    have hb := b.toNat_lt
    have hdiv : (b.toNat + 256 * toNatLE bs) / 256 = toNatLE bs := by omega
    have hmod : UInt8.ofNat (b.toNat + 256 * toNatLE bs) = b := by
      apply UInt8.toNat_inj.mp
      rw [UInt8.toNat_ofNat']
      omega
    simp [ofNatLE, toNatLE, hdiv, hmod, ih]

def padLeft (width : Nat) (bs : Bytes) : Bytes :=
  List.replicate (width - bs.length) 0 ++ bs

end Bytes

/-- Exactly 32 bytes: a digest, a Move address, a message identifier. -/
structure Bytes32 where
  toBytes : Bytes
  length_eq : toBytes.length = 32
deriving DecidableEq

namespace Bytes32

@[simp] theorem length_toBytes (w : Bytes32) : w.toBytes.length = 32 := w.length_eq

theorem toBytes_inj {a b : Bytes32} : a.toBytes = b.toBytes ↔ a = b := by
  cases a; cases b; simp

def ofBytes? (bs : Bytes) : Option Bytes32 :=
  if h : bs.length = 32 then some ⟨bs, h⟩ else none

@[simp] theorem ofBytes?_toBytes (w : Bytes32) : ofBytes? w.toBytes = some w := by
  simp [ofBytes?]

theorem ofBytes?_eq_some_iff {bs : Bytes} {w : Bytes32} :
    ofBytes? bs = some w ↔ bs = w.toBytes := by
  constructor
  · intro h
    simp only [ofBytes?] at h
    split at h
    · cases Option.some.inj h; rfl
    · contradiction
  · rintro rfl; exact ofBytes?_toBytes w

/-- The 32-byte word of a number below `2 ^ 256`, the most significant byte first. -/
def ofU256 (n : U256) : Bytes32 :=
  ⟨Bytes.ofNatBE 32 n.toNat, by simp⟩

def zero : Bytes32 :=
  ⟨List.replicate 32 0, by simp⟩

def isZero (w : Bytes32) : Bool :=
  w.toBytes.all (· == 0)

instance : Inhabited Bytes32 := ⟨zero⟩

/-- Words are ordered as the numbers they spell, the most significant byte first. -/
instance : LE Bytes32 := ⟨fun a b => a.toBytes ≤ b.toBytes⟩

instance (a b : Bytes32) : Decidable (a ≤ b) :=
  inferInstanceAs (Decidable (a.toBytes ≤ b.toBytes))

end Bytes32

end CrossChain
