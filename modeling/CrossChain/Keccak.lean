import CrossChain.Bytes
/-! Keccak-256 on byte strings. The 1600-bit state is five rows of five lanes; the sponge
takes 136 bytes a step and pads with a one bit, zeros and a one bit. -/
namespace CrossChain.Keccak

structure Row where
  a : UInt64
  b : UInt64
  c : UInt64
  d : UInt64
  e : UInt64
deriving DecidableEq

structure State where
  r0 : Row
  r1 : Row
  r2 : Row
  r3 : Row
  r4 : Row
deriving DecidableEq

namespace Row

def zero : Row := ⟨0, 0, 0, 0, 0⟩

def xor (r s : Row) : Row :=
  ⟨r.a ^^^ s.a, r.b ^^^ s.b, r.c ^^^ s.c, r.d ^^^ s.d, r.e ^^^ s.e⟩

/-- Each lane takes in the complement of its right neighbour and the one after. -/
def chi (r : Row) : Row :=
  ⟨r.a ^^^ (~~~r.b &&& r.c), r.b ^^^ (~~~r.c &&& r.d), r.c ^^^ (~~~r.d &&& r.e),
    r.d ^^^ (~~~r.e &&& r.a), r.e ^^^ (~~~r.a &&& r.b)⟩

end Row

def rotateLeft (x : UInt64) (n : UInt64) : UInt64 :=
  (x <<< n) ||| (x >>> (64 - n))

namespace State

def zero : State := ⟨.zero, .zero, .zero, .zero, .zero⟩

def xor (s t : State) : State :=
  ⟨s.r0.xor t.r0, s.r1.xor t.r1, s.r2.xor t.r2, s.r3.xor t.r3, s.r4.xor t.r4⟩

/-- Each lane takes in the parities of the columns on its left and, rotated, on its right. -/
def theta (s : State) : State :=
  let p := (((s.r0.xor s.r1).xor s.r2).xor s.r3).xor s.r4
  let m : Row := ⟨p.e ^^^ rotateLeft p.b 1, p.a ^^^ rotateLeft p.c 1,
    p.b ^^^ rotateLeft p.d 1, p.c ^^^ rotateLeft p.e 1, p.d ^^^ rotateLeft p.a 1⟩
  ⟨s.r0.xor m, s.r1.xor m, s.r2.xor m, s.r3.xor m, s.r4.xor m⟩

def rhoPi (s : State) : State :=
  ⟨⟨s.r0.a, rotateLeft s.r1.b 44, rotateLeft s.r2.c 43, rotateLeft s.r3.d 21,
      rotateLeft s.r4.e 14⟩,
    ⟨rotateLeft s.r0.d 28, rotateLeft s.r1.e 20, rotateLeft s.r2.a 3, rotateLeft s.r3.b 45,
      rotateLeft s.r4.c 61⟩,
    ⟨rotateLeft s.r0.b 1, rotateLeft s.r1.c 6, rotateLeft s.r2.d 25, rotateLeft s.r3.e 8,
      rotateLeft s.r4.a 18⟩,
    ⟨rotateLeft s.r0.e 27, rotateLeft s.r1.a 36, rotateLeft s.r2.b 10, rotateLeft s.r3.c 15,
      rotateLeft s.r4.d 56⟩,
    ⟨rotateLeft s.r0.c 62, rotateLeft s.r1.d 55, rotateLeft s.r2.e 39, rotateLeft s.r3.a 41,
      rotateLeft s.r4.b 2⟩⟩

def chi (s : State) : State :=
  ⟨s.r0.chi, s.r1.chi, s.r2.chi, s.r3.chi, s.r4.chi⟩

def iota (s : State) (constant : UInt64) : State :=
  { s with r0 := { s.r0 with a := s.r0.a ^^^ constant } }

def round (s : State) (constant : UInt64) : State :=
  s.theta.rhoPi.chi.iota constant

end State

def roundConstants : List UInt64 :=
  [0x0000000000000001, 0x0000000000008082, 0x800000000000808a, 0x8000000080008000,
    0x000000000000808b, 0x0000000080000001, 0x8000000080008081, 0x8000000000008009,
    0x000000000000008a, 0x0000000000000088, 0x0000000080008009, 0x000000008000000a,
    0x000000008000808b, 0x800000000000008b, 0x8000000000008089, 0x8000000000008003,
    0x8000000000008002, 0x8000000000000080, 0x000000000000800a, 0x800000008000000a,
    0x8000000080008081, 0x8000000000008080, 0x0000000080000001, 0x8000000080008008]

def permute (s : State) : State :=
  roundConstants.foldl State.round s

def rate : Nat := 136

def lane (bs : Bytes) : UInt64 :=
  UInt64.ofNat (Bytes.toNatLE (bs.take 8))

def row (bs : Bytes) : Row :=
  ⟨lane bs, lane (bs.drop 8), lane (bs.drop 16), lane (bs.drop 24), lane (bs.drop 32)⟩

/-- A block as the first lanes of a state; what lies beyond its end counts as zero. -/
def block (bs : Bytes) : State :=
  ⟨row bs, row (bs.drop 40), row (bs.drop 80), row (bs.drop 120), row (bs.drop 160)⟩

/-- The message and its padding: at least one byte, up to a whole number of blocks. -/
def pad (message : Bytes) : Bytes :=
  match rate - message.length % rate with
  | 0 => message
  | 1 => message ++ [0x81]
  | n + 2 => message ++ 0x01 :: List.replicate n 0 ++ [0x80]

def absorb : Nat → State → Bytes → State
  | 0, s, _ => s
  | n + 1, s, bs => absorb n (permute (s.xor (block (bs.take rate)))) (bs.drop rate)

def squeeze (s : State) : Bytes :=
  Bytes.ofNatLE 8 s.r0.a.toNat ++ Bytes.ofNatLE 8 s.r0.b.toNat ++
    Bytes.ofNatLE 8 s.r0.c.toNat ++ Bytes.ofNatLE 8 s.r0.d.toNat

end CrossChain.Keccak

namespace CrossChain

/-- The Keccak-256 digest, with the padding that predates the standard's. -/
def keccak256 (message : Bytes) : Bytes32 :=
  let blocks := message.length / Keccak.rate + 1
  ⟨Keccak.squeeze (Keccak.absorb blocks .zero (Keccak.pad message)), by simp [Keccak.squeeze]⟩

end CrossChain
