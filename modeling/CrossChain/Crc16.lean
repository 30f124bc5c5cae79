import CrossChain.Bytes
/-! The 16-bit cyclic checksum with polynomial `x^16 + x^12 + x^5 + 1` and initial value
zero. -/
namespace CrossChain.Crc16

/-- One step of the division: the highest bit leaves and takes the polynomial with it. -/
def shift (crc : BitVec 16) : BitVec 16 :=
  if crc.msb then (crc <<< 1) ^^^ 0x1021 else crc <<< 1

def step (crc : BitVec 16) (b : UInt8) : BitVec 16 :=
  Nat.repeat shift 8 (crc ^^^ (b.toBitVec.setWidth 16 <<< 8))

def checksum (bs : Bytes) : BitVec 16 :=
  bs.foldl step 0

/-- The checksum as it is written behind the bytes, the high byte first. -/
def trailer (bs : Bytes) : Bytes :=
  Bytes.ofNatBE 2 (checksum bs).toNat

end CrossChain.Crc16
