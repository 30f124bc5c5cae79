import Mathlib
import CrossChain.Bytes
/-! Numbers of fixed width read back as what was written, cut to the width, and bytes are what the
number they stand for is written as. -/
namespace CrossChain.Bytes

/-- The number that is left once the width has cut it. -/
theorem toNatLE_ofNatLE (width n : Nat) : toNatLE (ofNatLE width n) = n % 256 ^ width := by
  induction width generalizing n with
  | zero => simp [ofNatLE, toNatLE, Nat.mod_one]
  | succ width ih =>
    simp only [ofNatLE, toNatLE, ih, UInt8.toNat_ofNat']
    rw [show 256 ^ (width + 1) = 256 * 256 ^ width by rw [Nat.pow_succ, Nat.mul_comm],
      Nat.mod_mul]

theorem toNatBE_ofNatBE (width n : Nat) : toNatBE (ofNatBE width n) = n % 256 ^ width := by
  simp [toNatBE, ofNatBE, toNatLE_ofNatLE]

theorem toNatLE_lt (bs : Bytes) : toNatLE bs < 256 ^ bs.length := by
  induction bs with
  | nil => simp [toNatLE]
  | cons b bs ih =>
    have hb := b.toNat_lt
    simp only [toNatLE, List.length_cons, Nat.pow_succ]
    omega

theorem toNatBE_lt (bs : Bytes) : toNatBE bs < 256 ^ bs.length := by
  rw [toNatBE, ← List.length_reverse]
  exact toNatLE_lt bs.reverse

theorem ofNatBE_toNatBE (bs : Bytes) : ofNatBE bs.length (toNatBE bs) = bs := by
  rw [ofNatBE, toNatBE, ← List.length_reverse, ofNatLE_toNatLE, List.reverse_reverse]

end CrossChain.Bytes
