import Mathlib
import CrossChain.Bytes.Lemmas
import CrossChain.Crc16
/-! What the checksum tells apart. Its steps are linear and lose nothing, and two bytes are taken
in as one number of 16 bits. So two byte strings with one checksum cannot differ in two neighbouring
bytes alone, wherever these stand, and bytes with their checksum behind them have checksum zero. -/
namespace CrossChain.Crc16

theorem shift_xor (a b : BitVec 16) : shift (a ^^^ b) = shift a ^^^ shift b := by
  have hcancel : ∀ x y p : BitVec 16, x ^^^ y = x ^^^ p ^^^ (y ^^^ p) := by
    intro x y p
    rw [BitVec.xor_comm y p, BitVec.xor_assoc, ← BitVec.xor_assoc p, BitVec.xor_self,
      BitVec.zero_xor]
  have hright : ∀ x y p : BitVec 16, x ^^^ y ^^^ p = x ^^^ p ^^^ y := by
    intro x y p
    rw [BitVec.xor_assoc, BitVec.xor_comm y, ← BitVec.xor_assoc]
  simp only [shift, BitVec.msb_xor, BitVec.shiftLeft_xor_distrib]
  -- Whichever of the top bits are set, the polynomial is taken as often on both sides, or twice.
  cases a.msb <;> cases b.msb
  · rfl
  · exact BitVec.xor_assoc _ _ _
  · exact hright _ _ _
  · exact hcancel _ _ _

/-- The polynomial has a constant term, so a bit that leaves at the top is seen at the bottom. -/
theorem eq_zero_of_shift {a : BitVec 16} (h : shift a = 0) : a = 0 := by
  have ha := a.isLt
  rw [shift, BitVec.msb_eq_decide] at h
  split at h
  next =>
    have hlow := congrArg (fun x : BitVec 16 => x.getLsbD 0) h
    simp at hlow
  next hmsb =>
    have hvalue := congrArg BitVec.toNat h
    rw [BitVec.toNat_shiftLeft, Nat.shiftLeft_eq] at hvalue
    rw [decide_eq_true_iff] at hmsb
    apply BitVec.eq_of_toNat_eq
    simp at hvalue hmsb ⊢
    omega

theorem shift_injective : Function.Injective shift := by
  intro a b h
  rw [← BitVec.xor_eq_zero_iff] at h ⊢
  rw [← shift_xor] at h
  exact eq_zero_of_shift h

theorem shifts_xor (count : Nat) (a b : BitVec 16) :
    shift^[count] (a ^^^ b) = shift^[count] a ^^^ shift^[count] b := by
  induction count with
  | zero => rfl
  | succ count ih => simp only [Function.iterate_succ_apply', ih, shift_xor]

/-- What does not reach the top is only moved. -/
theorem shifts_of_lt {count : Nat} {a : BitVec 16} (h : a.toNat * 2 ^ count < 2 ^ 16) :
    shift^[count] a = a <<< count := by
  induction count with
  | zero => simp
  | succ count ih =>
    rw [Nat.pow_succ, ← Nat.mul_assoc] at h
    have hvalue : (a <<< count).toNat = a.toNat * 2 ^ count := by
      rw [BitVec.toNat_shiftLeft, Nat.shiftLeft_eq, Nat.mod_eq_of_lt (by omega)]
    have hmsb : (a <<< count).msb = false := by
      rw [BitVec.msb_eq_decide, hvalue, decide_eq_false_iff_not]
      omega
    rw [Function.iterate_succ_apply', ih (by omega), shift, if_neg (by simp [hmsb]),
      BitVec.shiftLeft_add]

theorem step_eq (crc : BitVec 16) (b : UInt8) :
    step crc b = shift^[8] (crc ^^^ b.toBitVec.setWidth 16 <<< 8) := rfl

/-- Two bytes as one number of 16 bits, the high byte first. -/
def word (a b : UInt8) : BitVec 16 := a.toBitVec ++ b.toBitVec

theorem toNat_word (a b : UInt8) : (word a b).toNat = a.toNat * 256 + b.toNat := by
  rw [word, BitVec.toNat_append, UInt8.toNat_toBitVec, UInt8.toNat_toBitVec,
    ← Nat.shiftLeft_add_eq_or_of_lt b.toNat_lt, Nat.shiftLeft_eq]

theorem word_eq_xor (a b : UInt8) :
    word a b = a.toBitVec.setWidth 16 <<< 8 ^^^ b.toBitVec.setWidth 16 := by
  apply BitVec.eq_of_getLsbD_eq
  intro i hi
  rw [word, BitVec.getLsbD_append, BitVec.getLsbD_xor, BitVec.getLsbD_shiftLeft]
  rcases Nat.lt_or_ge i 8 with hlow | hhigh
  · simp [hlow, hi]
  · have hnone : b.toBitVec.getLsbD i = false := BitVec.getLsbD_of_ge _ _ hhigh
    simp [hi, hnone, Nat.not_lt.mpr hhigh]
    omega

theorem word_inj {a b c d : UInt8} : word a b = word c d ↔ a = c ∧ b = d := by
  have hb := b.toNat_lt
  have hd := d.toNat_lt
  rw [← BitVec.toNat_inj, toNat_word, toNat_word, ← UInt8.toNat_inj, ← UInt8.toNat_inj]
  omega

/-- The eight shifts between two bytes are eight more for the first one. -/
theorem step_step (crc : BitVec 16) (a b : UInt8) :
    step (step crc a) b = shift^[16] (crc ^^^ word a b) := by
  have hbyte : shift^[8] (b.toBitVec.setWidth 16) = b.toBitVec.setWidth 16 <<< 8 := by
    refine shifts_of_lt ?_
    have hb := b.toNat_lt
    simp
    omega
  rw [step_eq, step_eq, ← hbyte, ← shifts_xor, ← Function.iterate_add_apply, BitVec.xor_assoc,
    ← word_eq_xor]

theorem step_injective (b : UInt8) : Function.Injective (step · b) := by
  intro crc other h
  exact (BitVec.xor_left_inj _).mp (shift_injective.iterate 8 h)

theorem foldl_step_injective (bs : Bytes) :
    Function.Injective fun crc : BitVec 16 => bs.foldl step crc := by
  induction bs with
  | nil => exact Function.injective_id
  | cons b bs ih => exact ih.comp (step_injective b)

/-- Byte strings that are the same but for two neighbouring bytes at most. -/
def SameUpToPair (bs others : Bytes) : Prop :=
  ∃ front a b c d back, bs = front ++ a :: b :: back ∧ others = front ++ c :: d :: back

theorem SameUpToPair.append_left {bs others : Bytes} (h : SameUpToPair bs others)
    (start : Bytes) : SameUpToPair (start ++ bs) (start ++ others) := by
  obtain ⟨front, a, b, c, d, back, rfl, rfl⟩ := h
  exact ⟨start ++ front, a, b, c, d, back, by simp, by simp⟩

/-- Both go the same way up to the two bytes and behind them, and no step loses anything. -/
theorem SameUpToPair.eq_of_checksum_eq {bs others : Bytes} (h : SameUpToPair bs others)
    (hchecksum : checksum bs = checksum others) : bs = others := by
  obtain ⟨front, a, b, c, d, back, rfl, rfl⟩ := h
  simp only [checksum, List.foldl_append, List.foldl_cons] at hchecksum
  have hpair := foldl_step_injective back hchecksum
  rw [step_step, step_step] at hpair
  obtain ⟨rfl, rfl⟩ := word_inj.mp ((BitVec.xor_right_inj _).mp (shift_injective.iterate 16 hpair))
  rfl

theorem pair_eq_trailer_iff {bs : Bytes} {a b : UInt8} :
    [a, b] = trailer bs ↔ word a b = checksum bs := by
  have hvalue : Bytes.toNatBE [a, b] = (word a b).toNat := by
    rw [toNat_word]
    simp [Bytes.toNatBE, Bytes.toNatLE]
    omega
  have hbytes : trailer bs = [a, b] ↔ Bytes.toNatBE [a, b] = (checksum bs).toNat := by
    constructor
    · intro h
      rw [← h, trailer, Bytes.toNatBE_ofNatBE]
      exact Nat.mod_eq_of_lt (checksum bs).isLt
    · intro h
      rw [trailer, ← h]
      exact Bytes.ofNatBE_toNatBE [a, b]
  rw [eq_comm, hbytes, hvalue, BitVec.toNat_inj]

theorem shifts_eq_zero_iff {count : Nat} {a : BitVec 16} : shift^[count] a = 0 ↔ a = 0 := by
  have hzero : shift^[count] 0 = 0 := Function.iterate_fixed (by decide) count
  rw [← hzero, (shift_injective.iterate count).eq_iff, hzero]

theorem checksum_append_eq_zero_iff {bs : Bytes} {a b : UInt8} :
    checksum (bs ++ [a, b]) = 0 ↔ [a, b] = trailer bs := by
  rw [pair_eq_trailer_iff, eq_comm (a := word a b)]
  simp only [checksum, List.foldl_append, List.foldl_cons, List.foldl_nil, step_step]
  exact shifts_eq_zero_iff.trans BitVec.xor_eq_zero_iff

end CrossChain.Crc16
