import CrossChain.Proofs.Codec.BcsCanonical
import CrossChain.Proofs.Codec.BcsPosition
/-! Lengths in base 128. Main statement: a number up to the limit is read from its one spelling and
a larger one from none, and a length that ends in a zero behind other digits is told apart from one
that is too large, also when it is both. -/
namespace CrossChain.Bcs

namespace Reader

variable {known : Nat} {data rest : Bytes}

/-- Nine digits fit, whatever they are. Of the tenth only one bit does. -/
theorem digit_fits (n : Nat) {digits : Nat} (h : digits < 9) :
    (n % 128) <<< (7 * digits) < UInt64.size := by
  have hdigit : n % 128 ≤ 2 ^ 7 := (Nat.mod_lt n (by decide)).le
  have hplace : 2 ^ (7 * digits) ≤ 2 ^ 56 := Nat.pow_le_pow_right (by decide) (by omega)
  calc (n % 128) <<< (7 * digits)
      = n % 128 * 2 ^ (7 * digits) := Nat.shiftLeft_eq _ _
    _ ≤ 2 ^ 7 * 2 ^ 56 := Nat.mul_le_mul hdigit hplace
    _ < UInt64.size := by decide

/-- The digits of a number beyond the limit are refused at the first that does not fit or, if all
do, when the number is known. The last of them is not a zero. -/
theorem lengthFrom_append_of_lt (n known place : Nat) (hlarge : maxLength < known + n <<< place)
    (hplace : 0 < n ∨ place = 0) (rest : Bytes) :
    (lengthFrom known place (Bcs.length n ++ rest)).1 = .error .lengthOverflow := by
  -- On what is left to be read. A digit that fits moves into `known`, and the sum stays as large.
  induction n using Nat.strongRecOn generalizing known place with
  | ind n ih =>
    by_cases hn : n < 128
    · have hbyte := toNat_lastDigit hn
      rw [length_of_lt hn, List.singleton_append]
      rcases lengthFrom_overflow_or_fits known place (UInt8.ofNat n) rest with h | ⟨hshort, hfits⟩
      · exact h
      have hcanonical : ¬(0 < place ∧ n = 0) := by omega
      rw [lengthFrom_of_last hshort hfits (hbyte.trans_lt hn), hbyte, if_neg hcanonical,
        if_pos hlarge]
    · have hbyte := toNat_markedDigit n
      have hdigit : (n % 128 + 128) % 128 = n % 128 := by omega
      have hrest : known + (n % 128) <<< place + (n / 128) <<< (place + 7) =
          known + n <<< place := by rw [Nat.add_assoc, digit_add_rest]
      rw [length_of_le (Nat.not_lt.mp hn), List.cons_append]
      rcases lengthFrom_overflow_or_fits known place (UInt8.ofNat (n % 128 + 128))
        (Bcs.length (n / 128) ++ rest) with h | ⟨hshort, hfits⟩
      · exact h
      rw [lengthFrom_of_marked hshort hfits (by omega), hbyte, hdigit]
      exact ih (n / 128) (by omega) _ _ (hlarge.trans_eq hrest.symm) (.inl (by omega))

theorem lengthFrom_of_padded {marked : Bytes} (digits : Nat)
    (hmarked : ∀ b ∈ marked, 128 ≤ b.toNat) (hpos : 0 < digits + marked.length)
    (hlimit : digits + marked.length < 10) (rest : Bytes) :
    lengthFrom known (7 * digits) (marked ++ 0 :: rest) = (.error .longLength, rest) := by
  induction marked generalizing known digits with
  | nil =>
    have hpadded : 0 < 7 * digits ∧ (0 : UInt8).toNat = 0 := ⟨Nat.mul_pos (by decide) hpos, rfl⟩
    have hshort : 7 * digits < 64 := by
      rw [List.length_nil] at hlimit
      omega
    have hfits : ((0 : UInt8).toNat % 128) <<< (7 * digits) < UInt64.size := by
      rw [UInt8.toNat_zero, Nat.zero_mod, Nat.zero_shiftLeft]
      decide
    rw [List.nil_append, lengthFrom_of_last hshort hfits (by decide), if_pos hpadded]
  | cons b marked ih =>
    rw [List.forall_mem_cons] at hmarked
    rw [List.length_cons] at hpos hlimit
    rw [List.cons_append,
      lengthFrom_of_marked (by omega) (digit_fits b.toNat (by omega)) hmarked.1]
    exact ih (digits + 1) hmarked.2 (by omega) (by omega)

theorem exists_padded_of_lengthFrom (digits : Nat)
    (h : lengthFrom known (7 * digits) data = (.error .longLength, rest)) :
    ∃ marked, data = marked ++ 0 :: rest ∧ (∀ b ∈ marked, 128 ≤ b.toNat) ∧
      0 < digits + marked.length ∧ digits + marked.length < 10 := by
  induction data generalizing known digits with
  | nil => cases h
  | cons b data ih =>
    rcases lengthFrom_overflow_or_fits known (7 * digits) b data with hover | ⟨hshort, hfits⟩
    · rw [h] at hover
      cases hover
    by_cases hb : 128 ≤ b.toNat
    · rw [lengthFrom_of_marked hshort hfits hb] at h
      obtain ⟨marked, rfl, hmarked, hpos, hlimit⟩ := ih (digits + 1) h
      have hlength : (b :: marked).length = marked.length + 1 := List.length_cons
      exact ⟨b :: marked, rfl, List.forall_mem_cons.mpr ⟨hb, hmarked⟩, by omega, by omega⟩
    · rw [lengthFrom_of_last hshort hfits (Nat.not_le.mp hb)] at h
      obtain ⟨hlast, rfl⟩ := Prod.mk.inj h
      have hpadded : 0 < 7 * digits ∧ b.toNat = 0 := by
        by_contra hcanonical
        rw [if_neg hcanonical] at hlast
        split at hlast <;> cases hlast
      obtain rfl : b = 0 := UInt8.toNat_inj.mp hpadded.2
      have hpos : 0 < digits := Nat.pos_of_mul_pos_left hpadded.1
      have hlimit : digits < 10 := by omega
      exact ⟨[], rfl, List.forall_mem_nil _, hpos, hlimit⟩

theorem length_eq_ok_iff {n : Nat} :
    length data = (.ok n, rest) ↔ data = Bcs.length n ++ rest ∧ n ≤ maxLength :=
  eq_ok_iff_of_reads_takes (fun _ => reads_length) takes_length

theorem length_append_eq_lengthOverflow_iff (n : Nat) (rest : Bytes) :
    (length (Bcs.length n ++ rest)).1 = .error .lengthOverflow ↔ maxLength < n := by
  constructor
  · intro h
    by_contra hsmall
    rw [reads_length (Nat.not_lt.mp hsmall) rest] at h
    cases h
  · intro hlarge
    exact lengthFrom_append_of_lt n 0 0 (by simpa using hlarge) (.inr rfl) rest

theorem length_eq_longLength_iff :
    length data = (.error .longLength, rest) ↔ ∃ marked, data = marked ++ 0 :: rest ∧
      (∀ b ∈ marked, 128 ≤ b.toNat) ∧ 0 < marked.length ∧ marked.length < 10 := by
  constructor
  · intro h
    simpa using exists_padded_of_lengthFrom 0 h
  · rintro ⟨marked, rfl, hmarked, hpos, hlimit⟩
    rw [← Nat.zero_add marked.length] at hpos hlimit
    exact lengthFrom_of_padded 0 hmarked hpos hlimit rest

end Reader

/-- The words of 64 bits come to the same outcome as the numbers, and at the same place. -/
theorem CheckedReader.length_eq (data : Bytes) :
    CheckedReader.length data .start = some ((Reader.length data).1,
      ⟨data.length - (Reader.length data).2.length, 0⟩) := by
  have hfollows : Follows data .start 0 length Reader.length := follows_length (Nat.zero_le _)
  obtain ⟨outcome, stop, hchecked, hreach⟩ := hfollows
  have hposition := hreach.taken_eq
  have houtcome := hreach.outcome_eq
  have hbegun : stop.begun = 0 := Nat.le_zero.mp hreach.begun
  rw [Cursor.start, List.drop_zero] at hposition houtcome
  rw [hchecked, houtcome, ← hposition, ← hbegun]

/-- A number is read as a length, and what stands behind it is left, exactly if it is within the
limit and the input starts with what is written for it. What is written for a larger number is
refused as too large. What is refused as longer than it need be starts with marked bytes, at least
one and at most nine, so that every digit fits in 64 bits, and a zero behind them. Words of 64
bits, in which a digit is moved to its place and back to see whether it fits, come to the same
outcome and take as many bytes. -/
theorem length_read_canonically (data : Bytes) :
    (∀ n rest, Reader.length data = (.ok n, rest) ↔
      data = length n ++ rest ∧ n ≤ Reader.maxLength) ∧
    (∀ n rest, (Reader.length (length n ++ rest)).1 = .error .lengthOverflow ↔
      Reader.maxLength < n) ∧
    (∀ rest, Reader.length data = (.error .longLength, rest) ↔
      ∃ marked, data = marked ++ 0 :: rest ∧ (∀ b ∈ marked, 128 ≤ b.toNat) ∧
        0 < marked.length ∧ marked.length < 10) ∧
    CheckedReader.length data .start = some ((Reader.length data).1,
      ⟨data.length - (Reader.length data).2.length, 0⟩) :=
  ⟨fun _ _ => Reader.length_eq_ok_iff, Reader.length_append_eq_lengthOverflow_iff,
    fun _ => Reader.length_eq_longLength_iff, CheckedReader.length_eq data⟩

/-- A zero is the tenth digit at the latest. As the eleventh it has no place, whatever is before. -/
example : (Reader.length (List.replicate 9 0xFF ++ [0])).1 = .error .longLength ∧
    (Reader.length (List.replicate 10 0x80 ++ [0])).1 = .error .lengthOverflow := by decide

end CrossChain.Bcs
