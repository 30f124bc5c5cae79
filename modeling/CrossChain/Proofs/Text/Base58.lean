import CrossChain.Proofs.Text.Plain
import CrossChain.Text.Base58
/-! Bytes written in base 58 read back. A byte string is as many zeros as it starts with and the
digits of one number, and the text says both: the zeros are kept apart, and the number has the same
value in either base. -/
namespace CrossChain

theorem Bytes.toNatLE_eq_ofDigits (bs : Bytes) :
    toNatLE bs = Nat.ofDigits 256 (bs.map UInt8.toNat) := by
  induction bs with
  | nil => rfl
  | cons b bs ih => rw [toNatLE, List.map_cons, Nat.ofDigits_cons, ih]

namespace Base58

theorem isPlain_digit {v : Nat} (h : v < 58) : Text.IsPlain (digit v) := by
  have hall : ∀ v : Fin 58, Text.IsPlain (digit v) := by decide
  exact hall ⟨v, h⟩

theorem value?_digit {v : Nat} (h : v < 58) : value? (Text.byte (digit v)) = some v := by
  have hall : ∀ v : Fin 58, value? (Text.byte (digit v)) = some v.val := by decide
  exact hall ⟨v, h⟩

theorem digitsOf_eq_digits {base count n : Nat} (hbase : 1 < base) (h : n ≤ count) :
    digitsOf base count n = Nat.digits base n := by
  induction count generalizing n with
  | zero =>
    obtain rfl : n = 0 := by omega
    rw [digitsOf, Nat.digits_zero]
  | succ count ih =>
    unfold digitsOf
    split
    next hzero => rw [hzero, Nat.digits_zero]
    next hne =>
      have hless : n / base < n := Nat.div_lt_self (by omega) hbase
      rw [Nat.digits_def' hbase (Nat.pos_of_ne_zero hne), ih (by omega)]

theorem ofDigits_eq (base : Nat) (digits : List Nat) :
    ofDigits base digits = Nat.ofDigits base digits.reverse := by
  rw [ofDigits, Nat.ofDigits_eq_foldr, List.foldr_reverse]
  simp only [Nat.cast_id, Nat.add_comm, Nat.mul_comm]

/-- The digits of a number start with the greatest one, which is not zero. -/
theorem takeWhile_reverse_digits (base n : Nat) :
    (Nat.digits base n).reverse.takeWhile (· == 0) = [] := by
  rcases Nat.eq_zero_or_pos n with rfl | hn
  · simp
  · rw [List.takeWhile_eq_nil_iff]
    intro hlength
    have hlast := Nat.getLast_digit_ne_zero base hn.ne'
    simpa [List.getLast_eq_getElem] using hlast

/-- The values of the digits that a byte string is written in. -/
def digitValues (bs : Bytes) : List Nat :=
  List.replicate (bs.takeWhile (· == 0)).length 0 ++ (Nat.digits 58 (Bytes.toNatBE bs)).reverse

theorem encode_eq_map_digitValues (bs : Bytes) : encode bs = (digitValues bs).map digit := by
  have hone : digit 0 = '1' := by decide
  rw [encode, digitValues, digitsOf_eq_digits (by decide) (Nat.le_refl _), List.map_append,
    List.map_reverse, List.map_replicate, hone, List.map_const']

theorem digitValues_lt {bs : Bytes} {v : Nat} (h : v ∈ digitValues bs) : v < 58 := by
  rcases List.mem_append.mp h with h | h
  · rw [List.eq_of_mem_replicate h]
    decide
  · exact Nat.digits_lt_base (by decide) (List.mem_reverse.mp h)

theorem isPlain_of_mem_encode {bs : Bytes} : ∀ c ∈ encode bs, Text.IsPlain c := by
  intro c h
  rw [encode_eq_map_digitValues] at h
  obtain ⟨v, hv, rfl⟩ := List.mem_map.mp h
  exact isPlain_digit (digitValues_lt hv)

theorem zero_not_mem_encode (bs : Bytes) : '0' ∉ encode bs := by
  have hall : ∀ v : Fin 58, digit v ≠ '0' := by decide
  rw [encode_eq_map_digitValues]
  intro h
  obtain ⟨v, hv, hzero⟩ := List.mem_map.mp h
  exact hall ⟨v, digitValues_lt hv⟩ hzero

theorem values_map_digit {vs : List Nat} (h : ∀ v ∈ vs, v < 58) (position : Nat) :
    values position (vs.map fun v => Text.byte (digit v)) = .ok vs := by
  induction vs generalizing position with
  | nil => rfl
  | cons v vs ih =>
    rw [List.forall_mem_cons] at h
    have hascii : ∀ v : Fin 58, ¬ 127 < (Text.byte (digit v)).toNat := by decide
    rw [List.map_cons, values, if_neg (hascii ⟨v, h.1⟩), value?_digit h.1]
    dsimp only
    rw [ih h.2]
    rfl

theorem takeWhile_zero_eq_replicate (bs : Bytes) :
    bs.takeWhile (· == 0) = List.replicate (bs.takeWhile (· == 0)).length 0 := by
  rw [List.eq_replicate_iff]
  exact ⟨rfl, fun b hb => by simpa using List.mem_takeWhile_imp hb⟩

/-- The zeros in front do not count for the number of a byte string. -/
theorem toNatBE_eq_ofDigits_dropWhile (bs : Bytes) : Bytes.toNatBE bs =
    Nat.ofDigits 256 ((bs.dropWhile (· == 0)).reverse.map UInt8.toNat) := by
  conv_lhs => rw [← List.takeWhile_append_dropWhile (p := (· == 0)) (l := bs)]
  rw [Bytes.toNatBE, Bytes.toNatLE_eq_ofDigits, List.reverse_append, takeWhile_zero_eq_replicate,
    List.map_append, List.reverse_replicate, List.map_replicate, UInt8.toNat_zero,
    Nat.ofDigits_append_replicate_zero]

theorem digits_toNatBE (bs : Bytes) : Nat.digits 256 (Bytes.toNatBE bs) =
    (bs.dropWhile (· == 0)).reverse.map UInt8.toNat := by
  rw [toNatBE_eq_ofDigits_dropWhile]
  refine Nat.digits_ofDigits 256 (by decide) _ (fun n hn => ?_) fun hne => ?_
  · obtain ⟨b, -, rfl⟩ := List.mem_map.mp hn
    exact b.toNat_lt
  · have hfirst := List.head_dropWhile_not (· == 0) (l := bs) (by simpa using hne)
    rw [List.getLast_map, List.getLast_reverse, Ne, ← UInt8.toNat_zero, UInt8.toNat_inj]
    simpa using hfirst

theorem decode_encode (bs : Bytes) : decode (encode bs) = .ok bs := by
  have hvalues : values 0 (Text.utf8 (encode bs)) = .ok (digitValues bs) := by
    rw [Text.utf8_of_isPlain isPlain_of_mem_encode, encode_eq_map_digitValues, List.map_map]
    exact values_map_digit (fun _ => digitValues_lt) 0
  have hnumber : ofDigits 58 (digitValues bs) = Bytes.toNatBE bs := by
    rw [ofDigits_eq, digitValues, List.reverse_append, List.reverse_reverse, List.reverse_replicate,
      Nat.ofDigits_append_replicate_zero, Nat.ofDigits_digits]
  have hzeros : (digitValues bs).takeWhile (· == 0) =
      List.replicate (bs.takeWhile (· == 0)).length 0 := by
    rw [digitValues, List.takeWhile_append_of_pos (by simp), takeWhile_reverse_digits,
      List.append_nil]
  have hdigits : ((digitsOf 256 (Bytes.toNatBE bs) (Bytes.toNatBE bs)).map UInt8.ofNat).reverse =
      bs.dropWhile (· == 0) := by
    rw [digitsOf_eq_digits (by decide) (Nat.le_refl _), digits_toNatBE, List.map_map,
      List.map_reverse, List.reverse_reverse]
    simp [Function.comp_def]
  rw [decode, hvalues]
  simp only [bind, Except.bind, pure, Except.pure]
  rw [hnumber, hzeros, hdigits, List.map_const', List.length_replicate,
    ← takeWhile_zero_eq_replicate, List.takeWhile_append_dropWhile]

end Base58

end CrossChain
