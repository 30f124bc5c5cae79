import CrossChain.Proofs.Text.Plain
import CrossChain.Text.Numeral
/-! Whole numbers of 32 bits written in base 10 read back, with the sign of the negative ones. -/
namespace CrossChain.Numeral

theorem bounds_of_isDigit {c : Char} (h : c.isDigit) : 48 ≤ c.toNat ∧ c.toNat ≤ 57 := by
  simpa [Char.isDigit, UInt32.le_iff_toNat_le] using h

/-- Digits are neither blanks nor outside of ASCII. -/
theorem isPlain_of_isDigit {c : Char} (h : c.isDigit) : Text.IsPlain c := by
  have hbounds := bounds_of_isDigit h
  refine ⟨by omega, ?_⟩
  simp only [Text.isBlank, Bool.or_eq_false_iff, Bool.and_eq_false_iff, decide_eq_false_iff_not,
    beq_eq_false_iff_ne]
  omega

theorem isDigit_of_mem_toDigits {n : Nat} : ∀ c ∈ Nat.toDigits 10 n, c.isDigit :=
  fun _ => Nat.isDigit_of_mem_toDigits (by decide) (by decide)

theorem decimal?_toDigits (n : Nat) : decimal? (Nat.toDigits 10 n) = some n := by
  have hvalue := Nat.ofDigitChars_ten_toDigits (n := n)
  rw [Nat.ofDigitChars_eq_foldl] at hvalue
  unfold decimal?
  split
  next h => exact absurd h Nat.toDigits_ne_nil
  next =>
    rw [if_pos]
    · simp only [Nat.mul_comm _ 10]
      exact congrArg some hvalue
    · simpa using fun c hc => bounds_of_isDigit (isDigit_of_mem_toDigits c hc)

theorem natural?_toDigits {limit n : Nat} (h : n < limit) :
    natural? limit (Nat.toDigits 10 n) = some n := by
  have hdigits := isDigit_of_mem_toDigits (n := n)
  unfold natural?
  split
  next rest hplus => exact absurd (hdigits '+' (by simp [hplus])) (by decide)
  next =>
    dsimp only
    rw [decimal?_toDigits, Option.filter_some, decide_eq_true h, if_pos rfl]

theorem toList_toString_int (w : Int) : (toString w).toList =
    if 0 ≤ w then Nat.toDigits 10 w.toNat else '-' :: Nat.toDigits 10 (-w).toNat := by
  rw [Int.toString_eq_repr, Int.repr_eq_if]
  split
  next => exact Nat.toList_repr
  next => simp [String.toList_append, Nat.toList_repr]

theorem isDigit_or_eq_minus_of_mem_toString {w : Int} :
    ∀ c ∈ (toString w).toList, c.isDigit ∨ c = '-' := by
  rw [toList_toString_int]
  split
  next => exact fun c hc => .inl (isDigit_of_mem_toDigits c hc)
  next =>
    rw [List.forall_mem_cons]
    exact ⟨.inr rfl, fun c hc => .inl (isDigit_of_mem_toDigits c hc)⟩

theorem isPlain_of_mem_toString {w : Int} : ∀ c ∈ (toString w).toList, Text.IsPlain c := by
  intro c hc
  obtain hdigit | rfl := isDigit_or_eq_minus_of_mem_toString c hc
  · exact isPlain_of_isDigit hdigit
  · decide

theorem colon_not_mem_toString (w : Int) : ':' ∉ (toString w).toList := by
  intro h
  exact absurd (isDigit_or_eq_minus_of_mem_toString ':' h) (by decide)

/-- A number of 32 bits reads back. A minus sign allows for one number more than no sign does. -/
theorem int32?_toString {w : Int} (hleast : -2147483648 ≤ w) (hgreatest : w < 2147483648) :
    int32? (toString w).toList = some w := by
  rw [toList_toString_int]
  split
  next hnonneg =>
    have hdigits := isDigit_of_mem_toDigits (n := w.toNat)
    unfold int32?
    split
    next digits hminus => exact absurd (hdigits '-' (by simp [hminus])) (by decide)
    next =>
      rw [natural?_toDigits (by omega), Option.map_some, Int.ofNat_eq_natCast,
        Int.toNat_of_nonneg hnonneg]
  next hneg =>
    have hlimit : (-w).toNat ≤ 1 <<< 31 := by omega
    have hvalue : -(((-w).toNat : Nat) : Int) = w := by omega
    rw [int32?, decimal?_toDigits, Option.filter_some, decide_eq_true hlimit, if_pos rfl]
    exact congrArg some hvalue

end CrossChain.Numeral
