import CrossChain.Proofs.Outcomes
import CrossChain.Proofs.Text.Plain
import CrossChain.Text.Hex
/-! Bytes written in base 16 read back, in letters of either case. -/
namespace CrossChain.Hex

/-- The halves of each byte, the high one first. -/
def halves (bs : Bytes) : List Nat :=
  bs.flatMap fun b => [b.toNat / 16, b.toNat % 16]

/-- The character is read as a digit of that value. -/
def Spells (c : Char) (n : Nat) : Prop :=
  Text.IsPlain c ∧ value? (Text.byte c) = some n

instance : DecidableRel Spells := fun c n =>
  inferInstanceAs (Decidable (Text.IsPlain c ∧ value? (Text.byte c) = some n))

theorem spells_digit {n : Nat} (h : n < 16) : Spells (digit n) n := by
  have hall : ∀ n : Fin 16, Spells (digit n) n := by decide
  exact hall ⟨n, h⟩

theorem spells_toUpper_digit {n : Nat} (h : n < 16) : Spells (digit n).toUpper n := by
  have hall : ∀ n : Fin 16, Spells (digit n).toUpper n := by decide
  exact hall ⟨n, h⟩

theorem lt_of_mem_halves {bs : Bytes} {n : Nat} (h : n ∈ halves bs) : n < 16 := by
  obtain ⟨b, -, hn⟩ := List.mem_flatMap.mp h
  have hb := b.toNat_lt
  simp only [List.mem_cons, List.not_mem_nil, or_false] at hn
  omega

theorem encode_eq_map_halves (bs : Bytes) : encode bs = (halves bs).map digit := by
  simp [encode, halves, List.map_flatMap]

theorem spells_encode (bs : Bytes) : List.Forall₂ Spells (encode bs) (halves bs) := by
  rw [encode_eq_map_halves, List.forall₂_map_left_iff, List.forall₂_same]
  exact fun n hn => spells_digit (lt_of_mem_halves hn)

theorem isPlain_of_spells {cs : List Char} {ns : List Nat} (h : List.Forall₂ Spells cs ns) :
    ∀ c ∈ cs, Text.IsPlain c :=
  ((List.forall₂_and_left _ _).mp h).1

theorem isPlain_of_mem_encode {bs : Bytes} : ∀ c ∈ encode bs, Text.IsPlain c :=
  isPlain_of_spells (spells_encode bs)

theorem length_encode (bs : Bytes) : (encode bs).length = 2 * bs.length := by
  simp [encode, Nat.mul_comm]

theorem decodePairs_of_values {bs digits : Bytes}
    (h : List.Forall₂ (fun d n => value? d = some n) digits (halves bs)) (position : Nat) :
    decodePairs position digits = .ok bs := by
  induction bs generalizing digits position with
  | nil =>
    rw [List.forall₂_nil_right_iff.mp h]
    rfl
  | cons b bs ih =>
    have hhalves : 16 * (b.toNat / 16) + b.toNat % 16 = b.toNat := Nat.div_add_mod _ _
    rw [halves, List.flatMap_cons, ← halves, List.cons_append, List.cons_append,
      List.nil_append] at h
    obtain ⟨high, _, hhigh, hnext, rfl⟩ := List.forall₂_cons_right_iff.mp h
    obtain ⟨low, rest, hlow, hrest, rfl⟩ := List.forall₂_cons_right_iff.mp hnext
    rw [decodePairs, value, hhigh, value, hlow, ih hrest]
    simp [bind, Except.bind, pure, Except.pure, hhalves]

/-- Only the values of the digits count. -/
theorem decode_of_spells {cs : List Char} {bs : Bytes} (h : List.Forall₂ Spells cs (halves bs)) :
    decode cs = .ok bs := by
  have hvalues := ((List.forall₂_and_left _ _).mp h).2
  have heven : (cs.map Text.byte).length % 2 ≠ 1 := by
    rw [List.length_map, h.length_eq, ← List.length_map digit, ← encode_eq_map_halves,
      length_encode]
    omega
  rw [decode, Text.utf8_of_isPlain (isPlain_of_spells h)]
  exact (if_neg heven).trans (decodePairs_of_values (List.forall₂_map_left_iff.mpr hvalues) 0)

theorem decode_encode (bs : Bytes) : decode (encode bs) = .ok bs :=
  decode_of_spells (spells_encode bs)

/-- Two bytes of digits give one byte. -/
theorem length_of_decodePairs {position : Nat} {digits bs : Bytes}
    (h : decodePairs position digits = .ok bs) : digits.length = 2 * bs.length := by
  induction position, digits using decodePairs.induct generalizing bs with
  | case1 =>
    cases h
    rfl
  | case2 => cases h
  | case3 position a b rest ih =>
    obtain ⟨high, -, h⟩ := Except.bind_eq_ok_iff.mp h
    obtain ⟨low, -, h⟩ := Except.bind_eq_ok_iff.mp h
    obtain ⟨tail, htail, ⟨⟩⟩ := Except.bind_eq_ok_iff.mp h
    simp only [List.length_cons, ih htail]
    omega

theorem length_of_decode {digits : List Char} {bs : Bytes} (h : decode digits = .ok bs) :
    (Text.utf8 digits).length = 2 * bs.length := by
  unfold decode at h
  dsimp only at h
  split at h
  next => cases h
  next => exact length_of_decodePairs h

theorem isPlain_of_mem_marked {digits : List Char} (h : ∀ c ∈ digits, Text.IsPlain c) :
    ∀ c ∈ '0' :: 'x' :: digits, Text.IsPlain c := by
  simp only [List.forall_mem_cons]
  exact ⟨by decide, by decide, h⟩

theorem trim_text (bs : Bytes) : Text.trim (text bs).toList = '0' :: 'x' :: encode bs := by
  rw [text, String.toList_ofList,
    Text.trim_of_isPlain (isPlain_of_mem_marked isPlain_of_mem_encode)]

theorem colon_not_mem_encode (bs : Bytes) : ':' ∉ encode bs := by
  have hall : ∀ n : Fin 16, digit n ≠ ':' := by decide
  rw [encode_eq_map_halves]
  intro h
  obtain ⟨n, hn, hcolon⟩ := List.mem_map.mp h
  exact hall ⟨n, lt_of_mem_halves hn⟩ hcolon

end CrossChain.Hex
