import CrossChain.Proofs.Text.Plain
import CrossChain.Text.Base64
/-! Bytes written in base 64 read back. All groups but the last one are full; the last one holds
one to three bytes, and what it leaves over is zero. -/
namespace CrossChain.Base64

variable {alphabet : Alphabet}

theorem isPlain_symbol {v : Nat} (h : v < 64) : Text.IsPlain (symbol alphabet v) := by
  have hall : ∀ v : Fin 64, Text.IsPlain (symbol .standard v) ∧ Text.IsPlain (symbol .url v) := by
    decide
  cases alphabet with
  | standard => exact (hall ⟨v, h⟩).1
  | url => exact (hall ⟨v, h⟩).2

theorem value?_symbol {v : Nat} (h : v < 64) :
    value? alphabet (Text.byte (symbol alphabet v)) = some v := by
  have hall : ∀ v : Fin 64, value? .standard (Text.byte (symbol .standard v)) = some v.val ∧
      value? .url (Text.byte (symbol .url v)) = some v.val := by
    decide
  cases alphabet with
  | standard => exact (hall ⟨v, h⟩).1
  | url => exact (hall ⟨v, h⟩).2

theorem value_symbol {v : Nat} (h : v < 64) (position : Nat) :
    value alphabet (Text.byte (symbol alphabet v)) position = .ok v := by
  rw [value, value?_symbol h]

theorem value?_padding : value? alphabet padding = none := by
  cases alphabet <;> decide

theorem byte_symbol_ne_padding {v : Nat} (h : v < 64) :
    Text.byte (symbol alphabet v) ≠ padding := by
  intro heq
  have hvalue : value? alphabet (Text.byte (symbol alphabet v)) = some v := value?_symbol h
  rw [heq, value?_padding] at hvalue
  cases hvalue

theorem length_encode (bs : Bytes) : (encode alphabet bs).length = 4 * ((bs.length + 2) / 3) := by
  fun_induction encode alphabet bs with
  | case1 => rfl
  | case2 => simp
  | case3 => simp
  | case4 a b c rest n ih =>
    simp only [List.length_cons, ih]
    omega

theorem isPlain_of_mem_encode {bs : Bytes} : ∀ c ∈ encode alphabet bs, Text.IsPlain c := by
  have hpad : Text.IsPlain '=' := by decide
  fun_induction encode alphabet bs with
  | case1 => simp
  | case2 a n =>
    have ha := a.toNat_lt
    simp only [List.forall_mem_cons, List.not_mem_nil, false_imp_iff, implies_true, and_true]
    exact ⟨isPlain_symbol (by omega), isPlain_symbol (by omega), hpad, hpad⟩
  | case3 a b n =>
    have ha := a.toNat_lt
    have hb := b.toNat_lt
    simp only [List.forall_mem_cons, List.not_mem_nil, false_imp_iff, implies_true, and_true]
    exact ⟨isPlain_symbol (by omega), isPlain_symbol (by omega), isPlain_symbol (by omega), hpad⟩
  | case4 a b c rest n ih =>
    have ha := a.toNat_lt
    have hb := b.toNat_lt
    have hc := c.toNat_lt
    simp only [List.forall_mem_cons]
    exact ⟨isPlain_symbol (by omega), isPlain_symbol (by omega), isPlain_symbol (by omega),
      isPlain_symbol (by omega), ih⟩

theorem encode_group (a b c : UInt8) (rest : Bytes) :
    encode alphabet (a :: b :: c :: rest) = encode alphabet [a, b, c] ++ encode alphabet rest := by
  simp [encode]

/-- Three bytes come back from the number they were split from. -/
theorem ofNat_group {a b c : UInt8} {n : Nat}
    (hn : n = (a.toNat * 256 + b.toNat) * 256 + c.toNat) :
    UInt8.ofNat (n / 65536) = a ∧ UInt8.ofNat (n / 256) = b ∧ UInt8.ofNat n = c := by
  have ha := a.toNat_lt
  have hb := b.toNat_lt
  have hc := c.toNat_lt
  simp only [← UInt8.toNat_inj, UInt8.toNat_ofNat']
  omega

/-- The values of the symbols of a full group. -/
theorem exists_values (alphabet : Alphabet) (a b c : UInt8) : ∃ v w x y,
    v < 64 ∧ w < 64 ∧ x < 64 ∧ y < 64 ∧
    ((v * 64 + w) * 64 + x) * 64 + y = (a.toNat * 256 + b.toNat) * 256 + c.toNat ∧
    encode alphabet [a, b, c] =
      [symbol alphabet v, symbol alphabet w, symbol alphabet x, symbol alphabet y] := by
  have ha := a.toNat_lt
  have hb := b.toNat_lt
  have hc := c.toNat_lt
  refine ⟨_, _, _, _, ?_, ?_, ?_, ?_, ?_, rfl⟩ <;> omega

theorem decodeGroups_group (a b c : UInt8) {more bs : Bytes} {position : Nat}
    (h : decodeGroups alphabet (position + 4) more = .ok bs) :
    decodeGroups alphabet position ((encode alphabet [a, b, c]).map Text.byte ++ more) =
      .ok (a :: b :: c :: bs) := by
  obtain ⟨v, w, x, y, hv, hw, hx, hy, hn, hencode⟩ := exists_values alphabet a b c
  obtain ⟨hfirst, hsecond, hthird⟩ := ofNat_group hn
  simp only [hencode, List.map_cons, List.map_nil, List.cons_append, List.nil_append, decodeGroups,
    value_symbol hv, value_symbol hw, value_symbol hx, value_symbol hy, h, bind, Except.bind]
  rw [hfirst, hsecond, hthird]
  rfl

theorem splitPadding_symbol {v : Nat} (h : v < 64) (start position : Nat) (rest : Bytes) :
    splitPadding alphabet start position 0 (Text.byte (symbol alphabet v) :: rest) =
      (splitPadding alphabet start (position + 1) 0 rest).map fun (vs, pads) =>
        ((Text.byte (symbol alphabet v), v) :: vs, pads) := by
  rw [splitPadding, if_neg (byte_symbol_ne_padding h), if_neg (Nat.lt_irrefl 0)]
  simp only [value?_symbol h]

theorem splitPadding_padding {position : Nat} (h : 2 ≤ position) (start pads : Nat)
    (rest : Bytes) :
    splitPadding alphabet start position pads (Text.byte '=' :: rest) =
      splitPadding alphabet start (position + 1) (pads + 1) rest := by
  have hpadding : Text.byte '=' = padding := by decide
  rw [splitPadding, if_pos hpadding, if_neg (by omega)]

/-! What is left over of the last symbol is zero, as the reader asks for. -/

theorem decodeLast_encode_one (a : UInt8) (start : Nat) :
    decodeLast alphabet start ((encode alphabet [a]).map Text.byte) = .ok [a] := by
  have ha := a.toNat_lt
  have hv : a.toNat * 16 / 64 < 64 := by omega
  have hw : a.toNat * 16 % 64 < 64 := by omega
  have hspare : a.toNat * 16 % 64 % 16 = 0 := by omega
  have hbyte : (a.toNat * 16 / 64 * 64 + a.toNat * 16 % 64) / 16 = a.toNat := by omega
  have hsplit : splitPadding alphabet start 0 0 ((encode alphabet [a]).map Text.byte) =
      .ok ([(Text.byte (symbol alphabet (a.toNat * 16 / 64)), a.toNat * 16 / 64),
        (Text.byte (symbol alphabet (a.toNat * 16 % 64)), a.toNat * 16 % 64)], 2) := by
    simp only [encode, List.map_cons, List.map_nil, splitPadding_symbol hv,
      splitPadding_symbol hw, splitPadding_padding (Nat.le_refl 2),
      splitPadding_padding (Nat.le_succ 2)]
    rfl
  rw [decodeLast, hsplit]
  simp [bind, Except.bind, pure, Except.pure, hspare, hbyte]

theorem decodeLast_encode_two (a b : UInt8) (start : Nat) :
    decodeLast alphabet start ((encode alphabet [a, b]).map Text.byte) = .ok [a, b] := by
  have ha := a.toNat_lt
  have hb := b.toNat_lt
  generalize hn : (a.toNat * 256 + b.toNat) * 4 = n
  have hv : n / 4096 < 64 := by omega
  have hw : n / 64 % 64 < 64 := by omega
  have hx : n % 64 < 64 := by omega
  have hspare : n % 64 % 4 = 0 := by omega
  have hvalues : (n / 4096 * 64 + n / 64 % 64) * 64 + n % 64 = n := by omega
  have hfirst : UInt8.ofNat (n / 1024) = a := by
    rw [← UInt8.toNat_inj, UInt8.toNat_ofNat']
    omega
  have hsecond : UInt8.ofNat (n / 4) = b := by
    rw [← UInt8.toNat_inj, UInt8.toNat_ofNat']
    omega
  have hsplit : splitPadding alphabet start 0 0 ((encode alphabet [a, b]).map Text.byte) =
      .ok ([(Text.byte (symbol alphabet (n / 4096)), n / 4096),
        (Text.byte (symbol alphabet (n / 64 % 64)), n / 64 % 64),
        (Text.byte (symbol alphabet (n % 64)), n % 64)], 1) := by
    simp only [encode, hn, List.map_cons, List.map_nil, splitPadding_symbol hv,
      splitPadding_symbol hw, splitPadding_symbol hx, splitPadding_padding (Nat.le_succ 2)]
    rfl
  rw [decodeLast, hsplit]
  simp [bind, Except.bind, pure, Except.pure, hspare, hvalues, hfirst, hsecond]

theorem decodeLast_encode_three (a b c : UInt8) (start : Nat) :
    decodeLast alphabet start ((encode alphabet [a, b, c]).map Text.byte) = .ok [a, b, c] := by
  obtain ⟨v, w, x, y, hv, hw, hx, hy, hn, hencode⟩ := exists_values alphabet a b c
  obtain ⟨hfirst, hsecond, hthird⟩ := ofNat_group hn
  have hsplit : splitPadding alphabet start 0 0 ((encode alphabet [a, b, c]).map Text.byte) =
      .ok ([(Text.byte (symbol alphabet v), v), (Text.byte (symbol alphabet w), w),
        (Text.byte (symbol alphabet x), x), (Text.byte (symbol alphabet y), y)], 0) := by
    simp only [hencode, List.map_cons, List.map_nil, splitPadding_symbol, hv, hw, hx, hy]
    rfl
  rw [decodeLast, hsplit]
  simp [bind, Except.bind, pure, Except.pure, hfirst, hsecond, hthird]

theorem decodeLast_encode {bs : Bytes} (h : bs.length ≤ 3) (start : Nat) :
    decodeLast alphabet start ((encode alphabet bs).map Text.byte) = .ok bs := by
  match bs, h with
  | [], _ => rfl
  | [a], _ => exact decodeLast_encode_one a start
  | [a, b], _ => exact decodeLast_encode_two a b start
  | [a, b, c], _ => exact decodeLast_encode_three a b c start

theorem lastStart_length_encode (bs : Bytes) :
    lastStart (encode alphabet bs).length = 4 * ((bs.length + 2) / 3) - 4 := by
  rw [length_encode, lastStart, if_pos (Nat.mul_mod_right 4 _)]

/-- The last group of a text stands for some of the bytes and the groups before it for the
others. -/
structure Parts (alphabet : Alphabet) (bs groups last : Bytes) : Prop where
  append : groups ++ last = bs
  groups : ∀ position, decodeGroups alphabet position
    (((encode alphabet bs).map Text.byte).take (lastStart (encode alphabet bs).length)) =
      .ok groups
  last : ∀ start, decodeLast alphabet start
    (((encode alphabet bs).map Text.byte).drop (lastStart (encode alphabet bs).length)) = .ok last

theorem parts_of_short {bs : Bytes} (h : bs.length ≤ 3) : Parts alphabet bs [] bs := by
  have hstart : lastStart (encode alphabet bs).length = 0 := by
    rw [lastStart_length_encode]
    omega
  refine ⟨rfl, fun position => ?_, fun start => ?_⟩
  · rw [hstart, List.take_zero]
    rfl
  · rw [hstart, List.drop_zero]
    exact decodeLast_encode h start

theorem Parts.cons_group {a b c : UInt8} {rest groups last : Bytes} (hrest : rest ≠ [])
    (h : Parts alphabet rest groups last) :
    Parts alphabet (a :: b :: c :: rest) (a :: b :: c :: groups) last := by
  have hfour : ((encode alphabet [a, b, c]).map Text.byte).length = 4 := by
    simp [length_encode]
  have hstart : lastStart (encode alphabet (a :: b :: c :: rest)).length =
      4 + lastStart (encode alphabet rest).length := by
    have hpos := List.length_pos_of_ne_nil hrest
    simp only [lastStart_length_encode, List.length_cons]
    omega
  refine ⟨by simp [← h.append], fun position => ?_, fun start => ?_⟩
  · rw [hstart, encode_group, List.map_append, ← hfour, List.take_length_add_append]
    exact decodeGroups_group a b c (h.groups (position + 4))
  · rw [hstart, encode_group, List.map_append, ← hfour, List.drop_length_add_append]
    exact h.last start

theorem exists_parts (alphabet : Alphabet) (bs : Bytes) :
    ∃ groups last, Parts alphabet bs groups last := by
  match bs with
  | a :: b :: c :: d :: rest =>
    obtain ⟨groups, last, h⟩ := exists_parts alphabet (d :: rest)
    exact ⟨_, _, h.cons_group (List.cons_ne_nil d rest)⟩
  | [] => exact ⟨_, _, parts_of_short (by simp)⟩
  | [a] => exact ⟨_, _, parts_of_short (by simp)⟩
  | [a, b] => exact ⟨_, _, parts_of_short (by simp)⟩
  | [a, b, c] => exact ⟨_, _, parts_of_short (by simp)⟩

theorem decode_encode (alphabet : Alphabet) (bs : Bytes) :
    decode alphabet (encode alphabet bs) = .ok bs := by
  obtain ⟨groups, last, h⟩ := exists_parts alphabet bs
  have hfour : (encode alphabet bs).length % 4 ≠ 1 := by
    rw [length_encode]
    omega
  unfold decode
  simp only [Text.utf8_of_isPlain isPlain_of_mem_encode, List.length_map, h.groups, h.last,
    if_neg hfour]
  exact congrArg Except.ok h.append

end CrossChain.Base64
