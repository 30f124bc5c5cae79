import CrossChain.Proofs.Outcomes
import CrossChain.Proofs.Text.Base64
/-! Texts in base 64 that fill their last group. Such a text is a list of six-bit numbers, the same
in both alphabets, and any symbols in groups of four are the text of some bytes. Main statement:
reading in an alphabet other than that of the writer fails at a symbol that the two do not share,
and otherwise gives the bytes that were written. -/
namespace CrossChain.Base64

variable {alphabet other : Alphabet} {bs : Bytes}

theorem eq_nil_of_no_group {α : Type} {l : List α} (h : 4 ∣ l.length)
    (hshort : ∀ a b c d rest, l = a :: b :: c :: d :: rest → False) : l = [] := by
  match l, h, hshort with
  | [], _, _ => rfl
  | [_], h, _ | [_, _], h, _ | [_, _, _], h, _ => exact absurd h (by norm_num)
  | a :: b :: c :: d :: rest, _, hshort => exact (hshort a b c d rest rfl).elim

/-- The symbols of six-bit numbers. -/
def symbols (alphabet : Alphabet) (vs : List (Fin 64)) : List Char :=
  vs.map fun v => symbol alphabet v.val

/-- The bytes that groups of four six-bit numbers stand for. -/
def ofSextets : List (Fin 64) → Bytes
  | v :: w :: x :: y :: rest =>
    let n := ((v.val * 64 + w.val) * 64 + x.val) * 64 + y.val
    UInt8.ofNat (n / 65536) :: UInt8.ofNat (n / 256) :: UInt8.ofNat n :: ofSextets rest
  | _ => []

theorem length_ofSextets {vs : List (Fin 64)} (h : 4 ∣ vs.length) :
    4 * (ofSextets vs).length = 3 * vs.length := by
  fun_induction ofSextets vs with
  | case1 v w x y rest n ih =>
    have hrest := ih ((Nat.dvd_add_left (dvd_refl 4)).mp h)
    simp only [List.length_cons]
    omega
  | case2 vs hshort =>
    rw [eq_nil_of_no_group h hshort]
    rfl

theorem encode_ofSextets {vs : List (Fin 64)} (h : 4 ∣ vs.length) :
    encode alphabet (ofSextets vs) = symbols alphabet vs := by
  fun_induction ofSextets vs with
  | case1 v w x y rest n ih =>
    have hv := v.isLt
    have hw := w.isLt
    have hx := x.isLt
    have hy := y.isLt
    have hn : ((UInt8.ofNat (n / 65536)).toNat * 256 + (UInt8.ofNat (n / 256)).toNat) * 256 +
        (UInt8.ofNat n).toNat = n := by
      simp only [UInt8.toNat_ofNat']
      omega
    have hrest : 4 ∣ rest.length := (Nat.dvd_add_left (dvd_refl 4)).mp h
    have hfirst : n / 262144 = v := by omega
    have hsecond : n / 4096 % 64 = w := by omega
    have hthird : n / 64 % 64 = x := by omega
    have hfourth : n % 64 = y := by omega
    simp only [encode, hn, hfirst, hsecond, hthird, hfourth, ih hrest, symbols, List.map_cons]
  | case2 vs hshort =>
    rw [eq_nil_of_no_group h hshort]
    rfl

theorem exists_sextets {bs : Bytes} (h : 3 ∣ bs.length) :
    ∃ vs : List (Fin 64), 4 ∣ vs.length ∧ ofSextets vs = bs := by
  match bs, h with
  | [], _ => exact ⟨[], dvd_zero 4, rfl⟩
  | [_], h | [_, _], h => exact absurd h (by norm_num)
  | a :: b :: c :: rest, h =>
    have hthree : 3 ∣ rest.length := (Nat.dvd_add_left (dvd_refl 3)).mp h
    obtain ⟨vs, hfour, hrest⟩ := exists_sextets hthree
    obtain ⟨v, w, x, y, hv, hw, hx, hy, hn, -⟩ := exists_values .standard a b c
    obtain ⟨ha, hb, hc⟩ := ofNat_group hn
    refine ⟨⟨v, hv⟩ :: ⟨w, hw⟩ :: ⟨x, hx⟩ :: ⟨y, hy⟩ :: vs, ?_, ?_⟩
    · exact (Nat.dvd_add_left (dvd_refl 4)).mpr hfour
    · simp only [ofSextets, ha, hb, hc, hrest]

/-- The character stands for one of the 64 values. -/
def IsSymbol (alphabet : Alphabet) (c : Char) : Prop :=
  ∃ v : Fin 64, symbol alphabet v.val = c

instance (alphabet : Alphabet) : DecidablePred (IsSymbol alphabet) := fun c =>
  inferInstanceAs (Decidable (∃ v : Fin 64, symbol alphabet v.val = c))

theorem exists_symbols {cs : List Char} (h : ∀ c ∈ cs, IsSymbol alphabet c) :
    ∃ vs : List (Fin 64), symbols alphabet vs = cs := by
  induction cs with
  | nil => exact ⟨[], rfl⟩
  | cons c cs ih =>
    rw [List.forall_mem_cons] at h
    obtain ⟨⟨v, rfl⟩, hcs⟩ := h
    obtain ⟨vs, rfl⟩ := ih hcs
    exact ⟨v :: vs, rfl⟩

theorem isSymbol_of_mem_encode (h : 3 ∣ bs.length) :
    ∀ c ∈ encode alphabet bs, IsSymbol alphabet c := by
  obtain ⟨vs, hfour, rfl⟩ := exists_sextets h
  rw [encode_ofSextets hfour, symbols, List.forall_mem_map]
  exact fun v _ => ⟨v, rfl⟩

/-- A character that another alphabet can read stands for the same value there. -/
theorem symbol_eq_of_value? {v : Fin 64}
    (h : (value? other (Text.byte (symbol alphabet v))).isSome) :
    symbol alphabet v = symbol other v := by
  have hall : ∀ v : Fin 64,
      ((value? .url (Text.byte (symbol .standard v))).isSome → symbol .standard v = symbol .url v) ∧
      ((value? .standard (Text.byte (symbol .url v))).isSome →
        symbol .url v = symbol .standard v) := by
    decide
  cases alphabet <;> cases other
  · rfl
  · exact (hall v).1 h
  · exact (hall v).2 h
  · rfl

theorem isSome_value?_of_isSymbol {c : Char} (h : IsSymbol alphabet c) :
    (value? alphabet (Text.byte c)).isSome := by
  obtain ⟨v, rfl⟩ := h
  rw [value?_symbol v.isLt, Option.isSome_some]

/-- A text that the other alphabet has all symbols of is the same in both. -/
theorem encode_eq_of_isSymbol (h : 3 ∣ bs.length)
    (hother : ∀ c ∈ encode alphabet bs, IsSymbol other c) :
    encode alphabet bs = encode other bs := by
  obtain ⟨vs, hfour, rfl⟩ := exists_sextets h
  simp only [encode_ofSextets hfour, symbols] at hother ⊢
  refine List.map_congr_left fun v hv => ?_
  exact symbol_eq_of_value? (isSome_value?_of_isSymbol (hother _ (List.mem_map_of_mem hv)))

/-! A byte that is no symbol and no padding is an error wherever it stands. -/

/-- The byte can stand in a text of the alphabet. -/
def Known (alphabet : Alphabet) (b : UInt8) : Prop :=
  b = padding ∨ (value? alphabet b).isSome

theorem known_of_value {b : UInt8} {position v : Nat} (h : value alphabet b position = .ok v) :
    Known alphabet b := by
  unfold value at h
  split at h
  next hv => exact .inr (by rw [hv, Option.isSome_some])
  next => cases h

theorem known_of_decodeGroups {position : Nat} {input groups : Bytes} (hfour : 4 ∣ input.length)
    (h : decodeGroups alphabet position input = .ok groups) : ∀ b ∈ input, Known alphabet b := by
  induction position, input using decodeGroups.induct generalizing groups with
  | case1 position a b c d rest ih =>
    have hrest : 4 ∣ rest.length := (Nat.dvd_add_left (dvd_refl 4)).mp hfour
    rw [decodeGroups] at h
    obtain ⟨_, ha, h⟩ := Except.bind_eq_ok_iff.mp h
    obtain ⟨_, hb, h⟩ := Except.bind_eq_ok_iff.mp h
    obtain ⟨_, hc, h⟩ := Except.bind_eq_ok_iff.mp h
    obtain ⟨_, hd, h⟩ := Except.bind_eq_ok_iff.mp h
    obtain ⟨_, htail, -⟩ := Except.bind_eq_ok_iff.mp h
    simp only [List.forall_mem_cons]
    exact ⟨known_of_value ha, known_of_value hb, known_of_value hc, known_of_value hd,
      ih hrest htail⟩
  | case2 position input hshort =>
    rw [eq_nil_of_no_group hfour hshort]
    simp

theorem known_of_splitPadding {start position pads : Nat} {input : Bytes}
    {result : List (UInt8 × Nat) × Nat}
    (h : splitPadding alphabet start position pads input = .ok result) :
    ∀ b ∈ input, Known alphabet b := by
  induction input generalizing position pads result with
  | nil => simp
  | cons b input ih =>
    rw [List.forall_mem_cons]
    rw [splitPadding] at h
    split at h
    next hpadding =>
      split at h
      next => cases h
      next => exact ⟨.inl hpadding, ih h⟩
    next =>
      split at h
      next => cases h
      next =>
        split at h
        next => cases h
        next v hv =>
          obtain ⟨_, hrest, -⟩ := Except.map_eq_ok_iff.mp h
          exact ⟨.inr (by rw [hv, Option.isSome_some]), ih hrest⟩

theorem known_of_decodeLast {start : Nat} {group last : Bytes}
    (h : decodeLast alphabet start group = .ok last) : ∀ b ∈ group, Known alphabet b := by
  obtain ⟨_, hsplit, -⟩ := Except.bind_eq_ok_iff.mp h
  exact known_of_splitPadding hsplit

theorem dvd_lastStart (length : Nat) : 4 ∣ lastStart length := by
  unfold lastStart
  split <;> omega

theorem lastStart_le (length : Nat) : lastStart length ≤ length := by
  unfold lastStart
  split <;> omega

theorem known_of_decode {cs : List Char} (h : decode alphabet cs = .ok bs) :
    ∀ b ∈ Text.utf8 cs, Known alphabet b := by
  unfold decode at h
  extract_lets input start parts at h
  have hparts : parts ⟨⟩ = .ok bs := by
    split at h
    next =>
      split at h
      next => exact (Except.guard_eq_ok_iff.mp h).2
      next => exact h
    next => exact h
  obtain ⟨groups, hgroups, hparts⟩ := Except.bind_eq_ok_iff.mp hparts
  obtain ⟨last, hlast, -⟩ := Except.bind_eq_ok_iff.mp hparts
  have hfour : 4 ∣ (input.take start).length := by
    rw [List.length_take, Nat.min_eq_left (lastStart_le _)]
    exact dvd_lastStart _
  rw [← List.take_append_drop start (Text.utf8 cs), List.forall_mem_append]
  exact ⟨known_of_decodeGroups hfour hgroups, known_of_decodeLast hlast⟩

/-- What one alphabet writes, another one reads if it has all the symbols, and reads as it was
meant. -/
theorem decode_encode_eq_ok_iff (h : 3 ∣ bs.length) {found : Bytes} :
    decode other (encode alphabet bs) = .ok found ↔
      (∀ c ∈ encode alphabet bs, IsSymbol other c) ∧ bs = found := by
  constructor
  · intro hread
    have hsymbols : ∀ c ∈ encode alphabet bs, IsSymbol other c := by
      intro c hc
      obtain ⟨v, rfl⟩ := isSymbol_of_mem_encode h c hc
      have hmem : Text.byte (symbol alphabet v) ∈ Text.utf8 (encode alphabet bs) := by
        rw [Text.utf8_of_isPlain isPlain_of_mem_encode]
        exact List.mem_map_of_mem hc
      obtain hpadding | hvalue := known_of_decode hread _ hmem
      · exact absurd hpadding (byte_symbol_ne_padding v.isLt)
      · exact ⟨v, (symbol_eq_of_value? hvalue).symm⟩
    refine ⟨hsymbols, ?_⟩
    rw [encode_eq_of_isSymbol h hsymbols, decode_encode] at hread
    exact Except.ok.inj hread
  · rintro ⟨hsymbols, rfl⟩
    rw [encode_eq_of_isSymbol h hsymbols, decode_encode]

end CrossChain.Base64
