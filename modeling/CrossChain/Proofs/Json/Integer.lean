import CrossChain.Json.Loose
import CrossChain.Proofs.Text.Hex
/-! Numbers in events. A number may be spelled in several ways, and all of them are read alike: only
the number counts. -/
namespace CrossChain

namespace Numeral

/-- The characters, low lines aside, are the digits of the number, the first one counting most. -/
def Denotes (radix : Nat) (cs : List Char) (n : Nat) : Prop :=
  ∃ digits, List.Forall₂ Hex.Spells (cs.filter (· ≠ '_')) digits ∧ (∀ d ∈ digits, d < radix) ∧
    Nat.ofDigits radix digits.reverse = n

variable {radix n : Nat} {cs : List Char} {digits : List Nat}

theorem ofDigits_eq (radix : Nat) (digits : List Nat) :
    ofDigits radix digits = Nat.ofDigits radix digits.reverse := by
  rw [ofDigits, Nat.ofDigits_eq_foldr, List.foldr_reverse]
  congr 1
  funext n d
  rw [Nat.cast_id, Nat.mul_comm, Nat.add_comm]

theorem isPlain_of_forall₂ (h : List.Forall₂ Hex.Spells (cs.filter (· ≠ '_')) digits) :
    ∀ c ∈ cs, Text.IsPlain c := by
  intro c hc
  by_cases hline : c = '_'
  · rw [hline]
    decide
  · exact Hex.isPlain_of_spells h c (List.mem_filter.mpr ⟨hc, by simpa using hline⟩)

theorem byte_ne_of_spells {c : Char} {d : Nat} (h : Hex.Spells c d) : Text.byte c ≠ 95 := by
  intro hline
  have hvalue := h.2
  rw [hline] at hvalue
  exact absurd hvalue (by simp [Hex.value?])

theorem leadingDigits_of_forall₂ (h : List.Forall₂ Hex.Spells (cs.filter (· ≠ '_')) digits)
    (hradix : ∀ d ∈ digits, d < radix) :
    leadingDigits radix (Text.utf8 cs) = (digits, none) := by
  rw [Text.utf8_of_isPlain (isPlain_of_forall₂ h)]
  induction cs generalizing digits with
  | nil =>
    obtain rfl := List.forall₂_nil_left_iff.mp h
    rfl
  | cons c cs ih =>
    by_cases hline : c = '_'
    · rw [List.filter_cons_of_neg (by simpa using hline)] at h
      rw [hline, List.map_cons, leadingDigits, if_pos (by decide)]
      exact ih h hradix
    · rw [List.filter_cons_of_pos (by simpa using hline)] at h
      obtain ⟨d, rest, hd, hrest, rfl⟩ := List.forall₂_cons_left_iff.mp h
      rw [List.forall_mem_cons] at hradix
      have hdigit : digit? radix (Text.byte c) = some d := by
        rw [digit?, hd.2, Option.filter_some, if_pos (by simpa using hradix.1)]
      rw [List.map_cons, leadingDigits, if_neg (byte_ne_of_spells hd), hdigit,
        ih hrest hradix.2]

theorem u256OfDecimal_of_denotes (h : Denotes 10 cs n) : u256OfDecimal cs = settle n none := by
  obtain ⟨digits, hspells, hradix, rfl⟩ := h
  rw [u256OfDecimal, leadingDigits_of_forall₂ hspells hradix, ← ofDigits_eq]

theorem u256OfHex_of_denotes (h : Denotes 16 cs n) : u256OfHex cs = settle n none := by
  obtain ⟨digits, hspells, hradix, rfl⟩ := h
  have hreverse : (Text.utf8 cs).reverse = Text.utf8 cs.reverse := by
    have hplain := isPlain_of_forall₂ hspells
    rw [Text.utf8_of_isPlain hplain, ← List.map_reverse,
      Text.utf8_of_isPlain fun c hc => hplain c (List.mem_reverse.mp hc)]
  have hbackward : List.Forall₂ Hex.Spells (cs.reverse.filter (· ≠ '_')) digits.reverse := by
    rw [List.filter_reverse]
    exact List.forall₂_reverse_iff.mpr hspells
  rw [u256OfHex, hreverse, leadingDigits_of_forall₂ hbackward (by simpa using hradix)]
  simp only [List.reverse_reverse, ofDigits_eq]

/-- A text of decimal digits does not begin like a hexadecimal one. -/
theorem dropMark?_of_denotes (h : Denotes 10 cs n) : Hex.dropMark? cs = none := by
  obtain ⟨digits, hspells, -, -⟩ := h
  have hnone : ∀ c ∈ cs, Hex.value? (Text.byte c) = none → c = '_' := by
    intro c hc hvalue
    by_contra hline
    have hmem : c ∈ cs.filter (· ≠ '_') := List.mem_filter.mpr ⟨hc, by simpa using hline⟩
    obtain ⟨d, -, hd⟩ := hspells.exists_of_mem_left hmem
    rw [hd.2] at hvalue
    cases hvalue
  unfold Hex.dropMark?
  split
  next rest => exact absurd (hnone 'x' (by simp) (by decide)) (by decide)
  next rest => exact absurd (hnone 'X' (by simp) (by decide)) (by decide)
  next => rfl

theorem Denotes.isPlain (h : Denotes radix cs n) : ∀ c ∈ cs, Text.IsPlain c := by
  obtain ⟨digits, hspells, -, -⟩ := h
  exact isPlain_of_forall₂ hspells

theorem Denotes.append {c : Char} {d : Nat} (h : Denotes radix cs n) (hc : Hex.Spells c d)
    (hd : d < radix) : Denotes radix (cs ++ [c]) (n * radix + d) := by
  obtain ⟨digits, hspells, hradix, rfl⟩ := h
  have hline : c ≠ '_' := by
    rintro rfl
    exact byte_ne_of_spells hc (by decide)
  refine ⟨digits ++ [d], ?_, ?_, ?_⟩
  · rw [List.filter_append, List.filter_cons_of_pos (by simpa using hline)]
    exact List.rel_append hspells (.cons hc .nil)
  · exact List.forall_mem_append.mpr ⟨hradix, List.forall_mem_singleton.mpr hd⟩
  · rw [List.reverse_append, List.reverse_singleton, List.singleton_append, Nat.ofDigits_cons,
      Nat.add_comm, Nat.mul_comm]

theorem spells_digitChar {d : Nat} (h : d < 16) : Hex.Spells d.digitChar d := by
  have hall : ∀ d : Fin 16, Hex.Spells (Nat.digitChar d) d := by decide
  exact hall ⟨d, h⟩

/-- The digits that are usually written. -/
theorem denotes_toDigits (hone : 1 < radix) (hradix : radix ≤ 16) (n : Nat) :
    Denotes radix (Nat.toDigits radix n) n := by
  induction n using Nat.strong_induction_on with
  | _ n ih =>
    have hempty : Denotes radix [] 0 := ⟨[], .nil, by simp, rfl⟩
    rw [Nat.toDigits_eq_if hone]
    split
    next hn => simpa using hempty.append (spells_digitChar (by omega)) hn
    next hn =>
      have hmod : n % radix < radix := Nat.mod_lt n (by omega)
      have hdiv := ih (n / radix) (Nat.div_lt_self (by omega) hone)
      simpa [Nat.div_add_mod'] using hdiv.append (spells_digitChar (by omega)) hmod

theorem settle_eq_ok_iff {w : U256} :
    settle n none = .ok w ↔ n < 1 <<< 256 ∧ BitVec.ofNat 256 n = w := by
  rw [settle]
  split
  next hn => rw [Except.ok.injEq, and_iff_right hn]
  next hn => exact iff_of_false (by simp) fun h => hn h.1

end Numeral

namespace Json

/-- The value spells the number: a JSON number, or a decimal or hexadecimal text, blanks around it
aside. -/
inductive SpellsNumber (n : Nat) : Json → Prop where
  | number {m : UInt64} (h : m.toNat = n) : SpellsNumber n (.number (.natural m))
  | decimal {s : String} (hne : Text.trim s.toList ≠ [])
      (h : Numeral.Denotes 10 (Text.trim s.toList) n) : SpellsNumber n (.text s)
  | hex {s : String} {digits : List Char} (hmark : Hex.dropMark? (Text.trim s.toList) = some digits)
      (h : Numeral.Denotes 16 digits n) : SpellsNumber n (.text s)

variable {n : Nat} {v : Json}

/-- The decimal text of a number. -/
theorem spellsNumber_repr (n : Nat) : SpellsNumber n (.text n.repr) := by
  have hdigits := Numeral.denotes_toDigits (by decide : 1 < 10) (by decide) n
  have htrim : Text.trim n.repr.toList = Nat.toDigits 10 n := by
    rw [Nat.toList_repr, Text.trim_of_isPlain hdigits.isPlain]
  refine .decimal ?_ (htrim ▸ hdigits)
  rw [htrim]
  exact Nat.toDigits_ne_nil

/-- The hexadecimal text of a number. -/
theorem spellsNumber_hex (n : Nat) :
    SpellsNumber n (.text (String.ofList ('0' :: 'x' :: Nat.toDigits 16 n))) := by
  have hdigits := Numeral.denotes_toDigits (by decide : 1 < 16) (by decide) n
  refine .hex ?_ hdigits
  rw [String.toList_ofList, Text.trim_of_isPlain (Hex.isPlain_of_mem_marked hdigits.isPlain)]
  rfl

/-- A number of 256 bits is read from every spelling of it. -/
theorem SpellsNumber.u256_eq_ok_iff (h : SpellsNumber n v) {w : U256} :
    Reader.u256 v = .ok w ↔ n < 1 <<< 256 ∧ BitVec.ofNat 256 n = w := by
  cases h with
  | @number m h =>
    have hm : n < 1 <<< 256 := h ▸ Nat.lt_trans m.toNat_lt (by decide)
    rw [Reader.u256, h, Except.ok.injEq, and_iff_right hm]
  | @decimal s hne h =>
    rw [Reader.u256, parseInteger]
    simp only [if_neg hne, Numeral.dropMark?_of_denotes h, Numeral.u256OfDecimal_of_denotes h]
    rw [Except.mapError_eq_ok_iff, Numeral.settle_eq_ok_iff]
  | @hex s digits hmark h =>
    have hne : Text.trim s.toList ≠ [] := by
      intro hempty
      rw [hempty] at hmark
      cases hmark
    rw [Reader.u256, parseInteger]
    simp only [if_neg hne, hmark, Numeral.u256OfHex_of_denotes h]
    rw [Except.mapError_eq_ok_iff, Numeral.settle_eq_ok_iff]

variable {v' : Json}

theorem yieldsAlso_u256 (h : SpellsNumber n v) (h' : SpellsNumber n v') :
    YieldsAlso (Reader.u256 v) (Reader.u256 v') := by
  intro w hw
  exact h'.u256_eq_ok_iff.mpr (h.u256_eq_ok_iff.mp hw)

theorem yieldsAlso_u64 (h : SpellsNumber n v) (h' : SpellsNumber n v') :
    YieldsAlso (Reader.u64 v) (Reader.u64 v') :=
  (yieldsAlso_u256 h h').bind fun w => .refl (Reader.narrow w)

theorem SpellsNumber.optional_eq_map {α : Type} (read : Reader α) (h : SpellsNumber n v) :
    Reader.optional read v = (read v).map some := by
  cases h <;> rfl

theorem yieldsAlso_optional_u64 (h : SpellsNumber n v) (h' : SpellsNumber n v') :
    YieldsAlso (Reader.optional Reader.u64 v) (Reader.optional Reader.u64 v') := by
  rw [h.optional_eq_map, h'.optional_eq_map]
  exact (yieldsAlso_u64 h h').map

end Json

end CrossChain
