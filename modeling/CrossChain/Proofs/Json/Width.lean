import CrossChain.Proofs.Json.Integer
/-! Numbers of limited width in events. A numeral may have any length, and blanks may stand around
it. Main statement: the readers give the number it stands for if that lies below their limit and
refuse it otherwise, so no number is cut to a width. -/
namespace CrossChain

namespace Text

variable {before cs after : List Char}

theorem trimStart_append (h : ∀ c ∈ before, isBlank c) :
    trimStart (before ++ cs) = trimStart cs :=
  List.dropWhile_append_of_pos h

theorem trimEnd_append (h : ∀ c ∈ after, isBlank c) : trimEnd (cs ++ after) = trimEnd cs := by
  have hreverse : ∀ c ∈ after.reverse, isBlank c := fun c hc => h c (List.mem_reverse.mp hc)
  rw [trimEnd, trimEnd, List.reverse_append, List.dropWhile_append_of_pos hreverse]

theorem trim_padded (hbefore : ∀ c ∈ before, isBlank c) (hafter : ∀ c ∈ after, isBlank c)
    (hcs : ∀ c ∈ cs, IsPlain c) : trim (before ++ cs ++ after) = cs := by
  rw [List.append_assoc, trim, trimStart_append hbefore]
  cases cs with
  | nil =>
    have hnil : trimStart after = [] := List.dropWhile_eq_nil_iff.mpr hafter
    rw [List.nil_append, hnil]
    rfl
  | cons c cs =>
    have hfirst : trimStart (c :: cs ++ after) = c :: cs ++ after :=
      List.dropWhile_cons_of_neg (by simp [(hcs c List.mem_cons_self).2])
    have hself := trim_of_isPlain hcs
    rw [trim, trimStart, List.dropWhile_cons_of_neg
      (by simp [(hcs c List.mem_cons_self).2])] at hself
    rw [hfirst, trimEnd_append hafter, hself]

end Text

namespace Numeral

variable {radix n : Nat} {cs ds : List Char}

/-- The same character, or the capital letter for it. -/
def Cased (c d : Char) : Prop := c = d ∨ c = d.toUpper

instance : DecidableRel Cased := fun c d =>
  inferInstanceAs (Decidable (c = d ∨ c = d.toUpper))

/-- The usual digits of the number, with zeros in front and in letters of either case. -/
def IsNumeral (radix n : Nat) (cs : List Char) : Prop :=
  ∃ zeros, List.Forall₂ Cased cs (List.replicate zeros '0' ++ Nat.toDigits radix n)

theorem Cased.spells {c d : Char} {v : Nat} (hcase : Cased c d) (h : Hex.Spells d v) :
    Hex.Spells c v := by
  obtain rfl | rfl := hcase
  · exact h
  have hall : ∀ i : Fin 128, Hex.value? (Text.byte (Char.ofNat i)) ≠ none →
      Text.IsPlain (Char.ofNat i).toUpper ∧
        Hex.value? (Text.byte (Char.ofNat i).toUpper) = Hex.value? (Text.byte (Char.ofNat i)) := by
    decide +kernel
  obtain ⟨hplain, hvalue⟩ := hall ⟨d.toNat, h.1.1⟩ (by simp [h.2])
  rw [Char.ofNat_toNat] at hplain hvalue
  exact ⟨hplain, hvalue.trans h.2⟩

theorem Cased.eq_line_iff {c d : Char} (h : Cased c d) : c = '_' ↔ d = '_' := by
  obtain rfl | rfl := h
  · rfl
  constructor
  · intro hline
    have halpha := Char.isAlpha_toUpper_eq_isAlpha d
    rw [hline] at halpha
    have hlower : ¬ d.isLower := by
      intro hlower
      rw [Char.isAlpha, Char.isAlpha, hlower, Bool.or_true] at halpha
      exact absurd halpha (by decide)
    rwa [Char.toUpper_eq_of_not_isLower hlower] at hline
  · rintro rfl
    rfl

theorem Denotes.cased (h : Denotes radix ds n) (hcs : List.Forall₂ Cased cs ds) :
    Denotes radix cs n := by
  obtain ⟨digits, hspells, hradix, hn⟩ := h
  have hfilter : List.Forall₂ Cased (cs.filter (· ≠ '_')) (ds.filter (· ≠ '_')) :=
    List.rel_filter (fun _ _ hcase => by simpa using hcase.eq_line_iff.not) hcs
  refine ⟨digits, ?_, hradix, hn⟩
  clear hcs hradix hn
  generalize cs.filter (· ≠ '_') = cs at hfilter
  generalize ds.filter (· ≠ '_') = ds at hfilter hspells
  induction hfilter generalizing digits with
  | nil => exact hspells
  | cons hcase _ ih =>
    obtain ⟨d, rest, hd, hrest, rfl⟩ := List.forall₂_cons_left_iff.mp hspells
    exact .cons (hcase.spells hd) (ih rest hrest)

theorem Denotes.zeros (h : Denotes radix cs n) (hradix : 0 < radix) (zeros : Nat) :
    Denotes radix (List.replicate zeros '0' ++ cs) n := by
  obtain ⟨digits, hspells, hdigits, hn⟩ := h
  have hzeros : List.Forall₂ Hex.Spells (List.replicate zeros '0') (List.replicate zeros 0) := by
    have hzero : Hex.Spells '0' 0 := by decide
    rw [List.forall₂_iff_get]
    exact ⟨by simp, fun i _ _ => by simpa using hzero⟩
  refine ⟨List.replicate zeros 0 ++ digits, ?_, ?_, ?_⟩
  · rw [List.filter_append, List.filter_replicate_of_pos (by decide)]
    exact List.rel_append hzeros hspells
  · rw [List.forall_mem_append]
    exact ⟨fun d hd => List.eq_of_mem_replicate hd ▸ hradix, hdigits⟩
  · rw [List.reverse_append, List.reverse_replicate, Nat.ofDigits_append_replicate_zero, hn]

theorem IsNumeral.denotes (h : IsNumeral radix n cs) (hone : 1 < radix) (hradix : radix ≤ 16) :
    Denotes radix cs n := by
  obtain ⟨zeros, hcs⟩ := h
  exact ((denotes_toDigits hone hradix n).zeros (by omega) zeros).cased hcs

theorem IsNumeral.ne_nil (h : IsNumeral radix n cs) : cs ≠ [] := by
  rintro rfl
  obtain ⟨zeros, hcs⟩ := h
  have hnil := List.forall₂_nil_left_iff.mp hcs
  exact Nat.toDigits_ne_nil (List.append_eq_nil_iff.mp hnil).2

end Numeral

namespace Json

variable {n : Nat} {v : Json}

/-- The ways to write the number in a text, blanks around it aside. -/
inductive Writes (n : Nat) : List Char → Prop where
  | decimal {cs : List Char} (h : Numeral.IsNumeral 10 n cs) : Writes n cs
  | hex {mark : Char} {cs : List Char} (hmark : mark = 'x' ∨ mark = 'X')
      (h : Numeral.IsNumeral 16 n cs) : Writes n ('0' :: mark :: cs)

theorem Writes.spellsNumber {before numeral after : List Char} (h : Writes n numeral)
    (hbefore : ∀ c ∈ before, Text.isBlank c) (hafter : ∀ c ∈ after, Text.isBlank c) :
    SpellsNumber n (.text (String.ofList (before ++ numeral ++ after))) := by
  cases h with
  | decimal h =>
    have hdenotes := h.denotes (by decide) (by decide)
    have htrim := Text.trim_padded hbefore hafter hdenotes.isPlain
    refine .decimal ?_ ?_
    · rw [String.toList_ofList, htrim]
      exact h.ne_nil
    · rw [String.toList_ofList, htrim]
      exact hdenotes
  | @hex mark cs hmark h =>
    have hdenotes := h.denotes (by decide) (by decide)
    have hplain : ∀ c ∈ '0' :: mark :: cs, Text.IsPlain c := by
      simp only [List.forall_mem_cons]
      refine ⟨by decide, ?_, hdenotes.isPlain⟩
      obtain rfl | rfl := hmark <;> decide
    have htrim := Text.trim_padded hbefore hafter hplain
    have hdrop : Hex.dropMark? ('0' :: mark :: cs) = some cs := by
      obtain rfl | rfl := hmark <;> rfl
    rw [← htrim, ← String.toList_ofList (l := before ++ '0' :: mark :: cs ++ after)] at hdrop
    exact .hex hdrop hdenotes

theorem SpellsNumber.u64_eq_ok_iff (h : SpellsNumber n v) {w : UInt64} :
    Reader.u64 v = .ok w ↔ n < UInt64.size ∧ UInt64.ofNat n = w := by
  have hwide : UInt64.size ≤ 1 <<< 256 := by decide
  rw [Reader.u64, Except.bind_eq_ok_iff]
  constructor
  · rintro ⟨a, hread, hnarrow⟩
    obtain ⟨hn, rfl⟩ := h.u256_eq_ok_iff.mp hread
    rw [Reader.narrow, BitVec.toNat_ofNat, ← Nat.one_shiftLeft, Nat.mod_eq_of_lt hn] at hnarrow
    split at hnarrow
    next hlimit => exact ⟨hlimit, Except.ok.inj hnarrow⟩
    next => cases hnarrow
  · rintro ⟨hlimit, rfl⟩
    have hn := Nat.lt_of_lt_of_le hlimit hwide
    refine ⟨_, h.u256_eq_ok_iff.mpr ⟨hn, rfl⟩, ?_⟩
    rw [Reader.narrow, BitVec.toNat_ofNat, ← Nat.one_shiftLeft, Nat.mod_eq_of_lt hn, if_pos hlimit]

/-- The number is what the value is read as if it lies below the limit, and otherwise the value is
refused, where a value must stand and where it may be missing. -/
structure WholeOrRefused {α : Type} (read : Reader α) (toNat : α → Nat) (limit n : Nat)
    (v : Json) : Prop where
  whole : n < limit → ∃ a, toNat a = n ∧ read v = .ok a ∧ Reader.optional read v = .ok (some a)
  refused : limit ≤ n → (∃ e, read v = .error e) ∧ ∃ e, Reader.optional read v = .error e

theorem SpellsNumber.wholeOrRefused {α : Type} {read : Reader α} {toNat : α → Nat}
    {limit : Nat} (h : SpellsNumber n v) (ofNat : Nat → α)
    (hread : ∀ a, read v = .ok a ↔ n < limit ∧ ofNat n = a)
    (hinv : n < limit → toNat (ofNat n) = n) : WholeOrRefused read toNat limit n v where
  whole hn := by
    have hok := (hread _).mpr ⟨hn, rfl⟩
    refine ⟨ofNat n, hinv hn, hok, ?_⟩
    rw [h.optional_eq_map, hok]
    rfl
  refused hn := by
    have herror : ∃ e, read v = .error e :=
      Except.exists_error_iff.mpr fun a ha => absurd ((hread a).mp ha).1 (Nat.not_lt.mpr hn)
    refine ⟨herror, ?_⟩
    obtain ⟨e, he⟩ := herror
    rw [h.optional_eq_map, he]
    exact ⟨e, rfl⟩

theorem SpellsNumber.wholeOrRefused_u256 (h : SpellsNumber n v) :
    WholeOrRefused Reader.u256 BitVec.toNat (2 ^ 256) n v := by
  refine h.wholeOrRefused (BitVec.ofNat 256) (fun a => ?_) fun hn => ?_
  · rw [h.u256_eq_ok_iff, Nat.one_shiftLeft]
  · rw [BitVec.toNat_ofNat, Nat.mod_eq_of_lt hn]

theorem SpellsNumber.wholeOrRefused_u64 (h : SpellsNumber n v) :
    WholeOrRefused Reader.u64 UInt64.toNat (2 ^ 64) n v :=
  h.wholeOrRefused UInt64.ofNat (fun _ => h.u64_eq_ok_iff)
    fun hn => UInt64.toNat_ofNat_of_lt' hn

/-- A numeral of any length, and a JSON number of 64 bits, is read as the number it stands for or
refused; the limits are those of the two widths. -/
theorem number_read_whole_or_refused (n : Nat) :
    (∀ before numeral after : List Char, (∀ c ∈ before, Text.isBlank c) →
      (∀ c ∈ after, Text.isBlank c) → Writes n numeral →
      WholeOrRefused Reader.u256 BitVec.toNat (2 ^ 256) n
          (.text (String.ofList (before ++ numeral ++ after))) ∧
        WholeOrRefused Reader.u64 UInt64.toNat (2 ^ 64) n
          (.text (String.ofList (before ++ numeral ++ after)))) ∧
    (n < 2 ^ 64 →
      WholeOrRefused Reader.u256 BitVec.toNat (2 ^ 256) n (.number (.natural (UInt64.ofNat n))) ∧
        WholeOrRefused Reader.u64 UInt64.toNat (2 ^ 64) n
          (.number (.natural (UInt64.ofNat n)))) := by
  refine ⟨fun before numeral after hbefore hafter h => ?_, fun hn => ?_⟩
  · have hspells := h.spellsNumber hbefore hafter
    exact ⟨hspells.wholeOrRefused_u256, hspells.wholeOrRefused_u64⟩
  · have hspells : SpellsNumber n (.number (.natural (UInt64.ofNat n))) :=
      .number (UInt64.toNat_ofNat_of_lt' hn)
    exact ⟨hspells.wholeOrRefused_u256, hspells.wholeOrRefused_u64⟩

/-- A number of 65 bits fits one width and not the other, and one of 64 bits need not be a text. -/
theorem wide_numeral_read_and_refused :
    (∀ c ∈ ['\t'], Text.isBlank c) ∧ (∀ c ∈ ['\n'], Text.isBlank c) ∧
      Writes (2 ^ 64 + 10) "0X001000000000000000A".toList ∧
      (∃ a, a.toNat = 2 ^ 64 + 10 ∧ Reader.u256 (.text "\t0X001000000000000000A\n") = .ok a) ∧
      (∃ e, Reader.u64 (.text "\t0X001000000000000000A\n") = .error e) ∧
      2 ^ 64 - 1 < 2 ^ 64 ∧ ∃ a, a.toNat = 2 ^ 64 - 1 ∧
        Reader.u64 (.number (.natural (UInt64.ofNat (2 ^ 64 - 1)))) = .ok a := by
  have hbefore : ∀ c ∈ ['\t'], Text.isBlank c := List.forall_mem_singleton.mpr rfl
  have hafter : ∀ c ∈ ['\n'], Text.isBlank c := List.forall_mem_singleton.mpr rfl
  have hwrites : Writes (2 ^ 64 + 10) "0X001000000000000000A".toList :=
    .hex (.inr rfl) ⟨2, by decide +kernel⟩
  have htext : String.ofList (['\t'] ++ "0X001000000000000000A".toList ++ ['\n']) =
      "\t0X001000000000000000A\n" := by
    decide +kernel
  obtain ⟨hread, hrefused⟩ :=
    (number_read_whole_or_refused (2 ^ 64 + 10)).1 _ _ _ hbefore hafter hwrites
  rw [htext] at hread hrefused
  obtain ⟨wide, hwide, hok, -⟩ := hread.whole (by norm_num)
  obtain ⟨narrow, hnarrow, hread', -⟩ :=
    ((number_read_whole_or_refused (2 ^ 64 - 1)).2 (by norm_num)).2.whole (by norm_num)
  exact ⟨hbefore, hafter, hwrites, ⟨wide, hwide, hok⟩, (hrefused.refused (by norm_num)).1,
    by norm_num, narrow, hnarrow, hread'⟩

end Json

end CrossChain
