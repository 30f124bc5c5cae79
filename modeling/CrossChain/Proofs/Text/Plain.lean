import Mathlib
import CrossChain.Text.Blank
/-! Texts that trimming leaves alone, because no blank stands at their ends, and texts of plain
characters, such as digits and letters: each takes one byte. -/
namespace CrossChain.Text

/-- A character of one byte that is no blank. -/
def IsPlain (c : Char) : Prop :=
  c.toNat < 128 ∧ isBlank c = false

instance : DecidablePred IsPlain := fun c =>
  inferInstanceAs (Decidable (c.toNat < 128 ∧ isBlank c = false))

/-- The byte of a plain character. -/
def byte (c : Char) : UInt8 := UInt8.ofNat c.toNat

theorem utf8EncodeChar_of_isPlain {c : Char} (h : IsPlain c) :
    String.utf8EncodeChar c = [byte c] := by
  have hsmall : c.toNat ≤ 127 := Nat.le_of_lt_succ h.1
  simp [String.utf8EncodeChar, byte, hsmall]

theorem utf8_of_isPlain {cs : List Char} (h : ∀ c ∈ cs, IsPlain c) : utf8 cs = cs.map byte := by
  induction cs with
  | nil => rfl
  | cons c cs ih =>
    rw [List.forall_mem_cons] at h
    rw [utf8, List.flatMap_cons, utf8EncodeChar_of_isPlain h.1, List.map_cons, ← ih h.2]
    rfl

theorem trimEnd_eq_rdropWhile (cs : List Char) : trimEnd cs = cs.rdropWhile isBlank := rfl

theorem trimEnd_trim (cs : List Char) : trimEnd (trim cs) = trim cs :=
  List.rdropWhile_idempotent isBlank (trimStart cs)

/-- Only what stands last decides whether the end is trimmed. -/
theorem trimEnd_append_eq_self_iff {cs ending : List Char} (hne : ending ≠ []) :
    trimEnd (cs ++ ending) = cs ++ ending ↔ trimEnd ending = ending := by
  simp only [trimEnd_eq_rdropWhile, List.rdropWhile_eq_self_iff]
  have happend : cs ++ ending ≠ [] := List.append_ne_nil_of_right_ne_nil cs hne
  rw [forall_prop_of_true happend, forall_prop_of_true hne,
    List.getLast_append_of_ne_nil happend hne]

theorem trim_cons {c : Char} {cs : List Char} (hfirst : isBlank c = false)
    (hend : trimEnd (c :: cs) = c :: cs) : trim (c :: cs) = c :: cs := by
  rw [trim, trimStart, List.dropWhile_cons_of_neg (by simp [hfirst]), hend]

theorem trim_of_isPlain {cs : List Char} (h : ∀ c ∈ cs, IsPlain c) : trim cs = cs := by
  cases cs with
  | nil => rfl
  | cons c cs =>
    refine trim_cons (h c List.mem_cons_self).2 ?_
    rw [trimEnd_eq_rdropWhile, List.rdropWhile_eq_self_iff]
    intro hne
    simp [(h _ (List.getLast_mem hne)).2]

end CrossChain.Text
