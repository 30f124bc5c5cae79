import CrossChain.Json.Loose
import CrossChain.Proofs.Outcomes
import CrossChain.Proofs.Text.Base64
import CrossChain.Proofs.Text.Hex
/-! Byte strings as events spell them. A text with the mark of hexadecimal digits is taken for
these, even if it was meant to be in base 64. All other spellings are read as the bytes they stand
for. -/
namespace CrossChain

namespace Hex

theorem dropMark?_cons_cons (c d : Char) (cs : List Char) :
    dropMark? (c :: d :: cs) = if c = '0' ∧ (d = 'x' ∨ d = 'X') then some cs else none := by
  unfold dropMark?
  split <;> simp_all

theorem of_dropMark?_eq_some {cs digits : List Char} (h : dropMark? cs = some digits) :
    cs.length = digits.length + 2 ∧ ∀ c ∈ digits, c ∈ cs := by
  unfold dropMark? at h
  split at h <;> cases h <;> simp +contextual

end Hex

namespace Base64

variable {alphabet : Alphabet}

theorem encode_cons (a : UInt8) (bs : Bytes) : ∃ more, encode alphabet (a :: bs) =
    symbol alphabet (a.toNat / 4) ::
      symbol alphabet (a.toNat % 4 * 16 + (bs.headD 0).toNat / 16) :: more := by
  have ha := a.toNat_lt
  match bs with
  | [] =>
    have hfirst : a.toNat * 16 / 64 = a.toNat / 4 := by omega
    have hsecond : a.toNat * 16 % 64 = a.toNat % 4 * 16 := by omega
    exact ⟨_, by simp only [encode, hfirst, hsecond]; rfl⟩
  | [b] =>
    have hb := b.toNat_lt
    have hfirst : (a.toNat * 256 + b.toNat) * 4 / 4096 = a.toNat / 4 := by omega
    have hsecond : (a.toNat * 256 + b.toNat) * 4 / 64 % 64 = a.toNat % 4 * 16 + b.toNat / 16 := by
      omega
    exact ⟨_, by simp only [encode, hfirst, hsecond]; rfl⟩
  | b :: c :: rest =>
    have hb := b.toNat_lt
    have hc := c.toNat_lt
    have hfirst : ((a.toNat * 256 + b.toNat) * 256 + c.toNat) / 262144 = a.toNat / 4 := by omega
    have hsecond : ((a.toNat * 256 + b.toNat) * 256 + c.toNat) / 4096 % 64 =
        a.toNat % 4 * 16 + b.toNat / 16 := by omega
    exact ⟨_, by simp only [encode, hfirst, hsecond]; rfl⟩

/-- The byte strings whose base 64 text starts with the mark of hexadecimal texts. -/
def LooksHex : Bytes → Prop
  | a :: b :: _ => a = 0xD3 ∧ b.toNat / 16 = 1 ∨ a = 0xD1 ∧ b.toNat / 16 = 7
  | _ => False

instance : DecidablePred LooksHex
  | [] | [_] => isFalse id
  | a :: b :: _ => inferInstanceAs
    (Decidable (a = 0xD3 ∧ b.toNat / 16 = 1 ∨ a = 0xD1 ∧ b.toNat / 16 = 7))

theorem symbol_eq_mark_iff (alphabet : Alphabet) {v : Nat} (h : v < 64) :
    (symbol alphabet v = '0' ↔ v = 52) ∧ (symbol alphabet v = 'x' ↔ v = 49) ∧
      (symbol alphabet v = 'X' ↔ v = 23) := by
  have hall : ∀ v : Fin 64, (symbol alphabet v = '0' ↔ v.val = 52) ∧
      (symbol alphabet v = 'x' ↔ v.val = 49) ∧ (symbol alphabet v = 'X' ↔ v.val = 23) := by
    cases alphabet <;> decide
  exact hall ⟨v, h⟩

/-- The first two symbols hold the first byte and the high half of the second one. -/
theorem isSome_dropMark?_encode_cons (a : UInt8) (bs : Bytes) :
    (Hex.dropMark? (encode alphabet (a :: bs))).isSome ↔ a.toNat / 4 = 52 ∧
      (a.toNat % 4 * 16 + (bs.headD 0).toNat / 16 = 49 ∨
        a.toNat % 4 * 16 + (bs.headD 0).toNat / 16 = 23) := by
  obtain ⟨more, hmore⟩ := encode_cons a bs
  have ha := a.toNat_lt
  have hb := (bs.headD 0).toNat_lt
  have hfirst := (symbol_eq_mark_iff alphabet (v := a.toNat / 4) (by omega)).1
  obtain ⟨-, hsmall, hcapital⟩ := symbol_eq_mark_iff alphabet
    (v := a.toNat % 4 * 16 + (bs.headD 0).toNat / 16) (by omega)
  rw [hmore, Hex.dropMark?_cons_cons, ← hfirst, ← hsmall, ← hcapital]
  split
  next h => exact iff_of_true rfl h
  next h => exact iff_of_false Bool.false_ne_true h

theorem isSome_dropMark?_encode (alphabet : Alphabet) (bs : Bytes) :
    (Hex.dropMark? (encode alphabet bs)).isSome ↔ LooksHex bs := by
  have hD3 : (0xD3 : UInt8).toNat = 211 := rfl
  have hD1 : (0xD1 : UInt8).toNat = 209 := rfl
  match bs with
  | [] => simp [encode, Hex.dropMark?, LooksHex]
  | [a] =>
    have ha := a.toNat_lt
    rw [isSome_dropMark?_encode_cons, List.headD_nil, UInt8.toNat_zero]
    exact iff_of_false (by omega) id
  | a :: b :: bs =>
    have ha := a.toNat_lt
    have hb := b.toNat_lt
    rw [isSome_dropMark?_encode_cons, List.headD_cons, LooksHex, ← UInt8.toNat_inj,
      ← UInt8.toNat_inj, hD3, hD1]
    omega

/-- Two digits stand for a byte but four symbols for three, so what is taken for digits means fewer
bytes. -/
theorem length_lt_of_dropMark? {bs found : Bytes} {digits : List Char}
    (hmark : Hex.dropMark? (encode alphabet bs) = some digits)
    (h : Hex.decode digits = .ok found) : found.length < bs.length := by
  have htwo : 2 ≤ bs.length := by
    have hlooks := (isSome_dropMark?_encode alphabet bs).mp (by rw [hmark]; rfl)
    match bs, hlooks with
    | _ :: _ :: _, _ => simp
  obtain ⟨hlength, hmem⟩ := Hex.of_dropMark?_eq_some hmark
  have hplain : ∀ c ∈ digits, Text.IsPlain c := fun c hc => isPlain_of_mem_encode c (hmem c hc)
  have hdigits := Hex.length_of_decode h
  rw [Text.utf8_of_isPlain hplain, List.length_map] at hdigits
  rw [length_encode] at hlength
  omega

end Base64

namespace Json

/-- The ways in which an event may spell a byte string. -/
inductive Spelling where
  | hex
  | base64
  | array
deriving DecidableEq

/-- A byte string as an event spells it. -/
def Spelling.write : Spelling → Bytes → Json
  | .hex, bs => .text (Hex.text bs)
  | .base64, bs => .text (String.ofList (Base64.encode .standard bs))
  | .array, bs => .array (bs.map fun b => .number (.natural (UInt64.ofNat b.toNat)))

/-- What such a spelling is before its text is read. -/
def Spelling.loose : Spelling → Bytes → LooseBytes
  | .hex, bs => .text (Hex.text bs)
  | .base64, bs => .text (String.ofList (Base64.encode .standard bs))
  | .array, bs => .bytes bs

/-- The spelling is taken for what it is. -/
def Spelling.Clear (s : Spelling) (bs : Bytes) : Prop :=
  s = .base64 → ¬ Base64.LooksHex bs

instance (s : Spelling) (bs : Bytes) : Decidable (s.Clear bs) :=
  inferInstanceAs (Decidable (s = .base64 → ¬ Base64.LooksHex bs))

theorem mapM_byte?_numbers (bs : Bytes) :
    (bs.map fun b => Json.number (.natural (UInt64.ofNat b.toNat))).mapM Reader.byte? =
      some bs := by
  rw [Option.mapM_eq_some_iff, List.forall₂_map_left_iff, List.forall₂_same]
  intro b _
  have hb := b.toNat_lt
  simp [Reader.byte?, hb]

theorem parseBytes_hex (bs : Bytes) : parseBytes (Hex.text bs) = .ok bs := by
  rw [parseBytes, Hex.trim_text]
  simp only [Hex.dropMark?, Hex.decode_encode]
  rfl

theorem parseBytes_base64 (bs : Bytes) :
    parseBytes (String.ofList (Base64.encode .standard bs)) = .ok bs ↔ ¬ Base64.LooksHex bs := by
  rw [parseBytes, String.toList_ofList, Text.trim_of_isPlain Base64.isPlain_of_mem_encode,
    ← Base64.isSome_dropMark?_encode .standard]
  cases hmark : Hex.dropMark? (Base64.encode .standard bs) with
  | none => simp [Base64.decode_encode, Except.mapError]
  | some digits =>
    refine iff_of_false (fun h => ?_) (by simp)
    have hdecode : Hex.decode digits = .ok bs := Except.mapError_eq_ok_iff.mp h
    exact Nat.lt_irrefl _ (Base64.length_lt_of_dropMark? hmark hdecode)

namespace Spelling

theorem loose_write (name : String) (s : Spelling) (bs : Bytes) :
    Reader.loose name (s.write bs) = .ok (s.loose bs) := by
  cases s with
  | hex => rfl
  | base64 => rfl
  | array => simp only [write, loose, Reader.loose, mapM_byte?_numbers]

theorem toBytes_loose_iff (s : Spelling) (bs : Bytes) :
    (s.loose bs).toBytes = .ok bs ↔ s.Clear bs := by
  cases s with
  | hex => exact iff_of_true (parseBytes_hex bs) nofun
  | base64 =>
    rw [Clear, imp_iff_right rfl]
    exact parseBytes_base64 bs
  | array => exact iff_of_true rfl nofun

theorem bytes_write_iff (s : Spelling) (bs : Bytes) :
    Reader.bytes (s.write bs) = .ok bs ↔ s.Clear bs := by
  rw [← toBytes_loose_iff, Reader.bytes, Reader.bytesLike, loose_write]
  rfl

theorem bytes32_write_iff (s : Spelling) (w : Bytes32) :
    Reader.bytes32 (s.write w.toBytes) = .ok w ↔ s.Clear w.toBytes := by
  rw [← bytes_write_iff, Reader.bytes32, Except.bind_eq_ok_iff]
  constructor
  · rintro ⟨bs, hread, hsize⟩
    cases hw : Bytes32.ofBytes? bs with
    | none => simp [hw] at hsize
    | some w' =>
      simp only [hw] at hsize
      cases hsize
      rwa [Bytes32.ofBytes?_eq_some_iff.mp hw] at hread
  · intro hread
    exact ⟨w.toBytes, hread, by rw [Bytes32.ofBytes?_toBytes]; rfl⟩

theorem bytesList_write_iff (items : List (Spelling × Bytes)) :
    Reader.bytesList (.array (items.map fun i => i.1.write i.2)) = .ok (items.map Prod.snd) ↔
      ∀ i ∈ items, i.1.Clear i.2 := by
  have hloose : Reader.list Reader.bytesLike (.array (items.map fun i => i.1.write i.2)) =
      .ok (items.map fun i => i.1.loose i.2) := by
    rw [Reader.list, Except.mapM_eq_ok_iff, List.forall₂_map_left_iff, List.forall₂_map_right_iff,
      List.forall₂_same]
    exact fun i _ => loose_write "BytesLike" i.1 i.2
  have hbytes : ((items.map fun i => i.1.loose i.2).mapM LooseBytes.toBytes =
      .ok (items.map Prod.snd)) ↔ ∀ i ∈ items, i.1.Clear i.2 := by
    simp only [Except.mapM_eq_ok_iff, List.forall₂_map_left_iff, List.forall₂_map_right_iff,
      List.forall₂_same, toBytes_loose_iff]
  rw [← hbytes, Reader.bytesList, hloose]
  rfl

end Spelling

end Json

end CrossChain
