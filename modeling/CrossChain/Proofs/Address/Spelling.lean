import CrossChain.Address.Text
import CrossChain.Proofs.Json.Spelling
/-! Addresses that events spell as bytes. Hexadecimal digits and arrays of bytes mean the address
that the bytes are, in every family. -/
namespace CrossChain

namespace Address

theorem decodeHex_encode (bs : Bytes) (family : Family) :
    decodeHex ('0' :: 'x' :: Hex.encode bs) family = .ok bs := by
  simp only [decodeHex, Hex.dropMark?, Option.getD_some, Hex.decode_encode]
  rfl

theorem length_of_ofBytes {bs : Bytes} {family : Family} {a : Address} (hevm : family ≠ .evm)
    (h : ofBytes bs family = .ok a) : bs.length = family.addressLength := by
  unfold ofBytes at h
  simp only [hevm, false_and, if_false] at h
  split at h
  next hlength => exact hlength
  next => cases h

theorem parseAccount_text (cs : List Char) {bs : Bytes} {family : Family} {a : Address}
    (hlength : bs.length = 32) (h : ofBytes bs family = .ok a) :
    parseAccount cs ('0' :: 'x' :: Hex.encode bs) family = .ok a := by
  have hdigits := Hex.length_encode bs
  have hsize : (Text.utf8 (Hex.encode bs)).length = 64 := by
    rw [Text.utf8_of_isPlain Hex.isPlain_of_mem_encode, List.length_map, hdigits, hlength]
  have hne : Hex.encode bs ≠ [] := List.ne_nil_of_length_pos (by omega)
  simp [parseAccount, Hex.dropMark?, hne, hsize, hdigits, hlength, Hex.decode_encode,
    Except.mapError, h, bind, Except.bind]

theorem parseMove_text {bs : Bytes} {family : Family} {a : Address}
    (hlength : bs.length = 32) (h : ofBytes bs family = .ok a) :
    parseMove ('0' :: 'x' :: Hex.encode bs) family = .ok a := by
  have hcut : Text.cut? [':', ':'] ('0' :: 'x' :: Hex.encode bs) = none :=
    Text.cut?_eq_none_of_not_mem (List.mem_cons_self) (by simp [Hex.colon_not_mem_encode])
  rw [parseMove, hcut]
  exact parseAccount_text _ hlength h

theorem parse_text {bs : Bytes} {family : Family} {a : Address}
    (h : ofBytes bs family = .ok a) : parse (Hex.text bs) family = .ok a := by
  unfold parse
  rw [Hex.trim_text]
  have hcut : Text.cut? [':'] ('0' :: 'x' :: Hex.encode bs) = none :=
    Text.cut?_eq_none_of_not_mem List.mem_cons_self (by simp [Hex.colon_not_mem_encode])
  cases family with
  | evm => simp only [decodeHex_encode, h, bind, Except.bind, Except.mapError]
  | svm => simp [Hex.dropMark?, decodeHex_encode, h, bind, Except.bind, Except.mapError]
  | aptos => exact parseMove_text (length_of_ofBytes (by decide) h) h
  | sui => exact parseMove_text (length_of_ofBytes (by decide) h) h
  | ton =>
    dsimp only
    simp [parseTon, hcut, Hex.dropMark?, decodeHex_encode, h, bind, Except.bind, Except.mapError]

theorem resolve_loose {s : Json.Spelling} {bs : Bytes} {family : Family} {a : Address}
    (hs : s ≠ .base64) (h : ofBytes bs family = .ok a) :
    resolve (s.loose bs) family = .ok a := by
  cases s with
  | hex => rw [Json.Spelling.loose, resolve, parse_text h]
  | base64 => contradiction
  | array => exact h

end Address

namespace Json.Spelling

/-- A spelling is read as the bytes it stands for exactly if it is clear, alone and in lists, and
as an address always unless in base 64. -/
theorem reads_back_iff_clear :
    (∀ (s : Spelling) (bs : Bytes), Reader.bytes (s.write bs) = .ok bs ↔ s.Clear bs) ∧
    (∀ (s : Spelling) (w : Bytes32),
      Reader.bytes32 (s.write w.toBytes) = .ok w ↔ s.Clear w.toBytes) ∧
    (∀ items : List (Spelling × Bytes),
      Reader.bytesList (.array (items.map fun i => i.1.write i.2)) = .ok (items.map Prod.snd) ↔
        ∀ i ∈ items, i.1.Clear i.2) ∧
    (∀ (s : Spelling) (bs : Bytes) (family : Family) (a : Address), s ≠ .base64 →
      Address.ofBytes bs family = .ok a →
      ∃ raw, Reader.address (s.write bs) = .ok raw ∧ Address.resolve raw family = .ok a) :=
  ⟨bytes_write_iff, bytes32_write_iff, bytesList_write_iff, fun s bs _ _ hs h =>
    ⟨s.loose bs, loose_write "RawAddress" s bs, Address.resolve_loose hs h⟩⟩

theorem clear_spellings_read_back :
    base64.write [0x68, 0x69] = .text "aGk=" ∧ Reader.bytes (.text "aGk=") = .ok [0x68, 0x69] ∧
    Reader.bytesList (.array [.text "aGk=", .text "0x6869"]) =
      .ok [[0x68, 0x69], [0x68, 0x69]] ∧
    Reader.bytes32 (base64.write Bytes32.zero.toBytes) = .ok Bytes32.zero ∧
    ∃ raw, Reader.address (hex.write (List.replicate 32 7)) = .ok raw ∧
      Address.resolve raw .aptos = .ok ⟨.aptos, List.replicate 32 7, none, by decide⟩ := by
  obtain ⟨hbytes, hword, hlist, haddress⟩ := reads_back_iff_clear
  exact ⟨rfl, (hbytes .base64 [0x68, 0x69]).mpr (by decide),
    (hlist [(.base64, [0x68, 0x69]), (.hex, [0x68, 0x69])]).mpr (by decide),
    (hword .base64 Bytes32.zero).mpr (by decide), haddress .hex _ .aptos _ (by decide) rfl⟩

/-- A text that is one byte in hexadecimal digits and three others in base 64. No reader could
give both back. -/
theorem base64_text_is_hex_text :
    base64.write [0xD3, 0x1D, 0x34] = hex.write [0x00] ∧
    Reader.bytes (base64.write [0xD3, 0x1D, 0x34]) = .ok [0x00] ∧
    ¬ ∀ (s : Spelling) (bs : Bytes), Reader.bytes (s.write bs) = .ok bs := by
  have hsame : base64.write [0xD3, 0x1D, 0x34] = hex.write [0x00] := by
    simp only [write, text.injEq]
    decide
  have hread : Reader.bytes (base64.write [0xD3, 0x1D, 0x34]) = .ok [0x00] := by decide
  exact ⟨hsame, hread, fun h => absurd (hread.symm.trans (h _ _)) (by decide)⟩

end Json.Spelling

end CrossChain
