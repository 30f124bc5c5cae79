import CrossChain.Proofs.Address.Display
import CrossChain.Proofs.Crc16
import CrossChain.Proofs.Text.Sextets
/-! TON addresses in base 64. Such a text holds no colon, so it gets to its reader unless it starts
with the mark of hexadecimal digits. Main statement: this happens to one tag, in the workchains from
112 on, and there the text is refused; all other payloads mean the account they were made from. -/
namespace CrossChain

theorem Base64.colon_not_mem_encode {alphabet : Alphabet} {bs : Bytes} (h : 3 ∣ bs.length) :
    ':' ∉ encode alphabet bs := by
  intro hmem
  have hvalue := isSome_value?_of_isSymbol (isSymbol_of_mem_encode h _ hmem)
  cases alphabet <;> exact absurd hvalue (by decide)

namespace Ton

variable {alphabet : Base64.Alphabet} {tag workchain : UInt8} {rest : Bytes} {w : Int}

/-- The tags that addresses are given: a transfer that fails is returned or not, and the account is
one of the main network or of a test network. -/
def tags : List UInt8 := [0x11, 0x51, 0x91, 0xD1]

theorem isTag_of_mem_tags : ∀ tag ∈ tags, isTag tag := by decide +kernel

theorem toNat_ofInt (w : Int) : (UInt8.ofInt w).toNat = (w % 256).toNat := by
  rw [UInt8.ofInt, UInt8.toNat_ofNat']
  omega

theorem smallWorkchain_ofInt (hleast : -128 ≤ w) (hgreatest : w < 128) :
    smallWorkchain (UInt8.ofInt w) = w := by
  have hbyte := toNat_ofInt w
  unfold smallWorkchain
  split
  next => omega
  next => omega

theorem length_payload (tag workchain : UInt8) (hash : Bytes32) :
    (payload tag workchain hash).length = 36 := by
  simp [payload, Crc16.trailer]

/-- The checksum over a whole payload tells whether its end is the checksum of what comes before. -/
theorem isChecked_iff {bs : Bytes} (h : bs.length = 36) :
    isChecked bs ↔ Crc16.checksum bs = 0 := by
  have htwo : (bs.drop 34).length = 2 := by simp [h]
  obtain ⟨a, b, hend⟩ := List.length_eq_two.mp htwo
  have hchecksum : Crc16.checksum (bs.take 34 ++ [a, b]) = 0 ↔
      [a, b] = Crc16.trailer (bs.take 34) :=
    Crc16.checksum_append_eq_zero_iff
  rw [← hend, List.take_append_drop] at hchecksum
  rw [isChecked, beq_iff_eq, hchecksum]

theorem isChecked_append_trailer {body : Bytes} (h : body.length = 34) :
    isChecked (body ++ Crc16.trailer body) := by
  rw [isChecked, beq_iff_eq, List.take_left' h, List.drop_left' h]

theorem isChecked_payload (tag workchain : UInt8) (hash : Bytes32) :
    isChecked (payload tag workchain hash) :=
  isChecked_append_trailer (by simp)

/-- A payload is read in whichever alphabet it was written in. -/
theorem parseFriendly_encode_iff {a : Address} (h : rest.length = 34) :
    parseFriendly (Base64.encode alphabet (tag :: workchain :: rest)) = .ok a ↔
      isTag tag ∧ isChecked (tag :: workchain :: rest) ∧
        Address.ofBytes (workchainBytes (smallWorkchain workchain) ++ rest.take 32) .ton =
          .ok a := by
  have hlength : (tag :: workchain :: rest).length = 36 := by simp [h]
  have hthree : 3 ∣ (tag :: workchain :: rest).length := ⟨12, hlength⟩
  unfold parseFriendly
  extract_lets bad finish
  have hfinish : finish (tag :: workchain :: rest) = .ok a ↔
      isTag tag ∧ isChecked (tag :: workchain :: rest) ∧
        Address.ofBytes (workchainBytes (smallWorkchain workchain) ++ rest.take 32) .ton =
          .ok a := by
    dsimp only [finish]
    simp only [Except.guard_eq_ok_iff, hlength]
    simp
  rw [← hfinish]
  cases hurl : Base64.decode .url (Base64.encode alphabet (tag :: workchain :: rest)) with
  | ok found =>
    obtain ⟨-, rfl⟩ := (Base64.decode_encode_eq_ok_iff hthree).mp hurl
    rfl
  | error fault =>
    have hstandard : Base64.decode .standard
        (Base64.encode alphabet (tag :: workchain :: rest)) = .ok (tag :: workchain :: rest) := by
      cases alphabet with
      | standard => exact Base64.decode_encode _ _
      | url =>
        rw [Base64.decode_encode] at hurl
        contradiction
    rw [hstandard]
    rfl

theorem isChecked_of_parseFriendly {bs : Bytes} {a : Address} (h : bs.length = 36)
    (hread : parseFriendly (Base64.encode alphabet bs) = .ok a) : isChecked bs := by
  match bs, h with
  | tag :: workchain :: rest, h =>
    have hrest : rest.length = 34 := Nat.succ.inj (Nat.succ.inj h)
    exact ((parseFriendly_encode_iff hrest).mp hread).2.1

def friendlyText (alphabet : Base64.Alphabet) (tag : UInt8) (workchain : Int) (hash : Bytes32) :
    String :=
  String.ofList (Base64.encode alphabet (payload tag (UInt8.ofInt workchain) hash))

def rawText (workchain : Int) (hash : Bytes32) : String :=
  String.ofList ((toString workchain).toList ++ ':' :: Hex.encode hash.toBytes)

theorem looksHex_payload_iff {hash : Bytes32} (htag : tag ∈ tags) (hleast : -128 ≤ w)
    (hgreatest : w < 128) :
    Base64.LooksHex (payload tag (UInt8.ofInt w) hash) ↔ tag = 0xD1 ∧ 112 ≤ w := by
  have hbyte := toNat_ofInt w
  have htags : tag ≠ 0xD3 := by
    rintro rfl
    exact absurd htag (by decide)
  have hseven : (UInt8.ofInt w).toNat / 16 = 7 ↔ 112 ≤ w := by omega
  simp only [payload, List.cons_append, Base64.LooksHex, htags, hseven, false_and, false_or]

end Ton

namespace Address

variable {alphabet : Base64.Alphabet} {tag : UInt8} {w : Int}

theorem ofBytes_ne_ok_of_marked {bs found : Bytes} {digits : List Char} {a : Address}
    (h : bs.length = 36) (hmark : Hex.dropMark? (Base64.encode alphabet bs) = some digits)
    (hfound : Hex.decode digits = .ok found) : ofBytes found .ton ≠ .ok a := by
  intro hread
  have hlength := length_of_ofBytes (by decide) hread
  have hshort := Base64.length_lt_of_dropMark? hmark hfound
  rw [hlength, h] at hshort
  exact absurd hshort (by decide)

/-- The one thing that can stand between a payload and its reader is the mark. -/
theorem parse_payload_iff {bs : Bytes} {a : Address} (h : bs.length = 36) :
    parse (String.ofList (Base64.encode alphabet bs)) .ton = .ok a ↔
      ¬ Base64.LooksHex bs ∧ Ton.parseFriendly (Base64.encode alphabet bs) = .ok a := by
  have hthree : 3 ∣ bs.length := ⟨12, h⟩
  have hcut : Text.cut? [':'] (Base64.encode alphabet bs) = none :=
    Text.cut?_eq_none_of_not_mem List.mem_cons_self (Base64.colon_not_mem_encode hthree)
  have hparse : parse (String.ofList (Base64.encode alphabet bs)) .ton =
      parseTon (Base64.encode alphabet bs) := by
    rw [parse, String.toList_ofList, Text.trim_of_isPlain Base64.isPlain_of_mem_encode]
  rw [hparse, parseTon, hcut, ← Base64.isSome_dropMark?_encode alphabet]
  dsimp only
  split
  next hmark =>
    refine iff_of_false (fun hread => ?_) (fun hread => hread.1 hmark)
    obtain ⟨digits, hdigits⟩ := Option.isSome_iff_exists.mp hmark
    obtain ⟨found, hfound, hread⟩ := Except.bind_eq_ok_iff.mp hread
    rw [decodeHex, Except.mapError_eq_ok_iff, hdigits] at hfound
    exact ofBytes_ne_ok_of_marked h hdigits hfound (Except.mapError_eq_ok_iff.mp hread)
  next hmark => exact (and_iff_right hmark).symm

theorem parse_rawText (hash : Bytes32) (hleast : -128 ≤ w) (hgreatest : w < 128) :
    parse (Ton.rawText w hash) .ton = ofBytes (Ton.workchainBytes w ++ hash.toBytes) .ton := by
  rw [Ton.rawText, parse, String.toList_ofList, Text.trim_of_isPlain Ton.isPlain_of_mem_raw]
  exact parseTon_raw (by omega) (by omega) hash.length_toBytes

theorem parse_friendlyText_iff {hash : Bytes32} {a : Address} (htag : tag ∈ Ton.tags)
    (hleast : -128 ≤ w) (hgreatest : w < 128) :
    parse (Ton.friendlyText alphabet tag w hash) .ton = .ok a ↔
      ¬ (tag = 0xD1 ∧ 112 ≤ w) ∧
        ofBytes (Ton.workchainBytes w ++ hash.toBytes) .ton = .ok a := by
  have hrest : (hash.toBytes ++ Crc16.trailer (tag :: UInt8.ofInt w :: hash.toBytes)).length =
      34 := by
    simp [Crc16.trailer]
  have hread : Ton.parseFriendly
      (Base64.encode alphabet (Ton.payload tag (UInt8.ofInt w) hash)) = .ok a ↔
        ofBytes (Ton.workchainBytes w ++ hash.toBytes) .ton = .ok a := by
    have hchecked := Ton.isChecked_payload tag (UInt8.ofInt w) hash
    rw [Ton.payload, List.cons_append, List.cons_append] at hchecked ⊢
    rw [Ton.parseFriendly_encode_iff hrest, and_iff_right (Ton.isTag_of_mem_tags tag htag),
      and_iff_right hchecked, Ton.smallWorkchain_ofInt hleast hgreatest,
      List.take_left' hash.length_toBytes]
  rw [Ton.friendlyText, parse_payload_iff (Ton.length_payload _ _ _),
    Ton.looksHex_payload_iff htag hleast hgreatest, hread]

/-- A friendly text means what the raw text of its workchain and hash means, in either alphabet,
unless it is taken for hexadecimal digits. -/
theorem friendlyText_read_unless_marked (alphabet : Base64.Alphabet) {tag : UInt8} {w : Int}
    (hash : Bytes32) (htag : tag ∈ Ton.tags) (hleast : -128 ≤ w) (hgreatest : w < 128) :
    ∃ a, parse (Ton.rawText w hash) .ton = .ok a ∧
      a.bytes = Ton.workchainBytes w ++ hash.toBytes ∧
      (¬ (tag = 0xD1 ∧ 112 ≤ w) → parse (Ton.friendlyText alphabet tag w hash) .ton = .ok a) ∧
      (tag = 0xD1 ∧ 112 ≤ w →
        ∃ e, parse (Ton.friendlyText alphabet tag w hash) .ton = .error e) := by
  have hlength : (Ton.workchainBytes w ++ hash.toBytes).length = Family.ton.addressLength := by
    simp [Ton.workchainBytes, Family.addressLength]
  have hbytes := ofBytes_bytes ⟨.ton, Ton.workchainBytes w ++ hash.toBytes, none, hlength⟩
  refine ⟨_, (parse_rawText hash hleast hgreatest).trans hbytes, rfl, fun h => ?_, fun h => ?_⟩
  · exact (parse_friendlyText_iff htag hleast hgreatest).mpr ⟨h, hbytes⟩
  · refine Except.exists_error_iff.mpr fun a hread => ?_
    exact ((parse_friendlyText_iff htag hleast hgreatest).mp hread).1 h

/-- An account of the workchain below zero whose hash takes a symbol that the alphabets do not
share. -/
theorem master_account_read :
    ∃ a, parse ("-1:" ++ String.ofList (List.replicate 64 'f')) .ton = .ok a ∧
      a.bytes = List.replicate 36 0xFF ∧
      parse "Uf___________________________________________-ll" .ton = .ok a := by
  have hraw : Ton.rawText (-1) ⟨List.replicate 32 0xFF, by decide⟩ =
      "-1:" ++ String.ofList (List.replicate 64 'f') := by
    decide +kernel
  have hfriendly : Ton.friendlyText .url 0x51 (-1) ⟨List.replicate 32 0xFF, by decide⟩ =
      "Uf___________________________________________-ll" := by
    decide +kernel
  obtain ⟨a, hreadRaw, hbytes, hread, -⟩ := friendlyText_read_unless_marked .url
    ⟨List.replicate 32 0xFF, by decide⟩ (show (0x51 : UInt8) ∈ Ton.tags by decide)
    (show (-128 : Int) ≤ -1 by decide) (by decide)
  rw [hraw] at hreadRaw
  rw [hfriendly] at hread
  exact ⟨a, hreadRaw, hbytes.trans (by decide), hread (by decide)⟩

/-- The text of this payload starts with the mark of hexadecimal digits. -/
theorem marked_account_refused :
    0xD1 ∈ Ton.tags ∧
      (∃ a, parse (Ton.rawText 112 Bytes32.zero) .ton = .ok a) ∧
      ∀ a, parse (Ton.friendlyText .standard 0xD1 112 Bytes32.zero) .ton ≠ .ok a := by
  have hraw : parse (Ton.rawText 112 Bytes32.zero) .ton =
      .ok ⟨.ton, 0 :: 0 :: 0 :: 112 :: List.replicate 32 0, none, by decide⟩ := by
    decide +kernel
  have hfriendly : parse (Ton.friendlyText .standard 0xD1 112 Bytes32.zero) .ton =
      .error (.badAddress .ton "0XAAAAAAAAAAAAAAAAAAAAAAAAAAAAAAAAAAAAAAAAAAAK9K"
        (.hex (.badDigit 75 43))) := by
    decide +kernel
  exact ⟨by decide, ⟨_, hraw⟩, fun a hread => nomatch hfriendly.symm.trans hread⟩

end Address

end CrossChain
