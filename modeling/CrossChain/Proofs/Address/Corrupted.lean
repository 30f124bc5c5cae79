import CrossChain.Proofs.Address.Friendly
/-! TON addresses in base 64 with one symbol replaced. The bytes that the symbols stand for change
in two neighbouring bytes at most, which the checksum never misses, so no such text is read as an
address. Main statement: events go on to take the text for the bytes of an account, and there it is
refused if and only if it is taken for hexadecimal digits or holds a symbol that only the other
alphabet has. -/
namespace CrossChain

namespace Base64

variable {alphabet : Alphabet} {vs : List (Fin 64)}

theorem ofSextets_group (v w x y : Fin 64) (rest : List (Fin 64)) :
    ofSextets (v :: w :: x :: y :: rest) =
      UInt8.ofNat (v.val * 4 + w.val / 16) :: UInt8.ofNat (w.val * 16 + x.val / 4) ::
        UInt8.ofNat (x.val * 64 + y.val) :: ofSextets rest := by
  have hx := x.isLt
  have hy := y.isLt
  simp only [ofSextets, List.cons.injEq, and_true, ← UInt8.toNat_inj, UInt8.toNat_ofNat']
  omega

theorem sameUpToPair_set {i : Nat} (h : 4 ∣ vs.length) (hi : i < vs.length) (new : Fin 64) :
    Crc16.SameUpToPair (ofSextets vs) (ofSextets (vs.set i new)) := by
  induction vs using ofSextets.induct generalizing i with
  | case1 v w x y rest ih =>
    have hgroup := ofSextets_group v w x y rest
    -- A symbol lies in one byte or in two neighbouring ones.
    match i with
    | 0 => exact ⟨[], _, _, _, _, _, hgroup, ofSextets_group new w x y rest⟩
    | 1 => exact ⟨[], _, _, _, _, _, hgroup, ofSextets_group v new x y rest⟩
    | 2 => exact ⟨[_], _, _, _, _, _, hgroup, ofSextets_group v w new y rest⟩
    | 3 => exact ⟨[_], _, _, _, _, _, hgroup, ofSextets_group v w x new rest⟩
    | j + 4 =>
      have hrest := ih ((Nat.dvd_add_left (dvd_refl 4)).mp h) (Nat.lt_of_add_lt_add_right hi)
      rw [List.set_cons_succ, List.set_cons_succ, List.set_cons_succ, List.set_cons_succ,
        ofSextets_group, ofSextets_group]
      exact hrest.append_left [_, _, _]
  | case2 vs hshort =>
    rw [eq_nil_of_no_group h hshort] at hi
    exact absurd hi (Nat.not_lt_zero i)

end Base64

namespace Address

variable {alphabet : Base64.Alphabet} {bs : Bytes}

def corrupted (t : String) (i : Nat) (c : Char) : String :=
  String.ofList (t.toList.set i c)

theorem isChecked_of_parse {a : Address} (h : bs.length = 36)
    (hread : parse (String.ofList (Base64.encode alphabet bs)) .ton = .ok a) :
    Ton.isChecked bs :=
  Ton.isChecked_of_parseFriendly h ((parse_payload_iff h).mp hread).2

theorem resolve_eq_ok_iff_of_unread {s : String} {family : Family} {e : Error} {a : Address}
    (h : parse s family = .error e) :
    resolve (.text s) family = .ok a ↔
      ∃ found, Json.parseBytes s = .ok found ∧ found ≠ [] ∧ ofBytes found family = .ok a := by
  simp only [resolve, h]
  cases Json.parseBytes s with
  | error fault => simp
  | ok found =>
    dsimp only
    split
    next hempty => simp [hempty]
    next hne => simp [hne]

/-- What the second reading makes of a payload: the mark is looked for first, and then one alphabet
is tried only. -/
theorem resolve_payload_iff {a : Address} (h : bs.length = 36) (hunchecked : ¬ Ton.isChecked bs) :
    resolve (.text (String.ofList (Base64.encode alphabet bs))) .ton = .ok a ↔
      ¬ Base64.LooksHex bs ∧ (∀ c ∈ Base64.encode alphabet bs, Base64.IsSymbol .standard c) ∧
        ofBytes bs .ton = .ok a := by
  have hthree : 3 ∣ bs.length := ⟨12, h⟩
  have hunread : ∃ e, parse (String.ofList (Base64.encode alphabet bs)) .ton = .error e :=
    Except.exists_error_iff.mpr fun a hread => hunchecked (isChecked_of_parse h hread)
  obtain ⟨e, he⟩ := hunread
  rw [resolve_eq_ok_iff_of_unread he, Json.parseBytes, String.toList_ofList,
    Text.trim_of_isPlain Base64.isPlain_of_mem_encode, ← Base64.isSome_dropMark?_encode alphabet]
  cases hmark : Hex.dropMark? (Base64.encode alphabet bs) with
  | none =>
    simp only [Except.mapError_eq_ok_iff, Base64.decode_encode_eq_ok_iff hthree]
    constructor
    · rintro ⟨_, ⟨hsymbols, rfl⟩, -, hread⟩
      exact ⟨Bool.false_ne_true, hsymbols, hread⟩
    · rintro ⟨-, hsymbols, hread⟩
      exact ⟨bs, ⟨hsymbols, rfl⟩, List.ne_nil_of_length_pos (by omega), hread⟩
  | some digits =>
    refine iff_of_false ?_ fun hread => hread.1 rfl
    rintro ⟨found, hfound, -, hread⟩
    exact ofBytes_ne_ok_of_marked h hmark (Except.mapError_eq_ok_iff.mp hfound) hread

theorem resolve_payload_error_iff (h : bs.length = 36) (hunchecked : ¬ Ton.isChecked bs) :
    (∃ e, resolve (.text (String.ofList (Base64.encode alphabet bs))) .ton = .error e) ↔
      Base64.LooksHex bs ∨ ∃ c ∈ Base64.encode alphabet bs, ¬ Base64.IsSymbol .standard c := by
  have hbytes := ofBytes_bytes ⟨.ton, bs, none, h⟩
  rw [Except.exists_error_iff]
  constructor
  · intro hrefused
    by_contra hclear
    rw [not_or, not_exists] at hclear
    obtain ⟨hmark, hother⟩ := hclear
    have hsymbols : ∀ c ∈ Base64.encode alphabet bs, Base64.IsSymbol .standard c :=
      fun c hc => not_not.mp fun hsymbol => hother c ⟨hc, hsymbol⟩
    exact hrefused _ ((resolve_payload_iff h hunchecked).mpr ⟨hmark, hsymbols, hbytes⟩)
  · intro hrefused a ha
    obtain ⟨hmark, hsymbols, -⟩ := (resolve_payload_iff h hunchecked).mp ha
    obtain hlooks | ⟨c, hc, hother⟩ := hrefused
    · exact hmark hlooks
    · exact hother (hsymbols c hc)

theorem exists_payload_of_corrupted {t : String} {a : Address} {i : Nat} {c : Char}
    (hlength : t.toList.length = 48) (hsymbols : ∀ d ∈ t.toList, Base64.IsSymbol alphabet d)
    (hread : parse t .ton = .ok a) (hi : i < 48) (hc : Base64.IsSymbol alphabet c)
    (hne : t.toList[i]? ≠ some c) :
    ∃ payload : Bytes, payload.length = 36 ∧ ¬ Ton.isChecked payload ∧
      corrupted t i c = String.ofList (Base64.encode alphabet payload) := by
  obtain ⟨vs, hvs⟩ := Base64.exists_symbols hsymbols
  obtain ⟨new, rfl⟩ := hc
  have hcount : vs.length = 48 := by
    rw [← hlength, ← hvs, Base64.symbols, List.length_map]
  have hfour : 4 ∣ vs.length := ⟨12, hcount⟩
  have hfour' : 4 ∣ (vs.set i new).length := by rwa [List.length_set]
  have hold := Base64.length_ofSextets hfour
  have hnew := Base64.length_ofSextets hfour'
  rw [List.length_set] at hnew
  have htext : t.toList = Base64.encode alphabet (Base64.ofSextets vs) := by
    rw [Base64.encode_ofSextets hfour, hvs]
  have htext' : t.toList.set i (Base64.symbol alphabet new.val) =
      Base64.encode alphabet (Base64.ofSextets (vs.set i new)) := by
    rw [Base64.encode_ofSextets hfour', ← hvs, Base64.symbols, Base64.symbols, List.map_set]
  -- If both checksums fitted, then the payloads would be the same, and so would the texts.
  refine ⟨_, by omega, fun hchecked => ?_, congrArg String.ofList htext'⟩
  rw [← String.ofList_toList (s := t), htext] at hread
  have hchecked' := isChecked_of_parse (by omega) hread
  rw [Ton.isChecked_iff (by omega)] at hchecked hchecked'
  have hpair := Base64.sameUpToPair_set hfour (hi.trans_eq hcount.symm) new
  have hsame := hpair.eq_of_checksum_eq (hchecked'.trans hchecked.symm)
  rw [← hsame, ← htext] at htext'
  apply hne
  rw [← htext', List.getElem?_set_self (by omega)]

/-- A text that is an address, with one symbol replaced by another, is an address no more. Events
still accept it as the bytes it spells, which are as many as an address has, unless the mark or the
alphabet keeps them from being read. -/
theorem corrupted_refused_iff (alphabet : Base64.Alphabet) {t : String} {a : Address} {i : Nat}
    {c : Char} (hlength : t.toList.length = 48)
    (hsymbols : ∀ d ∈ t.toList, Base64.IsSymbol alphabet d) (hread : parse t .ton = .ok a)
    (hi : i < 48) (hc : Base64.IsSymbol alphabet c) (hne : t.toList[i]? ≠ some c) :
    (∃ e, parse (corrupted t i c) .ton = .error e) ∧
    ((∃ e, resolve (.text (corrupted t i c)) .ton = .error e) ↔
      (Hex.dropMark? (corrupted t i c).toList).isSome ∨
        ∃ d ∈ (corrupted t i c).toList, ¬ Base64.IsSymbol .standard d) ∧
    ∀ b, resolve (.text (corrupted t i c)) .ton = .ok b →
      Base64.decode .standard (corrupted t i c).toList = .ok b.bytes := by
  obtain ⟨payload, hpayload, hunchecked, htext⟩ :=
    exists_payload_of_corrupted hlength hsymbols hread hi hc hne
  have hthree : 3 ∣ payload.length := ⟨12, hpayload⟩
  have hbytes := ofBytes_bytes ⟨.ton, payload, none, hpayload⟩
  rw [htext, String.toList_ofList, Base64.isSome_dropMark?_encode]
  refine ⟨?_, resolve_payload_error_iff hpayload hunchecked, fun b hb => ?_⟩
  · exact Except.exists_error_iff.mpr fun b hb => hunchecked (isChecked_of_parse hpayload hb)
  · obtain ⟨-, hstandard, hb⟩ := (resolve_payload_iff hpayload hunchecked).mp hb
    obtain rfl := Except.ok.inj (hbytes.symm.trans hb)
    exact (Base64.decode_encode_eq_ok_iff hthree).mpr ⟨hstandard, rfl⟩

theorem parse_basechain_account :
    parse "EQCD39VS5jcptHL8vMjEXrzGaRcCVYto7HUn4bpAOg8xqB2N" .ton =
      .ok ⟨.ton, [0, 0, 0, 0, 0x83, 0xDF, 0xD5, 0x52, 0xE6, 0x37, 0x29, 0xB4, 0x72, 0xFC, 0xBC,
        0xC8, 0xC4, 0x5E, 0xBC, 0xC6, 0x69, 0x17, 0x02, 0x55, 0x8B, 0x68, 0xEC, 0x75, 0x27, 0xE1,
        0xBA, 0x40, 0x3A, 0x0F, 0x31, 0xA8], none, by decide⟩ := by
  decide +kernel

/-- The new symbol is one of the alphabet that is not tried. -/
theorem corrupted_with_underscore_refused :
    (∃ e, parse "EQCD39VS5jcptHL8vMjEXrzGaRcCVYto7HUn4bpAOg8xqB2_" .ton = .error e) ∧
      ∃ e, resolve (.text "EQCD39VS5jcptHL8vMjEXrzGaRcCVYto7HUn4bpAOg8xqB2_") .ton = .error e := by
  have htext : corrupted "EQCD39VS5jcptHL8vMjEXrzGaRcCVYto7HUn4bpAOg8xqB2N" 47 '_' =
      "EQCD39VS5jcptHL8vMjEXrzGaRcCVYto7HUn4bpAOg8xqB2_" := by
    decide +kernel
  have hsymbols : ∀ d ∈ "EQCD39VS5jcptHL8vMjEXrzGaRcCVYto7HUn4bpAOg8xqB2N".toList,
      Base64.IsSymbol .url d :=
    List.all_iff_forall_prop.mp (by decide +kernel)
  obtain ⟨hparse, hresolve, -⟩ := corrupted_refused_iff .url (i := 47) (c := '_') (by decide)
    hsymbols parse_basechain_account (by decide) ⟨63, by decide⟩ (by decide)
  rw [htext] at hparse hresolve
  exact ⟨hparse, hresolve.mpr (.inr ⟨'_', by decide, by decide +kernel⟩)⟩

/-- Both symbols are in both alphabets, and the bytes are taken for those of an account. -/
theorem corrupted_with_letter_accepted :
    (∃ a, parse "EQCD39VS5jcptHL8vMjEXrzGaRcCVYto7HUn4bpAOg8xqB2N" .ton = .ok a) ∧
      (∀ d ∈ "EQCD39VS5jcptHL8vMjEXrzGaRcCVYto7HUn4bpAOg8xqB2N".toList,
        Base64.IsSymbol .standard d) ∧
      Base64.IsSymbol .standard 'O' ∧
      corrupted "EQCD39VS5jcptHL8vMjEXrzGaRcCVYto7HUn4bpAOg8xqB2N" 47 'O' =
        "EQCD39VS5jcptHL8vMjEXrzGaRcCVYto7HUn4bpAOg8xqB2O" ∧
      (∃ e, parse "EQCD39VS5jcptHL8vMjEXrzGaRcCVYto7HUn4bpAOg8xqB2O" .ton = .error e) ∧
      ∃ b, resolve (.text "EQCD39VS5jcptHL8vMjEXrzGaRcCVYto7HUn4bpAOg8xqB2O") .ton = .ok b := by
  have hparse : parse "EQCD39VS5jcptHL8vMjEXrzGaRcCVYto7HUn4bpAOg8xqB2O" .ton =
      .error (.badAddress .ton "EQCD39VS5jcptHL8vMjEXrzGaRcCVYto7HUn4bpAOg8xqB2O"
        .badChecksum) := by
    decide +kernel
  have hresolve : resolve (.text "EQCD39VS5jcptHL8vMjEXrzGaRcCVYto7HUn4bpAOg8xqB2O") .ton =
      .ok ⟨.ton, [0x11, 0, 0x83, 0xDF, 0xD5, 0x52, 0xE6, 0x37, 0x29, 0xB4, 0x72, 0xFC, 0xBC, 0xC8,
        0xC4, 0x5E, 0xBC, 0xC6, 0x69, 0x17, 0x02, 0x55, 0x8B, 0x68, 0xEC, 0x75, 0x27, 0xE1, 0xBA,
        0x40, 0x3A, 0x0F, 0x31, 0xA8, 0x1D, 0x8E], none, by decide⟩ := by
    decide +kernel
  exact ⟨⟨_, parse_basechain_account⟩, List.all_iff_forall_prop.mp (by decide +kernel),
    ⟨14, by decide⟩, by decide +kernel, ⟨_, hparse⟩, ⟨_, hresolve⟩⟩

end Address

end CrossChain
