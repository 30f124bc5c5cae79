import CrossChain.Bytes.Lemmas
import CrossChain.Proofs.Address.Family
import CrossChain.Proofs.Address.Spelling
import CrossChain.Proofs.Text.Base58
import CrossChain.Proofs.Text.Numeral
/-! Addresses survive being shown and being carried in messages: the text of an address is read as
that address, module and all, and the bytes that messages carry as its account. Each family has a
text of its own, which reads back because its digits do; a module name comes through because it
ends in no blank. -/
namespace CrossChain

namespace Ton

/-- Four bytes stand for a number of 32 bits with a sign, which differs from the number they are
written as by `2 ^ 32` or nothing. -/
theorem workchainOf_spec {bs : Bytes} (h : bs.length = 4) :
    -2147483648 ≤ workchainOf bs ∧ workchainOf bs < 2147483648 ∧
      (workchainOf bs % 0x100000000).toNat = Bytes.toNatBE bs := by
  have hlt := Bytes.toNatBE_lt bs
  rw [h] at hlt
  unfold workchainOf
  dsimp only
  split
  next => omega
  next => omega

theorem workchainBytes_workchainOf {bs : Bytes} (h : bs.length = 4) :
    workchainBytes (workchainOf bs) = bs := by
  rw [workchainBytes, (workchainOf_spec h).2.2, ← h, Bytes.ofNatBE_toNatBE]

theorem isPlain_of_mem_raw {w : Int} {hash : Bytes} :
    ∀ c ∈ (toString w).toList ++ ':' :: Hex.encode hash, Text.IsPlain c := by
  rw [List.forall_mem_append, List.forall_mem_cons]
  exact ⟨Numeral.isPlain_of_mem_toString, by decide, Hex.isPlain_of_mem_encode⟩

end Ton

namespace Address

theorem ofBytes_bytes (a : Address) :
    ofBytes a.bytes a.family = .ok { a with moduleName := none } := by
  have hslot : ¬ (a.family = .evm ∧ a.bytes.length = 32) := by
    rintro ⟨hfamily, hlength⟩
    rw [a.length_eq, hfamily] at hlength
    exact absurd hlength (by decide)
  have hpadded : ¬ (a.family = .evm ∧ a.bytes.length = 32 ∧ (a.bytes.take 12).any (· ≠ 0)) :=
    fun h => hslot ⟨h.1, h.2.1⟩
  simp only [ofBytes, if_neg hslot, if_neg hpadded, dif_pos a.length_eq]

/-- The zeros that fill up an EVM address are the ones that reading drops. -/
theorem ofBytes_crossChainBytes (a : Address) :
    ofBytes a.crossChainBytes a.family = .ok { a with moduleName := none } := by
  obtain ⟨family, bytes, moduleName, hlength⟩ := a
  cases family with
  | evm =>
    have hbytes : bytes.length = 20 := hlength
    have hpadded : Bytes.padLeft 32 bytes = List.replicate 12 0 ++ bytes := by
      rw [Bytes.padLeft, hbytes]
    simp [ofBytes, crossChainBytes, hpadded, hbytes, Family.addressLength]
  | svm | aptos | sui | ton => exact ofBytes_bytes _

/-- Capital letters for some of the digits change nothing about what they spell. -/
theorem spells_zipWith_toUpper {ns marks : List Nat} (hns : ∀ n ∈ ns, n < 16)
    (hlength : ns.length ≤ marks.length) :
    List.Forall₂ Hex.Spells
      ((ns.map Hex.digit).zipWith (fun c mark => if 8 ≤ mark then c.toUpper else c) marks) ns := by
  induction ns generalizing marks with
  | nil => exact .nil
  | cons n ns ih =>
    rw [List.forall_mem_cons] at hns
    cases marks with
    | nil => simp at hlength
    | cons mark marks =>
      refine .cons ?_ (ih hns.2 (by simpa using hlength))
      dsimp only
      split
      next => exact Hex.spells_toUpper_digit hns.1
      next => exact Hex.spells_digit hns.1

theorem spells_checksumCase {bs : Bytes} (h : bs.length ≤ 32) :
    List.Forall₂ Hex.Spells (checksumCase (Hex.encode bs)) (Hex.halves bs) := by
  rw [checksumCase, Hex.encode_eq_map_halves]
  refine spells_zipWith_toUpper (fun _ => Hex.lt_of_mem_halves) ?_
  simp only [Hex.halves, List.length_flatMap, List.length_cons, List.length_nil,
    List.map_const', List.sum_replicate, smul_eq_mul, Bytes32.length_toBytes]
  omega

theorem dropMark?_encode (bs : Bytes) : Hex.dropMark? (Base58.encode bs) = none := by
  have hzero := Base58.zero_not_mem_encode bs
  unfold Hex.dropMark?
  split
  next h => simp [h] at hzero
  next h => simp [h] at hzero
  next => rfl

theorem parseTon_raw {w : Int} {hash : Bytes} (hleast : -2147483648 ≤ w)
    (hgreatest : w < 2147483648) (hhash : hash.length = 32) :
    parseTon ((toString w).toList ++ ':' :: Hex.encode hash) =
      ofBytes (Ton.workchainBytes w ++ hash) .ton := by
  have hcut : Text.cut? [':'] ((toString w).toList ++ ':' :: Hex.encode hash) =
      some ((toString w).toList, Hex.encode hash) :=
    Text.cut?_append (Numeral.colon_not_mem_toString w) _
  rw [parseTon, hcut]
  dsimp only
  rw [Ton.parseRaw, Numeral.int32?_toString hleast hgreatest]
  simp [Hex.decode_encode, Except.mapError, bind, Except.bind, hhash]

theorem parseTon_accountText {bs : Bytes} {a : Address} (hlength : bs.length = 36)
    (h : ofBytes bs .ton = .ok a) : parseTon (accountText bs .ton) = .ok a := by
  have hfour : (bs.take 4).length = 4 := by simp [hlength]
  have hhash : (bs.drop 4).length = 32 := by simp [hlength]
  obtain ⟨hleast, hgreatest, -⟩ := Ton.workchainOf_spec hfour
  rw [accountText, parseTon_raw hleast hgreatest hhash, Ton.workchainBytes_workchainOf hfour,
    List.take_append_drop, h]

theorem isPlain_of_mem_accountText {bs : Bytes} {family : Family}
    (hlength : bs.length = family.addressLength) : ∀ c ∈ accountText bs family, Text.IsPlain c := by
  cases family with
  | evm =>
    have hspells := spells_checksumCase (hlength.trans_le (by decide))
    exact Hex.isPlain_of_mem_marked (Hex.isPlain_of_spells hspells)
  | svm => exact Base58.isPlain_of_mem_encode
  | aptos | sui => exact Hex.isPlain_of_mem_marked Hex.isPlain_of_mem_encode
  | ton => exact Ton.isPlain_of_mem_raw

theorem parse_accountText {bs : Bytes} {family : Family} {a : Address}
    (hlength : bs.length = family.addressLength) (h : ofBytes bs family = .ok a) :
    parse (String.ofList (accountText bs family)) family = .ok a := by
  unfold parse
  rw [String.toList_ofList, Text.trim_of_isPlain (isPlain_of_mem_accountText hlength)]
  cases family with
  | evm =>
    have hdecode := Hex.decode_of_spells (spells_checksumCase (hlength.trans_le (by decide)))
    simp [accountText, decodeHex, Hex.dropMark?, hdecode, h, bind, Except.bind, Except.mapError]
  | svm =>
    simp [accountText, dropMark?_encode, decodeBase58, Base58.decode_encode, h, bind, Except.bind,
      Except.mapError]
  | aptos | sui => exact parseMove_text hlength h
  | ton => exact parseTon_accountText hlength h

theorem parseMove_module {bs : Bytes} {family : Family} {a : Address} {name : String}
    (hlength : bs.length = 32) (hname : name.toList ≠ []) (h : ofBytes bs family = .ok a) :
    parseMove ('0' :: 'x' :: Hex.encode bs ++ ':' :: ':' :: name.toList) family =
      .ok (a.withModule name) := by
  have hcut : Text.cut? [':', ':'] ('0' :: 'x' :: Hex.encode bs ++ ':' :: ':' :: name.toList) =
      some ('0' :: 'x' :: Hex.encode bs, name.toList) :=
    Text.cut?_append (by simp [Hex.colon_not_mem_encode]) _
  obtain ⟨c, cs, hcs⟩ := List.exists_cons_of_ne_nil hname
  rw [parseMove, hcut, hcs]
  dsimp only
  rw [parseAccount_text _ hlength h, ← hcs, String.ofList_toList]
  rfl

theorem trim_moduleText {bs : Bytes} {name : List Char} (hne : name ≠ [])
    (hend : Text.trimEnd name = name) :
    Text.trim ('0' :: 'x' :: Hex.encode bs ++ ':' :: ':' :: name) =
      '0' :: 'x' :: Hex.encode bs ++ ':' :: ':' :: name := by
  have hwhole : Text.trimEnd (('0' :: 'x' :: Hex.encode bs ++ [':', ':']) ++ name) =
      ('0' :: 'x' :: Hex.encode bs ++ [':', ':']) ++ name :=
    (Text.trimEnd_append_eq_self_iff hne).mpr hend
  rw [List.append_assoc] at hwhole
  exact Text.trim_cons (by decide) hwhole

/-- Only Move addresses name a module, and by a name that can be read back. -/
def Readable (family : Family) (a : Address) : Prop :=
  ∀ name, a.moduleName = some name → family.isMove ∧ IsModuleName name

theorem parse_text_of_readable {a : Address} (h : Readable a.family a) :
    parse a.text a.family = .ok a := by
  obtain ⟨family, bytes, moduleName, hlength⟩ := a
  have hbytes := ofBytes_bytes ⟨family, bytes, none, hlength⟩
  cases moduleName with
  | none => exact parse_accountText hlength hbytes
  | some name =>
    obtain ⟨hmove, hne, hend⟩ := h name rfl
    cases family with
    | evm | svm | ton => cases hmove
    | aptos | sui =>
      rw [parse, text, String.toList_ofList]
      dsimp only [accountText]
      rw [trim_moduleText hne hend]
      exact parseMove_module hlength hne hbytes

theorem readable_ofBytes (bs : Bytes) (family : Family) :
    YieldsOnly (Readable family) (ofBytes bs family) := by
  intro a h name hname
  rw [(yieldsOnly_ofBytes bs family a h).2] at hname
  contradiction

theorem readable_parse (s : String) (family : Family) :
    YieldsOnly (Readable family) (parse s family) :=
  yieldsOnly_parse (fun bs => readable_ofBytes bs family) (fun hmove a name _ hname => by
    rintro _ ⟨⟩
    exact ⟨hmove, hname⟩) s

/-- An address that was read from a text or from bytes has the length of its family; its text is
read as itself, its bytes in messages as its account. -/
theorem survives_text_and_bytes {a : Address} {family : Family}
    (h : (∃ s, parse s family = .ok a) ∨ ∃ bs, ofBytes bs family = .ok a) :
    a.bytes.length = family.addressLength ∧ parse a.text family = .ok a ∧
      resolve (.text a.text) family = .ok a ∧
      ofBytes a.crossChainBytes family = .ok { a with moduleName := none } := by
  obtain ⟨rfl, hreadable⟩ : a.family = family ∧ Readable family a := by
    obtain ⟨s, hs⟩ | ⟨bs, hbs⟩ := h
    · exact ⟨ofFamily_parse s family a hs, readable_parse s family a hs⟩
    · exact ⟨ofFamily_ofBytes bs family a hbs, readable_ofBytes bs family a hbs⟩
  have hparse := parse_text_of_readable hreadable
  exact ⟨a.length_eq, hparse, by rw [resolve, hparse], ofBytes_crossChainBytes a⟩

/-- A module whose name holds the separator and blanks, and an account of a workchain below zero. -/
theorem module_and_negative_workchain_survive :
    (∃ a, parse " 0X1::coin::Pair of coins " .sui = .ok a ∧
      a.moduleName = some "coin::Pair of coins" ∧ a.bytes.length = 32 ∧
      parse a.text .sui = .ok a ∧ resolve (.text a.text) .sui = .ok a ∧
      ofBytes a.crossChainBytes .sui = .ok { a with moduleName := none }) ∧
    ∃ a, ofBytes (List.replicate 36 0xFF) .ton = .ok a ∧
      a.text = "-1:" ++ String.ofList (List.replicate 64 'f') ∧ a.bytes.length = 36 ∧
      parse a.text .ton = .ok a ∧ resolve (.text a.text) .ton = .ok a ∧
      ofBytes a.crossChainBytes .ton = .ok { a with moduleName := none } := by
  have hmodule : parse " 0X1::coin::Pair of coins " .sui =
      .ok ⟨.sui, List.replicate 31 0 ++ [1], "coin::Pair of coins", by decide⟩ := by
    decide
  have hworkchain : ofBytes (List.replicate 36 0xFF) .ton =
      .ok ⟨.ton, List.replicate 36 0xFF, none, by decide⟩ := by
    decide
  exact ⟨⟨_, hmodule, rfl, survives_text_and_bytes (.inl ⟨_, hmodule⟩)⟩,
    ⟨_, hworkchain, by decide, survives_text_and_bytes (.inr ⟨_, hworkchain⟩)⟩⟩

end Address

end CrossChain
