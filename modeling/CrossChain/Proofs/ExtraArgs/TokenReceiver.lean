import CrossChain.ExtraArgs.Request
import CrossChain.Proofs.Address.Family
/-! Who takes the tokens of a message to Solana or Sui. The arguments of these families name the
recipient and leave the message without a receiver; arguments of the generic variant do so only if
they were asked for that way. -/
namespace CrossChain.ExtraArgs

namespace Request

/-- What the family of the destination makes of a request without generic fields. -/
def native (r : Request) (dest : Family) (receiver : Address) (gas : U256) (hasTokens : Bool) :
    Except Error Prepared :=
  match dest with
  | .evm | .aptos | .ton => r.prepareEvm dest receiver gas
  | .svm => r.prepareSolana receiver gas hasTokens
  | .sui => r.prepareSui receiver gas hasTokens

theorem prepare_eq_ok {r : Request} {dest : Family} {receiver : Address}
    {hasData hasTokens : Bool} {p : Prepared}
    (h : r.prepare dest receiver hasData hasTokens = .ok p) :
    receiver.family = dest ∧
      ((r.isGeneric = true ∧
          ∃ args, r.generic dest (r.gas hasData) = .ok args ∧ p = ⟨receiver, args⟩) ∨
        (r.isGeneric = false ∧ (r.isSolana → dest = .svm) ∧ (r.objectIds.isSome → dest = .sui) ∧
          r.native dest receiver (r.gas hasData) hasTokens = .ok p)) := by
  unfold prepare at h
  obtain ⟨hfamily, h⟩ := Except.guard_eq_ok_iff.mp h
  refine ⟨not_not.mp hfamily, ?_⟩
  dsimp only at h
  split at h
  next hgeneric =>
    obtain ⟨args, hargs, ⟨⟩⟩ := Except.bind_eq_ok_iff.mp h
    exact .inl ⟨hgeneric, args, hargs, rfl⟩
  next hgeneric =>
    obtain ⟨hsolana, h⟩ := Except.guard_eq_ok_iff.mp h
    obtain ⟨hobjects, h⟩ := Except.guard_eq_ok_iff.mp h
    exact .inr ⟨by simpa using hgeneric, by simpa using hsolana, by simpa using hobjects, h⟩

/-- Who is to take the tokens: whom the request names, or else the receiver. -/
def recipient (r : Request) (receiver : Address) : Except Error Bytes32 :=
  match r.tokenReceiver with
  | some s => parseWord receiver.family s
  | none => receiver.toBytes32

theorem splitReceiver_eq_ok {r : Request} {receiver zeroed : Address} {w : Bytes32}
    (h : r.splitReceiver receiver true = .ok (zeroed, w)) :
    zeroed = .zero receiver.family ∧ r.recipient receiver = .ok w ∧ w.isZero = false := by
  unfold splitReceiver at h
  obtain ⟨explicit, hexplicit, h⟩ := Except.bind_eq_ok_iff.mp h
  dsimp only at h
  rw [if_neg (by decide)] at h
  unfold Request.recipient
  cases htoken : r.tokenReceiver with
  | none =>
    rw [htoken] at hexplicit
    cases hexplicit
    obtain ⟨word, hword, h⟩ := Except.bind_eq_ok_iff.mp h
    obtain ⟨hzero, ⟨⟩⟩ := Except.guard_eq_ok_iff.mp h
    exact ⟨rfl, hword, by simpa using hzero⟩
  | some s =>
    rw [htoken] at hexplicit
    obtain ⟨named, hnamed, ⟨⟩⟩ := Except.map_eq_ok_iff.mp hexplicit
    obtain ⟨_, ⟨⟩, h⟩ := Except.bind_eq_ok_iff.mp h
    obtain ⟨hzero, ⟨⟩⟩ := Except.guard_eq_ok_iff.mp h
    exact ⟨rfl, hnamed, by simpa using hzero⟩

end Request

/-- The message goes to the zero address, and its arguments name whom the request wants the tokens
to go to. -/
structure Prepared.Conveys (p : Prepared) (r : Request) (receiver : Address) : Prop where
  zeroed : p.receiver = .zero receiver.family
  named : ∃ w, r.recipient receiver = .ok w ∧ w.isZero = false ∧
    p.args.tokenReceiver? = some w.toBytes

namespace Request

theorem conveys_of_splitReceiver {r : Request} {receiver zeroed : Address} {w : Bytes32}
    {args : ExtraArgs} (h : r.splitReceiver receiver true = .ok (zeroed, w))
    (hargs : args.tokenReceiver? = if w.isZero then none else some w.toBytes) :
    Prepared.Conveys ⟨zeroed, args⟩ r receiver := by
  obtain ⟨hzeroed, hrecipient, hw⟩ := splitReceiver_eq_ok h
  exact ⟨hzeroed, w, hrecipient, hw, by rw [hargs, hw]; rfl⟩

theorem conveys_of_solana {r : Request} {receiver : Address} {gas : U256} {p : Prepared}
    (h : r.prepareSolana receiver gas true = .ok p) : p.Conveys r receiver := by
  unfold prepareSolana at h
  obtain ⟨units, -, h⟩ := Except.bind_eq_ok_iff.mp h
  obtain ⟨accounts, -, h⟩ := Except.bind_eq_ok_iff.mp h
  obtain ⟨⟨zeroed, w⟩, hsplit, ⟨⟩⟩ := Except.bind_eq_ok_iff.mp h
  exact conveys_of_splitReceiver hsplit rfl

theorem conveys_of_sui {r : Request} {receiver : Address} {gas : U256} {p : Prepared}
    (h : r.prepareSui receiver gas true = .ok p) : p.Conveys r receiver := by
  unfold prepareSui at h
  obtain ⟨gas, -, h⟩ := Except.bind_eq_ok_iff.mp h
  obtain ⟨objects, -, h⟩ := Except.bind_eq_ok_iff.mp h
  obtain ⟨⟨zeroed, w⟩, hsplit, ⟨⟩⟩ := Except.bind_eq_ok_iff.mp h
  exact conveys_of_splitReceiver hsplit rfl

theorem tokenReceiver?_of_generic {r : Request} {dest : Family} {gas : U256} {args : ExtraArgs}
    (h : r.generic dest gas = .ok args) : ∃ bs, optionalAccount dest r.tokenReceiver = .ok bs ∧
      args.tokenReceiver? = if bs = [] then none else some bs := by
  unfold generic at h
  obtain ⟨gas, -, h⟩ := Except.bind_eq_ok_iff.mp h
  obtain ⟨confirmations, -, h⟩ := Except.bind_eq_ok_iff.mp h
  obtain ⟨executor, -, h⟩ := Except.bind_eq_ok_iff.mp h
  obtain ⟨verifiers, -, h⟩ := Except.bind_eq_ok_iff.mp h
  obtain ⟨bs, hbs, ⟨⟩⟩ := Except.bind_eq_ok_iff.mp h
  exact ⟨bs, hbs, rfl⟩

/-- As a word and as an account, an address of 32 bytes is the same bytes. -/
theorem parseAccount_of_parseWord {family : Family} {s : String} {w : Bytes32}
    (hevm : family ≠ .evm) (h : parseWord family s = .ok w) :
    parseAccount family s = .ok w.toBytes := by
  obtain ⟨a, ha, h⟩ := Except.bind_eq_ok_iff.mp h
  have hbytes : a.crossChainBytes = a.bytes := by
    unfold Address.crossChainBytes
    rw [Address.ofFamily_parse s family a ha]
    cases family <;> first | contradiction | rfl
  unfold Address.toBytes32 at h
  split at h
  next word hword =>
    cases h
    rw [parseAccount, ha, ← Bytes32.ofBytes?_eq_some_iff.mp hword, hbytes]
    rfl
  next => cases h

theorem tokenReceiver?_eq_none_of_generic {r : Request} {dest : Family} {gas : U256}
    {args : ExtraArgs} (hnone : r.tokenReceiver = none) (h : r.generic dest gas = .ok args) :
    args.tokenReceiver? = none := by
  obtain ⟨bs, hbs, hnamed⟩ := tokenReceiver?_of_generic h
  rw [hnone] at hbs
  cases hbs
  exact hnamed

theorem tokenReceiver?_eq_some_of_generic {r : Request} {dest : Family} {gas : U256}
    {args : ExtraArgs} {s : String} {w : Bytes32} (hevm : dest ≠ .evm)
    (hsome : r.tokenReceiver = some s) (hw : parseWord dest s = .ok w)
    (h : r.generic dest gas = .ok args) : args.tokenReceiver? = some w.toBytes := by
  obtain ⟨bs, hbs, hnamed⟩ := tokenReceiver?_of_generic h
  rw [hsome] at hbs
  cases hbs.symm.trans (parseAccount_of_parseWord hevm hw)
  have hne : w.toBytes ≠ [] := List.ne_nil_of_length_pos (by simp)
  rw [hnamed, if_neg hne]

theorem conveys_of_generic_iff {r : Request} {receiver : Address} {gas : U256} {args : ExtraArgs}
    (hevm : receiver.family ≠ .evm) (h : r.generic receiver.family gas = .ok args) :
    Prepared.Conveys ⟨receiver, args⟩ r receiver ↔ receiver = .zero receiver.family ∧
      ∃ s w, r.tokenReceiver = some s ∧ parseWord receiver.family s = .ok w ∧
        w.isZero = false := by
  constructor
  · rintro ⟨hzeroed, w, hrecipient, hw, hnamed⟩
    refine ⟨hzeroed, ?_⟩
    cases htoken : r.tokenReceiver with
    | none =>
      dsimp only at hnamed
      rw [tokenReceiver?_eq_none_of_generic htoken h] at hnamed
      cases hnamed
    | some s =>
      rw [Request.recipient, htoken] at hrecipient
      exact ⟨s, w, rfl, hrecipient, hw⟩
  · rintro ⟨hzeroed, s, w, hsome, hword, hw⟩
    refine ⟨hzeroed, w, ?_, hw, tokenReceiver?_eq_some_of_generic hevm hsome hword h⟩
    rw [Request.recipient, hsome]
    exact hword

/-- When the tokens of a message to Solana or Sui go to whom they are meant for. With a generic
field the message keeps its receiver, and its arguments name nobody whom the request does not name;
then the receiver has to be zero and the recipient to be named from the start. -/
theorem conveys_iff {r : Request} {dest : Family} {receiver : Address} {hasData : Bool}
    {p : Prepared} (hdest : dest = .svm ∨ dest = .sui)
    (h : r.prepare dest receiver hasData true = .ok p) :
    (p.Conveys r receiver ↔ r.isGeneric = false ∨ receiver = .zero dest ∧
      ∃ s w, r.tokenReceiver = some s ∧ parseWord dest s = .ok w ∧ w.isZero = false) ∧
    (r.isGeneric = true → p.receiver = receiver ∧
      (r.tokenReceiver = none → p.args.tokenReceiver? = none)) := by
  obtain ⟨rfl, ⟨hgeneric, args, hargs, rfl⟩ | ⟨hgeneric, -, -, hnative⟩⟩ := prepare_eq_ok h
  · have hevm : receiver.family ≠ .evm := by
      intro hevm
      simp [hevm] at hdest
    refine ⟨?_, fun _ => ⟨rfl, fun hnone => tokenReceiver?_eq_none_of_generic hnone hargs⟩⟩
    simpa [hgeneric] using conveys_of_generic_iff hevm hargs
  · refine ⟨iff_of_true ?_ (.inl hgeneric), by simp [hgeneric]⟩
    obtain hsvm | hsui := hdest
    · rw [hsvm] at hnative
      exact conveys_of_solana hnative
    · rw [hsui] at hnative
      exact conveys_of_sui hnative

def blank : Request :=
  ⟨none, none, none, none, none, none, none, none, none, none, none, none, none⟩

def suiAccount : Address := ⟨.sui, List.replicate 31 0 ++ [1], none, by decide⟩

theorem blank_conveys :
    Prepared.Conveys ⟨.zero .sui, .suiV1 0 true ⟨suiAccount.bytes, by decide⟩ []⟩ blank
      suiAccount := by
  have hprepare : blank.prepare .sui suiAccount false true =
      .ok ⟨.zero .sui, .suiV1 0 true ⟨suiAccount.bytes, by decide⟩ []⟩ := by decide
  exact (conveys_iff (.inr rfl) hprepare).1.mpr (.inl rfl)

/-- A generic field loses the recipient: nobody is named, and the receiver is not zero. -/
theorem generic_field_keeps_receiver :
    prepare { blank with confirmations := some 5 } .sui suiAccount false true =
      .ok ⟨suiAccount, .genericV3 0 5 [] [] [] [] [] []⟩ ∧
    (genericV3 0 5 [] [] [] [] [] []).tokenReceiver? = none ∧
    ¬ Prepared.Conveys ⟨suiAccount, .genericV3 0 5 [] [] [] [] [] []⟩
      { blank with confirmations := some 5 } suiAccount :=
  ⟨by decide, rfl, fun h => absurd h.zeroed (by decide)⟩

end Request

end CrossChain.ExtraArgs
