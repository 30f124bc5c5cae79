import CrossChain.Proofs.ExtraArgs.EvmSolanaOrigin
import CrossChain.Proofs.ExtraArgs.MoveOrigin
import CrossChain.Proofs.ExtraArgs.Supplied
/-! The gas of a granted request. It is the gas that was asked for, or there are no arguments at
all: a number that a field has no room for is refused, not cut. And what is granted can be written
by every origin; only Solana has no room for the largest gas limits. -/
namespace CrossChain.ExtraArgs

def Variant.gasBits : Variant → Nat
  | .evmV1 | .evmV2 => 256
  | .svmV1 | .genericV3 => 32
  | .suiV1 => 64

variable {args : ExtraArgs}

theorem exists_encode {origin : Family} (horigin : origin ∈ [Family.evm, .aptos, .sui])
    (h : args.variant ≠ .evmV1) : ∃ bs, args.encode origin = .ok bs := by
  simp only [List.mem_cons, List.not_mem_nil, or_false] at horigin
  rcases horigin with rfl | rfl | rfl
  · exact (exists_encode_iff .abi rfl).mpr ⟨args.abiBody, rfl⟩
  · exact (exists_encode_iff .bcs rfl).mpr (exists_bcsBody? h)
  · exact (exists_encode_iff .bcs rfl).mpr (exists_bcsBody? h)

theorem exists_encode_svm_iff (h : args.variant ≠ .evmV1) (hfits : args.Fits) :
    (∃ bs, args.encode .svm = .ok bs) ↔
      ∀ gas outOfOrder, args = .evmV2 gas outOfOrder → gas.toNat < 2 ^ 128 :=
  (exists_encode_iff .borsh rfl).trans <| exists_borshBody?_iff.trans
    ⟨fun h => h.2.1, fun hgas => ⟨h, hgas, hfits⟩⟩

namespace Request

variable {r : Request} {dest : Family} {receiver : Address} {gas : U256} {hasData hasTokens : Bool}
  {p : Prepared}

def wanted (r : Request) (dest : Family) : Variant :=
  match r.isGeneric, dest with
  | true, _ => .genericV3
  | false, .svm => .svmV1
  | false, .sui => .suiV1
  | false, _ => .evmV2

/-- The gas limit that a request states, or what is meant by none. -/
def statedGas (r : Request) (hasData : Bool) : Nat :=
  match r.gasLimit with
  | some gas => gas.toNat
  | none => if hasData then 200000 else 0

/-- The gas that a request asks for. On Solana it may be stated as compute units, unless a generic
field displaces the variant that has them. -/
def requestedGas (r : Request) (dest : Family) (hasData : Bool) : Nat :=
  match dest, r.isGeneric, r.computeUnits with
  | .svm, false, some units => units.toNat
  | _, _, _ => r.statedGas hasData

/-- No list and no byte string of the request is longer than the layout of Solana can say. -/
structure Short (r : Request) : Prop where
  accounts : (r.accounts.getD []).length < 2 ^ 32
  objectIds : (r.objectIds.getD []).length < 2 ^ 32
  verifiers : (r.verifiers.getD []).length < 2 ^ 32
  verifierArgs : (r.verifierArgs.getD []).length < 2 ^ 32
  executorArgs : (r.executorArgs.getD []).length < 2 ^ 32
  tokenArgs : (r.tokenArgs.getD []).length < 2 ^ 32
  eachVerifierArgs : ∀ bs ∈ r.verifierArgs.getD [], bs.length < 2 ^ 32

theorem wanted_of_isGeneric (h : r.isGeneric = true) : r.wanted dest = .genericV3 := by
  unfold wanted
  rw [h]

theorem wanted_ne_evmV1 (r : Request) (dest : Family) : r.wanted dest ≠ .evmV1 := by
  unfold wanted
  split <;> nofun

theorem toNat_gas (r : Request) (hasData : Bool) :
    (r.gas hasData).toNat = r.statedGas hasData := by
  unfold gas statedGas
  cases r.gasLimit with
  | some gas => rfl
  | none => cases hasData <;> rfl

/-- But for Solana and its variant, the gas limit is all that counts. -/
theorem requestedGas_of_limit (h : r.isGeneric = true ∨ dest ≠ .svm) :
    r.requestedGas dest hasData = (r.gas hasData).toNat := by
  rw [toNat_gas]
  unfold requestedGas
  split
  next hgeneric _ => simp [hgeneric] at h
  next => rfl

theorem requestedGas_svm (h : r.isGeneric = false) : r.requestedGas .svm hasData =
    (r.computeUnits.map UInt64.toNat).getD (r.gas hasData).toNat := by
  unfold requestedGas
  rw [h, toNat_gas]
  cases r.computeUnits <;> rfl

theorem length_le_of_parseAccount {s : String} :
    YieldsOnly (fun bs : Bytes => bs.length ≤ 36) (parseAccount dest s) := by
  intro bs h
  obtain ⟨a, -, ⟨⟩⟩ := Except.bind_eq_ok_iff.mp h
  rw [a.length_eq]
  cases a.family <;> decide

theorem length_le_of_optionalAccount {s? : Option String} :
    YieldsOnly (fun bs : Bytes => bs.length ≤ 36) (optionalAccount dest s?) := by
  cases s? with
  | none => exact .ok (by simp)
  | some s => exact length_le_of_parseAccount

theorem toNat_widened {n : Nat} (h : n < 2 ^ 64) : (BitVec.ofNat 256 n).toNat = n := by
  rw [BitVec.toNat_ofNat]
  exact Nat.mod_eq_of_lt (h.trans (by decide))

/-- Arguments of the variant asked for, with the gas asked for, which have a short form if the
request has one. -/
structure Grants (args : ExtraArgs) (r : Request) (v : Variant) (gas : Nat) : Prop where
  variant : args.variant = v
  gasLimit : args.gasLimit.toNat = gas
  fits : r.Short → args.Fits

theorem grants_of_generic (h : r.generic dest gas = .ok args) :
    Grants args r .genericV3 gas.toNat := by
  unfold generic at h
  obtain ⟨limit, hlimit, h⟩ := Except.bind_eq_ok_iff.mp h
  obtain ⟨confirmations, -, h⟩ := Except.bind_eq_ok_iff.mp h
  obtain ⟨executor, hexecutor, h⟩ := Except.bind_eq_ok_iff.mp h
  obtain ⟨verifiers, hverifiers, h⟩ := Except.bind_eq_ok_iff.mp h
  obtain ⟨tokenReceiver, htokenReceiver, ⟨⟩⟩ := Except.bind_eq_ok_iff.mp h
  refine ⟨rfl, ?_, fun hshort => ⟨?_, ?_, ?_⟩⟩
  · rw [← toNat_ofNat_of_fitting hlimit]
    exact toNat_widened ((UInt32.toNat_lt _).trans (by decide))
  · have haccount : ∀ bs : Bytes, bs.length ≤ 36 → bs.length ≤ Bcs.Reader.maxLength :=
      fun bs hbs => hbs.trans (by decide)
    have heach := YieldsOnly.mapM (fun _ => length_le_of_parseAccount) _ _ hverifiers
    simp only [List.mem_append, List.mem_cons, List.not_mem_nil, or_false]
    rintro bs (((rfl | rfl | rfl | rfl) | hbs) | hbs)
    · exact haccount _ (length_le_of_optionalAccount _ hexecutor)
    · exact Nat.le_of_lt_succ hshort.executorArgs
    · exact haccount _ (length_le_of_optionalAccount _ htokenReceiver)
    · exact Nat.le_of_lt_succ hshort.tokenArgs
    · exact haccount _ (heach bs hbs)
    · exact Nat.le_of_lt_succ (hshort.eachVerifierArgs bs hbs)
  · rw [← (Except.mapM_eq_ok_iff.mp hverifiers).length_eq]
    exact Nat.le_of_lt_succ hshort.verifiers
  · exact Nat.le_of_lt_succ hshort.verifierArgs

theorem grants_of_prepareEvm (h : r.prepareEvm dest receiver gas = .ok p) :
    Grants p.args r .evmV2 gas.toNat := by
  unfold prepareEvm at h
  split at h
  next => cases h
  next =>
    cases h
    exact ⟨rfl, rfl, fun _ => trivial⟩

theorem grants_of_prepareSolana (h : r.prepareSolana receiver gas hasTokens = .ok p) :
    Grants p.args r .svmV1 ((r.computeUnits.map UInt64.toNat).getD gas.toNat) := by
  unfold prepareSolana at h
  obtain ⟨units, hunits, h⟩ := Except.bind_eq_ok_iff.mp h
  obtain ⟨accounts, haccounts, h⟩ := Except.bind_eq_ok_iff.mp h
  obtain ⟨⟨zeroed, w⟩, -, ⟨⟩⟩ := Except.bind_eq_ok_iff.mp h
  refine ⟨rfl, ?_, fun hshort => ?_⟩
  · rw [← toNat_ofNat_of_fitting hunits]
    exact toNat_widened ((UInt32.toNat_lt _).trans (by decide))
  · change accounts.length ≤ Bcs.Reader.maxLength
    rw [← (Except.mapM_eq_ok_iff.mp haccounts).length_eq]
    exact Nat.le_of_lt_succ hshort.accounts

theorem grants_of_prepareSui (h : r.prepareSui receiver gas hasTokens = .ok p) :
    Grants p.args r .suiV1 gas.toNat := by
  unfold prepareSui at h
  obtain ⟨limit, hlimit, h⟩ := Except.bind_eq_ok_iff.mp h
  obtain ⟨objectIds, hobjectIds, h⟩ := Except.bind_eq_ok_iff.mp h
  obtain ⟨⟨zeroed, w⟩, -, ⟨⟩⟩ := Except.bind_eq_ok_iff.mp h
  obtain ⟨hlt, rfl⟩ := fitting_eq_ok_iff.mp hlimit
  refine ⟨rfl, ?_, fun hshort => ?_⟩
  · change (BitVec.ofNat 256 (UInt64.ofNat gas.toNat).toNat).toNat = gas.toNat
    rw [UInt64.toNat_ofNat_of_lt' hlt]
    exact toNat_widened hlt
  · change objectIds.length ≤ Bcs.Reader.maxLength
    rw [← (Except.mapM_eq_ok_iff.mp hobjectIds).length_eq]
    exact Nat.le_of_lt_succ hshort.objectIds

theorem grants_of_prepare (h : r.prepare dest receiver hasData hasTokens = .ok p) :
    Grants p.args r (r.wanted dest) (r.requestedGas dest hasData) := by
  obtain ⟨-, ⟨hgeneric, args, hargs, rfl⟩ | ⟨hgeneric, -, -, hnative⟩⟩ := prepare_eq_ok h
  · rw [wanted_of_isGeneric hgeneric, requestedGas_of_limit (.inl hgeneric)]
    exact grants_of_generic hargs
  · have hlimit : dest ≠ .svm → r.requestedGas dest hasData = (r.gas hasData).toNat :=
      fun hdest => requestedGas_of_limit (.inr hdest)
    unfold wanted
    rw [hgeneric]
    cases dest with
    | svm =>
      rw [requestedGas_svm hgeneric]
      exact grants_of_prepareSolana hnative
    | sui =>
      rw [hlimit nofun]
      exact grants_of_prepareSui hnative
    | evm | aptos | ton =>
      rw [hlimit nofun]
      exact grants_of_prepareEvm hnative

theorem generic_eq_error
    (h : 2 ^ 32 ≤ gas.toNat ∨ 2 ^ 16 ≤ (r.confirmations.getD 0).toNat) :
    ∃ fault, r.generic dest gas = .error (.badArgs fault) := by
  unfold generic
  by_cases hgas : 2 ^ 32 ≤ gas.toNat
  · rw [fitting_eq_error hgas]
    exact ⟨_, rfl⟩
  · have hok : fitting "gasLimit" 32 gas.toNat = .ok gas.toNat :=
      fitting_eq_ok_iff.mpr ⟨Nat.not_le.mp hgas, rfl⟩
    rw [hok, fitting_eq_error (h.resolve_left hgas)]
    exact ⟨_, rfl⟩

theorem native_eq_error_of_tooWide (hgeneric : r.isGeneric = false)
    (h : 2 ^ (r.wanted dest).gasBits ≤ r.requestedGas dest hasData) :
    ∃ fault, r.native dest receiver (r.gas hasData) hasTokens = .error (.badArgs fault) := by
  have hlimit : dest ≠ .svm → r.requestedGas dest hasData = (r.gas hasData).toNat :=
    fun hdest => requestedGas_of_limit (.inr hdest)
  unfold wanted at h
  rw [hgeneric] at h
  cases dest with
  | svm =>
    rw [requestedGas_svm hgeneric] at h
    change 2 ^ 32 ≤ _ at h
    change ∃ fault, r.prepareSolana receiver _ hasTokens = .error (.badArgs fault)
    rw [prepareSolana, fitting_eq_error h]
    exact ⟨_, rfl⟩
  | sui =>
    rw [hlimit nofun] at h
    change 2 ^ 64 ≤ _ at h
    change ∃ fault, r.prepareSui receiver _ hasTokens = .error (.badArgs fault)
    rw [prepareSui, fitting_eq_error h]
    exact ⟨_, rfl⟩
  | evm | aptos | ton =>
    rw [hlimit nofun] at h
    exact absurd (r.gas hasData).isLt (Nat.not_lt.mpr h)

theorem prepare_eq_error_of_tooWide (hfamily : receiver.family = dest)
    (h : 2 ^ (r.wanted dest).gasBits ≤ r.requestedGas dest hasData) :
    ∃ fault, r.prepare dest receiver hasData hasTokens = .error (.badArgs fault) := by
  cases hgeneric : r.isGeneric with
  | true =>
    rw [wanted_of_isGeneric hgeneric, requestedGas_of_limit (.inl hgeneric)] at h
    obtain ⟨fault, hfault⟩ := generic_eq_error (.inl h)
    rw [prepare_of_generic hfamily hgeneric, hfault]
    exact ⟨fault, rfl⟩
  | false =>
    rw [prepare_of_not_generic hfamily hgeneric]
    split
    next => exact ⟨_, rfl⟩
    split
    next => exact ⟨_, rfl⟩
    next => exact native_eq_error_of_tooWide hgeneric h

theorem prepare_eq_error_of_confirmations {n : UInt64} (hfamily : receiver.family = dest)
    (hn : r.confirmations = some n) (h : 2 ^ 16 ≤ n.toNat) :
    ∃ fault, r.prepare dest receiver hasData hasTokens = .error (.badArgs fault) := by
  have hgeneric : r.isGeneric = true := by simp [isGeneric, hn]
  have hwide : 2 ^ 16 ≤ (r.confirmations.getD 0).toNat := by
    rw [hn]
    exact h
  obtain ⟨fault, hfault⟩ := generic_eq_error (.inr hwide)
  rw [prepare_of_generic hfamily hgeneric, hfault]
  exact ⟨fault, rfl⟩

/-- A granted request gets exactly the gas that it asks for, in arguments that every origin can
write; only for Solana a gas limit may be too large. Gas, or a count of confirmations, that its
field has no room for is refused as a fault of the arguments. -/
theorem prepared_gas_exact_and_encodable {r : Request} {dest : Family} {receiver : Address}
    {hasData hasTokens : Bool} (hfamily : receiver.family = dest) :
    (∀ p, r.prepare dest receiver hasData hasTokens = .ok p →
      p.args.variant = r.wanted dest ∧ p.args.gasLimit.toNat = r.requestedGas dest hasData ∧
        (∀ origin ∈ [Family.evm, .aptos, .sui], ∃ bs, p.args.encode origin = .ok bs) ∧
        (r.Short → ((∃ bs, p.args.encode .svm = .ok bs) ↔
          ∀ gas outOfOrder, p.args = .evmV2 gas outOfOrder → gas.toNat < 2 ^ 128))) ∧
    (2 ^ (r.wanted dest).gasBits ≤ r.requestedGas dest hasData →
      ∃ fault, r.prepare dest receiver hasData hasTokens = .error (.badArgs fault)) ∧
    (∀ n, r.confirmations = some n → 2 ^ 16 ≤ n.toNat →
      ∃ fault, r.prepare dest receiver hasData hasTokens = .error (.badArgs fault)) := by
  refine ⟨fun p h => ?_, prepare_eq_error_of_tooWide hfamily, fun n hn hwide =>
    prepare_eq_error_of_confirmations hfamily hn hwide⟩
  obtain ⟨hvariant, hgas, hfits⟩ := grants_of_prepare h
  have hold : p.args.variant ≠ .evmV1 := hvariant ▸ wanted_ne_evmV1 r dest
  exact ⟨hvariant, hgas, fun origin horigin => exists_encode horigin hold,
    fun hshort => exists_encode_svm_iff hold (hfits hshort)⟩

def thirstyRequest : Request := { blank with gasLimit := some (BitVec.allOnes 256) }

/-- Compute units reach the arguments, and so does the largest gas limit, which Solana alone cannot
write. One unit more than Solana has room for is refused, and so is one confirmation too many. -/
theorem gas_granted_up_to_the_width :
    (∃ p, solanaRequest.prepare .svm (.zero .svm) true false = .ok p ∧
      p.args.gasLimit.toNat = 300000 ∧ ∃ bs, p.args.encode .svm = .ok bs) ∧
    (∃ p, thirstyRequest.prepare .evm (.zero .evm) true false = .ok p ∧
      p.args.gasLimit.toNat = 2 ^ 256 - 1 ∧ (∃ bs, p.args.encode .sui = .ok bs) ∧
      ¬∃ bs, p.args.encode .svm = .ok bs) ∧
    (∃ fault, prepare { blank with gasLimit := some (BitVec.ofNat 256 (2 ^ 32)) } .svm (.zero .svm)
      true false = .error (.badArgs fault)) ∧
    ∃ fault, prepare { blank with confirmations := some 65536 } .evm (.zero .evm) true false =
      .error (.badArgs fault) := by
  have hsolana : solanaRequest.prepare .svm (.zero .svm) true false =
      .ok ⟨.zero .svm, .svmV1 300000 0 false .zero [.zero]⟩ := by decide +kernel
  have hthirsty : thirstyRequest.prepare .evm (.zero .evm) true false =
      .ok ⟨.zero .evm, .evmV2 (BitVec.allOnes 256) true⟩ := by decide +kernel
  have hshort : solanaRequest.Short := by constructor <;> decide
  have hshort' : thirstyRequest.Short := by constructor <;> decide
  obtain ⟨-, hunits, -, hsvm⟩ := (prepared_gas_exact_and_encodable rfl).1 _ hsolana
  obtain ⟨-, hlimit, hencode, hsvm'⟩ := (prepared_gas_exact_and_encodable rfl).1 _ hthirsty
  refine ⟨⟨_, hsolana, hunits, (hsvm hshort).mpr nofun⟩,
    ⟨_, hthirsty, hlimit, hencode .sui (by decide), fun h => ?_⟩,
    (prepared_gas_exact_and_encodable rfl).2.1 (by decide),
    (prepared_gas_exact_and_encodable rfl).2.2 65536 rfl (by decide)⟩
  exact absurd ((hsvm' hshort').mp h _ _ rfl) (by decide)

end Request

end CrossChain.ExtraArgs
