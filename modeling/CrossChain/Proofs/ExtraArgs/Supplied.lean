import CrossChain.Proofs.ExtraArgs.TokenReceiver
/-! What becomes of the fields that a request supplies. Fields of the generic variant, and a token
receiver, always reach the arguments; the others do so unless a generic field displaces the variant
of the destination. Without a generic field, one that this variant does not have is refused; beside
a generic field it is lost, and so is a request for execution in order. -/
namespace CrossChain.ExtraArgs

def computeUnits? : ExtraArgs → Option Nat
  | .svmV1 units .. => some units.toNat
  | _ => none

def writable? : ExtraArgs → Option UInt64
  | .svmV1 _ writable .. => some writable
  | _ => none

def accounts? : ExtraArgs → Option (List Bytes32)
  | .svmV1 _ _ _ _ accounts => some accounts
  | _ => none

def objectIds? : ExtraArgs → Option (List Bytes32)
  | .suiV1 _ _ _ objectIds => some objectIds
  | _ => none

def confirmations? : ExtraArgs → Option Nat
  | .genericV3 _ confirmations .. => some confirmations.toNat
  | _ => none

def executor? : ExtraArgs → Option Bytes
  | .genericV3 _ _ executor .. => some executor
  | _ => none

def executorArgs? : ExtraArgs → Option Bytes
  | .genericV3 _ _ _ executorArgs .. => some executorArgs
  | _ => none

def verifiers? : ExtraArgs → Option (List Bytes)
  | .genericV3 _ _ _ _ verifiers .. => some verifiers
  | _ => none

def verifierArgs? : ExtraArgs → Option (List Bytes)
  | .genericV3 _ _ _ _ _ verifierArgs .. => some verifierArgs
  | _ => none

def tokenArgs? : ExtraArgs → Option Bytes
  | .genericV3 _ _ _ _ _ _ _ tokenArgs => some tokenArgs
  | _ => none

/-- What stands for the token receiver, be it zero or empty. -/
def namedReceiver? : ExtraArgs → Option Bytes
  | .svmV1 _ _ _ receiver _ => some receiver.toBytes
  | .suiV1 _ _ receiver _ => some receiver.toBytes
  | .genericV3 _ _ _ _ _ _ receiver _ => some receiver
  | _ => none

/-- The fields that only the generic variant has, and the token receiver, stand in the arguments as
the request has them, texts as the accounts of the destination that they spell. -/
structure CarriesGeneric (args : ExtraArgs) (r : Request) (dest : Family) : Prop where
  confirmations : ∀ n, r.confirmations = some n → args.confirmations? = some n.toNat
  executor : ∀ s, r.executor = some s →
    ∃ bs, Request.parseAccount dest s = .ok bs ∧ args.executor? = some bs
  executorArgs : ∀ bs, r.executorArgs = some bs → args.executorArgs? = some bs
  verifiers : ∀ names, r.verifiers = some names →
    ∃ accounts, names.mapM (Request.parseAccount dest) = .ok accounts ∧
      args.verifiers? = some accounts
  verifierArgs : ∀ bss, r.verifierArgs = some bss → args.verifierArgs? = some bss
  tokenArgs : ∀ bs, r.tokenArgs = some bs → args.tokenArgs? = some bs
  tokenReceiver : ∀ s, r.tokenReceiver = some s →
    ∃ bs, Request.parseAccount dest s = .ok bs ∧ args.namedReceiver? = some bs

/-- The fields of Solana and Sui, and the flag for the order of execution, stand in the arguments as
the request has them. -/
structure CarriesNative (args : ExtraArgs) (r : Request) (dest : Family) : Prop where
  computeUnits : ∀ n, r.computeUnits = some n → args.computeUnits? = some n.toNat
  writable : ∀ n, r.writable = some n → args.writable? = some n
  accounts : ∀ names, r.accounts = some names →
    ∃ words, names.mapM (Request.parseWord dest) = .ok words ∧ args.accounts? = some words
  objectIds : ∀ names, r.objectIds = some names →
    ∃ words, names.mapM (Request.parseWord dest) = .ok words ∧ args.objectIds? = some words
  outOfOrder : ∀ b, r.outOfOrder = some b → args.outOfOrder = b

namespace Request

variable {r : Request} {dest : Family} {receiver : Address} {gas : U256} {hasTokens : Bool}

theorem fitting_eq_ok_iff {field : String} {bits n m : Nat} :
    fitting field bits n = .ok m ↔ n < 1 <<< bits ∧ n = m := by
  unfold fitting
  split
  next h => simp [h]
  next h => simp [h]

theorem fitting_eq_error {field : String} {bits n : Nat} (h : 2 ^ bits ≤ n) :
    fitting field bits n = .error (.badArgs (.tooWide field n bits)) := by
  rw [fitting, Nat.one_shiftLeft, if_neg (Nat.not_lt.mpr h)]

/-- A number that is not cut to the width of its field. -/
theorem toNat_ofNat_of_fitting {field : String} {n m : Nat} (h : fitting field 32 n = .ok m) :
    (UInt32.ofNat m).toNat = n := by
  obtain ⟨hn, rfl⟩ := fitting_eq_ok_iff.mp h
  exact UInt32.toNat_ofNat_of_lt' hn

theorem isGeneric_eq_false_iff : r.isGeneric = false ↔ r.confirmations = none ∧
    r.executor = none ∧ r.executorArgs = none ∧ r.verifiers = none ∧ r.verifierArgs = none ∧
      r.tokenArgs = none := by
  simp [isGeneric, Bool.or_eq_false_iff, and_assoc]

theorem isSolana_eq_false_iff :
    r.isSolana = false ↔ r.computeUnits = none ∧ r.writable = none ∧ r.accounts = none := by
  simp [isSolana, Bool.or_eq_false_iff, and_assoc]

theorem carriesGeneric_of_generic {args : ExtraArgs} (h : r.generic dest gas = .ok args) :
    args.CarriesGeneric r dest ∧ args.variant = .genericV3 := by
  unfold generic at h
  obtain ⟨limit, -, h⟩ := Except.bind_eq_ok_iff.mp h
  obtain ⟨confirmations, hconfirmations, h⟩ := Except.bind_eq_ok_iff.mp h
  obtain ⟨executor, hexecutor, h⟩ := Except.bind_eq_ok_iff.mp h
  obtain ⟨verifiers, hverifiers, h⟩ := Except.bind_eq_ok_iff.mp h
  obtain ⟨tokenReceiver, htokenReceiver, ⟨⟩⟩ := Except.bind_eq_ok_iff.mp h
  refine ⟨⟨fun n hn => ?_, fun s hs => ?_, fun bs hbs => ?_, fun names hnames => ?_,
    fun bss hbss => ?_, fun bs hbs => ?_, fun s hs => ?_⟩, rfl⟩
  · rw [hn] at hconfirmations
    obtain ⟨hlt, rfl⟩ := fitting_eq_ok_iff.mp hconfirmations
    exact congrArg some (UInt16.toNat_ofNat_of_lt' hlt)
  · rw [hs] at hexecutor
    exact ⟨executor, hexecutor, rfl⟩
  · rw [hbs]
    rfl
  · rw [hnames] at hverifiers
    exact ⟨verifiers, hverifiers, rfl⟩
  · rw [hbss]
    rfl
  · rw [hbs]
    rfl
  · rw [hs] at htokenReceiver
    exact ⟨tokenReceiver, htokenReceiver, rfl⟩

/-- Without fields of Solana and Sui, only the order of execution is left to be kept. -/
theorem carriesNative_of_outOfOrder {args : ExtraArgs} (hsolana : r.isSolana = false)
    (hobjects : r.objectIds = none) (h : ∀ b, r.outOfOrder = some b → args.outOfOrder = b) :
    args.CarriesNative r dest := by
  obtain ⟨hunits, hwritable, haccounts⟩ := isSolana_eq_false_iff.mp hsolana
  exact {
    computeUnits := by simp [hunits]
    writable := by simp [hwritable]
    accounts := by simp [haccounts]
    objectIds := by simp [hobjects]
    outOfOrder := h }

theorem carriesNative_iff_of_generic {args : ExtraArgs} (h : args.variant = .genericV3) :
    args.CarriesNative r dest ↔
      r.isSolana = false ∧ r.objectIds = none ∧ r.outOfOrder ≠ some false := by
  cases args with
  | genericV3 =>
    constructor
    -- No field of Solana or Sui has a place here, so the request must not have supplied it.
    · rintro ⟨hunits, hwritable, haccounts, hobjects, horder⟩
      refine ⟨isSolana_eq_false_iff.mpr ⟨?_, ?_, ?_⟩, ?_, fun hfalse => nomatch horder false hfalse⟩
      · exact Option.eq_none_iff_forall_ne_some.mpr fun n hn => nomatch hunits n hn
      · exact Option.eq_none_iff_forall_ne_some.mpr fun n hn => nomatch hwritable n hn
      · refine Option.eq_none_iff_forall_ne_some.mpr fun names hnames => ?_
        obtain ⟨_, -, hnone⟩ := haccounts names hnames
        cases hnone
      · refine Option.eq_none_iff_forall_ne_some.mpr fun names hnames => ?_
        obtain ⟨_, -, hnone⟩ := hobjects names hnames
        cases hnone
    · rintro ⟨hsolana, hobjects, horder⟩
      refine carriesNative_of_outOfOrder hsolana hobjects fun b hb => ?_
      cases b with
      | false => exact absurd hb horder
      | true => rfl
  | _ => cases h

/-- Whether or not there are tokens, a token receiver that the request names is kept. -/
theorem named_of_splitReceiver {zeroed : Address} {w : Bytes32} {s : String}
    (hevm : receiver.family ≠ .evm) (hs : r.tokenReceiver = some s)
    (h : r.splitReceiver receiver hasTokens = .ok (zeroed, w)) :
    parseAccount receiver.family s = .ok w.toBytes := by
  refine parseAccount_of_parseWord hevm ?_
  unfold splitReceiver at h
  obtain ⟨explicit, hexplicit, h⟩ := Except.bind_eq_ok_iff.mp h
  rw [hs] at hexplicit
  obtain ⟨named, hnamed, ⟨⟩⟩ := Except.map_eq_ok_iff.mp hexplicit
  cases hasTokens with
  | false =>
    cases h
    exact hnamed
  | true =>
    obtain ⟨_, ⟨⟩, h⟩ := Except.bind_eq_ok_iff.mp h
    obtain ⟨-, ⟨⟩⟩ := Except.guard_eq_ok_iff.mp h
    exact hnamed

/-- A request without generic fields has nothing for the generic variant but a token receiver. -/
theorem carriesGeneric_of_tokenReceiver {args : ExtraArgs} (hgeneric : r.isGeneric = false)
    (h : ∀ s, r.tokenReceiver = some s →
      ∃ bs, parseAccount dest s = .ok bs ∧ args.namedReceiver? = some bs) :
    args.CarriesGeneric r dest := by
  obtain ⟨hconfirmations, hexecutor, hexecutorArgs, hverifiers, hverifierArgs, htokenArgs⟩ :=
    isGeneric_eq_false_iff.mp hgeneric
  exact {
    confirmations := by simp [hconfirmations]
    executor := by simp [hexecutor]
    executorArgs := by simp [hexecutorArgs]
    verifiers := by simp [hverifiers]
    verifierArgs := by simp [hverifierArgs]
    tokenArgs := by simp [htokenArgs]
    tokenReceiver := h }

theorem outOfOrder_of_inOrder {b : Bool} (h : r.outOfOrder = some b) : r.inOrder = b := by
  rw [inOrder, h]
  rfl

theorem carries_of_prepareEvm {p : Prepared} (hgeneric : r.isGeneric = false)
    (hsolana : r.isSolana = false) (hobjects : r.objectIds = none)
    (h : r.prepareEvm dest receiver gas = .ok p) :
    p.args.CarriesGeneric r dest ∧ p.args.CarriesNative r dest := by
  unfold prepareEvm at h
  split at h
  next => cases h
  next hreceiver =>
    cases h
    refine ⟨carriesGeneric_of_tokenReceiver hgeneric fun s hs => ?_,
      carriesNative_of_outOfOrder hsolana hobjects fun b hb => outOfOrder_of_inOrder hb⟩
    rw [hs] at hreceiver
    exact absurd rfl hreceiver

theorem carries_of_prepareSolana {p : Prepared} (hgeneric : r.isGeneric = false)
    (hobjects : r.objectIds = none) (hfamily : receiver.family = .svm)
    (h : r.prepareSolana receiver gas hasTokens = .ok p) :
    p.args.CarriesGeneric r .svm ∧ p.args.CarriesNative r .svm := by
  unfold prepareSolana at h
  obtain ⟨units, hunits, h⟩ := Except.bind_eq_ok_iff.mp h
  obtain ⟨accounts, haccounts, h⟩ := Except.bind_eq_ok_iff.mp h
  obtain ⟨⟨zeroed, w⟩, hsplit, ⟨⟩⟩ := Except.bind_eq_ok_iff.mp h
  refine ⟨carriesGeneric_of_tokenReceiver hgeneric fun s hs => ?_, ?_⟩
  · have hnamed := named_of_splitReceiver (by simp [hfamily]) hs hsplit
    rw [hfamily] at hnamed
    exact ⟨_, hnamed, rfl⟩
  · refine ⟨fun n hn => ?_, fun n hn => ?_, fun names hnames => ?_, by simp [hobjects],
      fun b hb => outOfOrder_of_inOrder hb⟩
    · rw [hn] at hunits
      exact congrArg some (toNat_ofNat_of_fitting hunits)
    · rw [hn]
      rfl
    · rw [hnames] at haccounts
      exact ⟨accounts, haccounts, rfl⟩

theorem carries_of_prepareSui {p : Prepared} (hgeneric : r.isGeneric = false)
    (hsolana : r.isSolana = false) (hfamily : receiver.family = .sui)
    (h : r.prepareSui receiver gas hasTokens = .ok p) :
    p.args.CarriesGeneric r .sui ∧ p.args.CarriesNative r .sui := by
  obtain ⟨hunits, hwritable, haccounts⟩ := isSolana_eq_false_iff.mp hsolana
  unfold prepareSui at h
  obtain ⟨limit, -, h⟩ := Except.bind_eq_ok_iff.mp h
  obtain ⟨objectIds, hobjectIds, h⟩ := Except.bind_eq_ok_iff.mp h
  obtain ⟨⟨zeroed, w⟩, hsplit, ⟨⟩⟩ := Except.bind_eq_ok_iff.mp h
  refine ⟨carriesGeneric_of_tokenReceiver hgeneric fun s hs => ?_, ?_⟩
  · have hnamed := named_of_splitReceiver (by simp [hfamily]) hs hsplit
    rw [hfamily] at hnamed
    exact ⟨_, hnamed, rfl⟩
  · refine ⟨by simp [hunits], by simp [hwritable], by simp [haccounts], fun names hnames => ?_,
      fun b hb => outOfOrder_of_inOrder hb⟩
    rw [hnames] at hobjectIds
    exact ⟨objectIds, hobjectIds, rfl⟩

theorem carries_of_native {p : Prepared} (hgeneric : r.isGeneric = false)
    (hsolana : r.isSolana → dest = .svm) (hobjects : r.objectIds.isSome → dest = .sui)
    (hfamily : receiver.family = dest) (h : r.native dest receiver gas hasTokens = .ok p) :
    p.args.CarriesGeneric r dest ∧ p.args.CarriesNative r dest := by
  have hsolana' (hne : dest ≠ .svm) : r.isSolana = false :=
    Bool.eq_false_iff.mpr fun hr => hne (hsolana hr)
  have hobjects' (hne : dest ≠ .sui) : r.objectIds = none :=
    Option.not_isSome_iff_eq_none.mp fun hr => hne (hobjects hr)
  cases dest with
  | evm | aptos | ton =>
    exact carries_of_prepareEvm hgeneric (hsolana' nofun) (hobjects' nofun) h
  | svm => exact carries_of_prepareSolana hgeneric (hobjects' nofun) hfamily h
  | sui => exact carries_of_prepareSui hgeneric (hsolana' nofun) hfamily h

/-- What is wrong with fields that the variant of the destination does not have, in the order in
which it is looked for. -/
def misplaced (r : Request) (dest : Family) : List ArgsFault :=
  (if r.isSolana ∧ dest ≠ .svm then [.solanaFields dest] else []) ++
    (if r.objectIds.isSome ∧ dest ≠ .sui then [.objectIds dest] else []) ++
      if r.tokenReceiver.isSome ∧ dest ≠ .svm ∧ dest ≠ .sui then [.tokenReceiver dest] else []

theorem native_eq_error (hreceiver : r.tokenReceiver.isSome) (hsvm : dest ≠ .svm)
    (hsui : dest ≠ .sui) :
    r.native dest receiver gas hasTokens = .error (.badArgs (.tokenReceiver dest)) := by
  have hevm : r.prepareEvm dest receiver gas = .error (.badArgs (.tokenReceiver dest)) := by
    rw [prepareEvm, if_pos hreceiver]
  cases dest with
  | evm | aptos | ton => exact hevm
  | svm => exact absurd rfl hsvm
  | sui => exact absurd rfl hsui

theorem prepare_of_not_generic {hasData : Bool} (hfamily : receiver.family = dest)
    (hgeneric : r.isGeneric = false) : r.prepare dest receiver hasData hasTokens =
      if r.isSolana ∧ dest ≠ .svm then .error (.badArgs (.solanaFields dest))
      else if r.objectIds.isSome ∧ dest ≠ .sui then .error (.badArgs (.objectIds dest))
      else r.native dest receiver (r.gas hasData) hasTokens := by
  unfold prepare
  rw [if_neg (not_not.mpr hfamily)]
  dsimp only
  rw [if_neg (Bool.eq_false_iff.mp hgeneric)]
  split
  next => rfl
  split
  next => rfl
  next => rfl

theorem prepare_of_generic {hasData : Bool} (hfamily : receiver.family = dest)
    (hgeneric : r.isGeneric = true) : r.prepare dest receiver hasData hasTokens =
      (r.generic dest (r.gas hasData)).map (⟨receiver, ·⟩) := by
  unfold prepare
  rw [if_neg (not_not.mpr hfamily)]
  dsimp only
  rw [if_pos hgeneric]
  rfl

theorem prepare_of_misplaced {hasData : Bool} {fault : ArgsFault}
    (hfamily : receiver.family = dest) (hgeneric : r.isGeneric = false)
    (h : (r.misplaced dest).head? = some fault) :
    r.prepare dest receiver hasData hasTokens = .error (.badArgs fault) := by
  rw [prepare_of_not_generic hfamily hgeneric]
  unfold misplaced at h
  split
  next hsolana =>
    rw [if_pos hsolana] at h
    cases h
    rfl
  next hsolana =>
    rw [if_neg hsolana, List.nil_append] at h
    split
    next hobjects =>
      rw [if_pos hobjects] at h
      cases h
      rfl
    next hobjects =>
      rw [if_neg hobjects, List.nil_append] at h
      split at h
      next hreceiver =>
        cases h
        exact native_eq_error hreceiver.1 hreceiver.2.1 hreceiver.2.2
      next => cases h

/-- What a granted request keeps of what it supplies, and when that is all: a field of Solana or Sui
and an order of execution are kept unless a generic field stands beside them. Without generic fields
a request with a misplaced field is refused. -/
theorem supplied_fields_kept {r : Request} {dest : Family} {receiver : Address}
    {hasData hasTokens : Bool} (hfamily : receiver.family = dest) :
    (∀ p, r.prepare dest receiver hasData hasTokens = .ok p →
      p.args.CarriesGeneric r dest ∧
        (p.args.CarriesNative r dest ↔ (r.isGeneric = true →
          r.isSolana = false ∧ r.objectIds = none ∧ r.outOfOrder ≠ some false)) ∧
        (r.isGeneric = true → p.args.variant = .genericV3 ∧ p.args.outOfOrder = true)) ∧
    (r.isGeneric = false → ∀ fault, (r.misplaced dest).head? = some fault →
      r.prepare dest receiver hasData hasTokens = .error (.badArgs fault)) := by
  refine ⟨fun p h => ?_, fun hgeneric fault h => prepare_of_misplaced hfamily hgeneric h⟩
  obtain ⟨-, ⟨hgeneric, args, hargs, rfl⟩ | ⟨hgeneric, hsolana, hobjects, hnative⟩⟩ :=
    prepare_eq_ok h
  · obtain ⟨hcarries, hvariant⟩ := carriesGeneric_of_generic hargs
    refine ⟨hcarries, ?_, fun _ => ⟨hvariant, ?_⟩⟩
    · rw [carriesNative_iff_of_generic hvariant, forall_prop_of_true hgeneric]
    · cases args with
      | genericV3 => rfl
      | _ => cases hvariant
  · obtain ⟨hcarries, hcarriesNative⟩ :=
      carries_of_native hgeneric hsolana hobjects hfamily hnative
    have hnot : ¬ r.isGeneric = true := by simp [hgeneric]
    exact ⟨hcarries, iff_of_true hcarriesNative fun htrue => absurd htrue hnot,
      fun htrue => absurd htrue hnot⟩

/-- Asks for compute units, for an account and for execution in order. -/
def solanaRequest : Request :=
  { blank with
    outOfOrder := some false
    computeUnits := some 300000
    accounts := some ["11111111111111111111111111111111"] }

/-- On Solana the request is granted as it is; elsewhere it is refused. -/
theorem solanaRequest_kept :
    (∃ p, solanaRequest.prepare .svm (.zero .svm) true false = .ok p ∧
      p.args.CarriesGeneric solanaRequest .svm ∧ p.args.CarriesNative solanaRequest .svm) ∧
    solanaRequest.prepare .evm (.zero .evm) true false =
      .error (.badArgs (.solanaFields .evm)) := by
  have hprepare : solanaRequest.prepare .svm (.zero .svm) true false =
      .ok ⟨.zero .svm, .svmV1 300000 0 false .zero [.zero]⟩ := by decide +kernel
  obtain ⟨hgeneric, hnative, -⟩ := (supplied_fields_kept rfl).1 _ hprepare
  exact ⟨⟨_, hprepare, hgeneric, hnative.mpr nofun⟩, (supplied_fields_kept rfl).2 rfl _ rfl⟩

/-- Beside a generic field, compute units are lost without an error on the family that has them, and
so is the request for execution in order; on another family they are lost where they would be
refused without that field. -/
theorem generic_field_drops_order_and_units :
    prepare { solanaRequest with accounts := none, confirmations := some 5 } .svm (.zero .svm)
      false false = .ok ⟨.zero .svm, .genericV3 0 5 [] [] [] [] [] []⟩ ∧
    (genericV3 0 5 [] [] [] [] [] []).outOfOrder ≠ false ∧
    (genericV3 0 5 [] [] [] [] [] []).computeUnits? ≠ some 300000 ∧
    prepare { blank with computeUnits := some 1 } .evm (.zero .evm) true false =
      .error (.badArgs (.solanaFields .evm)) ∧
    prepare { blank with computeUnits := some 1, confirmations := some 5 } .evm (.zero .evm) true
      false = .ok ⟨.zero .evm, .genericV3 200000 5 [] [] [] [] [] []⟩ :=
  ⟨by decide, by decide, nofun, by decide, by decide⟩

end Request

end CrossChain.ExtraArgs
