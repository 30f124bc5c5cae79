import CrossChain.Proofs.ExtraArgs.Disjoint
import CrossChain.Proofs.ExtraArgs.Tagged
/-! Arguments from EVM chains, which are written in ABI, and from Solana, which are written in
Borsh. Both are read back as they were written. ABI is tried first, and no Borsh body is one in
ABI. -/
namespace CrossChain.ExtraArgs

variable {args other : ExtraArgs} {body : Bytes}

theorem Layout.accept?_abiBody (h : args.Countable) :
    Layout.abi.accept? args.variant args.abiBody = some args :=
  accept?_eq_some_iff.mpr ⟨(reads_abiDecoder h).run?_eq, rfl⟩

theorem Layout.accept?_abi_borshBody? (h : args.borshBody? = some body) :
    Layout.abi.accept? args.variant body = none := by
  rw [Option.eq_none_iff_forall_ne_some]
  intro a ha
  obtain ⟨hdecode, hbody⟩ := accept?_eq_some_iff.mp ha
  exact abiBody_ne_borshBody (variant_of_decodeBody hdecode) h (Option.some.inj hbody)

theorem layouts_abiBody (args : ExtraArgs) :
    ∃ rest, args.variant.layouts (4 + args.abiBody.length) = .abi :: rest := by
  cases args with
  | evmV1 gas => exact ⟨[], by simp [variant, abiBody, Variant.layouts]⟩
  | evmV2 gas outOfOrder => exact ⟨[], by simp [variant, abiBody, Abi.bool, Variant.layouts]⟩
  | _ => exact ⟨_, rfl⟩

theorem layouts_borshBody? (h : args.borshBody? = some body) :
    args.variant.layouts (4 + body.length) =
      if args.variant = .evmV2 then [.borsh] else [.abi, .borsh, .bcs] := by
  cases args with
  | evmV1 gas => simp [borshBody?] at h
  | evmV2 gas outOfOrder =>
    have hlen : 4 + body.length = 21 := by
      simp only [borshBody?] at h
      split at h
      next =>
        obtain rfl := Option.some.inj h
        simp [Borsh.bool]
      next => cases h
    simp [variant, Variant.layouts, hlen]
  | _ => rfl

theorem decodeWithLayout?_abiBody (h : args.Countable) :
    decodeWithLayout? (args.variant.tag ++ args.abiBody) = some (args, .abi) := by
  obtain ⟨rest, hlayouts⟩ := layouts_abiBody args
  rw [decodeWithLayout?_tag, hlayouts, List.findSome?_cons, Layout.accept?_abiBody h]
  rfl

theorem decodeWithLayout?_borshBody? (h : args.borshBody? = some body) :
    decodeWithLayout? (args.variant.tag ++ body) = some (args, .borsh) := by
  have hborsh := Layout.accept?_borshBody? h
  rw [decodeWithLayout?_tag, layouts_borshBody? h]
  split
  · simp [hborsh]
  · simp [Layout.accept?_abi_borshBody? h, hborsh]

/-- Which arguments Solana has a layout for. -/
theorem exists_borshBody?_iff : (∃ body, args.borshBody? = some body) ↔
    args.variant ≠ .evmV1 ∧
      (∀ gas outOfOrder, args = .evmV2 gas outOfOrder → gas.toNat < 2 ^ 128) ∧ args.Fits := by
  have hle : ∀ n, n < UInt32.size ↔ n ≤ Bcs.Reader.maxLength := fun n =>
    Nat.lt_iff_le_pred (by decide)
  cases args with
  | evmV1 gas => simp [borshBody?, variant]
  | evmV2 gas outOfOrder => simp [borshBody?, variant, Fits]
  | svmV1 units writable outOfOrder receiver accounts =>
    simp [borshBody?, variant, Fits, Option.bind_eq_some_iff, Borsh.exists_words?_iff, hle]
  | suiV1 gas outOfOrder receiver objectIds =>
    simp [borshBody?, variant, Fits, Option.bind_eq_some_iff, Borsh.exists_words?_iff, hle]
  | genericV3 gas confirmations executor executorArgs verifiers verifierArgs receiver tokenArgs =>
    simp [borshBody?, variant, Fits, Option.bind_eq_some_iff, Borsh.exists_bytes?_iff,
      Borsh.exists_list?_iff, hle, or_imp, forall_and]
    tauto

/-- What EVM chains and Solana write is read as what was written. EVM chains can write all
arguments, Solana all but the oldest variant, a gas limit of more than 16 bytes, and lists and
byte strings that are too long. -/
theorem decode_evm_svm_encode (args : ExtraArgs) :
    (args.Countable →
      ∃ bs, args.encode .evm = .ok bs ∧ decodeWithLayout? bs = some (args, .abi)) ∧
    (∀ bs, args.encode .svm = .ok bs → decodeWithLayout? bs = some (args, .borsh)) ∧
    ((∃ e, args.encode .svm = .error e) ↔
      args.variant = .evmV1 ∨
        (∃ gas outOfOrder, args = .evmV2 gas outOfOrder ∧ 2 ^ 128 ≤ gas.toNat) ∨
        ¬args.Fits) := by
  refine ⟨fun hcountable => ?_, fun bs h => ?_, ?_⟩
  · refine ⟨args.variant.tag ++ args.abiBody, ?_, decodeWithLayout?_abiBody hcountable⟩
    exact (encode_eq_ok_tag_iff rfl).mpr ⟨rfl, rfl⟩
  · obtain ⟨body, hbody, rfl⟩ := (encode_eq_ok_iff rfl).mp h
    exact decodeWithLayout?_borshBody? hbody
  · have hnone : args.borshBody? = none ↔ ¬∃ body, args.borshBody? = some body := by
      rw [Option.eq_none_iff_forall_ne_some, not_exists]
    rw [exists_encode_error_iff rfl]
    refine hnone.trans ?_
    rw [exists_borshBody?_iff]
    simp only [not_and_or, not_not, not_forall, not_lt, exists_prop]

/-- Generic arguments with lists in them, one of them empty. -/
def verifiedArgs : ExtraArgs :=
  .genericV3 200000 3 [7] [] [[1, 2], []] [[]] [] [4]

theorem decode_evm_svm_encode_verifiedArgs :
    (∃ bs, verifiedArgs.encode .evm = .ok bs ∧
      decodeWithLayout? bs = some (verifiedArgs, .abi)) ∧
    ∃ bs, verifiedArgs.encode .svm = .ok bs ∧
      decodeWithLayout? bs = some (verifiedArgs, .borsh) :=
  ⟨(decode_evm_svm_encode verifiedArgs).1 (by decide),
    _, rfl, (decode_evm_svm_encode verifiedArgs).2.1 _ rfl⟩

end CrossChain.ExtraArgs
