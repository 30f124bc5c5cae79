import CrossChain.Proofs.Codec.AbiTuple
import CrossChain.Proofs.ExtraArgs.AbiBody
/-! The distances in an ABI body. The layout accepts what is written again as it was read, so any
decoder that gives back what was written accepts the same bodies. One that follows the distances
is such a decoder. -/
namespace CrossChain.ExtraArgs

variable {args : ExtraArgs} {v : Variant} {body : Bytes}

theorem countable_of_length (h : args.abiBody.length < 2 ^ 256) : args.Countable :=
  fun _ hn => (le_length_abiBody hn).trans_lt h

theorem Layout.accept?_abi_eq_filter {read : Bytes → Option ExtraArgs}
    (hvariant : ∀ bs a, read bs = some a → a.variant = v)
    (hread : ∀ a : ExtraArgs, a.variant = v → a.abiBody.length < 2 ^ 256 →
      read a.abiBody = some a)
    (h : body.length < 2 ^ 256) :
    Layout.abi.accept? v body = (read body).filter fun a => a.abiBody = body := by
  apply Option.ext
  intro a
  rw [accept?_eq_some_iff, Option.filter_eq_some_iff]
  constructor
  · rintro ⟨hdecode, hbody⟩
    obtain rfl := Option.some.inj hbody
    exact ⟨hread a (variant_of_decodeBody hdecode) h, by simp⟩
  · rintro ⟨ha, hbody⟩
    obtain rfl := of_decide_eq_true hbody
    rw [← hvariant _ a ha]
    exact ⟨(reads_abiDecoder (countable_of_length h)).run?_eq, rfl⟩

/-- Reads a body by its distances. -/
def distanceDecoder : Variant → Decoder ExtraArgs
  | .evmV1 => abiDecoder .evmV1
  | .evmV2 => abiDecoder .evmV2
  | .svmV1 => Abi.TupleReader.single do
    let units ← .static (Abi.Decoder.uint 32)
    let writable ← .static (Abi.Decoder.uint 64)
    let outOfOrder ← .static Abi.Decoder.bool
    let receiver ← .static Decoder.word
    let accounts ← .dynamic Abi.Decoder.words
    return .svmV1 (UInt32.ofNat units) (UInt64.ofNat writable) outOfOrder receiver accounts
  | .suiV1 => Abi.TupleReader.single do
    let gas ← .static (Abi.Decoder.uint 64)
    let outOfOrder ← .static Abi.Decoder.bool
    let receiver ← .static Decoder.word
    let objectIds ← .dynamic Abi.Decoder.words
    return .suiV1 (UInt64.ofNat gas) outOfOrder receiver objectIds
  | .genericV3 => Abi.TupleReader.single do
    let gas ← .static (Abi.Decoder.uint 32)
    let confirmations ← .static (Abi.Decoder.uint 16)
    let executor ← .dynamic Abi.Decoder.bytes
    let executorArgs ← .dynamic Abi.Decoder.bytes
    let verifiers ← .dynamic (Abi.TupleReader.dynamic Abi.Decoder.bytes).array
    let verifierArgs ← .dynamic (Abi.TupleReader.dynamic Abi.Decoder.bytes).array
    let receiver ← .dynamic Abi.Decoder.bytes
    let tokenArgs ← .dynamic Abi.Decoder.bytes
    return .genericV3 (UInt32.ofNat gas) (UInt16.ofNat confirmations) executor executorArgs
      verifiers verifierArgs receiver tokenArgs

theorem starts_distanceDecoder (h : args.Countable) :
    Abi.Starts (distanceDecoder args.variant) args.abiBody args := by
  open Abi.Decoder in
  cases args with
  | evmV1 gas =>
    have hread := reads_abiDecoder h
    exact Abi.Starts.of_reads hread
  | evmV2 gas outOfOrder =>
    have hread := reads_abiDecoder h
    exact Abi.Starts.of_reads hread
  | svmV1 units writable outOfOrder receiver accounts =>
    have haccounts : accounts.length < 2 ^ 256 := h _ (List.mem_singleton_self _)
    have hstarts : Abi.Starts (distanceDecoder .svmV1)
        (abiBody (.svmV1 units writable outOfOrder receiver accounts))
        (.svmV1 (UInt32.ofNat units.toNat) (UInt64.ofNat writable.toNat) outOfOrder receiver
          accounts) := by
      refine Abi.Follows.single ?_
      exact (Abi.Follows.static (reads_uint units.toNat_lt (by decide))).cons <|
        (Abi.Follows.static (reads_uint writable.toNat_lt (by decide))).cons <|
        (Abi.Follows.static (reads_bool outOfOrder)).cons <|
        (Abi.Follows.static (Decoder.reads_word receiver)).cons <|
        (Abi.Follows.dynamic (.of_reads (reads_words haccounts))).bind_pure _
    rwa [UInt32.ofNat_toNat, UInt64.ofNat_toNat] at hstarts
  | suiV1 gas outOfOrder receiver objectIds =>
    have hobjectIds : objectIds.length < 2 ^ 256 := h _ (List.mem_singleton_self _)
    have hstarts : Abi.Starts (distanceDecoder .suiV1)
        (abiBody (.suiV1 gas outOfOrder receiver objectIds))
        (.suiV1 (UInt64.ofNat gas.toNat) outOfOrder receiver objectIds) := by
      refine Abi.Follows.single ?_
      exact (Abi.Follows.static (reads_uint gas.toNat_lt (by decide))).cons <|
        (Abi.Follows.static (reads_bool outOfOrder)).cons <|
        (Abi.Follows.static (Decoder.reads_word receiver)).cons <|
        (Abi.Follows.dynamic (.of_reads (reads_words hobjectIds))).bind_pure _
    rwa [UInt64.ofNat_toNat] at hstarts
  | genericV3 gas confirmations executor executorArgs verifiers verifierArgs receiver tokenArgs =>
    have hfield : ∀ bs ∈ [executor, executorArgs, receiver, tokenArgs],
        Abi.Follows (.dynamic bytes) [.dynamic (Abi.bytes bs)] bs := fun bs hbs =>
      .dynamic (.of_reads (reads_bytes (h.fields bs hbs)))
    have hlist : ∀ items ∈ [verifiers, verifierArgs],
        Abi.Follows (.dynamic (Abi.TupleReader.dynamic bytes).array)
          [.dynamic (Abi.bytesList items)] items := fun items hitems =>
      .dynamic <| Abi.Follows.array (h.lists items hitems).1 fun bs hbs =>
        .dynamic (.of_reads (reads_bytes ((h.lists items hitems).2 bs hbs)))
    have hstarts : Abi.Starts (distanceDecoder .genericV3)
        (abiBody (.genericV3 gas confirmations executor executorArgs verifiers verifierArgs
          receiver tokenArgs))
        (.genericV3 (UInt32.ofNat gas.toNat) (UInt16.ofNat confirmations.toNat) executor
          executorArgs verifiers verifierArgs receiver tokenArgs) := by
      refine Abi.Follows.single ?_
      exact (Abi.Follows.static (reads_uint gas.toNat_lt (by decide))).cons <|
        (Abi.Follows.static (reads_uint confirmations.toNat_lt (by decide))).cons <|
        (hfield executor (by simp)).cons <| (hfield executorArgs (by simp)).cons <|
        (hlist verifiers (by simp)).cons <| (hlist verifierArgs (by simp)).cons <|
        (hfield receiver (by simp)).cons <| (hfield tokenArgs (by simp)).bind_pure _
    rwa [UInt32.ofNat_toNat, UInt16.ofNat_toNat] at hstarts

theorem gives_distanceDecoder (v : Variant) :
    Decoder.Gives (distanceDecoder v) fun args => args.variant = v := by
  cases v with
  | evmV1 => exact gives_abiDecoder .evmV1
  | evmV2 => exact gives_abiDecoder .evmV2
  | _ =>
    refine Abi.TupleReader.gives_single fun _ => ?_
    repeat first
      | exact Decoder.Gives.pure rfl
      | refine Abi.TupleReader.gives_next fun _ => ?_

/-- The decoder that passes over the distances accepts what one accepts that follows them, in all
bytes that a word can count. -/
theorem accept?_abi_eq_distanceDecoder (v : Variant) (h : body.length < 2 ^ 256) :
    Layout.abi.accept? v body =
      ((distanceDecoder v body).map Prod.fst).filter fun a => a.abiBody = body := by
  have hvariant : ∀ bs a, (distanceDecoder v bs).map Prod.fst = some a → a.variant = v := by
    intro bs a ha
    obtain ⟨⟨a, left⟩, hread, rfl⟩ := Option.map_eq_some_iff.mp ha
    exact gives_distanceDecoder v bs a left hread
  have hread : ∀ a : ExtraArgs, a.variant = v → a.abiBody.length < 2 ^ 256 →
      (distanceDecoder v a.abiBody).map Prod.fst = some a := by
    rintro a rfl hlt
    obtain ⟨left, hleft⟩ := starts_distanceDecoder (countable_of_length hlt) [] (by simpa using hlt)
    rw [List.append_nil] at hleft
    rw [hleft]
    rfl
  exact Layout.accept?_abi_eq_filter hvariant hread h

end CrossChain.ExtraArgs
