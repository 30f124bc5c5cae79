import CrossChain.Proofs.Codec.AbiDecoder
import CrossChain.Proofs.ExtraArgs.Bodies
/-! Bodies in the ABI layout, which are read back as they were written. The decoder passes over
the distances in a body; since a body is only accepted if it is what would be written, a decoder
that follows them accepts no other bodies. -/
namespace CrossChain.ExtraArgs

/-- How long each list and each byte string is. -/
def lengths : ExtraArgs → List Nat
  | .evmV1 _ | .evmV2 .. => []
  | .svmV1 _ _ _ _ accounts => [accounts.length]
  | .suiV1 _ _ _ objectIds => [objectIds.length]
  | .genericV3 _ _ executor executorArgs verifiers verifierArgs receiver tokenArgs =>
    [verifiers.length, verifierArgs.length] ++
      ([executor, executorArgs, receiver, tokenArgs] ++ verifiers ++ verifierArgs).map
        List.length

/-- Every length fits a word, as all do of what fits in a memory. -/
def Countable (args : ExtraArgs) : Prop :=
  ∀ n ∈ args.lengths, n < 2 ^ 256

instance : DecidablePred Countable := fun args =>
  inferInstanceAs (Decidable (∀ n ∈ args.lengths, n < 2 ^ 256))

variable {args : ExtraArgs} {body : Bytes}

theorem fits_iff_lengths : args.Fits ↔ ∀ n ∈ args.lengths, n ≤ Bcs.Reader.maxLength := by
  cases args with
  | evmV1 gas => simp [Fits, lengths]
  | evmV2 gas outOfOrder => simp [Fits, lengths]
  | svmV1 units writable outOfOrder receiver accounts => simp [Fits, lengths]
  | suiV1 gas outOfOrder receiver objectIds => simp [Fits, lengths]
  | genericV3 gas confirmations executor executorArgs verifiers verifierArgs receiver tokenArgs =>
    have hlists : ∀ P : Nat → Prop, (∀ n ∈ [verifiers.length, verifierArgs.length], P n) ↔
        P verifiers.length ∧ P verifierArgs.length := by simp
    refine and_comm.trans (Iff.trans ?_ List.forall_mem_append.symm)
    rw [List.forall_mem_map, hlists]

theorem Fits.countable (h : args.Fits) : args.Countable := fun n hn =>
  (fits_iff_lengths.mp h n hn).trans_lt (by decide)

section Generic

variable {gas : UInt32} {confirmations : UInt16} {executor executorArgs receiver tokenArgs : Bytes}
  {verifiers verifierArgs : List Bytes}

theorem Countable.fields (h : Countable (.genericV3 gas confirmations executor executorArgs
    verifiers verifierArgs receiver tokenArgs)) :
    ∀ bs ∈ [executor, executorArgs, receiver, tokenArgs], bs.length < 2 ^ 256 := by
  intro bs hbs
  have hmem : bs ∈ [executor, executorArgs, receiver, tokenArgs] ++ verifiers ++ verifierArgs :=
    List.mem_append_left _ (List.mem_append_left _ hbs)
  exact h _ (List.mem_append_right _ (List.mem_map_of_mem hmem))

theorem Countable.lists (h : Countable (.genericV3 gas confirmations executor executorArgs
    verifiers verifierArgs receiver tokenArgs)) :
    ∀ items ∈ [verifiers, verifierArgs],
      items.length < 2 ^ 256 ∧ ∀ bs ∈ items, bs.length < 2 ^ 256 := by
  intro items hitems
  refine ⟨h _ (List.mem_append_left _ (List.mem_map_of_mem (f := List.length) hitems)), ?_⟩
  intro bs hbs
  have hmem : bs ∈ [executor, executorArgs, receiver, tokenArgs] ++ verifiers ++ verifierArgs := by
    simp only [List.mem_cons, List.not_mem_nil, or_false] at hitems
    obtain rfl | rfl := hitems
    · exact List.mem_append_left _ (List.mem_append_right _ hbs)
    · exact List.mem_append_right _ hbs
  exact h _ (List.mem_append_right _ (List.mem_map_of_mem hmem))

end Generic

theorem abiBody_svmV1 (units : UInt32) (writable : UInt64) (outOfOrder : Bool)
    (receiver : Bytes32) (accounts : List Bytes32) :
    abiBody (.svmV1 units writable outOfOrder receiver accounts) =
      Abi.word 32 ++ (Abi.word units.toNat ++ (Abi.word writable.toNat ++
        (Abi.bool outOfOrder ++ (receiver.toBytes ++ (Abi.word 160 ++ Abi.words accounts))))) := by
  simp [abiBody, Abi.single_dynamic, Abi.tuple, Abi.heads, Abi.headsLength, Abi.Part.headLength,
    Abi.tails, Abi.Part.tail, Abi.bool]

theorem abiBody_suiV1 (gas : UInt64) (outOfOrder : Bool) (receiver : Bytes32)
    (objectIds : List Bytes32) :
    abiBody (.suiV1 gas outOfOrder receiver objectIds) =
      Abi.word 32 ++ (Abi.word gas.toNat ++ (Abi.bool outOfOrder ++
        (receiver.toBytes ++ (Abi.word 128 ++ Abi.words objectIds)))) := by
  simp [abiBody, Abi.single_dynamic, Abi.tuple, Abi.heads, Abi.headsLength, Abi.Part.headLength,
    Abi.tails, Abi.Part.tail, Abi.bool]

/-- The distances to the six tails of generic arguments take a word each. -/
theorem abiBody_genericV3 (gas : UInt32) (confirmations : UInt16)
    (executor executorArgs : Bytes) (verifiers verifierArgs : List Bytes)
    (receiver tokenArgs : Bytes) :
    ∃ distances : Bytes, distances.length = 32 * 6 ∧
      abiBody (.genericV3 gas confirmations executor executorArgs verifiers verifierArgs receiver
        tokenArgs) =
      Abi.word 32 ++ (Abi.word gas.toNat ++ (Abi.word confirmations.toNat ++ (distances ++
        (Abi.bytes executor ++ (Abi.bytes executorArgs ++ (Abi.bytesList verifiers ++
          (Abi.bytesList verifierArgs ++ (Abi.bytes receiver ++ Abi.bytes tokenArgs)))))))) := by
  let tails := [Abi.bytes executor, Abi.bytes executorArgs, Abi.bytesList verifiers,
    Abi.bytesList verifierArgs, Abi.bytes receiver, Abi.bytes tokenArgs]
  refine ⟨Abi.heads 256 (tails.map .dynamic), ?_, ?_⟩
  · rw [Abi.length_heads]
    rfl
  · simp [abiBody, Abi.single_dynamic, Abi.tuple, Abi.heads, Abi.headsLength,
      Abi.Part.headLength, Abi.tails, Abi.Part.tail, tails]

theorem reads_abiDecoder (h : args.Countable) :
    Decoder.Reads (abiDecoder args.variant) args.abiBody args := by
  open Abi.Decoder in
  cases args with
  | evmV1 gas =>
    have hread : Decoder.Reads (abiDecoder .evmV1) (Abi.word gas.toNat)
        (.evmV1 (BitVec.ofNat 256 gas.toNat)) := (reads_natural gas.isLt).bind_pure _
    rwa [BitVec.ofNat_toNat, BitVec.setWidth_eq] at hread
  | evmV2 gas outOfOrder =>
    have hread : Decoder.Reads (abiDecoder .evmV2) (Abi.word gas.toNat ++ Abi.bool outOfOrder)
        (.evmV2 (BitVec.ofNat 256 gas.toNat) outOfOrder) :=
      (reads_natural gas.isLt).bind <| (reads_bool outOfOrder).bind_pure _
    rwa [BitVec.ofNat_toNat, BitVec.setWidth_eq] at hread
  | svmV1 units writable outOfOrder receiver accounts =>
    have haccounts : accounts.length < 2 ^ 256 := h _ (List.mem_singleton_self _)
    have hread : Decoder.Reads (abiDecoder .svmV1)
        (Abi.word 32 ++ (Abi.word units.toNat ++ (Abi.word writable.toNat ++
          (Abi.bool outOfOrder ++ (receiver.toBytes ++ (Abi.word 160 ++ Abi.words accounts))))))
        (.svmV1 (UInt32.ofNat units.toNat) (UInt64.ofNat writable.toNat) outOfOrder receiver
          accounts) :=
      (reads_offsets (Abi.length_word 32)).bind <|
        (reads_uint units.toNat_lt (by decide)).bind <|
        (reads_uint writable.toNat_lt (by decide)).bind <| (reads_bool outOfOrder).bind <|
        (Decoder.reads_word receiver).bind <| (reads_offsets (Abi.length_word 160)).bind <|
        (reads_words haccounts).bind_pure _
    simpa only [abiBody_svmV1, variant, UInt32.ofNat_toNat, UInt64.ofNat_toNat] using hread
  | suiV1 gas outOfOrder receiver objectIds =>
    have hobjectIds : objectIds.length < 2 ^ 256 := h _ (List.mem_singleton_self _)
    have hread : Decoder.Reads (abiDecoder .suiV1)
        (Abi.word 32 ++ (Abi.word gas.toNat ++ (Abi.bool outOfOrder ++
          (receiver.toBytes ++ (Abi.word 128 ++ Abi.words objectIds)))))
        (.suiV1 (UInt64.ofNat gas.toNat) outOfOrder receiver objectIds) :=
      (reads_offsets (Abi.length_word 32)).bind <|
        (reads_uint gas.toNat_lt (by decide)).bind <| (reads_bool outOfOrder).bind <|
        (Decoder.reads_word receiver).bind <| (reads_offsets (Abi.length_word 128)).bind <|
        (reads_words hobjectIds).bind_pure _
    simpa only [abiBody_suiV1, variant, UInt64.ofNat_toNat] using hread
  | genericV3 gas confirmations executor executorArgs verifiers verifierArgs receiver tokenArgs =>
    obtain ⟨distances, hdistances, hbody⟩ := abiBody_genericV3 gas confirmations executor
      executorArgs verifiers verifierArgs receiver tokenArgs
    have hfields := h.fields
    have hlists := h.lists
    have hread : Decoder.Reads (abiDecoder .genericV3) (abiBody (.genericV3 gas confirmations
          executor executorArgs verifiers verifierArgs receiver tokenArgs))
        (.genericV3 (UInt32.ofNat gas.toNat) (UInt16.ofNat confirmations.toNat) executor
          executorArgs verifiers verifierArgs receiver tokenArgs) := by
      rw [hbody]
      exact (reads_offsets (Abi.length_word 32)).bind <|
        (reads_uint gas.toNat_lt (by decide)).bind <|
        (reads_uint confirmations.toNat_lt (by decide)).bind <|
        (reads_offsets hdistances).bind <|
        (reads_bytes (hfields executor (by simp))).bind <|
        (reads_bytes (hfields executorArgs (by simp))).bind <|
        (reads_bytesList (hlists verifiers (by simp))).bind <|
        (reads_bytesList (hlists verifierArgs (by simp))).bind <|
        (reads_bytes (hfields receiver (by simp))).bind <|
        (reads_bytes (hfields tokenArgs (by simp))).bind_pure _
    rwa [UInt32.ofNat_toNat, UInt16.ofNat_toNat] at hread

theorem dvd_length_abiBody (args : ExtraArgs) : 32 ∣ args.abiBody.length := by
  cases args with
  | evmV1 gas => simp [abiBody]
  | evmV2 gas outOfOrder => simp [abiBody, Abi.bool]
  | svmV1 units writable outOfOrder receiver accounts =>
    rw [abiBody_svmV1]
    simp [Abi.bool, Abi.length_words]
  | suiV1 gas outOfOrder receiver objectIds =>
    rw [abiBody_suiV1]
    simp [Abi.bool, Abi.length_words]
  | genericV3 gas confirmations executor executorArgs verifiers verifierArgs receiver tokenArgs =>
    obtain ⟨distances, hdistances, hbody⟩ := abiBody_genericV3 gas confirmations executor
      executorArgs verifiers verifierArgs receiver tokenArgs
    have hbytes := Abi.dvd_length_bytes
    have hlists := Abi.dvd_length_bytesList
    rw [hbody]
    simp only [List.length_append, Abi.length_word, hdistances, Nat.dvd_add_right, hbytes, hlists,
      dvd_refl, Nat.dvd_mul_right]

/-- No list and no byte string is longer than the body it is written in. -/
theorem le_length_abiBody {n : Nat} (h : n ∈ args.lengths) : n ≤ args.abiBody.length := by
  cases args with
  | evmV1 gas => simp [lengths] at h
  | evmV2 gas outOfOrder => simp [lengths] at h
  | svmV1 units writable outOfOrder receiver accounts =>
    rw [lengths, List.mem_singleton] at h
    rw [abiBody_svmV1]
    simp [Abi.length_words]
    omega
  | suiV1 gas outOfOrder receiver objectIds =>
    rw [lengths, List.mem_singleton] at h
    rw [abiBody_suiV1]
    simp [Abi.length_words]
    omega
  | genericV3 gas confirmations executor executorArgs verifiers verifierArgs receiver tokenArgs =>
    obtain ⟨distances, -, hbody⟩ := abiBody_genericV3 gas confirmations executor executorArgs
      verifiers verifierArgs receiver tokenArgs
    have hlists := Abi.length_le_bytesList
    have hfields := Abi.length_le_bytes
    have hitems : ∀ items, ∀ bs ∈ items, bs.length ≤ (Abi.bytesList items).length :=
      fun _ _ => Abi.length_le_bytesList_of_mem
    rw [hbody]
    simp only [List.length_append]
    simp only [lengths, List.mem_append, List.mem_map, List.mem_cons, List.not_mem_nil,
      or_false] at h
    obtain (rfl | rfl) | ⟨bs, ((rfl | rfl | rfl | rfl) | hbs) | hbs, rfl⟩ := h
    · linarith [hlists verifiers]
    · linarith [hlists verifierArgs]
    · linarith [hfields bs]
    · linarith [hfields bs]
    · linarith [hfields bs]
    · linarith [hfields bs]
    · linarith [hitems verifiers bs hbs]
    · linarith [hitems verifierArgs bs hbs]

end CrossChain.ExtraArgs
