import CrossChain.ExtraArgs.Codec
import CrossChain.Proofs.Codec.Bcs
import CrossChain.Proofs.Codec.Decoder
/-! The bodies of tagged arguments. The Borsh and BCS layouts read back what they write, and each
layout reads arguments of the variant it is told. -/
namespace CrossChain.ExtraArgs

/-- Every list and byte string is one whose length BCS can read. -/
def Fits : ExtraArgs → Prop
  | .evmV1 _ | .evmV2 .. => True
  | .svmV1 _ _ _ _ accounts => accounts.length ≤ Bcs.Reader.maxLength
  | .suiV1 _ _ _ objectIds => objectIds.length ≤ Bcs.Reader.maxLength
  | .genericV3 _ _ executor executorArgs verifiers verifierArgs receiver tokenArgs =>
    (∀ bs ∈ [executor, executorArgs, receiver, tokenArgs] ++ verifiers ++ verifierArgs,
      bs.length ≤ Bcs.Reader.maxLength) ∧
    verifiers.length ≤ Bcs.Reader.maxLength ∧ verifierArgs.length ≤ Bcs.Reader.maxLength

instance : DecidablePred Fits := fun args => by
  cases args <;> (unfold Fits; infer_instance)

namespace Layout

/-- The bytes behind the tag, if the layout has any. -/
def body? : Layout → ExtraArgs → Option Bytes
  | .abi, args => some args.abiBody
  | .borsh, args => args.borshBody?
  | .bcs, args => args.bcsBody?

theorem encodeBody_eq_ok_iff {layout : Layout} {args : ExtraArgs} {origin : Family}
    {body : Bytes} :
    layout.encodeBody args origin = .ok body ↔ layout.body? args = some body := by
  cases layout with
  | abi => simp [encodeBody, body?]
  | borsh =>
    cases args <;> simp only [encodeBody, body?] <;> try split <;> simp_all
    simp [borshBody?]
  | bcs =>
    simp only [encodeBody, body?]
    cases args.bcsBody? <;> simp

theorem toOption_encodeBody {layout : Layout} {args : ExtraArgs} {origin : Family} :
    (layout.encodeBody args origin).toOption = layout.body? args := by
  cases h : layout.encodeBody args origin with
  | ok body => exact (encodeBody_eq_ok_iff.mp h).symm
  | error e =>
    cases hbody : layout.body? args with
    | none => rfl
    | some body =>
      rw [encodeBody_eq_ok_iff.mpr hbody] at h
      cases h

end Layout

variable {args : ExtraArgs} {body : Bytes}

theorem reads_bcsReader (hfits : args.Fits) (h : args.bcsBody? = some body) :
    Bcs.Reader.Reads (bcsReader args.variant) body (some args) := by
  open Bcs.Reader in
  cases args with
  | evmV1 gas => simp [bcsBody?] at h
  | evmV2 gas outOfOrder =>
    obtain rfl := Option.some.inj h
    exact (reads_u256 gas).bind <| (reads_bool outOfOrder).bind_pure _
  | svmV1 units writable outOfOrder receiver accounts =>
    obtain rfl := Option.some.inj h
    simp only [List.append_assoc]
    exact (reads_u32 units).bind <| (reads_u64 writable).bind <| (reads_bool outOfOrder).bind <|
      (reads_address receiver).bind <| (reads_addresses hfits).bind_pure _
  | suiV1 gas outOfOrder receiver objectIds =>
    obtain rfl := Option.some.inj h
    simp only [List.append_assoc]
    exact (reads_u64 gas).bind <| (reads_bool outOfOrder).bind <|
      (reads_address receiver).bind <| (reads_addresses hfits).bind_pure _
  | genericV3 gas confirmations executor executorArgs verifiers verifierArgs receiver tokenArgs =>
    obtain rfl := Option.some.inj h
    obtain ⟨hbytes, hverifiers, hverifierArgs⟩ := hfits
    simp only [List.append_assoc]
    exact (reads_u32 gas).bind <| (reads_u16 confirmations).bind <|
      (reads_bytes (hbytes executor (by simp))).bind <|
      (reads_bytes (hbytes executorArgs (by simp))).bind <|
      (reads_bytesList hverifiers fun bs hbs => hbytes bs (by simp [hbs])).bind <|
      (reads_bytesList hverifierArgs fun bs hbs => hbytes bs (by simp [hbs])).bind <|
      (reads_bytes (hbytes receiver (by simp))).bind <|
      (reads_bytes (hbytes tokenArgs (by simp))).bind_pure _

theorem gives_bcsReader (v : Variant) :
    Bcs.Reader.Gives (bcsReader v) fun args => ∀ a ∈ args, a.variant = v := by
  cases v <;>
    repeat first
      | exact Bcs.Reader.Gives.pure (by simp [variant])
      | refine Bcs.Reader.Gives.of_next fun _ => ?_

theorem variant_of_bcsDecode {v : Variant} (h : bcsDecode v body = some args) :
    args.variant = v := by
  unfold bcsDecode at h
  split at h
  next a rest hread =>
    have hgives : Bcs.Reader.Gives (do
        let args ← bcsReader v
        Bcs.Reader.finish
        return args : Bcs.Reader (Option ExtraArgs)) fun args => ∀ a ∈ args, a.variant = v :=
      (gives_bcsReader v).bind fun _ ha => .of_next fun _ => .pure ha
    exact hgives _ _ _ hread args h
  next => cases h

theorem gives_abiDecoder (v : Variant) :
    Decoder.Gives (abiDecoder v) fun args => args.variant = v := by
  cases v <;>
    repeat first
      | exact Decoder.Gives.pure rfl
      | refine Decoder.Gives.of_next fun _ => ?_

theorem gives_borshDecoder (v : Variant) :
    Decoder.Gives (borshDecoder v) fun args => args.variant = v := by
  cases v <;>
    repeat first
      | exact Decoder.Gives.fail
      | exact Decoder.Gives.pure rfl
      | refine Decoder.Gives.of_next fun _ => ?_

theorem bcsDecode_bcsBody? (hfits : args.Fits) (h : args.bcsBody? = some body) :
    bcsDecode args.variant body = some args := by
  have hread := reads_bcsReader hfits h []
  rw [List.append_nil] at hread
  rw [bcsDecode, Bcs.Reader.bind_of_ok hread]
  rfl

theorem reads_borshDecoder (h : args.borshBody? = some body) :
    Decoder.Reads (borshDecoder args.variant) body args := by
  open Borsh.Decoder in
  cases args with
  | evmV1 gas => simp [borshBody?] at h
  | evmV2 gas outOfOrder =>
    simp only [borshBody?] at h
    split at h
    next hgas =>
      obtain rfl := Option.some.inj h
      have hwidth : gas.toNat < 256 ^ 16 := by simpa using hgas
      have hread : Decoder.Reads (borshDecoder .evmV2)
          (Bytes.ofNatLE 16 gas.toNat ++ Borsh.bool outOfOrder)
          (.evmV2 (BitVec.ofNat 256 gas.toNat) outOfOrder) :=
        (reads_natural hwidth).bind <| (reads_bool outOfOrder).bind_pure _
      rwa [BitVec.ofNat_toNat, BitVec.setWidth_eq] at hread
    next => cases h
  | svmV1 units writable outOfOrder receiver accounts =>
    obtain ⟨accounts', haccounts, h⟩ := Option.bind_eq_some_iff.mp h
    obtain rfl := Option.some.inj h
    have hread : Decoder.Reads (borshDecoder .svmV1)
        (Bytes.ofNatLE 4 units.toNat ++ (Bytes.ofNatLE 8 writable.toNat ++
          (Borsh.bool outOfOrder ++ (receiver.toBytes ++ accounts'))))
        (.svmV1 (UInt32.ofNat units.toNat) (UInt64.ofNat writable.toNat) outOfOrder receiver
          accounts) :=
      (reads_natural units.toNat_lt).bind <| (reads_natural writable.toNat_lt).bind <|
        (reads_bool outOfOrder).bind <| (Decoder.reads_word receiver).bind <|
        (reads_words haccounts).bind_pure _
    simpa only [variant, List.append_assoc, UInt32.ofNat_toNat, UInt64.ofNat_toNat] using hread
  | suiV1 gas outOfOrder receiver objectIds =>
    obtain ⟨objectIds', hobjectIds, h⟩ := Option.bind_eq_some_iff.mp h
    obtain rfl := Option.some.inj h
    have hread : Decoder.Reads (borshDecoder .suiV1)
        (Bytes.ofNatLE 8 gas.toNat ++ (Borsh.bool outOfOrder ++
          (receiver.toBytes ++ objectIds')))
        (.suiV1 (UInt64.ofNat gas.toNat) outOfOrder receiver objectIds) :=
      (reads_natural gas.toNat_lt).bind <| (reads_bool outOfOrder).bind <|
        (Decoder.reads_word receiver).bind <| (reads_words hobjectIds).bind_pure _
    simpa only [variant, List.append_assoc, UInt64.ofNat_toNat] using hread
  | genericV3 gas confirmations executor executorArgs verifiers verifierArgs receiver tokenArgs =>
    simp only [borshBody?, Option.bind_eq_bind, Option.bind_eq_some_iff, Option.pure_def,
      Option.some.injEq] at h
    obtain ⟨executor', hexecutor, executorArgs', hexecutorArgs, verifiers', hverifiers,
      verifierArgs', hverifierArgs, receiver', hreceiver, tokenArgs', htokenArgs, rfl⟩ := h
    have hread : Decoder.Reads (borshDecoder .genericV3)
        (Bytes.ofNatLE 4 gas.toNat ++ (Bytes.ofNatLE 2 confirmations.toNat ++ (executor' ++
          (executorArgs' ++ (verifiers' ++ (verifierArgs' ++ (receiver' ++ tokenArgs')))))))
        (.genericV3 (UInt32.ofNat gas.toNat) (UInt16.ofNat confirmations.toNat) executor
          executorArgs verifiers verifierArgs receiver tokenArgs) :=
      (reads_natural gas.toNat_lt).bind <| (reads_natural confirmations.toNat_lt).bind <|
        (reads_bytes hexecutor).bind <| (reads_bytes hexecutorArgs).bind <|
        (reads_list (fun _ _ => reads_bytes) hverifiers).bind <|
        (reads_list (fun _ _ => reads_bytes) hverifierArgs).bind <|
        (reads_bytes hreceiver).bind <| (reads_bytes htokenArgs).bind_pure _
    simpa only [variant, List.append_assoc, UInt32.ofNat_toNat, UInt16.ofNat_toNat] using hread

namespace Layout

variable {layout : Layout}

theorem variant_of_decodeBody {v : Variant} (h : layout.decodeBody v body = some args) :
    args.variant = v := by
  cases layout with
  | abi => exact (gives_abiDecoder v).of_run? h
  | borsh => exact (gives_borshDecoder v).of_run? h
  | bcs => exact variant_of_bcsDecode h

theorem accept?_eq_some_iff {v : Variant} : layout.accept? v body = some args ↔
    layout.decodeBody v body = some args ∧ layout.body? args = some body := by
  unfold accept?
  rw [Option.bind_eq_bind, Option.bind_eq_some_iff]
  constructor
  · rintro ⟨a, ha, h⟩
    split at h
    next hbody =>
      cases h
      exact ⟨ha, toOption_encodeBody ▸ hbody⟩
    next => cases h
  · rintro ⟨hdecode, hbody⟩
    exact ⟨args, hdecode, if_pos (toOption_encodeBody.trans hbody)⟩

theorem accept?_borshBody? (h : args.borshBody? = some body) :
    Layout.borsh.accept? args.variant body = some args :=
  accept?_eq_some_iff.mpr ⟨(reads_borshDecoder h).run?_eq, h⟩

theorem accept?_bcsBody? (hfits : args.Fits) (h : args.bcsBody? = some body) :
    Layout.bcs.accept? args.variant body = some args :=
  accept?_eq_some_iff.mpr ⟨bcsDecode_bcsBody? hfits h, h⟩

end Layout

end CrossChain.ExtraArgs
