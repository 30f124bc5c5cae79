import CrossChain.Proofs.ExtraArgs.EvmSolanaOrigin
import CrossChain.Proofs.ExtraArgs.MoveOrigin
/-! The bytes that are read are the bytes that are written. What is read is what every origin with
the layout would write, and all that some origin writes can be read. -/
namespace CrossChain.ExtraArgs

variable {args : ExtraArgs} {layout : Layout} {origin : Family} {bs : Bytes}

theorem encode_of_decodeWithLayout? (h : decodeWithLayout? bs = some (args, layout))
    (horigin : Layout.ofOrigin? origin = some layout) : args.encode origin = .ok bs := by
  obtain ⟨v, body, rfl, haccept⟩ := exists_accept?_of_decodeWithLayout? h
  obtain ⟨hdecode, hbody⟩ := Layout.accept?_eq_some_iff.mp haccept
  exact (encode_eq_ok_tag_iff horigin).mpr ⟨Layout.variant_of_decodeBody hdecode, hbody⟩

theorem isSome_decodeWithLayout?_body? {body : Bytes} (hfits : args.Fits)
    (h : layout.body? args = some body) :
    (decodeWithLayout? (args.variant.tag ++ body)).isSome := by
  cases layout with
  | abi =>
    obtain rfl := Option.some.inj h
    rw [decodeWithLayout?_abiBody hfits.countable, Option.isSome_some]
  | borsh => rw [decodeWithLayout?_borshBody? h, Option.isSome_some]
  | bcs =>
    -- A Borsh body may come first here, but then it is what is read.
    rw [decodeWithLayout?_bcsBody? hfits h]
    split <;> rfl

/-- Bytes are read exactly if some origin writes them, and then as arguments that every origin with
the layout writes as these bytes. -/
theorem decode_accepts_encodings (bs : Bytes) :
    (∀ args layout, decodeWithLayout? bs = some (args, layout) →
      ∀ origin, Layout.ofOrigin? origin = some layout → args.encode origin = .ok bs) ∧
    ∀ (args : ExtraArgs) (origin : Family), args.Fits → args.encode origin = .ok bs →
      (decode? bs).isSome := by
  refine ⟨fun args layout h origin => encode_of_decodeWithLayout? h, ?_⟩
  intro args origin hfits h
  cases horigin : Layout.ofOrigin? origin with
  | none => simp [encode, horigin] at h
  | some layout =>
    obtain ⟨body, hbody, rfl⟩ := (encode_eq_ok_iff horigin).mp h
    rw [decode?, Option.isSome_map]
    exact isSome_decodeWithLayout?_body? hfits hbody

def objectArgs : ExtraArgs :=
  .suiV1 7 true .zero [.zero]

/-- What Aptos writes here is read, and Sui would write it too. -/
theorem decode_accepts_encodings_objectArgs :
    ∃ bs, objectArgs.encode .aptos = .ok bs ∧ (decode? bs).isSome ∧
      objectArgs.encode .sui = .ok bs :=
  ⟨_, rfl, (decode_accepts_encodings _).2 objectArgs .aptos (by decide) rfl,
    (decode_accepts_encodings _).1 objectArgs .bcs (by decide +kernel) .sui rfl⟩

end CrossChain.ExtraArgs
