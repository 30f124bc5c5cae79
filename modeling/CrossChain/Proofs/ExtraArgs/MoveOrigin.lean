import CrossChain.Proofs.ExtraArgs.Disjoint
import CrossChain.Proofs.ExtraArgs.Tagged
/-! Arguments from Aptos and Sui, which are written in BCS. They are read back as they were
written, unless a message from Solana could carry the same bytes. Only generic arguments leave
room for that, and then it is the arguments of the Solana message that are read. BCS by itself loses
nothing: different arguments never give the same bytes. -/
namespace CrossChain.ExtraArgs

variable {args other : ExtraArgs} {origin : Family} {body : Bytes}

theorem exists_bcsBody? (h : args.variant ≠ .evmV1) : ∃ body, args.bcsBody? = some body := by
  cases args with
  | evmV1 gas => exact absurd rfl h
  | _ => exact ⟨_, rfl⟩

theorem ofOrigin?_of_isMove (h : origin.isMove) : Layout.ofOrigin? origin = some .bcs := by
  cases origin <;> first | rfl | cases h

theorem layouts_bcsBody? (h : args.bcsBody? = some body) :
    args.variant.layouts (4 + body.length) =
      if args.variant = .evmV2 then [.bcs] else [.abi, .borsh, .bcs] := by
  cases args with
  | evmV1 gas => simp [bcsBody?] at h
  | evmV2 gas outOfOrder =>
    have hlen : 4 + body.length = 37 := by
      rw [← Option.some.inj h]
      simp [Bcs.u256, Bcs.bool]
    simp [variant, Variant.layouts, hlen]
  | _ => rfl

theorem accept?_abi_bcsBody? (hfits : args.Fits) (h : args.bcsBody? = some body) :
    Layout.abi.accept? args.variant body = none := by
  rw [Option.eq_none_iff_forall_not_mem]
  intro a ha
  obtain ⟨hdecode, hbody⟩ := Layout.accept?_eq_some_iff.mp ha
  exact abiBody_ne_bcsBody (Layout.variant_of_decodeBody hdecode) hfits h (Option.some.inj hbody)

theorem accept?_borsh_bcsBody? (hfits : args.Fits) (h : args.bcsBody? = some body)
    (hother : Layout.borsh.accept? args.variant body = some other) :
    args.variant = .genericV3 := by
  obtain ⟨hdecode, hbody⟩ := Layout.accept?_eq_some_iff.mp hother
  exact generic_of_borshBody?_eq (Layout.variant_of_decodeBody hdecode) hfits hbody h

/-- Borsh is the only layout that may come before BCS. -/
theorem decodeWithLayout?_bcsBody? (hfits : args.Fits) (h : args.bcsBody? = some body) :
    decodeWithLayout? (args.variant.tag ++ body) =
      match Layout.borsh.accept? args.variant body with
      | some other => some (other, .borsh)
      | none => some (args, .bcs) := by
  have hbcs := Layout.accept?_bcsBody? hfits h
  rw [decodeWithLayout?_tag, layouts_bcsBody? h]
  split
  next hevm =>
    cases hborsh : Layout.borsh.accept? args.variant body with
    | some other =>
      have := accept?_borsh_bcsBody? hfits h hborsh
      rw [hevm] at this
      cases this
    | none => simp [hbcs]
  next =>
    simp only [List.findSome?_cons, accept?_abi_bcsBody? hfits h, Option.map_none]
    cases Layout.borsh.accept? args.variant body <;> simp [hbcs]

/-- What a chain of the Move family writes is read as what was written exactly if no message from
Solana carries the same bytes. Otherwise both arguments are generic ones, and those of the
Solana message are read. -/
theorem decode_move_encode_iff (hmove : origin.isMove) (hvariant : args.variant ≠ .evmV1)
    (hfits : args.Fits) :
    ∃ bs, args.encode origin = .ok bs ∧
      (decodeWithLayout? bs = some (args, .bcs) ↔
        ¬∃ other : ExtraArgs, other.encode .svm = .ok bs) ∧
      ∀ other : ExtraArgs, other.encode .svm = .ok bs →
        args.variant = .genericV3 ∧ other.variant = .genericV3 ∧
          decodeWithLayout? bs = some (other, .borsh) := by
  obtain ⟨body, hbody⟩ := exists_bcsBody? hvariant
  have horigin := ofOrigin?_of_isMove hmove
  -- A message from Solana carries these bytes if and only if Borsh accepts what is behind the tag.
  have hsolana : ∀ other : ExtraArgs, other.encode .svm = .ok (args.variant.tag ++ body) ↔
      Layout.borsh.accept? args.variant body = some other := by
    intro other
    rw [encode_eq_ok_tag_iff rfl]
    constructor
    · rintro ⟨hv, hother⟩
      rw [← hv]
      exact Layout.accept?_borshBody? hother
    · intro h
      obtain ⟨hdecode, hother⟩ := Layout.accept?_eq_some_iff.mp h
      exact ⟨Layout.variant_of_decodeBody hdecode, hother⟩
  refine ⟨args.variant.tag ++ body, (encode_eq_ok_tag_iff horigin).mpr ⟨rfl, hbody⟩, ?_, ?_⟩
  · simp only [hsolana, decodeWithLayout?_bcsBody? hfits hbody]
    cases Layout.borsh.accept? args.variant body <;> simp
  · intro other hother
    have haccept := (hsolana other).mp hother
    have hgeneric := accept?_borsh_bcsBody? hfits hbody haccept
    refine ⟨hgeneric, ?_, ?_⟩
    · rw [← hgeneric]
      exact Layout.variant_of_decodeBody (Layout.accept?_eq_some_iff.mp haccept).1
    · rw [decodeWithLayout?_bcsBody? hfits hbody, haccept]

/-- Generic arguments with an executor of three zeros. In BCS a length takes one byte, so the
three zeros stand where Borsh has the rest of its length. -/
def zeroArgs : ExtraArgs :=
  .genericV3 0 0 [0, 0, 0] (List.replicate 18 0) [] [] [] []

def zeroArgsOfBorsh : ExtraArgs :=
  .genericV3 0 0 [18, 0, 0] [] [] [] [] []

theorem zeroArgs_round_trip_iff :
    ∃ bs, zeroArgs.encode .aptos = .ok bs ∧
      (decodeWithLayout? bs = some (zeroArgs, .bcs) ↔
        ¬∃ other : ExtraArgs, other.encode .svm = .ok bs) ∧
      ∀ other : ExtraArgs, other.encode .svm = .ok bs →
        zeroArgs.variant = .genericV3 ∧ other.variant = .genericV3 ∧
          decodeWithLayout? bs = some (other, .borsh) :=
  decode_move_encode_iff rfl (by decide) (by decide)

theorem zeroArgs_not_round_trip :
    zeroArgs.variant ≠ .evmV1 ∧ zeroArgs.Fits ∧ ∃ bs, zeroArgs.encode .aptos = .ok bs ∧
      decodeWithLayout? bs = some (zeroArgsOfBorsh, .borsh) ∧
      decodeWithLayout? bs ≠ some (zeroArgs, .bcs) :=
  ⟨by decide, by decide, _, rfl, by decide +kernel, by decide +kernel⟩

/-- BCS by itself loses nothing. Told the tag, it reads back what it wrote, and two messages from
chains of the Move family never carry the same bytes for different arguments. -/
theorem move_layout_loses_nothing (hvariant : args.variant ≠ .evmV1) (hfits : args.Fits) :
    (∃ body,
      (∀ origin, Layout.bcs.encodeBody args origin = .ok body) ∧
      (∀ origin : Family, origin.isMove → args.encode origin = .ok (args.variant.tag ++ body)) ∧
      (Variant.ofTag? args.variant.tag).bind (fun v => Layout.bcs.decodeBody v body) =
        some args) ∧
    ∀ other : ExtraArgs, other.variant ≠ .evmV1 → other.Fits →
      ∀ origin otherOrigin : Family, origin.isMove → otherOrigin.isMove →
        args.encode origin = other.encode otherOrigin → args = other := by
  obtain ⟨body, hbody⟩ := exists_bcsBody? hvariant
  have hdecode := bcsDecode_bcsBody? hfits hbody
  have hencode : ∀ origin : Family, origin.isMove →
      args.encode origin = .ok (args.variant.tag ++ body) := fun origin hmove =>
    (encode_eq_ok_tag_iff (ofOrigin?_of_isMove hmove)).mpr ⟨rfl, hbody⟩
  constructor
  · refine ⟨body, fun origin => Layout.encodeBody_eq_ok_iff.mpr hbody, hencode, ?_⟩
    rw [Variant.ofTag?_tag]
    exact hdecode
  · intro other _ hother origin otherOrigin hmove hotherMove h
    rw [hencode origin hmove] at h
    obtain ⟨hsame, hotherBody⟩ :=
      (encode_eq_ok_tag_iff (ofOrigin?_of_isMove hotherMove)).mp h.symm
    have hotherDecode := bcsDecode_bcsBody? hother hotherBody
    rw [hsame, hdecode] at hotherDecode
    exact Option.some.inj hotherDecode

theorem zeroArgs_lose_nothing :
    zeroArgs.variant ≠ .evmV1 ∧ zeroArgs.Fits ∧ zeroArgsOfBorsh.variant ≠ .evmV1 ∧
      zeroArgsOfBorsh.Fits ∧
      (∃ body, Layout.bcs.encodeBody zeroArgs .sui = .ok body ∧
        (Variant.ofTag? zeroArgs.variant.tag).bind (fun v => Layout.bcs.decodeBody v body) =
          some zeroArgs) ∧
      zeroArgs.encode .aptos ≠ zeroArgsOfBorsh.encode .sui := by
  have hvariant : zeroArgs.variant ≠ .evmV1 := by decide
  have hother : zeroArgsOfBorsh.variant ≠ .evmV1 := by decide
  have hfits : zeroArgs.Fits := by decide
  have hotherFits : zeroArgsOfBorsh.Fits := by decide
  obtain ⟨⟨body, hbody, -, hdecode⟩, hinj⟩ := move_layout_loses_nothing hvariant hfits
  refine ⟨hvariant, hfits, hother, hotherFits, ⟨body, hbody .sui, hdecode⟩, fun h => ?_⟩
  exact absurd (hinj _ hother hotherFits .aptos .sui rfl rfl h) (by decide)

end CrossChain.ExtraArgs
