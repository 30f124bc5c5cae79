import CrossChain.Proofs.ExtraArgs.Bodies
/-! Tagged arguments. The tag in front of a body says of which variant the arguments are, so
writing and reading come down to what the layouts do with bodies. -/
namespace CrossChain.ExtraArgs

variable {args : ExtraArgs} {origin : Family} {layout : Layout} {body bs : Bytes}

theorem Variant.ofTag?_eq_some_iff {v : Variant} {tag : Bytes} :
    ofTag? tag = some v ↔ v.tag = tag := by
  constructor
  · intro h
    simpa using List.find?_some h
  · rintro rfl
    exact ofTag?_tag v

theorem encode_eq_ok_iff (horigin : Layout.ofOrigin? origin = some layout) :
    args.encode origin = .ok bs ↔
      ∃ body, layout.body? args = some body ∧ args.variant.tag ++ body = bs := by
  have hbody : ∀ body, layout.body? args = some body ↔ layout.encodeBody args origin = .ok body :=
    fun _ => Layout.encodeBody_eq_ok_iff.symm
  simp only [encode, horigin, hbody]
  cases layout.encodeBody args origin <;> simp [Except.map]

theorem exists_encode_iff (layout : Layout)
    (horigin : Layout.ofOrigin? origin = some layout) :
    (∃ bs, args.encode origin = .ok bs) ↔ ∃ body, layout.body? args = some body := by
  simp only [encode_eq_ok_iff horigin]
  constructor
  · rintro ⟨bs, body, hbody, -⟩
    exact ⟨body, hbody⟩
  · rintro ⟨body, hbody⟩
    exact ⟨_, body, hbody, rfl⟩

theorem exists_encode_error_iff (horigin : Layout.ofOrigin? origin = some layout) :
    (∃ e, args.encode origin = .error e) ↔ layout.body? args = none := by
  cases h : args.encode origin with
  | ok bs =>
    obtain ⟨body, hbody, -⟩ := (encode_eq_ok_iff horigin).mp h
    simp [hbody]
  | error e =>
    have hnone : layout.body? args = none := by
      rw [Option.eq_none_iff_forall_ne_some]
      intro body hbody
      have := (encode_eq_ok_iff horigin).mpr ⟨body, hbody, rfl⟩
      rw [h] at this
      cases this
    simp [hnone]

/-- Tagged bytes carry the variant of the tag. -/
theorem encode_eq_ok_tag_iff {v : Variant}
    (horigin : Layout.ofOrigin? origin = some layout) :
    args.encode origin = .ok (v.tag ++ body) ↔
      args.variant = v ∧ layout.body? args = some body := by
  rw [encode_eq_ok_iff horigin]
  constructor
  · rintro ⟨found, hfound, h⟩
    obtain ⟨htag, rfl⟩ := List.append_inj h (by simp)
    have hvariant := congrArg Variant.ofTag? htag
    rw [Variant.ofTag?_tag, Variant.ofTag?_tag] at hvariant
    exact ⟨Option.some.inj hvariant, hfound⟩
  · rintro ⟨rfl, h⟩
    exact ⟨body, h, rfl⟩

theorem decodeWithLayout?_tag (v : Variant) (body : Bytes) :
    decodeWithLayout? (v.tag ++ body) = (v.layouts (4 + body.length)).findSome? fun layout =>
      (layout.accept? v body).map fun args => (args, layout) := by
  have htake : (v.tag ++ body).take 4 = v.tag := List.take_left' v.length_tag
  have hdrop : (v.tag ++ body).drop 4 = body := List.drop_left' v.length_tag
  simp [decodeWithLayout?, htake, hdrop]

/-- What is read was accepted by the layout it comes with, behind the tag of a variant. -/
theorem exists_accept?_of_decodeWithLayout? (h : decodeWithLayout? bs = some (args, layout)) :
    ∃ v body, v.tag ++ body = bs ∧ layout.accept? v body = some args := by
  obtain ⟨v, htag, h⟩ := Option.bind_eq_some_iff.mp h
  obtain ⟨candidate, -, haccept⟩ := List.exists_of_findSome?_eq_some h
  obtain ⟨found, hfound, heq⟩ := Option.map_eq_some_iff.mp haccept
  obtain ⟨rfl, rfl⟩ := Prod.mk.inj heq
  refine ⟨v, bs.drop 4, ?_, hfound⟩
  rw [Variant.ofTag?_eq_some_iff.mp htag, List.take_append_drop]

end CrossChain.ExtraArgs
