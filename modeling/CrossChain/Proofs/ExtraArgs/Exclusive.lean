import CrossChain.Proofs.Codec.BcsCanonical
import CrossChain.Proofs.ExtraArgs.Disjoint
import CrossChain.Proofs.ExtraArgs.Tagged
/-! Bytes that fit one layout only. The bytes of all variants but the generic one are a body in at
most one layout, and the layouts of the Solana and Sui variants may be tried in any order. No bound
on lengths is needed: what BCS reads has lengths that BCS can read. -/
namespace CrossChain.ExtraArgs

variable {args : ExtraArgs} {v : Variant} {body : Bytes}

/-- BCS reads only what it would write itself, and of that only what it can read. -/
theorem takes_bcsReader (v : Variant) : Bcs.Reader.Takes (bcsReader v) fun taken read =>
    ∀ a ∈ read, a.bcsBody? = some taken ∧ a.Fits := by
  open Bcs.Reader in
  cases v with
  | evmV1 => exact .pure (by simp)
  | evmV2 =>
    refine takes_u256.bind ?_
    rintro _ gas rfl
    refine takes_bool.bind ?_
    rintro _ outOfOrder rfl
    exact .pure (by simp [bcsBody?, Fits])
  | svmV1 =>
    refine takes_u32.bind ?_
    rintro _ units rfl
    refine takes_u64.bind ?_
    rintro _ writable rfl
    refine takes_bool.bind ?_
    rintro _ outOfOrder rfl
    refine takes_address.bind ?_
    rintro _ receiver rfl
    refine takes_addresses.bind ?_
    rintro _ accounts ⟨rfl, haccounts⟩
    exact .pure (by simpa [bcsBody?, Fits] using haccounts)
  | suiV1 =>
    refine takes_u64.bind ?_
    rintro _ gas rfl
    refine takes_bool.bind ?_
    rintro _ outOfOrder rfl
    refine takes_address.bind ?_
    rintro _ receiver rfl
    refine takes_addresses.bind ?_
    rintro _ objectIds ⟨rfl, hobjectIds⟩
    exact .pure (by simpa [bcsBody?, Fits] using hobjectIds)
  | genericV3 =>
    refine takes_u32.bind ?_
    rintro _ gas rfl
    refine takes_u16.bind ?_
    rintro _ confirmations rfl
    refine takes_bytes.bind ?_
    rintro _ executor ⟨rfl, hexecutor⟩
    refine takes_bytes.bind ?_
    rintro _ executorArgs ⟨rfl, hexecutorArgs⟩
    refine takes_bytesList.bind ?_
    rintro _ verifiers ⟨rfl, hverifiers, hverifier⟩
    refine takes_bytesList.bind ?_
    rintro _ verifierArgs ⟨rfl, hverifierArgs, hverifierArg⟩
    refine takes_bytes.bind ?_
    rintro _ receiver ⟨rfl, hreceiver⟩
    refine takes_bytes.bind ?_
    rintro _ tokenArgs ⟨rfl, htokenArgs⟩
    refine .pure ?_
    rintro _ ⟨⟩
    refine ⟨by simp [bcsBody?], ?_, hverifiers, hverifierArgs⟩
    simp only [List.forall_mem_append, List.forall_mem_cons, List.not_mem_nil, false_imp_iff,
      implies_true, and_true]
    exact ⟨⟨⟨hexecutor, hexecutorArgs, hreceiver, htokenArgs⟩, hverifier⟩, hverifierArg⟩

theorem bcsBody?_of_bcsDecode (h : bcsDecode v body = some args) :
    args.bcsBody? = some body ∧ args.Fits := by
  have hread : bcsReader v body = (.ok (some args), []) := by
    rw [← Bcs.Reader.finished_eq_ok_iff]
    unfold bcsDecode at h
    split at h
    next read rest hread =>
      subst h
      rw [hread]
    next => cases h
  obtain ⟨taken, rfl, hargs⟩ := takes_bcsReader v _ _ _ hread
  rw [List.append_nil]
  exact hargs args rfl

namespace Layout

/-- The layout reads the body, and writes what it reads as that body again. -/
def Reproduces (layout : Layout) (v : Variant) (body : Bytes) (args : ExtraArgs) : Prop :=
  layout.decodeBody v body = some args ∧ layout.encodeBody args layout.origin = .ok body

theorem reproduces_iff {layout : Layout} :
    layout.Reproduces v body args ↔ layout.accept? v body = some args := by
  rw [Reproduces, encodeBody_eq_ok_iff, accept?_eq_some_iff]

variable {first second : Layout} {a b : ExtraArgs}

theorem Reproduces.not_later (hv : v ≠ .genericV3) (ha : first.Reproduces v body a)
    (hb : second.Reproduces v body b) :
    ¬(first = .abi ∧ second = .borsh) ∧ ¬(first = .abi ∧ second = .bcs) ∧
      ¬(first = .borsh ∧ second = .bcs) := by
  have hvariant : a.variant = b.variant :=
    (variant_of_decodeBody ha.1).trans (variant_of_decodeBody hb.1).symm
  have habody := encodeBody_eq_ok_iff.mp ha.2
  have hbbody := encodeBody_eq_ok_iff.mp hb.2
  refine ⟨?_, ?_, ?_⟩
  · rintro ⟨rfl, rfl⟩
    exact abiBody_ne_borshBody hvariant hbbody (Option.some.inj habody)
  · rintro ⟨rfl, rfl⟩
    have hfits := (bcsBody?_of_bcsDecode hb.1).2
    exact abiBody_ne_bcsBody hvariant hfits hbbody (Option.some.inj habody)
  · rintro ⟨rfl, rfl⟩
    have hfits := (bcsBody?_of_bcsDecode hb.1).2
    have hgeneric := generic_of_borshBody?_eq hvariant hfits habody hbbody
    exact hv ((variant_of_decodeBody hb.1).symm.trans hgeneric)

theorem Reproduces.unique (hv : v ≠ .genericV3) (ha : first.Reproduces v body a)
    (hb : second.Reproduces v body b) : first = second := by
  have hlt := ha.not_later hv hb
  have hgt := hb.not_later hv ha
  cases first <;> cases second <;> simp_all

theorem findSome?_accept?_eq_some_iff (hv : v ≠ .genericV3) {candidates : List Layout}
    (hall : ∀ layout, layout ∈ candidates) {layout : Layout} :
    (candidates.findSome? fun layout => (layout.accept? v body).map fun args => (args, layout)) =
      some (args, layout) ↔ layout.Reproduces v body args := by
  have hfound : ∀ {candidate layout : Layout} {args : ExtraArgs},
      (candidate.accept? v body).map (fun args => (args, candidate)) = some (args, layout) ↔
        candidate = layout ∧ layout.Reproduces v body args := by
    intro candidate layout args
    rw [Option.map_eq_some_iff, reproduces_iff]
    constructor
    · rintro ⟨a, ha, ⟨⟩⟩
      exact ⟨rfl, ha⟩
    · rintro ⟨rfl, ha⟩
      exact ⟨args, ha, rfl⟩
  constructor
  · intro h
    obtain ⟨candidate, -, h⟩ := List.exists_of_findSome?_eq_some h
    exact (hfound.mp h).2
  · intro h
    -- Some candidate is found, and as it reproduces the body it can only be the given one.
    have hsome : (candidates.findSome? fun layout =>
        (layout.accept? v body).map fun args => (args, layout)).isSome := by
      rw [List.findSome?_isSome_iff]
      exact ⟨layout, hall layout, by rw [hfound.mpr ⟨rfl, h⟩]; rfl⟩
    obtain ⟨⟨other, candidate⟩, hother⟩ := Option.isSome_iff_exists.mp hsome
    obtain ⟨_, -, hcandidate⟩ := List.exists_of_findSome?_eq_some hother
    obtain ⟨rfl, hreproduces⟩ := hfound.mp hcandidate
    obtain rfl := hreproduces.unique hv h
    rw [hother, Option.some.inj (hreproduces.1.symm.trans h.1)]

end Layout

/-- Of the bytes behind the tag of the Solana or the Sui variant at most one layout reads what it
writes as these bytes again, so the order in which the layouts are tried does not matter. -/
theorem at_most_one_layout (hv : v = .svmV1 ∨ v = .suiV1) (body : Bytes) :
    (∀ (first second : Layout) (a b : ExtraArgs), first.Reproduces v body a →
      second.Reproduces v body b → first = second) ∧
    ∀ candidates : List Layout, (∀ layout, layout ∈ candidates) →
      (candidates.findSome? fun layout =>
        (layout.accept? v body).map fun args => (args, layout)) =
        decodeWithLayout? (v.tag ++ body) := by
  have hgeneric : v ≠ .genericV3 := by
    obtain rfl | rfl := hv <;> decide
  have hlayouts : v.layouts (4 + body.length) = [.abi, .borsh, .bcs] := by
    obtain rfl | rfl := hv <;> rfl
  refine ⟨fun _ _ _ _ => Layout.Reproduces.unique hgeneric, fun candidates hall => ?_⟩
  have hthree : ∀ layout : Layout, layout ∈ [Layout.abi, .borsh, .bcs] := by
    rintro (_ | _ | _) <;> decide
  rw [decodeWithLayout?_tag, hlayouts]
  ext ⟨args, layout⟩
  exact (Layout.findSome?_accept?_eq_some_iff hgeneric hall).trans
    (Layout.findSome?_accept?_eq_some_iff hgeneric hthree).symm

def accountArgs : ExtraArgs :=
  .svmV1 300000 1 false .zero [.zero, .zero]

/-- What Aptos writes here is a body in BCS, so it is none in Borsh, even if that is tried first. -/
theorem accountArgs_in_bcs_alone : ∃ body, Layout.bcs.Reproduces .svmV1 body accountArgs ∧
    (∀ args, ¬ Layout.borsh.Reproduces .svmV1 body args) ∧
    ([Layout.borsh, .bcs, .abi].findSome? fun layout =>
      (layout.accept? .svmV1 body).map fun args => (args, layout)) =
      decodeWithLayout? (Variant.svmV1.tag ++ body) := by
  obtain ⟨body, hbody⟩ : ∃ body, accountArgs.bcsBody? = some body := ⟨_, rfl⟩
  have hbcs : Layout.bcs.Reproduces .svmV1 body accountArgs :=
    Layout.reproduces_iff.mpr (Layout.accept?_bcsBody? (by decide) hbody)
  obtain ⟨hunique, horder⟩ := at_most_one_layout (v := .svmV1) (.inl rfl) body
  refine ⟨body, hbcs, fun args hborsh => ?_, horder _ ?_⟩
  · exact absurd (hunique .borsh .bcs args accountArgs hborsh hbcs) (by decide)
  · rintro (_ | _ | _) <;> decide

end CrossChain.ExtraArgs
