import CrossChain.Proofs.ExtraArgs.AbiBody
import CrossChain.Proofs.ExtraArgs.Tagged
import CrossChain.Proofs.Leaf.Totality
/-! Messages that were read from events can be hashed. The scheme of a lane asks for accounts of the
families at its ends, and accounts of these families are what events are read as; so it is only the
lane, or arguments that Solana does not know, for which there is no leaf. -/
namespace CrossChain

namespace ExtraArgs

variable {units : UInt32} {writable : UInt64} {outOfOrder : Bool} {tokenReceiver : Bytes32}
  {accounts : List Bytes32}

/-- In every layout an account takes more than one byte. -/
theorem length_accounts_le_of_body? {layout : Layout} {body : Bytes}
    (h : layout.body? (.svmV1 units writable outOfOrder tokenReceiver accounts) = some body) :
    accounts.length ≤ body.length := by
  have hwords : (accounts.flatMap Bytes32.toBytes).length = 32 * accounts.length := by
    rw [List.length_flatMap]
    simp
    omega
  cases layout with
  | abi =>
    cases h
    exact le_length_abiBody (List.mem_singleton_self _)
  | borsh =>
    obtain ⟨enc, henc, ⟨⟩⟩ := Option.bind_eq_some_iff.mp h
    obtain ⟨-, rfl⟩ := Borsh.words?_eq_some_iff.mp henc
    simp only [List.length_append, hwords]
    omega
  | bcs =>
    cases h
    have haddresses : (Bcs.addresses accounts).length =
        (Bcs.length accounts.length).length + 32 * accounts.length := by
      rw [← hwords, ← List.length_append]
      rfl
    simp only [List.length_append, haddresses]
    omega

theorem length_accounts_le_of_decode? {bs : Bytes}
    (h : decode? bs = some (.svmV1 units writable outOfOrder tokenReceiver accounts)) :
    accounts.length ≤ bs.length := by
  obtain ⟨⟨args, layout⟩, hdecode, rfl⟩ := Option.map_eq_some_iff.mp h
  obtain ⟨v, body, rfl, haccept⟩ := exists_accept?_of_decodeWithLayout? hdecode
  have hbody := length_accounts_le_of_body? (Layout.accept?_eq_some_iff.mp haccept).2
  rw [List.length_append]
  omega

end ExtraArgs

variable {registry : Registry} {lane : Lane} {m : Message}

namespace Lane

theorem of_resolve {source dest : UInt64} {onRamp : String} {version : Version}
    (h : resolve registry source dest onRamp version = .ok lane) :
    lane.checked = .ok lane ∧ ∃ ends, lane.ends registry = .ok ends ∧
      lane.onRamp.family = ends.source := by
  obtain ⟨sourceFamily, hsource, h⟩ := Except.bind_eq_ok_iff.mp h
  obtain ⟨destFamily, hdest, h⟩ := Except.bind_eq_ok_iff.mp h
  obtain ⟨contract, hcontract, h⟩ := Except.bind_eq_ok_iff.mp h
  have heq : lane = ⟨source, dest, contract, version⟩ := by
    unfold checked at h
    split at h
    next => cases h
    next => exact (Except.ok.inj h).symm
  subst heq
  exact ⟨h, ⟨sourceFamily, destFamily⟩, ends_eq_ok_iff.mpr ⟨hsource, hdest⟩,
    Address.ofFamily_parse onRamp sourceFamily contract hcontract⟩

end Lane

open Leaf

namespace Message.Canonical

theorem ends_eq (hm : m.Canonical registry lane) :
    lane.ends registry = .ok ⟨m.sourceFamily, m.destFamily⟩ :=
  Lane.ends_eq_ok_iff.mpr ⟨hm.sourceFamily, hm.destFamily⟩

theorem exists_legacy (hm : m.Canonical registry lane) (h : lane.version.isLegacy = true) :
    ∃ body, m.body = .legacy body :=
  hm.legacy_iff.mpr (Version.isLegacy_eq_true_iff.mp h)

theorem exists_ramp (hm : m.Canonical registry lane) (h : lane.version.isLegacy = false) :
    ∃ body, m.body = .ramp body :=
  hm.ramp_iff.mpr (Version.isLegacy_eq_false_iff.mp h)

theorem destWords (hm : m.Canonical registry lane) (h : m.destFamily ≠ .ton) :
    ∀ a ∈ m.destAddresses, ∃ w, a.toBytes32 = .ok w := fun a ha =>
  Address.exists_toBytes32 ((hm.destAddresses a ha).1.trans_ne h)

theorem length_accounts_lt (hm : m.Canonical registry lane) (hshort : m.Short) {body : Ramp}
    (hbody : m.body = .ramp body) {units : UInt32} {writable : UInt64} {outOfOrder : Bool}
    {tokenReceiver : Bytes32} {accounts : List Bytes32}
    (hargs : m.extraArgs = .svmV1 units writable outOfOrder tokenReceiver accounts) :
    accounts.length < UInt32.size := by
  have hread := hm.rampArgs body hbody
  unfold ExtraArgs.IsReadOf at hread
  rw [hargs] at hread
  split at hread
  next => cases hread
  next => exact (ExtraArgs.length_accounts_le_of_decode? hread).trans_lt hshort.rawExtraArgs

end Message.Canonical

namespace Scheme

theorem ofLane_eq_select (hchecked : lane.checked = .ok lane) (hm : m.Canonical registry lane) :
    ofLane registry lane = select m.sourceFamily m.destFamily lane.version := by
  rw [ofLane, hchecked]
  change (lane.ends registry >>= fun ends => select ends.source ends.dest lane.version) = _
  rw [hm.ends_eq]
  rfl

/-- One case for each scheme: the families it asks for are those of the accounts. -/
theorem exists_remainder {s : Scheme} (hm : m.Canonical registry lane) (hshort : m.Short)
    (hs : s.Serves m.sourceFamily m.destFamily lane.version)
    (hargs : s = .any2svm → m.extraArgs.variant = .svmV1) : ∃ r, s.remainder m = .ok r := by
  cases s with
  | evm2evm =>
    obtain ⟨hsource, hdest, hversion⟩ := hs
    obtain ⟨body, hbody⟩ := hm.exists_legacy hversion
    obtain ⟨c, hc⟩ := LegacyContent.exists_ofMessage hbody
      (fun a ha => (hm.sourceAddresses a ha).1.trans hsource)
      (fun a ha => (hm.destAddresses a ha).1.trans hdest)
    exact ⟨c.remainder, by rw [remainder, hc]; rfl⟩
  | any2evm =>
    obtain ⟨hdest, hversion⟩ := hs
    obtain ⟨body, hbody⟩ := hm.exists_ramp hversion
    obtain ⟨c, hc⟩ := RampContent.exists_ofMessage hbody fun a ha =>
      Address.exists_evmWord ((hm.destAddresses a ha).1.trans hdest)
    exact ⟨c.abiRemainder, by rw [remainder, hc]; rfl⟩
  | any2svm =>
    obtain ⟨hdest, hversion⟩ := hs
    obtain ⟨body, hbody⟩ := hm.exists_ramp hversion
    obtain ⟨c, hc⟩ := SolanaContent.exists_ofMessage hbody (hargs rfl)
      (hm.destWords (by simp [hdest]))
    obtain ⟨-, outOfOrder, hsvm⟩ := SolanaContent.describes_of_ofMessage hc
    obtain ⟨r, hr⟩ :=
      SolanaContent.exists_remainder_of_short hc hshort (hm.length_accounts_lt hshort hbody hsvm)
    exact ⟨r, by rw [remainder, hc]; exact hr⟩
  | any2aptos =>
    obtain ⟨hdest, hversion⟩ := hs
    obtain ⟨body, hbody⟩ := hm.exists_ramp hversion
    obtain ⟨c, hc⟩ := RampContent.exists_ofMessage hbody (hm.destWords (by simp [hdest]))
    exact ⟨c.bcsRemainder, by rw [remainder, hc]; rfl⟩
  | any2sui =>
    obtain ⟨hdest, hversion⟩ := hs
    obtain ⟨body, hbody⟩ := hm.exists_ramp hversion
    obtain ⟨c, hc⟩ := SuiContent.exists_ofMessage hbody (hm.destWords (by simp [hdest]))
    exact ⟨c.remainder, by rw [remainder, hc]; rfl⟩

end Scheme

namespace Leaf

/-- The version of the message is that of the lane and need not be looked at again. -/
theorem hash_result (hm : m.Canonical registry lane) : (hash registry lane m).result =
    Scheme.ofLane registry lane >>= fun s => (s.leaf lane m).result := by
  unfold hash
  rw [if_neg (not_not.mpr hm.version)]
  exact Hashing.result_bind _ _

/-- A message that was read from an event on a resolved lane has a leaf, unless no scheme is for the
lane, or the lane leads to Solana and the arguments do not. -/
theorem hash_of_ofEvent {source dest : UInt64} {onRamp : String} {version : Version}
    {event : Json} (hlane : Lane.resolve registry source dest onRamp version = .ok lane)
    (hm : Message.ofEvent registry lane event = .ok m) (hshort : m.Short) :
    match Scheme.ofLane registry lane with
    | .error e => e = .noScheme m.destFamily m.version ∧ (hash registry lane m).result = .error e
    | .ok _ =>
      if m.destFamily = .svm ∧ m.extraArgs.variant ≠ .svmV1 then
        (hash registry lane m).result =
          .error (.badArgs (.notSolana m.extraArgs.variant.name))
      else ∃ leaf, (hash registry lane m).result = .ok leaf := by
  have hcanonical := Message.canonical_of_ofEvent hm
  obtain ⟨hchecked, ends, hends, honRamp⟩ := Lane.of_resolve hlane
  obtain rfl := Except.ok.inj (hends.symm.trans hcanonical.ends_eq)
  have hselect := Scheme.ofLane_eq_select hchecked hcanonical
  cases hscheme : Scheme.ofLane registry lane with
  | error e =>
    rw [hash_result hcanonical, hscheme, hcanonical.version]
    exact ⟨Scheme.select_eq_error (hselect.symm.trans hscheme), rfl⟩
  | ok s =>
    have hserves := Scheme.select_eq_ok_iff.mp (hselect.symm.trans hscheme)
    obtain ⟨w, hw⟩ : ∃ w, (s.metadata lane).result = .ok w :=
      Scheme.exists_metadata fun hs => by
        subst hs
        exact honRamp.trans hserves.1
    have hleaf : (hash registry lane m).result =
        (fun r => keccak256 (r.preimage w)) <$> s.remainder m := by
      rw [hash_result hcanonical, hscheme]
      exact Scheme.leaf_result hw
    rw [hleaf]
    dsimp only
    split
    next hargs =>
      obtain ⟨rfl, hversion⟩ := hserves.of_svm hargs.1
      obtain ⟨body, hbody⟩ := hcanonical.exists_ramp hversion
      rw [Scheme.remainder, SolanaContent.ofMessage_eq_error hbody hargs.2]
      rfl
    next hargs =>
      have hsolana : s = .any2svm → m.extraArgs.variant = .svmV1 := by
        rintro rfl
        by_contra hvariant
        exact hargs ⟨hserves.1, hvariant⟩
      obtain ⟨r, hr⟩ := Scheme.exists_remainder hcanonical hshort hserves hsolana
      exact ⟨_, by rw [hr]; rfl⟩

theorem exists_leaf_of_sampleEvent :
    Lane.resolve Registry.builtin 5009297550715157269 124615329519749607
        "0x0000000000000000000000000000000000000000" .v1_6 = .ok sampleLane ∧
      Message.ofEvent Registry.builtin sampleLane Message.sampleEvent =
        .ok Message.sampleOfEvent ∧
      Message.sampleOfEvent.Short ∧
      ∃ leaf, (hash Registry.builtin sampleLane Message.sampleOfEvent).result = .ok leaf := by
  have hlane : Lane.resolve Registry.builtin 5009297550715157269 124615329519749607
      "0x0000000000000000000000000000000000000000" .v1_6 = .ok sampleLane := by decide +kernel
  have hshort : Message.sampleOfEvent.Short := by
    refine ⟨by decide, by decide +kernel, ?_⟩
    rintro body ⟨⟩
    exact ⟨by decide, by decide⟩
  have hscheme : Scheme.ofLane Registry.builtin sampleLane = .ok .any2svm := by decide +kernel
  have hleaf := hash_of_ofEvent hlane Message.ofEvent_sampleEvent hshort
  rw [hscheme] at hleaf
  dsimp only at hleaf
  rw [if_neg (by decide)] at hleaf
  exact ⟨hlane, Message.ofEvent_sampleEvent, hshort, hleaf⟩

end Leaf

end CrossChain
