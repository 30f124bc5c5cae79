import CrossChain.Batch
import CrossChain.Message.OfEvent
import CrossChain.Proofs.Address.Family
import CrossChain.Proofs.Leaf.Preimage
import CrossChain.Registry.Builtin
/-! What holds of every message that an event on a lane is read as, whatever the spelling and the
shape of the event: it belongs to the lane, its accounts to the families of the ends they are on,
and its arguments to the bytes they were read from. -/
namespace CrossChain

/-- An account of the family, with as many bytes as the family asks for. -/
def Address.BelongsTo (a : Address) (family : Family) : Prop :=
  a.family = family ∧ a.bytes.length = family.addressLength

theorem Address.belongsTo_of_resolve {raw : Json.LooseBytes} {family : Family} {a : Address}
    (h : resolve raw family = .ok a) : a.BelongsTo family := by
  obtain rfl := ofFamily_resolve raw family a h
  exact ⟨rfl, a.length_eq⟩

theorem Version.isLegacy_eq_true_iff {v : Version} : v.isLegacy = true ↔ v = .v1_2 ∨ v = .v1_5 := by
  cases v <;> decide

theorem Version.isLegacy_eq_false_iff {v : Version} : v.isLegacy = false ↔ v = .v1_6 := by
  cases v <;> decide

theorem Lane.ends_eq_ok_iff {lane : Lane} {registry : Registry} {ends : Ends} :
    lane.ends registry = .ok ends ↔ registry.familyOf lane.source = .ok ends.source ∧
      registry.familyOf lane.dest = .ok ends.dest := by
  simp only [Lane.ends, Except.bind_eq_ok_iff]
  constructor
  · rintro ⟨source, hsource, dest, hdest, ⟨⟩⟩
    exact ⟨hsource, hdest⟩
  · rintro ⟨hsource, hdest⟩
    exact ⟨ends.source, hsource, ends.dest, hdest, rfl⟩

/-- The arguments of a message that came with some bytes for them. -/
def ExtraArgs.IsReadOf (args : ExtraArgs) (bs : Bytes) : Prop :=
  if bs = [] then args = .evmV1 200000 else decode? bs = some args

theorem Event.Ramp.isReadOf_args (e : Event.Ramp) :
    YieldsOnly (fun args => args.IsReadOf e.extraArgs) e.args := by
  unfold args ExtraArgs.IsReadOf
  split
  next => exact .ok rfl
  next =>
    split
    next args hargs => exact .ok hargs
    next => exact .error _

namespace Message

def sourceAddresses (m : Message) : List Address :=
  m.sender :: m.feeToken :: match m.body with
    | .legacy body => body.amounts.map TokenAmount.token
    | .ramp body => body.transfers.map Transfer.sourcePool

def destAddresses (m : Message) : List Address :=
  m.receiver :: match m.body with
    | .legacy _ => []
    | .ramp body => body.transfers.map Transfer.destToken

structure Canonical (registry : Registry) (lane : Lane) (m : Message) : Prop where
  version : m.version = lane.version
  sourceFamily : registry.familyOf lane.source = .ok m.sourceFamily
  destFamily : registry.familyOf lane.dest = .ok m.destFamily
  source : m.header.source = lane.source
  dest : m.header.dest = lane.dest
  legacy_iff : (∃ body, m.body = .legacy body) ↔ lane.version = .v1_2 ∨ lane.version = .v1_5
  ramp_iff : (∃ body, m.body = .ramp body) ↔ lane.version = .v1_6
  sourceAddresses : ∀ a ∈ m.sourceAddresses, a.BelongsTo m.sourceFamily
  destAddresses : ∀ a ∈ m.destAddresses, a.BelongsTo m.destFamily
  gasLimit : m.gasLimit = m.extraArgs.gasLimit
  legacyArgs : ∀ body, m.body = .legacy body → m.rawExtraArgs = []
  rampArgs : ∀ body, m.body = .ramp body → m.extraArgs.IsReadOf m.rawExtraArgs

variable {registry : Registry} {lane : Lane} {ends : Lane.Ends} {event : Json} {m : Message}

theorem canonical_of_ofLegacy {e : Event.Legacy} (hends : lane.ends registry = .ok ends)
    (hversion : lane.version.isLegacy = true) (h : ofLegacy lane ends event e = .ok m) :
    m.Canonical registry lane := by
  obtain ⟨hsource, hdest⟩ := Lane.ends_eq_ok_iff.mp hends
  unfold ofLegacy at h
  obtain ⟨hfrom, h⟩ := Except.guard_eq_ok_iff.mp h
  obtain ⟨amounts, hamounts, h⟩ := Except.bind_eq_ok_iff.mp h
  obtain ⟨sender, hsender, h⟩ := Except.bind_eq_ok_iff.mp h
  obtain ⟨receiver, hreceiver, h⟩ := Except.bind_eq_ok_iff.mp h
  obtain ⟨feeToken, hfeeToken, h⟩ := Except.bind_eq_ok_iff.mp h
  cases h
  have htokens : ∀ t ∈ amounts, t.token.BelongsTo ends.source := by
    refine YieldsOnly.mapM (fun t a ha => ?_) e.amounts amounts hamounts
    obtain ⟨token, htoken, ⟨⟩⟩ := Except.bind_eq_ok_iff.mp ha
    exact Address.belongsTo_of_resolve htoken
  exact {
    version := rfl
    sourceFamily := hsource
    destFamily := hdest
    source := not_not.mp hfrom
    dest := rfl
    legacy_iff := iff_of_true ⟨_, rfl⟩ (Version.isLegacy_eq_true_iff.mp hversion)
    ramp_iff := by
      rw [← Version.isLegacy_eq_false_iff, hversion]
      exact iff_of_false nofun nofun
    sourceAddresses := by
      intro a ha
      simp only [Message.sourceAddresses, List.mem_cons, List.mem_map] at ha
      obtain rfl | rfl | ⟨t, ht, rfl⟩ := ha
      · exact Address.belongsTo_of_resolve hsender
      · exact Address.belongsTo_of_resolve hfeeToken
      · exact htokens t ht
    destAddresses := by
      intro a ha
      obtain rfl := List.mem_singleton.mp ha
      exact Address.belongsTo_of_resolve hreceiver
    gasLimit := by cases hv : lane.version <;> rfl
    legacyArgs := fun _ _ => rfl
    rampArgs := fun _ hbody => nomatch hbody }

theorem belongTo_ofTransfer (ends : Lane.Ends) (event : Json) (t : Event.Transfer) :
    YieldsOnly (fun t => t.sourcePool.BelongsTo ends.source ∧ t.destToken.BelongsTo ends.dest)
      (ofTransfer ends event t) := by
  intro transfer h
  obtain ⟨sourcePool, hsourcePool, h⟩ := Except.bind_eq_ok_iff.mp h
  obtain ⟨destToken, hdestToken, h⟩ := Except.bind_eq_ok_iff.mp h
  obtain ⟨destGas, -, ⟨⟩⟩ := Except.bind_eq_ok_iff.mp h
  exact ⟨Address.belongsTo_of_resolve hsourcePool, Address.belongsTo_of_resolve hdestToken⟩

theorem canonical_of_ofRamp {e : Event.Ramp} (hends : lane.ends registry = .ok ends)
    (hversion : lane.version.isLegacy = false) (h : ofRamp lane ends event e = .ok m) :
    m.Canonical registry lane := by
  obtain ⟨hsource, hdest⟩ := Lane.ends_eq_ok_iff.mp hends
  unfold ofRamp at h
  obtain ⟨hheader, h⟩ := Except.guard_eq_ok_iff.mp h
  rw [not_or, not_not, not_not] at hheader
  obtain ⟨extraArgs, hextraArgs, h⟩ := Except.bind_eq_ok_iff.mp h
  obtain ⟨transfers, htransfers, h⟩ := Except.bind_eq_ok_iff.mp h
  obtain ⟨sender, hsender, h⟩ := Except.bind_eq_ok_iff.mp h
  obtain ⟨receiver, hreceiver, h⟩ := Except.bind_eq_ok_iff.mp h
  obtain ⟨feeToken, hfeeToken, h⟩ := Except.bind_eq_ok_iff.mp h
  cases h
  have htokens := YieldsOnly.mapM (belongTo_ofTransfer ends event) e.transfers transfers
    htransfers
  exact {
    version := rfl
    sourceFamily := hsource
    destFamily := hdest
    source := hheader.1
    dest := hheader.2
    legacy_iff := by
      rw [← Version.isLegacy_eq_true_iff, hversion]
      exact iff_of_false nofun nofun
    ramp_iff := iff_of_true ⟨_, rfl⟩ (Version.isLegacy_eq_false_iff.mp hversion)
    sourceAddresses := by
      intro a ha
      simp only [Message.sourceAddresses, List.mem_cons, List.mem_map] at ha
      obtain rfl | rfl | ⟨t, ht, rfl⟩ := ha
      · exact Address.belongsTo_of_resolve hsender
      · exact Address.belongsTo_of_resolve hfeeToken
      · exact (htokens t ht).1
    destAddresses := by
      intro a ha
      simp only [Message.destAddresses, List.mem_cons, List.mem_map] at ha
      obtain rfl | ⟨t, ht, rfl⟩ := ha
      · exact Address.belongsTo_of_resolve hreceiver
      · exact (htokens t ht).2
    gasLimit := rfl
    legacyArgs := fun _ hbody => nomatch hbody
    rampArgs := fun _ _ => (e.isReadOf_args).mapError _ _ hextraArgs }

theorem canonical_of_ofEvent (h : ofEvent registry lane event = .ok m) :
    m.Canonical registry lane := by
  obtain ⟨ends, hends, h⟩ := Except.bind_eq_ok_iff.mp h
  obtain ⟨e, -, h⟩ := Except.bind_eq_ok_iff.mp h
  split at h
  next hversion => exact canonical_of_ofLegacy hends hversion h
  next hversion => exact canonical_of_ofRamp hends hversion h
  next => cases h

theorem Canonical.carries (h : m.Canonical registry lane) : lane.carries m := by
  simp [Lane.carries, h.source, h.dest, h.version]

/-- Events on a lane are read as messages that belong to it, so none of them is passed over when a
batch is chosen for the lane, unless an interval leaves it out. -/
theorem canonical_and_counts (registry : Registry) (lane : Lane) :
    (∀ event m, ofEvent registry lane event = .ok m → m.Canonical registry lane) ∧
      ∀ events batch, ofEvents registry lane events = .ok batch → ∀ m ∈ batch,
        lane.carries m = true ∧ ∀ interval, Batch.counts lane interval m =
          interval.all fun i => i.contains m.header.sequenceNumber := by
  refine ⟨fun event m h => canonical_of_ofEvent h, fun events batch h m hm => ?_⟩
  have hall := YieldsOnly.mapM (fun event m hm => canonical_of_ofEvent hm) events batch h
  have hcarries := (hall m hm).carries
  exact ⟨hcarries, fun interval => by rw [Batch.counts, hcarries, Bool.true_and]⟩

/-- An event as a Move chain wraps it, with byte strings spelled in three ways. -/
def sampleEvent : Json :=
  .object [("message", .object [
    ("header", .object [
      ("message_id", .text (Hex.text (Bytes32.ofU256 7).toBytes)),
      ("source_chain_selector", .number (.natural 5009297550715157269)),
      ("dest_chain_selector", .text "124615329519749607"),
      ("sequence_number", .number (.natural 7)),
      ("nonce", .text "0x0")]),
    ("sender", .text "0x0000000000000000000000000000000000000000"),
    ("receiver", .text "11111111111111111111111111111111"),
    ("data", .text "cGluZw=="),
    ("extra_args", .array ((ExtraArgs.Variant.svmV1.tag ++
      (Leaf.sampleMessage 7).extraArgs.abiBody).map fun b =>
        .number (.natural (UInt64.ofNat b.toNat)))),
    ("fee_token", .array (List.replicate 20 (.number (.natural 0)))),
    ("token_amounts", .array [.object [
      ("source_pool_address", .text "AAAAAAAAAAAAAAAAAAAAAAAAAAA="),
      ("dest_token_address", .array (List.replicate 32 (.number (.natural 0)))),
      ("amount", .text "1")]])])]

def sampleOfEvent : Message :=
  { Leaf.sampleMessage 7 with
    rawExtraArgs := ExtraArgs.Variant.svmV1.tag ++ (Leaf.sampleMessage 7).extraArgs.abiBody }

theorem ofEvent_sampleEvent :
    ofEvent Registry.builtin Leaf.sampleLane sampleEvent = .ok sampleOfEvent := by
  decide +kernel

theorem sampleOfEvent_canonical :
    ofEvents Registry.builtin Leaf.sampleLane [sampleEvent] = .ok [sampleOfEvent] ∧
      sampleOfEvent.Canonical Registry.builtin Leaf.sampleLane ∧
      Batch.counts Leaf.sampleLane none sampleOfEvent = true := by
  have hbatch : ofEvents Registry.builtin Leaf.sampleLane [sampleEvent] = .ok [sampleOfEvent] := by
    rw [ofEvents, List.mapM_cons, ofEvent_sampleEvent]
    rfl
  obtain ⟨hcanonical, hcounts⟩ := canonical_and_counts Registry.builtin Leaf.sampleLane
  exact ⟨hbatch, hcanonical sampleEvent sampleOfEvent ofEvent_sampleEvent,
    (hcounts _ _ hbatch sampleOfEvent (List.mem_singleton_self _)).2 none⟩

end Message

end CrossChain
