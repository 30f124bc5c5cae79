import CrossChain.Message.OfEvent
import CrossChain.Proofs.Event.Restated
import CrossChain.Proofs.Message.Canonical
/-! Messages do not depend on how their events are stated. The shape of an event, the message in it
and the fields of that are what they are before it is stated anew, and the event itself is only
quoted. -/
namespace CrossChain

namespace Event

open EventReader EventField

variable {entrySlots : List Json.Slot}

theorem isObject_eq_of_restatedField {key : String} {v v' : Json}
    (h : RestatedField entrySlots key v v') : v.isObject = v'.isObject := by
  have hnumber : ∀ {n : Nat} {v : Json}, v.SpellsNumber n → v.isObject = false := by
    rintro n v (_ | _ | _) <;> rfl
  cases h with
  | value h =>
    cases h with
    | same => rfl
    | number _ h h' => rw [hnumber h, hnumber h']
  | header => rfl
  | tokens => rfl

section Body

variable {ms ms' : Json.Members} (hdistinct : (ms.map Prod.fst).Nodup)
  (h : Json.Restated vocabulary (RestatedField entrySlots) ms ms')
include hdistinct h

theorem isObject_get?_eq {key : String} (hkey : [key] ∈ vocabulary.groups) :
    ((Json.object ms').get? key).map Json.isObject =
      ((Json.object ms).get? key).map Json.isObject := by
  have hone : (ms.filter fun m => decide (m.1 = key)).length ≤ 1 := by
    have hcount := List.nodup_iff_count_le_one.mp hdistinct key
    rwa [List.count_eq_countP, List.countP_map, List.countP_eq_length_filter] at hcount
  have hrel := h.find? (p := fun k => decide (k = key)) hkey (by simp) hone
  rw [Json.get?, Json.get?]
  generalize (ms.find? fun m => decide (m.1 = key)) = found at hrel ⊢
  generalize (ms'.find? fun m => decide (m.1 = key)) = found' at hrel ⊢
  cases hrel with
  | none => rfl
  | some hv => exact congrArg some (isObject_eq_of_restatedField hv).symm

theorem shapeOf_eq : shapeOf (.object ms') = shapeOf (.object ms) := by
  have hid : ∀ ms : Json.Members, (((Json.object ms).get? "messageId").isSome ||
      ((Json.object ms).get? "message_id").isSome) = true ↔
        ∃ m ∈ ms, m.1 ∈ messageId.slot.names := by
    intro ms
    have hnames : messageId.slot.names = ["messageId", "message_id"] := rfl
    simp [Json.get?, hnames, List.find?_isSome, and_or_left, exists_or]
  have hidentifier := h.exists_mem_iff (g := messageId.slot.names) (by decide)
  rw [← hid, ← hid, ← Bool.eq_iff_iff] at hidentifier
  rw [shapeOf, shapeOf, isObject_get?_eq hdistinct h (by decide), hidentifier]
  rfl

end Body

/-- The event is the message itself, or an object that wraps it. -/
def Presents (event : Json) (ms : Json.Members) : Prop :=
  event = .object ms ∨ event.get? "message" = some (.object ms)

/-- No object is wrapped in the message itself. -/
def IsInnermost (ms : Json.Members) : Prop :=
  ((Json.object ms).get? "message").map Json.isObject ≠ some true

instance : DecidablePred IsInnermost := fun ms =>
  inferInstanceAs (Decidable (((Json.object ms).get? "message").map Json.isObject ≠ some true))

theorem unwrap_of_presents {event : Json} {ms : Json.Members} (hms : IsInnermost ms)
    (h : Presents event ms) : unwrap event = .object ms := by
  unfold unwrap
  obtain rfl | hwrapped := h
  · split
    next inner hinner =>
      rw [IsInnermost, hinner, Option.map_some, ne_eq, Option.some.injEq] at hms
      rw [if_neg hms]
    next => rfl
  · rw [hwrapped]
    rfl

theorem unwrap_of_restated {event' : Json} {ms ms' : Json.Members} (hms : IsInnermost ms)
    (hdistinct : (ms.map Prod.fst).Nodup)
    (h : Json.Restated vocabulary (RestatedField entrySlots) ms ms')
    (hevent' : Presents event' ms') : unwrap event' = .object ms' := by
  refine unwrap_of_presents ?_ hevent'
  rwa [IsInnermost, isObject_get?_eq hdistinct h (by decide)]

theorem ofJson_eq_ok_legacy_iff {v : Json} {e : Legacy} : ofJson v = .ok (.legacy e) ↔
    shapeOf (unwrap v) = .ok .legacy ∧ EventReader.legacy (unwrap v) = .ok e := by
  rw [ofJson, Except.bind_eq_ok_iff]
  constructor
  · rintro ⟨_ | _, hshape, h⟩
    · obtain ⟨e', he', ⟨⟩⟩ := Except.bind_eq_ok_iff.mp h
      exact ⟨hshape, Except.mapError_eq_ok_iff.mp he'⟩
    · obtain ⟨_, _, ⟨⟩⟩ := Except.bind_eq_ok_iff.mp h
  · rintro ⟨hshape, he⟩
    exact ⟨.legacy, hshape, Except.bind_eq_ok_iff.mpr ⟨e, Except.mapError_eq_ok_iff.mpr he, rfl⟩⟩

theorem ofJson_eq_ok_ramp_iff {v : Json} {e : Ramp} : ofJson v = .ok (.ramp e) ↔
    shapeOf (unwrap v) = .ok .ramp ∧ EventReader.ramp (unwrap v) = .ok e := by
  rw [ofJson, Except.bind_eq_ok_iff]
  constructor
  · rintro ⟨_ | _, hshape, h⟩
    · obtain ⟨_, _, ⟨⟩⟩ := Except.bind_eq_ok_iff.mp h
    · obtain ⟨e', he', ⟨⟩⟩ := Except.bind_eq_ok_iff.mp h
      exact ⟨hshape, Except.mapError_eq_ok_iff.mp he'⟩
  · rintro ⟨hshape, he⟩
    exact ⟨.ramp, hshape, Except.bind_eq_ok_iff.mpr ⟨e, Except.mapError_eq_ok_iff.mpr he, rfl⟩⟩

section Read

variable {event event' : Json} {ms ms' : Json.Members} (hbody : unwrap event = .object ms)
  (hdistinct : (ms.map Prod.fst).Nodup) (hms : IsInnermost ms) (hevent' : Presents event' ms')
include hbody hdistinct hms hevent'

theorem read_legacy_of_restated {e : Legacy}
    (h : Json.Restated vocabulary (RestatedField tokenAmountSlots) ms ms')
    (he : read event = .ok (.legacy e)) : read event' = .ok (.legacy e) := by
  rw [read, Except.mapError_eq_ok_iff, ofJson_eq_ok_legacy_iff, hbody] at he
  rw [read, Except.mapError_eq_ok_iff, ofJson_eq_ok_legacy_iff,
    unwrap_of_restated hms hdistinct h hevent', shapeOf_eq hdistinct h]
  exact ⟨he.1, yieldsAlso_legacy (.object h) e he.2⟩

theorem read_ramp_of_restated {e : Ramp}
    (h : Json.Restated vocabulary (RestatedField transferSlots) ms ms')
    (he : read event = .ok (.ramp e)) : read event' = .ok (.ramp e) := by
  rw [read, Except.mapError_eq_ok_iff, ofJson_eq_ok_ramp_iff, hbody] at he
  rw [read, Except.mapError_eq_ok_iff, ofJson_eq_ok_ramp_iff,
    unwrap_of_restated hms hdistinct h hevent', shapeOf_eq hdistinct h]
  exact ⟨he.1, yieldsAlso_ramp (.object h) e he.2⟩

end Read

end Event

/-- The fields of the entries that list the tokens of a message. -/
def Version.entrySlots (v : Version) : List Json.Slot :=
  if v.isLegacy then EventReader.tokenAmountSlots else EventReader.transferSlots

namespace Message

variable {registry : Registry} {lane : Lane} {ends : Lane.Ends} {event event' : Json} {m : Message}

theorem yieldsAlso_ofLegacy (event event' : Json) (e : Event.Legacy) :
    YieldsAlso (ofLegacy lane ends event e) (ofLegacy lane ends event' e) := by
  unfold ofLegacy
  exact .guard (.refl _)

theorem yieldsAlso_ofTransfer (event event' : Json) (t : Event.Transfer) :
    YieldsAlso (ofTransfer ends event t) (ofTransfer ends event' t) := by
  refine (YieldsAlso.refl _).bind fun _ => (YieldsAlso.refl _).bind fun _ => ?_
  exact (YieldsAlso.refl t.gas).mapError.bind fun _ => .refl _

theorem yieldsAlso_ofRamp (event event' : Json) (e : Event.Ramp) :
    YieldsAlso (ofRamp lane ends event e) (ofRamp lane ends event' e) := by
  have htransfers : YieldsAlso (e.transfers.mapM (ofTransfer ends event))
      (e.transfers.mapM (ofTransfer ends event')) := by
    refine .mapM (R := (· = ·)) ?_ (List.forall₂_refl e.transfers)
    rintro t _ rfl
    exact yieldsAlso_ofTransfer event event' t
  unfold ofRamp
  refine .guard ?_
  exact (YieldsAlso.refl e.args).mapError.bind fun _ => htransfers.bind fun _ => .refl _

/-- A message does not depend on how its event is stated: under which of their names the fields
stand, how the numbers are spelled, what else is said in the records, and whether the message is
wrapped. No name stands twice in the message, and it does not wrap another one. -/
theorem ofEvent_of_restated {ms ms' : Json.Members} (h : ofEvent registry lane event = .ok m)
    (hbody : Event.unwrap event = .object ms) (hdistinct : (ms.map Prod.fst).Nodup)
    (hinnermost : Event.IsInnermost ms)
    (hms : Json.Restated Event.vocabulary (Event.RestatedField lane.version.entrySlots) ms ms')
    (hevent' : Event.Presents event' ms') : ofEvent registry lane event' = .ok m := by
  obtain ⟨ends, hends, h⟩ := Except.bind_eq_ok_iff.mp h
  obtain ⟨e, he, h⟩ := Except.bind_eq_ok_iff.mp h
  refine Except.bind_eq_ok_iff.mpr ⟨ends, hends, Except.bind_eq_ok_iff.mpr ⟨e, ?_, ?_⟩⟩
  · -- The version settles the shape, and with it the fields of the entries.
    split at h
    next e hversion =>
      rw [Version.entrySlots, if_pos hversion] at hms
      exact Event.read_legacy_of_restated hbody hdistinct hinnermost hevent' hms he
    next e hversion =>
      rw [Version.entrySlots, hversion, if_neg Bool.false_ne_true] at hms
      exact Event.read_ramp_of_restated hbody hdistinct hinnermost hevent' hms he
    next => cases h
  · split at h
    next e hversion => exact yieldsAlso_ofLegacy event event' e m h
    next e hversion => exact yieldsAlso_ofRamp event event' e m h
    next => cases h

/-- The header of the sample event under its other names and with other spellings of its numbers. -/
def restatedHeader : Json.Members :=
  [("nonce", .number (.natural 0)),
    ("sequenceNumber", .text "7"),
    ("destChainSelector", .number (.natural 124615329519749607)),
    ("sourceChainSelector", .text "5009297550715157269"),
    ("messageId", .text (Hex.text (Bytes32.ofU256 7).toBytes))]

def restatedToken : Json.Members :=
  [("symbol", .text "LINK"),
    ("amount", .text "0x1"),
    ("destTokenAddress", .array (List.replicate 32 (.number (.natural 0)))),
    ("sourcePoolAddress", .text "AAAAAAAAAAAAAAAAAAAAAAAAAAA=")]

def restatedBody : Json.Members :=
  [("blockTime", .number (.natural 1700000000)),
    ("tokenAmounts", .array [.object restatedToken]),
    ("feeToken", .array (List.replicate 20 (.number (.natural 0)))),
    ("extraArgs", .array ((ExtraArgs.Variant.svmV1.tag ++
      (Leaf.sampleMessage 7).extraArgs.abiBody).map fun b =>
        .number (.natural (UInt64.ofNat b.toNat)))),
    ("data", .text "cGluZw=="),
    ("receiver", .text "11111111111111111111111111111111"),
    ("sender", .text "0x0000000000000000000000000000000000000000"),
    ("header", .object restatedHeader)]

/-- The sample event stated anew, in a wrapper with a member that is not for the message. -/
def restatedEvent : Json :=
  .object [("sequence_number", .text "8"), ("message", .object restatedBody)]

theorem ofEvent_restatedEvent : Event.Presents restatedEvent restatedBody ∧
    ofEvent Registry.builtin Leaf.sampleLane restatedEvent = .ok sampleOfEvent := by
  have hpresents : Event.Presents restatedEvent restatedBody := .inr rfl
  refine ⟨hpresents, ?_⟩
  refine ofEvent_of_restated ofEvent_sampleEvent rfl (by decide) (by decide) ?_ hpresents
  -- The members stand in the reverse order, behind the one that is new.
  refine ⟨(restatedBody.drop 1).reverse, restatedBody.take 1, ?_, ?_,
    (List.reverse_perm restatedBody).symm⟩
  · refine .cons ⟨by decide, .header rfl ?_⟩ ?_
    · refine ⟨restatedHeader.reverse, [], ?_, by simp, (List.reverse_perm _).symm⟩
      refine .cons ⟨by decide, .same _⟩ ?_
      refine .cons ⟨by decide, .number (by decide) (.number rfl) (Json.spellsNumber_repr _)⟩ ?_
      refine .cons ⟨by decide, .number (by decide) (Json.spellsNumber_repr _) (.number rfl)⟩ ?_
      refine .cons ⟨by decide, .number (by decide) (.number rfl) (Json.spellsNumber_repr 7)⟩ ?_
      refine .cons ⟨by decide, .number (by decide) (Json.spellsNumber_hex 0) (.number rfl)⟩ .nil
    · refine .cons ⟨by decide, .value (.same _)⟩ ?_
      refine .cons ⟨by decide, .value (.same _)⟩ ?_
      refine .cons ⟨by decide, .value (.same _)⟩ ?_
      refine .cons ⟨by decide, .value (.same _)⟩ ?_
      refine .cons ⟨by decide, .value (.same _)⟩ ?_
      refine .cons ⟨by decide, .tokens (by decide) (.cons (.object ?_) .nil)⟩ .nil
      refine ⟨(restatedToken.drop 1).reverse, restatedToken.take 1, ?_, ?_,
        (List.reverse_perm restatedToken).symm⟩
      · refine .cons ⟨by decide, .same _⟩ ?_
        refine .cons ⟨by decide, .same _⟩ ?_
        refine .cons ⟨by decide, .number (by decide) (Json.spellsNumber_repr 1)
          (Json.spellsNumber_hex 1)⟩ .nil
      · exact List.forall_mem_singleton.mpr (by decide)
  · exact List.forall_mem_singleton.mpr (by decide)

end Message

end CrossChain
