import CrossChain.Event.Reader
import CrossChain.Proofs.Json.Integer
import CrossChain.Proofs.Json.Record
/-! The records of an event stated anew: fields under their other names, numbers in other spellings,
and members that no record has a field for. What is read of a record is read of the record stated
anew. -/
namespace CrossChain

namespace EventReader

open EventField

def tokenAmountSlots : List Json.Slot := [token.slot, amount.slot]

def headerSlots : List Json.Slot :=
  [messageId.slot, source.slot, dest.slot, sequenceNumber.slot, nonce.slot]

def transferSlots : List Json.Slot :=
  [sourcePool.slot, destToken.slot, extraData.slot, amount.slot, destGas.slot, execData.slot]

/-- The fields of the records of either shape. -/
def slots : List Json.Slot :=
  legacySlots ++ rampSlots ++ headerSlots ++ tokenAmountSlots ++ transferSlots

/-- The fields that are numbers. -/
def numberSlots : List Json.Slot :=
  [source.slot, dest.slot, sequenceNumber.slot, nonce.slot, gasLimit.slot, feeTokenAmount.slot,
    feeValueJuels.slot, amount.slot, destGas.slot]

end EventReader

namespace Event

open EventReader EventField

/-- The names of the fields, and the name under which a message is wrapped. -/
def vocabulary : Json.Vocabulary where
  groups := ["message"] :: slots.map Json.Slot.names
  coherent := by decide +kernel

theorem covers_of_forall_mem {part : List Json.Slot} (h : ∀ slot ∈ part, slot ∈ slots) :
    vocabulary.Covers part :=
  fun slot hslot => List.mem_cons_of_mem _ (List.mem_map_of_mem (h slot hslot))

/-- A value of a field: the same one, or a number in another spelling. -/
inductive RestatedValue (key : String) : Json → Json → Prop where
  | same (v : Json) : RestatedValue key v v
  | number {n : Nat} {v v' : Json} (hkey : key ∈ numberSlots.flatMap Json.Slot.names)
      (h : v.SpellsNumber n) (h' : v'.SpellsNumber n) : RestatedValue key v v'

/-- A value of a field of the message, which may be a record or a list of records itself. -/
inductive RestatedField (entrySlots : List Json.Slot) (key : String) : Json → Json → Prop where
  | value {v v' : Json} (h : RestatedValue key v v') : RestatedField entrySlots key v v'
  | header {ms ms' : Json.Members} (hkey : key = "header")
      (h : Json.Restated vocabulary RestatedValue ms ms') :
      RestatedField entrySlots key (.object ms) (.object ms')
  | tokens {items items' : List Json} (hkey : key ∈ amounts.slot.names)
      (h : List.Forall₂ (Json.RestatedRecord vocabulary RestatedValue entrySlots) items items') :
      RestatedField entrySlots key (.array items) (.array items')

/-- The fields that hold records. -/
def nestedNames : List String := "header" :: amounts.slot.names

/-- Fields apart from those that hold records have values that are stated anew as such. -/
def IsFlat (R : String → Json → Json → Prop) : Prop :=
  ∀ key v v', key ∉ nestedNames → R key v v' → RestatedValue key v v'

theorem isFlat_restatedValue : IsFlat RestatedValue := fun _ _ _ _ h => h

theorem isFlat_restatedField (entrySlots : List Json.Slot) : IsFlat (RestatedField entrySlots) := by
  intro key v v' hkey h
  rw [nestedNames, List.mem_cons, not_or] at hkey
  cases h with
  | value h => exact h
  | header hheader => exact absurd hheader hkey.1
  | tokens htokens => exact absurd htokens hkey.2

section Fields

variable {R : String → Json → Json → Prop} (hR : IsFlat R)
include hR

theorem IsFlat.plain {α : Type} {field : Json.Field α} (hnames : ∀ key ∈ field.slot.names,
      key ∉ nestedNames ∧ key ∉ numberSlots.flatMap Json.Slot.names) : field.Respects R := by
  intro key hkey v v' hv
  cases hR key v v' (hnames key hkey).1 hv with
  | same => exact .refl _
  | number hnumber => exact absurd hnumber (hnames key hkey).2

/-- A number is read from any of its spellings, if it is read at all. -/
theorem IsFlat.number {α : Type} {field : Json.Field α}
    (hnames : ∀ key ∈ field.slot.names, key ∉ nestedNames)
    (hread : ∀ {n v v'}, Json.SpellsNumber n v → Json.SpellsNumber n v' →
      YieldsAlso (field.read v) (field.read v')) : field.Respects R := by
  intro key hkey v v' hv
  cases hR key v v' (hnames key hkey) hv with
  | same => exact .refl _
  | number _ h h' => exact hread h h'

theorem IsFlat.messageId : EventField.messageId.Respects R := hR.plain (by decide)

theorem IsFlat.source : EventField.source.Respects R :=
  hR.number (by decide) Json.yieldsAlso_u64

theorem IsFlat.dest : EventField.dest.Respects R :=
  hR.number (by decide) Json.yieldsAlso_u64

theorem IsFlat.sequenceNumber : EventField.sequenceNumber.Respects R :=
  hR.number (by decide) Json.yieldsAlso_u64

theorem IsFlat.nonce : EventField.nonce.Respects R :=
  hR.number (by decide) Json.yieldsAlso_u64

theorem IsFlat.sender : EventField.sender.Respects R := hR.plain (by decide)

theorem IsFlat.receiver : EventField.receiver.Respects R := hR.plain (by decide)

theorem IsFlat.data : EventField.data.Respects R := hR.plain (by decide)

theorem IsFlat.feeToken : EventField.feeToken.Respects R := hR.plain (by decide)

theorem IsFlat.feeTokenAmount : EventField.feeTokenAmount.Respects R :=
  hR.number (by decide) Json.yieldsAlso_u256

theorem IsFlat.gasLimit : EventField.gasLimit.Respects R :=
  hR.number (by decide) Json.yieldsAlso_u256

theorem IsFlat.strict : EventField.strict.Respects R := hR.plain (by decide)

theorem IsFlat.tokenData : EventField.tokenData.Respects R := hR.plain (by decide)

theorem IsFlat.extraArgs : EventField.extraArgs.Respects R := hR.plain (by decide)

theorem IsFlat.feeValueJuels : EventField.feeValueJuels.Respects R :=
  hR.number (by decide) Json.yieldsAlso_u256

theorem IsFlat.token : EventField.token.Respects R := hR.plain (by decide)

theorem IsFlat.amount : EventField.amount.Respects R :=
  hR.number (by decide) Json.yieldsAlso_u256

theorem IsFlat.sourcePool : EventField.sourcePool.Respects R := hR.plain (by decide)

theorem IsFlat.destToken : EventField.destToken.Respects R := hR.plain (by decide)

theorem IsFlat.extraData : EventField.extraData.Respects R := hR.plain (by decide)

theorem IsFlat.destGas : EventField.destGas.Respects R :=
  hR.number (by decide) Json.yieldsAlso_optional_u64

theorem IsFlat.execData : EventField.execData.Respects R := hR.plain (by decide)

end Fields

theorem yieldsAlso_header {v v' : Json}
    (h : Json.RestatedRecord vocabulary RestatedValue headerSlots v v') :
    YieldsAlso (EventReader.header v) (EventReader.header v') := by
  have hR := isFlat_restatedValue
  have hcovers : vocabulary.Covers headerSlots :=
    covers_of_forall_mem fun slot hslot => by simp [slots, hslot]
  have hslots : ∀ slot ∈ headerSlots, slot.Respects RestatedValue := by
    simpa [headerSlots] using ⟨hR.messageId.slot, hR.source.slot, hR.dest.slot,
      hR.sequenceNumber.slot, hR.nonce.slot⟩
  refine h.bind_members hcovers hslots fun ms ms' hms => ?_
  refine (hms.get (by simp [headerSlots]) hR.messageId).bind fun _ => ?_
  refine (hms.get (by simp [headerSlots]) hR.source).bind fun _ => ?_
  refine (hms.get (by simp [headerSlots]) hR.dest).bind fun _ => ?_
  refine (hms.get (by simp [headerSlots]) hR.sequenceNumber).bind fun _ => ?_
  exact (hms.get (by simp [headerSlots]) hR.nonce).bind fun _ => .ok _

theorem yieldsAlso_tokenAmount {v v' : Json}
    (h : Json.RestatedRecord vocabulary RestatedValue tokenAmountSlots v v') :
    YieldsAlso (EventReader.tokenAmount v) (EventReader.tokenAmount v') := by
  have hR := isFlat_restatedValue
  have hcovers : vocabulary.Covers tokenAmountSlots :=
    covers_of_forall_mem fun slot hslot => by simp [slots, hslot]
  have hslots : ∀ slot ∈ tokenAmountSlots, slot.Respects RestatedValue := by
    simpa [tokenAmountSlots] using ⟨hR.token.slot, hR.amount.slot⟩
  refine h.bind_members hcovers hslots fun ms ms' hms => ?_
  refine (hms.get (by simp [tokenAmountSlots]) hR.token).bind fun _ => ?_
  exact (hms.get (by simp [tokenAmountSlots]) hR.amount).bind fun _ => .ok _

theorem yieldsAlso_transfer {v v' : Json}
    (h : Json.RestatedRecord vocabulary RestatedValue transferSlots v v') :
    YieldsAlso (EventReader.transfer v) (EventReader.transfer v') := by
  have hR := isFlat_restatedValue
  have hcovers : vocabulary.Covers transferSlots :=
    covers_of_forall_mem fun slot hslot => by simp [slots, hslot]
  have hslots : ∀ slot ∈ transferSlots, slot.Respects RestatedValue := by
    simpa [transferSlots] using ⟨hR.sourcePool.slot, hR.destToken.slot, hR.extraData.slot,
      hR.amount.slot, hR.destGas.slot, hR.execData.slot⟩
  refine h.bind_members hcovers hslots fun ms ms' hms => ?_
  refine (hms.get (by simp [transferSlots]) hR.sourcePool).bind fun _ => ?_
  refine (hms.get (by simp [transferSlots]) hR.destToken).bind fun _ => ?_
  refine (hms.get (by simp [transferSlots]) hR.extraData).bind fun _ => ?_
  refine (hms.get (by simp [transferSlots]) hR.amount).bind fun _ => ?_
  refine (hms.get (by simp [transferSlots]) hR.destGas).bind fun _ => ?_
  exact (hms.get (by simp [transferSlots]) hR.execData).bind fun _ => .ok _

variable {entrySlots : List Json.Slot}

theorem respects_headerField : headerField.Respects (RestatedField entrySlots) := by
  intro key hkey v v' hv
  obtain rfl : key = "header" := List.mem_singleton.mp hkey
  cases hv with
  | value h =>
    cases h with
    | same => exact .refl _
    | number hnumber => exact absurd hnumber (by decide)
  | header _ h => exact yieldsAlso_header (.object h)
  | tokens htokens => exact absurd htokens (by decide)

/-- Lists of records are read alike if the records are. -/
theorem respects_tokens {α : Type} {item : Json.Reader α}
    (hitem : ∀ v v', Json.RestatedRecord vocabulary RestatedValue entrySlots v v' →
      YieldsAlso (item v) (item v')) : (tokens item).Respects (RestatedField entrySlots) := by
  intro key hkey v v' hv
  have hplain : ∀ key ∈ amounts.slot.names,
      key ∉ numberSlots.flatMap Json.Slot.names ∧ key ≠ "header" := by decide
  cases hv with
  | value h =>
    cases h with
    | same => exact .refl _
    | number hnumber => exact absurd hnumber (hplain key hkey).1
  | header hheader => exact absurd hheader (hplain key hkey).2
  | tokens _ h => exact .mapM hitem h

theorem yieldsAlso_legacy {v v' : Json}
    (h : Json.RestatedRecord vocabulary (RestatedField tokenAmountSlots) legacySlots v v') :
    YieldsAlso (EventReader.legacy v) (EventReader.legacy v') := by
  have hR := isFlat_restatedField tokenAmountSlots
  have hamounts : amounts.Respects (RestatedField tokenAmountSlots) :=
    respects_tokens fun _ _ => yieldsAlso_tokenAmount
  have hcovers : vocabulary.Covers legacySlots :=
    covers_of_forall_mem fun slot hslot => by simp [slots, hslot]
  have hslots : ∀ slot ∈ legacySlots, slot.Respects (RestatedField tokenAmountSlots) := by
    simpa [legacySlots] using ⟨hR.source.slot, hR.sequenceNumber.slot, hR.nonce.slot,
      hR.sender.slot, hR.receiver.slot, hR.gasLimit.slot, hR.strict.slot, hR.feeToken.slot,
      hR.feeTokenAmount.slot, hR.data.slot, hamounts.slot, hR.tokenData.slot, hR.messageId.slot⟩
  refine h.bind_members hcovers hslots fun ms ms' hms => ?_
  refine (hms.get (by simp [legacySlots]) hR.source).bind fun _ => ?_
  refine (hms.get (by simp [legacySlots]) hR.sequenceNumber).bind fun _ => ?_
  refine (hms.get (by simp [legacySlots]) hR.nonce).bind fun _ => ?_
  refine (hms.get (by simp [legacySlots]) hR.sender).bind fun _ => ?_
  refine (hms.get (by simp [legacySlots]) hR.receiver).bind fun _ => ?_
  refine (hms.get (by simp [legacySlots]) hR.gasLimit).bind fun _ => ?_
  refine (hms.get (by simp [legacySlots]) hR.strict).bind fun _ => ?_
  refine (hms.get (by simp [legacySlots]) hR.feeToken).bind fun _ => ?_
  refine (hms.get (by simp [legacySlots]) hR.feeTokenAmount).bind fun _ => ?_
  refine (hms.get (by simp [legacySlots]) hR.data).bind fun _ => ?_
  refine (hms.get (by simp [legacySlots]) hamounts).bind fun _ => ?_
  refine (hms.get (by simp [legacySlots]) hR.tokenData).bind fun _ => ?_
  exact (hms.get (by simp [legacySlots]) hR.messageId).bind fun _ => .ok _

theorem yieldsAlso_ramp {v v' : Json}
    (h : Json.RestatedRecord vocabulary (RestatedField transferSlots) rampSlots v v') :
    YieldsAlso (EventReader.ramp v) (EventReader.ramp v') := by
  have hR := isFlat_restatedField transferSlots
  have hheader : headerField.Respects (RestatedField transferSlots) := respects_headerField
  have htransfers : transfers.Respects (RestatedField transferSlots) :=
    respects_tokens fun _ _ => yieldsAlso_transfer
  have hcovers : vocabulary.Covers rampSlots :=
    covers_of_forall_mem fun slot hslot => by simp [slots, hslot]
  have hslots : ∀ slot ∈ rampSlots, slot.Respects (RestatedField transferSlots) := by
    simpa [rampSlots] using ⟨hheader.slot, hR.sender.slot, hR.receiver.slot, hR.data.slot,
      hR.extraArgs.slot, hR.feeToken.slot, hR.feeTokenAmount.slot, hR.feeValueJuels.slot,
      htransfers.slot⟩
  refine h.bind_members hcovers hslots fun ms ms' hms => ?_
  refine (hms.get (by simp [rampSlots]) hheader).bind fun _ => ?_
  refine (hms.get (by simp [rampSlots]) hR.sender).bind fun _ => ?_
  refine (hms.get (by simp [rampSlots]) hR.receiver).bind fun _ => ?_
  refine (hms.get (by simp [rampSlots]) hR.data).bind fun _ => ?_
  refine (hms.get (by simp [rampSlots]) hR.extraArgs).bind fun _ => ?_
  refine (hms.get (by simp [rampSlots]) hR.feeToken).bind fun _ => ?_
  refine (hms.get (by simp [rampSlots]) hR.feeTokenAmount).bind fun _ => ?_
  refine (hms.get (by simp [rampSlots]) hR.feeValueJuels).bind fun _ => ?_
  exact (hms.get (by simp [rampSlots]) htransfers).bind fun _ => .ok _

end Event

end CrossChain
