import CrossChain.Abi
import CrossChain.Borsh
import CrossChain.Proofs.Codec.Fixed
import CrossChain.Proofs.Outcomes
/-! Decoders that take exactly what a value is written as, whatever stands behind it. Values that
such a decoder reads are told apart by their bytes. -/
namespace CrossChain

namespace Decoder

variable {α β : Type}

/-- The bytes are what the decoder takes to give the value. -/
def Reads (d : Decoder α) (bs : Bytes) (a : α) : Prop :=
  ∀ rest, d (bs ++ rest) = some (a, rest)

theorem Reads.pure (a : α) : Reads (pure a) [] a := fun _ => rfl

theorem Reads.bind {d : Decoder α} {next : α → Decoder β} {bs cs : Bytes} {a : α} {b : β}
    (hd : Reads d bs a) (hnext : Reads (next a) cs b) : Reads (d >>= next) (bs ++ cs) b := by
  intro rest
  change (d (bs ++ cs ++ rest)).bind (fun p => next p.1 p.2) = _
  rw [List.append_assoc, hd]
  exact hnext rest

theorem Reads.bind_pure {d : Decoder α} {bs : Bytes} {a : α} (hd : Reads d bs a) (f : α → β) :
    Reads (d >>= fun a => Pure.pure (f a)) bs (f a) := by
  have hread : Reads (d >>= fun a => Pure.pure (f a)) (bs ++ []) (f a) :=
    hd.bind (Reads.pure (f a))
  rwa [List.append_nil] at hread

theorem Reads.run?_eq {d : Decoder α} {bs : Bytes} {a : α} (h : Reads d bs a) :
    d.run? bs = some a := by
  have hall := h []
  rw [List.append_nil] at hall
  rw [run?, hall]

/-- One decoder reads two values from the same bytes only if they are one value. -/
theorem Reads.append_inj {d : Decoder α} {bs cs r s : Bytes} {a b : α} (hbs : Reads d bs a)
    (hcs : Reads d cs b) (h : bs ++ r = cs ++ s) : a = b ∧ r = s := by
  have heq := (hbs r).symm.trans ((congrArg d h).trans (hcs s))
  simpa using heq

/-- Every value that the decoder gives has the property. -/
def Gives (d : Decoder α) (P : α → Prop) : Prop :=
  ∀ bs a rest, d bs = some (a, rest) → P a

theorem Gives.fail {P : α → Prop} : Gives fail P := fun _ _ _ h => nomatch h

theorem Gives.pure {P : α → Prop} {a : α} (h : P a) : Gives (Pure.pure a) P := by
  rintro bs _ rest ⟨⟩
  exact h

/-- It is the last step that decides what a decoder gives. -/
theorem Gives.of_next {d : Decoder α} {next : α → Decoder β} {P : β → Prop}
    (h : ∀ a, Gives (next a) P) : Gives (d >>= next) P := by
  intro bs b rest hb
  obtain ⟨⟨a, between⟩, -, hb⟩ := Option.bind_eq_some_iff.mp hb
  exact h a between b rest hb

theorem Gives.of_run? {d : Decoder α} {P : α → Prop} (h : Gives d P) {bs : Bytes} {a : α}
    (ha : d.run? bs = some a) : P a := by
  unfold run? at ha
  split at ha
  next a' hd =>
    cases ha
    exact h bs a [] hd
  next => cases ha

theorem reads_take {n : Nat} {bs : Bytes} (h : bs.length = n) : Reads (take n) bs bs :=
  take_append h

theorem reads_ofOption {a : α} {answer : Option α} (h : answer = some a) :
    Reads (ofOption answer) [] a := by
  rw [h]
  exact Reads.pure a

theorem reads_word (w : Bytes32) : Reads word w.toBytes w := by
  rw [← List.append_nil w.toBytes]
  exact (reads_take w.length_toBytes).bind (reads_ofOption w.ofBytes?_toBytes)

theorem reads_many {item : Decoder α} {as : List α} {encs : List Bytes}
    (h : List.Forall₂ (fun a enc => Reads item enc a) as encs) :
    Reads (many item as.length) encs.flatten as := by
  induction h with
  | nil => exact Reads.pure []
  | @cons a enc as encs ha _ ih =>
    rw [List.flatten_cons, ← List.append_nil encs.flatten]
    exact ha.bind (ih.bind (Reads.pure (a :: as)))

theorem reads_words (ws : List Bytes32) :
    Reads (many word ws.length) (ws.flatMap Bytes32.toBytes) ws := by
  rw [List.flatMap_def]
  apply reads_many
  rw [List.forall₂_map_right_iff, List.forall₂_same]
  exact fun w _ => reads_word w

end Decoder

namespace Borsh

/-- What starts with a length is written if the length fits four bytes. -/
theorem length?_bind_eq_some_iff {n : Nat} {next : Bytes → Option Bytes} {enc : Bytes} :
    length? n >>= next = some enc ↔
      n < UInt32.size ∧ next (Bytes.ofNatLE 4 n) = some enc := by
  unfold length?
  split
  next h => exact (and_iff_right h).symm
  next h => simp [h]

theorem bytes?_eq_some_iff {bs enc : Bytes} :
    bytes? bs = some enc ↔ bs.length < UInt32.size ∧ Bytes.ofNatLE 4 bs.length ++ bs = enc := by
  rw [bytes?, length?_bind_eq_some_iff, Option.pure_def, Option.some.injEq]

theorem words?_eq_some_iff {ws : List Bytes32} {enc : Bytes} :
    words? ws = some enc ↔ ws.length < UInt32.size ∧
      Bytes.ofNatLE 4 ws.length ++ ws.flatMap Bytes32.toBytes = enc := by
  rw [words?, length?_bind_eq_some_iff, Option.pure_def, Option.some.injEq]

theorem list?_eq_some_iff {α : Type} {item? : α → Option Bytes} {as : List α} {enc : Bytes} :
    list? item? as = some enc ↔ as.length < UInt32.size ∧
      ∃ encs, List.Forall₂ (fun a enc => item? a = some enc) as encs ∧
        Bytes.ofNatLE 4 as.length ++ encs.flatten = enc := by
  rw [list?, length?_bind_eq_some_iff]
  simp only [Option.bind_eq_bind, Option.bind_eq_some_iff, Option.mapM_eq_some_iff,
    Option.pure_def, Option.some.injEq]

theorem exists_bytes?_iff {bs : Bytes} :
    (∃ enc, bytes? bs = some enc) ↔ bs.length < UInt32.size := by
  simp [bytes?_eq_some_iff]

theorem exists_words?_iff {ws : List Bytes32} :
    (∃ enc, words? ws = some enc) ↔ ws.length < UInt32.size := by
  simp [words?_eq_some_iff]

theorem exists_list?_iff {α : Type} {item? : α → Option Bytes} {as : List α} :
    (∃ enc, list? item? as = some enc) ↔
      as.length < UInt32.size ∧ ∀ a ∈ as, ∃ enc, item? a = some enc := by
  simp [list?_eq_some_iff, exists_forall₂_iff]

namespace Decoder

open CrossChain.Decoder (Reads)

theorem reads_natural {width n : Nat} (h : n < 256 ^ width) :
    Reads (natural width) (Bytes.ofNatLE width n) n := by
  have hread :=
    (CrossChain.Decoder.reads_take (Bytes.length_ofNatLE width n)).bind_pure Bytes.toNatLE
  rwa [Bytes.toNatLE_ofNatLE, Nat.mod_eq_of_lt h] at hread

theorem reads_bool (b : Bool) : Reads bool (Borsh.bool b) b := by
  cases b
  · exact (reads_natural (by decide : 0 < 256 ^ 1)).bind (Reads.pure false)
  · exact (reads_natural (by decide : 1 < 256 ^ 1)).bind (Reads.pure true)

theorem reads_bytes {bs enc : Bytes} (h : bytes? bs = some enc) : Reads bytes enc bs := by
  obtain ⟨hlen, rfl⟩ := bytes?_eq_some_iff.mp h
  exact (reads_natural hlen).bind (CrossChain.Decoder.reads_take rfl)

theorem reads_words {ws : List Bytes32} {enc : Bytes} (h : words? ws = some enc) :
    Reads (list CrossChain.Decoder.word) enc ws := by
  obtain ⟨hlen, rfl⟩ := words?_eq_some_iff.mp h
  exact (reads_natural hlen).bind (CrossChain.Decoder.reads_words ws)

theorem reads_list {α : Type} {item? : α → Option Bytes} {item : Decoder α}
    (hitem : ∀ a enc, item? a = some enc → Reads item enc a) {as : List α} {enc : Bytes}
    (h : list? item? as = some enc) : Reads (list item) enc as := by
  obtain ⟨hlen, encs, hencs, rfl⟩ := list?_eq_some_iff.mp h
  exact (reads_natural hlen).bind
    (CrossChain.Decoder.reads_many (hencs.imp fun a enc => hitem a enc))

end Decoder

variable {r s : Bytes}

theorem bytes?_append_inj {bs cs enc other : Bytes} (hbs : bytes? bs = some enc)
    (hcs : bytes? cs = some other) (h : enc ++ r = other ++ s) : bs = cs ∧ r = s :=
  (Decoder.reads_bytes hbs).append_inj (Decoder.reads_bytes hcs) h

theorem words?_append_inj {ws vs : List Bytes32} {enc other : Bytes} (hws : words? ws = some enc)
    (hvs : words? vs = some other) (h : enc ++ r = other ++ s) : ws = vs ∧ r = s :=
  (Decoder.reads_words hws).append_inj (Decoder.reads_words hvs) h

theorem list?_append_inj {α : Type} {item? : α → Option Bytes}
    (hitem : ∀ a enc b other, item? a = some enc → item? b = some other →
      ∀ r s, enc ++ r = other ++ s → a = b ∧ r = s) {as bs : List α} {enc other : Bytes}
    (has : list? item? as = some enc) (hbs : list? item? bs = some other)
    (h : enc ++ r = other ++ s) : as = bs ∧ r = s := by
  obtain ⟨haslen, encs, hencs, rfl⟩ := list?_eq_some_iff.mp has
  obtain ⟨hbslen, others, hothers, rfl⟩ := list?_eq_some_iff.mp hbs
  rw [List.append_assoc, List.append_assoc, Bytes.ofNatLE_append_inj haslen hbslen] at h
  exact Bytes.flatten_append_inj hitem hencs hothers h.1 h.2

end Borsh

end CrossChain
