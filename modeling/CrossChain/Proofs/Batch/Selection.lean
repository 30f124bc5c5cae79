import CrossChain.Batch
import CrossChain.Proofs.Ascending
/-! The messages of a batch that stand for an interval. Each number has the first message of the
lane that carries it, and if the count of the chosen messages is right then no number is
missing. -/
namespace CrossChain

namespace Interval

def numbers (i : Interval) : List UInt64 :=
  (List.range' i.least.toNat (i.greatest.toNat + 1 - i.least.toNat)).map UInt64.ofNat

theorem contains_iff {i : Interval} {n : UInt64} :
    i.contains n ↔ i.least.toNat ≤ n.toNat ∧ n.toNat ≤ i.greatest.toNat := by
  simp [contains, UInt64.le_iff_toNat_le]

theorem mem_numbers {i : Interval} {n : UInt64} : n ∈ i.numbers ↔ i.contains n := by
  rw [contains_iff, numbers, List.mem_map]
  constructor
  · rintro ⟨k, hk, rfl⟩
    rw [List.mem_range'_1] at hk
    have hlt := i.greatest.toNat_lt
    rw [UInt64.toNat_ofNat_of_lt' (by rw [UInt64.size]; omega)]
    omega
  · intro h
    exact ⟨n.toNat, List.mem_range'_1.mpr (by omega), UInt64.ofNat_toNat⟩

end Interval

namespace Batch

variable {lane : Lane} {interval : Option Interval} {batch messages : List Message}

def first? (lane : Lane) (batch : List Message) (n : UInt64) : Option Message :=
  batch.find? fun m => lane.carries m && m.header.sequenceNumber = n

/-- An interval goes from the lowest to the highest number of the lane. -/
structure Spans (lane : Lane) (batch : List Message) (i : Interval) : Prop where
  least : ∃ m ∈ batch, lane.carries m ∧ m.header.sequenceNumber = i.least
  greatest : ∃ m ∈ batch, lane.carries m ∧ m.header.sequenceNumber = i.greatest
  contains : ∀ m ∈ batch, lane.carries m → i.contains m.header.sequenceNumber

/-- The interval that a proof is about: the given one, or else the one that the lane spans. -/
def IsScope (lane : Lane) (batch : List Message) (interval : Option Interval)
    (i : Interval) : Prop :=
  match interval with
  | some given => i = given
  | none => Spans lane batch i

theorem first?_spec {n : UInt64} {m : Message} (h : first? lane batch n = some m) :
    m ∈ batch ∧ lane.carries m ∧ m.header.sequenceNumber = n := by
  have hspec := List.find?_some h
  simp only [Bool.and_eq_true, decide_eq_true_eq] at hspec
  exact ⟨List.mem_of_find?_eq_some h, hspec⟩

theorem exists_first? {m : Message} (hm : m ∈ batch) (hcarries : lane.carries m) :
    ∃ a, first? lane batch m.header.sequenceNumber = some a := by
  rw [← Option.isSome_iff_exists, first?, List.find?_isSome]
  exact ⟨m, hm, by simp [hcarries]⟩

theorem mem_select {m : Message} : m ∈ select lane interval batch ↔
    first? lane batch m.header.sequenceNumber = some m ∧
      interval.all fun i => i.contains m.header.sequenceNumber := by
  -- Among the messages with the number of `m`, those of the interval are all or none.
  have hsame : ∀ b : Message,
      (decide (counts lane interval b ∧
        decide (b.header.sequenceNumber.toNat = m.header.sequenceNumber.toNat))) =
      (decide ((interval.all fun i => i.contains m.header.sequenceNumber) ∧
        (lane.carries b && decide (b.header.sequenceNumber = m.header.sequenceNumber)))) := by
    intro b
    by_cases hb : b.header.sequenceNumber = m.header.sequenceNumber
    · simp [counts, hb, and_comm]
    · simp [hb, UInt64.toNat_inj]
  rw [select, Ascending.mem_ofList_iff, List.find?_filter, funext hsame, first?]
  cases interval.all fun i => i.contains m.header.sequenceNumber with
  | true => simp
  | false =>
    have hnone : batch.find? (fun _ => false) = none := List.find?_eq_none.mpr (by simp)
    simp [hnone]

theorem mem_select_none {m : Message} :
    m ∈ select lane none batch ↔ first? lane batch m.header.sequenceNumber = some m := by
  rw [mem_select]
  simp

theorem mem_select_of_first? {n : UInt64} {m : Message} (h : first? lane batch n = some m) :
    m ∈ select lane none batch := by
  rw [mem_select_none, (first?_spec h).2.2, h]

theorem pairwise_select : (select lane interval batch).Pairwise
    fun a b => a.header.sequenceNumber.toNat < b.header.sequenceNumber.toNat :=
  Ascending.pairwise_ofList _ _

theorem length_select_le : (select lane interval batch).length ≤ batch.length := by
  have hnodup : (select lane interval batch).Nodup := Ascending.nodup_of_pairwise pairwise_select
  have hsubset : select lane interval batch ⊆ batch :=
    fun _ hm => (first?_spec (mem_select.mp hm).1).1
  exact (List.subperm_of_subset hnodup hsubset).length_le

/-- Messages fill an interval: the first message for each of its numbers, in ascending order. -/
structure Fills (lane : Lane) (batch : List Message) (i : Interval)
    (messages : List Message) : Prop where
  numbers : messages.map (·.header.sequenceNumber) = i.numbers
  ascending : messages.Pairwise
    fun a b => a.header.sequenceNumber.toNat < b.header.sequenceNumber.toNat
  first : ∀ m ∈ messages, first? lane batch m.header.sequenceNumber = some m

theorem Fills.exists_number {i : Interval} (h : Fills lane batch i messages) {n : UInt64}
    (hn : i.contains n) : ∃ m ∈ messages, m.header.sequenceNumber = n := by
  rw [← Interval.mem_numbers, ← h.numbers] at hn
  exact List.mem_map.mp hn

theorem Fills.contains {i : Interval} (h : Fills lane batch i messages) {m : Message}
    (hm : m ∈ messages) : i.contains m.header.sequenceNumber := by
  rw [← Interval.mem_numbers, ← h.numbers]
  exact List.mem_map_of_mem hm

/-- The right count of ascending numbers of an interval leaves none of them out. -/
theorem numbers_eq {i : Interval} (hne : messages ≠ []) (hsize : messages.length = i.size)
    (hlength : messages.length < UInt64.size - 1)
    (hascending : messages.Pairwise
      fun a b => a.header.sequenceNumber.toNat < b.header.sequenceNumber.toNat)
    (hcontains : ∀ m ∈ messages, i.contains m.header.sequenceNumber) :
    messages.map (·.header.sequenceNumber) = i.numbers := by
  obtain ⟨m, hm⟩ := List.exists_mem_of_ne_nil messages hne
  have hbounds := Interval.contains_iff.mp (hcontains m hm)
  have hcount : messages.length = i.greatest.toNat + 1 - i.least.toNat := by
    rw [Interval.size] at hsize
    omega
  have hrange : messages.map (·.header.sequenceNumber.toNat) =
      List.range' i.least.toNat messages.length := by
    have hpairwise : (messages.map (·.header.sequenceNumber.toNat)).Pairwise (· < ·) :=
      List.pairwise_map.mpr hascending
    have hmem : ∀ n ∈ messages.map (·.header.sequenceNumber.toNat), i.least.toNat ≤ n ∧
        n < i.least.toNat + (messages.map (·.header.sequenceNumber.toNat)).length := by
      intro n hn
      obtain ⟨a, ha, rfl⟩ := List.mem_map.mp hn
      have := Interval.contains_iff.mp (hcontains a ha)
      rw [List.length_map]
      omega
    simpa only [List.length_map] using Ascending.eq_range'_of_pairwise hpairwise hmem
  rw [Interval.numbers, ← hcount, ← hrange, List.map_map]
  apply List.map_congr_left
  intro a _
  exact UInt64.ofNat_toNat.symm

theorem span_eq_some_iff {i : Interval} : span messages = some i ↔
    ∃ first last, messages.head? = some first ∧ messages.getLast? = some last ∧
      i = ⟨first.header.sequenceNumber, last.header.sequenceNumber⟩ := by
  simp only [span, Option.bind_eq_bind, Option.bind_eq_some_iff, Option.pure_def,
    Option.some.injEq]
  constructor
  · rintro ⟨first, hfirst, last, hlast, rfl⟩
    exact ⟨first, last, hfirst, hlast, rfl⟩
  · rintro ⟨first, last, hfirst, hlast, rfl⟩
    exact ⟨first, hfirst, last, hlast, rfl⟩

theorem Spans.unique {i j : Interval} (hi : Spans lane batch i) (hj : Spans lane batch j) :
    i = j := by
  obtain ⟨a, ha, hacarries, haleast⟩ := hi.least
  obtain ⟨b, hb, hbcarries, hbgreatest⟩ := hi.greatest
  obtain ⟨c, hc, hccarries, hcleast⟩ := hj.least
  obtain ⟨d, hd, hdcarries, hdgreatest⟩ := hj.greatest
  have hajs := Interval.contains_iff.mp (hj.contains a ha hacarries)
  have hbjs := Interval.contains_iff.mp (hj.contains b hb hbcarries)
  have hcis := Interval.contains_iff.mp (hi.contains c hc hccarries)
  have hdis := Interval.contains_iff.mp (hi.contains d hd hdcarries)
  rw [haleast] at hajs
  rw [hbgreatest] at hbjs
  rw [hcleast] at hcis
  rw [hdgreatest] at hdis
  cases i
  cases j
  rw [Interval.mk.injEq, ← UInt64.toNat_inj, ← UInt64.toNat_inj]
  dsimp only at hajs hbjs hcis hdis
  omega

/-- With no interval given, the chosen messages go from the lowest number to the highest one. -/
theorem spans_of_span {i : Interval} (h : span (select lane none batch) = some i) :
    Spans lane batch i := by
  obtain ⟨first, last, hfirst, hlast, rfl⟩ := span_eq_some_iff.mp h
  have hofFirst := first?_spec (mem_select_none.mp (List.mem_of_head? hfirst))
  have hofLast := first?_spec (mem_select_none.mp (List.mem_of_getLast? hlast))
  refine ⟨⟨first, hofFirst.1, hofFirst.2.1, rfl⟩, ⟨last, hofLast.1, hofLast.2.1, rfl⟩, ?_⟩
  intro m hm hcarries
  obtain ⟨a, ha⟩ := exists_first? hm hcarries
  have hnumber := (first?_spec ha).2.2
  have hleast := Ascending.head_le pairwise_select hfirst (mem_select_of_first? ha)
  have hgreatest := Ascending.le_getLast pairwise_select hlast (mem_select_of_first? ha)
  rw [← hnumber, Interval.contains_iff]
  exact ⟨hleast, hgreatest⟩

theorem eq_select_of_complete (h : complete lane interval batch = .ok messages) :
    messages = select lane interval batch ∧
      ∃ own, span messages = some own ∧ messages.length = (interval.getD own).size := by
  unfold complete at h
  dsimp only at h
  split at h
  next => cases h
  next own hown =>
    split at h
    next hsize =>
      cases h
      exact ⟨rfl, own, hown, hsize⟩
    next => cases h

/-- If all numbers of the interval must be there, the chosen messages fill it. -/
theorem fills_of_complete (hlength : batch.length < UInt64.size - 1)
    (h : complete lane interval batch = .ok messages) :
    ∃ i, IsScope lane batch interval i ∧ Fills lane batch i messages := by
  obtain ⟨rfl, own, hown, hsize⟩ := eq_select_of_complete h
  -- The count is right for the interval in question, in which all chosen messages lie.
  obtain ⟨i, hi, hscope, hcontains⟩ : ∃ i, i = interval.getD own ∧
      IsScope lane batch interval i ∧
        ∀ m ∈ select lane interval batch, i.contains m.header.sequenceNumber := by
    cases interval with
    | some given =>
      exact ⟨given, rfl, rfl, fun m hm => by simpa using (mem_select.mp hm).2⟩
    | none =>
      have hspans := spans_of_span hown
      refine ⟨own, rfl, hspans, fun m hm => ?_⟩
      have hspec := first?_spec (mem_select.mp hm).1
      exact hspans.contains m hspec.1 hspec.2.1
  obtain ⟨first, -, hfirst, -⟩ := span_eq_some_iff.mp hown
  have hne : select lane interval batch ≠ [] := List.ne_nil_of_mem (List.mem_of_head? hfirst)
  have hshort : (select lane interval batch).length < UInt64.size - 1 :=
    Nat.lt_of_le_of_lt length_select_le hlength
  exact ⟨i, hscope, numbers_eq hne (hi ▸ hsize) hshort pairwise_select hcontains,
    pairwise_select, fun m hm => (mem_select.mp hm).1⟩

end Batch

end CrossChain
