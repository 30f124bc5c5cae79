/-! Indexes of lists: for each key the position of the item that has it. An index is built next to
its list, one item at a time, so that it points to all of the list and to nothing else as long as
no key comes twice. -/
namespace CrossChain

/-- The entries of an index. Of two for one key the one that came later, which stands first,
counts. -/
structure Index (κ : Type) where
  entries : List (κ × Nat)

namespace Index

variable {κ α : Type} [DecidableEq κ] {ix : Index κ} {key : α → κ} {items : List α}

def empty : Index κ := ⟨[]⟩

def insert (ix : Index κ) (k : κ) (i : Nat) : Index κ := ⟨(k, i) :: ix.entries⟩

def position? (ix : Index κ) (k : κ) : Option Nat := ix.entries.lookup k

@[simp] theorem position?_empty (k : κ) : empty.position? k = none := rfl

theorem position?_insert (ix : Index κ) (k k' : κ) (i : Nat) :
    (ix.insert k i).position? k' = if k' = k then some i else ix.position? k' := by
  simp only [position?, insert, List.lookup_cons]
  split <;> simp_all

/-- A key is where the index says, and nowhere else. -/
def Points (ix : Index κ) (key : α → κ) (items : List α) : Prop :=
  ∀ k i, ix.position? k = some i ↔ items[i]?.map key = some k

namespace Points

theorem empty : (Index.empty : Index κ).Points key [] := by
  intro k i
  simp

theorem position?_isSome_iff (h : ix.Points key items) {k : κ} :
    (ix.position? k).isSome ↔ k ∈ items.map key := by
  simp only [Option.isSome_iff_exists, List.mem_iff_getElem?, List.getElem?_map, h k]

theorem lt_length (h : ix.Points key items) {k : κ} {i : Nat} (hi : ix.position? k = some i) :
    i < items.length := by
  obtain ⟨a, ha, -⟩ := Option.map_eq_some_iff.mp ((h k i).mp hi)
  exact (List.getElem?_eq_some_iff.mp ha).1

/-- A new item at the end of the list, and its position in the index. -/
theorem insert (h : ix.Points key items) {a : α} (hnew : key a ∉ items.map key) :
    (ix.insert (key a) items.length).Points key (items ++ [a]) := by
  intro k i
  rw [position?_insert, List.getElem?_append]
  by_cases hi : i < items.length
  · rw [if_pos hi]
    split
    next hk =>
      refine iff_of_false (fun hlast => absurd (Option.some.inj hlast) (by omega)) fun hold => ?_
      rw [← List.getElem?_map, hk] at hold
      exact hnew (List.mem_of_getElem? hold)
    next => exact h k i
  · rw [if_neg hi, List.getElem?_singleton]
    split
    next hk =>
      by_cases hlast : i - items.length = 0
      · have : items.length = i := by omega
        simp [hk, this]
      · have : items.length ≠ i := by omega
        simp [hlast, this]
    next hk =>
      refine iff_of_false (fun hold => hi (h.lt_length hold)) ?_
      split
      · simp [Ne.symm hk]
      · simp

end Points

/-- The item with a key, at the position that the index has for it. -/
def find? (ix : Index κ) (h : ix.Points key items) (k : κ) : Option α :=
  match hi : ix.position? k with
  | none => none
  | some i => some (items.get ⟨i, h.lt_length hi⟩)

theorem find?_eq_some_iff (h : ix.Points key items) {k : κ} {a : α} :
    ix.find? h k = some a ↔ a ∈ items ∧ key a = k := by
  have hmem : (a ∈ items ∧ key a = k) ↔ ∃ i, ix.position? k = some i ∧ items[i]? = some a := by
    simp only [h k, List.mem_iff_getElem?]
    constructor
    · rintro ⟨⟨i, hi⟩, hk⟩
      exact ⟨i, by rw [hi, Option.map_some, hk], hi⟩
    · rintro ⟨i, hk, hi⟩
      rw [hi, Option.map_some] at hk
      exact ⟨⟨i, hi⟩, Option.some.inj hk⟩
  rw [hmem]
  unfold find?
  split
  next hi => simp [hi]
  next i hi => simp [hi, List.getElem?_eq_getElem (h.lt_length hi)]

end Index

end CrossChain
