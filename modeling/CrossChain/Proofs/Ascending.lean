import Mathlib
import CrossChain.Ascending
/-! Looking up keys in ascending lists: for each key the list holds the first item that has it.
An ascending list of numbers that fills an interval holds all of its numbers. -/
namespace CrossChain.Ascending

variable {α : Type} {key : α → Nat}

theorem find?_insert_of_ne {a : α} {k : Nat} (h : key a ≠ k) (l : List α) :
    (insert key a l).find? (fun b => key b = k) = l.find? fun b => key b = k := by
  induction l with
  | nil => simp [insert, h]
  | cons b rest ih =>
    unfold insert
    split
    · simp [h]
    split
    · rfl
    · rw [List.find?_cons, List.find?_cons, ih]

theorem find?_insert_self (a : α) {l : List α} (hl : l.Pairwise fun b c => key b < key c) :
    (insert key a l).find? (fun b => key b = key a) =
      (l.find? fun b => key b = key a).or (some a) := by
  induction l with
  | nil => simp [insert]
  | cons b rest ih =>
    have hb := List.pairwise_cons.mp hl
    unfold insert
    split
    next hlt =>
      have hnone : (b :: rest).find? (fun c => key c = key a) = none := by
        rw [List.find?_eq_none]
        intro c hc
        rcases List.mem_cons.mp hc with rfl | hc
        · simp only [decide_eq_true_eq]
          omega
        · have := hb.1 c hc
          simp only [decide_eq_true_eq]
          omega
      rw [hnone]
      simp
    split
    next heq => simp [heq]
    next hne => simp [Ne.symm hne, ih hb.2]

theorem find?_ofList (items : List α) (k : Nat) :
    (ofList key items).find? (fun b => key b = k) = items.find? fun b => key b = k := by
  suffices ∀ sorted : List α, (sorted.Pairwise fun b c => key b < key c) →
      (items.foldl (fun sorted a => insert key a sorted) sorted).find? (fun b => key b = k) =
        (sorted.find? fun b => key b = k).or (items.find? fun b => key b = k) by
    simpa [ofList] using this [] .nil
  induction items with
  | nil => simp
  | cons a rest ih =>
    intro sorted hsorted
    rw [List.foldl_cons, ih _ (pairwise_insert a hsorted), List.find?_cons]
    by_cases h : key a = k
    · subst h
      simp [find?_insert_self a hsorted]
    · simp [find?_insert_of_ne h, h]

theorem mem_iff_find?_eq_some {a : α} {l : List α} (hl : l.Pairwise fun b c => key b < key c) :
    a ∈ l ↔ l.find? (fun b => key b = key a) = some a := by
  refine ⟨fun ha => ?_, List.mem_of_find?_eq_some⟩
  induction l with
  | nil => simp at ha
  | cons b rest ih =>
    have hb := List.pairwise_cons.mp hl
    rcases List.mem_cons.mp ha with rfl | ha
    · simp
    · have hlt := hb.1 a ha
      rw [List.find?_cons_of_neg (by simp only [decide_eq_true_eq]; omega), ih hb.2 ha]

/-- An item is in the list if it is the first one with its key. -/
theorem mem_ofList_iff {a : α} {items : List α} :
    a ∈ ofList key items ↔ items.find? (fun b => key b = key a) = some a := by
  rw [mem_iff_find?_eq_some (pairwise_ofList key items), find?_ofList]

theorem mem_ofList_id {n : Nat} {items : List Nat} : n ∈ ofList id items ↔ n ∈ items := by
  rw [mem_ofList_iff]
  constructor
  · exact List.mem_of_find?_eq_some
  · intro hn
    obtain ⟨m, hm⟩ : ∃ m, items.find? (fun b => id b = id n) = some m := by
      rw [← Option.isSome_iff_exists, List.find?_isSome]
      exact ⟨n, hn, by simp⟩
    have hmn := List.find?_some hm
    simp only [id_eq, decide_eq_true_eq] at hmn
    rw [hm, hmn]

theorem pairwise_filterMap_getElem? {R : α → α → Prop} {l : List α} (hl : l.Pairwise R)
    (positions : List Nat) : ((ofList id positions).filterMap (l[·]?)).Pairwise R := by
  rw [List.pairwise_filterMap]
  refine (pairwise_ofList id positions).imp fun {i j} hij a ha b hb => ?_
  obtain ⟨hi, rfl⟩ := List.getElem?_eq_some_iff.mp ha
  obtain ⟨hj, rfl⟩ := List.getElem?_eq_some_iff.mp hb
  exact List.pairwise_iff_getElem.mp hl i j hi hj hij

theorem head_le {a first : α} {l : List α} (hl : l.Pairwise fun b c => key b < key c)
    (hfirst : l.head? = some first) (ha : a ∈ l) : key first ≤ key a := by
  obtain ⟨rest, rfl⟩ := List.head?_eq_some_iff.mp hfirst
  rcases List.mem_cons.mp ha with rfl | ha
  · exact le_rfl
  · exact (List.rel_of_pairwise_cons hl ha).le

theorem le_getLast {a last : α} {l : List α} (hl : l.Pairwise fun b c => key b < key c)
    (hlast : l.getLast? = some last) (ha : a ∈ l) : key a ≤ key last := by
  obtain ⟨init, rfl⟩ := List.getLast?_eq_some_iff.mp hlast
  rcases List.mem_append.mp ha with ha | ha
  · exact ((List.pairwise_append.mp hl).2.2 a ha last (by simp)).le
  · rw [List.mem_singleton.mp ha]

theorem nodup_of_pairwise {l : List α} (hl : l.Pairwise fun b c => key b < key c) : l.Nodup := by
  refine hl.imp fun hlt heq => ?_
  rw [heq] at hlt
  exact Nat.lt_irrefl _ hlt

theorem eq_of_perm {l r : List α} (hl : l.Pairwise fun b c => key b < key c)
    (hr : r.Pairwise fun b c => key b < key c) (h : l.Perm r) : l = r :=
  h.eq_of_pairwise (fun _ _ _ _ hab hba => absurd hab (Nat.lt_asymm hba)) hl hr

/-- Ascending lists are told apart by their members. -/
theorem eq_of_mem_iff {l r : List α} (hl : l.Pairwise fun b c => key b < key c)
    (hr : r.Pairwise fun b c => key b < key c) (h : ∀ a, a ∈ l ↔ a ∈ r) : l = r :=
  eq_of_perm hl hr
    ((List.perm_ext_iff_of_nodup (nodup_of_pairwise hl) (nodup_of_pairwise hr)).mpr h)

/-- In order, numbers do not show how often they came, nor when. -/
theorem ofList_id_eq_of_mem_iff {l r : List Nat} (h : ∀ n, n ∈ l ↔ n ∈ r) :
    ofList id l = ofList id r := by
  refine eq_of_mem_iff (pairwise_ofList id l) (pairwise_ofList id r) fun n => ?_
  rw [mem_ofList_id, mem_ofList_id, h]

/-- Pigeonholes: as many numbers as an interval has, ascending and inside of it, are all there
are. -/
theorem eq_range'_of_pairwise {l : List Nat} {least : Nat} (hl : l.Pairwise (· < ·))
    (hmem : ∀ n ∈ l, least ≤ n ∧ n < least + l.length) : l = List.range' least l.length := by
  have hsubset : l ⊆ List.range' least l.length := by
    intro n hn
    rw [List.mem_range'_1]
    exact hmem n hn
  have hperm : l.Perm (List.range' least l.length) :=
    (List.subperm_of_subset (hl.imp Nat.ne_of_lt) hsubset).perm_of_length_le (by simp)
  exact @eq_of_perm Nat id _ _ hl List.pairwise_lt_range' hperm

end CrossChain.Ascending
