/-! Lists in ascending order of a key with one item for each key. Of items with one key the
first counts. -/
namespace CrossChain.Ascending

variable {α : Type}

/-- Puts an item in its place, unless its key is taken. -/
def insert (key : α → Nat) (a : α) : List α → List α
  | [] => [a]
  | b :: rest =>
    if key a < key b then a :: b :: rest
    else if key a = key b then b :: rest
    else b :: insert key a rest

def ofList (key : α → Nat) (items : List α) : List α :=
  items.foldl (fun sorted a => insert key a sorted) []

theorem mem_of_mem_insert {key : α → Nat} {a b : α} {l : List α} (h : b ∈ insert key a l) :
    b = a ∨ b ∈ l := by
  induction l with
  | nil => simpa [insert] using h
  | cons c rest ih => grind [insert]

theorem pairwise_insert {key : α → Nat} (a : α) {l : List α}
    (h : l.Pairwise fun b c => key b < key c) :
    (insert key a l).Pairwise fun b c => key b < key c := by
  induction l with
  | nil => simp [insert]
  | cons c rest ih =>
    have hc := List.pairwise_cons.mp h
    simp only [insert]
    split
    next hac =>
      refine List.pairwise_cons.mpr ⟨fun b hb => ?_, h⟩
      rcases List.mem_cons.mp hb with rfl | hb
      · exact hac
      · exact Nat.lt_trans hac (hc.1 b hb)
    split
    · exact h
    · refine List.pairwise_cons.mpr ⟨fun b hb => ?_, ih hc.2⟩
      rcases mem_of_mem_insert hb with rfl | hb
      · omega
      · exact hc.1 b hb

theorem pairwise_ofList (key : α → Nat) (items : List α) :
    (ofList key items).Pairwise fun b c => key b < key c := by
  suffices ∀ sorted : List α, (sorted.Pairwise fun b c => key b < key c) →
      (items.foldl (fun sorted a => insert key a sorted) sorted).Pairwise
        fun b c => key b < key c from this [] .nil
  induction items with
  | nil => exact fun _ h => h
  | cons a rest ih => exact fun sorted h => ih _ (pairwise_insert a h)

end CrossChain.Ascending
