import CrossChain.Proofs.Codec.AbiDecoder
/-! Reading ABI tuples by their distances. A reader walks along the heads, and where a head is a
distance it reads at that distance from the start of the tuple. In as many bytes as a word can
count it finds the parts that the tuple was written from. -/
namespace CrossChain.Abi

variable {α β : Type}

theorem heads_cons (offset : Nat) (part : Part) (parts : List Part) :
    heads offset (part :: parts) =
      heads offset [part] ++ heads (offset + (tails [part]).length) parts := by
  cases part with
  | static bs => simp [heads, tails, Part.tail]
  | dynamic bs => simp [heads, tails, Part.tail]

theorem tails_cons (part : Part) (parts : List Part) :
    tails (part :: parts) = tails [part] ++ tails parts := by
  simp [tails]

/-- Walks along heads, with the bytes from the start of the tuple at hand. -/
abbrev TupleReader (α : Type) := ReaderT Bytes Decoder α

namespace TupleReader

/-- A value that stands in its head. -/
def static (d : Decoder α) : TupleReader α := fun _ => d

/-- A value at the distance that stands in its head. What follows the value is left alone. -/
def dynamic (d : Decoder α) : TupleReader α := fun whole => do
  let distance ← Decoder.natural
  let (a, _) ← CrossChain.Decoder.ofOption (d (whole.drop distance))
  return a

def many (item : TupleReader α) : Nat → TupleReader (List α)
  | 0 => pure []
  | n + 1 => do
    let a ← item
    let rest ← many item n
    return a :: rest

/-- The tuple at the front of some bytes. -/
def run (r : TupleReader α) : Decoder α := fun bs => r bs bs

/-- A tuple behind a distance, as the only value there is. -/
def single (r : TupleReader α) : Decoder α := (dynamic r.run).run

def array (item : TupleReader α) : Decoder (List α) := do
  let n ← Decoder.natural
  (many item n).run

theorem gives_next {r : TupleReader α} {next : α → TupleReader β} {P : β → Prop} {whole : Bytes}
    (h : ∀ a, CrossChain.Decoder.Gives (next a whole) P) :
    CrossChain.Decoder.Gives ((r >>= next) whole) P :=
  CrossChain.Decoder.Gives.of_next h

theorem gives_run {r : TupleReader α} {P : α → Prop}
    (h : ∀ whole, CrossChain.Decoder.Gives (r whole) P) : CrossChain.Decoder.Gives r.run P :=
  fun bs => h bs bs

theorem gives_dynamic {d : Decoder α} {P : α → Prop} (h : CrossChain.Decoder.Gives d P)
    {whole : Bytes} : CrossChain.Decoder.Gives (dynamic d whole) P := by
  refine .of_next fun distance => ?_
  cases hd : d (whole.drop distance) with
  | none => exact .fail
  | some found => exact .pure (h _ found.1 found.2 hd)

theorem gives_single {r : TupleReader α} {P : α → Prop}
    (h : ∀ whole, CrossChain.Decoder.Gives (r whole) P) : CrossChain.Decoder.Gives r.single P :=
  gives_run fun _ => gives_dynamic (gives_run h)

end TupleReader

/-- The decoder finds the value at the front of the bytes, whatever stands behind it. -/
def Starts (d : Decoder α) (bs : Bytes) (a : α) : Prop :=
  ∀ rest, (bs ++ rest).length < 2 ^ 256 → ∃ left, d (bs ++ rest) = some (a, left)

theorem Starts.of_reads {d : Decoder α} {bs : Bytes} {a : α}
    (h : CrossChain.Decoder.Reads d bs a) : Starts d bs a :=
  fun rest _ => ⟨rest, h rest⟩

theorem Starts.bind {d : Decoder α} {next : α → Decoder β} {bs cs : Bytes} {a : α} {b : β}
    (hd : CrossChain.Decoder.Reads d bs a) (hnext : Starts (next a) cs b) :
    Starts (d >>= next) (bs ++ cs) b := by
  intro rest hlt
  rw [List.append_assoc] at hlt
  obtain ⟨left, hleft⟩ := hnext rest (by rw [List.length_append] at hlt; omega)
  refine ⟨left, ?_⟩
  change (d (bs ++ cs ++ rest)).bind (fun p => next p.1 p.2) = _
  rw [List.append_assoc, hd]
  exact hleft

/-- The reader gives the value from the heads of the parts, wherever their tails stand in the
tuple. -/
def Follows (r : TupleReader α) (parts : List Part) (a : α) : Prop :=
  ∀ front back rest, (front ++ (tails parts ++ back)).length < 2 ^ 256 →
    r (front ++ (tails parts ++ back)) (heads front.length parts ++ rest) = some (a, rest)

namespace Follows

theorem pure (a : α) : Follows (pure a) [] a := fun _ _ _ _ => rfl

theorem static {d : Decoder α} {bs : Bytes} {a : α} (h : CrossChain.Decoder.Reads d bs a) :
    Follows (.static d) [.static bs] a := by
  intro front back rest _
  rw [heads, heads, List.append_nil]
  exact h rest

theorem dynamic {d : Decoder α} {bs : Bytes} {a : α} (h : Starts d bs a) :
    Follows (.dynamic d) [.dynamic bs] a := by
  intro front back rest hlt
  have htails : tails [.dynamic bs] = bs := List.append_nil bs
  rw [htails] at hlt ⊢
  rw [List.length_append] at hlt
  have hdistance : front.length < 2 ^ 256 := by omega
  obtain ⟨left, hleft⟩ := h back (by omega)
  have hfound : CrossChain.Decoder.Reads (CrossChain.Decoder.ofOption
      (d ((front ++ (bs ++ back)).drop front.length)) >>= fun p => Pure.pure p.1) [] a := by
    rw [List.drop_left' rfl, hleft]
    exact CrossChain.Decoder.Reads.pure a
  exact (Decoder.reads_natural hdistance).bind hfound rest

/-- The tail of the first part stands in front of those of the others. -/
theorem cons {r : TupleReader α} {next : α → TupleReader β} {part : Part} {parts : List Part}
    {a : α} {b : β} (hr : Follows r [part] a) (hnext : Follows (next a) parts b) :
    Follows (r >>= next) (part :: parts) b := by
  intro front back rest hlt
  have hfirst : front ++ (tails (part :: parts) ++ back) =
      front ++ (tails [part] ++ (tails parts ++ back)) := by
    rw [tails_cons, List.append_assoc]
  have hothers : front ++ (tails (part :: parts) ++ back) =
      (front ++ tails [part]) ++ (tails parts ++ back) := by
    rw [hfirst, List.append_assoc]
  have hread := hr front (tails parts ++ back)
    (heads (front.length + (tails [part]).length) parts ++ rest) (hfirst ▸ hlt)
  have hthen := hnext (front ++ tails [part]) back rest (hothers ▸ hlt)
  rw [← hothers, List.length_append] at hthen
  rw [← hfirst] at hread
  rw [heads_cons, List.append_assoc]
  change (r _ _).bind (fun p => next p.1 _ p.2) = _
  rw [hread]
  exact hthen

theorem bind_pure {r : TupleReader α} {parts : List Part} {a : α} (hr : Follows r parts a)
    (f : α → β) : Follows (r >>= fun a => Pure.pure (f a)) parts (f a) := by
  intro front back rest hlt
  change (r _ _).bind _ = _
  rw [hr front back rest hlt]
  rfl

theorem many {item : TupleReader α} {part : α → Part} {as : List α}
    (h : ∀ a ∈ as, Follows item [part a] a) : Follows (item.many as.length) (as.map part) as := by
  induction as with
  | nil => exact pure []
  | cons a as ih =>
    rw [List.forall_mem_cons] at h
    exact h.1.cons ((ih h.2).bind_pure (a :: ·))

theorem tuple {r : TupleReader α} {parts : List Part} {a : α} (h : Follows r parts a) :
    Starts r.run (tuple parts) a := by
  intro rest hlt
  refine ⟨tails parts ++ rest, ?_⟩
  rw [Abi.tuple, List.append_assoc] at hlt ⊢
  have hread := h _ rest (tails parts ++ rest) hlt
  rw [length_heads] at hread
  exact hread

theorem array {item : TupleReader α} {part : α → Part} {as : List α}
    (hlen : as.length < 2 ^ 256) (h : ∀ a ∈ as, Follows item [part a] a) :
    Starts item.array (array (as.map part)) as := by
  rw [Abi.array, List.length_map]
  exact Starts.bind (Decoder.reads_natural hlen) (many h).tuple

theorem single {r : TupleReader α} {parts : List Part} {a : α} (h : Follows r parts a) :
    Starts r.single (single (.dynamic (Abi.tuple parts))) a :=
  (dynamic h.tuple).tuple

end Follows

end CrossChain.Abi
