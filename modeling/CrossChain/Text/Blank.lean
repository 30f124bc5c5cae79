/-! Blank characters, trimming and cutting of texts, over lists of characters. Main
statement: a cut loses nothing, and is made where the separator stands first. -/
namespace CrossChain.Text

/-- The characters with the property White_Space. -/
def isBlank (c : Char) : Bool :=
  let n := c.toNat
  (9 ≤ n && n ≤ 13) || n == 0x20 || n == 0x85 || n == 0xA0 || n == 0x1680 ||
    (0x2000 ≤ n && n ≤ 0x200A) || n == 0x2028 || n == 0x2029 || n == 0x202F ||
    n == 0x205F || n == 0x3000

def trimStart (cs : List Char) : List Char :=
  cs.dropWhile isBlank

def trimEnd (cs : List Char) : List Char :=
  (cs.reverse.dropWhile isBlank).reverse

def trim (cs : List Char) : List Char :=
  trimEnd (trimStart cs)

/-- The last of the words that blanks separate, empty if there is none. -/
def lastWord (cs : List Char) : List Char :=
  ((cs.reverse.dropWhile isBlank).takeWhile fun c => !isBlank c).reverse

def dropStart? : List Char → List Char → Option (List Char)
  | [], cs => some cs
  | _ :: _, [] => none
  | s :: start, c :: cs => if s = c then dropStart? start cs else none

/-- The parts before and after the first occurrence of a separator. -/
def cut? (separator : List Char) : List Char → Option (List Char × List Char)
  | [] => (dropStart? separator []).map fun rest => ([], rest)
  | c :: cs =>
    match dropStart? separator (c :: cs) with
    | some rest => some ([], rest)
    | none => (cut? separator cs).map fun (before, after) => (c :: before, after)

theorem eq_append_of_dropStart? {start cs rest : List Char}
    (h : dropStart? start cs = some rest) : cs = start ++ rest := by
  fun_induction dropStart? start cs with
  | case1 cs => simpa using h
  | case2 => contradiction
  | case3 start c cs ih => simp [ih h]
  | case4 => contradiction

@[simp] theorem dropStart?_append (start rest : List Char) :
    dropStart? start (start ++ rest) = some rest := by
  induction start with
  | nil => simp [dropStart?]
  | cons c start ih => simp [dropStart?, ih]

theorem eq_append_of_cut? {separator cs before after : List Char}
    (h : cut? separator cs = some (before, after)) : cs = before ++ separator ++ after := by
  induction cs generalizing before with
  | nil =>
    simp only [cut?, Option.map_eq_some_iff, Prod.mk.injEq] at h
    obtain ⟨rest, h, rfl, rfl⟩ := h
    simpa using eq_append_of_dropStart? h
  | cons c cs ih =>
    simp only [cut?] at h
    split at h
    next rest hd =>
      obtain ⟨rfl, rfl⟩ := Prod.mk.inj (Option.some.inj h)
      simpa using eq_append_of_dropStart? hd
    next =>
      simp only [Option.map_eq_some_iff, Prod.exists, Prod.mk.injEq] at h
      obtain ⟨b, a, h, rfl, rfl⟩ := h
      simp [ih h]

theorem cut?_eq_none_of_not_mem {c : Char} {separator cs : List Char} (hc : c ∈ separator)
    (h : c ∉ cs) : cut? separator cs = none := by
  cases hcut : cut? separator cs with
  | none => rfl
  | some parts =>
    have hparts := eq_append_of_cut? hcut
    simp [hparts, hc] at h

/-- A text is cut where a separator stands first; what comes after may hold the separator again. -/
theorem cut?_append {c : Char} {separator before : List Char} (h : c ∉ before)
    (after : List Char) :
    cut? (c :: separator) (before ++ (c :: separator ++ after)) = some (before, after) := by
  induction before with
  | nil => simp [cut?, dropStart?]
  | cons b before ih =>
    rw [List.mem_cons, not_or] at h
    have hstart :
        dropStart? (c :: separator) (b :: (before ++ (c :: separator ++ after))) = none := by
      rw [dropStart?, if_neg h.1]
    rw [List.cons_append, cut?, hstart, ih h.2]
    rfl

def utf8 (cs : List Char) : List UInt8 :=
  cs.flatMap String.utf8EncodeChar

end CrossChain.Text

def String.trimmed (s : String) : String :=
  String.ofList (CrossChain.Text.trim s.toList)
