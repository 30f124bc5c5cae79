import CrossChain.Abi
import CrossChain.Proofs.Codec.Fixed
/-! ABI values in front of other bytes. Lengths are words, so a value is told apart from what
follows it as long as each of its lengths fits a word. -/
namespace CrossChain.Abi

variable {α : Type} {r s : Bytes}

@[simp] theorem length_word (n : Nat) : (word n).length = 32 := Bytes.length_ofNatBE 32 n

/-- A word tells its number, unless the number is cut to fit. -/
theorem word_append_inj {n m : Nat} (hn : n < 2 ^ 256) (hm : m < 2 ^ 256) :
    word n ++ r = word m ++ s ↔ n = m ∧ r = s := by
  have hpow : 2 ^ 256 = 256 ^ 32 := by norm_num
  exact Bytes.ofNatBE_append_inj (hpow ▸ hn) (hpow ▸ hm)

theorem word_u32_append_inj {n m : UInt32} :
    word n.toNat ++ r = word m.toNat ++ s ↔ n = m ∧ r = s := by
  have hlt : ∀ n : UInt32, n.toNat < 2 ^ 256 := fun n => n.toNat_lt.trans (by decide)
  rw [word_append_inj (hlt n) (hlt m), UInt32.toNat_inj]

theorem word_u64_append_inj {n m : UInt64} :
    word n.toNat ++ r = word m.toNat ++ s ↔ n = m ∧ r = s := by
  have hlt : ∀ n : UInt64, n.toNat < 2 ^ 256 := fun n => n.toNat_lt.trans (by decide)
  rw [word_append_inj (hlt n) (hlt m), UInt64.toNat_inj]

theorem word_u256_append_inj {n m : U256} :
    word n.toNat ++ r = word m.toNat ++ s ↔ n = m ∧ r = s := by
  rw [word_append_inj n.isLt m.isLt, BitVec.toNat_inj]

theorem bool_append_inj {b c : Bool} : bool b ++ r = bool c ++ s ↔ b = c ∧ r = s := by
  rw [bool, bool, word_append_inj (by split <;> decide) (by split <;> decide)]
  cases b <;> cases c <;> simp

theorem length_padRight (bs : Bytes) :
    (padRight bs).length = bs.length + (32 - bs.length % 32) % 32 := by
  simp [padRight]

theorem length_le_bytes (bs : Bytes) : bs.length ≤ (bytes bs).length := by
  rw [bytes, List.length_append, length_padRight]
  omega

theorem dvd_length_bytes (bs : Bytes) : 32 ∣ (bytes bs).length := by
  rw [bytes, List.length_append, length_word, length_padRight]
  omega

theorem bytes_append_inj {bs cs : Bytes} (hbs : bs.length < 2 ^ 256) (hcs : cs.length < 2 ^ 256) :
    bytes bs ++ r = bytes cs ++ s ↔ bs = cs ∧ r = s := by
  rw [bytes, bytes, List.append_assoc, List.append_assoc, word_append_inj hbs hcs]
  constructor
  · rintro ⟨hlen, h⟩
    -- Equal lengths are padded alike, so what follows starts at one place.
    have hpadded : (padRight bs).length = (padRight cs).length := by
      rw [length_padRight, length_padRight, hlen]
    obtain ⟨hbytes, rfl⟩ := List.append_inj h hpadded
    exact ⟨(List.append_inj hbytes hlen).1, rfl⟩
  · rintro ⟨rfl, rfl⟩
    exact ⟨rfl, rfl⟩

theorem length_heads (offset : Nat) (parts : List Part) :
    (heads offset parts).length = headsLength parts := by
  induction parts generalizing offset with
  | nil => rfl
  | cons part parts ih =>
    cases part with
    | static bs => simp [heads, headsLength, Part.headLength, ih]
    | dynamic bs => simp [heads, headsLength, Part.headLength, ih]

theorem length_tuple (parts : List Part) :
    (tuple parts).length = headsLength parts + (tails parts).length := by
  rw [tuple, List.length_append, length_heads]

/-- The only part of a tuple stands behind its distance, which is one word. -/
theorem single_dynamic (bs : Bytes) : single (.dynamic bs) = word 32 ++ bs := by
  simp [single, tuple, heads, headsLength, Part.headLength, tails, Part.tail]

/-- With nothing behind the values, in the form of the lemmas about values in front of others. -/
theorem single_dynamic_inj {bs cs : Bytes} :
    single (.dynamic bs) = single (.dynamic cs) ↔ bs ++ [] = cs ++ [] := by
  rw [single_dynamic, single_dynamic, List.append_cancel_left_eq, List.append_nil,
    List.append_nil]

theorem tuple_static (parts : List Bytes) : tuple (parts.map .static) = parts.flatten := by
  have hheads : ∀ offset, heads offset (parts.map .static) = parts.flatten := by
    intro offset
    induction parts with
    | nil => rfl
    | cons part parts ih => rw [List.map_cons, heads, ih, List.flatten_cons]
  have htails : tails (parts.map .static) = [] := by
    simp [tails, List.flatMap_map, Part.tail]
  rw [tuple, hheads, htails, List.append_nil]

/-- Items of fixed width follow their number without distances. -/
theorem array_static (write : α → Bytes) (as : List α) :
    array (as.map fun a => .static (write a)) = word as.length ++ as.flatMap write := by
  have hmap : (as.map fun a => Part.static (write a)) = (as.map write).map .static := by simp
  rw [array, hmap, tuple_static, List.length_map, List.length_map, List.flatMap_def]

theorem words_eq (ws : List Bytes32) :
    words ws = word ws.length ++ ws.flatMap Bytes32.toBytes :=
  array_static Bytes32.toBytes ws

theorem length_words (ws : List Bytes32) : (words ws).length = 32 * (ws.length + 1) := by
  rw [words_eq, List.length_append, length_word, List.length_flatMap]
  simp
  omega

theorem headsLength_dynamic (write : α → Bytes) (as : List α) :
    headsLength (as.map fun a => .dynamic (write a)) = 32 * as.length := by
  induction as with
  | nil => rfl
  | cons a as ih =>
    rw [List.map_cons, headsLength, ih, Part.headLength, List.length_cons]
    omega

theorem tails_dynamic (write : α → Bytes) (as : List α) :
    tails (as.map fun a => .dynamic (write a)) = as.flatMap write := by
  simp only [tails, List.flatMap_map, Part.tail]

theorem length_bytesList (items : List Bytes) :
    (bytesList items).length = 32 + 32 * items.length + (items.flatMap bytes).length := by
  rw [bytesList, array, List.length_append, length_word, length_tuple, headsLength_dynamic,
    tails_dynamic, Nat.add_assoc]

theorem dvd_length_bytesList (items : List Bytes) : 32 ∣ (bytesList items).length := by
  have htails : 32 ∣ (items.flatMap bytes).length := by
    rw [List.length_flatMap]
    apply List.dvd_sum
    rw [List.forall_mem_map]
    exact fun bs _ => dvd_length_bytes bs
  rw [length_bytesList]
  omega

theorem length_le_bytesList (items : List Bytes) :
    items.length ≤ (bytesList items).length := by
  rw [length_bytesList]
  omega

theorem length_le_bytesList_of_mem {items : List Bytes} {bs : Bytes} (h : bs ∈ items) :
    bs.length ≤ (bytesList items).length := by
  have hitem : (bytes bs).length ≤ (items.flatMap bytes).length :=
    (List.sublist_flatten_of_mem (List.mem_map_of_mem h)).length_le
  have hbytes := length_le_bytes bs
  rw [length_bytesList]
  omega

theorem array_static_append_inj {write : α → Bytes} {as bs : List α}
    (hitem : ∀ a ∈ as, ∀ b ∈ bs, ∀ r s, write a ++ r = write b ++ s → a = b ∧ r = s)
    (has : as.length < 2 ^ 256) (hbs : bs.length < 2 ^ 256) :
    array (as.map fun a => .static (write a)) ++ r =
      array (bs.map fun b => .static (write b)) ++ s ↔ as = bs ∧ r = s := by
  rw [array_static, array_static, List.append_assoc, List.append_assoc, word_append_inj has hbs]
  constructor
  · rintro ⟨hlen, h⟩
    exact (Bytes.flatMap_append_inj hitem hlen).mp h
  · rintro ⟨rfl, rfl⟩
    exact ⟨rfl, rfl⟩

/-- Items that are told apart from what follows them make lists that are, whatever their widths. -/
theorem array_dynamic_append_inj {write : α → Bytes} {as bs : List α}
    (hitem : ∀ a ∈ as, ∀ b ∈ bs, ∀ r s, write a ++ r = write b ++ s → a = b ∧ r = s)
    (has : as.length < 2 ^ 256) (hbs : bs.length < 2 ^ 256) :
    array (as.map fun a => .dynamic (write a)) ++ r =
      array (bs.map fun b => .dynamic (write b)) ++ s ↔ as = bs ∧ r = s := by
  constructor
  · intro h
    rw [array, array, List.length_map, List.length_map, List.append_assoc, List.append_assoc,
      word_append_inj has hbs, tuple, tuple, List.append_assoc, List.append_assoc] at h
    obtain ⟨hlen, h⟩ := h
    -- The distances take as many words on both sides, so they need not be looked at.
    have htails := (List.append_inj h (by
      rw [length_heads, length_heads, headsLength_dynamic, headsLength_dynamic, hlen])).2
    rw [tails_dynamic, tails_dynamic] at htails
    exact (Bytes.flatMap_append_inj hitem hlen).mp htails
  · rintro ⟨rfl, rfl⟩
    rfl

theorem bytesList_append_inj {as bs : List Bytes} (has : as.length < 2 ^ 256)
    (hbs : bs.length < 2 ^ 256) (haitems : ∀ a ∈ as, a.length < 2 ^ 256)
    (hbitems : ∀ b ∈ bs, b.length < 2 ^ 256) :
    bytesList as ++ r = bytesList bs ++ s ↔ as = bs ∧ r = s :=
  array_dynamic_append_inj
    (fun a ha b hb _ _ => (bytes_append_inj (haitems a ha) (hbitems b hb)).mp) has hbs

end CrossChain.Abi
