import CrossChain.Bcs.Reader
import CrossChain.Proofs.Codec.Fixed
/-! BCS reads back what it writes. A reader that is given a written value takes all of it and
nothing else, whatever stands behind it, so written values behind each other are told apart. -/
namespace CrossChain.Bcs

variable {r s : Bytes}

theorem toNat_lastDigit {n : Nat} (h : n < 128) : (UInt8.ofNat n).toNat = n :=
  UInt8.toNat_ofNat_of_lt' (h.trans (by decide))

theorem toNat_markedDigit (n : Nat) : (UInt8.ofNat (n % 128 + 128)).toNat = n % 128 + 128 := by
  rw [UInt8.toNat_ofNat']
  omega

theorem length_length_pos (n : Nat) : 0 < (length n).length := by
  unfold length
  cases n with
  | zero => exact Nat.one_pos
  | succ n =>
    unfold digits
    split <;> simp

theorem length_length_le {n count : Nat} (h : n < 128 ^ (count + 1)) :
    (length n).length ≤ count + 1 := by
  induction count generalizing n with
  | zero =>
    rw [length_of_lt (by omega)]
    rfl
  | succ count ih =>
    by_cases hn : n < 128
    · rw [length_of_lt hn]
      simp
    · have hdiv : n / 128 < 128 ^ (count + 1) := by
        rw [Nat.div_lt_iff_lt_mul (by decide), ← Nat.pow_succ]
        exact h
      rw [length_of_le (by omega), List.length_cons]
      have := ih hdiv
      omega

/-- The marks make a length of several bytes a larger number than it stands for. -/
theorem lt_toNatLE_length {n : Nat} (h : 128 ≤ n) : n < Bytes.toNatLE (length n) := by
  induction n using Nat.strongRecOn with
  | ind n ih =>
    have hrest : n / 128 ≤ Bytes.toNatLE (length (n / 128)) := by
      by_cases hsmall : n / 128 < 128
      · rw [length_of_lt hsmall, Bytes.toNatLE, toNat_lastDigit hsmall]
        exact Nat.le_add_right _ _
      · exact (ih (n / 128) (by omega) (by omega)).le
    rw [length_of_le h, Bytes.toNatLE, toNat_markedDigit]
    omega

/-- The mark of each byte says whether the length ends there. -/
theorem length_append_inj {n m : Nat} : length n ++ r = length m ++ s ↔ n = m ∧ r = s := by
  constructor
  · intro h
    induction n using Nat.strongRecOn generalizing m with
    | ind n ih =>
      rcases Nat.lt_or_ge n 128 with hn | hn <;> rcases Nat.lt_or_ge m 128 with hm | hm
      · rw [length_of_lt hn, length_of_lt hm, List.singleton_append, List.singleton_append,
          List.cons.injEq, ← UInt8.toNat_inj, UInt8.toNat_ofNat', UInt8.toNat_ofNat'] at h
        exact ⟨by omega, h.2⟩
      · rw [length_of_lt hn, length_of_le hm, List.singleton_append, List.cons_append,
          List.cons.injEq, ← UInt8.toNat_inj, UInt8.toNat_ofNat', UInt8.toNat_ofNat'] at h
        omega
      · rw [length_of_le hn, length_of_lt hm, List.singleton_append, List.cons_append,
          List.cons.injEq, ← UInt8.toNat_inj, UInt8.toNat_ofNat', UInt8.toNat_ofNat'] at h
        omega
      · rw [length_of_le hn, length_of_le hm, List.cons_append, List.cons_append,
          List.cons.injEq, ← UInt8.toNat_inj, UInt8.toNat_ofNat', UInt8.toNat_ofNat'] at h
        obtain ⟨hdiv, hrest⟩ := ih (n / 128) (by omega) h.2
        exact ⟨by omega, hrest⟩
  · rintro ⟨rfl, rfl⟩
    rfl

theorem bytes_append_inj {bs cs : Bytes} : bytes bs ++ r = bytes cs ++ s ↔ bs = cs ∧ r = s := by
  rw [bytes, bytes, List.append_assoc, List.append_assoc, length_append_inj]
  constructor
  · rintro ⟨hlen, h⟩
    exact List.append_inj h hlen
  · rintro ⟨rfl, rfl⟩
    exact ⟨rfl, rfl⟩

theorem list_append_inj {α : Type} {write : α → Bytes} {as bs : List α}
    (hitem : ∀ a b r s, write a ++ r = write b ++ s → a = b ∧ r = s) :
    length as.length ++ as.flatMap write ++ r = length bs.length ++ bs.flatMap write ++ s ↔
      as = bs ∧ r = s := by
  rw [List.append_assoc, List.append_assoc, length_append_inj]
  constructor
  · rintro ⟨hlen, h⟩
    exact (Bytes.flatMap_append_inj (fun a _ b _ => hitem a b) hlen).mp h
  · rintro ⟨rfl, rfl⟩
    exact ⟨rfl, rfl⟩

theorem addresses_append_inj {ws vs : List Bytes32} :
    addresses ws ++ r = addresses vs ++ s ↔ ws = vs ∧ r = s :=
  list_append_inj fun _ _ _ _ => Bytes32.append_inj.mp

theorem length_le_flatMap_bytes (items : List Bytes) :
    items.length ≤ (items.flatMap bytes).length := by
  induction items with
  | nil => simp
  | cons bs items ih =>
    have hpos := length_length_pos bs.length
    rw [List.flatMap_cons, List.length_append, bytes, List.length_append, List.length_cons]
    omega

namespace Reader

variable {α β : Type}

/-- The bytes are what the reader takes to give the value. -/
def Reads (read : Reader α) (bs : Bytes) (a : α) : Prop :=
  ∀ rest, read (bs ++ rest) = (.ok a, rest)

theorem Reads.pure (a : α) : Reads (pure a) [] a := fun _ => rfl

theorem Reads.bind {read : Reader α} {next : α → Reader β} {bs cs : Bytes} {a : α} {b : β}
    (hread : Reads read bs a) (hnext : Reads (next a) cs b) :
    Reads (read >>= next) (bs ++ cs) b := by
  intro rest
  rw [List.append_assoc, bind_of_ok (hread (cs ++ rest))]
  exact hnext rest

theorem Reads.bind_pure {read : Reader α} {bs : Bytes} {a : α} (h : Reads read bs a)
    (f : α → β) : Reads (read >>= fun a => Pure.pure (f a)) bs (f a) := by
  intro rest
  rw [bind_of_ok (h rest)]
  rfl

theorem Reads.map {read : Reader α} {bs : Bytes} {a : α} (h : Reads read bs a) (f : α → β) :
    Reads (f <$> read) bs (f a) :=
  h.bind_pure f

theorem Reads.append_inj {read : Reader α} {bs cs r s : Bytes} {a b : α} (hbs : Reads read bs a)
    (hcs : Reads read cs b) (h : bs ++ r = cs ++ s) : a = b ∧ r = s := by
  have heq := (hbs r).symm.trans ((congrArg read h).trans (hcs s))
  simpa using heq

theorem bind_eq_ok_iff {read : Reader α} {next : α → Reader β} {bs rest : Bytes} {b : β} :
    (read >>= next) bs = (.ok b, rest) ↔
      ∃ a between, read bs = (.ok a, between) ∧ next a between = (.ok b, rest) := by
  rw [bind_apply]
  constructor
  · intro h
    split at h
    next a between ha => exact ⟨a, between, ha, h⟩
    next => cases h
  · rintro ⟨a, between, ha, h⟩
    rw [ha]
    exact h

/-- Every value that the reader gives has the property. -/
def Gives (read : Reader α) (P : α → Prop) : Prop :=
  ∀ bs a rest, read bs = (.ok a, rest) → P a

theorem Gives.pure {P : α → Prop} {a : α} (h : P a) : Gives (Pure.pure a) P := by
  rintro bs _ rest ⟨⟩
  exact h

theorem Gives.bind {read : Reader α} {next : α → Reader β} {P : α → Prop} {Q : β → Prop}
    (hread : Gives read P) (hnext : ∀ a, P a → Gives (next a) Q) : Gives (read >>= next) Q := by
  intro bs b rest hb
  obtain ⟨a, between, ha, hb⟩ := bind_eq_ok_iff.mp hb
  exact hnext a (hread _ _ _ ha) between b rest hb

theorem Gives.of_next {read : Reader α} {next : α → Reader β} {P : β → Prop}
    (h : ∀ a, Gives (next a) P) : Gives (read >>= next) P :=
  Gives.bind (P := fun _ => True) (fun _ _ _ _ => trivial) fun a _ => h a

theorem reads_take {n : Nat} {bs : Bytes} (h : bs.length = n) : Reads (take n) bs bs :=
  take_append h

theorem reads_number {width : Nat} {ofNat : Nat → α} {toNat : α → Nat}
    (hlt : ∀ a, toNat a < 256 ^ width) (hinv : ∀ a, ofNat (toNat a) = a) (a : α) :
    Reads (ofNat <$> natural width) (Bytes.ofNatLE width (toNat a)) a := by
  have hread := ((reads_take (Bytes.length_ofNatLE width (toNat a))).map Bytes.toNatLE).map ofNat
  rwa [Bytes.toNatLE_ofNatLE, Nat.mod_eq_of_lt (hlt a), hinv] at hread

theorem reads_u8 (n : UInt8) : Reads u8 (Bcs.u8 n) n := by
  have hread : Reads u8 (Bytes.ofNatLE 1 n.toNat) n :=
    reads_number (fun n : UInt8 => n.toNat_lt) (fun _ => UInt8.ofNat_toNat) n
  rwa [Bytes.ofNatLE, Bytes.ofNatLE, UInt8.ofNat_toNat] at hread

theorem reads_u16 (n : UInt16) : Reads u16 (Bcs.u16 n) n :=
  reads_number (fun n : UInt16 => n.toNat_lt) (fun _ => UInt16.ofNat_toNat) n

theorem reads_u32 (n : UInt32) : Reads u32 (Bcs.u32 n) n :=
  reads_number (fun n : UInt32 => n.toNat_lt) (fun _ => UInt32.ofNat_toNat) n

theorem reads_u64 (n : UInt64) : Reads u64 (Bcs.u64 n) n :=
  reads_number (fun n : UInt64 => n.toNat_lt) (fun _ => UInt64.ofNat_toNat) n

theorem reads_u256 (n : U256) : Reads u256 (Bcs.u256 n) n :=
  reads_number (fun n : U256 => n.isLt) (fun n => BitVec.ofNat_toNat 256 n) n

theorem reads_bool (b : Bool) : Reads bool (Bcs.bool b) b := by
  cases b
  · exact (reads_u8 0).bind (Reads.pure false)
  · exact (reads_u8 1).bind (Reads.pure true)

theorem reads_address (w : Bytes32) : Reads address (Bcs.address w) w := by
  intro rest
  have hlen : ¬(w.toBytes ++ rest).length < 32 := by simp
  have htake : (w.toBytes ++ rest).take 32 = w.toBytes := List.take_left' w.length_toBytes
  have hdrop : (w.toBytes ++ rest).drop 32 = rest := List.drop_left' w.length_toBytes
  unfold address Bcs.address
  rw [dif_neg hlen]
  simp only [htake, hdrop]

/-- A digit is refused at once unless it fits its place. -/
theorem lengthFrom_overflow_or_fits (known place : Nat) (b : UInt8) (rest : Bytes) :
    (lengthFrom known place (b :: rest)).1 = .error .lengthOverflow ∨
      place < 64 ∧ (b.toNat % 128) <<< place < UInt64.size := by
  rw [lengthFrom]
  dsimp only
  by_cases hlate : 64 ≤ place
  · rw [if_pos hlate]
    exact .inl rfl
  by_cases hlost : UInt64.size ≤ (b.toNat % 128) <<< place
  · rw [if_neg hlate, if_pos hlost]
    exact .inl rfl
  · exact .inr ⟨Nat.not_le.mp hlate, Nat.not_le.mp hlost⟩

theorem lengthFrom_of_marked {known place : Nat} {b : UInt8} {rest : Bytes}
    (hplace : place < 64) (hfits : (b.toNat % 128) <<< place < UInt64.size) (hb : 128 ≤ b.toNat) :
    lengthFrom known place (b :: rest) =
      lengthFrom (known + (b.toNat % 128) <<< place) (place + 7) rest := by
  rw [lengthFrom]
  dsimp only
  rw [if_neg hplace.not_ge, if_neg hfits.not_ge, if_pos hb]

/-- Whether a zero is too much is asked before the number is compared with the limit. -/
theorem lengthFrom_of_last {known place : Nat} {b : UInt8} {rest : Bytes}
    (hplace : place < 64) (hfits : (b.toNat % 128) <<< place < UInt64.size) (hb : b.toNat < 128) :
    lengthFrom known place (b :: rest) =
      (if 0 < place ∧ b.toNat = 0 then .error .longLength
        else if maxLength < known + b.toNat <<< place then .error .lengthOverflow
        else .ok (known + b.toNat <<< place), rest) := by
  rw [lengthFrom]
  dsimp only
  rw [if_neg hplace.not_ge, if_neg hfits.not_ge, if_neg hb.not_ge, Nat.mod_eq_of_lt hb]
  repeat' split
  all_goals rfl

theorem digit_add_rest (n place : Nat) :
    (n % 128) <<< place + (n / 128) <<< (place + 7) = n <<< place := by
  simp only [Nat.shiftLeft_eq, Nat.pow_add]
  calc n % 128 * 2 ^ place + n / 128 * (2 ^ place * 2 ^ 7)
      = (n % 128 + 128 * (n / 128)) * 2 ^ place := by ring
    _ = n * 2 ^ place := by rw [Nat.mod_add_div]

/-- A place at which something is left to be read is one of the 64 bits. -/
theorem place_lt {n place : Nat} (hfits : n <<< place ≤ maxLength) (hplace : 0 < n ∨ place = 0) :
    place < 64 := by
  rcases hplace with hpos | rfl
  · by_contra hlong
    have hle : 1 <<< 64 ≤ n <<< place := by
      rw [Nat.shiftLeft_eq, Nat.shiftLeft_eq]
      exact Nat.mul_le_mul hpos (Nat.pow_le_pow_right (by decide) (by omega))
    exact absurd (hle.trans hfits) (by decide)
  · decide

/-- The digits of a length from some place on, for a reader that knows the digits before. -/
theorem lengthFrom_append (n known place : Nat) (hfits : known + n <<< place ≤ maxLength)
    (hplace : 0 < n ∨ place = 0) (rest : Bytes) :
    lengthFrom known place (Bcs.length n ++ rest) = (.ok (known + n <<< place), rest) := by
  -- On what is left to be read; each digit moves into `known` and the place goes on.
  induction n using Nat.strongRecOn generalizing known place with
  | ind n ih =>
    have hshift : n <<< place ≤ maxLength := le_trans (Nat.le_add_left _ _) hfits
    have hmax : maxLength < UInt64.size := by decide
    have hshort := place_lt hshift hplace
    by_cases hn : n < 128
    · have hbyte := toNat_lastDigit hn
      have hcanonical : ¬(0 < place ∧ n = 0) := by omega
      have hdigit : ((UInt8.ofNat n).toNat % 128) <<< place < UInt64.size := by
        rw [hbyte, Nat.mod_eq_of_lt hn]
        exact hshift.trans_lt hmax
      rw [length_of_lt hn, List.singleton_append,
        lengthFrom_of_last hshort hdigit (hbyte.trans_lt hn), hbyte, if_neg hcanonical,
        if_neg hfits.not_gt]
    · have hbyte := toNat_markedDigit n
      have hdigit : (n % 128 + 128) % 128 = n % 128 := by omega
      have hsum := digit_add_rest n place
      have hlow : (n % 128) <<< place ≤ maxLength :=
        le_trans (le_of_le_of_eq (Nat.le_add_right _ _) hsum) hshift
      have hrest : known + (n % 128) <<< place + (n / 128) <<< (place + 7) =
          known + n <<< place := by rw [Nat.add_assoc, hsum]
      rw [← hdigit, ← hbyte] at hlow
      rw [length_of_le (by omega), List.cons_append,
        lengthFrom_of_marked hshort (hlow.trans_lt hmax) (by omega), hbyte, hdigit,
        ih (n / 128) (by omega) _ _ (hrest ▸ hfits) (.inl (by omega)), hrest]

theorem reads_length {n : Nat} (h : n ≤ maxLength) : Reads length (Bcs.length n) n := by
  intro rest
  have hread := lengthFrom_append n 0 0 (by simpa using h) (.inr rfl) rest
  simpa [length] using hread

theorem reads_bytes {bs : Bytes} (h : bs.length ≤ maxLength) : Reads bytes (Bcs.bytes bs) bs :=
  (reads_length h).bind (reads_take rfl)

theorem reads_many {item : Reader α} {write : α → Bytes} {as : List α}
    (h : ∀ a ∈ as, Reads item (write a) a) :
    Reads (many item as.length) (as.flatMap write) as := by
  induction as with
  | nil => exact Reads.pure []
  | cons a as ih =>
    have hrest := ih fun b hb => h b (List.mem_cons_of_mem a hb)
    rw [List.flatMap_cons, ← List.append_nil (as.flatMap write)]
    exact (h a List.mem_cons_self).bind (hrest.bind (Reads.pure (a :: as)))

theorem reads_addresses {ws : List Bytes32} (h : ws.length ≤ maxLength) :
    Reads addresses (Bcs.addresses ws) ws := by
  intro rest
  -- What was written is long enough for the check on the remaining input.
  have hlen : (ws.flatMap Bcs.address).length = 32 * ws.length := by
    simp [Bcs.address, Nat.mul_comm]
  unfold addresses Bcs.addresses
  rw [List.append_assoc, bind_of_ok (reads_length h _)]
  change (if (ws.flatMap Bcs.address ++ rest).length / 32 < ws.length then
    fail (.unexpectedEnd (ws.length * 32) (ws.flatMap Bcs.address ++ rest).length)
    else many address ws.length) (ws.flatMap Bcs.address ++ rest) = _
  rw [if_neg (by rw [List.length_append, hlen]; omega)]
  exact reads_many (fun w _ => reads_address w) rest

theorem reads_bytesList {items : List Bytes} (h : items.length ≤ maxLength)
    (hitems : ∀ bs ∈ items, bs.length ≤ maxLength) :
    Reads bytesList (Bcs.bytesList items) items := by
  intro rest
  have hlen := length_le_flatMap_bytes items
  unfold bytesList Bcs.bytesList
  rw [List.append_assoc, bind_of_ok (reads_length h _)]
  change (if (items.flatMap Bcs.bytes ++ rest).length < items.length then
    fail (.unexpectedEnd items.length (items.flatMap Bcs.bytes ++ rest).length)
    else many bytes items.length) (items.flatMap Bcs.bytes ++ rest) = _
  rw [if_neg (by rw [List.length_append]; omega)]
  exact reads_many (fun bs hbs => reads_bytes (hitems bs hbs)) rest

end Reader

end CrossChain.Bcs
