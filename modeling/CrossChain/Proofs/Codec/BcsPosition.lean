import CrossChain.Bcs.Cursor
import CrossChain.Proofs.Codec.Bcs
/-! Reading BCS by position does what reading the rest of the input does, and everything it does is
possible: no difference falls below zero, no part reaches beyond the input, no shift is as wide as
its word, and a length ends within its rounds. Main statement: this holds for readers in a row
whether or not they succeed, and with it that the position only grows, never beyond the input, that
a value of fixed width is taken whole or not at all, and that no more items of a list are begun than
there are bytes left for them, whatever length the list claims to have. -/
namespace CrossChain.Bcs

variable {α β : Type} {data : Bytes} {c : Cursor}

/-- What comes of reading from the cursor on: the outcome of the reader, a cursor where it stops, no
further back and still in the input, and at most so many items begun. -/
structure Reaches (data : Bytes) (c : Cursor) (items : Nat) (read : Reader α)
    (outcome : Except Fault α) (stop : Cursor) : Prop where
  reads : read (data.drop c.position) = (outcome, data.drop stop.position)
  forward : c.position ≤ stop.position
  inside : stop.position ≤ data.length
  counted : c.begun ≤ stop.begun
  begun : stop.begun ≤ c.begun + items

namespace Reaches

variable {read : Reader α} {outcome : Except Fault α}

theorem stay (hc : c.position ≤ data.length)
    (h : read (data.drop c.position) = (outcome, data.drop c.position)) :
    Reaches data c 0 read outcome c :=
  ⟨h, Nat.le_refl _, hc, Nat.le_refl _, Nat.le_refl _⟩

theorem advance {n : Nat} (hn : n ≤ data.length - c.position) (hc : c.position ≤ data.length)
    (h : read (data.drop c.position) = (outcome, (data.drop c.position).drop n)) :
    Reaches data c 0 read outcome { c with position := c.position + n } := by
  refine ⟨?_, Nat.le_add_right _ _, ?_, Nat.le_refl _, Nat.le_refl _⟩
  · rw [h, List.drop_drop]
  · dsimp only
    omega

end Reaches

/-- The checked reader has an outcome, and it is that of the reader. -/
def Follows (data : Bytes) (c : Cursor) (items : Nat) (checked : CheckedReader α)
    (read : Reader α) : Prop :=
  ∃ outcome stop, checked data c = some (outcome, stop) ∧ Reaches data c items read outcome stop

namespace Follows

variable {items more : Nat} {checked other : CheckedReader α} {read otherwise : Reader α}

theorem pure (hc : c.position ≤ data.length) (a : α) :
    Follows data c 0 (Pure.pure a) (Pure.pure a) :=
  ⟨.ok a, c, rfl, .stay hc rfl⟩

theorem fail (hc : c.position ≤ data.length) (e : Fault) :
    Follows data c 0 (CheckedReader.fail e : CheckedReader α) (Reader.fail e) :=
  ⟨.error e, c, rfl, .stay hc rfl⟩

theorem mono (h : Follows data c items checked read) (hle : items ≤ more) :
    Follows data c more checked read := by
  obtain ⟨outcome, stop, hchecked, hreach⟩ := h
  exact ⟨outcome, stop, hchecked, hreach.reads, hreach.forward, hreach.inside, hreach.counted,
    hreach.begun.trans (Nat.add_le_add_left hle _)⟩

theorem ite {p q : Prop} [Decidable p] [Decidable q] (hpq : p ↔ q)
    (hyes : q → Follows data c items checked read)
    (hno : ¬q → Follows data c items other otherwise) :
    Follows data c items (if p then checked else other) (if q then read else otherwise) := by
  by_cases hq : q
  · rw [if_pos (hpq.mpr hq), if_pos hq]
    exact hyes hq
  · rw [if_neg (mt hpq.mp hq), if_neg hq]
    exact hno hq

theorem bind {next : α → CheckedReader β} {next' : α → Reader β}
    (h : Follows data c items checked read)
    (hnext : ∀ a stop, Reaches data c items read (.ok a) stop →
      Follows data stop more (next a) (next' a)) :
    Follows data c (items + more) (checked >>= next) (read >>= next') := by
  obtain ⟨outcome, middle, hchecked, hfirst⟩ := h
  have hfirst_begun := hfirst.begun
  cases outcome with
  | error e =>
    refine ⟨.error e, middle, CheckedReader.bind_of_error hchecked, ?_, hfirst.forward,
      hfirst.inside, hfirst.counted, by omega⟩
    rw [Reader.bind_apply, hfirst.reads]
  | ok a =>
    obtain ⟨outcome, stop, hstop, hrest⟩ := hnext a middle hfirst
    have hrest_begun := hrest.begun
    refine ⟨outcome, stop, (CheckedReader.bind_of_ok hchecked).trans hstop, ?_,
      hfirst.forward.trans hrest.forward, hrest.inside, hfirst.counted.trans hrest.counted,
      by omega⟩
    rw [Reader.bind_of_ok hfirst.reads, hrest.reads]

theorem andThen {next : α → CheckedReader β} {next' : α → Reader β}
    (h : Follows data c 0 checked read)
    (hnext : ∀ a stop, Reaches data c 0 read (.ok a) stop →
      Follows data stop items (next a) (next' a)) :
    Follows data c items (checked >>= next) (read >>= next') :=
  (h.bind hnext).mono (Nat.zero_add items).le

theorem map (h : Follows data c items checked read) (f : α → β) :
    Follows data c items (f <$> checked) (f <$> read) := by
  have hpure : ∀ a stop, Reaches data c items read (.ok a) stop →
      Follows data stop 0 (Pure.pure (f a)) (Pure.pure (f a)) :=
    fun a _ hreach => pure hreach.inside (f a)
  exact h.bind hpure

theorem beginItem (h : Follows data { c with begun := c.begun + 1 } items checked read) :
    Follows data c (items + 1) (CheckedReader.beginItem >>= fun _ => checked) read := by
  obtain ⟨outcome, stop, hchecked, hreach⟩ := h
  have hcounted : c.begun + 1 ≤ stop.begun := hreach.counted
  have hbegun : stop.begun ≤ c.begun + 1 + items := hreach.begun
  refine ⟨outcome, stop, hchecked, hreach.reads, hreach.forward, hreach.inside, ?_, ?_⟩
  · omega
  · omega

end Follows

namespace CheckedReader

variable {n : Nat}

theorem remaining_eq (hc : c.position ≤ data.length) :
    remaining data c = some (.ok (data.length - c.position), c) := by
  rw [remaining, must, minus?, if_pos hc]
  rfl

theorem take_of_short (hc : c.position ≤ data.length) (h : data.length - c.position < n) :
    take n data c = some (.error (.unexpectedEnd n (data.length - c.position)), c) := by
  rw [take, bind_of_ok (remaining_eq hc), if_pos h]
  rfl

theorem take_of_long (hc : c.position ≤ data.length) (h : ¬ data.length - c.position < n) :
    take n data c =
      some (.ok ((data.drop c.position).take n), { c with position := c.position + n }) := by
  have hpart : part n data c = some (.ok ((data.drop c.position).take n), c) := by
    rw [part, slice?, if_pos ⟨by omega, by omega⟩, Nat.add_sub_cancel_left]
    rfl
  rw [take, bind_of_ok (remaining_eq hc), if_neg h, bind_of_ok hpart]
  rfl

theorem array_eq_take (hc : c.position ≤ data.length) (n : Nat) :
    array n data c = take n data c := by
  by_cases h : data.length - c.position < n
  · have hshort := take_of_short hc h
    rw [array, bind_of_error hshort, hshort]
  · have hlong := take_of_long hc h
    have hlength : ((data.drop c.position).take n).length = n := by
      rw [List.length_take, List.length_drop]
      omega
    rw [array, bind_of_ok hlong, if_pos hlength, hlong]
    rfl

theorem must_some_bind (a : α) (next : α → CheckedReader β) : must (some a) >>= next = next a := rfl

end CheckedReader

theorem follows_remaining (hc : c.position ≤ data.length) :
    Follows data c 0 CheckedReader.remaining Reader.remaining := by
  refine ⟨_, c, CheckedReader.remaining_eq hc, .stay hc ?_⟩
  rw [Reader.remaining, List.length_drop]

theorem follows_take (hc : c.position ≤ data.length) (n : Nat) :
    Follows data c 0 (CheckedReader.take n) (Reader.take n) := by
  by_cases h : data.length - c.position < n
  · refine ⟨_, c, CheckedReader.take_of_short hc h, .stay hc ?_⟩
    rw [Reader.take, List.length_drop, if_pos h]
  · refine ⟨_, _, CheckedReader.take_of_long hc h, .advance (Nat.not_lt.mp h) hc ?_⟩
    rw [Reader.take, List.length_drop, if_neg h]

theorem follows_array (hc : c.position ≤ data.length) (n : Nat) :
    Follows data c 0 (CheckedReader.array n) (Reader.take n) := by
  rw [Follows, CheckedReader.array_eq_take hc]
  exact follows_take hc n

theorem follows_number (hc : c.position ≤ data.length) (width : Nat) (ofNat : Nat → α) :
    Follows data c 0 (ofNat <$> CheckedReader.natural width) (ofNat <$> Reader.natural width) :=
  ((follows_array hc width).map Bytes.toNatLE).map ofNat

theorem follows_bool (hc : c.position ≤ data.length) :
    Follows data c 0 CheckedReader.bool Reader.bool := by
  refine (follows_number hc 1 UInt8.ofNat).andThen fun b stop hreach => ?_
  refine .ite Iff.rfl (fun _ => .pure hreach.inside false) fun _ => ?_
  exact .ite Iff.rfl (fun _ => .pure hreach.inside true) fun _ => .fail hreach.inside _

theorem follows_address (hc : c.position ≤ data.length) :
    Follows data c 0 CheckedReader.address Reader.address := by
  have harray := CheckedReader.array_eq_take hc 32
  by_cases h : data.length - c.position < 32
  · have hshort := harray.trans (CheckedReader.take_of_short hc h)
    refine ⟨_, c, CheckedReader.bind_of_error hshort, .stay hc ?_⟩
    simp only [Reader.address, List.length_drop, dif_pos h]
  · have hlong := harray.trans (CheckedReader.take_of_long hc h)
    have hlength : ((data.drop c.position).take 32).length = 32 := by
      rw [List.length_take, List.length_drop]
      omega
    have haddress : CheckedReader.address data c =
        some (.ok ⟨_, hlength⟩, { c with position := c.position + 32 }) := by
      rw [CheckedReader.address, CheckedReader.bind_of_ok hlong, Bytes32.ofBytes?, dif_pos hlength]
      rfl
    refine ⟨_, _, haddress, .advance (Nat.not_lt.mp h) hc ?_⟩
    simp only [Reader.address, List.length_drop, dif_neg h]

section Words

variable {place : Nat} {known digit : UInt64}

theorem toNat_low (b : UInt8) : ((b &&& 0x7F).toUInt64).toNat = b.toNat % 128 := by
  have hmask : (0x7F : UInt8).toNat = 2 ^ 7 - 1 := rfl
  rw [UInt8.toNat_toUInt64, UInt8.toNat_and, hmask, Nat.and_two_pow_sub_one_eq_mod]

theorem marked_iff (b : UInt8) : b &&& 0x80 ≠ 0 ↔ 128 ≤ b.toNat := by
  have hall : ∀ i : Fin 256, UInt8.ofNat i &&& 0x80 ≠ 0 ↔ 128 ≤ i.val := by decide +kernel
  have hb := hall ⟨b.toNat, b.toNat_lt⟩
  rwa [UInt8.ofNat_toNat] at hb

theorem toNat_place (hplace : place < 64) : (UInt64.ofNat place).toNat = place :=
  UInt64.toNat_ofNat_of_lt' (hplace.trans (by decide))

theorem toNat_shiftLeft (hplace : place < 64) (w : UInt64) :
    (w <<< UInt64.ofNat place).toNat = w.toNat <<< place % UInt64.size := by
  rw [UInt64.toNat_shiftLeft, toNat_place hplace, Nat.mod_eq_of_lt hplace]

theorem moved_back_ne_iff (hplace : place < 64) :
    (digit <<< UInt64.ofNat place) >>> UInt64.ofNat place ≠ digit ↔
      UInt64.size ≤ digit.toNat <<< place := by
  have hback : ((digit <<< UInt64.ofNat place) >>> UInt64.ofNat place).toNat =
      digit.toNat * 2 ^ place % UInt64.size / 2 ^ place := by
    rw [UInt64.toNat_shiftRight, toNat_shiftLeft hplace, toNat_place hplace,
      Nat.mod_eq_of_lt hplace, Nat.shiftRight_eq_div_pow, Nat.shiftLeft_eq]
  rw [ne_eq, ← UInt64.toNat_inj, hback, Nat.shiftLeft_eq, ← not_lt]
  apply not_congr
  have hpos : 0 < 2 ^ place := Nat.two_pow_pos place
  constructor
  · intro h
    -- What comes back is no more than the 64 bits held.
    calc digit.toNat * 2 ^ place
        = digit.toNat * 2 ^ place % UInt64.size / 2 ^ place * 2 ^ place := by rw [h]
      _ ≤ digit.toNat * 2 ^ place % UInt64.size := Nat.div_mul_le_self _ _
      _ < UInt64.size := Nat.mod_lt _ (by decide)
  · intro h
    rw [Nat.mod_eq_of_lt h, Nat.mul_div_cancel _ hpos]

/-- At the first place a digit is never lost, so nothing has to be checked there. -/
theorem lost_iff (hplace : place < 64) (hdigit : digit.toNat < 2 ^ 7) :
    0 < place ∧ (digit <<< UInt64.ofNat place) >>> UInt64.ofNat place ≠ digit ↔
      UInt64.size ≤ digit.toNat <<< place := by
  rw [moved_back_ne_iff hplace, and_iff_right_iff_imp]
  intro hlost
  by_contra hzero
  rw [Nat.eq_zero_of_not_pos hzero, Nat.shiftLeft_zero] at hlost
  exact absurd (hlost.trans_lt hdigit) (by decide)

/-- A digit that fits goes where nothing is known yet. -/
theorem toNat_or_shiftLeft (hplace : place < 64) (hknown : known.toNat < 2 ^ place)
    (hfits : digit.toNat <<< place < UInt64.size) :
    (known ||| digit <<< UInt64.ofNat place).toNat = known.toNat + digit.toNat <<< place := by
  rw [UInt64.toNat_or, toNat_shiftLeft hplace, Nat.mod_eq_of_lt hfits, Nat.or_comm,
    ← Nat.shiftLeft_add_eq_or_of_lt hknown, Nat.add_comm]

theorem add_shiftLeft_lt {digits known digit : Nat} (hknown : known < 2 ^ (7 * digits))
    (hdigit : digit < 2 ^ 7) : known + digit <<< (7 * digits) < 2 ^ (7 * (digits + 1)) := by
  calc known + digit <<< (7 * digits)
      < 2 ^ (7 * digits) + digit * 2 ^ (7 * digits) := by
        rw [Nat.shiftLeft_eq]
        exact Nat.add_lt_add_right hknown _
    _ = (digit + 1) * 2 ^ (7 * digits) := by ring
    _ ≤ 2 ^ 7 * 2 ^ (7 * digits) := Nat.mul_le_mul_right _ hdigit
    _ = 2 ^ (7 * (digits + 1)) := by rw [← Nat.pow_add, Nat.mul_succ, Nat.add_comm]

end Words

theorem lengthFrom_eq_bind (known place : Nat) : Reader.lengthFrom known place = (do
    let b ← Reader.u8
    if 64 ≤ place then Reader.fail .lengthOverflow
    else if UInt64.size ≤ (b.toNat % 128) <<< place then Reader.fail .lengthOverflow
    else if 128 ≤ b.toNat then
      Reader.lengthFrom (known + (b.toNat % 128) <<< place) (place + 7)
    else if 0 < place ∧ b.toNat % 128 = 0 then Reader.fail .longLength
    else if Reader.maxLength < known + (b.toNat % 128) <<< place then
      Reader.fail .lengthOverflow
    else pure (known + (b.toNat % 128) <<< place)) := by
  funext bs
  cases bs with
  | nil => rfl
  | cons b rest =>
    have hread : Reader.u8 (b :: rest) = (.ok b, rest) := Reader.reads_u8 b rest
    rw [Reader.lengthFrom, Reader.bind_of_ok hread]
    dsimp only
    repeat' split
    all_goals rfl

/-- Each round knows seven bits more, and at the eleventh digit the place is beyond the word. -/
theorem follows_lengthRounds {rounds : Nat} (digits : Nat) (hc : c.position ≤ data.length)
    (hrounds : rounds + digits = CheckedReader.lengthLimit) (hdigits : digits ≤ 10) {known : UInt64}
    (hknown : known.toNat < 2 ^ (7 * digits)) :
    Follows data c 0 (CheckedReader.lengthRounds rounds known (7 * digits))
      (Reader.lengthFrom known.toNat (7 * digits)) := by
  induction rounds generalizing digits known c with
  | zero =>
    rw [CheckedReader.lengthLimit] at hrounds
    omega
  | succ rounds ih =>
    rw [lengthFrom_eq_bind, CheckedReader.lengthRounds]
    refine (follows_number hc 1 UInt8.ofNat).andThen fun b stop hreach => ?_
    have hstop := hreach.inside
    have hlow := toNat_low b
    generalize (b &&& 0x7F).toUInt64 = digit at hlow ⊢
    rw [← hlow]
    dsimp only
    refine .ite Iff.rfl (fun _ => .fail hstop _) fun hplace => ?_
    have hshort : 7 * digits < 64 := Nat.not_le.mp hplace
    rw [shiftLeft?, if_pos hshort, CheckedReader.must_some_bind, shiftRight?, if_pos hshort,
      CheckedReader.must_some_bind]
    have hdigit : digit.toNat < 2 ^ 7 := hlow ▸ Nat.mod_lt _ (by decide)
    refine .ite (lost_iff hshort hdigit) (fun _ => .fail hstop _) fun hlost => ?_
    have hsum := toNat_or_shiftLeft hshort hknown (Nat.not_le.mp hlost)
    rw [← hsum]
    refine .ite (marked_iff b) (fun _ => ?_) fun _ => ?_
    · have hnext := hsum ▸ add_shiftLeft_lt hknown hdigit
      exact ih (digits + 1) hstop (by omega) (by omega) hnext
    have hzero : digit = 0 ↔ digit.toNat = 0 := UInt64.toNat_inj.symm
    refine .ite (and_congr_right fun _ => hzero) (fun _ => .fail hstop _) fun _ => ?_
    exact .ite Iff.rfl (fun _ => .fail hstop _) fun _ => .pure hstop _

theorem follows_length (hc : c.position ≤ data.length) :
    Follows data c 0 CheckedReader.length Reader.length :=
  follows_lengthRounds 0 hc rfl (by decide) (by decide)

theorem follows_bytes (hc : c.position ≤ data.length) :
    Follows data c 0 CheckedReader.bytes Reader.bytes :=
  (follows_length hc).andThen fun n _ hreach => follows_take hreach.inside n

theorem follows_many {item : CheckedReader α} {read : Reader α}
    (hitem : ∀ {c : Cursor}, c.position ≤ data.length → Follows data c 0 item read)
    (hc : c.position ≤ data.length) (n : Nat) :
    Follows data c n (CheckedReader.many item n) (Reader.many read n) := by
  induction n generalizing c with
  | zero => exact .pure hc []
  | succ n ih =>
    refine .beginItem ?_
    have hfirst := hitem (c := { c with begun := c.begun + 1 }) hc
    exact hfirst.andThen fun a stop hreach => (ih hreach.inside).map fun as => a :: as

/-- A list whose length has been checked against what is left of the input. -/
theorem follows_counted {item : CheckedReader α} {read : Reader α} {long : Nat → Nat → Prop}
    [∀ n left, Decidable (long n left)] (hlong : ∀ {n left}, ¬long n left → n ≤ left)
    (e : Nat → Nat → Fault)
    (hitem : ∀ {c : Cursor}, c.position ≤ data.length → Follows data c 0 item read)
    (hc : c.position ≤ data.length) :
    Follows data c (Reader.length (data.drop c.position)).2.length
      (do
        let n ← CheckedReader.length
        let left ← CheckedReader.remaining
        if long n left then CheckedReader.fail (e n left) else CheckedReader.many item n)
      (do
        let n ← Reader.length
        let left ← Reader.remaining
        if long n left then Reader.fail (e n left) else Reader.many read n) := by
  refine (follows_length hc).andThen fun n middle hlength => ?_
  refine (follows_remaining hlength.inside).andThen fun left stop hleft => ?_
  have hbound : left = (Reader.length (data.drop c.position)).2.length := by
    have hleft_eq : .ok (data.drop middle.position).length = Except.ok left :=
      congrArg Prod.fst hleft.reads
    cases hleft_eq
    rw [hlength.reads]
  refine .ite Iff.rfl (fun _ => (Follows.fail hleft.inside _).mono (Nat.zero_le _)) fun hn => ?_
  exact (follows_many hitem hleft.inside n).mono ((hlong hn).trans hbound.le)

theorem follows_addresses (hc : c.position ≤ data.length) :
    Follows data c (Reader.length (data.drop c.position)).2.length CheckedReader.addresses
      Reader.addresses :=
  follows_counted (by omega) (fun n left => .unexpectedEnd (n * 32) left) follows_address hc

theorem follows_bytesList (hc : c.position ≤ data.length) :
    Follows data c (Reader.length (data.drop c.position)).2.length CheckedReader.bytesList
      Reader.bytesList :=
  follows_counted (by omega) (fun n left => .unexpectedEnd n left) follows_bytes hc

namespace Kind

/-- How many items of a list reading the value may begin: one for each byte behind the length. -/
def itemLimit (k : Kind) (rest : Bytes) : Nat :=
  match k with
  | .addresses | .bytesList => (Reader.length rest).2.length
  | _ => 0

theorem follows_read (k : Kind) (hc : c.position ≤ data.length) :
    Follows data c (k.itemLimit (data.drop c.position)) k.readAt k.read := by
  cases k with
  | u8 => exact (follows_number hc 1 UInt8.ofNat).map _
  | u16 => exact (follows_number hc 2 UInt16.ofNat).map _
  | u32 => exact (follows_number hc 4 UInt32.ofNat).map _
  | u64 => exact (follows_number hc 8 UInt64.ofNat).map _
  | u256 => exact (follows_number hc 32 (BitVec.ofNat 256)).map _
  | bool => exact (follows_bool hc).map _
  | length => exact (follows_length hc).map _
  | address => exact (follows_address hc).map _
  | bytes => exact (follows_bytes hc).map _
  | addresses => exact (follows_addresses hc).map _
  | bytesList => exact (follows_bytesList hc).map _

/-- The bytes of a value that always takes the same number of them. -/
def width? : Kind → Option Nat
  | .u8 | .bool => some 1
  | .u16 => some 2
  | .u32 => some 4
  | .u64 => some 8
  | .u256 | .address => some 32
  | .length | .bytes | .addresses | .bytesList => none

end Kind

/-- The failure is that the input ended. -/
def LacksInput (outcome : Except Fault α) : Prop :=
  ∃ needed left, outcome = .error (.unexpectedEnd needed left)

theorem not_lacksInput_ok (a : α) : ¬LacksInput (.ok a) := by
  rintro ⟨needed, left, h⟩
  cases h

theorem not_lacksInput_badBool (b : UInt8) :
    ¬LacksInput (.error (.badBool b) : Except Fault α) := by
  rintro ⟨needed, left, h⟩
  cases h

namespace Reader

/-- The reader takes all bytes of its width or, if there are not so many, none. Any other failure
comes after they are taken. -/
structure Whole (width : Nat) (read : Reader α) : Prop where
  short : ∀ {rest : Bytes}, rest.length < width →
    read rest = (.error (.unexpectedEnd width rest.length), rest)
  long : ∀ {rest : Bytes}, width ≤ rest.length →
    (read rest).2 = rest.drop width ∧ ¬LacksInput (read rest).1

theorem whole_take (n : Nat) : Whole n (take n) where
  short h := by rw [take, if_pos h]
  long h := by
    rw [take, if_neg (Nat.not_lt.mpr h)]
    exact ⟨rfl, not_lacksInput_ok _⟩

theorem whole_address : Whole 32 address where
  short h := by
    unfold address
    rw [dif_pos h]
  long h := by
    unfold address
    rw [dif_neg (Nat.not_lt.mpr h)]
    exact ⟨rfl, not_lacksInput_ok _⟩

theorem Whole.bind {width : Nat} {read : Reader α} {next : α → Reader β} (h : Whole width read)
    (hnext : ∀ a rest, (next a rest).2 = rest ∧ ¬LacksInput (next a rest).1) :
    Whole width (read >>= next) where
  short hshort := by rw [bind_apply, h.short hshort]
  long {rest} hlong := by
    obtain ⟨htaken, hend⟩ := h.long hlong
    rw [bind_apply]
    rcases hread : read rest with ⟨e | a, left⟩
    · rw [hread] at htaken hend
      refine ⟨htaken, ?_⟩
      rintro ⟨needed, missing, he⟩
      cases he
      exact hend ⟨needed, missing, rfl⟩
    · rw [hread] at htaken
      exact ⟨(hnext a left).1.trans htaken, (hnext a left).2⟩

theorem Whole.map {width : Nat} {read : Reader α} (h : Whole width read) (f : α → β) :
    Whole width (f <$> read) :=
  h.bind fun a _ => ⟨rfl, not_lacksInput_ok (f a)⟩

theorem whole_number (width : Nat) (ofNat : Nat → α) : Whole width (ofNat <$> natural width) :=
  ((whole_take width).map Bytes.toNatLE).map ofNat

theorem whole_bool : Whole 1 bool := by
  refine (whole_number 1 UInt8.ofNat).bind fun b rest => ?_
  split
  next => exact ⟨rfl, not_lacksInput_ok false⟩
  split
  next => exact ⟨rfl, not_lacksInput_ok true⟩
  next => exact ⟨rfl, not_lacksInput_badBool b⟩

theorem rest_map (f : α → β) (read : Reader α) (bs : Bytes) :
    ((f <$> read) bs).2 = (read bs).2 := by
  change ((read >>= fun a => pure (f a)) bs).2 = (read bs).2
  rw [bind_apply]
  rcases read bs with ⟨_ | _, _⟩ <;> rfl

/-- Each digit moves the place by seven, and no digit is taken after one that came too late. -/
theorem length_le_lengthFrom (known : Nat) {digits : Nat} (hdigits : digits ≤ 10) (bs : Bytes) :
    bs.length + digits ≤ (lengthFrom known (7 * digits) bs).2.length + 11 := by
  induction bs generalizing known digits with
  | nil =>
    rw [lengthFrom, List.length_nil]
    omega
  | cons b rest ih =>
    have hstop : rest.length + 1 + digits ≤ rest.length + 11 := by omega
    rw [lengthFrom, List.length_cons]
    dsimp only
    by_cases hplace : 64 ≤ 7 * digits
    · rw [if_pos hplace]
      exact hstop
    have hnext := ih (known + (b.toNat % 128) <<< (7 * digits)) (show digits + 1 ≤ 10 by omega)
    have hagain : rest.length + 1 + digits ≤
        (lengthFrom (known + (b.toNat % 128) <<< (7 * digits)) (7 * digits + 7) rest).2.length +
          11 := by
      rw [Nat.mul_succ] at hnext
      omega
    rw [if_neg hplace]
    repeat' split
    all_goals first | exact hagain | exact hstop

theorem length_le_length (bs : Bytes) : bs.length ≤ (length bs).2.length + 11 :=
  length_le_lengthFrom 0 (Nat.zero_le 10) bs

end Reader

namespace Kind

theorem whole_read {k : Kind} {width : Nat} (h : k.width? = some width) :
    Reader.Whole width k.read := by
  cases k <;> cases h
  case u8 => exact (Reader.whole_number 1 UInt8.ofNat).map _
  case u16 => exact (Reader.whole_number 2 UInt16.ofNat).map _
  case u32 => exact (Reader.whole_number 4 UInt32.ofNat).map _
  case u64 => exact (Reader.whole_number 8 UInt64.ofNat).map _
  case u256 => exact (Reader.whole_number 32 (BitVec.ofNat 256)).map _
  case bool => exact Reader.whole_bool.map _
  case address => exact Reader.whole_address.map _

theorem length_le_read_length (bs : Bytes) : bs.length ≤ (Kind.length.read bs).2.length + 11 := by
  have hlength := Reader.length_le_length bs
  rwa [read, Reader.rest_map]

end Kind

/-- What one call does to the cursor. It does what the reader of its kind does, never goes back or
beyond the input, and leaves a place from which the rest can be measured. A value of fixed width
that the rest is too short for is not begun, and only then does such a call miss input. A length
takes no more than eleven bytes, and a list begins no more items than there are bytes left for
it. -/
structure SafeCall (data : Bytes) (k : Kind) (c : Cursor) (outcome : Except Fault Item)
    (stop : Cursor) : Prop
    extends Reaches data c (k.itemLimit (data.drop c.position)) k.read outcome stop where
  remaining : CheckedReader.remaining data stop = some (.ok (data.length - stop.position), stop)
  short : ∀ {width}, k.width? = some width → data.length - c.position < width →
    outcome = .error (.unexpectedEnd width (data.length - c.position)) ∧
      stop.position = c.position
  long : ∀ {width}, k.width? = some width → width ≤ data.length - c.position →
    stop.position = c.position + width ∧ ¬LacksInput outcome
  digits : k = .length → stop.position ≤ c.position + 11

namespace Reaches

variable {items : Nat} {read : Reader α} {outcome : Except Fault α} {stop : Cursor}

theorem taken_eq (h : Reaches data c items read outcome stop) :
    stop.position = data.length - (read (data.drop c.position)).2.length := by
  have hinside := h.inside
  rw [h.reads, List.length_drop]
  omega

theorem outcome_eq (h : Reaches data c items read outcome stop) :
    outcome = (read (data.drop c.position)).1 := by
  rw [h.reads]

end Reaches

namespace Kind

theorem safe_readAt (k : Kind) (hc : c.position ≤ data.length) :
    ∃ outcome stop, k.readAt data c = some (outcome, stop) ∧ SafeCall data k c outcome stop := by
  obtain ⟨outcome, stop, hread, hreach⟩ := follows_read k hc
  have htaken := hreach.taken_eq
  have hrest := List.length_drop (i := c.position) (l := data)
  refine ⟨outcome, stop, hread, hreach, CheckedReader.remaining_eq hreach.inside, ?short, ?long,
    ?digits⟩
  case short =>
    intro width hwidth hshort
    have hread := (whole_read hwidth).short (hrest.trans_lt hshort)
    have hstay : stop.position = data.length - (data.drop c.position).length := by
      rw [htaken, hread]
    rw [hreach.outcome_eq, hread, hrest]
    exact ⟨rfl, by omega⟩
  case long =>
    intro width hwidth hlong
    obtain ⟨hread, hend⟩ := (whole_read hwidth).long (hlong.trans_eq hrest.symm)
    rw [hread, List.length_drop, hrest] at htaken
    rw [hreach.outcome_eq]
    exact ⟨by omega, hend⟩
  case digits =>
    rintro rfl
    have hdigits := length_le_read_length (data.drop c.position)
    omega

theorem cursorAfter_eq (kinds : List Kind) (hc : c.position ≤ data.length) :
    ∃ stop, cursorAfter data kinds c = some stop ∧ stop.position ≤ data.length ∧
      data.drop stop.position = restAfter kinds (data.drop c.position) := by
  induction kinds generalizing c with
  | nil => exact ⟨c, rfl, hc, rfl⟩
  | cons k kinds ih =>
    obtain ⟨outcome, middle, hread, hreach⟩ := follows_read k hc
    obtain ⟨stop, hstop, hinside, hrest⟩ := ih hreach.inside
    refine ⟨stop, ?_, hinside, ?_⟩
    · rw [cursorAfter, hread, Option.bind_some, hstop]
    · rw [hrest, restAfter, restAfter, List.foldl_cons, hreach.reads]

end Kind

/-- Whatever the input and whatever was read before, with success or without, the next call has an
outcome and is safe. -/
theorem calls_never_leave_input (data : Bytes) (kinds : List Kind) (k : Kind) :
    ∃ c outcome stop, Kind.cursorAfter data kinds .start = some c ∧
      data.drop c.position = Kind.restAfter kinds data ∧
      k.readAt data c = some (outcome, stop) ∧ SafeCall data k c outcome stop := by
  obtain ⟨c, hafter, hinside, hrest⟩ :=
    Kind.cursorAfter_eq (c := .start) kinds (Nat.zero_le data.length)
  obtain ⟨outcome, stop, hread, hsafe⟩ := Kind.safe_readAt k hinside
  exact ⟨c, outcome, stop, hafter, hrest, hread, hsafe⟩

/-- A list that claims the greatest length there is, in an input that ends behind it. -/
example : (Kind.bytesList.readAt [0xFF, 0xFF, 0xFF, 0xFF, 0x0F] .start).map Prod.snd =
    some ⟨5, 0⟩ := by decide

end CrossChain.Bcs
