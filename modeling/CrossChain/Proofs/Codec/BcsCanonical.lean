import CrossChain.Bcs.Item
import CrossChain.Proofs.Codec.Bcs
/-! BCS has one form of each value. What a reader takes to give a value is what the value is
written as, so no other spelling is accepted, be it of a number, of a truth value or of a length.
Main statement: reading typed values up to the end of the input undoes writing them, and nothing
else reads. -/
namespace CrossChain.Bcs

namespace Reader

variable {α β : Type}

/-- Whatever the reader gives, it has taken bytes from the front for it, and these and the value
are so related. -/
def Takes (read : Reader α) (R : Bytes → α → Prop) : Prop :=
  ∀ bs a rest, read bs = (.ok a, rest) → ∃ taken, bs = taken ++ rest ∧ R taken a

theorem Takes.pure {R : Bytes → α → Prop} {a : α} (h : R [] a) : Takes (Pure.pure a) R := by
  rintro bs _ _ ⟨⟩
  exact ⟨[], rfl, h⟩

theorem Takes.fail {R : Bytes → α → Prop} (e : Fault) : Takes (fail e) R := by
  rintro bs a rest ⟨⟩

theorem Takes.bind {read : Reader α} {next : α → Reader β} {R : Bytes → α → Prop}
    {S : Bytes → β → Prop} (hread : Takes read R)
    (hnext : ∀ taken a, R taken a → Takes (next a) fun more b => S (taken ++ more) b) :
    Takes (read >>= next) S := by
  intro bs b rest h
  obtain ⟨a, between, ha, hb⟩ := bind_eq_ok_iff.mp h
  obtain ⟨taken, rfl, hR⟩ := hread _ _ _ ha
  obtain ⟨more, rfl, hS⟩ := hnext taken a hR _ _ _ hb
  exact ⟨taken ++ more, (List.append_assoc _ _ _).symm, hS⟩

theorem Takes.map {read : Reader α} {f : α → β} {R : Bytes → α → Prop} {S : Bytes → β → Prop}
    (hread : Takes read R) (h : ∀ taken a, R taken a → S taken (f a)) : Takes (f <$> read) S :=
  hread.bind fun taken a hR => Takes.pure (by rw [List.append_nil]; exact h taken a hR)

theorem Takes.mono {read : Reader α} {R S : Bytes → α → Prop} (hread : Takes read R)
    (h : ∀ taken a, R taken a → S taken a) : Takes read S := by
  intro bs a rest ha
  obtain ⟨taken, hbs, hR⟩ := hread bs a rest ha
  exact ⟨taken, hbs, h taken a hR⟩

theorem takes_remaining : Takes remaining fun taken _ => taken = [] := by
  rintro bs _ _ ⟨⟩
  exact ⟨[], rfl, rfl⟩

theorem takes_take (n : Nat) : Takes (take n) fun taken bs => taken = bs ∧ bs.length = n := by
  intro bs a rest h
  unfold take at h
  split at h
  next => cases h
  next hlong =>
    cases h
    exact ⟨bs.take n, (List.take_append_drop n bs).symm, rfl, by simp; omega⟩

theorem takes_natural (width : Nat) : Takes (natural width) fun taken n =>
    taken = Bytes.ofNatLE width n ∧ n < 256 ^ width := by
  refine (takes_take width).map ?_
  rintro bs _ ⟨rfl, rfl⟩
  exact ⟨(Bytes.ofNatLE_toNatLE bs).symm, Bytes.toNatLE_lt bs⟩

theorem takes_number {width : Nat} {ofNat : Nat → α} {toNat : α → Nat}
    (hinv : ∀ n < 256 ^ width, toNat (ofNat n) = n) :
    Takes (ofNat <$> natural width) fun taken a => taken = Bytes.ofNatLE width (toNat a) := by
  refine (takes_natural width).map ?_
  rintro _ n ⟨rfl, hn⟩
  rw [hinv n hn]

theorem takes_u8 : Takes u8 fun taken n => taken = Bcs.u8 n := by
  have hnumber : Takes u8 fun taken n => taken = Bytes.ofNatLE 1 n.toNat :=
    takes_number fun _ hn => UInt8.toNat_ofNat_of_lt' hn
  refine hnumber.mono ?_
  rintro _ n rfl
  rw [Bytes.ofNatLE, Bytes.ofNatLE, UInt8.ofNat_toNat, Bcs.u8]

theorem takes_u16 : Takes u16 fun taken n => taken = Bcs.u16 n :=
  takes_number fun _ hn => UInt16.toNat_ofNat_of_lt' hn

theorem takes_u32 : Takes u32 fun taken n => taken = Bcs.u32 n :=
  takes_number fun _ hn => UInt32.toNat_ofNat_of_lt' hn

theorem takes_u64 : Takes u64 fun taken n => taken = Bcs.u64 n :=
  takes_number fun _ hn => UInt64.toNat_ofNat_of_lt' hn

theorem takes_u256 : Takes u256 fun taken n => taken = Bcs.u256 n :=
  takes_number fun n hn => (BitVec.toNat_ofNat n 256).trans (Nat.mod_eq_of_lt hn)

theorem takes_bool : Takes bool fun taken b => taken = Bcs.bool b := by
  refine takes_u8.bind ?_
  rintro _ b rfl
  split
  next hzero =>
    subst hzero
    exact .pure rfl
  split
  next hone =>
    subst hone
    exact .pure rfl
  next => exact .fail _

theorem takes_address : Takes address fun taken w => taken = Bcs.address w := by
  intro bs w rest h
  unfold address at h
  split at h
  next => cases h
  next =>
    cases h
    exact ⟨bs.take 32, (List.take_append_drop 32 bs).symm, rfl⟩

/-- The digits of a length from some place on are those of one number. The last of several digits
is not zero, so nothing can be left out at the end. -/
theorem exists_of_lengthFrom {known place n : Nat} {bs rest : Bytes}
    (h : lengthFrom known place bs = (.ok n, rest)) : ∃ m, bs = Bcs.length m ++ rest ∧
      n = known + m <<< place ∧ n ≤ maxLength ∧ (0 < place → 0 < m) := by
  induction bs generalizing known place with
  | nil => cases h
  | cons b bs ih =>
    have hb := b.toNat_lt
    rw [lengthFrom] at h
    dsimp only at h
    split at h
    next => cases h
    split at h
    next => cases h
    split at h
    next hmarked =>
      obtain ⟨m, rfl, rfl, hmax, hm⟩ := ih h
      have hpos := hm (Nat.succ_pos _)
      -- One digit more at the low end of what was read behind it.
      obtain ⟨k, hdigit, hrest⟩ : ∃ k, k % 128 = b.toNat % 128 ∧ k / 128 = m :=
        ⟨b.toNat % 128 + 128 * m, by omega, by omega⟩
      have hbyte : UInt8.ofNat (k % 128 + 128) = b := by
        rw [← UInt8.toNat_inj, UInt8.toNat_ofNat']
        omega
      have hlong : 128 ≤ k := by omega
      refine ⟨k, ?_, ?_, hmax, by omega⟩
      · rw [length_of_le hlong, hbyte, hrest, List.cons_append]
      · rw [← digit_add_rest k, hdigit, hrest, Nat.add_assoc]
    next hlast =>
      split at h
      next => cases h
      next hcanonical =>
        split at h
        next => cases h
        next hmax =>
          cases h
          have hdigit : b.toNat % 128 = b.toNat := Nat.mod_eq_of_lt (by omega)
          refine ⟨b.toNat, ?_, by rw [hdigit], by omega, by omega⟩
          rw [length_of_lt (by omega), UInt8.ofNat_toNat, List.singleton_append]

theorem takes_length : Takes length fun taken n => taken = Bcs.length n ∧ n ≤ maxLength := by
  intro bs n rest h
  obtain ⟨m, rfl, rfl, hmax, -⟩ := exists_of_lengthFrom h
  have hsame : 0 + m <<< 0 = m := by simp
  rw [hsame] at hmax ⊢
  exact ⟨Bcs.length m, rfl, rfl, hmax⟩

theorem takes_bytes :
    Takes bytes fun taken bs => taken = Bcs.bytes bs ∧ bs.length ≤ maxLength := by
  refine takes_length.bind ?_
  rintro _ n ⟨rfl, hn⟩
  refine (takes_take n).mono ?_
  rintro _ bs ⟨rfl, rfl⟩
  exact ⟨rfl, hn⟩

theorem takes_many {item : Reader α} {write : α → Bytes} {P : α → Prop}
    (h : Takes item fun taken a => taken = write a ∧ P a) (n : Nat) :
    Takes (many item n) fun taken as =>
      taken = as.flatMap write ∧ as.length = n ∧ ∀ a ∈ as, P a := by
  induction n with
  | zero => exact .pure (by simp)
  | succ n ih =>
    refine h.bind ?_
    rintro _ a ⟨rfl, ha⟩
    refine ih.bind ?_
    rintro _ as ⟨rfl, rfl, has⟩
    exact .pure (by simpa [ha] using has)

/-- A list behind its length, whichever lengths are refused at once. -/
theorem takes_counted {item : Reader α} {write : α → Bytes} {P : α → Prop}
    {refused : Nat → Nat → Prop} [∀ n left, Decidable (refused n left)] {e : Nat → Nat → Fault}
    (h : Takes item fun taken a => taken = write a ∧ P a) :
    Takes (do
      let n ← length
      let left ← remaining
      if refused n left then fail (e n left) else many item n : Reader (List α))
    fun taken as => taken = Bcs.length as.length ++ as.flatMap write ∧ as.length ≤ maxLength ∧
      ∀ a ∈ as, P a := by
  refine takes_length.bind ?_
  rintro _ n ⟨rfl, hn⟩
  refine takes_remaining.bind ?_
  rintro _ left rfl
  split
  next => exact .fail _
  next =>
    refine (takes_many h n).mono ?_
    rintro _ as ⟨rfl, rfl, has⟩
    exact ⟨rfl, hn, has⟩

theorem takes_addresses :
    Takes addresses fun taken ws => taken = Bcs.addresses ws ∧ ws.length ≤ maxLength := by
  have haddress : Takes address fun taken w => taken = Bcs.address w ∧ True :=
    takes_address.mono fun _ _ h => ⟨h, trivial⟩
  exact (takes_counted haddress).mono fun _ _ h => ⟨h.1, h.2.1⟩

theorem takes_bytesList : Takes bytesList fun taken items => taken = Bcs.bytesList items ∧
    items.length ≤ maxLength ∧ ∀ bs ∈ items, bs.length ≤ maxLength :=
  takes_counted takes_bytes

/-- A reader that reads what is written, and takes nothing else, reads just that. -/
theorem eq_ok_iff_of_reads_takes {read : Reader α} {write : α → Bytes} {P : α → Prop}
    (hreads : ∀ a, P a → Reads read (write a) a)
    (htakes : Takes read fun taken a => taken = write a ∧ P a) {bs rest : Bytes} {a : α} :
    read bs = (.ok a, rest) ↔ bs = write a ++ rest ∧ P a := by
  constructor
  · intro h
    obtain ⟨_, rfl, rfl, ha⟩ := htakes bs a rest h
    exact ⟨rfl, ha⟩
  · rintro ⟨rfl, ha⟩
    exact hreads a ha rest

/-- At the end of the input a reader has left nothing. -/
theorem finished_eq_ok_iff {read : Reader α} {bs : Bytes} {a : α} :
    ((do let a ← read; finish; return a : Reader α) bs).1 = .ok a ↔ read bs = (.ok a, []) := by
  rw [bind_apply]
  match read bs with
  | (.error e, rest) => simp
  | (.ok b, []) => simp [finish, bind_apply]
  | (.ok b, c :: rest) => simp [finish, bind_apply]

end Reader

namespace Kind

open Reader (Reads Takes)

theorem reads_read {item : Item} (h : item.Fits) :
    Reads item.kind.read item.write item := by
  cases item with
  | u8 n => exact (Reader.reads_u8 n).map _
  | u16 n => exact (Reader.reads_u16 n).map _
  | u32 n => exact (Reader.reads_u32 n).map _
  | u64 n => exact (Reader.reads_u64 n).map _
  | u256 n => exact (Reader.reads_u256 n).map _
  | bool b => exact (Reader.reads_bool b).map _
  | length n => exact (Reader.reads_length h).map _
  | address w => exact (Reader.reads_address w).map _
  | bytes bs => exact (Reader.reads_bytes h).map _
  | addresses ws => exact (Reader.reads_addresses h).map _
  | bytesList items => exact (Reader.reads_bytesList h.1 h.2).map _

theorem takes_read (k : Kind) :
    Takes k.read fun taken item => taken = item.write ∧ item.kind = k ∧ item.Fits := by
  cases k with
  | u8 => exact Reader.takes_u8.map fun _ _ h => ⟨h, rfl, trivial⟩
  | u16 => exact Reader.takes_u16.map fun _ _ h => ⟨h, rfl, trivial⟩
  | u32 => exact Reader.takes_u32.map fun _ _ h => ⟨h, rfl, trivial⟩
  | u64 => exact Reader.takes_u64.map fun _ _ h => ⟨h, rfl, trivial⟩
  | u256 => exact Reader.takes_u256.map fun _ _ h => ⟨h, rfl, trivial⟩
  | bool => exact Reader.takes_bool.map fun _ _ h => ⟨h, rfl, trivial⟩
  | length => exact Reader.takes_length.map fun _ _ h => ⟨h.1, rfl, h.2⟩
  | address => exact Reader.takes_address.map fun _ _ h => ⟨h, rfl, trivial⟩
  | bytes => exact Reader.takes_bytes.map fun _ _ h => ⟨h.1, rfl, h.2⟩
  | addresses => exact Reader.takes_addresses.map fun _ _ h => ⟨h.1, rfl, h.2⟩
  | bytesList => exact Reader.takes_bytesList.map fun _ _ h => ⟨h.1, rfl, h.2⟩

theorem reads_readAll {items : List Item} (h : ∀ item ∈ items, item.Fits) :
    Reads (readAll (items.map Item.kind)) (Item.writeAll items) items := by
  induction items with
  | nil => exact .pure []
  | cons item items ih =>
    rw [List.forall_mem_cons] at h
    rw [List.map_cons, readAll, Item.writeAll, List.flatMap_cons,
      ← List.append_nil (items.flatMap Item.write)]
    exact (reads_read h.1).bind ((ih h.2).bind (.pure (item :: items)))

theorem takes_readAll (kinds : List Kind) : Takes (readAll kinds) fun taken items =>
    taken = Item.writeAll items ∧ items.map Item.kind = kinds ∧ ∀ item ∈ items, item.Fits := by
  induction kinds with
  | nil => exact .pure ⟨rfl, rfl, by simp⟩
  | cons k kinds ih =>
    refine (takes_read k).bind ?_
    rintro _ item ⟨rfl, rfl, hitem⟩
    refine ih.bind ?_
    rintro _ items ⟨rfl, rfl, hitems⟩
    exact .pure ⟨by simp [Item.writeAll], rfl, List.forall_mem_cons.mpr ⟨hitem, hitems⟩⟩

theorem readAll_eq_ok_iff {kinds : List Kind} {bs rest : Bytes} {items : List Item} :
    readAll kinds bs = (.ok items, rest) ↔ bs = Item.writeAll items ++ rest ∧
      items.map Item.kind = kinds ∧ ∀ item ∈ items, item.Fits := by
  refine Reader.eq_ok_iff_of_reads_takes ?_ (takes_readAll kinds)
  rintro items ⟨rfl, hitems⟩
  exact reads_readAll hitems

/-- Reading undoes writing and writing undoes reading: values of some kinds are read from a whole
byte string exactly if they are of these kinds, have lengths that can be read, and are written as
that byte string. -/
theorem readWhole_eq_ok_iff {kinds : List Kind} {bs : Bytes} {items : List Item} :
    (readWhole kinds bs).1 = .ok items ↔
      items.map Item.kind = kinds ∧ (∀ item ∈ items, item.Fits) ∧ Item.writeAll items = bs := by
  rw [readWhole, Reader.finished_eq_ok_iff, readAll_eq_ok_iff, List.append_nil]
  constructor
  · rintro ⟨rfl, hkinds, hitems⟩
    exact ⟨hkinds, hitems, rfl⟩
  · rintro ⟨hkinds, hitems, rfl⟩
    exact ⟨rfl, hkinds, hitems⟩

end Kind

end CrossChain.Bcs
