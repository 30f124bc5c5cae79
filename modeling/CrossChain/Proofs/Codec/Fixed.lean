import Mathlib
import CrossChain.Bcs.Writer
import CrossChain.Bytes.Lemmas
/-! Values of fixed width in front of other bytes. The width says where the value ends, so the
bytes determine both the value and what follows. -/
namespace CrossChain

theorem Bytes32.append_inj {a b : Bytes32} {r s : Bytes} :
    a.toBytes ++ r = b.toBytes ++ s ↔ a = b ∧ r = s := by
  constructor
  · intro h
    obtain ⟨hab, hrs⟩ := List.append_inj h (by simp)
    exact ⟨Bytes32.toBytes_inj.mp hab, hrs⟩
  · rintro ⟨rfl, rfl⟩
    rfl

namespace Bytes

theorem ofNatLE_inj {width n m : Nat} (hn : n < 256 ^ width) (hm : m < 256 ^ width) :
    ofNatLE width n = ofNatLE width m ↔ n = m := by
  constructor
  · intro h
    have := congrArg toNatLE h
    rwa [toNatLE_ofNatLE, toNatLE_ofNatLE, Nat.mod_eq_of_lt hn, Nat.mod_eq_of_lt hm] at this
  · rintro rfl
    rfl

/-- A number that fits the width is told from its bytes, whatever stands behind them. -/
theorem ofNatLE_append_inj {width n m : Nat} {r s : Bytes} (hn : n < 256 ^ width)
    (hm : m < 256 ^ width) :
    ofNatLE width n ++ r = ofNatLE width m ++ s ↔ n = m ∧ r = s := by
  constructor
  · intro h
    obtain ⟨hnm, hrs⟩ := List.append_inj h (by simp)
    exact ⟨(ofNatLE_inj hn hm).mp hnm, hrs⟩
  · rintro ⟨rfl, rfl⟩
    rfl

theorem ofNatBE_append_inj {width n m : Nat} {r s : Bytes} (hn : n < 256 ^ width)
    (hm : m < 256 ^ width) :
    ofNatBE width n ++ r = ofNatBE width m ++ s ↔ n = m ∧ r = s := by
  constructor
  · intro h
    obtain ⟨hnm, hrs⟩ := List.append_inj h (by simp)
    exact ⟨(ofNatLE_inj hn hm).mp (List.reverse_inj.mp hnm), hrs⟩
  · rintro ⟨rfl, rfl⟩
    rfl

theorem ofNatLE_u32_append_inj {n m : UInt32} {r s : Bytes} :
    ofNatLE 4 n.toNat ++ r = ofNatLE 4 m.toNat ++ s ↔ n = m ∧ r = s := by
  rw [ofNatLE_append_inj n.toNat_lt m.toNat_lt, UInt32.toNat_inj]

theorem ofNatLE_u64_append_inj {n m : UInt64} {r s : Bytes} :
    ofNatLE 8 n.toNat ++ r = ofNatLE 8 m.toNat ++ s ↔ n = m ∧ r = s := by
  rw [ofNatLE_append_inj n.toNat_lt m.toNat_lt, UInt64.toNat_inj]

theorem ofNatLE_u256_append_inj {n m : U256} {r s : Bytes} :
    ofNatLE 32 n.toNat ++ r = ofNatLE 32 m.toNat ++ s ↔ n = m ∧ r = s := by
  rw [ofNatLE_append_inj n.isLt m.isLt, BitVec.toNat_inj]

/-- Written items behind each other, if there are as many on both sides and each item is told
apart from what follows it. -/
theorem flatten_append_inj {α : Type} {V W : α → Bytes → Prop} {as bs : List α}
    {encs others : List Bytes} {r s : Bytes}
    (hitem : ∀ a enc b other, V a enc → W b other →
      ∀ r s, enc ++ r = other ++ s → a = b ∧ r = s)
    (has : List.Forall₂ V as encs) (hbs : List.Forall₂ W bs others)
    (hlen : as.length = bs.length) (h : encs.flatten ++ r = others.flatten ++ s) :
    as = bs ∧ r = s := by
  induction has generalizing bs others with
  | nil =>
    obtain rfl := List.eq_nil_of_length_eq_zero hlen.symm
    cases hbs
    exact ⟨rfl, h⟩
  | @cons a enc as encs ha _ ih =>
    cases hbs with
    | nil => simp at hlen
    | @cons b other bs others hb hbs =>
      rw [List.flatten_cons, List.flatten_cons, List.append_assoc, List.append_assoc] at h
      obtain ⟨rfl, htail⟩ := hitem a enc b other ha hb _ _ h
      obtain ⟨rfl, rfl⟩ := ih hbs (by simpa using hlen) htail
      exact ⟨rfl, rfl⟩

theorem flatMap_append_inj {α : Type} {write : α → Bytes} {as bs : List α} {r s : Bytes}
    (hitem : ∀ a ∈ as, ∀ b ∈ bs, ∀ r s, write a ++ r = write b ++ s → a = b ∧ r = s)
    (hlen : as.length = bs.length) :
    as.flatMap write ++ r = bs.flatMap write ++ s ↔ as = bs ∧ r = s := by
  have hwritten : ∀ l : List α,
      List.Forall₂ (fun a enc => a ∈ l ∧ enc = write a) l (l.map write) := by
    intro l
    rw [List.forall₂_map_right_iff, List.forall₂_same]
    exact fun a ha => ⟨ha, rfl⟩
  constructor
  · rw [List.flatMap_def, List.flatMap_def]
    apply flatten_append_inj ?_ (hwritten as) (hwritten bs) hlen
    rintro a _ b _ ⟨ha, rfl⟩ ⟨hb, rfl⟩
    exact hitem a ha b hb
  · rintro ⟨rfl, rfl⟩
    rfl

end Bytes

end CrossChain
