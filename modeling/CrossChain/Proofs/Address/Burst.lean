import CrossChain.Proofs.Address.Friendly
/-! Damage to a few bits in a row. Main statement: the checksum tells byte strings of one length
apart if they differ in two neighbouring bytes at most, so a payload that is damaged there, be it in
the checksum itself, is refused. -/
namespace CrossChain

namespace Crc16

variable {bs others : Bytes} {i : Nat}

def AgreeOutsidePair (bs others : Bytes) : Prop :=
  ∃ i, ∀ j, j ≠ i → j ≠ i + 1 → bs[j]? = others[j]?

theorem sameUpToPair_of_agree (hlength : bs.length = others.length) (hi : i + 1 < bs.length)
    (hagree : ∀ j, j ≠ i → j ≠ i + 1 → bs[j]? = others[j]?) : SameUpToPair bs others := by
  have hfront : bs.take i = others.take i := by
    apply List.ext_getElem?
    intro j
    simp only [List.getElem?_take]
    split
    next hj => exact hagree j (by omega) (by omega)
    next => rfl
  have hback : bs.drop (i + 2) = others.drop (i + 2) := by
    apply List.ext_getElem?
    intro j
    simp only [List.getElem?_drop]
    exact hagree (i + 2 + j) (by omega) (by omega)
  have hsplit : ∀ cs : Bytes, (hcs : i + 1 < cs.length) →
      cs = cs.take i ++ cs[i] :: cs[i + 1] :: cs.drop (i + 2) := by
    intro cs hcs
    rw [← List.drop_eq_getElem_cons hcs, ← List.drop_eq_getElem_cons (Nat.lt_of_succ_lt hcs),
      List.take_append_drop]
  have hothers := hsplit others (hlength ▸ hi)
  rw [← hfront, ← hback] at hothers
  exact ⟨_, _, _, _, _, _, hsplit bs hi, hothers⟩

/-- One byte more at the end does not matter, and with it no place is the last one. -/
theorem eq_of_checksum_eq_of_agree (hlength : bs.length = others.length)
    (hagree : AgreeOutsidePair bs others) (h : checksum bs = checksum others) : bs = others := by
  obtain ⟨i, hagree⟩ := hagree
  rcases Nat.lt_or_ge i bs.length with hi | hi
  · have hlonger : SameUpToPair (bs ++ [0]) (others ++ [0]) := by
      refine sameUpToPair_of_agree (i := i) (by simp [hlength]) (by simpa using hi) ?_
      intro j hj hnext
      rw [List.getElem?_append, List.getElem?_append, hlength, hagree j hj hnext]
    have hchecksum : checksum (bs ++ [0]) = checksum (others ++ [0]) := by
      simp only [checksum, List.foldl_append] at h ⊢
      rw [h]
    exact List.append_cancel_right (hlonger.eq_of_checksum_eq hchecksum)
  · -- Both end before the place where they may differ.
    apply List.ext_getElem?
    intro j
    rcases Nat.lt_or_ge j bs.length with hj | hj
    · exact hagree j (by omega) (by omega)
    · rw [List.getElem?_eq_none hj, List.getElem?_eq_none (hlength ▸ hj)]

end Crc16

namespace Ton

/-- The checksum tells any two byte strings of one length apart that differ in two neighbouring
bytes at most. So if a payload is damaged in two neighbouring bytes at most, wherever they stand,
its checksum does not fit any more and the payload is not read. -/
theorem short_burst_detected :
    (∀ bs others : Bytes, bs.length = others.length → Crc16.AgreeOutsidePair bs others →
      bs ≠ others → Crc16.checksum bs ≠ Crc16.checksum others) ∧
    ∀ body damaged : Bytes, body.length = 34 → damaged.length = 36 →
      Crc16.AgreeOutsidePair (body ++ Crc16.trailer body) damaged →
      damaged ≠ body ++ Crc16.trailer body →
      isChecked damaged = false ∧
        ∀ alphabet a, parseFriendly (Base64.encode alphabet damaged) ≠ .ok a := by
  constructor
  · intro bs others hlength hagree hne h
    exact hne (Crc16.eq_of_checksum_eq_of_agree hlength hagree h)
  · intro body damaged hbody hdamaged hagree hne
    have hlength : (body ++ Crc16.trailer body).length = 36 := by
      simp [Crc16.trailer, hbody]
    have hunchecked : ¬ isChecked damaged := by
      intro hchecked
      have hpayload := (isChecked_iff hlength).mp (isChecked_append_trailer hbody)
      have hzero := (isChecked_iff hdamaged).mp hchecked
      exact hne (Crc16.eq_of_checksum_eq_of_agree (hlength.trans hdamaged.symm) hagree
        (hpayload.trans hzero.symm)).symm
    exact ⟨Bool.eq_false_iff.mpr hunchecked,
      fun alphabet a hread => hunchecked (isChecked_of_parseFriendly hdamaged hread)⟩

def zeroBody : Bytes := 0x11 :: List.replicate 33 0

/-- The last byte of the account and the first one of the checksum are damaged. -/
def straddled : Bytes := ((zeroBody ++ Crc16.trailer zeroBody).set 33 0xFF).set 34 0xFF

theorem straddling_burst_detected :
    zeroBody.length = 34 ∧ straddled.length = 36 ∧
      Crc16.AgreeOutsidePair (zeroBody ++ Crc16.trailer zeroBody) straddled ∧
      straddled ≠ zeroBody ++ Crc16.trailer zeroBody ∧
      Crc16.checksum (zeroBody ++ Crc16.trailer zeroBody) ≠ Crc16.checksum straddled ∧
      isChecked straddled = false := by
  have hbody : zeroBody.length = 34 := by decide
  have hstraddled : straddled.length = 36 := by decide
  have hne : straddled ≠ zeroBody ++ Crc16.trailer zeroBody := by decide +kernel
  have hagree : Crc16.AgreeOutsidePair (zeroBody ++ Crc16.trailer zeroBody) straddled := by
    refine ⟨33, fun j hj hnext => ?_⟩
    rw [straddled, List.getElem?_set_ne (Ne.symm hnext), List.getElem?_set_ne (Ne.symm hj)]
  refine ⟨hbody, hstraddled, hagree, hne, ?_, ?_⟩
  · exact short_burst_detected.1 _ _ (by decide) hagree hne.symm
  · exact (short_burst_detected.2 zeroBody straddled hbody hstraddled hagree hne).1

end Ton

end CrossChain
