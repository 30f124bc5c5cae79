import CrossChain.Proofs.Leaf.Views
/-! Leaves commit to messages. Unless two hashed byte strings share a digest, messages with one
leaf on a lane agree on every field that the scheme of the leaf hashes. -/
namespace CrossChain

theorem CollisionFree.map_keccak256_inj {strings : List Bytes} (hfree : CollisionFree strings)
    {xs ys : List Bytes} (hxs : xs ⊆ strings) (hys : ys ⊆ strings)
    (h : xs.map keccak256 = ys.map keccak256) : xs = ys := by
  induction xs generalizing ys with
  | nil => simpa [eq_comm] using h
  | cons x xs ih =>
    cases ys with
    | nil => simp at h
    | cons y ys =>
      rw [List.map_cons, List.map_cons, List.cons.injEq] at h
      rw [List.cons_subset] at hxs hys
      rw [hfree x hxs.1 y hys.1 h.1, ih hxs.2 hys.2 h.2]

open Leaf Message

namespace Scheme

variable {s : Scheme} {lane : Lane} {m n : Message} {leaf : Bytes32}

def parts : Scheme → Nat
  | .evm2evm | .any2evm | .any2aptos => 4
  | .any2svm => 0
  | .any2sui => 5

theorem length_hashed {r : Remainder} (h : s.remainder m = .ok r) :
    r.hashed.length = s.parts := by
  cases s with
  | evm2evm | any2evm | any2aptos | any2sui =>
    obtain ⟨c, -, rfl⟩ := Except.map_eq_ok_iff.mp h
    rfl
  | any2svm =>
    obtain ⟨c, -, h⟩ := Except.bind_eq_ok_iff.mp h
    obtain ⟨body, -, rfl⟩ := SolanaContent.remainder_eq_ok_iff.mp h
    rfl

theorem remainder_eq_of_leaf_eq (hm : (s.leaf lane m).result = .ok leaf)
    (hn : (s.leaf lane n).result = .ok leaf)
    (hfree : CollisionFree ((s.leaf lane m).inputs ++ (s.leaf lane n).inputs)) :
    ∃ r, s.remainder m = .ok r ∧ s.remainder n = .ok r := by
  obtain ⟨p, hp, hq⟩ := preimage_of_leaf_eq hm hn hfree
  rw [leaf_inputs hp, leaf_inputs hq] at hfree
  obtain ⟨metadata, r, hmetadata, hr, rfl⟩ := preimage_result_eq_ok_iff.mp hp
  obtain ⟨metadata', r', hmetadata', hr', hpq⟩ := preimage_result_eq_ok_iff.mp hq
  obtain rfl : metadata = metadata' := Except.ok.inj (hmetadata.symm.trans hmetadata')
  have hcount : (r.hashed.map keccak256).length = (r'.hashed.map keccak256).length := by
    rw [List.length_map, List.length_map, length_hashed hr, length_hashed hr']
  rw [Remainder.preimage, Remainder.preimage, joined_append_inj (by simpa using hcount),
    List.cons.injEq, List.cons.injEq] at hpq
  obtain ⟨⟨-, -, hdigests⟩, hplain⟩ := hpq
  rw [preimage_inputs hmetadata hr, preimage_inputs hmetadata hr'] at hfree
  have hhashed : r.hashed = r'.hashed :=
    hfree.map_keccak256_inj (fun x hx => by simp [hx]) (fun x hx => by simp [hx]) hdigests
  obtain rfl : r = r' := by
    cases r
    cases r'
    simp_all
  exact ⟨r, hr, hr'⟩

/-- Agreement on the fields that the scheme hashes. -/
def Same : Scheme → Message → Message → Prop
  | .evm2evm, m, n => SameCore m n ∧ SameLegacy m n
  | .any2evm, m, n | .any2aptos, m, n => SameCore m n ∧ SameRamp m n
  | .any2svm, m, n => SameCore m n ∧ SameRamp m n ∧ SameSolana m n
  | .any2sui, m, n => SameCore m n ∧ SameRamp m n ∧ m.suiArgs = n.suiArgs

/-- Messages with one leaf on a lane agree on all that the scheme hashes. ABI counts with words,
so their lists must be such as a word can count, as all are that fit in a memory. -/
theorem same_of_leaf_eq (hm : (s.leaf lane m).result = .ok leaf)
    (hn : (s.leaf lane n).result = .ok leaf)
    (hfree : CollisionFree ((s.leaf lane m).inputs ++ (s.leaf lane n).inputs))
    (hmcount : m.Countable) (hncount : n.Countable) : s.Same m n := by
  obtain ⟨r, hm, hn⟩ := remainder_eq_of_leaf_eq hm hn hfree
  cases s with
  | evm2evm =>
    obtain ⟨c, hc, rfl⟩ := Except.map_eq_ok_iff.mp hm
    obtain ⟨d, hd, hr⟩ := Except.map_eq_ok_iff.mp hn
    have hcm := LegacyContent.describes_of_ofMessage hc
    have hdn := LegacyContent.describes_of_ofMessage hd
    obtain rfl := LegacyContent.remainder_inj (hdn.countable hncount) (hcm.countable hmcount) hr
    exact hcm.same hdn
  | any2evm =>
    obtain ⟨c, hc, rfl⟩ := Except.map_eq_ok_iff.mp hm
    obtain ⟨d, hd, hr⟩ := Except.map_eq_ok_iff.mp hn
    have hcm := RampContent.describes_of_ofMessage (fun _ _ => Address.toBytes_of_evmWord) hc
    have hdn := RampContent.describes_of_ofMessage (fun _ _ => Address.toBytes_of_evmWord) hd
    obtain rfl := RampContent.abiRemainder_inj (hdn.countable hncount) (hcm.countable hmcount) hr
    exact hcm.same hdn
  | any2svm =>
    obtain ⟨c, hc, hr⟩ := Except.bind_eq_ok_iff.mp hm
    obtain ⟨d, hd, hr'⟩ := Except.bind_eq_ok_iff.mp hn
    obtain ⟨body, hcbody, rfl⟩ := SolanaContent.remainder_eq_ok_iff.mp hr
    obtain ⟨body', hdbody, hbody⟩ := SolanaContent.remainder_eq_ok_iff.mp hr'
    cases hbody
    obtain rfl := SolanaContent.borsh?_inj hcbody hdbody (SolanaContent.gasLimit_eq_units hc)
      (SolanaContent.gasLimit_eq_units hd)
    obtain ⟨hcm, a, ha⟩ := SolanaContent.describes_of_ofMessage hc
    obtain ⟨hcn, b, hb⟩ := SolanaContent.describes_of_ofMessage hd
    obtain ⟨hcore, hramp⟩ := hcm.same hcn
    exact ⟨hcore, hramp, _, _, a, b, _, _, ha, hb⟩
  | any2aptos =>
    obtain ⟨c, hc, rfl⟩ := Except.map_eq_ok_iff.mp hm
    obtain ⟨d, hd, hr⟩ := Except.map_eq_ok_iff.mp hn
    have hcm := RampContent.describes_of_ofMessage (fun _ _ => Address.toBytes_of_toBytes32) hc
    have hdn := RampContent.describes_of_ofMessage (fun _ _ => Address.toBytes_of_toBytes32) hd
    obtain rfl := RampContent.bcsRemainder_inj hr
    exact hcm.same hdn
  | any2sui =>
    obtain ⟨c, hc, rfl⟩ := Except.map_eq_ok_iff.mp hm
    obtain ⟨d, hd, hr⟩ := Except.map_eq_ok_iff.mp hn
    obtain ⟨hcm, hcargs⟩ := SuiContent.describes_of_ofMessage hc
    obtain ⟨hdn, hdargs⟩ := SuiContent.describes_of_ofMessage hd
    obtain rfl := SuiContent.remainder_inj hr
    obtain ⟨hcore, hramp⟩ := hcm.same hdn
    exact ⟨hcore, hramp, hcargs.trans hdargs.symm⟩

/-- The fee and the original bytes of the arguments are not hashed. -/
theorem same_of_sample_leaf :
    Scheme.any2svm.Same (sampleMessage 1)
      { sampleMessage 1 with feeTokenAmount := 5, rawExtraArgs := [1] } := by
  have hleaf : ∀ fee raw, (Scheme.any2svm.leaf sampleLane
      { sampleMessage 1 with feeTokenAmount := fee, rawExtraArgs := raw }).result =
        .ok (sample 1) := fun _ _ => rfl
  refine same_of_leaf_eq (hleaf 0 []) (hleaf 5 [1]) ?_ ?_ ?_
  · decide +kernel
  · simp [Message.Countable, sampleMessage]
  · simp [Message.Countable, sampleMessage]

end Scheme

end CrossChain
