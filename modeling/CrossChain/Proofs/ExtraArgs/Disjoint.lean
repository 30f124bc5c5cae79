import CrossChain.Proofs.ExtraArgs.AbiBody
/-! Which bytes may be bodies in two layouts. The number of bytes and the first length tell the
layouts of the Solana and Sui variants apart. A body of the generic variant in Borsh or BCS is
never one in ABI, but one in BCS may be one in Borsh. -/
namespace CrossChain.ExtraArgs

variable {a b : ExtraArgs} {body : Bytes}

theorem length_addresses_of_fits {ws : List Bytes32} (h : ws.length ≤ Bcs.Reader.maxLength) :
    ∃ count, 1 ≤ count ∧ count ≤ 5 ∧ (Bcs.length ws.length).length = count ∧
      (Bcs.addresses ws).length = count + 32 * ws.length := by
  have hlt : ws.length < 128 ^ (4 + 1) := Nat.lt_of_le_of_lt h (by decide)
  refine ⟨_, Bcs.length_length_pos ws.length, Bcs.length_length_le hlt, rfl, ?_⟩
  simp [Bcs.addresses, Bcs.address, Nat.mul_comm]

/-- A list of words is never the same in Borsh and BCS: a length of four bytes, with three marks
in it, spells a larger number in Borsh. -/
theorem borsh_words_ne_bcs_addresses {ws vs : List Bytes32} {enc : Bytes}
    (henc : Borsh.words? ws = some enc) (hvs : vs.length ≤ Bcs.Reader.maxLength) :
    enc ≠ Bcs.addresses vs := by
  rintro rfl
  obtain ⟨hws, henc⟩ := Borsh.words?_eq_some_iff.mp henc
  obtain ⟨count, hpos, hle, hcount, hlength⟩ := length_addresses_of_fits hvs
  have htotal := congrArg List.length henc
  have hwords : (ws.flatMap Bytes32.toBytes).length = 32 * ws.length := by
    simp [Nat.mul_comm]
  rw [List.length_append, Bytes.length_ofNatLE, hwords, hlength] at htotal
  -- The numbers of bytes agree only if both lengths take four.
  have hfour : count = 4 := by omega
  have hsame : ws.length = vs.length := by omega
  have hhead : Bytes.ofNatLE 4 vs.length = Bcs.length vs.length := by
    rw [Bcs.addresses, hsame] at henc
    exact (List.append_inj henc (by rw [Bytes.length_ofNatLE, hcount, hfour])).1
  have hlong : 128 ≤ vs.length := by
    by_contra hshort
    rw [Bcs.length_of_lt (by omega), List.length_singleton] at hcount
    omega
  have hmore := Bcs.lt_toNatLE_length hlong
  rw [← hhead, Bytes.toNatLE_ofNatLE] at hmore
  exact absurd (Nat.mod_le _ _) hmore.not_ge

/-- Generic arguments that say nothing. In Borsh and in BCS all their bytes are zeros. -/
def emptyGeneric : ExtraArgs :=
  .genericV3 0 0 [] [] [] [] [] []

theorem abi_generic_ne_borsh (rest : Bytes) (hvariant : b.variant = .genericV3)
    (h : b.borshBody? = some body) : Abi.word 32 ++ rest ≠ body := by
  rintro rfl
  -- The zeros in front of the number 32 are all that empty arguments take, so the body would end
  -- before the number does.
  have hzeros : Abi.word 32 ++ rest = List.replicate 30 0 ++ 0 :: 32 :: rest := rfl
  have hbody : emptyGeneric.borshBody? = some (List.replicate 30 0) := rfl
  have hempty := reads_borshDecoder hbody
  have hread := reads_borshDecoder h
  rw [hvariant, hzeros] at hread
  have hend := (hempty.append_inj hread (List.append_nil _).symm).2
  cases hend

theorem abi_generic_ne_bcs (rest : Bytes) (hvariant : b.variant = .genericV3) (hfits : b.Fits)
    (h : b.bcsBody? = some body) : Abi.word 32 ++ rest ≠ body := by
  rintro rfl
  have hzeros : Abi.word 32 ++ rest =
      List.replicate 12 0 ++ (List.replicate 19 0 ++ 32 :: rest) := rfl
  have hbody : emptyGeneric.bcsBody? = some (List.replicate 12 0) := rfl
  have hempty := reads_bcsReader (by decide) hbody
  have hread := reads_bcsReader hfits h
  rw [hvariant, hzeros] at hread
  have hend := (hempty.append_inj hread (List.append_nil _).symm).2
  cases hend

theorem abiBody_ne_borshBody (hvariant : a.variant = b.variant) (h : b.borshBody? = some body) :
    a.abiBody ≠ body := by
  intro heq
  -- Only the generic variant may take whole words in Borsh.
  have hwords : 32 ∣ body.length := heq ▸ dvd_length_abiBody a
  cases b with
  | evmV1 gas => simp [borshBody?] at h
  | evmV2 gas outOfOrder =>
    simp only [borshBody?] at h
    split at h
    next =>
      obtain rfl := Option.some.inj h
      simp [Borsh.bool] at hwords
    next => cases h
  | svmV1 units writable outOfOrder receiver accounts =>
    obtain ⟨enc, henc, h⟩ := Option.bind_eq_some_iff.mp h
    obtain ⟨-, rfl⟩ := Borsh.words?_eq_some_iff.mp henc
    obtain rfl := Option.some.inj h
    simp [Borsh.bool] at hwords
    omega
  | suiV1 gas outOfOrder receiver objectIds =>
    obtain ⟨enc, henc, h⟩ := Option.bind_eq_some_iff.mp h
    obtain ⟨-, rfl⟩ := Borsh.words?_eq_some_iff.mp henc
    obtain rfl := Option.some.inj h
    simp [Borsh.bool] at hwords
    omega
  | genericV3 gas confirmations executor executorArgs verifiers verifierArgs receiver tokenArgs =>
    cases a with
    | genericV3 =>
      rw [abiBody, Abi.single_dynamic] at heq
      exact abi_generic_ne_borsh _ rfl h heq
    | _ => simp [variant] at hvariant

theorem abiBody_ne_bcsBody (hvariant : a.variant = b.variant) (hfits : b.Fits)
    (h : b.bcsBody? = some body) : a.abiBody ≠ body := by
  intro heq
  have hwords : 32 ∣ body.length := heq ▸ dvd_length_abiBody a
  cases b with
  | evmV1 gas => simp [bcsBody?] at h
  | evmV2 gas outOfOrder =>
    obtain rfl := Option.some.inj h
    simp [Bcs.u256, Bcs.bool] at hwords
  | svmV1 units writable outOfOrder receiver accounts =>
    obtain rfl := Option.some.inj h
    obtain ⟨count, hpos, hle, -, hlength⟩ := length_addresses_of_fits hfits
    rw [List.length_append, hlength] at hwords
    simp [Bcs.u32, Bcs.u64, Bcs.bool, Bcs.address] at hwords
    omega
  | suiV1 gas outOfOrder receiver objectIds =>
    obtain rfl := Option.some.inj h
    obtain ⟨count, hpos, hle, -, hlength⟩ := length_addresses_of_fits hfits
    rw [List.length_append, hlength] at hwords
    simp [Bcs.u64, Bcs.bool, Bcs.address] at hwords
    omega
  | genericV3 gas confirmations executor executorArgs verifiers verifierArgs receiver tokenArgs =>
    cases a with
    | genericV3 =>
      rw [abiBody, Abi.single_dynamic] at heq
      exact abi_generic_ne_bcs _ rfl hfits h heq
    | _ => simp [variant] at hvariant

/-- What BCS writes is what Borsh writes for arguments of the same variant only if that is the
generic one. -/
theorem generic_of_borshBody?_eq (hvariant : a.variant = b.variant) (hfits : b.Fits)
    (ha : a.borshBody? = some body) (hb : b.bcsBody? = some body) : b.variant = .genericV3 := by
  cases b with
  | evmV1 gas => simp [bcsBody?] at hb
  | evmV2 gas outOfOrder =>
    cases a with
    | evmV2 gas' outOfOrder' =>
      obtain rfl := Option.some.inj hb
      simp only [borshBody?] at ha
      split at ha
      next =>
        have := congrArg List.length (Option.some.inj ha)
        simp [Borsh.bool, Bcs.u256, Bcs.bool] at this
      next => cases ha
    | _ => simp [variant] at hvariant
  | svmV1 units writable outOfOrder receiver accounts =>
    cases a with
    | svmV1 units' writable' outOfOrder' receiver' accounts' =>
      obtain rfl := Option.some.inj hb
      obtain ⟨enc, henc, ha⟩ := Option.bind_eq_some_iff.mp ha
      have hsplit := (List.append_inj (Option.some.inj ha) (by
        simp [Borsh.bool, Bcs.u32, Bcs.u64, Bcs.bool, Bcs.address])).2
      exact absurd hsplit (borsh_words_ne_bcs_addresses henc hfits)
    | _ => simp [variant] at hvariant
  | suiV1 gas outOfOrder receiver objectIds =>
    cases a with
    | suiV1 gas' outOfOrder' receiver' objectIds' =>
      obtain rfl := Option.some.inj hb
      obtain ⟨enc, henc, ha⟩ := Option.bind_eq_some_iff.mp ha
      have hsplit := (List.append_inj (Option.some.inj ha) (by
        simp [Borsh.bool, Bcs.u64, Bcs.bool, Bcs.address])).2
      exact absurd hsplit (borsh_words_ne_bcs_addresses henc hfits)
    | _ => simp [variant] at hvariant
  | genericV3 => rfl

end CrossChain.ExtraArgs
