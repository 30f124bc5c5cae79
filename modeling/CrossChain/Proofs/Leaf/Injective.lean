import CrossChain.Proofs.Codec.Abi
import CrossChain.Proofs.Codec.Bcs
import CrossChain.Proofs.Codec.Decoder
import CrossChain.Proofs.Leaf.Preimage
/-! The parts of a leaf say what they are made from. In each layout the bytes of two contents
agree only if the contents do; ABI needs lists and byte strings that it can count. -/
namespace CrossChain.Leaf

variable {r s : Bytes}

namespace LegacyContent

/-- No list or byte string is longer than a word can say. -/
def Countable (c : LegacyContent) : Prop :=
  c.amounts.length < 2 ^ 256 ∧ c.tokenData.length < 2 ^ 256 ∧
    ∀ bs ∈ c.tokenData, bs.length < 2 ^ 256

theorem abiHeader_eq (c : LegacyContent) :
    c.abiHeader = [c.sender.toBytes, c.receiver.toBytes, Abi.word c.sequenceNumber.toNat,
      Abi.word c.gasLimit.toNat, Abi.bool c.strict, Abi.word c.nonce.toNat, c.feeToken.toBytes,
      Abi.word c.feeTokenAmount.toNat].flatten :=
  Abi.tuple_static [_, _, _, _, _, _, _, _]

theorem abiHeader_inj {c d : LegacyContent} (h : c.abiHeader = d.abiHeader) :
    c.sender = d.sender ∧ c.receiver = d.receiver ∧ c.sequenceNumber = d.sequenceNumber ∧
      c.gasLimit = d.gasLimit ∧ c.strict = d.strict ∧ c.nonce = d.nonce ∧
      c.feeToken = d.feeToken ∧ c.feeTokenAmount = d.feeTokenAmount := by
  rw [abiHeader_eq, abiHeader_eq] at h
  simpa only [List.flatten_cons, List.flatten_nil, Bytes32.append_inj, Abi.word_u64_append_inj,
    Abi.word_u256_append_inj, Abi.bool_append_inj, and_true] using h

theorem abiAmounts_inj {c d : LegacyContent} (hc : c.amounts.length < 2 ^ 256)
    (hd : d.amounts.length < 2 ^ 256) (h : c.abiAmounts = d.abiAmounts) :
    c.amounts = d.amounts := by
  have h := Abi.single_dynamic_inj.mp h
  refine ((Abi.array_static_append_inj ?_ hc hd).mp h).1
  rintro ⟨token, amount⟩ - ⟨token', amount'⟩ - r s h
  rw [List.append_assoc, List.append_assoc, Bytes32.append_inj, Abi.word_u256_append_inj] at h
  obtain ⟨rfl, rfl, rfl⟩ := h
  exact ⟨rfl, rfl⟩

theorem abiTokenData_inj {c d : LegacyContent} (hc : c.Countable) (hd : d.Countable)
    (h : c.abiTokenData = d.abiTokenData) : c.tokenData = d.tokenData := by
  have h := Abi.single_dynamic_inj.mp h
  exact ((Abi.bytesList_append_inj hc.2.1 hd.2.1 hc.2.2 hd.2.2).mp h).1

theorem remainder_inj {c d : LegacyContent} (hc : c.Countable) (hd : d.Countable)
    (h : c.remainder = d.remainder) : c = d := by
  simp only [remainder, Remainder.mk.injEq, List.cons.injEq, and_true] at h
  obtain ⟨hheader, hdata, hamounts, htokenData⟩ := h
  have hfields := abiHeader_inj hheader
  have hamounts := abiAmounts_inj hc.1 hd.1 hamounts
  have htokenData := abiTokenData_inj hc hd htokenData
  cases c
  cases d
  simp_all

end LegacyContent

namespace TransferContent

/-- No byte string is longer than a word can say. -/
def Countable (t : TransferContent) : Prop :=
  t.sourcePool.length < 2 ^ 256 ∧ t.extraData.length < 2 ^ 256

theorem abi_eq (t : TransferContent) :
    t.abi = Abi.word 160 ++ (t.destToken.toBytes ++ (Abi.word t.destGas.toNat ++
      (Abi.word (160 + (Abi.bytes t.sourcePool).length) ++ (Abi.word t.amount.toNat ++
        (Abi.bytes t.sourcePool ++ Abi.bytes t.extraData))))) := by
  simp [abi, Abi.tuple, Abi.heads, Abi.headsLength, Abi.Part.headLength, Abi.tails, Abi.Part.tail]

/-- The distances say nothing that is not said elsewhere. -/
theorem abi_append_inj {t u : TransferContent} (ht : t.Countable) (hu : u.Countable)
    (h : t.abi ++ r = u.abi ++ s) : t = u ∧ r = s := by
  rw [abi_eq, abi_eq] at h
  simp only [List.append_assoc] at h
  obtain ⟨-, h⟩ := List.append_inj h (by simp)
  obtain ⟨hdestToken, h⟩ := Bytes32.append_inj.mp h
  obtain ⟨hdestGas, h⟩ := Abi.word_u32_append_inj.mp h
  obtain ⟨-, h⟩ := List.append_inj h (by simp)
  obtain ⟨hamount, h⟩ := Abi.word_u256_append_inj.mp h
  obtain ⟨hsourcePool, h⟩ := (Abi.bytes_append_inj ht.1 hu.1).mp h
  obtain ⟨hextraData, h⟩ := (Abi.bytes_append_inj ht.2 hu.2).mp h
  cases t
  cases u
  simp_all

theorem bcs_append_inj {t u : TransferContent} (h : t.bcs ++ r = u.bcs ++ s) :
    t = u ∧ r = s := by
  simp only [bcs, Bcs.address, Bcs.u32, Bcs.u256, List.append_assoc, Bcs.bytes_append_inj,
    Bytes32.append_inj, Bytes.ofNatLE_u32_append_inj, Bytes.ofNatLE_u256_append_inj] at h
  cases t
  cases u
  simp_all

theorem borsh?_append_inj {t u : TransferContent} {enc other : Bytes}
    (ht : t.borsh? = some enc) (hu : u.borsh? = some other) (h : enc ++ r = other ++ s) :
    t = u ∧ r = s := by
  obtain ⟨pool, hpool, ht⟩ := Option.bind_eq_some_iff.mp ht
  obtain ⟨extra, hextra, ht⟩ := Option.bind_eq_some_iff.mp ht
  obtain ⟨pool', hpool', hu⟩ := Option.bind_eq_some_iff.mp hu
  obtain ⟨extra', hextra', hu⟩ := Option.bind_eq_some_iff.mp hu
  obtain rfl := Option.some.inj ht
  obtain rfl := Option.some.inj hu
  simp only [List.append_assoc] at h
  obtain ⟨hsourcePool, h⟩ := Borsh.bytes?_append_inj hpool hpool' h
  obtain ⟨hdestToken, h⟩ := Bytes32.append_inj.mp h
  obtain ⟨hdestGas, h⟩ := Bytes.ofNatLE_u32_append_inj.mp h
  obtain ⟨hextraData, h⟩ := Borsh.bytes?_append_inj hextra hextra' h
  obtain ⟨hamount, h⟩ := Bytes.ofNatLE_u256_append_inj.mp h
  cases t
  cases u
  simp_all

end TransferContent

namespace RampContent

/-- No list or byte string is longer than a word can say. -/
def Countable (c : RampContent) : Prop :=
  c.transfers.length < 2 ^ 256 ∧ ∀ t ∈ c.transfers, t.Countable

theorem abiHeader_eq (c : RampContent) :
    c.abiHeader = [c.id.toBytes, c.receiver.toBytes, Abi.word c.sequenceNumber.toNat,
      Abi.word c.gasLimit.toNat, Abi.word c.nonce.toNat].flatten :=
  Abi.tuple_static [_, _, _, _, _]

theorem abiHeader_inj {c d : RampContent} (h : c.abiHeader = d.abiHeader) :
    c.id = d.id ∧ c.receiver = d.receiver ∧ c.sequenceNumber = d.sequenceNumber ∧
      c.gasLimit = d.gasLimit ∧ c.nonce = d.nonce := by
  rw [abiHeader_eq, abiHeader_eq] at h
  simpa only [List.flatten_cons, List.flatten_nil, Bytes32.append_inj, Abi.word_u64_append_inj,
    Abi.word_u256_append_inj, and_true] using h

theorem abiTransfers_inj {c d : RampContent} (hc : c.Countable) (hd : d.Countable)
    (h : c.abiTransfers = d.abiTransfers) : c.transfers = d.transfers := by
  have h := Abi.single_dynamic_inj.mp h
  refine ((Abi.array_dynamic_append_inj ?_ hc.1 hd.1).mp h).1
  exact fun t ht u hu r s => TransferContent.abi_append_inj (hc.2 t ht) (hd.2 u hu)

theorem abiRemainder_inj {c d : RampContent} (hc : c.Countable) (hd : d.Countable)
    (h : c.abiRemainder = d.abiRemainder) : c = d := by
  simp only [abiRemainder, Remainder.mk.injEq, List.cons.injEq, and_true] at h
  obtain ⟨hheader, hsender, hdata, htransfers⟩ := h
  have hfields := abiHeader_inj hheader
  have htransfers := abiTransfers_inj hc hd htransfers
  cases c
  cases d
  simp_all

theorem bcsTransfers_inj {c d : RampContent} (h : c.bcsTransfers = d.bcsTransfers) :
    c.transfers = d.transfers := by
  have h : c.bcsTransfers ++ [] = d.bcsTransfers ++ [] := by rw [h]
  exact ((Bcs.list_append_inj fun _ _ _ _ => TransferContent.bcs_append_inj).mp h).1

theorem bcsRemainder_inj {c d : RampContent} (h : c.bcsRemainder = d.bcsRemainder) : c = d := by
  simp only [bcsRemainder, Remainder.mk.injEq, List.cons.injEq, and_true] at h
  obtain ⟨hheader, hsender, hdata, htransfers⟩ := h
  have htransfers := bcsTransfers_inj htransfers
  have hheader : c.bcsHeader ++ [] = d.bcsHeader ++ [] := by rw [hheader]
  simp only [bcsHeader, Bcs.address, Bcs.u64, Bcs.u256, List.append_assoc, Bytes32.append_inj,
    Bytes.ofNatLE_u64_append_inj, Bytes.ofNatLE_u256_append_inj] at hheader
  cases c
  cases d
  simp_all

end RampContent

theorem SuiContent.remainder_inj {c d : SuiContent} (h : c.remainder = d.remainder) : c = d := by
  simp only [remainder, Remainder.mk.injEq, List.cons.injEq, and_true] at h
  obtain ⟨hheader, hsender, hdata, htransfers, hobjects⟩ := h
  have htransfers := RampContent.bcsTransfers_inj htransfers
  have hheader : c.bcsHeader ++ [] = d.bcsHeader ++ [] := by rw [hheader]
  simp only [bcsHeader, Bcs.address, Bcs.u64, Bcs.u256, List.append_assoc, Bytes32.append_inj,
    Bytes.ofNatLE_u64_append_inj, Bytes.ofNatLE_u256_append_inj] at hheader
  have hobjects : Bcs.addresses c.objectIds ++ [] = Bcs.addresses d.objectIds ++ [] := by
    rw [hobjects]
  have hobjects := (Bcs.addresses_append_inj.mp hobjects).1
  obtain ⟨c, receiver, objectIds⟩ := c
  obtain ⟨d, receiver', objectIds'⟩ := d
  cases c
  cases d
  simp_all

/-- The gas limit is not written, but it is the number of units. -/
theorem SolanaContent.borsh?_inj {c d : SolanaContent} {body : Bytes}
    (hc : c.borsh? = some body) (hd : d.borsh? = some body)
    (hcgas : c.gasLimit = BitVec.ofNat 256 c.units.toNat)
    (hdgas : d.gasLimit = BitVec.ofNat 256 d.units.toNat) : c = d := by
  simp only [borsh?, Option.bind_eq_bind, Option.bind_eq_some_iff, Option.pure_def,
    Option.some.injEq] at hc hd
  obtain ⟨accounts, haccounts, sender, hsender, data, hdata, transfers, htransfers, rfl⟩ := hc
  obtain ⟨accounts', haccounts', sender', hsender', data', hdata', transfers', htransfers', h⟩ := hd
  rw [← List.append_nil transfers, ← List.append_nil transfers'] at h
  simp only [List.append_assoc, Bytes32.append_inj, Bytes.ofNatLE_u64_append_inj,
    Bytes.ofNatLE_u32_append_inj] at h
  obtain ⟨hid, hreceiver, htokenReceiver, hsequenceNumber, hunits, hwritable, h⟩ := h
  obtain ⟨haccountsEq, h⟩ := Borsh.words?_append_inj haccounts' haccounts h
  obtain ⟨hnonce, h⟩ := Bytes.ofNatLE_u64_append_inj.mp h
  obtain ⟨hsenderEq, h⟩ := Borsh.bytes?_append_inj hsender' hsender h
  obtain ⟨hdataEq, h⟩ := Borsh.bytes?_append_inj hdata' hdata h
  obtain ⟨htransfersEq, -⟩ := Borsh.list?_append_inj
    (fun _ _ _ _ ht hu _ _ => TransferContent.borsh?_append_inj ht hu) htransfers' htransfers h
  obtain ⟨c, _, _, _, _⟩ := c
  obtain ⟨d, _, _, _, _⟩ := d
  cases c
  cases d
  simp_all

theorem SolanaContent.remainder_eq_ok_iff {c : SolanaContent} {r : Remainder} :
    c.remainder = .ok r ↔ ∃ body, c.borsh? = some body ∧ r = ⟨[], body⟩ := by
  unfold remainder
  cases c.borsh? <;> simp [eq_comm]

end CrossChain.Leaf
