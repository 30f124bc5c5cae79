import CrossChain.Proofs.Leaf.Binding
import CrossChain.Proofs.Message.Canonical
/-! When messages have leaves. Each scheme asks for a body of its generation and for words of the
accounts it names, and the one for Solana also for its own arguments and for short lists; nothing
else can keep a message from being hashed. -/
namespace CrossChain

namespace Address

theorem exists_evmWord {a : Address} (h : a.family = .evm) : ∃ w, a.evmWord = .ok w :=
  ⟨_, dif_pos h⟩

theorem exists_toBytes32 {a : Address} (h : a.family ≠ .ton) : ∃ w, a.toBytes32 = .ok w := by
  have hlength : a.crossChainBytes.length = 32 := by rw [length_crossChainBytes, if_neg h]
  exact ⟨⟨_, hlength⟩, by rw [toBytes32, Bytes32.ofBytes?, dif_pos hlength]⟩

end Address

/-- What the layout for Solana counts with four bytes is not too long for that, nor are the bytes
that the accounts in its arguments are read from. -/
structure Message.Short (m : Message) : Prop where
  data : m.data.length < 2 ^ 32
  rawExtraArgs : m.rawExtraArgs.length < 2 ^ 32
  transfers : ∀ body, m.body = .ramp body →
    body.transfers.length < 2 ^ 32 ∧ ∀ t ∈ body.transfers, t.extraData.length < 2 ^ 32

namespace Leaf

variable {m : Message} {toWord : Address → Except Error Bytes32}

theorem LegacyContent.exists_ofMessage {body : Message.Legacy} (hbody : m.body = .legacy body)
    (hsource : ∀ a ∈ m.sourceAddresses, a.family = .evm)
    (hdest : ∀ a ∈ m.destAddresses, a.family = .evm) : ∃ c, ofMessage m = .ok c := by
  simp only [Message.sourceAddresses, Message.destAddresses, hbody, List.forall_mem_cons,
    List.forall_mem_map] at hsource hdest
  obtain ⟨sender, hsender⟩ := Address.exists_evmWord hsource.1
  obtain ⟨receiver, hreceiver⟩ := Address.exists_evmWord hdest.1
  obtain ⟨feeToken, hfeeToken⟩ := Address.exists_evmWord hsource.2.1
  obtain ⟨amounts, hamounts⟩ : ∃ amounts,
      (body.amounts.mapM fun t => do return (← t.token.evmWord, t.amount)) = .ok amounts := by
    refine Except.exists_mapM fun t ht => ?_
    obtain ⟨w, hw⟩ := Address.exists_evmWord (hsource.2.2 t ht)
    exact ⟨(w, t.amount), by rw [hw]; rfl⟩
  unfold ofMessage
  simp only [hbody, hsender, hreceiver, hfeeToken, hamounts]
  exact ⟨_, rfl⟩

theorem exists_transfers {body : Message.Ramp} (hbody : m.body = .ramp body)
    (hword : ∀ a ∈ m.destAddresses, ∃ w, toWord a = .ok w) :
    ∃ ts, transfers toWord m = .ok ts := by
  simp only [Message.destAddresses, hbody, List.forall_mem_cons, List.forall_mem_map] at hword
  unfold transfers
  rw [hbody]
  refine Except.exists_mapM fun t ht => ?_
  obtain ⟨w, hw⟩ := hword.2 t ht
  exact ⟨_, by rw [hw]; rfl⟩

theorem RampContent.exists_ofMessage {body : Message.Ramp} (hbody : m.body = .ramp body)
    (hword : ∀ a ∈ m.destAddresses, ∃ w, toWord a = .ok w) :
    ∃ c, ofMessage toWord m = .ok c := by
  obtain ⟨ts, hts⟩ := exists_transfers hbody hword
  obtain ⟨receiver, hreceiver⟩ := hword m.receiver List.mem_cons_self
  unfold ofMessage
  simp only [hbody, hreceiver, hts]
  exact ⟨_, rfl⟩

theorem SuiContent.exists_ofMessage {body : Message.Ramp} (hbody : m.body = .ramp body)
    (hword : ∀ a ∈ m.destAddresses, ∃ w, a.toBytes32 = .ok w) : ∃ c, ofMessage m = .ok c := by
  obtain ⟨content, hcontent⟩ := RampContent.exists_ofMessage hbody hword
  unfold ofMessage
  rw [hcontent]
  cases m.extraArgs with
  | suiV1 gas outOfOrder tokenReceiver objectIds => exact ⟨_, rfl⟩
  | _ => exact ⟨_, rfl⟩

theorem SolanaContent.exists_ofMessage {body : Message.Ramp} (hbody : m.body = .ramp body)
    (hargs : m.extraArgs.variant = .svmV1)
    (hword : ∀ a ∈ m.destAddresses, ∃ w, a.toBytes32 = .ok w) : ∃ c, ofMessage m = .ok c := by
  obtain ⟨ts, hts⟩ := exists_transfers hbody hword
  obtain ⟨receiver, hreceiver⟩ := hword m.receiver List.mem_cons_self
  unfold ofMessage
  cases hsvm : m.extraArgs with
  | svmV1 units writable outOfOrder tokenReceiver accounts =>
    simp only [hbody, hts, hreceiver]
    exact ⟨_, rfl⟩
  | _ => simp [hsvm, ExtraArgs.variant] at hargs

/-- The arguments of other destinations are refused. -/
theorem SolanaContent.ofMessage_eq_error {body : Message.Ramp} (hbody : m.body = .ramp body)
    (hargs : m.extraArgs.variant ≠ .svmV1) :
    ofMessage m = .error (.badArgs (.notSolana m.extraArgs.variant.name)) := by
  unfold ofMessage
  rw [hbody]
  cases hother : m.extraArgs with
  | svmV1 => simp [hother, ExtraArgs.variant] at hargs
  | _ => rfl

theorem TransferContent.exists_borsh? {t : TransferContent}
    (hpool : t.sourcePool.length < UInt32.size) (hextra : t.extraData.length < UInt32.size) :
    ∃ enc, t.borsh? = some enc := by
  obtain ⟨pool, hpool⟩ := Borsh.exists_bytes?_iff.mpr hpool
  obtain ⟨extra, hextra⟩ := Borsh.exists_bytes?_iff.mpr hextra
  unfold borsh?
  rw [hpool, hextra]
  exact ⟨_, rfl⟩

theorem SolanaContent.exists_remainder {c : SolanaContent}
    (haccounts : c.accounts.length < UInt32.size) (hsender : c.sender.length < UInt32.size)
    (hdata : c.data.length < UInt32.size) (hcount : c.transfers.length < UInt32.size)
    (htransfers : ∀ t ∈ c.transfers,
      t.sourcePool.length < UInt32.size ∧ t.extraData.length < UInt32.size) :
    ∃ r, c.remainder = .ok r := by
  obtain ⟨accounts, haccounts⟩ := Borsh.exists_words?_iff.mpr haccounts
  obtain ⟨sender, hsender⟩ := Borsh.exists_bytes?_iff.mpr hsender
  obtain ⟨data, hdata⟩ := Borsh.exists_bytes?_iff.mpr hdata
  obtain ⟨transfers, htransfers⟩ := Borsh.exists_list?_iff.mpr
    ⟨hcount, fun t ht => TransferContent.exists_borsh? (htransfers t ht).1 (htransfers t ht).2⟩
  unfold remainder borsh?
  rw [haccounts, hsender, hdata, htransfers]
  exact ⟨_, rfl⟩

theorem length_crossChainBytes_lt (a : Address) : a.crossChainBytes.length < UInt32.size := by
  rw [Address.length_crossChainBytes]
  split <;> decide

/-- Sender and pools are always short; how long the rest may be is up to the message. -/
theorem SolanaContent.exists_remainder_of_short {c : SolanaContent} (h : ofMessage m = .ok c)
    (hshort : m.Short) (haccounts : c.accounts.length < UInt32.size) :
    ∃ r, c.remainder = .ok r := by
  obtain ⟨hdescribes, -⟩ := describes_of_ofMessage h
  obtain ⟨body, hbody, htransfers⟩ := hdescribes.body
  obtain ⟨hcount, hextra⟩ := hshort.transfers body hbody
  have hlength := congrArg List.length htransfers
  rw [List.length_map, List.length_map] at hlength
  refine exists_remainder haccounts ?_ ?_ (hlength ▸ hcount) fun t ht => ?_
  · rw [hdescribes.core.sender]
    exact length_crossChainBytes_lt m.sender
  · rw [hdescribes.core.data]
    exact hshort.data
  · obtain ⟨u, hu, heq⟩ := List.mem_map.mp (htransfers ▸ List.mem_map_of_mem ht)
    simp only [Message.Transfer.carried, TransferContent.carried, Prod.mk.injEq] at heq
    obtain ⟨hpool, -, -, hdata, -⟩ := heq
    exact ⟨hpool ▸ length_crossChainBytes_lt u.sourcePool, hdata ▸ hextra u hu⟩

end Leaf

namespace Scheme

/-- The ends and the generation of the format that the scheme is for. -/
def Serves (s : Scheme) (source dest : Family) (version : Version) : Prop :=
  match s with
  | .evm2evm => source = .evm ∧ dest = .evm ∧ version.isLegacy = true
  | .any2evm => dest = .evm ∧ version.isLegacy = false
  | .any2svm => dest = .svm ∧ version.isLegacy = false
  | .any2aptos => dest = .aptos ∧ version.isLegacy = false
  | .any2sui => dest = .sui ∧ version.isLegacy = false

theorem select_eq_ok_iff {s : Scheme} {source dest : Family} {version : Version} :
    select source dest version = .ok s ↔ s.Serves source dest version := by
  cases hlegacy : version.isLegacy with
  | false => cases dest <;> cases s <;> simp [select, Serves, hlegacy]
  | true =>
    by_cases hsource : source = .evm
    · cases dest <;> cases s <;> simp [select, Serves, hlegacy, hsource]
    · cases dest <;> cases s <;> simp [select, Serves, hlegacy, hsource]

theorem Serves.of_svm {s : Scheme} {source dest : Family} {version : Version}
    (h : s.Serves source dest version) (hdest : dest = .svm) :
    s = .any2svm ∧ version.isLegacy = false := by
  cases s <;> simp_all [Serves]

theorem select_eq_error {source dest : Family} {version : Version} {e : Error}
    (h : select source dest version = .error e) : e = .noScheme dest version := by
  unfold select at h
  split at h
  next =>
    split at h
    next => cases h
    next => cases h; rfl
  all_goals cases h
  rfl

variable {s : Scheme} {lane : Lane} {m : Message}

theorem exists_metadata (h : s = .evm2evm → lane.onRamp.family = .evm) :
    ∃ w, (s.metadata lane).result = .ok w := by
  have hfields : ∃ fields, s.laneFields lane = .ok fields := by
    cases s with
    | evm2evm =>
      obtain ⟨word, hword⟩ := Address.exists_evmWord (h rfl)
      exact ⟨_, by rw [laneFields, hword]; rfl⟩
    | any2evm | any2svm | any2aptos | any2sui => exact ⟨_, rfl⟩
  obtain ⟨fields, hfields⟩ := hfields
  exact ⟨_, metadata_result_eq_ok_iff.mpr ⟨fields, hfields, rfl⟩⟩

/-- Once the lane has its digest, it is up to the message whether there is a leaf. -/
theorem leaf_result {w : Bytes32} (hw : (s.metadata lane).result = .ok w) :
    (s.leaf lane m).result = (fun r => keccak256 (r.preimage w)) <$> s.remainder m := by
  rw [leaf, Hashing.result_bind, preimage_eq, Hashing.result_bind, hw]
  change ((liftM (s.remainder m) >>= fun r => liftM (r.hash w) :
    Hashing Error Bytes).result >>= _) = _
  rw [Hashing.result_bind, Hashing.result_liftExcept]
  cases s.remainder m <;> rfl

end Scheme

end CrossChain
