import CrossChain.Proofs.Leaf.Injective
/-! What the contents of leaves say about messages. A content stands for a message if its fields
are those of the message, addresses as the bytes that messages carry, and then two messages with
one content agree on all that it says. -/
namespace CrossChain

namespace Address

theorem toBytes_of_evmWord {a : Address} {w : Bytes32} (h : a.evmWord = .ok w) :
    w.toBytes = a.crossChainBytes := by
  unfold evmWord at h
  split at h
  next =>
    cases h
    rfl
  next => cases h

theorem toBytes_of_toBytes32 {a : Address} {w : Bytes32} (h : a.toBytes32 = .ok w) :
    w.toBytes = a.crossChainBytes := by
  unfold toBytes32 at h
  split at h
  next v hv =>
    cases h
    exact (Bytes32.ofBytes?_eq_some_iff.mp hv).symm
  next => cases h

end Address

namespace Message

def TokenAmount.carried (t : TokenAmount) : Bytes × U256 := (t.token.crossChainBytes, t.amount)

def Transfer.carried (t : Transfer) : Bytes × Bytes × UInt32 × Bytes × U256 :=
  (t.sourcePool.crossChainBytes, t.destToken.crossChainBytes, t.destGas, t.extraData, t.amount)

/-- Who takes the tokens on Sui, and the objects for the receiver. -/
def suiArgs (m : Message) : Bytes32 × List Bytes32 :=
  match m.extraArgs with
  | .suiV1 _ _ tokenReceiver objectIds => (tokenReceiver, objectIds)
  | _ => (.zero, [])

/-- Agreement on what the leaves of all schemes say. -/
structure SameCore (m n : Message) : Prop where
  sequenceNumber : m.header.sequenceNumber = n.header.sequenceNumber
  nonce : m.header.nonce = n.header.nonce
  sender : m.sender.crossChainBytes = n.sender.crossChainBytes
  receiver : m.receiver.crossChainBytes = n.receiver.crossChainBytes
  data : m.data = n.data
  gasLimit : m.gasLimit = n.gasLimit

/-- What a message says of itself in each of the two generations of contents. -/
structure HasCore (m : Message) (sequenceNumber nonce : UInt64) (sender receiver data : Bytes)
    (gasLimit : U256) : Prop where
  sequenceNumber : sequenceNumber = m.header.sequenceNumber
  nonce : nonce = m.header.nonce
  sender : sender = m.sender.crossChainBytes
  receiver : receiver = m.receiver.crossChainBytes
  data : data = m.data
  gasLimit : gasLimit = m.gasLimit

theorem HasCore.same {m n : Message} {sequenceNumber nonce : UInt64}
    {sender receiver data : Bytes} {gasLimit : U256}
    (hm : m.HasCore sequenceNumber nonce sender receiver data gasLimit)
    (hn : n.HasCore sequenceNumber nonce sender receiver data gasLimit) : SameCore m n where
  sequenceNumber := hm.sequenceNumber.symm.trans hn.sequenceNumber
  nonce := hm.nonce.symm.trans hn.nonce
  sender := hm.sender.symm.trans hn.sender
  receiver := hm.receiver.symm.trans hn.receiver
  data := hm.data.symm.trans hn.data
  gasLimit := hm.gasLimit.symm.trans hn.gasLimit

/-- Agreement of messages before 1.6 on the rest of what their leaves say. -/
structure SameLegacy (m n : Message) : Prop where
  feeToken : m.feeToken.crossChainBytes = n.feeToken.crossChainBytes
  feeTokenAmount : m.feeTokenAmount = n.feeTokenAmount
  body : ∃ a b, m.body = .legacy a ∧ n.body = .legacy b ∧ a.strict = b.strict ∧
    a.amounts.map TokenAmount.carried = b.amounts.map TokenAmount.carried ∧
    a.tokenData = b.tokenData

structure SameRamp (m n : Message) : Prop where
  id : m.header.id = n.header.id
  body : ∃ a b, m.body = .ramp a ∧ n.body = .ramp b ∧
    a.transfers.map Transfer.carried = b.transfers.map Transfer.carried

/-- Agreement on the arguments for Solana, but for the order of execution. -/
def SameSolana (m n : Message) : Prop :=
  ∃ units writable a b tokenReceiver accounts,
    m.extraArgs = .svmV1 units writable a tokenReceiver accounts ∧
    n.extraArgs = .svmV1 units writable b tokenReceiver accounts

/-- No list and no byte string of the body is longer than a word can say, as none is that fits in
a memory. -/
def Countable (m : Message) : Prop :=
  match m.body with
  | .legacy body => body.amounts.length < 2 ^ 256 ∧ body.tokenData.length < 2 ^ 256 ∧
      ∀ bs ∈ body.tokenData, bs.length < 2 ^ 256
  | .ramp body => body.transfers.length < 2 ^ 256 ∧
      ∀ t ∈ body.transfers, t.extraData.length < 2 ^ 256

end Message

open Message

namespace Leaf

theorem map_eq_map_of_forall₂ {α β γ : Type} {R : α → β → Prop} {f : α → γ} {g : β → γ}
    {as : List α} {bs : List β} (h : List.Forall₂ R as bs) (hfg : ∀ a b, R a b → f a = g b) :
    as.map f = bs.map g := by
  induction h with
  | nil => rfl
  | cons hab _ ih => rw [List.map_cons, List.map_cons, hfg _ _ hab, ih]

variable {m n : Message}

namespace LegacyContent

structure Describes (c : LegacyContent) (m : Message) : Prop where
  core : m.HasCore c.sequenceNumber c.nonce c.sender.toBytes c.receiver.toBytes c.data c.gasLimit
  feeToken : c.feeToken.toBytes = m.feeToken.crossChainBytes
  feeTokenAmount : c.feeTokenAmount = m.feeTokenAmount
  body : ∃ body, m.body = .legacy body ∧ c.strict = body.strict ∧
    (c.amounts.map fun p => (p.1.toBytes, p.2)) = body.amounts.map TokenAmount.carried ∧
    c.tokenData = body.tokenData

theorem describes_of_ofMessage {c : LegacyContent} (h : ofMessage m = .ok c) :
    c.Describes m := by
  unfold ofMessage at h
  split at h
  next => cases h
  next body hbody =>
    obtain ⟨sender, hsender, h⟩ := Except.bind_eq_ok_iff.mp h
    obtain ⟨receiver, hreceiver, h⟩ := Except.bind_eq_ok_iff.mp h
    obtain ⟨feeToken, hfeeToken, h⟩ := Except.bind_eq_ok_iff.mp h
    obtain ⟨amounts, hamounts, h⟩ := Except.bind_eq_ok_iff.mp h
    cases h
    have hcarried : (amounts.map fun p => (p.1.toBytes, p.2)) =
        body.amounts.map TokenAmount.carried := by
      refine (map_eq_map_of_forall₂ (Except.mapM_eq_ok_iff.mp hamounts) fun t p hp => ?_).symm
      obtain ⟨token, htoken, hp⟩ := Except.bind_eq_ok_iff.mp hp
      cases hp
      rw [TokenAmount.carried, Address.toBytes_of_evmWord htoken]
    have hgas : body.gasLimit = m.gasLimit := by simp [Message.gasLimit, hbody]
    exact ⟨⟨rfl, rfl, Address.toBytes_of_evmWord hsender, Address.toBytes_of_evmWord hreceiver, rfl,
      hgas⟩, Address.toBytes_of_evmWord hfeeToken, rfl, body, hbody, rfl, hcarried, rfl⟩

theorem Describes.same {c : LegacyContent} (hm : c.Describes m) (hn : c.Describes n) :
    SameCore m n ∧ SameLegacy m n := by
  obtain ⟨a, ha, hastrict, haamounts, hatokenData⟩ := hm.body
  obtain ⟨b, hb, hbstrict, hbamounts, hbtokenData⟩ := hn.body
  refine ⟨hm.core.same hn.core, ⟨?_, ?_, a, b, ha, hb, ?_, ?_, ?_⟩⟩
  · exact hm.feeToken.symm.trans hn.feeToken
  · exact hm.feeTokenAmount.symm.trans hn.feeTokenAmount
  · exact hastrict.symm.trans hbstrict
  · exact haamounts.symm.trans hbamounts
  · exact hatokenData.symm.trans hbtokenData

theorem Describes.countable {c : LegacyContent} (hm : c.Describes m) (h : m.Countable) :
    c.Countable := by
  obtain ⟨body, hbody, -, hamounts, htokenData⟩ := hm.body
  simp only [Message.Countable, hbody] at h
  have hlen := congrArg List.length hamounts
  rw [List.length_map, List.length_map] at hlen
  rw [Countable, hlen, htokenData]
  exact h

end LegacyContent

def TransferContent.carried (t : TransferContent) : Bytes × Bytes × UInt32 × Bytes × U256 :=
  (t.sourcePool, t.destToken.toBytes, t.destGas, t.extraData, t.amount)

/-- The words of addresses are the bytes that messages carry, however they are made. -/
theorem carried_of_transfers {toWord : Address → Except Error Bytes32}
    (hword : ∀ a w, toWord a = .ok w → w.toBytes = a.crossChainBytes)
    {ts : List TransferContent} (h : transfers toWord m = .ok ts) :
    ∃ body, m.body = .ramp body ∧
      ts.map TransferContent.carried = body.transfers.map Transfer.carried := by
  unfold transfers at h
  split at h
  next => cases h
  next body hbody =>
    refine ⟨body, hbody, ?_⟩
    refine (map_eq_map_of_forall₂ (Except.mapM_eq_ok_iff.mp h) fun t p hp => ?_).symm
    obtain ⟨destToken, hdestToken, hp⟩ := Except.bind_eq_ok_iff.mp hp
    cases hp
    rw [Transfer.carried, TransferContent.carried, hword _ _ hdestToken]

namespace RampContent

structure Describes (c : RampContent) (m : Message) : Prop where
  core : m.HasCore c.sequenceNumber c.nonce c.sender c.receiver.toBytes c.data c.gasLimit
  id : c.id = m.header.id
  body : ∃ body, m.body = .ramp body ∧
    c.transfers.map TransferContent.carried = body.transfers.map Transfer.carried

theorem describes_ofParts {toWord : Address → Except Error Bytes32}
    (hword : ∀ a w, toWord a = .ok w → w.toBytes = a.crossChainBytes) {receiver : Bytes32}
    (hreceiver : toWord m.receiver = .ok receiver) {ts : List TransferContent}
    (hts : Leaf.transfers toWord m = .ok ts) : (ofParts m receiver ts).Describes m :=
  ⟨⟨rfl, rfl, rfl, hword _ _ hreceiver, rfl, rfl⟩, rfl, carried_of_transfers hword hts⟩

theorem describes_of_ofMessage {toWord : Address → Except Error Bytes32}
    (hword : ∀ a w, toWord a = .ok w → w.toBytes = a.crossChainBytes) {c : RampContent}
    (h : ofMessage toWord m = .ok c) : c.Describes m := by
  unfold ofMessage at h
  split at h
  next => cases h
  next =>
    obtain ⟨receiver, hreceiver, h⟩ := Except.bind_eq_ok_iff.mp h
    obtain ⟨ts, hts, h⟩ := Except.bind_eq_ok_iff.mp h
    cases h
    exact describes_ofParts hword hreceiver hts

theorem Describes.same {c : RampContent} (hm : c.Describes m) (hn : c.Describes n) :
    SameCore m n ∧ SameRamp m n := by
  obtain ⟨a, ha, hatransfers⟩ := hm.body
  obtain ⟨b, hb, hbtransfers⟩ := hn.body
  exact ⟨hm.core.same hn.core, hm.id.symm.trans hn.id, a, b, ha, hb,
    hatransfers.symm.trans hbtransfers⟩

theorem Describes.countable {c : RampContent} (hm : c.Describes m) (h : m.Countable) :
    c.Countable := by
  obtain ⟨body, hbody, htransfers⟩ := hm.body
  simp only [Message.Countable, hbody] at h
  have hlen := congrArg List.length htransfers
  rw [List.length_map, List.length_map] at hlen
  refine ⟨hlen ▸ h.1, fun t ht => ?_⟩
  obtain ⟨u, hu, heq⟩ := List.mem_map.mp (htransfers ▸ List.mem_map_of_mem ht)
  simp only [Transfer.carried, TransferContent.carried, Prod.mk.injEq] at heq
  obtain ⟨hpool, -, -, hextra, -⟩ := heq
  refine ⟨?_, hextra ▸ h.2 u hu⟩
  rw [← hpool, Address.length_crossChainBytes]
  split <;> decide

end RampContent

namespace SolanaContent

theorem describes_of_ofMessage {c : SolanaContent} (h : ofMessage m = .ok c) :
    c.Describes m ∧ ∃ outOfOrder,
      m.extraArgs = .svmV1 c.units c.writable outOfOrder c.tokenReceiver c.accounts := by
  unfold ofMessage at h
  split at h
  next => cases h
  next units writable outOfOrder tokenReceiver accounts _ hargs =>
    obtain ⟨ts, hts, h⟩ := Except.bind_eq_ok_iff.mp h
    obtain ⟨receiver, hreceiver, h⟩ := Except.bind_eq_ok_iff.mp h
    cases h
    exact ⟨RampContent.describes_ofParts (fun _ _ => Address.toBytes_of_toBytes32) hreceiver hts,
      outOfOrder, hargs⟩
  next => cases h

/-- On Solana the gas limit is the number of units. -/
theorem gasLimit_eq_units {c : SolanaContent} (h : ofMessage m = .ok c) :
    c.gasLimit = BitVec.ofNat 256 c.units.toNat := by
  obtain ⟨hdescribes, outOfOrder, hargs⟩ := describes_of_ofMessage h
  obtain ⟨body, hbody, -⟩ := hdescribes.body
  rw [hdescribes.core.gasLimit, Message.gasLimit, hbody, hargs]
  rfl

end SolanaContent

theorem SuiContent.describes_of_ofMessage {c : SuiContent} (h : ofMessage m = .ok c) :
    c.Describes m ∧ m.suiArgs = (c.tokenReceiver, c.objectIds) := by
  obtain ⟨content, hcontent, h⟩ := Except.bind_eq_ok_iff.mp h
  have hdescribes :=
    RampContent.describes_of_ofMessage (fun _ _ => Address.toBytes_of_toBytes32) hcontent
  split at h
  next hargs =>
    cases h
    exact ⟨hdescribes, by rw [suiArgs, hargs]⟩
  next hother =>
    cases h
    refine ⟨hdescribes, ?_⟩
    unfold suiArgs
    split
    next hargs => exact absurd hargs (hother _ _ _ _)
    next => rfl

end Leaf

end CrossChain
