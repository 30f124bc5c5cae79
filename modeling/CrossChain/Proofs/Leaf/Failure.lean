import CrossChain.Proofs.Leaf.Binding
/-! How leaves fail. Selectors, versions, addresses, arguments and lengths can be at fault, and an
identifier can differ from the leaf, but no proof is involved. -/
namespace CrossChain

/-- The failure of a proof, rather than of what is to be proven. -/
def Error.isProofFault : Error → Bool
  | .badProof _ => true
  | _ => false

abbrev Proofless {α : Type} (x : Except Error α) : Prop :=
  FailsOnly (fun e => e.isProofFault = false) x

namespace Address

theorem proofless_evmWord (a : Address) : Proofless a.evmWord := by
  unfold evmWord
  split
  · exact .ok _
  · exact .error rfl

theorem proofless_toBytes32 (a : Address) : Proofless a.toBytes32 := by
  unfold toBytes32
  split
  · exact .ok _
  · exact .error rfl

end Address

theorem Registry.proofless_familyOf (r : Registry) (selector : UInt64) :
    Proofless (r.familyOf selector) := by
  unfold familyOf
  split
  · exact .ok _
  · exact .error rfl

namespace Leaf

variable {toWord : Address → Except Error Bytes32} {m : Message}

theorem LegacyContent.proofless_ofMessage (m : Message) : Proofless (ofMessage m) := by
  unfold ofMessage
  split
  next => exact .error rfl
  next body _ =>
    refine m.sender.proofless_evmWord.bind fun _ _ => ?_
    refine m.receiver.proofless_evmWord.bind fun _ _ => ?_
    refine m.feeToken.proofless_evmWord.bind fun _ _ => ?_
    refine (FailsOnly.mapM (fun t => ?_) body.amounts).bind fun _ _ => .ok _
    exact t.token.proofless_evmWord.bind fun _ _ => .ok _

theorem proofless_transfers (hword : ∀ a, Proofless (toWord a)) (m : Message) :
    Proofless (transfers toWord m) := by
  unfold transfers
  split
  next => exact .error rfl
  next body _ => exact .mapM (fun t => (hword t.destToken).bind fun _ _ => .ok _) body.transfers

theorem RampContent.proofless_ofMessage (hword : ∀ a, Proofless (toWord a)) (m : Message) :
    Proofless (ofMessage toWord m) := by
  unfold ofMessage
  split
  next => exact .error rfl
  next =>
    exact (hword m.receiver).bind fun _ _ => (proofless_transfers hword m).bind fun _ _ => .ok _

theorem SolanaContent.proofless_ofMessage (m : Message) : Proofless (ofMessage m) := by
  unfold ofMessage
  split
  next => exact .error rfl
  next =>
    exact (proofless_transfers Address.proofless_toBytes32 m).bind fun _ _ =>
      m.receiver.proofless_toBytes32.bind fun _ _ => .ok _
  next => exact .error rfl

theorem SolanaContent.proofless_remainder (c : SolanaContent) : Proofless c.remainder := by
  unfold remainder
  split
  · exact .ok _
  · exact .error rfl

theorem SuiContent.proofless_ofMessage (m : Message) : Proofless (ofMessage m) := by
  unfold ofMessage
  refine (RampContent.proofless_ofMessage Address.proofless_toBytes32 m).bind fun _ _ => ?_
  split <;> exact .ok _

end Leaf

open Leaf

namespace Scheme

theorem proofless_select (source dest : Family) (version : Version) :
    Proofless (select source dest version) := by
  unfold select
  split
  · split
    · exact .ok _
    · exact .error rfl
  all_goals first | exact .ok _ | exact .error rfl

/-- A lane without a scheme fails before anything is hashed. -/
theorem proofless_ofLane (registry : Registry) (lane : Lane) :
    Proofless (ofLane registry lane) := by
  have hchecked : Proofless lane.checked := by
    unfold Lane.checked
    split
    · exact .error rfl
    · exact .ok _
  refine hchecked.bind fun lane _ => ?_
  refine FailsOnly.bind ?_ fun _ _ => proofless_select _ _ _
  exact (registry.proofless_familyOf lane.source).bind fun _ _ =>
    (registry.proofless_familyOf lane.dest).bind fun _ _ => .ok _

theorem proofless_remainder (s : Scheme) (m : Message) : Proofless (s.remainder m) := by
  cases s with
  | evm2evm => exact (LegacyContent.proofless_ofMessage m).map _
  | any2evm => exact (RampContent.proofless_ofMessage Address.proofless_evmWord m).map _
  | any2svm =>
    exact (SolanaContent.proofless_ofMessage m).bind fun c _ => c.proofless_remainder
  | any2aptos => exact (RampContent.proofless_ofMessage Address.proofless_toBytes32 m).map _
  | any2sui => exact (SuiContent.proofless_ofMessage m).map _

theorem proofless_metadata (s : Scheme) (lane : Lane) : Proofless (s.metadata lane).result := by
  rw [metadata_eq, Hashing.result_bind]
  refine FailsOnly.bind ?_ fun fields _ => .ok _
  rw [Hashing.result_liftExcept]
  cases s with
  | evm2evm => exact lane.onRamp.proofless_evmWord.bind fun _ _ => .ok _
  | any2evm | any2svm | any2aptos | any2sui => exact .ok _

theorem proofless_leaf (s : Scheme) (lane : Lane) (m : Message) :
    Proofless (s.leaf lane m).result := by
  rw [leaf, Hashing.result_bind, preimage_eq, Hashing.result_bind]
  refine FailsOnly.bind ?_ fun _ _ => .ok _
  refine (s.proofless_metadata lane).bind fun metadata _ => ?_
  rw [Hashing.result_bind, Hashing.result_liftExcept]
  exact (s.proofless_remainder m).bind fun _ _ => .ok _

end Scheme

namespace Leaf

theorem proofless_hash (registry : Registry) (lane : Lane) (m : Message) :
    Proofless (hash registry lane m).result := by
  unfold hash
  split
  · exact .error rfl
  · dsimp only
    rw [Hashing.result_bind]
    exact (Scheme.proofless_ofLane registry lane).bind fun s _ => s.proofless_leaf lane m

/-- Whatever keeps a message from being hashed and verified, it is not a proof. -/
theorem proofless_verified (registry : Registry) (lane : Lane) (m : Message) :
    Proofless (verified registry lane m).result := by
  unfold verified
  rw [Hashing.result_bind]
  refine (Scheme.proofless_ofLane registry lane).bind fun s _ => ?_
  rw [Hashing.result_bind]
  refine (proofless_hash registry lane m).bind fun leaf _ => ?_
  dsimp only
  split
  · exact .error rfl
  · exact .ok _

end Leaf

end CrossChain
