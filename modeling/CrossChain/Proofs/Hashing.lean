import Mathlib
import CrossChain.Hashed
import CrossChain.Proofs.Outcomes
/-! Results and hashed byte strings of composed computations. A computation that succeeds has
made each of its steps, and what the steps hashed is what it hashed. -/
namespace CrossChain

namespace Hashing

variable {ε ε' α β : Type}

@[simp] theorem result_pure (a : α) : (pure a : Hashing ε α).result = .ok a := rfl

@[simp] theorem inputs_pure (a : α) : (pure a : Hashing ε α).inputs = [] := rfl

@[simp] theorem result_keccak (message : Bytes) :
    (keccak message : Hashing ε Bytes32).result = .ok (keccak256 message) := rfl

@[simp] theorem inputs_keccak (message : Bytes) :
    (keccak message : Hashing ε Bytes32).inputs = [message] := rfl

@[simp] theorem result_liftHashed (x : Hashed α) :
    (liftM x : Hashing ε α).result = .ok x.value := rfl

@[simp] theorem inputs_liftHashed (x : Hashed α) : (liftM x : Hashing ε α).inputs = x.inputs :=
  List.append_nil x.inputs

@[simp] theorem result_liftExcept (x : Except ε α) : (liftM x : Hashing ε α).result = x := rfl

theorem liftExcept_ok_bind (a : α) (f : α → Hashing ε β) :
    (liftM (Except.ok a : Except ε α) : Hashing ε α) >>= f = f a := rfl

theorem result_bind (x : Hashing ε α) (f : α → Hashing ε β) :
    (x >>= f).result = x.result >>= fun a => (f a).result := by
  change (ExceptT.run (x >>= f)).value = x.run.value >>= _
  rw [ExceptT.run_bind, Hashed.value_bind]
  cases x.run.value <;> rfl

/-- What a second step hashes is known only once the first one has succeeded. -/
theorem inputs_bind_of_ok {x : Hashing ε α} {a : α} (h : x.result = .ok a)
    (f : α → Hashing ε β) : (x >>= f).inputs = x.inputs ++ (f a).inputs := by
  have hx : x.run.value = .ok a := h
  change (ExceptT.run (x >>= f)).inputs = _
  rw [ExceptT.run_bind, Hashed.inputs_bind, hx]
  rfl

/-- An error in other terms is still an error. -/
theorem result_adapt_eq_ok_iff {f : ε → ε'} {x : Hashing ε α} {a : α} :
    result (ExceptT.adapt f x) = .ok a ↔ x.result = .ok a := by
  change Except.mapError f x.run.value = .ok a ↔ x.run.value = .ok a
  cases x.run.value <;> simp [Except.mapError]

theorem result_bind_eq_ok_iff {x : Hashing ε α} {f : α → Hashing ε β} {b : β} :
    (x >>= f).result = .ok b ↔ ∃ a, x.result = .ok a ∧ (f a).result = .ok b := by
  rw [result_bind, Except.bind_eq_ok_iff]

theorem result_mapM (f : α → Hashing ε β) (as : List α) :
    (as.mapM f).result = as.mapM fun a => (f a).result := by
  induction as with
  | nil => rfl
  | cons a as ih =>
    rw [List.mapM_cons, List.mapM_cons, result_bind]
    apply congrArg (_ >>= ·)
    funext b
    rw [result_bind, ih]
    rfl

/-- A list is worked off if each of its items is. -/
theorem result_mapM_eq_ok_iff {f : α → Hashing ε β} {as : List α} {bs : List β} :
    (as.mapM f).result = .ok bs ↔ List.Forall₂ (fun a b => (f a).result = .ok b) as bs := by
  rw [result_mapM, Except.mapM_eq_ok_iff]

end Hashing

namespace CollisionFree

instance (inputs : List Bytes) : Decidable (CollisionFree inputs) :=
  inferInstanceAs (Decidable (∀ a ∈ inputs, ∀ b ∈ inputs, keccak256 a = keccak256 b → a = b))

theorem mono {inputs more : List Bytes} (h : CollisionFree more) (hsub : inputs ⊆ more) :
    CollisionFree inputs :=
  fun a ha b hb => h a (hsub ha) b (hsub hb)

end CollisionFree

end CrossChain
