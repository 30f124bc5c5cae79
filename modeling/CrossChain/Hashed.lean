import CrossChain.Keccak
/-! Computations that keep the list of the byte strings they hash. A statement that holds
unless two byte strings share a digest speaks of this list, so it is part of the value. -/
namespace CrossChain

structure Hashed (α : Type) where
  value : α
  inputs : List Bytes

namespace Hashed

instance : Monad Hashed where
  pure a := ⟨a, []⟩
  bind x f := ⟨(f x.value).value, x.inputs ++ (f x.value).inputs⟩

instance : LawfulMonad Hashed := LawfulMonad.mk' Hashed
  (by intro α x; cases x; simp [Functor.map])
  (by intro α β a f; simp [bind, pure])
  (by intro α β γ x f g; simp [bind, List.append_assoc])

@[simp] theorem value_pure (a : α) : (pure a : Hashed α).value = a := rfl

@[simp] theorem inputs_pure (a : α) : (pure a : Hashed α).inputs = [] := rfl

@[simp] theorem value_bind (x : Hashed α) (f : α → Hashed β) :
    (x >>= f).value = (f x.value).value := rfl

@[simp] theorem inputs_bind (x : Hashed α) (f : α → Hashed β) :
    (x >>= f).inputs = x.inputs ++ (f x.value).inputs := rfl

@[simp] theorem value_map (f : α → β) (x : Hashed α) : (f <$> x).value = f x.value := rfl

@[simp] theorem inputs_map (f : α → β) (x : Hashed α) : (f <$> x).inputs = x.inputs := by
  rw [map_eq_pure_bind, inputs_bind, inputs_pure, List.append_nil]

/-- The digest of one byte string. -/
def keccak (message : Bytes) : Hashed Bytes32 :=
  ⟨keccak256 message, [message]⟩

@[simp] theorem value_keccak (m : Bytes) : (keccak m).value = keccak256 m := rfl

@[simp] theorem inputs_keccak (m : Bytes) : (keccak m).inputs = [m] := rfl

end Hashed

/-- A computation that hashes and may fail; what it hashed is known in either case. -/
abbrev Hashing (ε α : Type) := ExceptT ε Hashed α

namespace Hashing

variable {ε α : Type}

/-- The digest of one byte string. -/
def keccak (message : Bytes) : Hashing ε Bytes32 := ExceptT.lift (Hashed.keccak message)

def result (x : Hashing ε α) : Except ε α := x.run.value

def inputs (x : Hashing ε α) : List Bytes := x.run.inputs

end Hashing

/-- No two different byte strings of the list share a digest. -/
def CollisionFree (inputs : List Bytes) : Prop :=
  ∀ a ∈ inputs, ∀ b ∈ inputs, keccak256 a = keccak256 b → a = b

end CrossChain
