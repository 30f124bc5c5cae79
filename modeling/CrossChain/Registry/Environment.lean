import CrossChain.Registry.Builtin
import CrossChain.Text.Numeral
/-! Registries from environment variables: a count, and for each number up to it the variables
of one chain. The chains are laid over the built-in ones. -/
namespace CrossChain.Registry

/-- Why variables declare no registry; a variable is named where one is at fault. -/
inductive EnvironmentFault where
  | badCount (value : String)
  | missing (name : String)
  | badSelector (name : String)
  | badFamily (name : String) (error : Error)
  | chains (error : Error)
deriving DecidableEq

def EnvironmentFault.message : EnvironmentFault → String
  | .badCount value => "Invalid CCIP_CHAINS_COUNT: " ++ value ++ " (must be a number)"
  | .missing name => "Missing " ++ name
  | .badSelector name => "Invalid " ++ name ++ ": must be a u64"
  | .badFamily name error => "Invalid " ++ name ++ ": " ++ error.message
  | .chains error => error.message

abbrev Environment := String → Option String

def variableName (i : Nat) (suffix : String) : String :=
  "CCIP_CHAIN_" ++ toString i ++ "_" ++ suffix

def lookupRequired (env : Environment) (name : String) : Except EnvironmentFault String :=
  match env name with
  | some s => .ok s
  | none => .error (.missing name)

def declaredChain (env : Environment) (i : Nat) : Except EnvironmentFault Chain := do
  let selectorName := variableName i "SELECTOR"
  let selector ← match Numeral.uint64? (← lookupRequired env selectorName).trimmed with
    | some n => pure n
    | none => throw (.badSelector selectorName)
  let familyName := variableName i "FAMILY"
  let family ← (Family.parse (← lookupRequired env familyName)).mapError (.badFamily familyName)
  let name := (env (variableName i "NAME")).getD ("chain_" ++ toString i)
  let testnet := (env (variableName i "TESTNET")).any (·.trimmed == "true")
  return ⟨selector, family, name, testnet⟩

/-- The chains with the given number of numbers from `i` on; the first fault ends the
search. -/
def declaredChains (env : Environment) : Nat → Nat → Except EnvironmentFault (List Chain)
  | _, 0 => .ok []
  | i, count + 1 => do
    let c ← declaredChain env i
    let rest ← declaredChains env (i + 1) count
    return c :: rest

def ofEnvironment (env : Environment) : Except EnvironmentFault Registry :=
  match env "CCIP_CHAINS_COUNT" with
  | none => .ok builtin
  | some s =>
    match Numeral.natural? UInt64.size s.trimmed.toList with
    | none => .error (.badCount s)
    | some count => do
      let extra ← declaredChains env 1 count
      (builtin.withChains extra).mapError .chains

end CrossChain.Registry
