import CrossChain.Text.Blank
/-! Chain families: classes of chains that share an address format, a hashing domain and a
binary layout. -/
namespace CrossChain

inductive Family where
  | evm
  | svm
  | aptos
  | sui
  | ton
deriving DecidableEq, Inhabited

namespace Family

def all : List Family := [.evm, .svm, .aptos, .sui, .ton]

def name : Family → String
  | .evm => "evm"
  | .svm => "svm"
  | .aptos => "aptos"
  | .sui => "sui"
  | .ton => "ton"

/-- Aptos and Sui share the Move conventions. -/
def isMove : Family → Bool
  | .aptos | .sui => true
  | _ => false

/-- Bytes of a canonical address. A TON address is a workchain and an account hash. -/
def addressLength : Family → Nat
  | .evm => 20
  | .ton => 36
  | _ => 32

/-- The family of a name, in any case and with blanks around it. -/
def ofName? (s : String) : Option Family :=
  match String.ofList ((Text.trim s.toList).map Char.toLower) with
  | "evm" | "ethereum" => some .evm
  | "svm" | "solana" => some .svm
  | "aptos" => some .aptos
  | "sui" => some .sui
  | "ton" => some .ton
  | _ => none

theorem mem_all (f : Family) : f ∈ all := by cases f <;> decide

theorem ofName?_name (f : Family) : ofName? f.name = some f := by cases f <;> decide

end Family

end CrossChain
