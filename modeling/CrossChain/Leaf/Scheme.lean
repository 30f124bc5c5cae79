import CrossChain.Keccak
import CrossChain.Lane
/-! Schemes for leaf hashes. The family of the destination and the version of a lane decide on
the scheme. Each has a domain of its own, the digest of its name, and every hashed byte string
starts with a domain, so that hashes of different roles do not meet. -/
namespace CrossChain

namespace Domain

/-- What the byte string of a leaf starts with. -/
def leaf : Bytes32 := .zero

def node : Bytes32 := .ofU256 1

end Domain

inductive Scheme where
  | evm2evm
  | any2evm
  | any2svm
  | any2aptos
  | any2sui
deriving DecidableEq

namespace Scheme

def all : List Scheme := [.evm2evm, .any2evm, .any2svm, .any2aptos, .any2sui]

def name : Scheme → String
  | .evm2evm => "EVM2EVMMessageHashV2"
  | .any2evm => "Any2EVMMessageHashV1"
  | .any2svm => "Any2SVMMessageHashV1"
  | .any2aptos => "Any2AptosMessageHashV1"
  | .any2sui => "Any2SuiMessageHashV1"

def nameBytes (s : Scheme) : Bytes := Text.utf8 s.name.toList

def domain : Scheme → Bytes32
  | .evm2evm =>
    .ofU256 0x8acd72527118c8324937b1a42e02cd246697c3b633f1742f3cae11de233722b3
  | .any2evm =>
    .ofU256 0x2425b0b9f9054c76ff151b0a175b18f37a4a4e82013a72e9f15c9caa095ed21f
  | .any2svm =>
    .ofU256 0x3e059d12554ba423ecffab3871d74b95885c1ebcc4531aa8e8cbe7c273a2af9d
  | .any2aptos =>
    .ofU256 0x5dcdb5b60f6482457a0a2e965a99d0efdc16f4f317c2b13d9ead0cdcea8fd87a
  | .any2sui =>
    .ofU256 0x24dae8b41ecd0ee2ba6f31166456725910af161f18f94257ef6081dfd64eb208

theorem domain_eq (s : Scheme) : s.domain = keccak256 s.nameBytes := by
  cases s <;> decide +kernel

/-- The scheme of a destination. Legacy messages travel between EVM chains only, and nobody
hashes messages for TON. -/
def select (source dest : Family) (version : Version) : Except Error Scheme :=
  match dest, version.isLegacy with
  | .evm, true => if source = .evm then .ok .evm2evm else .error (.noScheme dest version)
  | .evm, false => .ok .any2evm
  | .svm, false => .ok .any2svm
  | .aptos, false => .ok .any2aptos
  | .sui, false => .ok .any2sui
  | _, _ => .error (.noScheme dest version)

/-- The scheme of a lane, whose ends must differ and be registered. -/
def ofLane (registry : Registry) (lane : Lane) : Except Error Scheme := do
  let lane ← lane.checked
  let ends ← lane.ends registry
  select ends.source ends.dest lane.version

def idIsLeaf : Scheme → Bool
  | .evm2evm => true
  | _ => false

end Scheme

end CrossChain
