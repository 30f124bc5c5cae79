import CrossChain.Address.Text
import CrossChain.Registry.Basic
/-! Lanes: the directed ways on which messages travel. -/
namespace CrossChain

/-- From a source chain to a destination chain through one contract of the source. -/
structure Lane where
  source : UInt64
  dest : UInt64
  onRamp : Address
  version : Version
deriving DecidableEq

namespace Lane

def checked (lane : Lane) : Except Error Lane :=
  if lane.source = lane.dest then .error (.sameEnds lane.source) else .ok lane

/-- A lane between two registered chains, its contract read in the family of the source. -/
def resolve (registry : Registry) (source dest : UInt64) (onRamp : String) (version : Version) :
    Except Error Lane := do
  let family ← registry.familyOf source
  let _ ← registry.familyOf dest
  let onRamp ← Address.parse onRamp family
  checked ⟨source, dest, onRamp, version⟩

structure Ends where
  source : Family
  dest : Family
deriving DecidableEq

def ends (lane : Lane) (registry : Registry) : Except Error Ends := do
  return ⟨← registry.familyOf lane.source, ← registry.familyOf lane.dest⟩

def text (lane : Lane) : String :=
  toString lane.source.toNat ++ " -> " ++ toString lane.dest.toNat ++ " via " ++
    lane.onRamp.text ++ " (v" ++ lane.version.text ++ ")"

end Lane

end CrossChain
