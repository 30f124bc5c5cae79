import CrossChain.Error
import CrossChain.Registry.Index
/-! Chains by selector and by name. A registry holds each selector and each name once and no
empty name, and its indexes point to all of its chains, so that either look-up finds the only chain
it could mean. -/
namespace CrossChain

structure Chain where
  selector : UInt64
  family : Family
  name : String
  testnet : Bool
deriving DecidableEq

/-- What a list of chains must meet to be a registry. -/
structure Registry.Valid (chains : List Chain) : Prop where
  names_nonempty : ∀ c ∈ chains, c.name ≠ ""
  selectors_nodup : (chains.map Chain.selector).Nodup
  names_nodup : (chains.map Chain.name).Nodup

namespace Registry

/-- Where in a list of chains they stand, by each of their keys. -/
structure Indexes where
  bySelector : Index UInt64
  byName : Index String

namespace Indexes

def empty : Indexes := ⟨.empty, .empty⟩

def insert (ix : Indexes) (c : Chain) (i : Nat) : Indexes :=
  ⟨ix.bySelector.insert c.selector i, ix.byName.insert c.name i⟩

def insertAll (ix : Indexes) (i : Nat) : List Chain → Indexes
  | [] => ix
  | c :: rest => (ix.insert c i).insertAll (i + 1) rest

/-- Puts in chains like `insertAll`, up to the first that cannot join those before it. -/
def enter (ix : Indexes) (i : Nat) : List Chain → Except RegistryFault Indexes
  | [] => .ok ix
  | c :: rest =>
    if c.name = "" then .error (.emptyName c.selector)
    else if (ix.bySelector.position? c.selector).isSome then .error (.duplicateSelector c.selector)
    else if (ix.byName.position? c.name).isSome then .error (.duplicateName c.name)
    else (ix.insert c i).enter (i + 1) rest

structure Points (ix : Indexes) (chains : List Chain) : Prop where
  selectors : ix.bySelector.Points Chain.selector chains
  names : ix.byName.Points Chain.name chains

end Indexes

theorem valid_append_singleton_iff {chains : List Chain} {c : Chain} :
    Valid (chains ++ [c]) ↔ Valid chains ∧ c.name ≠ "" ∧
      c.selector ∉ chains.map Chain.selector ∧ c.name ∉ chains.map Chain.name := by
  have hnodup : ∀ {κ : Type} (key : Chain → κ), ((chains ++ [c]).map key).Nodup ↔
      (chains.map key).Nodup ∧ key c ∉ chains.map key := by
    intro κ key
    rw [List.map_append, List.nodup_append]
    simp
  constructor
  · rintro ⟨hn, hs, hm⟩
    rw [hnodup] at hs hm
    exact ⟨⟨fun b hb => hn b (List.mem_append_left _ hb), hs.1, hm.1⟩, hn c (by simp), hs.2, hm.2⟩
  · rintro ⟨⟨hn, hs, hm⟩, hname, hselector, hfresh⟩
    refine ⟨fun b hb => ?_, (hnodup _).mpr ⟨hs, hselector⟩, (hnodup _).mpr ⟨hm, hfresh⟩⟩
    rcases List.mem_append.mp hb with hb | hb
    · exact hn b hb
    · rwa [List.mem_singleton.mp hb]

theorem Valid.of_append {chains rest : List Chain} (h : Valid (chains ++ rest)) : Valid chains := by
  obtain ⟨hn, hs, hm⟩ := h
  rw [List.map_append, List.nodup_append] at hs hm
  exact ⟨fun c hc => hn c (List.mem_append_left _ hc), hs.1, hm.1⟩

namespace Indexes

variable {ix ix' : Indexes} {chains rest : List Chain} {c : Chain}

theorem points_empty : empty.Points [] := ⟨.empty, .empty⟩

theorem Points.insert (h : ix.Points chains) (hvalid : Valid (chains ++ [c])) :
    (ix.insert c chains.length).Points (chains ++ [c]) := by
  obtain ⟨-, -, hselector, hname⟩ := valid_append_singleton_iff.mp hvalid
  exact ⟨h.selectors.insert hselector, h.names.insert hname⟩

theorem Points.insertAll (h : ix.Points chains) (hvalid : Valid (chains ++ rest)) :
    (ix.insertAll chains.length rest).Points (chains ++ rest) := by
  induction rest generalizing ix chains with
  | nil =>
    rw [List.append_nil]
    exact h
  | cons c rest ih =>
    rw [List.append_cons] at hvalid ⊢
    have := ih (h.insert hvalid.of_append) hvalid
    rwa [List.length_append] at this

/-- All chains can be put in if they are a valid list together with those before them. -/
theorem enter_eq_ok_iff (h : ix.Points chains) (hvalid : Valid chains) :
    ix.enter chains.length rest = .ok ix' ↔
      Valid (chains ++ rest) ∧ ix' = ix.insertAll chains.length rest := by
  induction rest generalizing ix chains with
  | nil =>
    rw [List.append_nil]
    exact ⟨fun hok => ⟨hvalid, (Except.ok.inj hok).symm⟩, fun h => congrArg _ h.2.symm⟩
  | cons c rest ih =>
    have hjoins : Valid (chains ++ c :: rest) → c.name ≠ "" ∧
        c.selector ∉ chains.map Chain.selector ∧ c.name ∉ chains.map Chain.name := fun hall =>
      (valid_append_singleton_iff.mp (List.append_cons .. ▸ hall).of_append).2
    unfold enter
    split
    next hname => exact ⟨nofun, fun hall => absurd hname (hjoins hall.1).1⟩
    split
    next hselector =>
      rw [h.selectors.position?_isSome_iff] at hselector
      exact ⟨nofun, fun hall => absurd hselector (hjoins hall.1).2.1⟩
    split
    next hname =>
      rw [h.names.position?_isSome_iff] at hname
      exact ⟨nofun, fun hall => absurd hname (hjoins hall.1).2.2⟩
    next hname hselector hfresh =>
      rw [h.selectors.position?_isSome_iff] at hselector
      rw [h.names.position?_isSome_iff] at hfresh
      have hwith := valid_append_singleton_iff.mpr ⟨hvalid, hname, hselector, hfresh⟩
      have hnext := ih (h.insert hwith) hwith
      rwa [List.length_append, ← List.append_cons] at hnext

def ofChains (chains : List Chain) : Indexes := empty.insertAll 0 chains

theorem points_ofChains (h : Valid chains) : (ofChains chains).Points chains :=
  points_empty.insertAll h

theorem enter_empty_eq_ok_iff :
    empty.enter 0 chains = .ok ix ↔ Valid chains ∧ ix = ofChains chains :=
  enter_eq_ok_iff points_empty ⟨by simp, by simp, by simp⟩

end Indexes

end Registry

/-- Chains, and the indexes by which they are looked up. -/
structure Registry where
  chains : List Chain
  indexes : Registry.Indexes
  valid : Registry.Valid chains
  points : indexes.Points chains

namespace Registry

def ofChains (chains : List Chain) : Except Error Registry :=
  match h : Indexes.empty.enter 0 chains with
  | .ok ix =>
    have h := Indexes.enter_empty_eq_ok_iff.mp h
    .ok ⟨chains, ix, h.1, h.2 ▸ Indexes.points_ofChains h.1⟩
  | .error fault => .error (.badRegistry fault)

def get? (r : Registry) (selector : UInt64) : Option Chain :=
  r.indexes.bySelector.find? r.points.selectors selector

def byName? (r : Registry) (name : String) : Option Chain :=
  r.indexes.byName.find? r.points.names name

def familyOf (r : Registry) (selector : UInt64) : Except Error Family :=
  match r.get? selector with
  | some c => .ok c.family
  | none => .error (.unknownSelector selector)

/-- Adds chains; those already there with one of their selectors give way. -/
def withChains (r : Registry) (extra : List Chain) : Except Error Registry :=
  ofChains (r.chains.filter (fun c => !extra.any (·.selector = c.selector)) ++ extra)

end Registry

end CrossChain
