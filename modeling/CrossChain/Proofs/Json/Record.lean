import CrossChain.Json.Record
import CrossChain.Proofs.Outcomes
/-! Records that are stated anew: members under other names of the same fields, in another order,
with values that are read alike, and with members of no meaning among them. A record that is read is
read the same way however it is stated. -/
namespace CrossChain.Json

namespace Slot

def names (slot : Slot) : List String := slot.name :: slot.secondName.toList

theorem accepts_iff {slot : Slot} {key : String} : slot.accepts key = true ↔ key ∈ slot.names := by
  simp only [accepts, names, Bool.or_eq_true, beq_iff_eq, List.mem_cons, Option.mem_toList]

end Slot

/-- Names in groups; those of a group are names of one field. -/
structure Vocabulary where
  groups : List (List String)
  coherent : ∀ g ∈ groups, ∀ g' ∈ groups, ∀ key ∈ g, key ∈ g' → g = g'

namespace Vocabulary

def Same (w : Vocabulary) (key key' : String) : Prop :=
  key = key' ∨ ∃ g ∈ w.groups, key ∈ g ∧ key' ∈ g

def Foreign (w : Vocabulary) (key : String) : Prop := ∀ g ∈ w.groups, key ∉ g

instance (w : Vocabulary) : DecidableRel w.Same := fun key key' =>
  inferInstanceAs (Decidable (key = key' ∨ ∃ g ∈ w.groups, key ∈ g ∧ key' ∈ g))

instance (w : Vocabulary) : DecidablePred w.Foreign := fun key =>
  inferInstanceAs (Decidable (∀ g ∈ w.groups, key ∉ g))

/-- The vocabulary has all names of the fields. -/
def Covers (w : Vocabulary) (slots : List Slot) : Prop := ∀ slot ∈ slots, slot.names ∈ w.groups

variable {w : Vocabulary} {key key' : String} {g : List String} {slots : List Slot}

theorem Same.mem_iff (h : w.Same key key') (hg : g ∈ w.groups) : key ∈ g ↔ key' ∈ g := by
  obtain rfl | ⟨other, hother, hkey, hkey'⟩ := h
  · rfl
  · constructor
    · intro hmem
      rwa [w.coherent g hg other hother key hmem hkey]
    · intro hmem
      rwa [w.coherent g hg other hother key' hmem hkey']

theorem Same.find?_eq (h : w.Same key key') (hslots : w.Covers slots) :
    slots.find? (·.accepts key) = slots.find? (·.accepts key') := by
  refine List.find?_congr fun slot hslot => ?_
  rw [Bool.eq_iff_iff, Slot.accepts_iff, Slot.accepts_iff]
  exact h.mem_iff (hslots slot hslot)

theorem Foreign.find?_eq_none (h : w.Foreign key) (hslots : w.Covers slots) :
    slots.find? (·.accepts key) = none := by
  refine List.find?_eq_none.mpr fun slot hslot haccepts => ?_
  exact h slot.names (hslots slot hslot) (Slot.accepts_iff.mp haccepts)

end Vocabulary

/-- The fields that the members are for, each by its first name. -/
def given (slots : List Slot) (ms : Members) : List String :=
  ms.filterMap fun m => (slots.find? (·.accepts m.1)).map Slot.name

/-- Members are in order if each of them can be read and no two are for the same field. -/
theorem checkMembers_eq_ok_iff {slots : List Slot} {seen : List String} {ms : Members} :
    checkMembers slots seen ms = .ok () ↔
      (∀ m ∈ ms, ∀ slot, slots.find? (·.accepts m.1) = some slot → slot.check m.2 = .ok ()) ∧
        (given slots ms).Nodup ∧ ∀ name ∈ given slots ms, name ∉ seen := by
  induction ms generalizing seen with
  | nil => simp [checkMembers, given]
  | cons m ms ih =>
    obtain ⟨key, v⟩ := m
    rw [checkMembers, List.forall_mem_cons]
    cases hslot : slots.find? (·.accepts key) with
    | none =>
      have hgiven : given slots ((key, v) :: ms) = given slots ms := by
        simp [given, hslot]
      simp [ih, hgiven]
    | some slot =>
      have hgiven : given slots ((key, v) :: ms) = slot.name :: given slots ms := by
        simp [given, hslot]
      simp only [hgiven, List.forall_mem_cons, List.nodup_cons, Option.some.injEq, forall_eq']
      by_cases hseen : slot.name ∈ seen
      · rw [if_pos hseen]
        exact iff_of_false nofun fun h => h.2.2.1 hseen
      · rw [if_neg hseen, Except.bind_eq_ok_iff]
        simp only [ih, List.mem_cons, not_or]
        constructor
        · rintro ⟨⟨⟩, hcheck, hall, hnodup, hnew⟩
          have hfirst : slot.name ∉ given slots ms := fun hmem => (hnew _ hmem).1 rfl
          exact ⟨⟨hcheck, hall⟩, ⟨hfirst, hnodup⟩, hseen, fun name hname => (hnew name hname).2⟩
        · rintro ⟨⟨hcheck, hall⟩, ⟨hfirst, hnodup⟩, -, hnew⟩
          refine ⟨⟨⟩, hcheck, hall, hnodup, fun name hname => ⟨?_, hnew name hname⟩⟩
          rintro rfl
          exact hfirst hname

/-- Members in another order, under other names of the same fields, with values that stand in the
relation, and among members of no meaning. -/
def Restated (w : Vocabulary) (R : String → Json → Json → Prop) (ms ms' : Members) : Prop :=
  ∃ renamed added, List.Forall₂ (fun m m' => w.Same m.1 m'.1 ∧ R m.1 m.2 m'.2) ms renamed ∧
    (∀ m ∈ added, w.Foreign m.1) ∧ ms'.Perm (renamed ++ added)

/-- Items by position, of which those of the fields stand in the relation. -/
inductive RestatedItems (R : String → Json → Json → Prop) :
    List Slot → List Json → List Json → Prop where
  | nil {slots : List Slot} : RestatedItems R slots [] []
  | cons {slot : Slot} {slots : List Slot} {v v' : Json} {items items' : List Json}
      (hv : R slot.name v v') (h : RestatedItems R slots items items') :
      RestatedItems R (slot :: slots) (v :: items) (v' :: items')

inductive RestatedRecord (w : Vocabulary) (R : String → Json → Json → Prop) (slots : List Slot) :
    Json → Json → Prop where
  | object {ms ms' : Members} (h : Restated w R ms ms') :
      RestatedRecord w R slots (.object ms) (.object ms')
  | array {items items' : List Json} (h : RestatedItems R slots items items') :
      RestatedRecord w R slots (.array items) (.array items')

/-- Values of the field that stand in the relation are read alike. -/
def Field.Respects {α : Type} (R : String → Json → Json → Prop) (field : Field α) : Prop :=
  ∀ key ∈ field.slot.names, ∀ v v', R key v v' → YieldsAlso (field.read v) (field.read v')

def Slot.Respects (R : String → Json → Json → Prop) (slot : Slot) : Prop :=
  ∀ key ∈ slot.names, ∀ v v', R key v v' → YieldsAlso (slot.check v) (slot.check v')

/-- Members that give the fields values in the relation, or give them none. -/
def Alike (R : String → Json → Json → Prop) (slots : List Slot) (ms ms' : Members) : Prop :=
  ∀ slot ∈ slots, Option.Rel (fun m m' => R m.1 m.2 m'.2)
    (ms.find? (slot.accepts ·.1)) (ms'.find? (slot.accepts ·.1))

variable {w : Vocabulary} {R : String → Json → Json → Prop} {slots : List Slot} {ms ms' : Members}

theorem Field.Respects.slot {α : Type} {field : Field α} (h : field.Respects R) :
    field.slot.Respects R :=
  fun key hkey v v' hv => (h key hkey v v' hv).map

theorem Alike.get {α : Type} {field : Field α} (h : Alike R slots ms ms')
    (hmem : field.slot ∈ slots) (hread : field.Respects R) :
    YieldsAlso (field.get ms) (field.get ms') := by
  have hrel := h field.slot hmem
  have hkey : ∀ m, ms.find? (field.slot.accepts ·.1) = some m → m.1 ∈ field.slot.names := by
    intro m hm
    have haccepts := List.find?_some hm
    exact Slot.accepts_iff.mp haccepts
  unfold Field.get
  generalize ms.find? (field.slot.accepts ·.1) = found at hrel hkey ⊢
  generalize ms'.find? (field.slot.accepts ·.1) = found' at hrel ⊢
  cases hrel with
  | none => exact .refl _
  | @some m m' hv => exact hread m.1 (hkey m rfl) m.2 m'.2 hv

theorem Restated.filter {p : String → Bool} {g : List String} (h : Restated w R ms ms')
    (hg : g ∈ w.groups) (hp : ∀ key, p key = true ↔ key ∈ g) :
    ∃ renamed, List.Forall₂ (fun m m' => w.Same m.1 m'.1 ∧ R m.1 m.2 m'.2)
      (ms.filter (p ·.1)) renamed ∧ (ms'.filter (p ·.1)).Perm renamed := by
  obtain ⟨renamed, added, hrenamed, hadded, hperm⟩ := h
  have hnone : added.filter (p ·.1) = [] := by
    rw [List.filter_eq_nil_iff]
    exact fun m hm hpm => hadded m hm g hg ((hp m.1).mp hpm)
  refine ⟨renamed.filter (p ·.1), List.rel_filter ?_ hrenamed, ?_⟩
  · intro m m' hm
    exact (hp m.1).trans ((hm.1.mem_iff hg).trans (hp m'.1).symm)
  · have hfilter := hperm.filter (p ·.1)
    rwa [List.filter_append, hnone, List.append_nil] at hfilter

theorem Restated.find? {p : String → Bool} {g : List String} (h : Restated w R ms ms')
    (hg : g ∈ w.groups) (hp : ∀ key, p key = true ↔ key ∈ g)
    (hone : (ms.filter (p ·.1)).length ≤ 1) :
    Option.Rel (fun m m' => R m.1 m.2 m'.2) (ms.find? (p ·.1)) (ms'.find? (p ·.1)) := by
  obtain ⟨renamed, hrenamed, hperm⟩ := h.filter hg hp
  rw [← List.head?_filter, ← List.head?_filter]
  generalize ms.filter (p ·.1) = chosen at hone hrenamed
  cases hrenamed with
  | nil =>
    rw [List.perm_nil.mp hperm]
    exact .none
  | cons hm hrest =>
    cases hrest with
    | nil =>
      rw [List.perm_singleton.mp hperm]
      exact .some hm.2
    | cons => simp at hone

theorem Restated.exists_mem_iff {g : List String} (h : Restated w R ms ms') (hg : g ∈ w.groups) :
    (∃ m ∈ ms, m.1 ∈ g) ↔ ∃ m ∈ ms', m.1 ∈ g := by
  obtain ⟨renamed, added, hrenamed, hadded, hperm⟩ := h
  constructor
  · rintro ⟨m, hm, hkey⟩
    obtain ⟨m', hm', hsame, -⟩ := hrenamed.exists_of_mem_left hm
    exact ⟨m', hperm.mem_iff.mpr (List.mem_append_left _ hm'), (hsame.mem_iff hg).mp hkey⟩
  · rintro ⟨m', hm', hkey⟩
    obtain hm' | hm' := List.mem_append.mp (hperm.mem_iff.mp hm')
    · obtain ⟨m, hm, hsame, -⟩ := hrenamed.flip.exists_of_mem_left hm'
      exact ⟨m, hm, (hsame.mem_iff hg).mpr hkey⟩
    · exact absurd hkey (hadded m' hm' g hg)

theorem Restated.given_perm (h : Restated w R ms ms') (hslots : w.Covers slots) :
    (given slots ms').Perm (given slots ms) := by
  obtain ⟨renamed, added, hrenamed, hadded, hperm⟩ := h
  have hsame : given slots renamed = given slots ms := by
    clear hperm
    induction hrenamed with
    | nil => rfl
    | cons hm _ ih =>
      simp only [given, List.filterMap_cons, hm.1.find?_eq hslots] at ih ⊢
      rw [ih]
  have hnone : given slots added = [] := by
    rw [given, List.filterMap_eq_nil_iff]
    intro m hm
    rw [(hadded m hm).find?_eq_none hslots]
    rfl
  have hgiven := hperm.filterMap fun m => (slots.find? (·.accepts m.1)).map Slot.name
  rw [List.filterMap_append] at hgiven
  change (given slots ms').Perm (given slots renamed ++ given slots added) at hgiven
  rwa [hsame, hnone, List.append_nil] at hgiven

/-- At most one member is for a field if no field is given twice. -/
theorem length_filter_accepts_le {slot : Slot} (hslots : w.Covers slots) (hmem : slot ∈ slots)
    (hnodup : (given slots ms).Nodup) : (ms.filter (slot.accepts ·.1)).length ≤ 1 := by
  by_contra hlt
  obtain ⟨a, b, rest, hchosen⟩ : ∃ a b rest, ms.filter (slot.accepts ·.1) = a :: b :: rest := by
    generalize ms.filter (slot.accepts ·.1) = chosen at hlt ⊢
    obtain _ | ⟨a, _ | ⟨b, rest⟩⟩ := chosen
    · simp at hlt
    · simp at hlt
    · exact ⟨a, b, rest, rfl⟩
  have haccepts : ∀ m ∈ a :: b :: rest, slot.accepts m.1 = true := by
    intro m hm
    rw [← hchosen] at hm
    exact (List.mem_filter.mp hm).2
  have ha := haccepts a (by simp)
  have hb := haccepts b (by simp)
  have hsame : w.Same a.1 b.1 :=
    .inr ⟨slot.names, hslots slot hmem, Slot.accepts_iff.mp ha, Slot.accepts_iff.mp hb⟩
  obtain ⟨first, hfirst⟩ : ∃ first, slots.find? (·.accepts a.1) = some first := by
    rw [← Option.isSome_iff_exists, List.find?_isSome]
    exact ⟨slot, hmem, ha⟩
  have hsub : (given slots (ms.filter (slot.accepts ·.1))).Sublist (given slots ms) :=
    List.filter_sublist.filterMap _
  have htwice : given slots (a :: b :: rest) = first.name :: first.name :: given slots rest := by
    simp only [given, List.filterMap_cons, ← hsame.find?_eq hslots, hfirst, Option.map_some]
  rw [hchosen, htwice] at hsub
  have hnodup := hsub.nodup hnodup
  simp at hnodup

theorem Restated.checkMembers_eq_ok (h : Restated w R ms ms') (hslots : w.Covers slots)
    (hread : ∀ slot ∈ slots, slot.Respects R) (hok : checkMembers slots [] ms = .ok ()) :
    checkMembers slots [] ms' = .ok () := by
  rw [checkMembers_eq_ok_iff] at hok ⊢
  obtain ⟨hall, hnodup, -⟩ := hok
  refine ⟨?_, (h.given_perm hslots).nodup_iff.mpr hnodup, by simp⟩
  intro m' hm' slot hslot
  obtain ⟨renamed, added, hrenamed, hadded, hperm⟩ := h
  obtain hm' | hm' := List.mem_append.mp (hperm.mem_iff.mp hm')
  · obtain ⟨m, hm, hsame, hv⟩ := hrenamed.flip.exists_of_mem_left hm'
    rw [← hsame.find?_eq hslots] at hslot
    have hmem := List.mem_of_find?_eq_some hslot
    have haccepts := List.find?_some hslot
    exact hread slot hmem m.1 (Slot.accepts_iff.mp haccepts) m.2 m'.2 hv () (hall m hm slot hslot)
  · rw [(hadded m' hm').find?_eq_none hslots] at hslot
    cases hslot

theorem Restated.alike (h : Restated w R ms ms') (hslots : w.Covers slots)
    (hok : checkMembers slots [] ms = .ok ()) : Alike R slots ms ms' := by
  intro slot hslot
  have hone := length_filter_accepts_le hslots hslot (checkMembers_eq_ok_iff.mp hok).2.1
  exact h.find? (hslots slot hslot) (fun key => Slot.accepts_iff) hone

theorem RestatedItems.checkItems_eq_ok {items items' : List Json}
    (h : RestatedItems R slots items items') (hread : ∀ slot ∈ slots, slot.Respects R)
    {expected : String} {i : Nat} (hok : checkItems expected i slots items = .ok ()) :
    checkItems expected i slots items' = .ok () := by
  induction h generalizing i with
  | nil => exact hok
  | @cons slot slots v v' items items' hv _ ih =>
    rw [List.forall_mem_cons] at hread
    obtain ⟨⟨⟩, hcheck, hok⟩ := Except.bind_eq_ok_iff.mp hok
    have hcheck' := hread.1 slot.name List.mem_cons_self v v' hv () hcheck
    exact Except.bind_eq_ok_iff.mpr ⟨(), hcheck', ih hread.2 hok⟩

theorem RestatedItems.forall₂_zip {items items' : List Json}
    (h : RestatedItems R slots items items') :
    List.Forall₂ (fun m m' => m.1 = m'.1 ∧ R m.1 m.2 m'.2)
      ((slots.map Slot.name).zip items) ((slots.map Slot.name).zip items') := by
  induction h with
  | nil => simp
  | cons hv _ ih => exact .cons ⟨rfl, hv⟩ ih

theorem RestatedItems.alike {items items' : List Json} (h : RestatedItems R slots items items') :
    Alike R slots ((slots.map Slot.name).zip items) ((slots.map Slot.name).zip items') := by
  intro slot _
  have hzip := h.forall₂_zip
  generalize (slots.map Slot.name).zip items = ms at hzip ⊢
  generalize (slots.map Slot.name).zip items' = ms' at hzip ⊢
  induction hzip with
  | nil => exact .none
  | @cons m m' ms ms' hm _ ih =>
    simp only [List.find?_cons, ← hm.1]
    cases slot.accepts m.1 with
    | false => exact ih
    | true => exact .some hm.2

/-- Records are read alike if their fields are. -/
theorem RestatedRecord.bind_members {α : Type} {v v' : Json} {name : String}
    {f g : Members → Except Fault α} (h : RestatedRecord w R slots v v') (hslots : w.Covers slots)
    (hread : ∀ slot ∈ slots, slot.Respects R)
    (hfg : ∀ ms ms', Alike R slots ms ms' → YieldsAlso (f ms) (g ms')) :
    YieldsAlso (members name slots v >>= f) (members name slots v' >>= g) := by
  intro a ha
  obtain ⟨read, hmembers, ha⟩ := Except.bind_eq_ok_iff.mp ha
  rw [Except.bind_eq_ok_iff]
  cases h with
  | @object ms ms' h =>
    obtain ⟨⟨⟩, hok, hread'⟩ := Except.bind_eq_ok_iff.mp hmembers
    obtain rfl := Except.ok.inj hread'
    have hok' := h.checkMembers_eq_ok hslots hread hok
    exact ⟨ms', Except.bind_eq_ok_iff.mpr ⟨(), hok', rfl⟩, hfg _ ms' (h.alike hslots hok) a ha⟩
  | @array items items' h =>
    obtain ⟨⟨⟩, hok, hread'⟩ := Except.bind_eq_ok_iff.mp hmembers
    obtain rfl := Except.ok.inj hread'
    have hok' := h.checkItems_eq_ok hread hok
    exact ⟨_, Except.bind_eq_ok_iff.mpr ⟨(), hok', rfl⟩, hfg _ _ h.alike a ha⟩

end CrossChain.Json
