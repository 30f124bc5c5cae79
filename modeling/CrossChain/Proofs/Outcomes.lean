import Mathlib
/-! Outcomes of computations that may fail. One that succeeds has made each of its steps; one that
fails has failed in one of them. -/
theorem List.Forall₂.exists_of_mem_left {α β : Type} {R : α → β → Prop} {as : List α} {bs : List β}
    (h : Forall₂ R as bs) {a : α} (ha : a ∈ as) : ∃ b ∈ bs, R a b := by
  induction h with
  | nil => simp at ha
  | @cons c b _ _ hcb _ ih =>
    rcases List.mem_cons.mp ha with rfl | ha
    · exact ⟨b, by simp, hcb⟩
    · obtain ⟨b', hb', hab'⟩ := ih ha
      exact ⟨b', List.mem_cons_of_mem b hb', hab'⟩

namespace CrossChain

theorem Except.bind_eq_ok_iff {ε α β : Type} {x : Except ε α} {f : α → Except ε β} {b : β} :
    x >>= f = .ok b ↔ ∃ a, x = .ok a ∧ f a = .ok b := by
  cases x with
  | error e => simp [bind, Except.bind]
  | ok a => simp [bind, Except.bind]

theorem Except.bind_eq_error_iff {ε α β : Type} {x : Except ε α} {f : α → Except ε β} {e : ε} :
    x >>= f = .error e ↔ x = .error e ∨ ∃ a, x = .ok a ∧ f a = .error e := by
  cases x with
  | error e' => simp [bind, Except.bind]
  | ok a => simp [bind, Except.bind]

/-- A computation gets past a check if the check does not stop it. -/
theorem Except.guard_eq_ok_iff {ε α : Type} {c : Prop} [Decidable c] {e : ε}
    {next : PUnit → Except ε α} {a : α} :
    (if c then throw e >>= next else next ⟨⟩) = .ok a ↔ ¬ c ∧ next ⟨⟩ = .ok a := by
  split
  next hc => exact iff_of_false nofun fun h => h.1 hc
  next hc => exact (and_iff_right hc).symm

theorem Except.map_eq_ok_iff {ε α β : Type} {x : Except ε α} {f : α → β} {b : β} :
    f <$> x = .ok b ↔ ∃ a, x = .ok a ∧ f a = b := by
  cases x with
  | error e => simp [Functor.map, Except.map]
  | ok a => simp [Functor.map, Except.map]

theorem Except.mapError_eq_ok_iff {ε ε' α : Type} {x : Except ε α} {f : ε → ε'} {a : α} :
    x.mapError f = .ok a ↔ x = .ok a := by
  cases x with
  | error e => simp [Except.mapError]
  | ok b => simp [Except.mapError]

theorem Except.exists_error_iff {ε α : Type} {x : Except ε α} :
    (∃ e, x = .error e) ↔ ∀ a, x ≠ .ok a := by
  cases x with
  | error e => simp
  | ok a => simp

theorem exists_forall₂_iff {α β : Type} {R : α → β → Prop} {as : List α} :
    (∃ bs, List.Forall₂ R as bs) ↔ ∀ a ∈ as, ∃ b, R a b := by
  induction as with
  | nil => simp
  | cons a as ih =>
    simp only [List.forall_mem_cons, List.forall₂_cons_left_iff, ← ih]
    constructor
    · rintro ⟨_, b, bs, hb, hbs, -⟩
      exact ⟨⟨b, hb⟩, bs, hbs⟩
    · rintro ⟨⟨b, hb⟩, bs, hbs⟩
      exact ⟨b :: bs, b, bs, hb, hbs, rfl⟩

theorem Option.mapM_eq_some_iff {α β : Type} {f : α → Option β} {as : List α} {bs : List β} :
    as.mapM f = some bs ↔ List.Forall₂ (fun a b => f a = some b) as bs := by
  induction as generalizing bs with
  | nil =>
    rw [List.mapM_nil, List.forall₂_nil_left_iff]
    exact ⟨fun h => (Option.some.inj h).symm, fun h => h ▸ rfl⟩
  | cons a as ih =>
    simp only [List.mapM_cons, Option.bind_eq_bind, Option.bind_eq_some_iff,
      List.forall₂_cons_left_iff, ih]
    constructor
    · rintro ⟨b, hb, rest, hrest, h⟩
      exact ⟨b, rest, hb, hrest, (Option.some.inj h).symm⟩
    · rintro ⟨b, rest, hb, hrest, rfl⟩
      exact ⟨b, hb, rest, hrest, rfl⟩

theorem Except.mapM_eq_ok_iff {ε α β : Type} {f : α → Except ε β} {as : List α} {bs : List β} :
    as.mapM f = .ok bs ↔ List.Forall₂ (fun a b => f a = .ok b) as bs := by
  induction as generalizing bs with
  | nil =>
    rw [List.mapM_nil, List.forall₂_nil_left_iff]
    exact ⟨fun h => (Except.ok.inj h).symm, fun h => h ▸ rfl⟩
  | cons a as ih =>
    simp only [List.mapM_cons, Except.bind_eq_ok_iff, List.forall₂_cons_left_iff, ih]
    constructor
    · rintro ⟨b, hb, rest, hrest, h⟩
      exact ⟨b, rest, hb, hrest, (Except.ok.inj h).symm⟩
    · rintro ⟨b, rest, hb, hrest, rfl⟩
      exact ⟨b, hb, rest, hrest, rfl⟩

theorem Except.exists_of_mapM_eq_error {ε α β : Type} {f : α → Except ε β} {as : List α} {e : ε}
    (h : as.mapM f = .error e) : ∃ a ∈ as, f a = .error e := by
  induction as with
  | nil => cases h
  | cons a as ih =>
    rw [List.mapM_cons] at h
    obtain ha | ⟨b, -, h⟩ := Except.bind_eq_error_iff.mp h
    · exact ⟨a, by simp, ha⟩
    obtain hrest | ⟨bs, -, h⟩ := Except.bind_eq_error_iff.mp h
    · obtain ⟨a', ha', hfail⟩ := ih hrest
      exact ⟨a', List.mem_cons_of_mem a ha', hfail⟩
    · cases h

theorem Except.exists_mapM {ε α β : Type} {f : α → Except ε β} {as : List α}
    (h : ∀ a ∈ as, ∃ b, f a = .ok b) : ∃ bs, as.mapM f = .ok bs := by
  simp only [Except.mapM_eq_ok_iff]
  exact exists_forall₂_iff.mpr h

/-- Every way in which the computation fails has the property. -/
def FailsOnly {ε α : Type} (P : ε → Prop) (x : Except ε α) : Prop :=
  ∀ e, x = .error e → P e

namespace FailsOnly

variable {ε α β : Type} {P : ε → Prop} {x : Except ε α} {f : α → Except ε β}

theorem ok (a : α) : FailsOnly P (.ok a) := fun _ h => nomatch h

theorem error {e : ε} (h : P e) : FailsOnly P (.error e : Except ε α) := by
  rintro _ ⟨⟩
  exact h

theorem bind (hx : FailsOnly P x) (hf : ∀ a, x = .ok a → FailsOnly P (f a)) :
    FailsOnly P (x >>= f) := by
  cases x with
  | error e => exact error (hx e rfl)
  | ok a => exact hf a rfl

theorem map (hx : FailsOnly P x) (g : α → β) : FailsOnly P (g <$> x) := by
  cases x with
  | error e => exact error (hx e rfl)
  | ok a => exact ok (g a)

theorem mapM (hf : ∀ a, FailsOnly P (f a)) (as : List α) : FailsOnly P (as.mapM f) := by
  intro e h
  obtain ⟨a, -, ha⟩ := Except.exists_of_mapM_eq_error h
  exact hf a e ha

end FailsOnly

/-- Every value that the computation yields has the property. -/
def YieldsOnly {ε α : Type} (P : α → Prop) (x : Except ε α) : Prop :=
  ∀ a, x = .ok a → P a

namespace YieldsOnly

variable {ε ε' α β : Type} {P : α → Prop} {Q : β → Prop} {x : Except ε α} {f : α → Except ε β}

theorem ok {a : α} (h : P a) : YieldsOnly P (.ok a : Except ε α) := by
  rintro _ ⟨⟩
  exact h

theorem error (e : ε) : YieldsOnly P (.error e) := fun _ h => nomatch h

/-- Whatever the first step yields, the last one decides. -/
theorem of_next (hf : ∀ a, YieldsOnly Q (f a)) : YieldsOnly Q (x >>= f) := by
  cases x with
  | error e => exact error e
  | ok a => exact hf a

/-- A check that may fail does not touch the value. -/
theorem guard {c : Prop} [Decidable c] {e : ε} {next : PUnit → Except ε β}
    (h : YieldsOnly Q (next ⟨⟩)) : YieldsOnly Q (if c then throw e >>= next else next ⟨⟩) := by
  split
  next => exact error e
  next => exact h

theorem mapError (hx : YieldsOnly P x) (g : ε → ε') : YieldsOnly P (x.mapError g) := by
  cases x with
  | error e => exact error (g e)
  | ok a => exact ok (hx a rfl)

theorem map {g : α → β} (hx : YieldsOnly (fun a => Q (g a)) x) : YieldsOnly Q (x.map g) := by
  cases x with
  | error e => exact error e
  | ok a => exact ok (hx a rfl)

theorem mapM (hf : ∀ a, YieldsOnly Q (f a)) (as : List α) :
    YieldsOnly (fun bs => ∀ b ∈ bs, Q b) (as.mapM f) := by
  intro bs h
  have hall := Except.mapM_eq_ok_iff.mp h
  clear h
  induction hall with
  | nil => simp
  | cons hab _ ih => exact List.forall_mem_cons.mpr ⟨hf _ _ hab, ih⟩

end YieldsOnly

/-- Whatever the first computation yields, the second one yields too. -/
def YieldsAlso {ε ε' α : Type} (x : Except ε α) (y : Except ε' α) : Prop :=
  ∀ a, x = .ok a → y = .ok a

namespace YieldsAlso

variable {ε ε' δ δ' α β : Type} {x : Except ε α} {y : Except ε' α}

theorem refl (x : Except ε α) : YieldsAlso x x := fun _ h => h

theorem ok (a : α) : YieldsAlso (.ok a : Except ε α) (.ok a : Except ε' α) := by
  rintro _ ⟨⟩
  rfl

theorem bind {f : α → Except ε β} {g : α → Except ε' β} (h : YieldsAlso x y)
    (hfg : ∀ a, YieldsAlso (f a) (g a)) : YieldsAlso (x >>= f) (y >>= g) := by
  intro b hb
  obtain ⟨a, ha, hb⟩ := Except.bind_eq_ok_iff.mp hb
  exact Except.bind_eq_ok_iff.mpr ⟨a, h a ha, hfg a b hb⟩

/-- A check stops both or neither. -/
theorem guard {c : Prop} [Decidable c] {e : ε} {e' : ε'} {next : PUnit → Except ε α}
    {next' : PUnit → Except ε' α} (h : YieldsAlso (next ⟨⟩) (next' ⟨⟩)) :
    YieldsAlso (if c then throw e >>= next else next ⟨⟩)
      (if c then throw e' >>= next' else next' ⟨⟩) := by
  intro a ha
  obtain ⟨hc, ha⟩ := Except.guard_eq_ok_iff.mp ha
  exact Except.guard_eq_ok_iff.mpr ⟨hc, h a ha⟩

theorem map {f : α → β} (h : YieldsAlso x y) : YieldsAlso (x.map f) (y.map f) := by
  intro b hb
  obtain ⟨a, ha, hb⟩ := Except.map_eq_ok_iff.mp hb
  exact Except.map_eq_ok_iff.mpr ⟨a, h a ha, hb⟩

theorem mapError {f : ε → δ} {g : ε' → δ'} (h : YieldsAlso x y) :
    YieldsAlso (x.mapError f) (y.mapError g) := by
  intro a ha
  exact Except.mapError_eq_ok_iff.mpr (h a (Except.mapError_eq_ok_iff.mp ha))

theorem mapM {R : α → α → Prop} {f : α → Except ε β} {g : α → Except ε' β}
    (hfg : ∀ a a', R a a' → YieldsAlso (f a) (g a')) {as as' : List α}
    (h : List.Forall₂ R as as') : YieldsAlso (as.mapM f) (as'.mapM g) := by
  induction h with
  | nil => exact ok []
  | cons haa' _ ih =>
    rw [List.mapM_cons, List.mapM_cons]
    exact (hfg _ _ haa').bind fun b => ih.bind fun bs => ok (b :: bs)

end YieldsAlso

end CrossChain
