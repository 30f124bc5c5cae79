import CrossChain.Proofs.Outcomes
import CrossChain.Registry.Environment
import CrossChain.Registry.Text
/-! Registries and the lists they are made of. Whatever makes a registry, its look-ups find the
chains of its list and nothing else; and a list makes one exactly if no look-up could be in
doubt. -/
namespace CrossChain.Registry

/-- A registry of just these chains, each of which is found by its selector and by its name. -/
structure Indexed (chains : List Chain) (r : Registry) : Prop where
  chains_eq : r.chains = chains
  valid : Valid chains
  get?_eq_some_iff : ∀ s c, r.get? s = some c ↔ c ∈ chains ∧ c.selector = s
  byName?_eq_some_iff : ∀ n c, r.byName? n = some c ↔ c ∈ chains ∧ c.name = n

theorem indexed (r : Registry) : Indexed r.chains r where
  chains_eq := rfl
  valid := r.valid
  get?_eq_some_iff _ _ := Index.find?_eq_some_iff r.points.selectors
  byName?_eq_some_iff _ _ := Index.find?_eq_some_iff r.points.names

theorem ofChains_eq_ok_iff {chains : List Chain} {r : Registry} :
    ofChains chains = .ok r ↔
      Valid chains ∧ r.chains = chains ∧ r.indexes = Indexes.ofChains chains := by
  unfold ofChains
  split
  next ix hix =>
    obtain ⟨hvalid, rfl⟩ := Indexes.enter_empty_eq_ok_iff.mp hix
    obtain ⟨rchains, rix, -, -⟩ := r
    simp [hvalid, eq_comm]
  next fault hfault =>
    refine iff_of_false nofun fun h => ?_
    rw [Indexes.enter_empty_eq_ok_iff.mpr ⟨h.1, rfl⟩] at hfault
    cases hfault

theorem exists_ofChains_iff {chains : List Chain} :
    (∃ r, ofChains chains = .ok r) ↔ Valid chains := by
  constructor
  · rintro ⟨r, h⟩
    exact (ofChains_eq_ok_iff.mp h).1
  · exact fun h => ⟨⟨chains, .ofChains chains, h, Indexes.points_ofChains h⟩,
      ofChains_eq_ok_iff.mpr ⟨h, rfl, rfl⟩⟩

theorem indexed_of_ofChains {chains : List Chain} {r : Registry} (h : ofChains chains = .ok r) :
    Indexed chains r := by
  obtain ⟨-, rfl, -⟩ := ofChains_eq_ok_iff.mp h
  exact indexed r

/-- The chains that do not give way to others. -/
def kept (r : Registry) (extra : List Chain) : List Chain :=
  r.chains.filter fun c => c.selector ∉ extra.map Chain.selector

theorem withChains_eq (r : Registry) (extra : List Chain) :
    r.withChains extra = ofChains (r.kept extra ++ extra) := by
  have hsame : ∀ c : Chain, (!extra.any (·.selector = c.selector)) =
      decide (c.selector ∉ extra.map Chain.selector) := by
    intro c
    rw [Bool.eq_iff_iff]
    simp
  simp only [withChains, kept, hsame]

theorem indexed_of_withChains {base r : Registry} {extra : List Chain}
    (h : base.withChains extra = .ok r) : Indexed (base.kept extra ++ extra) r :=
  indexed_of_ofChains (withChains_eq base extra ▸ h)

theorem parse_eq_ok_iff {text : String} {r : Registry} :
    parse text = .ok r ↔ ∃ chains, chains? text = some chains ∧ ofChains chains = .ok r := by
  unfold parse
  split
  next chains hchains => simp [hchains]
  next hnone => simp [hnone]

/-- The number of chains that the variables are to declare. -/
def Counted (env : Environment) (count : Nat) : Prop :=
  ∃ s, env "CCIP_CHAINS_COUNT" = some s ∧
    Numeral.natural? UInt64.size s.trimmed.toList = some count

theorem Counted.unique {env : Environment} {m n : Nat} (hm : Counted env m) (hn : Counted env n) :
    m = n := by
  obtain ⟨s, hs, hm⟩ := hm
  obtain ⟨t, ht, hn⟩ := hn
  obtain rfl : s = t := Option.some.inj (hs.symm.trans ht)
  exact Option.some.inj (hm.symm.trans hn)

theorem ofEnvironment_of_counted {env : Environment} {count : Nat} (h : Counted env count)
    {r : Registry} : ofEnvironment env = .ok r ↔
      ∃ extra, declaredChains env 1 count = .ok extra ∧ builtin.withChains extra = .ok r := by
  obtain ⟨s, hs, hcount⟩ := h
  simp only [ofEnvironment, hs, hcount, Except.bind_eq_ok_iff, Except.mapError_eq_ok_iff]

/-- Without a count there are the built-in chains, with one those that the variables declare over
them. -/
theorem indexed_of_ofEnvironment {env : Environment} {r : Registry}
    (h : ofEnvironment env = .ok r) :
    (env "CCIP_CHAINS_COUNT" = none ∧ Indexed builtinChains r) ∨
      ∃ count extra, Counted env count ∧ declaredChains env 1 count = .ok extra ∧
        Indexed (builtin.kept extra ++ extra) r := by
  cases hs : env "CCIP_CHAINS_COUNT" with
  | none =>
    rw [ofEnvironment, hs] at h
    exact .inl ⟨rfl, Except.ok.inj h ▸ indexed builtin⟩
  | some s =>
    cases hcount : Numeral.natural? UInt64.size s.trimmed.toList with
    | none =>
      rw [ofEnvironment, hs] at h
      simp [hcount] at h
    | some count =>
      have hcounted : Counted env count := ⟨s, hs, hcount⟩
      obtain ⟨extra, hextra, hr⟩ := (ofEnvironment_of_counted hcounted).mp h
      exact .inr ⟨count, extra, hcounted, hextra, indexed_of_withChains hr⟩

/-- From wherever a registry comes, its indexes agree with its chains; and chains make a registry
if and only if no two of them clash and each has a name. -/
theorem indexed_however_made :
    Indexed builtinChains builtin ∧
    (∀ chains r, ofChains chains = .ok r → Indexed chains r) ∧
    (∀ text r, parse text = .ok r → ∃ chains, chains? text = some chains ∧ Indexed chains r) ∧
    (∀ (base : Registry) extra r, base.withChains extra = .ok r →
      Indexed (base.kept extra ++ extra) r) ∧
    (∀ env r, ofEnvironment env = .ok r →
      (env "CCIP_CHAINS_COUNT" = none ∧ Indexed builtinChains r) ∨
      ∃ count extra, Counted env count ∧ declaredChains env 1 count = .ok extra ∧
        Indexed (builtin.kept extra ++ extra) r) ∧
    ∀ chains, (∃ r, ofChains chains = .ok r) ↔ Valid chains := by
  refine ⟨indexed builtin, fun _ _ => indexed_of_ofChains, fun text r h => ?_,
    fun _ _ _ => indexed_of_withChains, fun _ _ => indexed_of_ofEnvironment,
    fun _ => exists_ofChains_iff⟩
  obtain ⟨chains, hchains, hr⟩ := parse_eq_ok_iff.mp h
  exact ⟨chains, hchains, indexed_of_ofChains hr⟩

/-- A chain that is not built in. -/
def localNetwork : Chain := ⟨777, .sui, "local", true⟩

def localText : String := (Json.array [chainJson localNetwork]).render

def localEnvironment : Environment := fun name =>
  [("CCIP_CHAINS_COUNT", "1"), ("CCIP_CHAIN_1_SELECTOR", "777"), ("CCIP_CHAIN_1_FAMILY", "sui"),
    ("CCIP_CHAIN_1_NAME", "local"), ("CCIP_CHAIN_1_TESTNET", "true")].lookup name

theorem chains?_localText : chains? localText = some [localNetwork] := by decide +kernel

theorem declaredChains_localEnvironment :
    declaredChains localEnvironment 1 1 = .ok [localNetwork] := by decide +kernel

theorem counted_localEnvironment : Counted localEnvironment 1 := ⟨"1", rfl, by decide +kernel⟩

/-- A chain that is added to no others, by itself or as text, or to the built-in ones, by itself or
as variables, is found. -/
theorem localNetwork_found_however_made :
    (∃ r, ofChains [localNetwork] = .ok r ∧ r.get? 777 = some localNetwork) ∧
    (∃ r, parse localText = .ok r ∧ r.get? 777 = some localNetwork) ∧
    (∃ r, builtin.withChains [localNetwork] = .ok r ∧ r.get? 777 = some localNetwork) ∧
    ∃ r, ofEnvironment localEnvironment = .ok r ∧ r.get? 777 = some localNetwork := by
  obtain ⟨-, honly, htext, hlayer, henv, hmake⟩ := indexed_however_made
  obtain ⟨r, hr⟩ := (hmake [localNetwork]).mpr ⟨by decide, by decide, by decide⟩
  obtain ⟨r', hr'⟩ := (hmake (builtin.kept [localNetwork] ++ [localNetwork])).mpr
    ⟨by decide, by decide, by decide⟩
  rw [← withChains_eq] at hr'
  have hparse : parse localText = .ok r := parse_eq_ok_iff.mpr ⟨_, chains?_localText, hr⟩
  have hdeclared : ofEnvironment localEnvironment = .ok r' :=
    (ofEnvironment_of_counted counted_localEnvironment).mpr
      ⟨_, declaredChains_localEnvironment, hr'⟩
  refine ⟨⟨r, hr, ?_⟩, ⟨r, hparse, ?_⟩, ⟨r', hr', ?_⟩, r', hdeclared, ?_⟩
  · exact ((honly _ r hr).get?_eq_some_iff _ _).mpr ⟨by simp, rfl⟩
  · obtain ⟨chains, hchains, hindexed⟩ := htext _ r hparse
    obtain rfl := Option.some.inj (chains?_localText.symm.trans hchains)
    exact (hindexed.get?_eq_some_iff _ _).mpr ⟨by simp, rfl⟩
  · exact ((hlayer _ _ r' hr').get?_eq_some_iff _ _).mpr ⟨by simp, rfl⟩
  · obtain ⟨hunset, -⟩ | ⟨count, extra, hcount, hextra, hindexed⟩ := henv _ r' hdeclared
    · cases hunset
    · obtain rfl := counted_localEnvironment.unique hcount
      obtain rfl := Except.ok.inj (declaredChains_localEnvironment.symm.trans hextra)
      exact (hindexed.get?_eq_some_iff _ _).mpr ⟨by simp, rfl⟩

end CrossChain.Registry
