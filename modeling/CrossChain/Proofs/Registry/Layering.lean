import CrossChain.Proofs.Registry.Lookup
/-! Chains laid over those of a registry. Of the old chains just those give way whose selectors are
declared anew, with their names; the others hold on to theirs. Environment variables lay the chains
that they declare over the built-in ones. -/
namespace CrossChain

theorem Family.parse_eq_ok_iff {s : String} {f : Family} :
    parse s = .ok f ↔ ofName? s = some f := by
  unfold parse
  split <;> simp_all

namespace Registry

variable {r layered : Registry} {extra : List Chain} {env : Environment} {i count : Nat} {c : Chain}

/-- What chains must meet to be laid over a registry. -/
structure Fits (r : Registry) (extra : List Chain) : Prop where
  selectors_nodup : (extra.map Chain.selector).Nodup
  names_nodup : ((r.kept extra ++ extra).map Chain.name).Nodup
  names_nonempty : ∀ c ∈ r.kept extra ++ extra, c.name ≠ ""

theorem mem_kept_iff :
    c ∈ r.kept extra ↔ c ∈ r.chains ∧ c.selector ∉ extra.map Chain.selector := by
  simp [kept]

theorem valid_kept_append_iff : Valid (r.kept extra ++ extra) ↔ r.Fits extra := by
  constructor
  · rintro ⟨hnonempty, hselectors, hnames⟩
    rw [List.map_append, List.nodup_append] at hselectors
    exact ⟨hselectors.2.1, hnames, hnonempty⟩
  · rintro ⟨hselectors, hnames, hnonempty⟩
    refine ⟨hnonempty, ?_, hnames⟩
    have hkept : ((r.kept extra).map Chain.selector).Nodup :=
      r.valid.selectors_nodup.sublist (List.filter_sublist.map _)
    rw [List.map_append, List.nodup_append']
    refine ⟨hkept, hselectors, fun s hs => ?_⟩
    obtain ⟨c, hc, rfl⟩ := List.mem_map.mp hs
    exact (mem_kept_iff.mp hc).2

theorem exists_withChains_iff : (∃ layered, r.withChains extra = .ok layered) ↔ r.Fits extra := by
  rw [withChains_eq, exists_ofChains_iff, valid_kept_append_iff]

/-- A look-up sees the new chain with a selector, or else the old one. -/
theorem get?_of_withChains (h : r.withChains extra = .ok layered) (s : UInt64) :
    layered.get? s = (extra.find? (·.selector = s)).or (r.get? s) := by
  have hlayered := (indexed_of_withChains h).get?_eq_some_iff s
  cases hfind : extra.find? (·.selector = s) with
  | some c =>
    rw [Option.some_or, hlayered]
    have hs : c.selector = s := by simpa using List.find?_some hfind
    exact ⟨List.mem_append_right _ (List.mem_of_find?_eq_some hfind), hs⟩
  | none =>
    have hnew : ∀ c ∈ extra, c.selector ≠ s := by simpa using List.find?_eq_none.mp hfind
    rw [Option.none_or]
    refine Option.ext fun c => ?_
    rw [hlayered, (indexed r).get?_eq_some_iff, List.mem_append, mem_kept_iff, List.mem_map]
    constructor
    · rintro ⟨⟨hc, -⟩ | hc, hs⟩
      · exact ⟨hc, hs⟩
      · exact absurd hs (hnew c hc)
    · rintro ⟨hc, rfl⟩
      exact ⟨.inl ⟨hc, fun ⟨e, he, hs⟩ => hnew e he hs⟩, rfl⟩

/-- A chain that has given way takes its name with it. -/
theorem byName?_of_withChains (h : r.withChains extra = .ok layered) (hc : c ∈ r.chains)
    (hgone : c.selector ∈ extra.map Chain.selector) (hfree : c.name ∉ extra.map Chain.name) :
    layered.byName? c.name = none := by
  refine Option.eq_none_iff_forall_ne_some.mpr fun d hd => ?_
  obtain ⟨hd, hname⟩ := ((indexed_of_withChains h).byName?_eq_some_iff _ _).mp hd
  obtain hd | hd := List.mem_append.mp hd
  · obtain ⟨hd, hstays⟩ := mem_kept_iff.mp hd
    obtain rfl := List.inj_on_of_nodup_map r.valid.names_nodup hd hc hname
    exact hstays hgone
  · exact hfree (hname ▸ List.mem_map_of_mem hd)

/-- What the variables with a number say of a chain. -/
structure Declares (env : Environment) (i : Nat) (c : Chain) : Prop where
  selector : ∃ s, env (variableName i "SELECTOR") = some s ∧
    Numeral.uint64? s.trimmed = some c.selector
  family : ∃ s, env (variableName i "FAMILY") = some s ∧ Family.ofName? s = some c.family
  name : c.name = (env (variableName i "NAME")).getD ("chain_" ++ toString i)
  testnet : c.testnet ↔ ∃ s, env (variableName i "TESTNET") = some s ∧ s.trimmed = "true"

theorem lookupRequired_eq_ok_iff {name s : String} :
    lookupRequired env name = .ok s ↔ env name = some s := by
  unfold lookupRequired
  split <;> simp_all

theorem declaredChain_eq_ok_iff : declaredChain env i = .ok c ↔ Declares env i c := by
  have htest : ((env (variableName i "TESTNET")).any (·.trimmed == "true")) = true ↔
      ∃ s, env (variableName i "TESTNET") = some s ∧ s.trimmed = "true" := by
    simp [Option.any_eq_true]
  simp only [declaredChain, Except.bind_eq_ok_iff, lookupRequired_eq_ok_iff]
  constructor
  · rintro ⟨s, hs, h⟩
    split at h
    next n hn =>
      simp only [pure_bind, Except.bind_eq_ok_iff, lookupRequired_eq_ok_iff,
        Except.mapError_eq_ok_iff, Family.parse_eq_ok_iff] at h
      obtain ⟨t, ht, f, hf, h⟩ := h
      obtain rfl := Except.ok.inj h
      exact ⟨⟨s, hs, hn⟩, ⟨t, ht, hf⟩, rfl, htest⟩
    next => cases h
  · rintro ⟨⟨s, hs, hn⟩, ⟨t, ht, hf⟩, hname, htestnet⟩
    refine ⟨s, hs, ?_⟩
    simp only [hn, pure_bind, Except.bind_eq_ok_iff, lookupRequired_eq_ok_iff,
      Except.mapError_eq_ok_iff, Family.parse_eq_ok_iff]
    refine ⟨t, ht, c.family, hf, ?_⟩
    rw [← hname, Bool.eq_iff_iff.mpr (htest.trans htestnet.symm)]
    rfl

theorem declaredChains_eq_ok_iff : declaredChains env i count = .ok extra ↔
    List.Forall₂ (Declares env) (List.range' i count) extra := by
  induction count generalizing i extra with
  | zero =>
    rw [List.range'_zero, List.forall₂_nil_left_iff]
    exact ⟨fun h => (Except.ok.inj h).symm, fun h => h ▸ rfl⟩
  | succ count ih =>
    simp only [declaredChains, List.range'_succ, Except.bind_eq_ok_iff, declaredChain_eq_ok_iff,
      List.forall₂_cons_left_iff, ih]
    constructor
    · rintro ⟨c, hc, rest, hrest, h⟩
      exact ⟨c, rest, hc, hrest, (Except.ok.inj h).symm⟩
    · rintro ⟨c, rest, hc, hrest, rfl⟩
      exact ⟨c, hc, rest, hrest, rfl⟩

/-- Which chains a registry has after others are laid over it, and from which variables one is
made. -/
theorem layered_and_declared :
    (∀ (r : Registry) extra, ((∃ layered, r.withChains extra = .ok layered) ↔ r.Fits extra) ∧
      ∀ layered, r.withChains extra = .ok layered →
        (∀ s, layered.get? s = (extra.find? (·.selector = s)).or (r.get? s)) ∧
        ∀ c ∈ r.chains, c.selector ∈ extra.map Chain.selector → c.name ∉ extra.map Chain.name →
          layered.byName? c.name = none) ∧
    ∀ env count, Counted env count → ∀ r, ofEnvironment env = .ok r ↔
      ∃ extra, List.Forall₂ (Declares env) (List.range' 1 count) extra ∧
        builtin.withChains extra = .ok r := by
  refine ⟨fun r extra => ⟨exists_withChains_iff, fun layered h => ⟨get?_of_withChains h, ?_⟩⟩, ?_⟩
  · exact fun c => byName?_of_withChains h
  · intro env count hcount r
    simp only [ofEnvironment_of_counted hcount, declaredChains_eq_ok_iff]

/-- Two chains, of which one has no name of its own and the other takes the place of a built-in
one. -/
def forkEnvironment : Environment := fun name =>
  [("CCIP_CHAINS_COUNT", "2"), ("CCIP_CHAIN_1_SELECTOR", "777"), ("CCIP_CHAIN_1_FAMILY", "sui"),
    ("CCIP_CHAIN_2_SELECTOR", "5009297550715157269"), ("CCIP_CHAIN_2_FAMILY", "evm"),
    ("CCIP_CHAIN_2_NAME", "mainnet-fork"), ("CCIP_CHAIN_2_TESTNET", "true")].lookup name

def unnamedChain : Chain := ⟨777, .sui, "chain_1", false⟩

def mainnetFork : Chain := ⟨5009297550715157269, .evm, "mainnet-fork", true⟩

theorem counted_forkEnvironment : Counted forkEnvironment 2 := ⟨"2", rfl, by decide +kernel⟩

theorem declaredChains_forkEnvironment :
    declaredChains forkEnvironment 1 2 = .ok [unnamedChain, mainnetFork] := by decide +kernel

theorem fork_takes_the_place_of_mainnet :
    Counted forkEnvironment 2 ∧ ∃ r, ofEnvironment forkEnvironment = .ok r ∧
      r.get? 777 = some unnamedChain ∧ r.get? 5009297550715157269 = some mainnetFork ∧
      r.get? 124615329519749607 = builtin.get? 124615329519749607 ∧
      r.byName? "ethereum-mainnet" = none := by
  obtain ⟨hlayer, hdeclared⟩ := layered_and_declared
  obtain ⟨r, hr⟩ := (hlayer builtin [unnamedChain, mainnetFork]).1.mpr
    ⟨by decide, by decide, by decide⟩
  obtain ⟨hget, hgone⟩ := (hlayer builtin [unnamedChain, mainnetFork]).2 r hr
  refine ⟨counted_forkEnvironment, r, ?_, hget 777, hget 5009297550715157269,
    hget 124615329519749607, ?_⟩
  · exact (hdeclared _ 2 counted_forkEnvironment r).mpr
      ⟨_, declaredChains_eq_ok_iff.mp declaredChains_forkEnvironment, hr⟩
  · exact hgone ⟨5009297550715157269, .evm, "ethereum-mainnet", false⟩ (by decide) (by decide)
      (by decide)

/-- The name of a chain that gives way can be used again, that of a chain that stays cannot. -/
example : builtin.Fits [⟨5009297550715157269, .evm, "ethereum-mainnet", true⟩] ∧
    ¬ builtin.Fits [⟨777, .evm, "ethereum-mainnet", true⟩] :=
  ⟨⟨by decide, by decide, by decide⟩, fun h => absurd h.names_nodup (by decide)⟩

end Registry

end CrossChain
