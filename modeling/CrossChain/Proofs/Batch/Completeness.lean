import CrossChain.Proofs.Batch.Soundness
import CrossChain.Proofs.Leaf.Failure
import CrossChain.Proofs.Merkle.Path
/-! When a message of a batch can be proven. The lane must have a scheme, the messages of the lane
must leave no number out and verify, and the message must be one of them. Then the tree over them
has a root, and a root that is expected must be that one. Nothing else can go wrong. -/
namespace CrossChain.Batch

variable {registry : Registry} {lane : Lane} {batch messages : List Message} {target : Bytes32}
  {targets : List Bytes32} {interval : Option Interval} {expectedRoot : Option Bytes32}

/-- The numbers on the lane leave none out between any two of them. -/
def Gapless (lane : Lane) (batch : List Message) : Prop :=
  ∀ a ∈ batch, ∀ b ∈ batch, lane.carries a → lane.carries b →
    ∀ n, a.header.sequenceNumber ≤ n → n ≤ b.header.sequenceNumber →
      ∃ m ∈ batch, lane.carries m ∧ m.header.sequenceNumber = n

/-- All that a proof of one message asks for, but for the root. -/
structure Provable (registry : Registry) (lane : Lane) (batch : List Message)
    (target : Bytes32) : Prop where
  scheme : ∃ s, Scheme.ofLane registry lane = .ok s
  carried : ∃ m ∈ batch, lane.carries m
  gapless : Gapless lane batch
  verified : ∀ n m, first? lane batch n = some m →
    ∃ leaf, (Leaf.verified registry lane m).result = .ok leaf
  wanted : ∃ n m, first? lane batch n = some m ∧ m.header.id = target

/-- The root of the tree over the leaves of the first messages on the lane, by ascending number. -/
def HasRoot (registry : Registry) (lane : Lane) (batch : List Message) (root : Bytes32) : Prop :=
  ∃ i leaves tree, Spans lane batch i ∧
    List.Forall₂ (fun n leaf => ∃ m, first? lane batch n = some m ∧
      (Leaf.verified registry lane m).result = .ok leaf) i.numbers leaves ∧
    (Merkle.Tree.ofLeaves leaves).result = .ok tree ∧ root = tree.root

theorem length_select_of_gapless {i : Interval} (hspans : Spans lane batch i)
    (hgapless : Gapless lane batch) :
    (select lane none batch).length = i.greatest.toNat + 1 - i.least.toNat := by
  -- The numbers of the chosen messages are those of the range, and no number is there twice.
  have hmem : ∀ n, n ∈ (select lane none batch).map (·.header.sequenceNumber.toNat) ↔
      n ∈ List.range' i.least.toNat (i.greatest.toNat + 1 - i.least.toNat) := by
    intro n
    rw [List.mem_map, List.mem_range'_1]
    constructor
    · rintro ⟨m, hm, rfl⟩
      have hspec := first?_spec (mem_select_none.mp hm)
      have := Interval.contains_iff.mp (hspans.contains m hspec.1 hspec.2.1)
      omega
    · intro hn
      obtain ⟨a, ha, hacarries, haleast⟩ := hspans.least
      obtain ⟨b, hb, hbcarries, hbgreatest⟩ := hspans.greatest
      have hlt := i.greatest.toNat_lt
      have htoNat : (UInt64.ofNat n).toNat = n :=
        UInt64.toNat_ofNat_of_lt' (by rw [UInt64.size]; omega)
      obtain ⟨m, hm, hcarries, hnumber⟩ := hgapless a ha b hb hacarries hbcarries (UInt64.ofNat n)
        (by rw [haleast, UInt64.le_iff_toNat_le, htoNat]; exact hn.1)
        (by rw [hbgreatest, UInt64.le_iff_toNat_le, htoNat]; omega)
      obtain ⟨first, hfirst⟩ := exists_first? hm hcarries
      have hsame := (first?_spec hfirst).2.2
      exact ⟨first, mem_select_of_first? hfirst, by rw [hsame, hnumber, htoNat]⟩
  have hnodup : ((select lane none batch).map (·.header.sequenceNumber.toNat)).Nodup :=
    (List.pairwise_map.mpr pairwise_select).imp Nat.ne_of_lt
  have hperm := (List.perm_ext_iff_of_nodup hnodup List.nodup_range').mpr hmem
  simpa using hperm.length_eq

theorem complete_of_gapless (hlength : batch.length < UInt64.size - 1)
    (hcarried : ∃ m ∈ batch, lane.carries m) (hgapless : Gapless lane batch) :
    complete lane none batch = .ok (select lane none batch) := by
  obtain ⟨m, hm, hcarries⟩ := hcarried
  obtain ⟨first, hfirst⟩ := exists_first? hm hcarries
  have hne : select lane none batch ≠ [] :=
    List.ne_nil_of_mem (mem_select_of_first? hfirst)
  obtain ⟨i, hi⟩ : ∃ i, span (select lane none batch) = some i :=
    ⟨_, span_eq_some_iff.mpr ⟨_, _, List.head?_eq_some_head hne, List.getLast?_eq_some_getLast hne,
      rfl⟩⟩
  have hcount := length_select_of_gapless (spans_of_span hi) hgapless
  have hpos := List.length_pos_of_ne_nil hne
  have hshort : (select lane none batch).length < UInt64.size - 1 :=
    Nat.lt_of_le_of_lt length_select_le hlength
  have hsize : (select lane none batch).length = i.size := by
    rw [Interval.size]
    omega
  unfold complete
  simp only [hi, Option.getD_none]
  rw [if_pos hsize]

theorem gapless_of_fills {i : Interval} (hspans : Spans lane batch i)
    (h : Fills lane batch i messages) : Gapless lane batch := by
  intro a ha b hb hacarries hbcarries n hn hn'
  have hleast := Interval.contains_iff.mp (hspans.contains a ha hacarries)
  have hgreatest := Interval.contains_iff.mp (hspans.contains b hb hbcarries)
  rw [UInt64.le_iff_toNat_le] at hn hn'
  obtain ⟨m, hm, hnumber⟩ := h.exists_number (Interval.contains_iff.mpr ⟨hleast.1.trans hn,
    hn'.trans hgreatest.2⟩)
  have hspec := first?_spec (h.first m hm)
  exact ⟨m, hspec.1, hspec.2.1, hnumber⟩

theorem HasRoot.unique {root other : Bytes32} (h : HasRoot registry lane batch root)
    (h' : HasRoot registry lane batch other) : root = other := by
  obtain ⟨i, leaves, tree, hi, hleaves, htree, rfl⟩ := h
  obtain ⟨j, leaves', tree', hj, hleaves', htree', rfl⟩ := h'
  obtain rfl := hi.unique hj
  have hfunctional : Relator.RightUnique fun n leaf => ∃ m, first? lane batch n = some m ∧
      (Leaf.verified registry lane m).result = .ok leaf := by
    rintro n leaf leaf' ⟨m, hm, hleaf⟩ ⟨m', hm', hleaf'⟩
    obtain rfl : m = m' := Option.some.inj (hm.symm.trans hm')
    exact Except.ok.inj (hleaf.symm.trans hleaf')
  obtain rfl := List.right_unique_forall₂' hfunctional hleaves hleaves'
  rw [Except.ok.inj (htree.symm.trans htree')]

theorem position_of_mem {m : Message} (hm : m ∈ messages) :
    ∃ i < messages.length, position messages m.header.id = .ok i := by
  have hsome : (messages.findIdx? (·.header.id = m.header.id)).isSome := by
    rw [List.findIdx?_isSome, List.any_eq_true]
    exact ⟨m, hm, by simp⟩
  obtain ⟨i, hi⟩ := Option.isSome_iff_exists.mp hsome
  obtain ⟨hlt, -⟩ := List.findIdx?_eq_some_iff_getElem.mp hi
  exact ⟨i, hlt, by rw [position, hi]⟩

/-- The tree over the leaves of some messages is what they are committed to by, if nothing else is
expected. -/
theorem commit_result {leaves : List Bytes32} {tree : Merkle.Tree}
    (hleaves : List.Forall₂ (fun m leaf => (Leaf.verified registry lane m).result = .ok leaf)
      messages leaves)
    (htree : (Merkle.Tree.ofLeaves leaves).result = .ok tree) :
    (commit registry lane messages expectedRoot).result =
      match expectedRoot with
      | some expected =>
        if expected = tree.root then .ok tree else .error (.rootMismatch expected tree.root)
      | none => .ok tree := by
  unfold commit
  rw [Hashing.result_bind, Hashing.result_mapM_eq_ok_iff.mpr hleaves]
  change (Merkle.Tree.ofLeaves leaves >>= _).result = _
  rw [Hashing.result_bind, htree]
  change Hashing.result _ = _
  cases expectedRoot with
  | none => rfl
  | some expected =>
    dsimp only
    by_cases h : expected = tree.root
    · rw [if_neg (not_not.mpr h), if_pos h]
      rfl
    · rw [if_pos h, if_neg h]
      rfl

/-- A bundle is made in stages, of which the last ones hash. -/
theorem prove_result : (prove registry lane batch targets interval expectedRoot).result = (do
    let _ ← Scheme.ofLane registry lane
    let messages ← complete lane interval batch
    let known ← positions messages targets
    let tree ← (commit registry lane messages expectedRoot).result
    let proof ← (tree.prove known).result.mapError .badProof
    return ⟨(Ascending.ofList id known).filterMap (messages[·]?), proof, tree.root⟩) := by
  simp only [prove, Hashing.result_bind]
  rfl

theorem prove_result_of_complete {scheme : Scheme}
    (hscheme : Scheme.ofLane registry lane = .ok scheme)
    (hcomplete : complete lane interval batch = .ok messages) :
    (prove registry lane batch targets interval expectedRoot).result = (do
      let known ← positions messages targets
      let tree ← (commit registry lane messages expectedRoot).result
      let proof ← (tree.prove known).result.mapError .badProof
      return ⟨(Ascending.ofList id known).filterMap (messages[·]?), proof, tree.root⟩) := by
  rw [prove_result, hscheme]
  change complete lane interval batch >>= _ = _
  rw [hcomplete]
  rfl

theorem Provable.exists_stages (hlength : batch.length < UInt64.size - 1)
    (h : Provable registry lane batch target) : ∃ messages position leaves tree,
      complete lane none batch = .ok messages ∧
      positions messages [target] = .ok [position] ∧ position < messages.length ∧
      List.Forall₂ (fun m leaf => (Leaf.verified registry lane m).result = .ok leaf)
        messages leaves ∧
      (Merkle.Tree.ofLeaves leaves).result = .ok tree ∧
      HasRoot registry lane batch tree.root := by
  have hcomplete := complete_of_gapless hlength h.carried h.gapless
  obtain ⟨i, hspans, hfills⟩ := fills_of_complete hlength hcomplete
  obtain ⟨n, m, hm, rfl⟩ := h.wanted
  have hmem := mem_select_of_first? hm
  obtain ⟨position, hlt, hposition⟩ := position_of_mem hmem
  obtain ⟨leaves, hleaves⟩ :=
    exists_forall₂_iff.mpr fun a ha => h.verified _ a (hfills.first a ha)
  have hne : leaves ≠ [] := by
    rintro rfl
    rw [List.forall₂_nil_right_iff] at hleaves
    simp [hleaves] at hmem
  obtain ⟨tree, htree, -⟩ := Merkle.Tree.ofLeaves_eq hne
  refine ⟨_, position, leaves, tree, hcomplete, ?_, hlt, hleaves, htree, i, leaves, tree, hspans,
    hfills.committed hleaves, htree, rfl⟩
  simp [positions, hposition]

/-- The proof of one message cannot fail once the batch is committed to. -/
theorem exists_prove_of_commit (hlength : batch.length < UInt64.size - 1) {position : Nat}
    {tree : Merkle.Tree} (hcomplete : complete lane none batch = .ok messages)
    (hlt : position < messages.length)
    (hcommit : (commit registry lane messages expectedRoot).result = .ok tree) :
    ∃ proof, (tree.prove [position]).result = .ok proof := by
  obtain ⟨leaves, hleaves, htree, -⟩ := commit_eq_ok hcommit
  have hsame : tree.leaves.length = messages.length := by
    rw [Merkle.Tree.leaves_of_ofLeaves htree, hleaves.length_eq]
  apply Merkle.Tree.exists_prove_singleton
  · omega
  · rw [hsame, (eq_select_of_complete hcomplete).1]
    exact (length_select_le.trans hlength.le).trans (by decide)

theorem proofless_complete (lane : Lane) (interval : Option Interval) (batch : List Message) :
    Proofless (complete lane interval batch) := by
  unfold complete
  dsimp only
  split
  · exact .error rfl
  · split
    · exact .ok _
    · exact .error rfl

theorem proofless_position (messages : List Message) (id : Bytes32) :
    Proofless (position messages id) := by
  unfold position
  split
  · exact .ok _
  · exact .error rfl

theorem proofless_commit (registry : Registry) (lane : Lane) (messages : List Message)
    (expectedRoot : Option Bytes32) :
    Proofless (commit registry lane messages expectedRoot).result := by
  unfold commit
  rw [Hashing.result_bind, Hashing.result_mapM]
  refine (FailsOnly.mapM (Leaf.proofless_verified registry lane) messages).bind fun leaves _ => ?_
  rw [Hashing.result_bind]
  refine FailsOnly.bind ?_ fun tree _ => ?_
  · unfold Merkle.Tree.ofLeaves
    split
    · exact .error rfl
    · exact .ok _
  · dsimp only
    split
    · split
      · exact .error rfl
      · exact .ok _
    · exact .ok _

/-- Whatever keeps a message from being proven, it is not its proof. -/
theorem proofless_proveOne (hlength : batch.length < UInt64.size - 1) :
    Proofless (proveOne registry lane batch target expectedRoot).result := by
  rw [proveOne, prove_result]
  refine (Scheme.proofless_ofLane registry lane).bind fun _ _ => ?_
  refine (proofless_complete lane none batch).bind fun messages hcomplete => ?_
  refine (FailsOnly.mapM (proofless_position messages) [target]).bind fun known hknown => ?_
  refine (proofless_commit registry lane messages expectedRoot).bind fun tree hcommit => ?_
  obtain ⟨position, rest, ⟨m, hm, -⟩, hrest, rfl⟩ :=
    List.forall₂_cons_left_iff.mp (positions_eq_ok hknown)
  obtain rfl := List.forall₂_nil_left_iff.mp hrest
  obtain ⟨proof, hproof⟩ :=
    exists_prove_of_commit hlength hcomplete (List.getElem?_eq_some_iff.mp hm).1 hcommit
  rw [hproof]
  exact .ok _

theorem provable_of_proveOne {bundle : Bundle} (hlength : batch.length < UInt64.size - 1)
    (h : (proveOne registry lane batch target expectedRoot).result = .ok bundle) :
    Provable registry lane batch target ∧
      ∀ expected, expectedRoot = some expected → HasRoot registry lane batch expected := by
  obtain ⟨s, hs, -⟩ := Hashing.result_bind_eq_ok_iff.mp h
  obtain ⟨messages, known, tree, hcomplete, hknown, hcommit, -⟩ := prove_eq_ok h
  obtain ⟨i, hspans, hfills⟩ := fills_of_complete hlength hcomplete
  obtain ⟨leaves, hleaves, htree, hexpected⟩ := commit_eq_ok hcommit
  obtain ⟨position, rest, ⟨m, hm, hid⟩, -, -⟩ :=
    List.forall₂_cons_left_iff.mp (positions_eq_ok hknown)
  refine ⟨⟨⟨s, hs⟩, ?_, gapless_of_fills hspans hfills, ?_, ?_⟩, fun expected hsome => ?_⟩
  · obtain ⟨a, ha, hcarries, -⟩ := hspans.least
    exact ⟨a, ha, hcarries⟩
  · rintro n a ha
    have hspec := first?_spec ha
    obtain ⟨b, hb, hnumber⟩ := hfills.exists_number (hspans.contains a hspec.1 hspec.2.1)
    have hfirst := hfills.first b hb
    rw [hnumber, hspec.2.2, ha] at hfirst
    obtain rfl := Option.some.inj hfirst
    obtain ⟨leaf, -, hleaf⟩ := hleaves.exists_of_mem_left hb
    exact ⟨leaf, hleaf⟩
  · exact ⟨_, m, hfills.first m (List.mem_of_getElem? hm), hid⟩
  · exact ⟨i, leaves, tree, hspans, hfills.committed hleaves, htree, hexpected expected hsome⟩

theorem Provable.proveOne_result (hlength : batch.length < UInt64.size - 1)
    (h : Provable registry lane batch target) : ∃ root, HasRoot registry lane batch root ∧
      ((∀ expected, expectedRoot = some expected → expected = root) →
        ∃ bundle, (proveOne registry lane batch target expectedRoot).result = .ok bundle) ∧
      ∀ expected, expectedRoot = some expected → expected ≠ root →
        (proveOne registry lane batch target expectedRoot).result =
          .error (.rootMismatch expected root) := by
  obtain ⟨messages, position, leaves, tree, hcomplete, hpositions, hlt, hleaves, htree, hroot⟩ :=
    h.exists_stages hlength
  obtain ⟨s, hs⟩ := h.scheme
  have hresult : (proveOne registry lane batch target expectedRoot).result =
      (commit registry lane messages expectedRoot).result >>= fun tree =>
        (tree.prove [position]).result.mapError .badProof >>= fun proof =>
          .ok ⟨[position].filterMap (messages[·]?), proof, tree.root⟩ := by
    rw [proveOne, prove_result_of_complete hs hcomplete, hpositions]
    rfl
  refine ⟨tree.root, hroot, fun hexpected => ?_, fun expected hsome hne => ?_⟩
  · have hcommit : (commit registry lane messages expectedRoot).result = .ok tree := by
      rw [commit_result hleaves htree]
      cases expectedRoot with
      | none => rfl
      | some expected => exact if_pos (hexpected expected rfl)
    obtain ⟨proof, hproof⟩ := exists_prove_of_commit hlength hcomplete hlt hcommit
    refine ⟨⟨[position].filterMap (messages[·]?), proof, tree.root⟩, ?_⟩
    rw [hresult, Except.bind_eq_ok_iff]
    refine ⟨tree, hcommit, ?_⟩
    rw [hproof]
    rfl
  · subst hsome
    rw [hresult, commit_result hleaves htree]
    dsimp only
    rw [if_neg hne]
    rfl

/-- A message is proven exactly if it can be and the root is the expected one. No failure is one of
the proof, and if only the root is not as expected then both roots are told. -/
theorem proveOne_complete (hlength : batch.length < UInt64.size - 1) :
    ((∃ bundle, (proveOne registry lane batch target expectedRoot).result = .ok bundle) ↔
      Provable registry lane batch target ∧
        ∀ expected, expectedRoot = some expected → HasRoot registry lane batch expected) ∧
    (∀ fault, (proveOne registry lane batch target expectedRoot).result ≠
      .error (.badProof fault)) ∧
    ∀ expected, Provable registry lane batch target → expectedRoot = some expected →
      ¬HasRoot registry lane batch expected → ∃ root, HasRoot registry lane batch root ∧
        (proveOne registry lane batch target expectedRoot).result =
          .error (.rootMismatch expected root) := by
  refine ⟨⟨?only_if, ?if_⟩, ?proofless, ?mismatch⟩
  case only_if =>
    rintro ⟨bundle, hbundle⟩
    exact provable_of_proveOne hlength hbundle
  case if_ =>
    rintro ⟨hprovable, hexpected⟩
    obtain ⟨root, hroot, hok, -⟩ := hprovable.proveOne_result hlength
    exact hok fun expected hsome => (hexpected expected hsome).unique hroot
  case proofless =>
    intro fault h
    cases proofless_proveOne hlength _ h
  case mismatch =>
    intro expected hprovable hsome hother
    obtain ⟨root, hroot, -, hmismatch⟩ := hprovable.proveOne_result hlength
    refine ⟨root, hroot, hmismatch expected hsome ?_⟩
    rintro rfl
    exact hother hroot

theorem first_of_two_provable :
    Provable Registry.builtin Leaf.sampleLane sampleBatch (Leaf.sampleMessage 1).header.id ∧
      HasRoot Registry.builtin Leaf.sampleLane sampleBatch sampleBundle.root := by
  obtain ⟨hprovable, hroot⟩ := (proveOne_complete (by decide)).1.mp ⟨_, proveOne_sampleBatch⟩
  exact ⟨hprovable, hroot _ rfl⟩

end CrossChain.Batch
