import CrossChain.Proofs.Batch.Completeness
/-! What a bundle is asked for is a set of identifiers. In which order they are named, and how
often, changes neither the bundle nor why there is none; only of several identifiers that no message
has the first one is told. -/
namespace CrossChain

theorem Merkle.Tree.prove_eq_of_ofList_eq (t : Tree) {l r : List Nat}
    (h : Ascending.ofList id l = Ascending.ofList id r) : t.prove l = t.prove r := by
  simp only [prove, h]

namespace Batch

variable {messages : List Message} {targets other : List Bytes32} {known known' : List Nat}

theorem position_eq_error_iff {id : Bytes32} {e : Error} :
    position messages id = .error e ↔ (∀ m ∈ messages, m.header.id ≠ id) ∧ e = .notInBatch id := by
  unfold position
  split
  next i hi =>
    obtain ⟨hlt, hid, -⟩ := List.findIdx?_eq_some_iff_getElem.mp hi
    refine iff_of_false nofun fun h => ?_
    exact h.1 messages[i] (List.getElem_mem hlt) (of_decide_eq_true hid)
  next hnone =>
    have habsent : ∀ m ∈ messages, m.header.id ≠ id := by
      simpa using List.findIdx?_eq_none_iff.mp hnone
    rw [Except.error.injEq]
    exact ⟨fun h => ⟨habsent, h.symm⟩, fun h => h.2.symm⟩

theorem mem_of_positions (h : positions messages targets = .ok known) {n : Nat} :
    n ∈ known ↔ ∃ id ∈ targets, position messages id = .ok n := by
  have hall := Except.mapM_eq_ok_iff.mp h
  constructor
  · exact fun hn => hall.flip.exists_of_mem_left hn
  · rintro ⟨id, hid, hn⟩
    obtain ⟨n', hn', hid'⟩ := hall.exists_of_mem_left hid
    rwa [Except.ok.inj (hn.symm.trans hid')]

theorem ofList_eq_of_same_targets (hsame : ∀ id, id ∈ targets ↔ id ∈ other)
    (h : positions messages targets = .ok known) (h' : positions messages other = .ok known') :
    Ascending.ofList id known = Ascending.ofList id known' := by
  refine Ascending.ofList_id_eq_of_mem_iff fun n => ?_
  simp only [mem_of_positions h, mem_of_positions h', hsame]

theorem exists_positions_of_same_targets (hsame : ∀ id, id ∈ targets ↔ id ∈ other)
    (h : positions messages targets = .ok known) :
    ∃ known', positions messages other = .ok known' := by
  refine Except.exists_mapM fun id hid => ?_
  obtain ⟨n, -, hn⟩ :=
    (Except.mapM_eq_ok_iff.mp h).exists_of_mem_left ((hsame id).mpr hid)
  exact ⟨n, hn⟩

/-- If an identifier is missing, then the first missing one of the list is told. -/
theorem positions_eq_error {e : Error} (h : positions messages targets = .error e) :
    ∃ id ∈ targets, (∀ m ∈ messages, m.header.id ≠ id) ∧ e = .notInBatch id := by
  obtain ⟨id, hid, hfail⟩ := Except.exists_of_mapM_eq_error h
  exact ⟨id, hid, position_eq_error_iff.mp hfail⟩

theorem positions_eq_error_of_same_targets {e : Error} (hsame : ∀ id, id ∈ targets ↔ id ∈ other)
    (h : positions messages targets = .error e) :
    ∃ id ∈ targets, ∃ id' ∈ targets,
      (∀ m ∈ messages, m.header.id ≠ id ∧ m.header.id ≠ id') ∧ e = .notInBatch id ∧
      positions messages other = .error (.notInBatch id') := by
  obtain ⟨e', hother⟩ := Except.exists_error_iff.mpr fun known hother => by
    obtain ⟨known', hknown⟩ :=
      exists_positions_of_same_targets (fun id => (hsame id).symm) hother
    cases h.symm.trans hknown
  obtain ⟨id, hid, habsent, rfl⟩ := positions_eq_error h
  obtain ⟨id', hid', habsent', rfl⟩ := positions_eq_error hother
  exact ⟨id, hid, id', (hsame id').mpr hid', fun m hm => ⟨habsent m hm, habsent' m hm⟩, rfl,
    hother⟩

/-- A bundle, or why there is none, depends on the set of the wanted identifiers. The only
exception is which of them is told if no chosen message has it. -/
theorem prove_eq_of_same_targets (registry : Registry) (lane : Lane) (batch : List Message)
    (targets other : List Bytes32) (interval : Option Interval) (expectedRoot : Option Bytes32)
    (hsame : ∀ id, id ∈ targets ↔ id ∈ other) :
    (prove registry lane batch targets interval expectedRoot).result =
        (prove registry lane batch other interval expectedRoot).result ∨
      ∃ id ∈ targets, ∃ id' ∈ targets,
        (∀ m ∈ select lane interval batch, m.header.id ≠ id ∧ m.header.id ≠ id') ∧
        (prove registry lane batch targets interval expectedRoot).result =
          .error (.notInBatch id) ∧
        (prove registry lane batch other interval expectedRoot).result =
          .error (.notInBatch id') := by
  cases hscheme : Scheme.ofLane registry lane with
  | error e =>
    left
    rw [prove_result, prove_result, hscheme]
    rfl
  | ok scheme =>
    cases hcomplete : complete lane interval batch with
    | error e =>
      left
      rw [prove_result, prove_result, hscheme, hcomplete]
      rfl
    | ok messages =>
      obtain rfl := (eq_select_of_complete hcomplete).1
      rw [prove_result_of_complete hscheme hcomplete, prove_result_of_complete hscheme hcomplete]
      cases htargets : positions (select lane interval batch) targets with
      | ok known =>
        obtain ⟨known', hother⟩ := exists_positions_of_same_targets hsame htargets
        have hknown := ofList_eq_of_same_targets hsame htargets hother
        have hproof : ∀ tree : Merkle.Tree, tree.prove known = tree.prove known' :=
          fun tree => tree.prove_eq_of_ofList_eq hknown
        left
        rw [hother]
        change (commit registry lane _ expectedRoot).result >>= _ =
          (commit registry lane _ expectedRoot).result >>= _
        simp only [hknown, hproof]
      | error e =>
        obtain ⟨id, hid, id', hid', habsent, rfl, hother⟩ :=
          positions_eq_error_of_same_targets hsame htargets
        rw [hother]
        exact .inr ⟨id, hid, id', hid', habsent, rfl, rfl⟩

/-- The message that is asked for twice is in the bundle once. -/
theorem repeated_target_proved_once :
    (∀ id, id ∈ [(Leaf.sampleMessage 1).header.id, (Leaf.sampleMessage 1).header.id] ↔
      id ∈ [(Leaf.sampleMessage 1).header.id]) ∧
    (prove Registry.builtin Leaf.sampleLane sampleBatch
      [(Leaf.sampleMessage 1).header.id, (Leaf.sampleMessage 1).header.id] none
      (some sampleBundle.root)).result = .ok sampleBundle := by
  have hsame : ∀ id, id ∈ [(Leaf.sampleMessage 1).header.id, (Leaf.sampleMessage 1).header.id] ↔
      id ∈ [(Leaf.sampleMessage 1).header.id] := by simp
  have honce : (prove Registry.builtin Leaf.sampleLane sampleBatch
      [(Leaf.sampleMessage 1).header.id] none (some sampleBundle.root)).result =
      .ok sampleBundle := proveOne_sampleBatch
  refine ⟨hsame, ?_⟩
  obtain heq | ⟨id, -, id', -, -, -, hfails⟩ := prove_eq_of_same_targets Registry.builtin
    Leaf.sampleLane sampleBatch _ _ none (some sampleBundle.root) hsame
  · rw [heq, honce]
  · cases honce.symm.trans hfails

/-- Two identifiers that no message has, in either order. -/
example :
    (prove Registry.builtin Leaf.sampleLane sampleBatch [.zero, .ofU256 9] none none).result =
      .error (.notInBatch .zero) ∧
    (prove Registry.builtin Leaf.sampleLane sampleBatch [.ofU256 9, .zero] none none).result =
      .error (.notInBatch (.ofU256 9)) := by
  decide +kernel

end Batch

end CrossChain
