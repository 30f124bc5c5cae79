import Mathlib
import CrossChain.Merkle.Multiproof
import CrossChain.Proofs.Codec.Fixed
import CrossChain.Proofs.Hashing
/-! How a root comes about from other nodes, as a binary tree. The queue of the verifier and the
levels of a tree both build such derivations. Two derivations of one hash are the same up to
the order of children, unless two byte strings share a digest. -/
namespace CrossChain.Merkle

/-- A node is a leaf, or comes from outside, or is the parent of two others. -/
inductive Derivation where
  | leaf (hash : Bytes32)
  | outside (hash : Bytes32)
  | parent (left right : Derivation)

namespace Derivation

def hash : Derivation → Bytes32
  | .leaf hash => hash
  | .outside hash => hash
  | .parent left right => keccak256 (nodePreimage left.hash right.hash)

def leaves : Derivation → List Bytes32
  | .leaf hash => [hash]
  | .outside _ => []
  | .parent left right => left.leaves ++ right.leaves

def outsiders : Derivation → List Bytes32
  | .leaf _ => []
  | .outside hash => [hash]
  | .parent left right => left.outsiders ++ right.outsiders

def inputs : Derivation → List Bytes
  | .parent left right => nodePreimage left.hash right.hash :: (left.inputs ++ right.inputs)
  | _ => []

end Derivation

/-- The byte string of an inner node tells its children, but not which of them is first. -/
theorem nodePreimage_inj {a b c d : Bytes32} (h : nodePreimage a b = nodePreimage c d) :
    (a = c ∧ b = d) ∨ (a = d ∧ b = c) := by
  have hwords : ∀ {x y z w : Bytes32}, Domain.node.toBytes ++ x.toBytes ++ y.toBytes =
      Domain.node.toBytes ++ z.toBytes ++ w.toBytes → x = z ∧ y = w := by
    intro x y z w hxy
    rw [List.append_assoc, List.append_assoc, List.append_cancel_left_eq,
      Bytes32.append_inj, Bytes32.toBytes_inj] at hxy
    exact hxy
  unfold nodePreimage at h
  split at h <;> split at h <;> have := hwords h <;> tauto

namespace Derivation

/-- The derivations of a level, of which neighbours get a parent. -/
def pair : List Derivation → List Derivation
  | a :: b :: rest => .parent a b :: pair rest
  | nodes => nodes

theorem map_hash_pair (nodes : List Derivation) :
    (pair nodes).map hash = (parents (nodes.map hash)).value := by
  fun_induction pair nodes with
  | case1 a b rest ih => simp [parents, node, hash, ih]
  | case2 nodes h =>
    match nodes, h with
    | [], _ => rfl
    | [_], _ => rfl
    | a :: b :: rest, h => exact absurd rfl (h a b rest)

theorem flatMap_leaves_pair (nodes : List Derivation) :
    (pair nodes).flatMap leaves = nodes.flatMap leaves := by
  fun_induction pair nodes with
  | case1 a b rest ih => simp [leaves, ih]
  | case2 nodes h => rfl

theorem flatMap_outsiders_pair (nodes : List Derivation) :
    (pair nodes).flatMap outsiders = nodes.flatMap outsiders := by
  fun_induction pair nodes with
  | case1 a b rest ih => simp [outsiders, ih]
  | case2 nodes h => rfl

theorem mem_flatMap_inputs_pair (nodes : List Derivation) (m : Bytes) :
    m ∈ (pair nodes).flatMap inputs ↔
      m ∈ nodes.flatMap inputs ∨ m ∈ (parents (nodes.map hash)).inputs := by
  fun_induction pair nodes with
  | case1 a b rest ih =>
    simp only [List.flatMap_cons, List.map_cons, inputs, parents, node, Hashed.inputs_bind,
      Hashed.inputs_keccak, Hashed.value_keccak, Hashed.inputs_pure, List.mem_append,
      List.mem_cons, List.not_mem_nil, or_false, ih]
    tauto
  | case2 nodes h =>
    match nodes, h with
    | [], _ => simp [parents]
    | [_], _ => simp [parents]
    | a :: b :: rest, h => exact absurd rfl (h a b rest)

end Derivation

/-- The node that the levels above some nodes end in. -/
def top (nodes : List Bytes32) : Bytes32 :=
  (((nodes :: (levelsAbove nodes).value).getLast?.getD []).head?).getD .zero

theorem Tree.root_eq_top (t : Tree) : t.root = top t.leaves := by
  unfold Tree.root Tree.levels top
  rw [t.above_eq]

theorem Tree.ofLeaves_eq {leaves : List Bytes32} (h : leaves ≠ []) :
    ∃ t : Tree, (ofLeaves leaves).result = .ok t ∧ t.leaves = leaves ∧
      (ofLeaves leaves).inputs = (levelsAbove leaves).inputs := by
  unfold ofLeaves
  rw [dif_neg h]
  exact ⟨_, rfl, rfl, rfl⟩

theorem top_singleton (node : Bytes32) : top [node] = node := by
  unfold top
  rw [levelsAbove]
  rfl

theorem top_of_one_lt {nodes : List Bytes32} (h : 1 < nodes.length) :
    top nodes = top (parents nodes).value := by
  unfold top
  rw [levelsAbove, dif_neg (by omega), List.getLast?_cons_cons]

theorem inputs_levelsAbove_singleton (node : Bytes32) : (levelsAbove [node]).inputs = [] := by
  rw [levelsAbove]
  rfl

theorem inputs_levelsAbove_of_one_lt {nodes : List Bytes32} (h : 1 < nodes.length) :
    (levelsAbove nodes).inputs =
      (parents nodes).inputs ++ (levelsAbove (parents nodes).value).inputs := by
  rw [levelsAbove, dif_neg (by omega)]

namespace Derivation

theorem length_pair (nodes : List Derivation) : (pair nodes).length = (nodes.length + 1) / 2 := by
  rw [← List.length_map (f := hash), map_hash_pair, length_parents, List.length_map]

/-- Derivations of some nodes lead on to one of the node that the levels above end in, by
hashing what the levels hash. -/
theorem exists_of_levels (nodes : List Derivation) (hne : nodes ≠ []) :
    ∃ d : Derivation, d.hash = top (nodes.map hash) ∧ d.leaves = nodes.flatMap leaves ∧
      d.outsiders = nodes.flatMap outsiders ∧ ∀ m, m ∈ d.inputs ↔
        m ∈ nodes.flatMap inputs ∨ m ∈ (levelsAbove (nodes.map hash)).inputs := by
  induction hn : nodes.length using Nat.strong_induction_on generalizing nodes with
  | _ n ih =>
    subst hn
    match nodes, hne with
    | [d], _ =>
      exact ⟨d, by simp [top_singleton], by simp, by simp, by simp [inputs_levelsAbove_singleton]⟩
    | a :: b :: rest, _ =>
      have hlen : (pair (a :: b :: rest)).length < (a :: b :: rest).length := by
        rw [length_pair]
        simp only [List.length_cons]
        omega
      have htwo : 1 < ((a :: b :: rest).map hash).length := by simp
      obtain ⟨d, hhash, hleaves, houtsiders, hinputs⟩ :=
        ih _ hlen (pair (a :: b :: rest)) (by simp [pair]) rfl
      rw [map_hash_pair] at hhash hinputs
      refine ⟨d, ?_, ?_, ?_, fun m => ?_⟩
      · rw [hhash, top_of_one_lt htwo]
      · rw [hleaves, flatMap_leaves_pair]
      · rw [houtsiders, flatMap_outsiders_pair]
      · rw [hinputs, inputs_levelsAbove_of_one_lt htwo, mem_flatMap_inputs_pair, List.mem_append,
          or_assoc]

@[simp] theorem map_hash_leaf (nodes : List Bytes32) : (nodes.map leaf).map hash = nodes := by
  simp [Function.comp_def, hash]

@[simp] theorem flatMap_leaves_leaf (nodes : List Bytes32) :
    (nodes.map leaf).flatMap leaves = nodes := by
  simp [List.flatMap_map, leaves]

@[simp] theorem flatMap_outsiders_leaf (nodes : List Bytes32) :
    (nodes.map leaf).flatMap outsiders = [] := by
  simp [List.flatMap_map, outsiders]

@[simp] theorem flatMap_inputs_leaf (nodes : List Bytes32) :
    (nodes.map leaf).flatMap inputs = [] := by
  simp [List.flatMap_map, inputs]

/-- The root of a tree, derived from its leaves alone. -/
theorem exists_of_tree (t : Tree) :
    ∃ d : Derivation, d.hash = t.root ∧ d.leaves = t.leaves ∧ d.outsiders = [] ∧
      ∀ m, m ∈ d.inputs ↔ m ∈ (levelsAbove t.leaves).inputs := by
  obtain ⟨d, hhash, hleaves, houtsiders, hinputs⟩ :=
    exists_of_levels (t.leaves.map leaf) (by simpa using t.leaves_ne_nil)
  rw [map_hash_leaf] at hhash hinputs
  rw [flatMap_leaves_leaf] at hleaves
  rw [flatMap_outsiders_leaf] at houtsiders
  refine ⟨d, hhash.trans t.root_eq_top.symm, hleaves, houtsiders, fun m => ?_⟩
  rw [hinputs, flatMap_inputs_leaf]
  simp

theorem perm_flatMap_queue {α : Type} {f : Derivation → List α} {left right : Derivation}
    (hf : f (.parent left right) = f left ++ f right) (nodes : List Derivation) :
    ((nodes ++ [parent left right]).flatMap f).Perm ((left :: right :: nodes).flatMap f) := by
  simp only [List.flatMap_append, List.flatMap_cons, List.flatMap_nil, List.append_nil, hf,
    ← List.append_assoc]
  rw [List.append_assoc]
  exact List.perm_append_comm

/-- A run of the verifier that succeeds has built a derivation from those in its queue, in which
each of them and each node of the proof stands exactly once. -/
theorem exists_of_replay {step count : Nat} {flags : List Bool} {queue proofs : List Bytes32}
    {root : Bytes32} (h : (replay step count flags queue proofs).result = .ok root)
    (nodes : List Derivation) (hnodes : nodes.map hash = queue) :
    ∃ d : Derivation, d.hash = root ∧ d.leaves.Perm (nodes.flatMap leaves) ∧
      d.outsiders.Perm (nodes.flatMap outsiders ++ proofs) ∧
      ∀ m, m ∈ d.inputs ↔
        m ∈ nodes.flatMap inputs ∨ m ∈ (replay step count flags queue proofs).inputs := by
  -- Along the flags; `nodes` are derivations of what stands in the queue.
  fun_induction replay step count flags queue proofs generalizing nodes with
  | case1 step root =>
    obtain ⟨d, rfl, hd⟩ : ∃ d, nodes = [d] ∧ d.hash = root := by
      simpa [List.map_eq_cons_iff] using hnodes
    cases h
    exact ⟨d, hd, by simp, by simp, by simp⟩
  | case3 step flags a b queue proofs ih =>
    obtain ⟨left, tail, rfl, rfl, htail⟩ := List.map_eq_cons_iff.mp hnodes
    obtain ⟨right, rest, rfl, rfl, hrest⟩ := List.map_eq_cons_iff.mp htail
    obtain ⟨d, hhash, hleaves, houtsiders, hinputs⟩ :=
      ih _ h (rest ++ [.parent left right]) (by simp [hrest, hash, node])
    refine ⟨d, hhash, hleaves.trans (perm_flatMap_queue rfl rest), ?_, ?_⟩
    · exact houtsiders.trans ((perm_flatMap_queue rfl rest).append_right proofs)
    · intro m
      rw [hinputs, Hashing.inputs_bind_of_ok (Hashing.result_liftHashed _)]
      simp only [List.flatMap_append, List.flatMap_cons, List.flatMap_nil, inputs, List.mem_append,
        List.mem_cons, List.not_mem_nil, or_false, Hashing.inputs_liftHashed, node,
        Hashed.inputs_keccak, Hashed.value_keccak]
      tauto
  | case5 step flags b queue p proofs ih =>
    obtain ⟨right, rest, rfl, rfl, hrest⟩ := List.map_eq_cons_iff.mp hnodes
    obtain ⟨d, hhash, hleaves, houtsiders, hinputs⟩ :=
      ih _ h (rest ++ [.parent (.outside p) right]) (by simp [hrest, hash, node])
    refine ⟨d, hhash, hleaves.trans (perm_flatMap_queue rfl rest), ?_, ?_⟩
    · refine (houtsiders.trans ((perm_flatMap_queue rfl rest).append_right proofs)).trans ?_
      exact List.perm_middle.symm
    · intro m
      rw [hinputs, Hashing.inputs_bind_of_ok (Hashing.result_liftHashed _)]
      simp only [List.flatMap_append, List.flatMap_cons, List.flatMap_nil, inputs, List.mem_append,
        List.mem_cons, List.not_mem_nil, or_false, false_or, Hashing.inputs_liftHashed, node,
        Hashed.inputs_keccak, Hashed.value_keccak, hash]
      tauto
  | case2 | case4 | case6 | case7 => cases h

/-- A root that leaves and a proof lead to is derived from just these leaves and the nodes of the
proof, each of them used once. -/
theorem exists_of_rootOf {proof : Multiproof} {proven : List Bytes32} {root : Bytes32}
    (h : (proof.rootOf proven).result = .ok root) :
    ∃ d : Derivation, d.hash = root ∧ d.leaves.Perm proven ∧ d.outsiders.Perm proof.proofs ∧
      ∀ m, m ∈ d.inputs ↔ m ∈ (proof.rootOf proven).inputs := by
  unfold Multiproof.rootOf at h ⊢
  dsimp only at h ⊢
  split at h
  · cases h
  rename_i hne
  split at h
  · cases h
  rename_i hsteps
  rw [if_neg hne, if_neg hsteps]
  obtain ⟨d, hhash, hleaves, houtsiders, hinputs⟩ :=
    exists_of_replay h (proven.map leaf) (map_hash_leaf proven)
  rw [flatMap_leaves_leaf] at hleaves
  rw [flatMap_outsiders_leaf, List.nil_append] at houtsiders
  refine ⟨d, hhash, hleaves, houtsiders, fun m => ?_⟩
  rw [hinputs, flatMap_inputs_leaf]
  simp

theorem exists_eq_nodePreimage {d : Derivation} {m : Bytes} (h : m ∈ d.inputs) :
    ∃ a b, m = nodePreimage a b := by
  induction d with
  | leaf _ => simp [inputs] at h
  | outside _ => simp [inputs] at h
  | parent left right ihl ihr =>
    simp only [inputs, List.mem_cons, List.mem_append] at h
    rcases h with rfl | h | h
    · exact ⟨_, _, rfl⟩
    · exact ihl h
    · exact ihr h

/-- Derivations of one hash agree: what the first has for leaves are leaves of the second, as
often as in the first, if the second takes no node from outside. No leaf may be the digest of a
byte string that is hashed for a parent. -/
theorem leaves_subperm {strings : List Bytes} (hfree : CollisionFree strings)
    {d e : Derivation} (h : d.hash = e.hash) (hd : d.inputs ⊆ strings) (he : e.inputs ⊆ strings)
    (hdleaves : ∀ leaf ∈ d.leaves, ∀ m ∈ strings, leaf ≠ keccak256 m)
    (heleaves : ∀ leaf ∈ e.leaves, ∀ m ∈ strings, leaf ≠ keccak256 m)
    (hclosed : e.outsiders = []) : d.leaves.Subperm e.leaves := by
  -- Both are descended at once, since the children of two parents of one hash have equal hashes.
  induction d generalizing e with
  | leaf v =>
    cases e with
    | leaf a =>
      obtain rfl : v = a := h
      exact List.Subperm.refl _
    | outside p => simp [outsiders] at hclosed
    | parent l r => exact absurd h (hdleaves v (by simp [leaves]) _ (he (by simp [inputs])))
  | outside p => exact List.nil_subperm
  | parent l r ihl ihr =>
    cases e with
    | leaf a => exact absurd h.symm (heleaves a (by simp [leaves]) _ (hd (by simp [inputs])))
    | outside p => simp [outsiders] at hclosed
    | parent x y =>
      have hpre : nodePreimage l.hash r.hash = nodePreimage x.hash y.hash :=
        hfree _ (hd (by simp [inputs])) _ (he (by simp [inputs])) h
      simp only [inputs, List.cons_subset, List.append_subset] at hd he
      simp only [leaves, List.mem_append, or_imp, forall_and] at hdleaves heleaves
      simp only [outsiders, List.append_eq_nil_iff] at hclosed
      rcases nodePreimage_inj hpre with ⟨hlx, hry⟩ | ⟨hly, hrx⟩
      · exact (ihl hlx hd.2.1 he.2.1 hdleaves.1 heleaves.1 hclosed.1).append
          (ihr hry hd.2.2 he.2.2 hdleaves.2 heleaves.2 hclosed.2)
      · exact ((ihl hly hd.2.1 he.2.2 hdleaves.1 heleaves.2 hclosed.2).append
          (ihr hrx hd.2.2 he.2.1 hdleaves.2 heleaves.1 hclosed.1)).trans
          List.perm_append_comm.subperm

/-- If both of them take no node from outside, then each has the leaves of the other. -/
theorem leaves_perm {strings : List Bytes} (hfree : CollisionFree strings) {d e : Derivation}
    (h : d.hash = e.hash) (hd : d.inputs ⊆ strings) (he : e.inputs ⊆ strings)
    (hleaves : ∀ leaf ∈ d.leaves ++ e.leaves, ∀ m ∈ strings, leaf ≠ keccak256 m)
    (hdclosed : d.outsiders = []) (heclosed : e.outsiders = []) : d.leaves.Perm e.leaves := by
  rw [List.forall_mem_append] at hleaves
  have hde := leaves_subperm hfree h hd he hleaves.1 hleaves.2 heclosed
  have hed := leaves_subperm hfree h.symm he hd hleaves.2 hleaves.1 hdclosed
  exact hde.antisymm hed

end Derivation

end CrossChain.Merkle
