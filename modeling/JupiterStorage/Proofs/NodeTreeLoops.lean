/-
Module: JupiterStorage.Proofs.NodeTreeLoops
Purpose: The loops of `mega_node_tree`. The `for` loop keeps the last root entry as the root and
  every other entry on `stack`, in order. The two `while` loops stop on every input. A pass of
  the inner scan either moves `index` on or removes the entry at `index` from `stack`, so
  `stack.len() - index` falls at each pass. Only a removal can queue a node, and at most one, so the scan never grows
  `stack.len() + parents.len()`; with the parent popped before it, an iteration of the outer loop
  lowers that sum by one. The fuel the model gives each loop is that bound, so neither runs out:
  the call returns its tree whenever there is a root entry, and otherwise panics on
  `unreachable!` before either loop starts.
Trusted boundary: none
Main exports: splitRoot_eq, NodeTreeState.measure, attachChildren_step, attachChildren_measure,
  buildTree_step, buildTree_terminates, megaNodeTree_loops_terminate
-/
import JupiterStorage.Model.NodeTree

namespace Jupiter

/-- What the outer loop lowers: `stack.len() + parents.len()`. -/
def NodeTreeState.measure (state : NodeTreeState) : Nat :=
  state.stack.length + state.parents.length

/-! ### The `for` loop -/

theorem foldl_splitRoot (fileInfos : List CreateFileInfo) (root : Option MegaNode)
    (stack : List CreateFileInfo) :
    fileInfos.foldl
        (fun acc fInfo =>
          if isRootEntry fInfo then (some (MegaNode.ofInfo fInfo), acc.2)
          else (acc.1, acc.2 ++ [fInfo]))
        (root, stack) =
      (((fileInfos.filter isRootEntry).getLast?.map MegaNode.ofInfo).or root,
        stack ++ fileInfos.filter fun f => !isRootEntry f) := by
  induction fileInfos generalizing root stack with
  | nil => simp
  | cons f fs ih =>
      rw [List.foldl_cons]
      by_cases hf : isRootEntry f
      · rw [if_pos hf, ih, List.filter_cons_of_pos hf, List.filter_cons_of_neg (by simp [hf]),
          List.getLast?_cons]
        cases (fs.filter isRootEntry).getLast? <;> rfl
      · rw [if_neg hf, ih, List.filter_cons_of_neg hf, List.filter_cons_of_pos (by simpa using hf),
          List.append_assoc, List.singleton_append]

/-- The `for` loop keeps the last root entry as the root and every other entry, in order. -/
theorem splitRoot_eq (fileInfos : List CreateFileInfo) :
    splitRoot fileInfos =
      ((fileInfos.filter isRootEntry).getLast?.map MegaNode.ofInfo,
        fileInfos.filter fun f => !isRootEntry f) := by
  rw [splitRoot, foldl_splitRoot, Option.or_none, List.nil_append]

/-! ### The inner loop -/

section Scan

variable (parentId : Nat) (parent : MegaNode)

/-- Past the end of `stack` the scan stops, whatever fuel is left. -/
theorem attachChildren_of_le (fuel : Nat) (state : NodeTreeState) {index : Nat}
    (outside : state.stack.length ≤ index) :
    attachChildren parentId parent fuel state index = .ok state := by
  rw [attachChildren, dif_neg (Nat.not_lt.mpr outside)]

/-- One pass of the scan, at an `index` inside `stack`: either the entry there leaves `stack`,
at most one node joining the queue, and `index` stays; or `index` moves on and nothing else
changes. -/
theorem attachChildren_step (fuel : Nat) (state : NodeTreeState) {index : Nat}
    (inside : index < state.stack.length) :
    ∃ next index', attachChildren parentId parent (fuel + 1) state index =
        attachChildren parentId parent fuel next index' ∧
      ((next.stack.length + 1 = state.stack.length ∧
          next.parents.length ≤ state.parents.length + 1 ∧ index' = index) ∨
        (next = state ∧ index' = index + 1)) := by
  rw [attachChildren, dif_pos inside]
  dsimp only
  by_cases found : state.stack[index].path = parent.childPath
  · rw [if_pos found]
    refine ⟨_, index, rfl, .inl ⟨?_, ?_, rfl⟩⟩
    · simp only [List.length_eraseIdx, if_pos inside]
      omega
    · split <;> simp
  · rw [if_neg found]
    exact ⟨state, index + 1, rfl, .inr ⟨rfl, rfl⟩⟩

/-- With fuel for the entries from `index` on, the scan returns, and it has not grown
`stack.len() + parents.len()`. -/
theorem attachChildren_measure (fuel : Nat) :
    ∀ (state : NodeTreeState) (index : Nat), state.stack.length - index ≤ fuel →
      ∃ final, attachChildren parentId parent fuel state index = .ok final ∧
        final.measure ≤ state.measure := by
  induction fuel with
  | zero =>
      intro state index enough
      exact ⟨state, attachChildren_of_le parentId parent 0 state (by omega), le_rfl⟩
  | succ fuel ih =>
      intro state index enough
      by_cases inside : index < state.stack.length
      · obtain ⟨next, index', pass, ⟨removed, queued, rfl⟩ | ⟨rfl, rfl⟩⟩ :=
          attachChildren_step parentId parent fuel state inside
        · obtain ⟨final, run, lower⟩ := ih next index' (by omega)
          refine ⟨final, pass.trans run, ?_⟩
          simp only [NodeTreeState.measure] at lower ⊢
          omega
        · obtain ⟨final, run, lower⟩ := ih next (index + 1) (by omega)
          exact ⟨final, pass.trans run, lower⟩
      · exact ⟨state, attachChildren_of_le parentId parent _ state (by omega), le_rfl⟩

end Scan

/-! ### The outer loop -/

/-- With the queue empty the outer loop stops, whatever fuel is left. -/
theorem buildTree_of_parents_nil (fuel : Nat) {state : NodeTreeState}
    (empty : state.parents = []) : buildTree fuel state = .ok state := by
  unfold buildTree
  simp only [empty]

/-- One iteration of the outer loop: the scan for the popped parent returns, the loop goes on
from the state it leaves, and `stack.len() + parents.len()` has fallen. -/
theorem buildTree_step (fuel : Nat) {state : NodeTreeState} {parentId : Nat} {parent : MegaNode}
    {parents : List (Nat × MegaNode)} (popped : state.parents = (parentId, parent) :: parents) :
    ∃ next, attachChildren parentId parent state.stack.length { state with parents } 0 = .ok next ∧
      buildTree (fuel + 1) state = buildTree fuel next ∧ next.measure < state.measure := by
  obtain ⟨next, scan, lower⟩ :=
    attachChildren_measure parentId parent _ { state with parents } 0 (Nat.sub_le _ _)
  refine ⟨next, scan, ?_, ?_⟩
  · conv_lhs => unfold buildTree
    simp only [popped, scan]
    rfl
  · simp only [NodeTreeState.measure, popped, List.length_cons] at lower ⊢
    omega

/-- With fuel for `stack.len() + parents.len()` iterations the outer loop returns, with the
queue empty. -/
theorem buildTree_terminates (fuel : Nat) :
    ∀ state : NodeTreeState, state.measure ≤ fuel →
      ∃ final, buildTree fuel state = .ok final ∧ final.parents = [] := by
  induction fuel with
  | zero =>
      intro state enough
      have empty : state.parents = [] :=
        List.eq_nil_of_length_eq_zero (by simp only [NodeTreeState.measure] at enough; omega)
      exact ⟨state, buildTree_of_parents_nil 0 empty, empty⟩
  | succ fuel ih =>
      intro state enough
      rcases popped : state.parents with _ | ⟨⟨parentId, parent⟩, parents⟩
      · exact ⟨state, buildTree_of_parents_nil _ popped, popped⟩
      · obtain ⟨next, -, loop, lower⟩ := buildTree_step fuel popped
        obtain ⟨final, run, done⟩ := ih next (by omega)
        exact ⟨final, loop.trans run, done⟩

/-- Both loops of `mega_node_tree` stop, on every list of entries. A pass of the inner scan
either removes the entry at `index`, queueing at most one node, or moves `index` on. An
iteration of the outer loop returns from its scan and lowers `stack.len() + parents.len()`. So
the call returns its tree whenever there is a root entry, and otherwise reaches `unreachable!`
before either loop. -/
theorem megaNodeTree_loops_terminate :
    (∀ (parentId : Nat) (parent : MegaNode) (fuel : Nat) (state : NodeTreeState) (index : Nat),
      index < state.stack.length →
      ∃ next index', attachChildren parentId parent (fuel + 1) state index =
          attachChildren parentId parent fuel next index' ∧
        ((next.stack.length + 1 = state.stack.length ∧
            next.parents.length ≤ state.parents.length + 1 ∧ index' = index) ∨
          (next = state ∧ index' = index + 1))) ∧
    (∀ (fuel : Nat) (state : NodeTreeState) (parentId : Nat) (parent : MegaNode)
      (parents : List (Nat × MegaNode)), state.parents = (parentId, parent) :: parents →
      ∃ next, attachChildren parentId parent state.stack.length { state with parents } 0 =
          .ok next ∧
        buildTree (fuel + 1) state = buildTree fuel next ∧ next.measure < state.measure) ∧
    ∀ fileInfos : List CreateFileInfo,
      (fileInfos.filter isRootEntry ≠ [] → ∃ nodes, megaNodeTree fileInfos = .ok nodes) ∧
      (fileInfos.filter isRootEntry = [] →
        megaNodeTree fileInfos =
          .error (.unreachable "can not create files without root directory!")) := by
  refine ⟨fun parentId parent fuel state _ inside =>
      attachChildren_step parentId parent fuel state inside,
    fun fuel _ _ _ _ popped => buildTree_step fuel popped,
    fun fileInfos => ⟨fun rooted => ?_, fun rootless => ?_⟩⟩
  · obtain ⟨root, last⟩ : ∃ root, (fileInfos.filter isRootEntry).getLast? = some root :=
      Option.isSome_iff_exists.mp (List.getLast?_isSome.mpr rooted)
    obtain ⟨final, run, -⟩ := buildTree_terminates _
      ⟨[MegaNode.ofInfo root], fileInfos.filter fun f => !isRootEntry f, [(0, MegaNode.ofInfo root)]⟩
      le_rfl
    refine ⟨final.nodes, ?_⟩
    simp only [megaNodeTree, splitRoot_eq, last, Option.map_some', Option.elim, bind_eq_ok]
    exact ⟨_, rfl, final, run, rfl⟩
  · simp [megaNodeTree, splitRoot_eq, rootless, Option.elim, bind, Except.bind]

end Jupiter
