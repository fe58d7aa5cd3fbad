/-
Module: JupiterStorage.Proofs.NodeTree
Purpose: What `mega_node_tree` builds, for every list of entries with a root entry. The inner
  scan takes out exactly the entries on the parent's child path, in order; the outer loop keeps
  a breadth-first invariant, and with fuel enough for `stack` and `parents` it empties the queue.
  The root is the last root entry, the nodes form a tree under it, each child sits under a
  directory whose child path is its path, and an entry kept on `stack` appears exactly when a
  chain of directories kept on `stack` leads to it from the root. A directory at `/` other than
  the root is dropped by the `for` loop, so a chain through one attaches nothing.
Trusted boundary: none
Main exports: MegaNode.entry, InTree, OnChain, attachChildren_eq, TreeInv, buildTree_spec,
  NodeTreeSpec, megaNodeTree_attaches_on_chain
-/
import JupiterStorage.Proofs.NodeTreeLoops

namespace Jupiter

/-- What a node shows of the entry it was made from: its name, path and kind. -/
def MegaNode.entry (node : MegaNode) : String × String × Bool :=
  (node.name, node.path, node.isDirectory)

/-- `InTree nodes k`: node `k` hangs under the root, node `0`, through children lists. -/
inductive InTree (nodes : List MegaNode) : Nat → Prop
  | root : InTree nodes 0
  | child {p c : Nat} {parent : MegaNode} :
      InTree nodes p → nodes[p]? = some parent → c ∈ parent.children → InTree nodes c

/-- The paths reached from `root` through directories of `dirs`: the root's child path, and the
child path of a directory of `dirs` whose own path is reached. -/
inductive OnChain (dirs : List CreateFileInfo) (root : CreateFileInfo) : String → Prop
  | root : OnChain dirs root (joinPath root.path root.name)
  | dir {d : CreateFileInfo} :
      d ∈ dirs → d.isDirectory = true → OnChain dirs root d.path →
      OnChain dirs root (joinPath d.path d.name)

/-! ### Children lists -/

/-- The nodes after the node at `parentId` gains the children `childIds`. -/
def giveChildren (nodes : List MegaNode) (parentId : Nat) (childIds : List Nat) :
    List MegaNode :=
  nodes.modify (fun parent => { parent with children := parent.children ++ childIds }) parentId

section Children

variable {nodes : List MegaNode} {parentId : Nat}

@[simp] theorem length_giveChildren (childIds : List Nat) :
    (giveChildren nodes parentId childIds).length = nodes.length :=
  List.length_modify _ _ _

theorem addChild_eq (childId : Nat) :
    addChild nodes parentId childId = giveChildren nodes parentId [childId] := rfl

@[simp] theorem giveChildren_nil : giveChildren nodes parentId [] = nodes := by
  unfold giveChildren
  simp only [List.append_nil]
  exact List.modify_id _ _

theorem giveChildren_giveChildren (first second : List Nat) :
    giveChildren (giveChildren nodes parentId first) parentId second =
      giveChildren nodes parentId (first ++ second) := by
  simp only [giveChildren, List.modify_modify_eq]
  congr 1
  funext parent
  simp [List.append_assoc]

theorem giveChildren_append (extra : List MegaNode) (childIds : List Nat) :
    ∀ {nodes : List MegaNode} {parentId : Nat}, parentId < nodes.length →
      giveChildren (nodes ++ extra) parentId childIds =
        giveChildren nodes parentId childIds ++ extra
  | [], _, h => absurd h (Nat.not_lt_zero _)
  | _ :: _, 0, _ => by simp [giveChildren]
  | node :: nodes, parentId + 1, h => by
      have ih := giveChildren_append extra childIds (Nat.lt_of_succ_lt_succ h)
      simp only [giveChildren, List.cons_append, List.modify_succ_cons] at ih ⊢
      rw [ih]

/-- Giving children changes no node's name, path or kind. -/
@[simp] theorem map_entry_giveChildren (childIds : List Nat) :
    (giveChildren nodes parentId childIds).map MegaNode.entry = nodes.map MegaNode.entry := by
  apply List.ext_getElem?
  intro i
  simp only [giveChildren, List.getElem?_map, List.getElem?_modify]
  by_cases hi : parentId = i
  · simp [hi, Function.comp_def]
    rfl
  · simp [hi]

theorem getElem?_giveChildren (childIds : List Nat) (i : Nat) :
    (giveChildren nodes parentId childIds)[i]? =
      if parentId = i then nodes[i]?.map fun parent =>
        { parent with children := parent.children ++ childIds }
      else nodes[i]? := by
  rw [giveChildren, List.getElem?_modify]
  by_cases hi : parentId = i <;> simp [hi]

/-- The children lists after `giveChildren` hold the old children and the new ones. -/
theorem flatten_children_giveChildren (childIds : List Nat) :
    ∀ {nodes : List MegaNode} {parentId : Nat}, parentId < nodes.length →
      ((giveChildren nodes parentId childIds).map MegaNode.children).flatten.Perm
        ((nodes.map MegaNode.children).flatten ++ childIds)
  | [], _, h => absurd h (Nat.not_lt_zero _)
  | node :: nodes, 0, _ => by
      simp only [giveChildren, List.modify_zero_cons, List.map_cons, List.flatten_cons,
        List.append_assoc]
      exact List.Perm.append_left _ List.perm_append_comm
  | node :: nodes, parentId + 1, h => by
      have ih := flatten_children_giveChildren childIds (Nat.lt_of_succ_lt_succ h)
      simp only [giveChildren, List.modify_succ_cons, List.map_cons, List.flatten_cons,
        List.append_assoc] at ih ⊢
      exact ih.append_left _

end Children

/-! ### The inner loop -/

section Scan

variable (parentId : Nat) (parent : MegaNode)

/-- The scan from `index` over `pre ++ rest`, `pre` holding `index` entries, with fuel for
`rest`: the entries of `rest` on the parent's child path become new nodes, in order, the parent
gains them as children, the directories among them join the queue, and the others stay. -/
theorem attachChildren_eq :
    ∀ (rest pre : List CreateFileInfo) (nodes : List MegaNode) (parents : List (Nat × MegaNode))
      (fuel : Nat), rest.length ≤ fuel → parentId < nodes.length →
      attachChildren parentId parent fuel ⟨nodes, pre ++ rest, parents⟩ pre.length =
        let found := rest.filter fun e => e.path = parent.childPath
        .ok ⟨giveChildren nodes parentId (List.range' nodes.length found.length) ++
              found.map MegaNode.ofInfo,
            pre ++ rest.filter (fun e => ¬ e.path = parent.childPath),
            parents ++ ((found.map MegaNode.ofInfo).enumFrom nodes.length).filter
              fun q => q.2.isDirectory⟩
  | [], pre, nodes, parents, fuel, _, _ => by
      rw [attachChildren, dif_neg (by simp)]
      simp
  | e :: rest, pre, nodes, parents, fuel + 1, hfuel, hparent => by
      rw [attachChildren, dif_pos (by simp)]
      simp only [List.getElem_append_right (Nat.le_refl _), Nat.sub_self, List.getElem_cons_zero]
      by_cases he : e.path = parent.childPath
      · have grown : parentId < (giveChildren nodes parentId [nodes.length]).length := by
          simpa using hparent
        rw [if_pos he, List.eraseIdx_append_of_length_le le_rfl, Nat.sub_self,
          List.eraseIdx_cons_zero, attachChildren_eq rest pre _ _ fuel (by simpa using hfuel)
            (by simp [addChild_eq]; omega)]
        simp only [List.filter_cons, he, addChild_eq, giveChildren_append _ _ hparent,
          giveChildren_append _ _ grown, giveChildren_giveChildren]
        cases dir : (MegaNode.ofInfo e).isDirectory <;>
          simp [List.range'_succ, List.filter_cons, dir]
      · rw [if_neg he, show pre ++ e :: rest = (pre ++ [e]) ++ rest by simp,
          show pre.length + 1 = (pre ++ [e]).length by simp,
          attachChildren_eq rest (pre ++ [e]) nodes parents fuel (by simpa using hfuel) hparent]
        simp [List.filter_cons, he]

end Scan

/-! ### The outer loop -/

theorem MegaNode.entry_eq_iff {a b : MegaNode} :
    a.entry = b.entry ↔ a.name = b.name ∧ a.path = b.path ∧ a.isDirectory = b.isDirectory := by
  simp [MegaNode.entry]

theorem MegaNode.childPath_eq_of_entry {a b : MegaNode} (h : a.entry = b.entry) :
    a.childPath = b.childPath := by
  obtain ⟨hname, hpath, -⟩ := MegaNode.entry_eq_iff.mp h
  simp [MegaNode.childPath, hname, hpath]

theorem entry_getElem?_giveChildren (nodes : List MegaNode) (parentId : Nat)
    (childIds : List Nat) (i : Nat) :
    (giveChildren nodes parentId childIds)[i]?.map MegaNode.entry =
      nodes[i]?.map MegaNode.entry := by
  rw [← List.getElem?_map, ← List.getElem?_map, map_entry_giveChildren]

/-- The breadth-first invariant of the outer loop, over the entries `stack` the `for` loop kept
and the root entry `root`. -/
structure TreeInv (stack : List CreateFileInfo) (root : CreateFileInfo) (state : NodeTreeState) :
    Prop where
  /-- The root stays first. -/
  rootFirst : state.nodes[0]?.map MegaNode.entry = some (MegaNode.ofInfo root).entry
  /-- Nothing is lost or made up: the nodes but the root, and the entries left on `stack`, are
  the kept entries. -/
  conserved : (state.nodes.tail.map MegaNode.entry ++
    state.stack.map fun e => (MegaNode.ofInfo e).entry).Perm
      (stack.map fun e => (MegaNode.ofInfo e).entry)
  /-- The queue holds directory nodes, as they were made. -/
  queued : ∀ q ∈ state.parents,
    q.2.isDirectory = true ∧ state.nodes[q.1]?.map MegaNode.entry = some q.2.entry
  /-- A directory node out of the queue has had its scan: nothing left on `stack` is on its
  child path. -/
  scanned : ∀ id (node : MegaNode), state.nodes[id]? = some node → node.isDirectory = true →
    (∃ q ∈ state.parents, q.1 = id) ∨ ∀ e ∈ state.stack, e.path ≠ node.childPath
  /-- Every node but the root is on a chain from the root. -/
  sound : ∀ k (node : MegaNode), state.nodes[k + 1]? = some node → OnChain stack root node.path
  /-- A child hangs under an earlier directory whose child path is its path. -/
  shaped : ∀ p (parent : MegaNode), state.nodes[p]? = some parent → ∀ c ∈ parent.children,
    p < c ∧ parent.isDirectory = true ∧ ∃ child : MegaNode, state.nodes[c]? = some child ∧
      child.path = parent.childPath
  /-- Every node but the root is a child exactly once. -/
  once : (state.nodes.map MegaNode.children).flatten.Perm
    (List.range' 1 (state.nodes.length - 1))

/-- The state after the pass of the outer loop for `(parentId, parent)`, popped off the queue
with `parents` behind it. -/
def afterPass (state : NodeTreeState) (parentId : Nat) (parent : MegaNode)
    (parents : List (Nat × MegaNode)) : NodeTreeState :=
  let found := state.stack.filter fun e => e.path = parent.childPath
  ⟨giveChildren state.nodes parentId (List.range' state.nodes.length found.length) ++
      found.map MegaNode.ofInfo,
    state.stack.filter (fun e => ¬ e.path = parent.childPath),
    parents ++ ((found.map MegaNode.ofInfo).enumFrom state.nodes.length).filter
      fun q => q.2.isDirectory⟩

theorem attachChildren_whole {state : NodeTreeState} {parentId : Nat} (parent : MegaNode)
    (parents : List (Nat × MegaNode)) (hparent : parentId < state.nodes.length) :
    attachChildren parentId parent state.stack.length { state with parents } 0 =
      .ok (afterPass state parentId parent parents) :=
  attachChildren_eq parentId parent state.stack [] state.nodes parents _ le_rfl hparent

section Pass

variable {stack : List CreateFileInfo} {root : CreateFileInfo} {state : NodeTreeState}
  {parentId : Nat} {parent : MegaNode} {parents : List (Nat × MegaNode)}

theorem lt_length_of_getElem?_map {α β : Type} {l : List α} {f : α → β} {i : Nat} {b : β}
    (h : l[i]?.map f = some b) : i < l.length := by
  obtain ⟨a, ha, -⟩ := Option.map_eq_some'.mp h
  exact (List.getElem?_eq_some_iff.mp ha).1

theorem TreeInv.length_pos (inv : TreeInv stack root state) : 0 < state.nodes.length :=
  lt_length_of_getElem?_map inv.rootFirst

/-- What the invariant says of the parent at the front of the queue. -/
theorem TreeInv.front (inv : TreeInv stack root state)
    (popped : state.parents = (parentId, parent) :: parents) :
    parent.isDirectory = true ∧ state.nodes[parentId]?.map MegaNode.entry = some parent.entry ∧
      parentId < state.nodes.length := by
  obtain ⟨hdir, hentry⟩ := inv.queued (parentId, parent) (by rw [popped]; exact .head _)
  exact ⟨hdir, hentry, lt_length_of_getElem?_map hentry⟩

theorem afterPass_getElem?_lt {i : Nat} (hi : i < state.nodes.length) :
    (afterPass state parentId parent parents).nodes[i]? =
      (giveChildren state.nodes parentId
        (List.range' state.nodes.length
          (state.stack.filter fun e => e.path = parent.childPath).length))[i]? := by
  simp only [afterPass]
  rw [List.getElem?_append_left (by simpa using hi)]

theorem afterPass_getElem?_ge {i : Nat} (hi : state.nodes.length ≤ i) :
    (afterPass state parentId parent parents).nodes[i]? =
      ((state.stack.filter fun e => e.path = parent.childPath).map MegaNode.ofInfo)[
        i - state.nodes.length]? := by
  simp only [afterPass]
  rw [List.getElem?_append_right (by simpa using hi), length_giveChildren]

/-- A node made before the pass is still there, showing the same entry. -/
theorem afterPass_getElem?_of_getElem? (parents : List (Nat × MegaNode)) {i : Nat}
    {node : MegaNode} (h : state.nodes[i]? = some node) :
    ∃ node', (afterPass state parentId parent parents).nodes[i]? = some node' ∧
      node'.entry = node.entry := by
  have same := entry_getElem?_giveChildren state.nodes parentId
    (List.range' state.nodes.length
      (state.stack.filter fun e => e.path = parent.childPath).length) i
  rw [h, Option.map_some'] at same
  rw [afterPass_getElem?_lt (List.getElem?_eq_some_iff.mp h).1]
  exact Option.map_eq_some'.mp same

/-- A node at a position made before the pass shows the entry of the node that was there. -/
theorem afterPass_getElem?_old {i : Nat} {node : MegaNode} (hi : i < state.nodes.length)
    (h : (afterPass state parentId parent parents).nodes[i]? = some node) :
    ∃ old, state.nodes[i]? = some old ∧ node.entry = old.entry := by
  obtain ⟨node', hnode', same⟩ :=
    afterPass_getElem?_of_getElem? parents (List.getElem?_eq_getElem hi)
  rw [h, Option.some.injEq] at hnode'
  exact ⟨_, List.getElem?_eq_getElem hi, hnode' ▸ same⟩

/-- A node made by the pass is an entry on the parent's child path. -/
theorem afterPass_getElem?_new {i : Nat} {node : MegaNode}
    (hi : state.nodes.length ≤ i)
    (h : (afterPass state parentId parent parents).nodes[i]? = some node) :
    ∃ e ∈ state.stack, e.path = parent.childPath ∧ node = MegaNode.ofInfo e := by
  rw [afterPass_getElem?_ge hi, List.getElem?_map] at h
  obtain ⟨e, he, rfl⟩ := Option.map_eq_some'.mp h
  obtain ⟨mem, hpath⟩ := List.mem_filter.mp (List.getElem?_mem he)
  exact ⟨e, mem, by simpa using hpath, rfl⟩

/-- A node but the root shows an entry kept on `stack`. -/
theorem TreeInv.exists_entry (inv : TreeInv stack root state) {k : Nat} {node : MegaNode}
    (h : state.nodes[k + 1]? = some node) :
    ∃ d ∈ stack, (MegaNode.ofInfo d).entry = node.entry := by
  have mem : node.entry ∈ state.nodes.tail.map MegaNode.entry :=
    List.mem_map_of_mem _ (List.getElem?_mem (by simpa using h))
  obtain ⟨d, dmem, hd⟩ := List.mem_map.mp (inv.conserved.subset (List.mem_append_left _ mem))
  exact ⟨d, dmem, hd⟩

/-- The child path of the parent at the front of the queue is on a chain from the root. -/
theorem TreeInv.onChain_front (inv : TreeInv stack root state)
    (popped : state.parents = (parentId, parent) :: parents) :
    OnChain stack root parent.childPath := by
  obtain ⟨pdir, found, -⟩ := inv.front popped
  obtain ⟨old, hold, pentry⟩ := Option.map_eq_some'.mp found
  cases parentId with
  | zero =>
      have hroot := inv.rootFirst
      rw [hold, Option.map_some', Option.some.injEq, pentry] at hroot
      rw [MegaNode.childPath_eq_of_entry hroot]
      exact .root
  | succ k =>
      obtain ⟨d, dmem, hd⟩ := inv.exists_entry hold
      obtain ⟨-, hdpath, -⟩ := MegaNode.entry_eq_iff.mp hd
      obtain ⟨-, -, hddir⟩ := MegaNode.entry_eq_iff.mp (hd.trans pentry)
      have chain : OnChain stack root d.path :=
        (show d.path = old.path from hdpath) ▸ inv.sound k old hold
      rw [← MegaNode.childPath_eq_of_entry (hd.trans pentry)]
      exact .dir dmem (hddir.trans pdir) chain

theorem TreeInv.afterPass_conserved (inv : TreeInv stack root state) :
    ((afterPass state parentId parent parents).nodes.tail.map MegaNode.entry ++
      (afterPass state parentId parent parents).stack.map fun e => (MegaNode.ofInfo e).entry).Perm
      (stack.map fun e => (MegaNode.ofInfo e).entry) := by
  have hne : giveChildren state.nodes parentId
      (List.range' state.nodes.length
        (state.stack.filter fun e => e.path = parent.childPath).length) ≠ [] :=
    List.ne_nil_of_length_pos (by simpa using inv.length_pos)
  refine List.Perm.trans ?_ inv.conserved
  simp only [afterPass, List.tail_append_of_ne_nil hne, List.map_append, List.map_tail,
    map_entry_giveChildren, List.append_assoc, List.map_map, Function.comp_def]
  refine List.Perm.append_left _ ?_
  rw [← List.map_append]
  have split := List.filter_append_perm (fun e => decide (e.path = parent.childPath)) state.stack
  simp only [decide_not] at split ⊢
  exact split.map _

theorem TreeInv.afterPass_queued (inv : TreeInv stack root state)
    (popped : state.parents = (parentId, parent) :: parents) :
    ∀ q ∈ (afterPass state parentId parent parents).parents, q.2.isDirectory = true ∧
      (afterPass state parentId parent parents).nodes[q.1]?.map MegaNode.entry =
        some q.2.entry := by
  rintro ⟨i, node⟩ mem
  simp only [afterPass, List.mem_append, List.mem_filter] at mem
  rcases mem with old | ⟨fresh, hdir⟩
  · obtain ⟨hdir, hentry⟩ := inv.queued (i, node) (by rw [popped]; exact .tail _ old)
    refine ⟨hdir, ?_⟩
    rw [afterPass_getElem?_lt (lt_length_of_getElem?_map hentry), entry_getElem?_giveChildren]
    exact hentry
  · obtain ⟨hle, hget⟩ := List.mk_mem_enumFrom_iff_le_and_getElem?_sub.mp fresh
    refine ⟨hdir, ?_⟩
    rw [afterPass_getElem?_ge hle, hget]
    rfl

theorem TreeInv.afterPass_scanned (inv : TreeInv stack root state)
    (popped : state.parents = (parentId, parent) :: parents) :
    ∀ id (node : MegaNode), (afterPass state parentId parent parents).nodes[id]? = some node →
      node.isDirectory = true →
      (∃ q ∈ (afterPass state parentId parent parents).parents, q.1 = id) ∨
        ∀ e ∈ (afterPass state parentId parent parents).stack, e.path ≠ node.childPath := by
  obtain ⟨-, pentry, -⟩ := inv.front popped
  intro id node hnode hdir
  by_cases hlt : id < state.nodes.length
  · obtain ⟨old, hold, same⟩ := afterPass_getElem?_old hlt hnode
    by_cases hid : id = parentId
    · subst hid
      rw [hold, Option.map_some', Option.some.injEq] at pentry
      refine .inr fun e he => ?_
      rw [MegaNode.childPath_eq_of_entry (same.trans pentry)]
      exact of_decide_eq_true (List.mem_filter.mp he).2
    · have olddir : old.isDirectory = true := (MegaNode.entry_eq_iff.mp same).2.2 ▸ hdir
      rcases inv.scanned id old hold olddir with ⟨q, qmem, rfl⟩ | clear
      · left
        rw [popped] at qmem
        rcases List.mem_cons.mp qmem with rfl | qmem
        · exact absurd rfl hid
        · exact ⟨q, by simp [afterPass, qmem], rfl⟩
      · exact .inr fun e he =>
          MegaNode.childPath_eq_of_entry same ▸ clear e (List.mem_filter.mp he).1
  · left
    have hle := Nat.le_of_not_lt hlt
    refine ⟨(id, node), ?_, rfl⟩
    rw [afterPass_getElem?_ge hle] at hnode
    simp only [afterPass, List.mem_append, List.mem_filter]
    exact .inr ⟨List.mk_mem_enumFrom_iff_le_and_getElem?_sub.mpr ⟨hle, hnode⟩, hdir⟩

theorem TreeInv.afterPass_sound (inv : TreeInv stack root state)
    (popped : state.parents = (parentId, parent) :: parents) :
    ∀ k (node : MegaNode), (afterPass state parentId parent parents).nodes[k + 1]? = some node →
      OnChain stack root node.path := by
  intro k node hnode
  by_cases hlt : k + 1 < state.nodes.length
  · obtain ⟨old, hold, same⟩ := afterPass_getElem?_old hlt hnode
    rw [(MegaNode.entry_eq_iff.mp same).2.1]
    exact inv.sound k old hold
  · obtain ⟨e, -, hpath, rfl⟩ := afterPass_getElem?_new (Nat.le_of_not_lt hlt) hnode
    show OnChain stack root e.path
    rw [hpath]
    exact inv.onChain_front popped

theorem TreeInv.afterPass_shaped (inv : TreeInv stack root state)
    (popped : state.parents = (parentId, parent) :: parents) :
    ∀ p (pnode : MegaNode), (afterPass state parentId parent parents).nodes[p]? = some pnode →
      ∀ c ∈ pnode.children, p < c ∧ pnode.isDirectory = true ∧ ∃ child : MegaNode,
        (afterPass state parentId parent parents).nodes[c]? = some child ∧
          child.path = pnode.childPath := by
  obtain ⟨pdir, pentry, plt⟩ := inv.front popped
  intro p pnode hp c hc
  by_cases hlt : p < state.nodes.length
  · rw [afterPass_getElem?_lt hlt, getElem?_giveChildren] at hp
    have kept : ∀ old : MegaNode, state.nodes[p]? = some old → c ∈ old.children →
        p < c ∧ old.isDirectory = true ∧ ∃ child : MegaNode,
          (afterPass state parentId parent parents).nodes[c]? = some child ∧
            child.path = old.childPath := by
      intro old hold hcold
      obtain ⟨hpc, hdir, child, hchild, hpath⟩ := inv.shaped p old hold c hcold
      obtain ⟨child', hchild', same⟩ := afterPass_getElem?_of_getElem? parents hchild
      exact ⟨hpc, hdir, child', hchild', (MegaNode.entry_eq_iff.mp same).2.1.trans hpath⟩
    split at hp
    · subst p
      obtain ⟨old, hold, rfl⟩ := Option.map_eq_some'.mp hp
      rw [hold, Option.map_some', Option.some.injEq] at pentry
      rcases List.mem_append.mp hc with hcold | hcnew
      · exact kept old hold hcold
      · obtain ⟨hle, hlt⟩ := List.mem_range'_1.mp hcnew
        obtain ⟨child, hchild⟩ : ∃ child,
            (afterPass state parentId parent parents).nodes[c]? = some child :=
          ⟨_, List.getElem?_eq_getElem (by simp [afterPass]; omega)⟩
        obtain ⟨e, -, hpath, rfl⟩ := afterPass_getElem?_new hle hchild
        exact ⟨by omega, (MegaNode.entry_eq_iff.mp pentry).2.2.trans pdir, _, hchild,
          hpath.trans (MegaNode.childPath_eq_of_entry pentry).symm⟩
    · exact kept pnode hp hc
  · obtain ⟨e, -, -, rfl⟩ := afterPass_getElem?_new (Nat.le_of_not_lt hlt) hp
    simp [MegaNode.ofInfo] at hc

theorem TreeInv.afterPass_once (inv : TreeInv stack root state)
    (popped : state.parents = (parentId, parent) :: parents) :
    ((afterPass state parentId parent parents).nodes.map MegaNode.children).flatten.Perm
      (List.range' 1 ((afterPass state parentId parent parents).nodes.length - 1)) := by
  obtain ⟨-, -, plt⟩ := inv.front popped
  have hpos := inv.length_pos
  have children := (flatten_children_giveChildren (List.range' state.nodes.length
    (state.stack.filter fun e => e.path = parent.childPath).length) plt).trans
      (inv.once.append_right _)
  simp only [afterPass, List.map_append, List.flatten_append, List.map_map, List.length_append,
    length_giveChildren, List.length_map]
  have none : ((state.stack.filter fun e => e.path = parent.childPath).map
      (MegaNode.children ∘ MegaNode.ofInfo)).flatten = [] := by
    simp [Function.comp_def, MegaNode.ofInfo]
  rw [none, List.append_nil]
  refine children.trans (List.Perm.of_eq ?_)
  have := List.range'_append 1 (state.nodes.length - 1)
    (state.stack.filter fun e => e.path = parent.childPath).length 1
  rw [show 1 + 1 * (state.nodes.length - 1) = state.nodes.length by omega] at this
  rw [this]
  congr 1
  omega

/-- One pass of the outer loop keeps the invariant. -/
theorem TreeInv.afterPass (inv : TreeInv stack root state)
    (popped : state.parents = (parentId, parent) :: parents) :
    TreeInv stack root (afterPass state parentId parent parents) where
  rootFirst := by
    rw [afterPass_getElem?_lt inv.length_pos, entry_getElem?_giveChildren, inv.rootFirst]
  conserved := inv.afterPass_conserved
  queued := inv.afterPass_queued popped
  scanned := inv.afterPass_scanned popped
  sound := inv.afterPass_sound popped
  shaped := inv.afterPass_shaped popped
  once := inv.afterPass_once popped

end Pass

section Run

variable {stack : List CreateFileInfo} {root : CreateFileInfo}

/-- Before the loop: the root alone, every kept entry on `stack`, and the root queued. -/
theorem TreeInv.init (rootDir : root.isDirectory = true) :
    TreeInv stack root ⟨[MegaNode.ofInfo root], stack, [(0, MegaNode.ofInfo root)]⟩ where
  rootFirst := rfl
  conserved := by simp
  queued := by simp [MegaNode.ofInfo, rootDir]
  scanned := by
    rintro (_ | k) node hnode _
    · exact .inl ⟨_, .head _, rfl⟩
    · simp at hnode
  sound := by simp
  shaped := by
    rintro (_ | k) parent hp c hc <;> simp at hp
    simp [← hp, MegaNode.ofInfo] at hc
  once := by simp [MegaNode.ofInfo]

/-- With fuel for every entry on `stack` and every queued parent, the outer loop empties the
queue and keeps the invariant. -/
theorem buildTree_spec :
    ∀ (fuel : Nat) (state : NodeTreeState), TreeInv stack root state →
      state.stack.length + state.parents.length ≤ fuel →
      ∃ final, buildTree fuel state = .ok final ∧ TreeInv stack root final ∧ final.parents = []
  | fuel, state, inv, hfuel => by
      rcases popped : state.parents with _ | ⟨⟨parentId, parent⟩, parents⟩
      · exact ⟨state, buildTree_of_parents_nil fuel popped, inv, popped⟩
      · cases fuel with
        | zero => simp [popped] at hfuel
        | succ fuel =>
            obtain ⟨-, -, plt⟩ := inv.front popped
            obtain ⟨next, scan, loop, lower⟩ := buildTree_step fuel popped
            rw [attachChildren_whole parent parents plt, Except.ok.injEq] at scan
            subst scan
            obtain ⟨final, run, finv, done⟩ := buildTree_spec fuel _ (inv.afterPass popped)
              (by simp only [NodeTreeState.measure] at lower; omega)
            exact ⟨final, loop.trans run, finv, done⟩

/-- Once the queue is empty, nothing left on `stack` is on the child path of a node that shows
a directory entry. -/
theorem TreeInv.off_stack_of_entry {state : NodeTreeState} (inv : TreeInv stack root state)
    (done : state.parents = []) {k : Nat} {node : MegaNode} {d : CreateFileInfo}
    (hk : state.nodes[k]? = some node) (hentry : node.entry = (MegaNode.ofInfo d).entry)
    (ddir : d.isDirectory = true) : ∀ e ∈ state.stack, e.path ≠ joinPath d.path d.name := by
  rcases inv.scanned k node hk ((MegaNode.entry_eq_iff.mp hentry).2.2.trans ddir) with
    ⟨q, qmem, -⟩ | clear
  · simp [done] at qmem
  · rwa [MegaNode.childPath_eq_of_entry hentry] at clear

/-- Once the queue is empty, nothing left on `stack` lies on a chain from the root. -/
theorem TreeInv.off_stack_of_onChain {state : NodeTreeState} (inv : TreeInv stack root state)
    (done : state.parents = []) (rootDir : root.isDirectory = true) {path : String}
    (chain : OnChain stack root path) : ∀ e ∈ state.stack, e.path ≠ path := by
  induction chain with
  | root =>
      obtain ⟨node, hnode, hentry⟩ := Option.map_eq_some'.mp inv.rootFirst
      exact inv.off_stack_of_entry done hnode hentry rootDir
  | @dir d dmem ddir _ ih =>
      have present : (MegaNode.ofInfo d).entry ∈ state.nodes.tail.map MegaNode.entry := by
        rcases List.mem_append.mp (inv.conserved.symm.subset
          (List.mem_map_of_mem (fun e => (MegaNode.ofInfo e).entry) dmem)) with tail | left
        · exact tail
        · obtain ⟨e, emem, he⟩ := List.mem_map.mp left
          exact absurd (MegaNode.entry_eq_iff.mp he).2.1 (ih e emem)
      obtain ⟨node, nmem, hnode⟩ := List.mem_map.mp present
      obtain ⟨k, hk⟩ := List.mem_iff_getElem?.mp nmem
      rw [List.getElem?_tail] at hk
      exact inv.off_stack_of_entry done hk hnode ddir

/-- Every node hangs under the root: each but the root is a child of an earlier node. -/
theorem TreeInv.inTree {state : NodeTreeState} (inv : TreeInv stack root state) :
    ∀ k < state.nodes.length, InTree state.nodes k := by
  intro k
  induction k using Nat.strong_induction_on with
  | _ k ih =>
      intro hk
      cases k with
      | zero => exact .root
      | succ j =>
          have mem : j + 1 ∈ (state.nodes.map MegaNode.children).flatten :=
            inv.once.symm.subset (List.mem_range'_1.mpr ⟨by omega, by omega⟩)
          obtain ⟨children, cmem, hc⟩ := List.mem_flatten.mp mem
          obtain ⟨parent, pmem, rfl⟩ := List.mem_map.mp cmem
          obtain ⟨p, hp⟩ := List.mem_iff_getElem?.mp pmem
          obtain ⟨hpc, -, -⟩ := inv.shaped p parent hp (j + 1) hc
          exact .child (ih p hpc (by omega)) hp hc

end Run

/-- What `mega_node_tree` should return for `fileInfos`, whose last root entry is `root`: the
root first; every node under it; each child under an earlier directory whose child path is its
path; each node but the root a child exactly once; and each entry the `for` loop kept present,
as often as the kept list holds it, exactly when a chain of kept directories leads to its path. -/
structure NodeTreeSpec (fileInfos : List CreateFileInfo) (root : CreateFileInfo)
    (nodes : List MegaNode) : Prop where
  rootFirst : nodes.head?.map MegaNode.entry = some (MegaNode.ofInfo root).entry
  inTree : ∀ k < nodes.length, InTree nodes k
  shaped : ∀ p (parent : MegaNode), nodes[p]? = some parent → ∀ c ∈ parent.children,
    p < c ∧ parent.isDirectory = true ∧
      ∃ child : MegaNode, nodes[c]? = some child ∧ child.path = parent.childPath
  once : (nodes.map MegaNode.children).flatten.Perm (List.range' 1 (nodes.length - 1))
  attached : ∀ e : CreateFileInfo,
    OnChain (fileInfos.filter fun f => !isRootEntry f) root e.path →
      (nodes.tail.map MegaNode.entry).count (MegaNode.ofInfo e).entry =
        ((fileInfos.filter fun f => !isRootEntry f).map fun f => (MegaNode.ofInfo f).entry).count
          (MegaNode.ofInfo e).entry
  absent : ∀ e : CreateFileInfo,
    ¬ OnChain (fileInfos.filter fun f => !isRootEntry f) root e.path →
      (nodes.tail.map MegaNode.entry).count (MegaNode.ofInfo e).entry = 0

/-- `mega_node_tree` over every list whose last root entry is `root`, in any order: it returns
nodes that meet `NodeTreeSpec`, with the chains running through the directories the `for` loop
kept on `stack`. -/
theorem megaNodeTree_attaches_on_chain (fileInfos : List CreateFileInfo) (root : CreateFileInfo)
    (last : (fileInfos.filter isRootEntry).getLast? = some root) :
    ∃ nodes, megaNodeTree fileInfos = .ok nodes ∧ NodeTreeSpec fileInfos root nodes := by
  let kept := fileInfos.filter fun f => !isRootEntry f
  have rootDir : root.isDirectory = true :=
    ((Bool.and_eq_true _ _).mp (List.mem_filter.mp (List.mem_of_getLast?_eq_some last)).2).2
  obtain ⟨final, run, inv, done⟩ :=
    @buildTree_spec kept root (kept.length + 1) _ (.init rootDir) (by simp)
  refine ⟨final.nodes, ?_, ?_, inv.inTree, inv.shaped, inv.once, fun e chain => ?_,
    fun e off => ?_⟩
  · simp only [megaNodeTree, splitRoot_eq, last, Option.map_some', Option.elim, bind_eq_ok]
    exact ⟨_, rfl, final, run, rfl⟩
  · rw [List.head?_eq_getElem?]
    exact inv.rootFirst
  · have count : (final.nodes.tail.map MegaNode.entry ++
        final.stack.map fun e => (MegaNode.ofInfo e).entry).count (MegaNode.ofInfo e).entry =
        (kept.map fun f => (MegaNode.ofInfo f).entry).count (MegaNode.ofInfo e).entry :=
      inv.conserved.countP_eq _
    have offStack : (final.stack.map fun e => (MegaNode.ofInfo e).entry).count
        (MegaNode.ofInfo e).entry = 0 := by
      refine List.count_eq_zero.mpr fun mem => ?_
      obtain ⟨e', emem, he⟩ := List.mem_map.mp mem
      exact inv.off_stack_of_onChain done rootDir chain e' emem (MegaNode.entry_eq_iff.mp he).2.1
    rwa [List.count_append, offStack, Nat.add_zero] at count
  · refine List.count_eq_zero.mpr fun mem => off ?_
    obtain ⟨node, nmem, hnode⟩ := List.mem_map.mp mem
    obtain ⟨k, hk⟩ := List.mem_iff_getElem?.mp nmem
    rw [List.getElem?_tail] at hk
    have chain := inv.sound k node hk
    rwa [(MegaNode.entry_eq_iff.mp hnode).2.1] at chain

/-- A root and one file under it. -/
theorem megaNodeTree_attaches_on_chain_root_and_file :
    let fileInfos : List CreateFileInfo := [⟨true, "root", "/", ""⟩, ⟨false, "readme", "/root", ""⟩]
    (fileInfos.filter isRootEntry).getLast? = some ⟨true, "root", "/", ""⟩ ∧
      ∃ nodes, megaNodeTree fileInfos = .ok nodes ∧
        NodeTreeSpec fileInfos ⟨true, "root", "/", ""⟩ nodes :=
  ⟨rfl, megaNodeTree_attaches_on_chain _ _ rfl⟩

/-- A directory `a` at `/` listed before the root entry, named `""`, at `/`. The chain of
directory entries runs from the root through `a` to `/a`, but the `for` loop drops `a` as a root
candidate, so the file at `/a` is not attached: the tree is the root alone. -/
theorem megaNodeTree_drops_chain_through_dropped_root :
    let fileInfos : List CreateFileInfo :=
      [⟨true, "a", "/", ""⟩, ⟨true, "", "/", ""⟩, ⟨false, "f", "/a", ""⟩]
    OnChain fileInfos ⟨true, "", "/", ""⟩ "/a" ∧
      megaNodeTree fileInfos = .ok [⟨"", "/", true, []⟩] := by
  intro fileInfos
  have viaRoot : OnChain fileInfos ⟨true, "", "/", ""⟩ "/" :=
    (OnChain.root : OnChain fileInfos ⟨true, "", "/", ""⟩ (joinPath "/" ""))
  exact ⟨@OnChain.dir fileInfos ⟨true, "", "/", ""⟩ ⟨true, "a", "/", ""⟩ (by simp [fileInfos]) rfl
    viaRoot, rfl⟩

end Jupiter
