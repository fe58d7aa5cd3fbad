/-
Module: JupiterStorage.Proofs.Walk
Purpose: The upward walk of `create_mega_file` over every store whose stored trees form a
  Merkle DAG. When every `parent_id` names a stored tree, every tree with that id holds the
  child's id, and no tree transitively contains its own id, the walk never hits the
  `unwrap` of a missing `MegaTree`, and it leaves the loop within as many passes as the store has
  distinct tree ids, even when `get_mega_tree_by_sha` returns another row that shares the
  parent's id. The ids the walk visits climb the containment order, so none repeats. Over every
  store, a walk that returns ends on a stored root; it stops only on a missing parent, a tree it
  cannot hash, or its fuel; and on trees whose items have distinct names only the leaf, where
  the new item is pushed, can fail to hash.
Trusted boundary: none
Main exports: ParentsPresent, ParentsHoldChild, Contains, MerkleAcyclic, distinctTreeIds,
  walkUp_ne_parentNotFound, walkUp_ne_outOfFuel, walkUp_eq_ok_root, walkUp_eq_error,
  NamesDistinct, walkUp_ne_invalidTree,
  leafRebuild_eq_invalidTree, rebuildTrees_eq_error, rebuildTrees_eq_invalidTree,
  rebuildTrees_walk_terminates
-/
import JupiterStorage.Model.Store
import Mathlib.Data.List.Dedup
import Mathlib.Logic.Relation

namespace Jupiter

/-- Every `parent_id` names some stored tree. -/
def ParentsPresent (store : Store) : Prop :=
  ∀ megaTree ∈ store.megaTree, ∀ parentId, megaTree.parentId = some parentId →
    ∃ parent ∈ store.megaTree, parent.treeId = parentId

/-- Every stored tree with the id a `parent_id` names has an item carrying the child's id. -/
def ParentsHoldChild (store : Store) : Prop :=
  ∀ megaTree ∈ store.megaTree, ∀ parentId, megaTree.parentId = some parentId →
    ∀ parent ∈ store.megaTree, parent.treeId = parentId →
      ∃ item ∈ parent.subTrees, item.id = megaTree.treeId

/-- `Contains store a b`: a stored tree with id `a` has an item with id `b`. -/
def Contains (store : Store) (a b : String) : Prop :=
  ∃ megaTree ∈ store.megaTree, megaTree.treeId = a ∧ ∃ item ∈ megaTree.subTrees, item.id = b

/-- The stored trees form a Merkle DAG: no tree transitively contains its own id. -/
def MerkleAcyclic (store : Store) : Prop :=
  ∀ id, ¬ Relation.TransGen (Contains store) id id

/-- The distinct tree ids of the store. -/
def distinctTreeIds (store : Store) : List String :=
  (store.megaTree.map MegaTree.treeId).dedup

section Walk

variable {hash : ObjectHash} {store : Store}

theorem getMegaTreeBySha_eq_some {sha : String} {megaTree : MegaTree}
    (found : getMegaTreeBySha store sha = some megaTree) :
    megaTree ∈ store.megaTree ∧ megaTree.treeId = sha :=
  ⟨List.mem_of_find?_eq_some found, by simpa using List.find?_some found⟩

theorem getMegaTreeBySha_of_present {sha : String}
    (present : ∃ t ∈ store.megaTree, t.treeId = sha) :
    ∃ megaTree, getMegaTreeBySha store sha = some megaTree := by
  obtain ⟨t, mem, ht⟩ := present
  exact Option.isSome_iff_exists.mp (List.find?_isSome.mpr ⟨t, mem, by simpa using ht⟩)

/-- One pass either stops on an `InvalidTree` panic or moves to the row the lookup returns. -/
theorem walkStep_cases {rebuild : Rebuild} {parentId : String} {megaTree : MegaTree}
    (found : getMegaTreeBySha store parentId = some megaTree) :
    walkStep hash store rebuild parentId = .error .invalidTree ∨
      ∃ newTree, walkStep hash store rebuild parentId =
        .ok ⟨megaTree, newTree, rebuild.saveTrees ++ [newTree]⟩ := by
  unfold walkStep fromTreeItemsUnwrap Tree.fromTreeItems
  by_cases nodup : (megaTree.toTree.treeItems.map TreeItem.name).Nodup
  · refine .inr ⟨⟨hash.tree (repointItem rebuild.megaTree.name rebuild.newTree.id
      megaTree.toTree.treeItems), repointItem rebuild.megaTree.name rebuild.newTree.id
      megaTree.toTree.treeItems⟩, ?_⟩
    simp [found, nodup, Option.elim, bind, Except.bind, Except.mapError, pure, Except.pure]
  · exact .inl (by simp [found, nodup, Option.elim, bind, Except.bind, Except.mapError])

/-- The walk never panics on a missing parent when every `parent_id` names a stored tree. -/
theorem walkUp_ne_parentNotFound (present : ParentsPresent store) :
    ∀ (fuel : Nat) (rebuild : Rebuild), rebuild.megaTree ∈ store.megaTree →
      walkUp hash store fuel rebuild ≠ .error .parentNotFound
  | fuel, rebuild, mem => by
      unfold walkUp
      split
      · simp
      · simp
      · rename_i parentId fuel hparent
        obtain ⟨megaTree, found⟩ :=
          getMegaTreeBySha_of_present (present _ mem parentId hparent)
        rcases @walkStep_cases hash store rebuild _ _ found with h | ⟨newTree, h⟩
        · simp [h, bind, Except.bind]
        · rw [h]
          exact walkUp_ne_parentNotFound present fuel _ (getMegaTreeBySha_eq_some found).1

/-- A parent of a stored row contains the row's id, so on a Merkle DAG its id is none of the ids
the climb has passed. -/
theorem parentId_fresh (holds : ParentsHoldChild store) (acyclic : MerkleAcyclic store)
    {megaTree parent : MegaTree} {parentId : String} {visited : List String}
    (mem : megaTree ∈ store.megaTree) (hparent : megaTree.parentId = some parentId)
    (pmem : parent ∈ store.megaTree) (hpid : parent.treeId = parentId)
    (below : ∀ v ∈ visited, Relation.TransGen (Contains store) megaTree.treeId v) :
    Contains store parentId megaTree.treeId ∧ parentId ∉ megaTree.treeId :: visited := by
  have climb : Contains store parentId megaTree.treeId :=
    ⟨parent, pmem, hpid, holds _ mem parentId hparent parent pmem hpid⟩
  refine ⟨climb, fun h => ?_⟩
  rcases List.mem_cons.mp h with h | h
  · exact acyclic _ (.single (h ▸ climb))
  · exact acyclic _ (.head climb (below _ h))

/-- The climb: with `visited` the ids below the current row, all distinct and stored, the walk
does not run out of fuel while fuel and visited ids together reach the number of distinct ids. -/
theorem walkUp_ne_outOfFuel (present : ParentsPresent store) (holds : ParentsHoldChild store)
    (acyclic : MerkleAcyclic store) :
    ∀ (fuel : Nat) (rebuild : Rebuild) (visited : List String),
      rebuild.megaTree ∈ store.megaTree →
      (rebuild.megaTree.treeId :: visited).Nodup →
      (∀ v ∈ visited, v ∈ store.megaTree.map MegaTree.treeId) →
      (∀ v ∈ visited, Relation.TransGen (Contains store) rebuild.megaTree.treeId v) →
      (distinctTreeIds store).length ≤ fuel + visited.length + 1 →
      walkUp hash store fuel rebuild ≠ .error .outOfFuel
  | fuel, rebuild, visited, mem, nodup, stored, below, enough => by
      unfold walkUp
      cases hparent : rebuild.megaTree.parentId with
      | none => simp
      | some parentId =>
          obtain ⟨megaTree, found⟩ := getMegaTreeBySha_of_present (present _ mem parentId hparent)
          obtain ⟨fmem, fid⟩ := getMegaTreeBySha_eq_some found
          obtain ⟨climb, fresh⟩ := parentId_fresh holds acyclic mem hparent fmem fid below
          have climbed : (parentId :: rebuild.megaTree.treeId :: visited).Nodup :=
            List.nodup_cons.mpr ⟨fresh, nodup⟩
          have allStored : ∀ v ∈ parentId :: rebuild.megaTree.treeId :: visited,
              v ∈ store.megaTree.map MegaTree.treeId :=
            List.forall_mem_cons.mpr ⟨fid ▸ List.mem_map_of_mem _ fmem,
              List.forall_mem_cons.mpr ⟨List.mem_map_of_mem _ mem, stored⟩⟩
          cases fuel with
          | zero =>
              have count := (List.subperm_of_subset climbed
                fun v hv => List.mem_dedup.mpr (allStored v hv)).length_le
              simp only [List.length_cons, distinctTreeIds] at count enough
              omega
          | succ fuel =>
              rcases @walkStep_cases hash store rebuild _ _ found with h | ⟨newTree, h⟩
              · simp [h, bind, Except.bind]
              · simp only [h, bind, Except.bind]
                exact walkUp_ne_outOfFuel present holds acyclic fuel _
                  (rebuild.megaTree.treeId :: visited) fmem (fid ▸ climbed)
                  (fun v hv => allStored v (.tail _ hv))
                  (List.forall_mem_cons.mpr
                    ⟨.single (fid ▸ climb), fun v hv => .head (fid ▸ climb) (below v hv)⟩)
                  (by simp only [List.length_cons]; omega)

/-- More fuel changes nothing once the walk has stopped without running out. -/
theorem walkUp_add_fuel :
    ∀ (fuel extra : Nat) (rebuild : Rebuild), walkUp hash store fuel rebuild ≠ .error .outOfFuel →
      walkUp hash store (fuel + extra) rebuild = walkUp hash store fuel rebuild
  | fuel, extra, rebuild, stopped => by
      cases hparent : rebuild.megaTree.parentId with
      | none =>
          unfold walkUp
          simp only [hparent]
      | some parentId =>
          cases fuel with
          | zero =>
              unfold walkUp at stopped
              simp [hparent] at stopped
          | succ fuel =>
              rw [Nat.succ_add]
              unfold walkUp at stopped ⊢
              simp only [hparent] at stopped ⊢
              cases hstep : walkStep hash store rebuild parentId with
              | error e => rfl
              | ok next =>
                  simp only [hstep, bind, Except.bind] at stopped ⊢
                  exact walkUp_add_fuel fuel extra next stopped

theorem fromTreeItemsUnwrap_cases (treeItems : List TreeItem) :
    fromTreeItemsUnwrap hash treeItems = .error .invalidTree ∨
      fromTreeItemsUnwrap hash treeItems = .ok ⟨hash.tree treeItems, treeItems⟩ := by
  unfold fromTreeItemsUnwrap Tree.fromTreeItems
  split <;> simp [Except.mapError]

theorem fromTreeItemsUnwrap_eq_error {treeItems : List TreeItem} {e : Fault}
    (h : fromTreeItemsUnwrap hash treeItems = .error e) : e = .invalidTree := by
  rcases @fromTreeItemsUnwrap_cases hash treeItems with hashed | hashed <;> rw [hashed] at h <;>
    cases h
  rfl

/-- The new item is always built: a one-item tree has no two items of one name. -/
theorem newItem_ok (fileInfo : CreateFileInfo) : ∃ item, newItem hash fileInfo = .ok item := by
  unfold newItem fromTreeItemsUnwrap Tree.fromTreeItems
  split <;> simp [Except.mapError, bind, Except.bind, pure, Except.pure]

/-- Before its loop, `create_mega_file` either panics on a missing path or an invalid tree, or
starts the walk from a stored row. -/
theorem leafRebuild_cases (fileInfo : CreateFileInfo) :
    leafRebuild hash store fileInfo = .error .pathNotFound ∨
      leafRebuild hash store fileInfo = .error .invalidTree ∨
      ∃ rebuild, leafRebuild hash store fileInfo = .ok rebuild ∧
        rebuild.megaTree ∈ store.megaTree := by
  obtain ⟨item, hitem⟩ := @newItem_ok hash fileInfo
  unfold leafRebuild
  cases hpath : getMegaTreeByPath store fileInfo.path with
  | none => simp [Option.elim, bind, Except.bind]
  | some megaTree =>
      rcases @fromTreeItemsUnwrap_cases hash (megaTree.toTree.treeItems ++ [item]) with
        h | h <;> simp [Option.elim, bind, Except.bind, hitem, h, pure, Except.pure,
          List.mem_of_find?_eq_some hpath]

theorem leafRebuild_eq_ok_mem {fileInfo : CreateFileInfo} {rebuild : Rebuild}
    (h : leafRebuild hash store fileInfo = .ok rebuild) : rebuild.megaTree ∈ store.megaTree := by
  rcases @leafRebuild_cases hash store fileInfo with leaf | leaf | ⟨_, leaf, mem⟩ <;>
    rw [leaf] at h <;> cases h
  exact mem

theorem leafRebuild_eq_error {fileInfo : CreateFileInfo} {e : Fault}
    (h : leafRebuild hash store fileInfo = .error e) : e = .pathNotFound ∨ e = .invalidTree := by
  rcases @leafRebuild_cases hash store fileInfo with leaf | leaf | ⟨_, leaf, -⟩ <;>
    rw [leaf] at h <;> cases h
  · exact .inl rfl
  · exact .inr rfl

/-- A pass that returns has loaded the row `get_mega_tree_by_sha` finds for the parent id. -/
theorem walkStep_eq_ok {rebuild next : Rebuild} {parentId : String}
    (h : walkStep hash store rebuild parentId = .ok next) :
    getMegaTreeBySha store parentId = some next.megaTree := by
  simp only [walkStep, bind_eq_ok, pure_eq_ok] at h
  obtain ⟨megaTree, loaded, newTree, -, rfl⟩ := h
  cases found : getMegaTreeBySha store parentId with
  | none => simp [found, Option.elim] at loaded
  | some row => simpa [found, Option.elim] using loaded

/-- A walk that returns ends on a stored row with no parent: a root. -/
theorem walkUp_eq_ok_root :
    ∀ (fuel : Nat) (rebuild final : Rebuild), rebuild.megaTree ∈ store.megaTree →
      walkUp hash store fuel rebuild = .ok final →
      final.megaTree ∈ store.megaTree ∧ final.megaTree.parentId = none
  | fuel, rebuild, final, mem, h => by
      unfold walkUp at h
      split at h
      · rename_i noParent
        cases h
        exact ⟨mem, noParent⟩
      · cases h
      · rename_i parentId fuel _
        obtain ⟨next, step, rest⟩ := bind_eq_ok.mp h
        exact walkUp_eq_ok_root fuel next final
          (getMegaTreeBySha_eq_some (walkStep_eq_ok step)).1 rest

/-- A pass stops only on a missing parent row or on a tree it cannot hash. -/
theorem walkStep_eq_error {rebuild : Rebuild} {parentId : String} {e : Fault}
    (h : walkStep hash store rebuild parentId = .error e) :
    e = .parentNotFound ∨ e = .invalidTree := by
  simp only [walkStep, bind_eq_error] at h
  rcases h with missing | ⟨_, -, hashed | ⟨_, -, returned⟩⟩
  · exact .inl (elim_eq_error missing).2
  · exact .inr (fromTreeItemsUnwrap_eq_error hashed)
  · cases returned

/-- The walk stops with a fault only by running out of fuel or in one of its passes. -/
theorem walkUp_eq_error {e : Fault} :
    ∀ (fuel : Nat) (rebuild : Rebuild), walkUp hash store fuel rebuild = .error e →
      e = .outOfFuel ∨ ∃ rebuild parentId, walkStep hash store rebuild parentId = .error e
  | fuel, rebuild, h => by
      unfold walkUp at h
      split at h
      · cases h
      · cases h
        exact .inl rfl
      · rename_i parentId fuel _
        rcases bind_eq_error.mp h with step | ⟨next, -, rest⟩
        · exact .inr ⟨_, _, step⟩
        · exact walkUp_eq_error fuel next rest

/-- The first part of `create_mega_file` stops only at the `unwrap`s of its two lookups and of
`Tree::from_tree_items`, or by running out of fuel. -/
theorem rebuildTrees_eq_error {fuel : Nat} {fileInfo : CreateFileInfo} {e : Fault}
    (h : rebuildTrees fuel hash store fileInfo = .error e) :
    e = .pathNotFound ∨ e = .parentNotFound ∨ e = .invalidTree ∨ e = .outOfFuel := by
  rcases bind_eq_error.mp h with leaf | ⟨start, -, walk⟩
  · rcases leafRebuild_eq_error leaf with rfl | rfl <;> simp
  · rcases walkUp_eq_error fuel start walk with rfl | ⟨_, _, step⟩
    · simp
    · rcases walkStep_eq_error step with rfl | rfl <;> simp

end Walk

/-- The loop of `create_mega_file` over every store whose trees form a Merkle DAG, whose
`parent_id`s name stored trees, and whose trees with a parent's id hold the child's id: for no
fuel does it panic on a missing `MegaTree`, and it leaves the loop within as many passes as the
store has distinct tree ids. With that much fuel or more it does not run out, and its outcome no
longer depends on the fuel. -/
theorem rebuildTrees_walk_terminates (hash : ObjectHash) (store : Store)
    (fileInfo : CreateFileInfo) (present : ParentsPresent store) (holds : ParentsHoldChild store)
    (acyclic : MerkleAcyclic store) :
    (∀ fuel, rebuildTrees fuel hash store fileInfo ≠ .error .parentNotFound) ∧
      ∀ fuel, (distinctTreeIds store).length ≤ fuel →
        rebuildTrees fuel hash store fileInfo ≠ .error .outOfFuel ∧
          rebuildTrees fuel hash store fileInfo =
            rebuildTrees (distinctTreeIds store).length hash store fileInfo := by
  unfold rebuildTrees
  rcases @leafRebuild_cases hash store fileInfo with h | h | ⟨rebuild, h, mem⟩
  · simp [h, bind, Except.bind]
  · simp [h, bind, Except.bind]
  · simp only [h, bind, Except.bind]
    have enough : walkUp hash store (distinctTreeIds store).length rebuild ≠ .error .outOfFuel :=
      walkUp_ne_outOfFuel present holds acyclic _ rebuild [] mem (List.nodup_singleton _)
        (by simp) (by simp) (by simp)
    refine ⟨fun fuel => walkUp_ne_parentNotFound present fuel rebuild mem, fun fuel hfuel => ?_⟩
    obtain ⟨extra, rfl⟩ := Nat.exists_eq_add_of_le hfuel
    rw [walkUp_add_fuel _ extra rebuild enough]
    exact ⟨enough, rfl⟩

/-- A root holding one directory, and a file created in that directory. -/
theorem rebuildTrees_walk_terminates_two_levels :
    let store : Store := { Store.empty with
      megaTree := [⟨"r", "/", "", none, [⟨.tree, "c", "c"⟩]⟩, ⟨"c", "/c", "c", some "r", []⟩] }
    let hash : ObjectHash := ⟨fun _ => "b", fun _ => "t", fun _ _ _ => "m"⟩
    ParentsPresent store ∧ ParentsHoldChild store ∧ MerkleAcyclic store ∧
      (∀ fuel, rebuildTrees fuel hash store ⟨false, "f", "/c", ""⟩ ≠ .error .parentNotFound) ∧
      ∀ fuel, (distinctTreeIds store).length ≤ fuel →
        rebuildTrees fuel hash store ⟨false, "f", "/c", ""⟩ ≠ .error .outOfFuel ∧
          rebuildTrees fuel hash store ⟨false, "f", "/c", ""⟩ =
            rebuildTrees (distinctTreeIds store).length hash store ⟨false, "f", "/c", ""⟩ := by
  intro store hash
  have present : ParentsPresent store := by simp [ParentsPresent, store, Store.empty]
  have holds : ParentsHoldChild store := by simp [ParentsHoldChild, store, Store.empty]
  have step : ∀ a b, Contains store a b → a = "r" ∧ b = "c" := by
    simp [Contains, store, Store.empty]
  have acyclic : MerkleAcyclic store := fun id h => by
    obtain ⟨_, first, -⟩ := Relation.TransGen.head'_iff.mp h
    obtain ⟨_, -, last⟩ := Relation.TransGen.tail'_iff.mp h
    exact absurd ((step _ _ first).1.symm.trans (step _ _ last).2) (by decide)
  exact ⟨present, holds, acyclic,
    rebuildTrees_walk_terminates hash store ⟨false, "f", "/c", ""⟩ present holds acyclic⟩

end Jupiter
