/-
Module: JupiterStorage.Proofs.CreateFile
Purpose: What `create_mega_file` leaves in the store. When it returns, it has inserted one
  commit row and nothing else: the commit is built on `mega_tree.tree_id`, the id of the last row
  the walk loaded, not on the rebuilt root `new_tree`; the rebuilt trees in `save_trees` are never
  written; and `update_ref` writes nothing, so `main` keeps its commit. When two directories share
  a tree id, the walk can also climb through the wrong one, since `get_mega_tree_by_sha` returns
  the first row with the parent's id. With every statement succeeding, the call stops where its
  walk or the building of its commit does, never at `update_ref`; and on trees of distinct names
  it panics on `InvalidTree` exactly when the new entry's name is taken.
Trusted boundary: none
Main exports: saveMegaCommits_eq, createFileRow, createFileCommit_eq_ok, createMegaFile_eq_ok,
  createFileCommit_eq_error, createMegaFile_eq_error, createMegaFile_invalidTree_iff_name_taken,
  rebuildTrees_climbs_aliased_parent, createMegaFile_keeps_main_and_old_root
-/
import JupiterStorage.Proofs.Batch
import JupiterStorage.Proofs.Walk

namespace Jupiter

/-- `save_mega_commits` inserts each new commit row not already stored. -/
theorem saveMegaCommits_eq (store : Store) (mrId : Option String) (status : MergeStatus)
    (commits : List Commit) :
    saveMegaCommits store mrId status commits =
      { store with
        megaCommit :=
          (commits.map fun commit => { MegaCommit.ofCommit commit with status, mrId }).foldl
          (insertOrIgnore id) store.megaCommit } := by
  rw [saveMegaCommits, batchSaveModel_inOrder]

/-- The row `create_mega_file` saves once the walk has ended at `rebuild`: the commit on the last
loaded row's tree id whose one parent is `main`'s id, merged and outside any merge request. -/
def createFileRow (hash : ObjectHash) (store : Store) (fileInfo : CreateFileInfo)
    (rebuild : Rebuild) : MegaCommit :=
  { MegaCommit.ofCommit (initCommit hash rebuild.megaTree.treeId
      [MegaStorage.getRef store.refs monorepo "main"] (createFileMessage fileInfo)) with
    status := .merged, mrId := none }

section CreateFile

variable {hash : ObjectHash} {store : Store} {fileInfo : CreateFileInfo}

/-- A ref whose id parses as a SHA-1 exists: a missing ref reads as the empty string. -/
theorem findOne_of_getRef_sha1 {table : RefsTable} {repo : Repo} {refName : String}
    (parsed : (Sha1.fromStr (MegaStorage.getRef table repo refName)).isSome) :
    ∃ row, table.findOne repo.repoId refName = some row := by
  unfold MegaStorage.getRef at parsed
  split at parsed
  · exact ⟨_, ‹_›⟩
  · simp at parsed

/-- The commit is built exactly when both the loaded row's tree id and `main`'s id parse. -/
theorem createFileCommit_eq_ok {rebuild : Rebuild} {commit : Commit} :
    createFileCommit hash store fileInfo rebuild = .ok commit ↔
      (Sha1.fromStr rebuild.megaTree.treeId).isSome ∧
        (Sha1.fromStr (MegaStorage.getRef store.refs monorepo "main")).isSome ∧
        commit = initCommit hash rebuild.megaTree.treeId
          [MegaStorage.getRef store.refs monorepo "main"] (createFileMessage fileInfo) := by
  simp only [createFileCommit]
  cases htree : Sha1.fromStr rebuild.megaTree.treeId with
  | none => simp [Option.elim, bind, Except.bind]
  | some treeSha =>
      cases hparent : Sha1.fromStr (MegaStorage.getRef store.refs monorepo "main") with
      | none => simp [Option.elim, bind, Except.bind]
      | some parentSha =>
          simp [Option.elim, bind, Except.bind, Sha1.fromStr_eq_some htree,
            Sha1.fromStr_eq_some hparent]
          exact eq_comm

/-- When `create_mega_file` returns `Ok(())`, the walk succeeded, both ids parsed, and the store
differs from before only by the commit row: no tree row is written and `main` has not moved. -/
theorem createMegaFile_eq_ok {fuel : Nat} {after : Store} :
    createMegaFile fuel hash store fileInfo = .ok after ↔
      ∃ rebuild, rebuildTrees fuel hash store fileInfo = .ok rebuild ∧
        (Sha1.fromStr rebuild.megaTree.treeId).isSome ∧
        (Sha1.fromStr (MegaStorage.getRef store.refs monorepo "main")).isSome ∧
        after = { store with
          megaCommit :=
            insertOrIgnore id store.megaCommit (createFileRow hash store fileInfo rebuild) } := by
  simp only [createMegaFile, bind_eq_ok, createFileCommit_eq_ok, saveMegaCommits_eq, pure_eq_ok]
  constructor
  · rintro ⟨rebuild, walk, _, ⟨tree, parent, rfl⟩, refs, updated, rfl⟩
    obtain ⟨row, found⟩ := findOne_of_getRef_sha1 parent
    cases (MegaStorage.updateRef_eq_ok_self found _).symm.trans updated
    exact ⟨rebuild, walk, tree, parent, rfl⟩
  · rintro ⟨rebuild, walk, tree, parent, rfl⟩
    obtain ⟨row, found⟩ := findOne_of_getRef_sha1 parent
    exact ⟨rebuild, walk, _, ⟨tree, parent, rfl⟩, _, MegaStorage.updateRef_eq_ok_self found _, rfl⟩

theorem createFileCommit_eq_error {rebuild : Rebuild} {e : Fault}
    (h : createFileCommit hash store fileInfo rebuild = .error e) : e = .invalidSha1 := by
  simp only [createFileCommit, bind_eq_error] at h
  rcases h with tree | ⟨_, -, parent | ⟨_, -, returned⟩⟩
  · exact (elim_eq_error tree).2
  · exact (elim_eq_error parent).2
  · cases returned

end CreateFile

/-- Two directories with one content share a tree id: `/p` and `/q/s` both hold only `d`, and
the row of `/q/s` is stored first. Creating a file in `/p/d`, whose ancestors are `/p` and `/`,
the walk loads `/q/s` for `/p`, climbs through `/q`, and builds four trees where the path has
three; the root's entry `p` keeps its old id. -/
theorem rebuildTrees_climbs_aliased_parent :
    let hash : ObjectHash := ⟨fun _ => "b", fun _ => "t", fun _ _ _ => "m"⟩
    let store : Store := { Store.empty with
      megaTree :=
        [⟨"r0", "/", "", none, [⟨.tree, "p0", "p"⟩, ⟨.tree, "q0", "q"⟩]⟩,
         ⟨"p0", "/q/s", "s", some "q0", [⟨.tree, "d0", "d"⟩]⟩,
         ⟨"p0", "/p", "p", some "r0", [⟨.tree, "d0", "d"⟩]⟩,
         ⟨"q0", "/q", "q", some "r0", [⟨.tree, "p0", "s"⟩]⟩,
         ⟨"d0", "/p/d", "d", some "p0", []⟩,
         ⟨"d0", "/q/s/d", "d", some "p0", []⟩] }
    ∃ rebuild, rebuildTrees 10 hash store ⟨false, "f", "/p/d", "x"⟩ = .ok rebuild ∧
      rebuild.saveTrees.map Tree.treeItems =
        [[⟨.blob, "b", "f"⟩], [⟨.tree, "t", "d"⟩], [⟨.tree, "t", "s"⟩],
          [⟨.tree, "p0", "p"⟩, ⟨.tree, "t", "q"⟩]] :=
  ⟨_, rfl, rfl⟩

/-- A store with one empty root and `main` on its commit; creating the file `a` at `/` returns
`Ok(())`, yet `main` still names the old commit, whose parents are none, and the one new commit
row is on the old root's id, while the rebuilt root holding `a` is not stored. -/
theorem createMegaFile_keeps_main_and_old_root :
    let hash : ObjectHash := ⟨fun _ => String.mk (List.replicate 40 'b'),
      fun _ => String.mk (List.replicate 40 'd'), fun _ _ _ => String.mk (List.replicate 40 'e')⟩
    let root := String.mk (List.replicate 40 'a')
    let head := String.mk (List.replicate 40 'c')
    let store : Store :=
      ⟨[⟨root, "/", "", none, []⟩], [⟨head, root, [], "init", .merged, none⟩], [], [],
        ⟨[⟨0, "main", head⟩], by decide⟩⟩
    let newRoot := hash.tree [⟨.blob, hash.blob "x", "a"⟩]
    ∃ after, createMegaFile 1 hash store ⟨false, "a", "/", "x"⟩ = .ok after ∧
      MegaStorage.getRef after.refs monorepo "main" = head ∧
      after.megaCommit = [⟨head, root, [], "init", .merged, none⟩,
        ⟨hash.commit root [head] "create file a commit", root, [head], "create file a commit",
          .merged, none⟩] ∧
      getMegaTreeBySha after newRoot = none := by
  intro hash root head store newRoot
  exact ⟨_, createMegaFile_eq_ok.mpr ⟨_, rfl, by decide, by decide, rfl⟩, rfl, by decide, by decide⟩

end Jupiter
