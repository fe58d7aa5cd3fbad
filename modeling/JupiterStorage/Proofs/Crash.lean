/-
Module: JupiterStorage.Proofs.Crash
Purpose: Whether `main` can dangle when calls crash or their statements fail. Run to the end
  with every statement carried out, the statements of `create_mega_file` give what
  `createMegaFile` gives, and cut off anywhere or failing, they leave the tables as before or as
  that result: the call is atomic. They keep `refs`, `mega_tree` and the blob tables and add at
  most one commit row, on a stored root tree; before its first statement the call stops only at
  its lookups and parses, never at `update_ref`. So does `init_mega_directory` keep those tables
  once its ref is stored, since it panics at that insert; over any run of such calls `main`
  keeps resolving. Carried out in full from empty tables, `init_mega_directory` stores exactly
  the converter's rows. But it inserts the ref before the trees and blobs, and a failed chunk
  of `batch_save_model` does not stop it: the call can end normally with `main` on a commit
  whose tree was never stored.
Trusted boundary: none
Main exports: Reaches, ItemPresent, MainResolves, runWrites_chunkWrites,
  CommitsOnly, SameRows, MainResolves.of_sameRows, createMegaFile_eq_ok_iff_writes,
  runWrites_createMegaFile_cases, runWrites_createMegaFile_atomic, CreateFileEffect,
  runWrites_createMegaFile_commits_on_stored_root, createMegaFileWrites_faults_before_updateRef,
  runWrites_initMegaDirectory_commitsOnly, runStorageCalls_keeps_main_resolving,
  MegaModelConverter.toStore, initMegaDirectory_full_run_stores_converter,
  initMegaDirectory_failed_tree_chunk_dangles
-/
import JupiterStorage.Model.Writes
import JupiterStorage.Proofs.CreateFile

namespace Jupiter

/-- The items reachable from a tree with id `root` through the stored trees `trees`. -/
inductive Reaches (trees : List MegaTree) : String → TreeItem → Prop
  | child {root : String} {megaTree : MegaTree} {item : TreeItem} :
      megaTree ∈ trees → megaTree.treeId = root → item ∈ megaTree.subTrees →
      Reaches trees root item
  | descend {root : String} {item item' : TreeItem} :
      Reaches trees root item → item.mode = .tree → Reaches trees item.id item' →
      Reaches trees root item'

/-- The row an item names is in the item's table. -/
def ItemPresent (store : Store) (item : TreeItem) : Prop :=
  match item.mode with
  | .tree => ∃ megaTree ∈ store.megaTree, megaTree.treeId = item.id
  | .blob => ∃ megaBlob ∈ store.megaBlob, megaBlob.blobId = item.id

/-- `main` does not dangle: when it exists it names a stored commit, whose tree is stored, and
every tree and blob reachable from that tree is stored. -/
def MainResolves (store : Store) : Prop :=
  ∀ row, store.refs.findOne monorepo.repoId "main" = some row →
    ∃ commit ∈ store.megaCommit, commit.commitId = row.refGitId ∧
      (∃ megaTree ∈ store.megaTree, megaTree.treeId = commit.tree) ∧
      ∀ item, Reaches store.megaTree commit.tree item → ItemPresent store item

/-- A statement the database carries out moves the call on to the next. -/
theorem runWrites_cons_of_apply {store next : Store} {write : Write} (writes : List Write)
    (outcomes : List Bool) (applied : write.apply store = some next) :
    runWrites store (write :: writes) (true :: outcomes) = runWrites next writes outcomes := by
  simp only [runWrites, applied]

/-- Carried out in full, a run of chunk statements into one table inserts-or-ignores their rows
chunk after chunk. -/
theorem runWrites_chunkWrites {ρ : Type} [DecidableEq ρ] (write : List ρ → Write)
    (get : Store → List ρ) (set : Store → List ρ → Store)
    (applies : ∀ store rows,
      (write rows).apply store = some (set store (insertMany id (get store) rows)))
    (get_set : ∀ store rows, get (set store rows) = rows)
    (set_set : ∀ store rows rows', set (set store rows) rows' = set store rows')
    (set_get : ∀ store, set store (get store) = store) :
    ∀ (statements : List (List ρ)) (store : Store) (writes : List Write) (outcomes : List Bool),
      runWrites store (statements.map write ++ writes)
          (List.replicate statements.length true ++ outcomes) =
        runWrites (set store (statements.foldl (insertMany id) (get store))) writes outcomes
  | [], store, writes, outcomes => by
      rw [List.map_nil, List.nil_append, List.length_nil, List.replicate_zero, List.nil_append,
        List.foldl_nil, set_get]
  | rows :: statements, store, writes, outcomes => by
      rw [List.map_cons, List.cons_append, List.length_cons, List.replicate_succ, List.cons_append,
        runWrites_cons_of_apply _ _ (applies store rows),
        runWrites_chunkWrites write get set applies get_set set_set set_get statements, get_set,
        set_set, List.foldl_cons]

/-- `store'` has the refs, trees, blobs and raw blobs of `store`, and at least its commit rows. -/
structure CommitsOnly (store store' : Store) : Prop where
  refs : store'.refs = store.refs
  megaTree : store'.megaTree = store.megaTree
  megaBlob : store'.megaBlob = store.megaBlob
  rawBlob : store'.rawBlob = store.rawBlob
  megaCommit : store.megaCommit ⊆ store'.megaCommit

theorem CommitsOnly.refl (store : Store) : CommitsOnly store store :=
  ⟨rfl, rfl, rfl, rfl, List.Subset.refl _⟩

theorem CommitsOnly.trans {a b c : Store} (hab : CommitsOnly a b) (hbc : CommitsOnly b c) :
    CommitsOnly a c :=
  ⟨hbc.refs.trans hab.refs, hbc.megaTree.trans hab.megaTree, hbc.megaBlob.trans hab.megaBlob,
    hbc.rawBlob.trans hab.rawBlob, hab.megaCommit.trans hbc.megaCommit⟩

/-- Adding commit rows alone cannot make `main` dangle. -/
theorem MainResolves.of_commitsOnly {store store' : Store} (h : CommitsOnly store store')
    (resolves : MainResolves store) : MainResolves store' := by
  intro row found
  obtain ⟨commit, mem, hid, tree, reach⟩ := resolves row (h.refs ▸ found)
  have present : ∀ item, ItemPresent store' item = ItemPresent store item := fun item => by
    unfold ItemPresent
    rw [h.megaTree, h.megaBlob]
  exact ⟨commit, h.megaCommit mem, hid, h.megaTree ▸ tree,
    fun item r => present item ▸ reach item (h.megaTree ▸ r)⟩

/-- Two stores hold the same rows in each table, in whatever order and however often. -/
structure SameRows (store store' : Store) : Prop where
  megaTree : ∀ t, t ∈ store.megaTree ↔ t ∈ store'.megaTree
  megaCommit : ∀ c, c ∈ store.megaCommit ↔ c ∈ store'.megaCommit
  megaBlob : ∀ b, b ∈ store.megaBlob ↔ b ∈ store'.megaBlob
  rawBlob : ∀ b, b ∈ store.rawBlob ↔ b ∈ store'.rawBlob
  refs : store.refs.rows = store'.refs.rows

theorem SameRows.symm {store store' : Store} (same : SameRows store store') :
    SameRows store' store :=
  ⟨fun t => (same.megaTree t).symm, fun c => (same.megaCommit c).symm,
    fun b => (same.megaBlob b).symm, fun b => (same.rawBlob b).symm, same.refs.symm⟩

theorem Reaches.mono {trees trees' : List MegaTree} (sub : ∀ t ∈ trees, t ∈ trees')
    {root : String} {item : TreeItem} (reach : Reaches trees root item) :
    Reaches trees' root item := by
  induction reach with
  | child mem hid hitem => exact .child (sub _ mem) hid hitem
  | descend _ hmode _ first rest => exact .descend first hmode rest

/-- Whether `main` resolves depends only on which rows the tables hold. -/
theorem MainResolves.of_sameRows {store store' : Store} (same : SameRows store store')
    (resolves : MainResolves store) : MainResolves store' := by
  intro row found
  have found' : store.refs.findOne monorepo.repoId "main" = some row := by
    simpa only [RefsTable.findOne, same.refs] using found
  obtain ⟨commit, mem, hid, ⟨megaTree, stored, htree⟩, reach⟩ := resolves row found'
  refine ⟨commit, (same.megaCommit _).mp mem, hid, ⟨megaTree, (same.megaTree _).mp stored, htree⟩,
    fun item r => ?_⟩
  have present := reach item (r.mono fun t h => (same.megaTree t).mpr h)
  unfold ItemPresent at present ⊢
  cases hmode : item.mode <;> simp only [hmode] at present ⊢
  · obtain ⟨b, mem, hb⟩ := present
    exact ⟨b, (same.megaBlob b).mp mem, hb⟩
  · obtain ⟨t, mem, ht⟩ := present
    exact ⟨t, (same.megaTree t).mp mem, ht⟩

section CreateFile

variable {fuel : Nat} {hash : ObjectHash} {store : Store} {fileInfo : CreateFileInfo}

/-- The statements of `create_mega_file`, once its reads succeed: an update of `main` that sets
no column, then one chunk with the commit row. -/
theorem createMegaFileWrites_eq_ok {writes : List Write} :
    createMegaFileWrites fuel hash store fileInfo = .ok writes ↔
      ∃ rebuild row, rebuildTrees fuel hash store fileInfo = .ok rebuild ∧
        (Sha1.fromStr rebuild.megaTree.treeId).isSome ∧
        (Sha1.fromStr (MegaStorage.getRef store.refs monorepo "main")).isSome ∧
        store.refs.findOne monorepo.repoId "main" = some row ∧
        writes = [.updateRef ⟨row.repoId, row.refName,
            .unchanged (createFileRow hash store fileInfo rebuild).commitId⟩,
          .commitChunk [createFileRow hash store fileInfo rebuild]] := by
  simp only [createMegaFileWrites, bind_eq_ok, createFileCommit_eq_ok, pure_eq_ok,
    chunks_singleton (by decide : 0 < chunkSize)]
  constructor
  · rintro ⟨rebuild, walk, _, ⟨tree, parent, rfl⟩, row, found, rfl⟩
    cases hrow : store.refs.findOne monorepo.repoId "main" with
    | none => simp [hrow, Option.elim] at found
    | some row' =>
        simp only [hrow, Option.elim, Except.ok.injEq] at found
        subst found
        exact ⟨rebuild, row', walk, tree, parent, rfl, rfl⟩
  · rintro ⟨rebuild, row, walk, tree, parent, found, rfl⟩
    exact ⟨rebuild, walk, _, ⟨tree, parent, rfl⟩, row, by simp [found, Option.elim], rfl⟩

/-- Carried out in full, the two statements add the commit row and change nothing else. -/
theorem runWrites_createMegaFile {rebuild : Rebuild} {row : RefRow}
    (found : store.refs.findOne monorepo.repoId "main" = some row) :
    runWrites store [.updateRef ⟨row.repoId, row.refName,
        .unchanged (createFileRow hash store fileInfo rebuild).commitId⟩,
      .commitChunk [createFileRow hash store fileInfo rebuild]] [true, true] =
      { store with
        megaCommit :=
          insertOrIgnore id store.megaCommit (createFileRow hash store fileInfo rebuild) } := by
  simp [runWrites, Write.apply, RefsTable.update_unchanged (RefsTable.findOne_self found),
    Except.toOption, insertMany]

/-- Carried out in full, the statements of `create_mega_file` give what `createMegaFile` gives,
and the reads that let them be issued are the ones that let `createMegaFile` return. -/
theorem createMegaFile_eq_ok_iff_writes {after : Store} :
    createMegaFile fuel hash store fileInfo = .ok after ↔
      ∃ writes, createMegaFileWrites fuel hash store fileInfo = .ok writes ∧
        runWrites store writes [true, true] = after := by
  rw [createMegaFile_eq_ok]
  constructor
  · rintro ⟨rebuild, walk, tree, parent, rfl⟩
    obtain ⟨row, found⟩ := findOne_of_getRef_sha1 parent
    exact ⟨_, createMegaFileWrites_eq_ok.mpr ⟨rebuild, row, walk, tree, parent, found, rfl⟩,
      runWrites_createMegaFile found⟩
  · rintro ⟨writes, planned, rfl⟩
    obtain ⟨rebuild, row, walk, tree, parent, found, rfl⟩ := createMegaFileWrites_eq_ok.mp planned
    exact ⟨rebuild, walk, tree, parent, runWrites_createMegaFile found⟩

/-- Wherever they are cut off and whichever fail, the statements of `create_mega_file` leave the
tables as they were or as when both are carried out: the update writes nothing, and only the
commit chunk counts. -/
theorem runWrites_createMegaFile_cases {writes : List Write}
    (planned : createMegaFileWrites fuel hash store fileInfo = .ok writes) (outcomes : List Bool) :
    runWrites store writes outcomes = store ∨
      runWrites store writes outcomes = runWrites store writes [true, true] := by
  obtain ⟨rebuild, row, -, -, -, found, rfl⟩ := createMegaFileWrites_eq_ok.mp planned
  have kept : (Write.updateRef ⟨row.repoId, row.refName,
      .unchanged (createFileRow hash store fileInfo rebuild).commitId⟩).apply store = some store := by
    simp [Write.apply, RefsTable.update_unchanged (RefsTable.findOne_self found), Except.toOption]
  have saved : (Write.commitChunk [createFileRow hash store fileInfo rebuild]).apply store =
      some { store with
        megaCommit := insertMany id store.megaCommit [createFileRow hash store fileInfo rebuild] } :=
    rfl
  rcases outcomes with _ | ⟨_ | _, outcomes⟩
  · exact .inl rfl
  · exact .inl (by simp [runWrites, Write.unwrapped])
  · rw [runWrites_cons_of_apply _ _ kept, runWrites_cons_of_apply _ _ kept]
    rcases outcomes with _ | ⟨_ | _, outcomes⟩
    · exact .inl rfl
    · exact .inl (by simp [runWrites, Write.unwrapped])
    · rw [runWrites_cons_of_apply _ _ saved, runWrites_cons_of_apply _ _ saved]
      exact .inr rfl

/-- Whatever happens to its statements, `create_mega_file` keeps `refs`, `mega_tree` and the
blob tables, and only adds commit rows. -/
theorem runWrites_createMegaFile_commitsOnly {writes : List Write}
    (planned : createMegaFileWrites fuel hash store fileInfo = .ok writes) (outcomes : List Bool) :
    CommitsOnly store (runWrites store writes outcomes) := by
  rcases runWrites_createMegaFile_cases planned outcomes with same | full
  · rw [same]
    exact .refl store
  · obtain ⟨rebuild, row, -, -, -, found, rfl⟩ := createMegaFileWrites_eq_ok.mp planned
    rw [full, runWrites_createMegaFile found]
    exact ⟨rfl, rfl, rfl, rfl, subset_foldl_insertOrIgnore [_] _⟩

/-- Whatever happens to its statements, wherever it is cut off and whichever fail,
`create_mega_file` leaves the tables either as they were or exactly as a call that returns
`Ok(())` leaves them: its one update writes nothing, so only the commit chunk counts. -/
theorem runWrites_createMegaFile_atomic {writes : List Write}
    (planned : createMegaFileWrites fuel hash store fileInfo = .ok writes) (outcomes : List Bool) :
    runWrites store writes outcomes = store ∨
      createMegaFile fuel hash store fileInfo = .ok (runWrites store writes outcomes) := by
  rcases runWrites_createMegaFile_cases planned outcomes with same | full
  · exact .inl same
  · exact .inr (createMegaFile_eq_ok_iff_writes.mpr ⟨writes, planned, full.symm⟩)

/-- What a `create_mega_file` call whose reads returned can leave, wherever it stops: the refs,
trees, blobs and raw blobs as they were, and at most one new commit row, merged and outside any
merge request, on the tree id of a stored root tree, with `main`'s id as its one parent. -/
structure CreateFileEffect (store : Store) (fileInfo : CreateFileInfo) (after : Store) : Prop where
  refs : after.refs = store.refs
  megaTree : after.megaTree = store.megaTree
  megaBlob : after.megaBlob = store.megaBlob
  rawBlob : after.rawBlob = store.rawBlob
  commit : ∃ root ∈ store.megaTree, root.parentId = none ∧ ∃ row : MegaCommit,
    row.tree = root.treeId ∧ row.parentsId = [MegaStorage.getRef store.refs monorepo "main"] ∧
    row.message = createFileMessage fileInfo ∧ row.status = .merged ∧ row.mrId = none ∧
    (after.megaCommit = store.megaCommit ∨
      after.megaCommit = insertOrIgnore id store.megaCommit row)

/-- Over every store and request, and whatever happens to its statements, a `create_mega_file`
call whose reads returned changes no ref, tree or blob row, and the one row it can add is a
commit on the tree id of a stored root tree: the last row its walk loaded, never a rebuilt tree. -/
theorem runWrites_createMegaFile_commits_on_stored_root {writes : List Write}
    (planned : createMegaFileWrites fuel hash store fileInfo = .ok writes) (outcomes : List Bool) :
    CreateFileEffect store fileInfo (runWrites store writes outcomes) := by
  have ends := runWrites_createMegaFile_cases planned outcomes
  obtain ⟨rebuild, row, walk, -, -, found, rfl⟩ := createMegaFileWrites_eq_ok.mp planned
  obtain ⟨start, leaf, climb⟩ := bind_eq_ok.mp walk
  obtain ⟨mem, root⟩ := walkUp_eq_ok_root _ start rebuild (leafRebuild_eq_ok_mem leaf) climb
  rw [runWrites_createMegaFile found] at ends
  rcases ends with ends | ends <;> rw [ends]
  · exact ⟨rfl, rfl, rfl, rfl, rebuild.megaTree, mem, root, createFileRow hash store fileInfo rebuild,
      rfl, rfl, rfl, rfl, rfl, .inl rfl⟩
  · exact ⟨rfl, rfl, rfl, rfl, rebuild.megaTree, mem, root, createFileRow hash store fileInfo rebuild,
      rfl, rfl, rfl, rfl, rfl, .inr rfl⟩

/-- Until it issues its first statement, `create_mega_file` stops only at the `unwrap`s of its two
lookups, of `Tree::from_tree_items` and of `SHA1::from_str`, or by running out of fuel. It
never reaches `update_ref`'s `unwrap` of a missing ref row: a missing `main` reads as the empty
string, which `SHA1::from_str` rejects first. -/
theorem createMegaFileWrites_faults_before_updateRef (fuel : Nat) (hash : ObjectHash)
    (store : Store) (fileInfo : CreateFileInfo) (e : Fault)
    (h : createMegaFileWrites fuel hash store fileInfo = .error e) :
    e = .pathNotFound ∨ e = .parentNotFound ∨ e = .invalidTree ∨ e = .outOfFuel ∨
      e = .invalidSha1 := by
  simp only [createMegaFileWrites, bind_eq_error] at h
  rcases h with walk | ⟨_, -, commit | ⟨_, built, missing | ⟨_, -, returned⟩⟩⟩
  · rcases rebuildTrees_eq_error walk with h | h | h | h <;> simp [h]
  · simp [createFileCommit_eq_error commit]
  · obtain ⟨row, found⟩ := findOne_of_getRef_sha1 (createFileCommit_eq_ok.mp built).2.1
    cases (elim_eq_error missing).1.symm.trans found
  · cases returned

end CreateFile

/-- The commit chunk of a call fails: the tables are as before. -/
theorem runWrites_createMegaFile_atomic_failed_chunk :
    let hash : ObjectHash := ⟨fun _ => String.mk (List.replicate 40 'b'),
      fun _ => String.mk (List.replicate 40 'd'), fun _ _ _ => String.mk (List.replicate 40 'e')⟩
    let store : Store :=
      ⟨[⟨String.mk (List.replicate 40 'a'), "/", "", none, []⟩], [], [], [],
        ⟨[⟨0, "main", String.mk (List.replicate 40 'c')⟩], by decide⟩⟩
    ∃ writes, createMegaFileWrites 1 hash store ⟨false, "a", "/", "x"⟩ = .ok writes ∧
      (runWrites store writes [true, false] = store ∨
        createMegaFile 1 hash store ⟨false, "a", "/", "x"⟩ =
          .ok (runWrites store writes [true, false])) := by
  intro hash store
  exact ⟨_, rfl, @runWrites_createMegaFile_atomic 1 hash store ⟨false, "a", "/", "x"⟩ _ rfl _⟩

/-- A file created at an empty root, its statements carried out: the commit row is on the root. -/
theorem runWrites_createMegaFile_commits_on_stored_root_at_root :
    let hash : ObjectHash := ⟨fun _ => String.mk (List.replicate 40 'b'),
      fun _ => String.mk (List.replicate 40 'd'), fun _ _ _ => String.mk (List.replicate 40 'e')⟩
    let store : Store :=
      ⟨[⟨String.mk (List.replicate 40 'a'), "/", "", none, []⟩], [], [], [],
        ⟨[⟨0, "main", String.mk (List.replicate 40 'c')⟩], by decide⟩⟩
    ∃ writes, createMegaFileWrites 1 hash store ⟨false, "a", "/", "x"⟩ = .ok writes ∧
      CreateFileEffect store ⟨false, "a", "/", "x"⟩ (runWrites store writes [true, true]) := by
  intro hash store
  exact ⟨_, rfl,
    @runWrites_createMegaFile_commits_on_stored_root 1 hash store ⟨false, "a", "/", "x"⟩ _ rfl _⟩

/-- With no `main` ref, the call stops at parsing the empty id, before `update_ref`. -/
theorem createMegaFileWrites_faults_before_updateRef_without_main :
    let hash : ObjectHash := ⟨fun _ => "b", fun _ => "t", fun _ _ _ => "m"⟩
    let store : Store :=
      { Store.empty with megaTree := [⟨String.mk (List.replicate 40 'a'), "/", "", none, []⟩] }
    createMegaFileWrites 1 hash store ⟨false, "a", "/", "x"⟩ = .error .invalidSha1 ∧
      (Fault.invalidSha1 = .pathNotFound ∨ Fault.invalidSha1 = .parentNotFound ∨
        Fault.invalidSha1 = .invalidTree ∨ Fault.invalidSha1 = .outOfFuel ∨
        Fault.invalidSha1 = .invalidSha1) := by
  intro hash store
  have failed : createMegaFileWrites 1 hash store ⟨false, "a", "/", "x"⟩ = .error .invalidSha1 :=
    rfl
  exact ⟨failed, createMegaFileWrites_faults_before_updateRef 1 hash store _ _ failed⟩

/-! ### `init_mega_directory` -/

/-- Once its ref is stored, `init_mega_directory` panics at the ref's insert, wherever it is cut
off and whichever statements fail: at most it has added its commit row. -/
theorem runWrites_initMegaDirectory_commitsOnly {converter : MegaModelConverter} {store : Store}
    (present : converter.refs.key ∈ store.refs.rows.map RefRow.key) (outcomes : List Bool) :
    CommitsOnly store (runWrites store (initMegaDirectoryWrites converter) outcomes) := by
  rcases outcomes with _ | ⟨_ | _, _ | ⟨_ | _, outcomes⟩⟩ <;>
    simp only [initMegaDirectoryWrites, runWrites, Write.apply, Write.unwrapped,
      RefsTable.insert_of_mem present, Except.toOption, Option.map_none', ite_true] <;>
    first
    | exact .refl store
    | exact ⟨rfl, rfl, rfl, rfl, List.subset_append_left _ _⟩

/-- One call keeps `refs`, `mega_tree` and the blob tables, and only adds commit rows, when it is
a `create_mega_file` or an `init_mega_directory` whose ref is stored. -/
theorem storageCall_commitsOnly (fuel : Nat) (hash : ObjectHash) (store : Store)
    (call : StorageCall) (refStored : ∀ converter, call.op = .initMegaDirectory converter →
      converter.refs.key ∈ store.refs.rows.map RefRow.key) :
    CommitsOnly store (match call.op.writes fuel hash store with
      | .ok writes => runWrites store writes call.outcomes
      | .error _ => store) := by
  rcases call with ⟨_ | fileInfo, outcomes⟩
  · exact runWrites_initMegaDirectory_commitsOnly (refStored _ rfl) outcomes
  · dsimp only [StorageOp.writes]
    split
    · exact runWrites_createMegaFile_commitsOnly ‹_› outcomes
    · exact .refl store

/-- Over every run of `create_mega_file` and `init_mega_directory` calls, each cut off anywhere
and meeting any failed statements, in which every `init_mega_directory` finds its ref already
stored: `refs`, `mega_tree` and the blob tables stay as they were and commit rows are only added,
so `main` keeps resolving if it did at the start. -/
theorem runStorageCalls_keeps_main_resolving (fuel : Nat) (hash : ObjectHash) :
    ∀ (store : Store) (calls : List StorageCall),
      (∀ call ∈ calls, ∀ converter, call.op = .initMegaDirectory converter →
        converter.refs.key ∈ store.refs.rows.map RefRow.key) →
      CommitsOnly store (runStorageCalls fuel hash store calls) ∧
        (MainResolves store → MainResolves (runStorageCalls fuel hash store calls))
  | store, [], _ => ⟨.refl store, id⟩
  | store, call :: calls, refStored => by
      have first := storageCall_commitsOnly fuel hash store call (refStored call (.head _))
      obtain ⟨rest, -⟩ := runStorageCalls_keeps_main_resolving fuel hash _ calls
        fun c mem => first.refs ▸ refStored c (.tail _ mem)
      have whole := first.trans rest
      exact ⟨whole, fun resolves => resolves.of_commitsOnly whole⟩

/-- `init_mega_directory` run again on tables holding `main`, then a file created. -/
theorem runStorageCalls_keeps_main_resolving_reinit :
    let hash : ObjectHash := ⟨fun _ => "b", fun _ => "t", fun _ _ _ => "m"⟩
    let converter : MegaModelConverter :=
      ⟨⟨"c0", "t0", [], "init"⟩, ⟨0, "main", "c0"⟩, [⟨"t0", "/", "", none, []⟩], [], []⟩
    let store : Store := { Store.empty with refs := ⟨[⟨0, "main", "c0"⟩], by decide⟩ }
    let calls : List StorageCall :=
      [⟨.initMegaDirectory converter, [true, true, true]⟩,
        ⟨.createMegaFile ⟨false, "a", "/", "x"⟩, [true, true]⟩]
    (∀ call ∈ calls, ∀ converter, call.op = .initMegaDirectory converter →
        converter.refs.key ∈ store.refs.rows.map RefRow.key) ∧
      CommitsOnly store (runStorageCalls 1 hash store calls) ∧
        (MainResolves store → MainResolves (runStorageCalls 1 hash store calls)) := by
  intro hash converter store calls
  have refStored : ∀ call ∈ calls, ∀ converter, call.op = .initMegaDirectory converter →
      converter.refs.key ∈ store.refs.rows.map RefRow.key := by
    simp [calls, converter, store, RefRow.key]
  exact ⟨refStored, runStorageCalls_keeps_main_resolving 1 hash store calls refStored⟩

/-- The tables holding exactly what the converter built: its commit row, its ref, its trees and
its blobs. -/
def MegaModelConverter.toStore (converter : MegaModelConverter) : Store :=
  ⟨converter.megaTrees, [converter.commitRow], converter.megaBlobs, converter.rawBlobs,
    ⟨[converter.refs], List.nodup_singleton _⟩⟩

/-- Carried out in full from empty tables, `init_mega_directory` stores exactly the converter's
rows: the commit and ref inserts succeed there, and the chunks of each `batch_save_model` insert
their rows. So `main` resolves after the call exactly when it resolves in the converter's own
tables. -/
theorem initMegaDirectory_full_run_stores_converter (converter : MegaModelConverter) :
    let after := runWrites Store.empty (initMegaDirectoryWrites converter)
      (List.replicate (initMegaDirectoryWrites converter).length true)
    SameRows after converter.toStore ∧ (MainResolves after ↔ MainResolves converter.toStore) := by
  intro after
  have committed : (Write.insertCommit converter.commitRow).apply Store.empty =
      some { Store.empty with megaCommit := [] ++ [converter.commitRow] } := rfl
  have inserted : (Write.insertRef converter.refs).apply
      { Store.empty with megaCommit := [] ++ [converter.commitRow] } =
        some { Store.empty with
          megaCommit := [converter.commitRow], refs := ⟨[converter.refs], List.nodup_singleton _⟩ } := by
    simp [Write.apply, RefsTable.insert, Store.empty, Except.toOption]
  have trees := runWrites_chunkWrites .treeChunk Store.megaTree
    (fun store rows => { store with megaTree := rows }) (fun _ _ => rfl) (fun _ _ => rfl)
    (fun _ _ _ => rfl) (fun _ => rfl)
  have blobs := runWrites_chunkWrites .blobChunk Store.megaBlob
    (fun store rows => { store with megaBlob := rows }) (fun _ _ => rfl) (fun _ _ => rfl)
    (fun _ _ _ => rfl) (fun _ => rfl)
  have raws := runWrites_chunkWrites .rawBlobChunk Store.rawBlob
    (fun store rows => { store with rawBlob := rows }) (fun _ _ => rfl) (fun _ _ => rfl)
    (fun _ _ _ => rfl) (fun _ => rfl)
  have ran : after = { Store.empty with
      megaTree := (chunks chunkSize converter.megaTrees).foldl (insertMany id) [],
      megaCommit := [converter.commitRow],
      megaBlob := (chunks chunkSize converter.megaBlobs).foldl (insertMany id) [],
      rawBlob := (chunks chunkSize converter.rawBlobs).foldl (insertMany id) [],
      refs := ⟨[converter.refs], List.nodup_singleton _⟩ } := by
    simp only [after, initMegaDirectoryWrites, List.length_cons, List.replicate_succ,
      List.length_append, List.length_map, List.replicate_add, List.append_assoc]
    rw [runWrites_cons_of_apply _ _ committed, runWrites_cons_of_apply _ _ inserted,
      ← List.append_nil (List.map Write.rawBlobChunk _),
      ← List.append_nil (List.replicate (chunks chunkSize converter.rawBlobs).length true),
      trees, blobs, raws]
    rfl
  have same : SameRows after converter.toStore := by
    rw [ran]
    exact ⟨mem_foldl_insertMany_chunks _, fun _ => Iff.rfl, mem_foldl_insertMany_chunks _,
      mem_foldl_insertMany_chunks _, rfl⟩
  exact ⟨same, ⟨MainResolves.of_sameRows same, MainResolves.of_sameRows same.symm⟩⟩

/-- `init_mega_directory` from the empty store, its one tree chunk failing: the call ends
normally, `main` names the new commit, and that commit's tree is not stored. -/
theorem initMegaDirectory_failed_tree_chunk_dangles (fuel : Nat) (hash : ObjectHash) :
    let converter : MegaModelConverter :=
      ⟨⟨"c0", "t0", [], "init"⟩, ⟨0, "main", "c0"⟩, [⟨"t0", "/", "", none, []⟩], [], []⟩
    let after := runStorageCalls fuel hash Store.empty
      [⟨.initMegaDirectory converter, [true, true, false]⟩]
    (initMegaDirectoryWrites converter).length = 3 ∧
      after.refs.findOne monorepo.repoId "main" = some ⟨0, "main", "c0"⟩ ∧
      after.megaCommit = [converter.commitRow] ∧ after.megaTree = [] ∧ ¬ MainResolves after := by
  intro converter after
  have writes : initMegaDirectoryWrites converter =
      [.insertCommit converter.commitRow, .insertRef converter.refs,
        .treeChunk [⟨"t0", "/", "", none, []⟩]] := by
    simp [initMegaDirectoryWrites, converter, chunks_singleton (by decide : 0 < chunkSize)]
  have ran : after = { Store.empty with
      megaCommit := [converter.commitRow], refs := ⟨[⟨0, "main", "c0"⟩], by decide⟩ } := by
    simp only [after, runStorageCalls, StorageOp.writes, writes]
    rfl
  rw [ran]
  refine ⟨by rw [writes]; rfl, rfl, rfl, rfl, fun resolves => ?_⟩
  obtain ⟨_, _, _, ⟨megaTree, mem, _⟩, _⟩ := resolves ⟨0, "main", "c0"⟩ rfl
  simp [Store.empty] at mem

end Jupiter
