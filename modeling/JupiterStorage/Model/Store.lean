/-
Module: JupiterStorage.Model.Store
Purpose: The monorepo tables of `MegaStorage` and `create_mega_file`, which reads the
  `MegaTree` at the request's path, pushes the new item into its items, and walks `parent_id`
  upward with `get_mega_tree_by_sha`, re-pointing the child's entry in each parent; it then
  builds a commit on `mega_tree.tree_id`, calls `update_ref` on `main` and saves the commit.
  The walk is a `while let` loop; here it runs on fuel, and running out is a fault of its own.
  Here every statement succeeds; the statement-level model with failures and crashes, and
  `init_mega_directory`, are in `JupiterStorage.Model.Writes`.
Trusted boundary: none
Main exports: MegaTree, MegaCommit, Store, getMegaTreeByPath, getMegaTreeBySha, CreateFileInfo,
  newItem, Rebuild, walkUp, leafRebuild, rebuildTrees, createMegaFile
-/
import JupiterStorage.Model.Batch
import JupiterStorage.Model.Refs

namespace Jupiter

/-- A row of `mega_tree` (its `callisto` model is not among the sources), with the columns the
modelled code reads; `sub_trees` is kept decoded, as the items `Tree::from` gives. -/
structure MegaTree where
  treeId : String
  fullPath : String
  name : String
  parentId : Option String
  subTrees : List TreeItem
deriving DecidableEq, Repr

/-- `Tree::from(mega_tree::Model)`. -/
def MegaTree.toTree (megaTree : MegaTree) : Tree :=
  ⟨megaTree.treeId, megaTree.subTrees⟩

/-- `MergeStatus` (in `callisto`). -/
inductive MergeStatus where
  | open
  | merged
deriving DecidableEq, Repr

/-- A row of `mega_commit`, with the columns the modelled code writes. -/
structure MegaCommit where
  commitId : String
  tree : String
  parentsId : List String
  message : String
  status : MergeStatus
  mrId : Option String
deriving DecidableEq, Repr

/-- `mega_commit::Model::from(Commit)`; every caller sets `status` and `mr_id` afterwards. -/
def MegaCommit.ofCommit (commit : Commit) : MegaCommit :=
  ⟨commit.id, commit.treeId, commit.parentIds, commit.message, .open, none⟩

/-- A row of `mega_blob`. -/
structure MegaBlob where
  blobId : String
deriving DecidableEq, Repr

/-- A row of `raw_blob`. -/
structure RawBlob where
  sha1 : String
  content : String
deriving DecidableEq, Repr

/-- The tables of the monorepo, each with its rows in storage order. -/
structure Store where
  megaTree : List MegaTree
  megaCommit : List MegaCommit
  megaBlob : List MegaBlob
  rawBlob : List RawBlob
  refs : RefsTable

/-- The store with no rows. -/
def Store.empty : Store :=
  ⟨[], [], [], [], ⟨[], List.nodup_nil⟩⟩

/-- `get_mega_tree_by_path`: `mega_tree::Entity::find().filter(FullPath.eq(..)).one(db)`, the
first row in storage order. -/
def getMegaTreeByPath (store : Store) (fullPath : String) : Option MegaTree :=
  store.megaTree.find? (fun megaTree => megaTree.fullPath = fullPath)

/-- `get_mega_tree_by_sha`: `mega_tree::Entity::find().filter(TreeId.eq(..)).one(db)`, the
first row in storage order. -/
def getMegaTreeBySha (store : Store) (sha : String) : Option MegaTree :=
  store.megaTree.find? (fun megaTree => megaTree.treeId = sha)

/-- `CreateFileInfo` (in `ganymede`): a request to create a file or a directory. -/
structure CreateFileInfo where
  isDirectory : Bool
  name : String
  path : String
  content : String
deriving DecidableEq, Repr

/-- Modelled from the spec: `converter::generate_git_keep()` is the empty placeholder blob that
keeps a new directory representable. -/
def generateGitKeep (hash : ObjectHash) : String :=
  hash.blob ""

/-- Lift `Tree::from_tree_items(..).unwrap()`. -/
def fromTreeItemsUnwrap (hash : ObjectHash) (treeItems : List TreeItem) : Except Fault Tree :=
  (Tree.fromTreeItems hash treeItems).mapError fun _ => .invalidTree

/-- The item `create_mega_file` adds: a directory is a tree holding only `.gitkeep`; a file is the
blob of its content. -/
def newItem (hash : ObjectHash) (fileInfo : CreateFileInfo) : Except Fault TreeItem :=
  if fileInfo.isDirectory then do
    let treeItem : TreeItem := ⟨.blob, generateGitKeep hash, ".gitkeep"⟩
    let childTree ← fromTreeItemsUnwrap hash [treeItem]
    pure ⟨.tree, childTree.id, fileInfo.name⟩
  else pure ⟨.blob, hash.blob fileInfo.content, fileInfo.name⟩

/-- The variables of the upward walk: `mega_tree`, `new_tree` and `save_trees`. -/
structure Rebuild where
  megaTree : MegaTree
  newTree : Tree
  saveTrees : List Tree
deriving DecidableEq, Repr

/-- One pass of `while let Some(parent_id) = mega_tree.parent_id`: load a `MegaTree` with the
parent's id, re-point its entry named after the child at the new tree, and hash it. -/
def walkStep (hash : ObjectHash) (store : Store) (rebuild : Rebuild) (parentId : String) :
    Except Fault Rebuild := do
  let replaceName := rebuild.megaTree.name
  let megaTree ← (getMegaTreeBySha store parentId).elim (.error .parentNotFound) .ok
  let tmp := megaTree.toTree
  let newTree ← fromTreeItemsUnwrap hash (repointItem replaceName rebuild.newTree.id tmp.treeItems)
  pure ⟨megaTree, newTree, rebuild.saveTrees ++ [newTree]⟩

/-- The `while let` loop, given fuel for as many passes. -/
def walkUp (hash : ObjectHash) (store : Store) : Nat → Rebuild → Except Fault Rebuild
  | fuel, rebuild =>
      match rebuild.megaTree.parentId, fuel with
      | none, _ => .ok rebuild
      | some _, 0 => .error .outOfFuel
      | some parentId, fuel + 1 => walkStep hash store rebuild parentId >>= walkUp hash store fuel

/-- The part of `create_mega_file` before its loop: the row of the parent directory, and its
tree with the new item pushed into its items. -/
def leafRebuild (hash : ObjectHash) (store : Store) (fileInfo : CreateFileInfo) :
    Except Fault Rebuild := do
  let megaTree ← (getMegaTreeByPath store fileInfo.path).elim (.error .pathNotFound) .ok
  let pTree := megaTree.toTree
  let item ← newItem hash fileInfo
  let newTree ← fromTreeItemsUnwrap hash (pTree.treeItems ++ [item])
  pure ⟨megaTree, newTree, [newTree]⟩

/-- The first part of `create_mega_file`, which only reads `mega_tree`: the leaf and the walk
from it up to a root. -/
def rebuildTrees (fuel : Nat) (hash : ObjectHash) (store : Store) (fileInfo : CreateFileInfo) :
    Except Fault Rebuild :=
  leafRebuild hash store fileInfo >>= walkUp hash store fuel

/-- `Repo { repo_id: 0, .. }`, the repository `create_mega_file` reads and moves `main` in. -/
def monorepo : Repo :=
  ⟨0⟩

/-- `save_mega_commits(mr_id, status, commits)` with every chunk statement succeeding, committed
in issue order. A failed chunk, which `batch_save_model` drops while still returning `Ok(())`,
is modelled at the level of statements (`runWrites` with `createMegaFileWrites`). -/
def saveMegaCommits (store : Store) (mrId : Option String) (status : MergeStatus)
    (commits : List Commit) : Store :=
  let saveModels := commits.map fun commit => { MegaCommit.ofCommit commit with status, mrId }
  { store with megaCommit := (batchSaveModel id store.megaCommit saveModels (.inOrder _)).1 }

/-- The message of the commit `create_mega_file` makes. -/
def createFileMessage (fileInfo : CreateFileInfo) : String :=
  "create file " ++ fileInfo.name ++ " commit"

/-- The commit `create_mega_file` builds once the walk is over: on the tree id of the last
`mega_tree` loaded, with the current value of `main` as its parent. -/
def createFileCommit (hash : ObjectHash) (store : Store) (fileInfo : CreateFileInfo)
    (rebuild : Rebuild) : Except Fault Commit := do
  let refId := MegaStorage.getRef store.refs monorepo "main"
  let treeSha ← (Sha1.fromStr rebuild.megaTree.treeId).elim (.error .invalidSha1) .ok
  let parentSha ← (Sha1.fromStr refId).elim (.error .invalidSha1) .ok
  pure (initCommit hash treeSha [parentSha] (createFileMessage fileInfo))

/-- `MegaStorage::create_mega_file` with every database statement succeeding: no read hits a
database error, `update_ref`'s update is carried out, and the commit chunk commits. Its
statements failing or the call being cut off is modelled by `createMegaFileWrites` run through
`runWrites`, and its steps interleaving with other calls by `Thread.step`. -/
def createMegaFile (fuel : Nat) (hash : ObjectHash) (store : Store) (fileInfo : CreateFileInfo) :
    Except Fault Store := do
  let rebuild ← rebuildTrees fuel hash store fileInfo
  let commit ← createFileCommit hash store fileInfo rebuild
  let refs ← MegaStorage.updateRef store.refs monorepo "main" commit.id
  pure (saveMegaCommits { store with refs } none .merged [commit])

end Jupiter
