/-
Module: JupiterStorage.Model.Writes
Purpose: The statements `init_mega_directory` and `create_mega_file` issue, one table write
  each, for runs that crash or meet failed writes. A call may be cut off after any statement,
  and any statement may fail. A failed statement changes nothing, and it stops the call only
  where the code unwraps its result: the single inserts and `update_ref` panic, while a failed
  chunk of `batch_save_model` is dropped by `join_all` and the call goes on. The chunks of one
  `batch_save_model` call run concurrently; here they commit in issue order, and since any of
  them may fail, every set of committed chunks is covered.
Trusted boundary: `MegaModelConverter` (what `ganymede` builds for `init_mega_directory`)
Main exports: Write, Write.apply, Write.unwrapped, runWrites, MegaModelConverter,
  initMegaDirectoryWrites, createMegaFileWrites, StorageOp, StorageCall, runStorageCalls
-/
import JupiterStorage.Model.Store

namespace Jupiter

/-- One statement a storage call sends to the database. -/
inductive Write where
  /-- `mega_commit::Entity::insert(..).exec(..)`. -/
  | insertCommit (row : MegaCommit)
  /-- `refs::Entity::insert(..).exec(..)`. -/
  | insertRef (row : RefRow)
  /-- `ActiveModel::update(..)` on `refs`. -/
  | updateRef (activeModel : RefActiveModel)
  /-- One chunk `insert_many` of `batch_save_model` into `mega_commit`. -/
  | commitChunk (rows : List MegaCommit)
  /-- One chunk `insert_many` of `batch_save_model` into `mega_tree`. -/
  | treeChunk (rows : List MegaTree)
  /-- One chunk `insert_many` of `batch_save_model` into `mega_blob`. -/
  | blobChunk (rows : List MegaBlob)
  /-- One chunk `insert_many` of `batch_save_model` into `raw_blob`. -/
  | rawBlobChunk (rows : List RawBlob)

/-- The tables after the database carries a statement out, or `none` when it rejects it: an
insert on the unique key of `refs`, or an update that finds no row. -/
def Write.apply (store : Store) : Write → Option Store
  | .insertCommit row => some { store with megaCommit := store.megaCommit ++ [row] }
  | .insertRef row => (store.refs.insert row).toOption.map fun refs => { store with refs }
  | .updateRef activeModel =>
      (store.refs.update activeModel).toOption.map fun refs => { store with refs }
  | .commitChunk rows => some { store with megaCommit := insertMany id store.megaCommit rows }
  | .treeChunk rows => some { store with megaTree := insertMany id store.megaTree rows }
  | .blobChunk rows => some { store with megaBlob := insertMany id store.megaBlob rows }
  | .rawBlobChunk rows => some { store with rawBlob := insertMany id store.rawBlob rows }

/-- Whether the call unwraps the statement's result, so that its failure panics. -/
def Write.unwrapped : Write → Bool
  | .insertCommit _ | .insertRef _ | .updateRef _ => true
  | .commitChunk _ | .treeChunk _ | .blobChunk _ | .rawBlobChunk _ => false

/-- A call's statements against the database. `outcomes` says for each statement whether the
database carries it out, and the call is cut off where `outcomes` ends. A failed statement
changes nothing; it stops the call when the call unwraps it. -/
def runWrites : Store → List Write → List Bool → Store
  | store, [], _ => store
  | store, _ :: _, [] => store
  | store, write :: writes, ok :: outcomes =>
      match ok, write.apply store with
      | true, some next => runWrites next writes outcomes
      | _, _ => if write.unwrapped then store else runWrites store writes outcomes

/-- What `MegaModelConverter::init()` and `traverse_from_root()` (in `ganymede`) leave in the
converter: the root commit, the `main` ref row, and the rows of the trees and blobs under the
monorepo root. -/
structure MegaModelConverter where
  commit : Commit
  refs : RefRow
  megaTrees : List MegaTree
  megaBlobs : List MegaBlob
  rawBlobs : List RawBlob

/-- The commit row `init_mega_directory` inserts. -/
def MegaModelConverter.commitRow (converter : MegaModelConverter) : MegaCommit :=
  { MegaCommit.ofCommit converter.commit with status := .merged }

/-- `MegaStorage::init_mega_directory`: the commit and the ref are inserted one by one, then the
trees, the blobs and the raw blobs through `batch_save_model`, one statement per chunk. -/
def initMegaDirectoryWrites (converter : MegaModelConverter) : List Write :=
  .insertCommit converter.commitRow :: .insertRef converter.refs ::
    ((chunks chunkSize converter.megaTrees).map .treeChunk ++
      (chunks chunkSize converter.megaBlobs).map .blobChunk ++
      (chunks chunkSize converter.rawBlobs).map .rawBlobChunk)

/-- The statements of `MegaStorage::create_mega_file`, issued once its reads are done: the walk
up `mega_tree`, `get_ref` and the `.one()` of `update_ref`. A read that panics issues none. Then
`update_ref` sends its update and `save_mega_commits` its one chunk. -/
def createMegaFileWrites (fuel : Nat) (hash : ObjectHash) (store : Store)
    (fileInfo : CreateFileInfo) : Except Fault (List Write) := do
  let rebuild ← rebuildTrees fuel hash store fileInfo
  let commit ← createFileCommit hash store fileInfo rebuild
  let refData ← (store.refs.findOne monorepo.repoId "main").elim (.error .refNotFound) .ok
  let refData := { refData with refGitId := commit.id }
  let saveModels := [{ MegaCommit.ofCommit commit with status := .merged, mrId := none }]
  pure (.updateRef refData.intoActiveModel :: (chunks chunkSize saveModels).map .commitChunk)

/-- A call that writes the monorepo tables. -/
inductive StorageOp where
  | initMegaDirectory (converter : MegaModelConverter)
  | createMegaFile (fileInfo : CreateFileInfo)

/-- The statements a call issues against the tables it reads. -/
def StorageOp.writes (fuel : Nat) (hash : ObjectHash) (store : Store) :
    StorageOp → Except Fault (List Write)
  | .initMegaDirectory converter => .ok (initMegaDirectoryWrites converter)
  | .createMegaFile fileInfo => createMegaFileWrites fuel hash store fileInfo

/-- A call, with the outcome of each statement it got to issue. -/
structure StorageCall where
  op : StorageOp
  outcomes : List Bool

/-- The tables after a run of calls, one after another. A call that panics on a read leaves
them as they were; a crash is a call whose outcomes end early. -/
def runStorageCalls (fuel : Nat) (hash : ObjectHash) : Store → List StorageCall → Store
  | store, [] => store
  | store, call :: calls =>
      runStorageCalls fuel hash
        (match call.op.writes fuel hash store with
          | .ok writes => runWrites store writes call.outcomes
          | .error _ => store)
        calls

end Jupiter
