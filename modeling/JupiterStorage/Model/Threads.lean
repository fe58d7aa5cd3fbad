/-
Module: JupiterStorage.Model.Threads
Purpose: `create_mega_file` calls running at once against one store. Each call is a sequence of
  atomic steps: the walk up `mega_tree`, which only reads; `get_ref` on `main`, with the commit
  built on what it read; `update_ref`; and the one chunk of `save_mega_commits`. A schedule picks
  the call that takes the next step. The ref update is a parameter, so that the code's
  `MegaStorage::update_ref` can be set beside `GitDbStorage::update_ref`.
Trusted boundary: none
Main exports: Stage, Thread, Thread.step, Sys, Sys.step, Sys.run
-/
import JupiterStorage.Model.Store

namespace Jupiter

/-- How far a `create_mega_file` call has got. -/
inductive Stage where
  /-- Nothing read yet. -/
  | start
  /-- The walk up `mega_tree` is over. -/
  | walked (rebuild : Rebuild)
  /-- `get_ref` has read `main`, and the commit is built on what it read. -/
  | built (commit : Commit)
  /-- `update_ref` has returned `Ok(())`. -/
  | refUpdated (commit : Commit)
  /-- The call returned `Ok(())`. -/
  | returned
  /-- The call panicked. -/
  | panicked (fault : Fault)
deriving DecidableEq, Repr

/-- One running `create_mega_file` call. -/
structure Thread where
  fileInfo : CreateFileInfo
  stage : Stage
deriving DecidableEq, Repr

/-- One atomic step of a call against the store, with `updateRef` as its ref update. A call that
has returned or panicked takes no more steps. -/
def Thread.step (fuel : Nat) (hash : ObjectHash)
    (updateRef : RefsTable → Repo → String → String → Except Fault RefsTable) (store : Store)
    (thread : Thread) : Store × Thread :=
  match thread.stage with
  | .start =>
      match rebuildTrees fuel hash store thread.fileInfo with
      | .ok rebuild => (store, { thread with stage := .walked rebuild })
      | .error fault => (store, { thread with stage := .panicked fault })
  | .walked rebuild =>
      match createFileCommit hash store thread.fileInfo rebuild with
      | .ok commit => (store, { thread with stage := .built commit })
      | .error fault => (store, { thread with stage := .panicked fault })
  | .built commit =>
      match updateRef store.refs monorepo "main" commit.id with
      | .ok refs => ({ store with refs }, { thread with stage := .refUpdated commit })
      | .error fault => (store, { thread with stage := .panicked fault })
  | .refUpdated commit =>
      (saveMegaCommits store none .merged [commit], { thread with stage := .returned })
  | .returned | .panicked _ => (store, thread)

/-- The store and the calls running against it. -/
structure Sys where
  store : Store
  threads : List Thread

/-- Call `i` takes a step; a schedule naming no call changes nothing. -/
def Sys.step (fuel : Nat) (hash : ObjectHash)
    (updateRef : RefsTable → Repo → String → String → Except Fault RefsTable) (sys : Sys)
    (i : Nat) : Sys :=
  match sys.threads[i]? with
  | some thread =>
      let next := thread.step fuel hash updateRef sys.store
      ⟨next.1, sys.threads.set i next.2⟩
  | none => sys

/-- The calls step in the order the schedule names them. -/
def Sys.run (fuel : Nat) (hash : ObjectHash)
    (updateRef : RefsTable → Repo → String → String → Except Fault RefsTable) (sys : Sys)
    (schedule : List Nat) : Sys :=
  schedule.foldl (Sys.step fuel hash updateRef) sys

end Jupiter
