/-
Module: JupiterStorage.Proofs.Interleaving
Purpose: `create_mega_file` calls under every schedule. Alone, a call's steps do what
  `createMegaFile` does. Under the code's `update_ref` no step of any call moves a ref or writes
  a tree: in every interleaving of any number of calls, `main` ends where it started, so no
  call's commit gets onto its parent chain. With `GitDbStorage::update_ref` in its place, the
  ref does move, but nothing compares it with the value `get_ref` read: two calls that read the
  same `main` both return `Ok(())`, and the later update drops the earlier commit.
Trusted boundary: none
Main exports: OnParentChain, Sys.run_solo_eq_ok_iff, Sys.run_commitsOnly,
  Sys.run_keeps_main, createMegaFile_interleaved_loses_update
-/
import JupiterStorage.Model.Threads
import JupiterStorage.Proofs.Crash

namespace Jupiter

/-- `OnParentChain commits head id`: `id` is `head` or, through `parents_id`, an ancestor of it. -/
inductive OnParentChain (commits : List MegaCommit) (head : String) : String → Prop
  | head : OnParentChain commits head head
  | parent {id parentId : String} {commit : MegaCommit} :
      OnParentChain commits head id → commit ∈ commits → commit.commitId = id →
      parentId ∈ commit.parentsId → OnParentChain commits head parentId

/-- A set of ids holding `head` and the parents of each of its commits holds the whole chain. -/
theorem OnParentChain.closed {commits : List MegaCommit} {head : String} (P : String → Prop)
    (hhead : P head) (hstep : ∀ commit ∈ commits, P commit.commitId → ∀ p ∈ commit.parentsId, P p)
    {id : String} (h : OnParentChain commits head id) : P id := by
  induction h with
  | head => exact hhead
  | parent _ mem hid hparent ih => exact hstep _ mem (hid ▸ ih) _ hparent

/-- `save_mega_commits` only adds commit rows. -/
theorem commitsOnly_saveMegaCommits (store : Store) (mrId : Option String)
    (status : MergeStatus) (commits : List Commit) :
    CommitsOnly store (saveMegaCommits store mrId status commits) := by
  rw [saveMegaCommits_eq]
  exact ⟨rfl, rfl, rfl, rfl, subset_foldl_insertOrIgnore _ _⟩

section Schedule

variable {fuel : Nat} {hash : ObjectHash}

/-- Under the code's `update_ref`, a step of a call keeps `refs`, `mega_tree` and the blob
tables, and only adds commit rows. -/
theorem Thread.step_commitsOnly (store : Store) (thread : Thread) :
    CommitsOnly store (thread.step fuel hash MegaStorage.updateRef store).1 := by
  unfold Thread.step
  split
  · split <;> exact .refl store
  · split <;> exact .refl store
  · split
    · exact ⟨MegaStorage.updateRef_eq_ok ‹_›, rfl, rfl, rfl, List.Subset.refl _⟩
    · exact .refl store
  · exact commitsOnly_saveMegaCommits store _ _ _
  · exact .refl store
  · exact .refl store

/-- Under the code's `update_ref`, every schedule of any number of calls keeps `refs`,
`mega_tree` and the blob tables, and only adds commit rows. -/
theorem Sys.run_commitsOnly :
    ∀ (sys : Sys) (schedule : List Nat),
      CommitsOnly sys.store (sys.run fuel hash MegaStorage.updateRef schedule).store
  | _, [] => .refl _
  | sys, i :: schedule => by
      refine CommitsOnly.trans ?_ (Sys.run_commitsOnly (sys.step fuel hash _ i) schedule)
      unfold Sys.step
      split
      · exact Thread.step_commitsOnly _ _
      · exact .refl _

/-- Under the code's `update_ref`, in every interleaving of any number of `create_mega_file`
calls, `main` ends where it started, and it still resolves if it did. -/
theorem Sys.run_keeps_main (sys : Sys) (schedule : List Nat) :
    MegaStorage.getRef (sys.run fuel hash MegaStorage.updateRef schedule).store.refs monorepo
        "main" = MegaStorage.getRef sys.store.refs monorepo "main" ∧
      (MainResolves sys.store →
        MainResolves (sys.run fuel hash MegaStorage.updateRef schedule).store) := by
  have kept := @Sys.run_commitsOnly fuel hash sys schedule
  exact ⟨by rw [kept.refs], fun resolves => resolves.of_commitsOnly kept⟩

/-- Alone, the four steps of a call do what `createMegaFile` does. -/
theorem Sys.run_solo_eq_ok_iff {store after : Store} {fileInfo : CreateFileInfo} :
    createMegaFile fuel hash store fileInfo = .ok after ↔
      Sys.run fuel hash MegaStorage.updateRef ⟨store, [⟨fileInfo, .start⟩]⟩ [0, 0, 0, 0] =
        ⟨after, [⟨fileInfo, .returned⟩]⟩ := by
  simp only [createMegaFile, Sys.run, List.foldl_cons, List.foldl_nil]
  cases hwalk : rebuildTrees fuel hash store fileInfo with
  | error fault => simp [Sys.step, Thread.step, hwalk, bind, Except.bind]
  | ok rebuild =>
      cases hcommit : createFileCommit hash store fileInfo rebuild with
      | error fault => simp [Sys.step, Thread.step, hwalk, hcommit, bind, Except.bind]
      | ok commit =>
          cases hupdate : MegaStorage.updateRef store.refs monorepo "main" commit.id with
          | error fault => simp [Sys.step, Thread.step, hwalk, hcommit, hupdate, bind, Except.bind]
          | ok refs =>
              simp [Sys.step, Thread.step, hwalk, hcommit, hupdate, bind, Except.bind]

end Schedule

/-- Two calls on one store, each reading `main` before either updates it. Under the code's
`update_ref` both return `Ok(())` and `main` stays on its old commit, so neither new commit is on
its parent chain. With `GitDbStorage::update_ref` in its place both still return `Ok(())`, and
`main` ends on the second commit, whose chain lacks the first. -/
theorem createMegaFile_interleaved_loses_update :
    let hash : ObjectHash := ⟨fun _ => String.mk (List.replicate 40 'b'),
      fun _ => String.mk (List.replicate 40 'd'), fun _ _ message => message⟩
    let root := String.mk (List.replicate 40 'a')
    let head := String.mk (List.replicate 40 'c')
    let sys : Sys :=
      ⟨⟨[⟨root, "/", "", none, []⟩], [⟨head, root, [], "init", .merged, none⟩], [], [],
          ⟨[⟨0, "main", head⟩], by decide⟩⟩,
        [⟨⟨false, "a", "/", "x"⟩, .start⟩, ⟨⟨false, "b", "/", "y"⟩, .start⟩]⟩
    let schedule := [0, 1, 0, 1, 0, 1, 0, 1]
    let mega := sys.run 1 hash MegaStorage.updateRef schedule
    let gitDb := sys.run 1 hash GitDbStorage.updateRef schedule
    mega.threads.map Thread.stage = [.returned, .returned] ∧
      MegaStorage.getRef mega.store.refs monorepo "main" = head ∧
      ¬ OnParentChain mega.store.megaCommit head "create file a commit" ∧
      ¬ OnParentChain mega.store.megaCommit head "create file b commit" ∧
      gitDb.threads.map Thread.stage = [.returned, .returned] ∧
      MegaStorage.getRef gitDb.store.refs monorepo "main" = "create file b commit" ∧
      ¬ OnParentChain gitDb.store.megaCommit "create file b commit" "create file a commit" := by
  intro hash root head sys schedule mega gitDb
  refine ⟨by decide, by decide, fun h => ?_, fun h => ?_, by decide, by decide, fun h => ?_⟩
  · exact absurd (h.closed (· = head) rfl (by decide)) (by decide)
  · exact absurd (h.closed (· = head) rfl (by decide)) (by decide)
  · exact absurd (h.closed (fun id => id = "create file b commit" ∨ id = head) (.inl rfl)
      (by decide)) (by decide)

end Jupiter
