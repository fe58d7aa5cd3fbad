/-
Module: JupiterStorage.Proofs.Refs
Purpose: The `refs` table read as a finite map from `(repo_id, ref_name)` to an id. Under
  `GitDbStorage`'s calls the table refines that map over every run: each call that returns
  `Ok(())` changes the map as the call says, and a refused call changes nothing.
  `MegaStorage::update_ref` breaks the refinement: it returns `Ok(())` and leaves
  the id as it was, so over every run `MegaStorage` is `GitDbStorage` with its `update_ref`
  calls dropped.
Trusted boundary: none
Main exports: RefsTable.view, RefCall, RefCall.run, GitDbStorage.runCalls,
  GitDbStorage.runCalls_view, MegaStorage.runCalls, megaStorage_runCalls_eq_gitDb_without_updates
-/
import JupiterStorage.Model.Refs

namespace Jupiter

/-- The table read as a map from `(repo_id, ref_name)` to the ref's id. -/
def RefsTable.view (table : RefsTable) (key : Int × String) : Option String :=
  (table.rows.find? (fun row => row.key = key)).map RefRow.refGitId

/-- A ref call of the `GitStorageProvider` trait. -/
inductive RefCall where
  | saveRef (repo : Repo) (refs : RefCommand)
  | removeRef (repo : Repo) (refs : RefCommand)
  | updateRef (repo : Repo) (refName newId : String)
deriving DecidableEq, Repr

/-- Whether a call is an `update_ref`. -/
def RefCall.isUpdate : RefCall → Bool
  | .updateRef .. => true
  | _ => false

/-- What a call that returned `Ok(())` says the map now holds. -/
def RefCall.record (view : Int × String → Option String) :
    RefCall → Int × String → Option String
  | .saveRef repo refs => Function.update view (repo.repoId, refs.refName) (some refs.newId)
  | .removeRef repo refs => Function.update view (repo.repoId, refs.refName) none
  | .updateRef repo refName newId => Function.update view (repo.repoId, refName) (some newId)

/-- A run of calls on one provider, given its `call`: each call that returns `Ok(())` moves the
table on and is kept; a call that panics leaves the table as it was. -/
def RefCall.run (call : RefsTable → RefCall → Except Fault RefsTable) :
    RefsTable → List RefCall → RefsTable × List RefCall
  | table, [] => (table, [])
  | table, c :: calls =>
      match call table c with
      | .ok next => ((RefCall.run call next calls).1, c :: (RefCall.run call next calls).2)
      | .error _ => RefCall.run call table calls

namespace RefsTable

variable {table : RefsTable}

theorem view_insert {row : RefRow} {table' : RefsTable} (h : table.insert row = .ok table') :
    table'.view = Function.update table.view row.key (some row.refGitId) := by
  unfold insert at h
  split at h
  · cases h
  · rename_i absent
    cases h
    funext key
    by_cases hk : key = row.key
    · subst hk
      have before : table.rows.find? (fun r => r.key = row.key) = none := by
        simpa using fun (r : RefRow) (mem : r ∈ table.rows) (hr : r.key = row.key) =>
          absent (hr ▸ List.mem_map_of_mem RefRow.key mem)
      simp [view, List.find?_append, before]
    · simp [view, List.find?_append, Function.update_noteq hk, Ne.symm hk, Option.or_none]

theorem view_deleteMany (repoId : Int) (refName : String) :
    (table.deleteMany repoId refName).view = Function.update table.view (repoId, refName) none := by
  funext key
  by_cases hk : key = (repoId, refName)
  · subst hk
    simp [view, deleteMany]
  · rw [Function.update_noteq hk, view, view, deleteMany, List.find?_filter]
    congr 2
    funext row
    by_cases h : row.key = key <;> simp [h, hk]

theorem view_setGitId {repoId : Int} {refName : String} {row : RefRow}
    (found : table.findOne repoId refName = some row) (refGitId : String) :
    (table.setGitId repoId refName refGitId).view =
      Function.update table.view (repoId, refName) (some refGitId) := by
  funext key
  have keyed : ((fun r : RefRow => decide (r.key = key)) ∘ fun r : RefRow =>
      if r.key = (repoId, refName) then { r with refGitId } else r) =
      fun r => decide (r.key = key) :=
    funext fun r => by dsimp only [Function.comp_apply]; split <;> rfl
  have hrow := RefsTable.findOne_key found
  simp only [view, setGitId, List.find?_map, keyed]
  by_cases hk : key = (repoId, refName)
  · subst hk
    rw [show table.rows.find? (fun r => decide (r.key = (repoId, refName))) = some row from found]
    simp only [RefRow.key, Prod.mk.injEq] at hrow
    simp [hrow, RefRow.key]
  · rw [Function.update_noteq hk]
    cases hfound : table.rows.find? (fun r => r.key = key) with
    | none => simp [view, hfound]
    | some r =>
        have : r.key = key := by simpa using List.find?_some hfound
        simp [view, hfound, this, hk]

end RefsTable

namespace GitDbStorage

/-- One call on `GitDbStorage`. -/
def call (table : RefsTable) : RefCall → Except Fault RefsTable
  | .saveRef repo refs => saveRef table repo refs
  | .removeRef repo refs => removeRef table repo refs
  | .updateRef repo refName newId => updateRef table repo refName newId

/-- A run of calls on `GitDbStorage`. -/
def runCalls (table : RefsTable) (calls : List RefCall) : RefsTable × List RefCall :=
  RefCall.run call table calls

/-- One call that returns `Ok(())` changes the map exactly as the call says. -/
theorem call_view {table next : RefsTable} {c : RefCall} (h : call table c = .ok next) :
    next.view = c.record table.view := by
  cases c with
  | saveRef repo refs => exact RefsTable.view_insert h
  | removeRef repo refs =>
      cases h
      exact RefsTable.view_deleteMany _ _
  | updateRef repo refName newId =>
      cases found : table.findOne repo.repoId refName with
      | none => simp [call, updateRef_eq_error found] at h
      | some row =>
          rw [call, updateRef_eq_ok_setGitId found] at h
          cases h
          exact RefsTable.view_setGitId found newId

/-- Over a whole run, the table's map is the initial map with the calls that returned `Ok(())`
recorded in order. -/
theorem runCalls_view (table : RefsTable) (calls : List RefCall) :
    (runCalls table calls).1.view = (runCalls table calls).2.foldl RefCall.record table.view := by
  unfold runCalls
  induction calls generalizing table with
  | nil => rfl
  | cons c calls ih =>
      simp only [RefCall.run]
      split
      · rename_i next h
        rw [ih, List.foldl_cons, call_view h]
      · exact ih table

end GitDbStorage

/-! ### The two providers

`MegaStorage` and `GitDbStorage` implement the same trait over the same `refs` table. Their
`save_ref` and `remove_ref` are the same statements. Their `update_ref`s differ: `MegaStorage`'s
sends an `ActiveModel` with no `Set` column, so on an existing ref it returns `Ok(())` and writes
nothing. -/

namespace MegaStorage

/-- One call on `MegaStorage`. -/
def call (table : RefsTable) : RefCall → Except Fault RefsTable
  | .saveRef repo refs => saveRef table repo refs
  | .removeRef repo refs => removeRef table repo refs
  | .updateRef repo refName newId => updateRef table repo refName newId

/-- A run of calls on `MegaStorage`. -/
def runCalls (table : RefsTable) (calls : List RefCall) : RefsTable × List RefCall :=
  RefCall.run call table calls

/-- Apart from `update_ref`, a call on `MegaStorage` is the same call on `GitDbStorage`. -/
theorem call_of_not_isUpdate (table : RefsTable) {c : RefCall} (h : c.isUpdate = false) :
    call table c = GitDbStorage.call table c := by
  cases c with
  | saveRef repo refs => rfl
  | removeRef repo refs => rfl
  | updateRef repo refName newId => cases h

/-- An `update_ref` on `MegaStorage` that returns leaves the table as it was. -/
theorem call_updateRef_eq_ok {table next : RefsTable} {repo : Repo} {refName newId : String}
    (h : call table (.updateRef repo refName newId) = .ok next) : next = table :=
  updateRef_eq_ok h

end MegaStorage

/-- `MegaStorage` is `GitDbStorage` with every `update_ref` dropped: over every run of ref calls,
from every table, the table it leaves is the one `GitDbStorage` leaves on the same run without
its `update_ref` calls. -/
theorem megaStorage_runCalls_eq_gitDb_without_updates (table : RefsTable) (calls : List RefCall) :
    (MegaStorage.runCalls table calls).1 =
      (GitDbStorage.runCalls table (calls.filter fun c => !c.isUpdate)).1 := by
  unfold MegaStorage.runCalls GitDbStorage.runCalls
  induction calls generalizing table with
  | nil => rfl
  | cons c calls ih =>
      cases hc : c.isUpdate with
      | true =>
          rw [List.filter_cons_of_neg (by simp [hc])]
          simp only [RefCall.run]
          cases c with
          | updateRef repo refName newId =>
              split
              · rename_i next h
                rw [MegaStorage.call_updateRef_eq_ok h, ih]
              · exact ih table
          | _ => cases hc
      | false =>
          rw [List.filter_cons_of_pos (by simp [hc])]
          simp only [RefCall.run, MegaStorage.call_of_not_isUpdate table hc]
          split
          · exact ih _
          · exact ih table

end Jupiter
