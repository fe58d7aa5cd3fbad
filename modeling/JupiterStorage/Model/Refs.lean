/-
Module: JupiterStorage.Model.Refs
Purpose: The `refs` table and the ref calls of `MegaStorage` and `GitDbStorage`. The table keeps
  `(repo_id, ref_name)` unique, as the spec's data model says; the schema itself is not among the
  sources, so the key is carried by the table's type. Updates go through SeaORM's `ActiveModel`:
  `Model::into_active_model` marks every column `Unchanged`, and `ActiveModel::update` writes only
  the `Set` columns, skipping the statement when there are none.
Trusted boundary: the unique key of `refs`; `refs::Model::from(RefCommand)`
Main exports: Repo, RefCommand, RefRow, RefsTable, ActiveValue, RefActiveModel,
  GitDbStorage.saveRef/removeRef/getRef/updateRef, MegaStorage.saveRef/removeRef/getRef/updateRef,
  MegaStorage.updateRef_eq_ok, megaStorage_updateRef_leaves_old_id
-/
import JupiterStorage.Model.Object
import Mathlib.Data.List.Nodup

namespace Jupiter

/-- `Repo { repo_id, repo_path, repo_name }` (in `venus`); the ref calls read only its id. -/
structure Repo where
  repoId : Int
deriving DecidableEq, Repr

/-- `RefCommand { ref_name, old_id, new_id, .. }` (in `venus`). -/
structure RefCommand where
  refName : String
  oldId : String
  newId : String
deriving DecidableEq, Repr

/-- A row of `refs`. Its primary key `id` and its timestamps are not read by the modelled calls;
the unique key `(repo_id, ref_name)` identifies the row. -/
structure RefRow where
  repoId : Int
  refName : String
  refGitId : String
deriving DecidableEq, Repr

/-- The unique key of `refs`. -/
def RefRow.key (row : RefRow) : Int × String :=
  (row.repoId, row.refName)

/-- Modelled from the spec: `refs::Model::from(RefCommand)` is the row of the command's ref at its
new id (the repository is set by the caller). -/
def RefRow.ofRefCommand (refs : RefCommand) : RefRow :=
  ⟨0, refs.refName, refs.newId⟩

/-- `Refs { ref_name, ref_hash, .. }` (in `venus`), as `GitDbStorage::get_ref` lists them. -/
structure Refs where
  refName : String
  refHash : String
deriving DecidableEq, Repr

/-- `From<refs::Model> for Refs`. -/
def Refs.ofModel (row : RefRow) : Refs :=
  ⟨row.refName, row.refGitId⟩

/-- Modelled from the spec: the `refs` table, whose rows keep `(repo_id, ref_name)` unique. -/
structure RefsTable where
  rows : List RefRow
  keysNodup : (rows.map RefRow.key).Nodup

/-- `sea_orm::ActiveValue`: a column value an `ActiveModel` sets or keeps. (Its `NotSet` is
never built by the modelled calls.) -/
inductive ActiveValue (α : Type) where
  | set (value : α)
  | unchanged (value : α)
deriving DecidableEq, Repr

/-- `refs::ActiveModel`, with the key columns that locate the row and `ref_git_id`, the one
column the ref calls change. (`updated_at` is set beside it and not read by any modelled call.) -/
structure RefActiveModel where
  repoId : Int
  refName : String
  refGitId : ActiveValue String
deriving DecidableEq, Repr

/-- `Model::into_active_model()`, and `.into()`: every column `Unchanged`. -/
def RefRow.intoActiveModel (row : RefRow) : RefActiveModel :=
  ⟨row.repoId, row.refName, .unchanged row.refGitId⟩

namespace RefsTable

/-- `refs::Entity::find().filter(RepoId.eq(repo_id)).filter(RefName.eq(ref_name)).one(db)`. -/
def findOne (table : RefsTable) (repoId : Int) (refName : String) : Option RefRow :=
  table.rows.find? (fun row => row.key = (repoId, refName))

theorem findOne_key {table : RefsTable} {repoId : Int} {refName : String} {row : RefRow}
    (found : table.findOne repoId refName = some row) : row.key = (repoId, refName) := by
  simpa using List.find?_some (show table.rows.find? _ = some row from found)

theorem findOne_self {table : RefsTable} {repoId : Int} {refName : String} {row : RefRow}
    (found : table.findOne repoId refName = some row) :
    table.findOne row.repoId row.refName = some row := by
  have hkey := findOne_key found
  simp only [RefRow.key, Prod.mk.injEq] at hkey
  rwa [hkey.1, hkey.2]

/-- `refs::Entity::find().filter(RepoId.eq(repo_id)).all(db)`. -/
def findAll (table : RefsTable) (repoId : Int) : List RefRow :=
  table.rows.filter (fun row => row.repoId = repoId)

/-- `refs::Entity::insert(model).exec(db)`, refused on the unique key. -/
def insert (table : RefsTable) (row : RefRow) : Except Fault RefsTable :=
  if present : row.key ∈ table.rows.map RefRow.key then .error .uniqueViolation
  else .ok ⟨table.rows ++ [row], by
    rw [List.map_append, List.map_singleton]
    exact table.keysNodup.append (List.nodup_singleton _)
      fun k hk hk' => present (List.mem_singleton.mp hk' ▸ hk)⟩

theorem insert_of_mem {table : RefsTable} {row : RefRow}
    (present : row.key ∈ table.rows.map RefRow.key) : table.insert row = .error .uniqueViolation :=
  dif_pos present

/-- `refs::Entity::delete_many().filter(..repo_id..).filter(..ref_name..).exec(db)`. -/
def deleteMany (table : RefsTable) (repoId : Int) (refName : String) : RefsTable :=
  ⟨table.rows.filter (fun row => row.key ≠ (repoId, refName)),
    (List.filter_sublist _).map RefRow.key |>.nodup table.keysNodup⟩

/-- The row with key `(repoId, refName)` given the id `refGitId`. -/
def setGitId (table : RefsTable) (repoId : Int) (refName : String) (refGitId : String) :
    RefsTable :=
  ⟨table.rows.map (fun row => if row.key = (repoId, refName) then { row with refGitId } else row),
    by
      have keep : (RefRow.key ∘ fun row =>
          if row.key = (repoId, refName) then { row with refGitId } else row) = RefRow.key :=
        funext fun row => by dsimp only [Function.comp_apply]; split <;> rfl
      rw [List.map_map, keep]
      exact table.keysNodup⟩

/-- `active_model.update(db)`: the `Set` columns are written to the row with the model's key.
With no `Set` column SeaORM issues no `UPDATE` and reads the row back by key. Either way a
missing row is `RecordNotFound`, which the callers unwrap. -/
def update (table : RefsTable) (activeModel : RefActiveModel) : Except Fault RefsTable :=
  match table.findOne activeModel.repoId activeModel.refName with
  | none => .error .writeFailed
  | some _ =>
      match activeModel.refGitId with
      | .set refGitId => .ok (table.setGitId activeModel.repoId activeModel.refName refGitId)
      | .unchanged _ => .ok table

/-- An update with no `Set` column leaves a table holding the row as it is. -/
theorem update_unchanged {table : RefsTable} {repoId : Int} {refName refGitId : String}
    {row : RefRow} (found : table.findOne repoId refName = some row) :
    table.update ⟨repoId, refName, .unchanged refGitId⟩ = .ok table := by
  simp [update, found]

end RefsTable

namespace GitDbStorage

/-- `GitDbStorage::save_ref`. -/
def saveRef (table : RefsTable) (repo : Repo) (refs : RefCommand) : Except Fault RefsTable :=
  table.insert { RefRow.ofRefCommand refs with repoId := repo.repoId }

/-- `GitDbStorage::remove_ref`. -/
def removeRef (table : RefsTable) (repo : Repo) (refs : RefCommand) : Except Fault RefsTable :=
  .ok (table.deleteMany repo.repoId refs.refName)

/-- `GitDbStorage::get_ref`: every ref of the repository. -/
def getRef (table : RefsTable) (repo : Repo) : List Refs :=
  (table.findAll repo.repoId).map Refs.ofModel

/-- `GitDbStorage::update_ref`: the fetched row becomes an `ActiveModel` and its id is `Set`. -/
def updateRef (table : RefsTable) (repo : Repo) (refName newId : String) :
    Except Fault RefsTable := do
  let refData ← (table.findOne repo.repoId refName).elim (.error .refNotFound) .ok
  let refData : RefActiveModel := refData.intoActiveModel
  let refData := { refData with refGitId := .set newId }
  table.update refData

/-- On an existing ref, `GitDbStorage::update_ref` returns `Ok(())` with the ref at the new id. -/
theorem updateRef_eq_ok_setGitId {table : RefsTable} {repo : Repo} {refName : String}
    {row : RefRow} (found : table.findOne repo.repoId refName = some row) (newId : String) :
    updateRef table repo refName newId = .ok (table.setGitId repo.repoId refName newId) := by
  have hkey := RefsTable.findOne_key found
  simp only [RefRow.key, Prod.mk.injEq] at hkey
  simp [updateRef, found, Option.elim, RefsTable.update, RefRow.intoActiveModel, hkey, bind,
    Except.bind]

theorem updateRef_eq_error {table : RefsTable} {repo : Repo} {refName : String}
    (missing : table.findOne repo.repoId refName = none) (newId : String) :
    updateRef table repo refName newId = .error .refNotFound := by
  simp [updateRef, missing, Option.elim, bind, Except.bind]

end GitDbStorage

namespace MegaStorage

/-- `MegaStorage::save_ref`. -/
def saveRef (table : RefsTable) (repo : Repo) (refs : RefCommand) : Except Fault RefsTable :=
  let model := RefRow.ofRefCommand refs
  table.insert { model with refGitId := refs.newId, repoId := repo.repoId }

/-- `MegaStorage::remove_ref`. -/
def removeRef (table : RefsTable) (repo : Repo) (refs : RefCommand) : Except Fault RefsTable :=
  .ok (table.deleteMany repo.repoId refs.refName)

/-- `MegaStorage::get_ref`: the ref's id, or the empty string when there is no such ref. -/
def getRef (table : RefsTable) (repo : Repo) (refName : String) : String :=
  match table.findOne repo.repoId refName with
  | some model => model.refGitId
  | none => ""

/-- `MegaStorage::update_ref`: the fetched `Model` gets the new id, then goes through
`into_active_model().update(..)`, where every column is `Unchanged`. -/
def updateRef (table : RefsTable) (repo : Repo) (refName newId : String) :
    Except Fault RefsTable := do
  let refData ← (table.findOne repo.repoId refName).elim (.error .refNotFound) .ok
  let refData := { refData with refGitId := newId }
  table.update refData.intoActiveModel

/-- On an existing ref, `MegaStorage::update_ref` returns `Ok(())` and writes nothing: the new
id sits in a column that `into_active_model` marked `Unchanged`. -/
theorem updateRef_eq_ok_self {table : RefsTable} {repo : Repo} {refName : String} {row : RefRow}
    (found : table.findOne repo.repoId refName = some row) (newId : String) :
    updateRef table repo refName newId = .ok table := by
  simp [updateRef, found, Option.elim, RefRow.intoActiveModel, bind, Except.bind,
    RefsTable.update_unchanged (RefsTable.findOne_self found)]

theorem updateRef_eq_error {table : RefsTable} {repo : Repo} {refName : String}
    (missing : table.findOne repo.repoId refName = none) (newId : String) :
    updateRef table repo refName newId = .error .refNotFound := by
  simp [updateRef, missing, Option.elim, bind, Except.bind]

/-- Whenever `MegaStorage::update_ref` returns `Ok(())`, the table is as it was. -/
theorem updateRef_eq_ok {table table' : RefsTable} {repo : Repo} {refName newId : String}
    (h : updateRef table repo refName newId = .ok table') : table' = table := by
  cases found : table.findOne repo.repoId refName with
  | none => simp [updateRef_eq_error found] at h
  | some row => simpa [updateRef_eq_ok_self found] using h.symm

end MegaStorage

/-- `MegaStorage::update_ref` on `main` returns `Ok(())` and `get_ref` still reads the old id,
while `GitDbStorage::update_ref` on the same table moves the ref. -/
theorem megaStorage_updateRef_leaves_old_id :
    let table : RefsTable := ⟨[⟨0, "main", "a"⟩], by decide⟩
    MegaStorage.updateRef table ⟨0⟩ "main" "b" = .ok table ∧
      MegaStorage.getRef table ⟨0⟩ "main" = "a" ∧
      ∃ moved, GitDbStorage.updateRef table ⟨0⟩ "main" "b" = .ok moved ∧
        MegaStorage.getRef moved ⟨0⟩ "main" = "b" :=
  ⟨rfl, rfl, _, rfl, rfl⟩

end Jupiter
