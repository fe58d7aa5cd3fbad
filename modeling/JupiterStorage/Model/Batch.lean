/-
Module: JupiterStorage.Model.Batch
Purpose: The chunked helpers at the end of `mega_storage.rs`. `batch_save_model` cuts its models
  into chunks of 1000, issues one `insert_many .. on_conflict(do_nothing)` per chunk, awaits them
  with `join_all` and drops their results. `batch_query_by_columns` runs `column IN chunk` per
  chunk and concatenates the answers. A table is its rows in storage order together with the key
  its unique constraint is on; `lookup` is its view as a map from key to row.
Trusted boundary: none
Main exports: chunks, lookup, insertOrIgnore, insertMany, Completion, batchSaveModel,
  queryChunk, batchQueryByColumns
-/
import JupiterStorage.Model.Object

namespace Jupiter

/-- The chunk size both helpers use: sqlx does not take packets over 16 MB. -/
def chunkSize : Nat := 1000

/-- `slice::chunks(size)` cut off after `fuel` chunks. -/
def chunksOn {α : Type} (size : Nat) : Nat → List α → List (List α)
  | 0, _ => []
  | _ + 1, [] => []
  | fuel + 1, x :: xs =>
      if 0 < size then (x :: xs).take size :: chunksOn size fuel ((x :: xs).drop size) else []

/-- `slice::chunks(size)`: the consecutive runs of `size` elements, the last one shorter when
`size` does not divide the length. (Rust panics on size `0`; the helpers only pass `1000`.) A
list has at most as many chunks as elements, so its length is fuel enough. -/
def chunks {α : Type} (size : Nat) (xs : List α) : List (List α) :=
  chunksOn size xs.length xs

section Chunks

variable {α : Type} {size : Nat}

/-- Any fuel past the length cuts the same chunks. -/
theorem chunksOn_of_length_le (hsize : 0 < size) :
    ∀ (fuel : Nat) (xs : List α), xs.length ≤ fuel → chunksOn size fuel xs = chunks size xs
  | 0, [], _ => rfl
  | fuel + 1, [], _ => rfl
  | fuel + 1, x :: xs, h => by
      have shorter : ((x :: xs).drop size).length ≤ xs.length := by
        simp only [List.length_drop, List.length_cons]
        omega
      simp only [chunks, List.length_cons, chunksOn, if_pos hsize]
      rw [chunksOn_of_length_le hsize fuel _ (shorter.trans (by simpa using h)),
        chunksOn_of_length_le hsize xs.length _ shorter]

@[simp] theorem chunks_nil : chunks size ([] : List α) = [] := rfl

theorem chunks_cons (hsize : 0 < size) (x : α) (xs : List α) :
    chunks size (x :: xs) = (x :: xs).take size :: chunks size ((x :: xs).drop size) := by
  rw [← chunksOn_of_length_le hsize (xs.length + 1) (x :: xs) le_rfl, chunksOn, if_pos hsize,
    chunksOn_of_length_le hsize xs.length]
  simp only [List.length_drop, List.length_cons]
  omega

theorem chunks_of_ne_nil (hsize : 0 < size) {xs : List α} (hxs : xs ≠ []) :
    chunks size xs = xs.take size :: chunks size (xs.drop size) := by
  obtain ⟨x, xs, rfl⟩ := List.exists_cons_of_ne_nil hxs
  exact chunks_cons hsize x xs

theorem chunks_singleton (hsize : 0 < size) (x : α) : chunks size [x] = [[x]] := by
  rw [chunks_cons hsize, List.take_of_length_le hsize, List.drop_of_length_le hsize, chunks_nil]

/-- Cutting into chunks loses and adds nothing. -/
theorem flatten_chunks (hsize : 0 < size) (xs : List α) : (chunks size xs).flatten = xs := by
  suffices enough : ∀ fuel (xs : List α), xs.length ≤ fuel →
      (chunksOn size fuel xs).flatten = xs from enough _ xs le_rfl
  intro fuel
  induction fuel with
  | zero => exact fun xs h => by simp_all [chunksOn]
  | succ fuel ih =>
      rintro (_ | ⟨x, xs⟩) h
      · rfl
      · rw [chunksOn, if_pos hsize, List.flatten_cons, ih _ (by simp at h ⊢; omega),
          List.take_append_drop]

end Chunks

section Keyed

variable {ρ κ : Type} [DecidableEq κ] (key : ρ → κ)

/-- The row a table holds under key `k`: a table read as a map from its unique key to its row. -/
def lookup (rows : List ρ) (k : κ) : Option ρ :=
  rows.find? (fun r => key r = k)

/-- Insert `row` unless a row with its key is already there (`ON CONFLICT DO NOTHING`). -/
def insertOrIgnore (rows : List ρ) (row : ρ) : List ρ :=
  if rows.any (fun r => key r = key row) then rows else rows ++ [row]

/-- One statement `E::insert_many(chunk).on_conflict(OnConflict::new().do_nothing())`: every row
of the chunk whose key is absent is inserted. -/
def insertMany (rows chunk : List ρ) : List ρ :=
  chunk.foldl (insertOrIgnore key) rows

/-- How the joined chunk statements of one call complete: the database commits them in the order
of `results`, each with its outcome (`true` when it succeeds), and that order is some order of
the issued statements. -/
structure Completion (statements : List (List ρ)) where
  results : List (List ρ × Bool)
  perm : List.Perm (results.map Prod.fst) statements

/-- A completion in issue order in which every statement succeeds. -/
def Completion.inOrder (statements : List (List ρ)) : Completion statements :=
  ⟨statements.map (·, true), by simp [Function.comp_def]⟩

/-- A completion in the reverse of issue order in which every statement succeeds. -/
def Completion.reversed (statements : List (List ρ)) : Completion statements :=
  ⟨(statements.map (·, true)).reverse, by simp [Function.comp_def]⟩

/-- The effect of one completed statement on the table: none when it failed. -/
def commitStatement (rows : List ρ) (result : List ρ × Bool) : List ρ :=
  if result.2 then insertMany key rows result.1 else rows

/-- `batch_save_model(connection, save_models)`, with the table before the call and a completion
of the statements it issues; the table after the call, and what it returns. The `join_all`
results are dropped, so the value is `Ok(())` whatever the outcomes. -/
def batchSaveModel (rows saveModels : List ρ)
    (completion : Completion (chunks chunkSize saveModels)) : List ρ × Except MegaError Unit :=
  (completion.results.foldl (commitStatement key) rows, .ok ())

end Keyed

section Query

variable {ρ : Type}

/-- One chunk's query `T::find().filter(column.is_in(chunk))`, narrowed by
`.filter(filter_column.unwrap().eq(v))` when `value` is `Some(v)`; the unwrap panics when no
filter column was given. -/
def queryChunk (table : List ρ) (column : ρ → String) (filterColumn : Option (ρ → String))
    (value : Option String) (chunk : List String) : Except Fault (List ρ) :=
  let queryBuilder := table.filter (fun r => column r ∈ chunk)
  match value with
  | some v =>
      match filterColumn with
      | some filter => .ok (queryBuilder.filter (fun r => filter r = v))
      | none => .error .filterColumnMissing
  | none => .ok queryBuilder

/-- `batch_query_by_columns(connection, column, ids, filter_column, value)`: the answers of the
chunk queries, extended onto `result` one chunk after another. -/
def batchQueryByColumns (table : List ρ) (column : ρ → String) (ids : List String)
    (filterColumn : Option (ρ → String)) (value : Option String) : Except Fault (List ρ) :=
  (chunks chunkSize ids).foldlM
    (fun result chunk => (result ++ ·) <$> queryChunk table column filterColumn value chunk) []

end Query

end Jupiter
