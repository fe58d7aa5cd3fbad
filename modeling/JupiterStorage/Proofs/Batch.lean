/-
Module: JupiterStorage.Proofs.Batch
Purpose: What the chunked helpers do for every input. Read as a map from key to row, a table
  after `batch_save_model` is the table after inserting-or-ignoring the models one at a time,
  whatever order the chunk statements commit in, provided models with one key are one model;
  a second identical call changes nothing. `batch_save_model` returns `Ok(())` even when chunk
  statements fail, and for every completion the table gains exactly the rows of the chunks that
  succeed. `batch_query_by_columns` returns each matching row once per chunk holding its value,
  which is the single `IN` query's answer when `ids` has no repeats; it panics exactly when
  given a value, no filter column and at least one id.
Trusted boundary: none
Main exports: lookup_foldl_insertOrIgnore, mem_foldl_insertMany_chunks, lookup_perm,
  foldl_commitStatement, batchSaveModel_sequential, batchSaveModel_keeps_succeeded_chunks,
  batchQueryByColumns_eq, batchQueryByColumns_eq_error
-/
import JupiterStorage.Model.Batch
import Mathlib.Data.List.Nodup

namespace Jupiter

section Keyed

variable {ρ κ : Type} [DecidableEq κ] (key : ρ → κ)

/-- Content addressing: two models with the same key are the same model. -/
def ContentAddressed (models : List ρ) : Prop :=
  ∀ a ∈ models, ∀ b ∈ models, key a = key b → a = b

/-- Some row of the table carries key `k`. -/
def HasKey (rows : List ρ) (k : κ) : Prop :=
  ∃ r ∈ rows, key r = k

variable {key}

theorem lookup_cons (r : ρ) (rows : List ρ) (k : κ) :
    lookup key (r :: rows) k = if key r = k then some r else lookup key rows k := by
  by_cases h : key r = k <;> simp [lookup, h]

theorem lookup_isSome_iff {rows : List ρ} {k : κ} :
    (lookup key rows k).isSome ↔ HasKey key rows k := by
  simp [lookup, HasKey, List.find?_isSome]

theorem lookup_eq_some {rows : List ρ} {k : κ} {r : ρ} (h : lookup key rows k = some r) :
    r ∈ rows ∧ key r = k :=
  ⟨List.mem_of_find?_eq_some h, by simpa using List.find?_some h⟩

theorem lookup_insertOrIgnore (rows : List ρ) (row : ρ) (k : κ) :
    lookup key (insertOrIgnore key rows row) k =
      (lookup key rows k).or (if key row = k then some row else none) := by
  unfold insertOrIgnore
  split
  · rename_i present
    by_cases hk : key row = k
    · obtain ⟨r, mem, hr⟩ := List.any_eq_true.mp present
      have : (lookup key rows k).isSome := lookup_isSome_iff.mpr ⟨r, mem, by simpa [hk] using hr⟩
      obtain ⟨found, hfound⟩ := Option.isSome_iff_exists.mp this
      simp [hfound]
    · simp [hk, Option.or_none]
  · simp [lookup, List.find?_append]

/-- Inserting-or-ignoring rows one at a time keeps every row already present and adds the first
row of each new key. -/
theorem lookup_foldl_insertOrIgnore (models rows : List ρ) (k : κ) :
    lookup key (models.foldl (insertOrIgnore key) rows) k =
      (lookup key rows k).or (lookup key models k) := by
  induction models generalizing rows with
  | nil => simp [lookup, Option.or_none]
  | cons m models ih =>
      rw [List.foldl_cons, ih, lookup_insertOrIgnore, Option.or_assoc, lookup_cons]
      by_cases hk : key m = k <;> simp [hk]

theorem keys_nodup_insertOrIgnore {rows : List ρ} (h : (rows.map key).Nodup) (row : ρ) :
    ((insertOrIgnore key rows row).map key).Nodup := by
  unfold insertOrIgnore
  split
  · exact h
  · rename_i absent
    simp only [List.map_append, List.map_cons, List.map_nil]
    refine List.Nodup.append h (List.nodup_singleton _) ?_
    rintro _ hk hk'
    obtain ⟨r, mem, rfl⟩ := List.mem_map.mp hk
    exact absent (List.any_eq_true.mpr ⟨r, mem, by simpa using hk'⟩)

theorem keys_nodup_foldl_insertOrIgnore (models : List ρ) {rows : List ρ}
    (h : (rows.map key).Nodup) : ((models.foldl (insertOrIgnore key) rows).map key).Nodup := by
  induction models generalizing rows with
  | nil => exact h
  | cons m models ih => exact ih (keys_nodup_insertOrIgnore h m)

/-- Inserting-or-ignoring never drops a row. -/
theorem subset_foldl_insertOrIgnore (models rows : List ρ) :
    rows ⊆ models.foldl (insertOrIgnore key) rows := by
  induction models generalizing rows with
  | nil => exact List.Subset.refl _
  | cons m models ih =>
      refine List.Subset.trans ?_ (ih _)
      unfold insertOrIgnore
      split
      · exact List.Subset.refl _
      · exact List.subset_append_left _ _

/-- Where a row is its own key, inserting-or-ignoring leaves the rows before and the models. -/
theorem mem_foldl_insertOrIgnore_id {ρ : Type} [DecidableEq ρ] (models rows : List ρ) (r : ρ) :
    r ∈ models.foldl (insertOrIgnore id) rows ↔ r ∈ rows ∨ r ∈ models := by
  have mem : ∀ l : List ρ, r ∈ l ↔ (lookup id l r).isSome := fun l => by
    simp [lookup_isSome_iff, HasKey]
  rw [mem, mem, mem, lookup_foldl_insertOrIgnore, Option.isSome_or, Bool.or_eq_true]

/-- Committed one after another, the chunks of `batch_save_model` into an empty table leave the
saved models. -/
theorem mem_foldl_insertMany_chunks {ρ : Type} [DecidableEq ρ] (models : List ρ) (r : ρ) :
    r ∈ (chunks chunkSize models).foldl (insertMany id) [] ↔ r ∈ models := by
  rw [show (insertMany id : List ρ → List ρ → List ρ) = fun rows chunk =>
      chunk.foldl (insertOrIgnore id) rows from rfl, ← List.foldl_flatten,
    flatten_chunks (by decide), mem_foldl_insertOrIgnore_id]
  simp

/-- Inserting-or-ignoring rows whose keys are all present changes nothing. -/
theorem foldl_insertOrIgnore_of_present (models : List ρ) {rows : List ρ}
    (present : ∀ m ∈ models, HasKey key rows (key m)) :
    models.foldl (insertOrIgnore key) rows = rows := by
  induction models with
  | nil => rfl
  | cons m models ih =>
      have hm : insertOrIgnore key rows m = rows := by
        obtain ⟨r, mem, hr⟩ := present m (.head _)
        simp only [insertOrIgnore, List.any_eq_true, decide_eq_true_eq]
        rw [if_pos ⟨r, mem, hr⟩]
      rw [List.foldl_cons, hm, ih fun m' mem' => present m' (.tail _ mem')]

/-- Over content-addressed models, a reordering finds the same row under every key. -/
theorem lookup_perm {models models' : List ρ} (perm : models.Perm models')
    (addressed : ContentAddressed key models) (k : κ) :
    lookup key models k = lookup key models' k := by
  cases hfound : lookup key models k with
  | none =>
      have : ¬ HasKey key models k := by simpa [← lookup_isSome_iff] using hfound
      have : ¬ HasKey key models' k := fun ⟨r, mem, hr⟩ => this ⟨r, perm.mem_iff.mpr mem, hr⟩
      exact (Option.not_isSome_iff_eq_none.mp (by rwa [lookup_isSome_iff])).symm
  | some a =>
      obtain ⟨amem, ha⟩ := lookup_eq_some hfound
      obtain ⟨b, hb⟩ := Option.isSome_iff_exists.mp
        (lookup_isSome_iff.mpr ⟨a, perm.mem_iff.mp amem, ha⟩ : (lookup key models' k).isSome)
      obtain ⟨bmem, hbk⟩ := lookup_eq_some hb
      rw [hb, addressed a amem b (perm.mem_iff.mpr bmem) (ha.trans hbk.symm)]

/-- When every statement succeeds, committing them inserts-or-ignores their rows one at a time,
in commit order. -/
theorem foldl_commitStatement_of_succeeded (results : List (List ρ × Bool))
    (succeeded : ∀ result ∈ results, result.2 = true) (rows : List ρ) :
    results.foldl (commitStatement key) rows =
      (results.map Prod.fst).flatten.foldl (insertOrIgnore key) rows := by
  induction results generalizing rows with
  | nil => rfl
  | cons result results ih =>
      rw [List.foldl_cons, commitStatement, if_pos (succeeded result (.head _)),
        ih (fun r mem => succeeded r (.tail _ mem)), List.map_cons, List.flatten_cons,
        List.foldl_append, insertMany]

/-- The rows of the committed statements are the models, in some order. -/
theorem Completion.flatten_perm {saveModels : List ρ}
    (completion : Completion (chunks chunkSize saveModels)) :
    (completion.results.map Prod.fst).flatten.Perm saveModels := by
  simpa [flatten_chunks (by decide : 0 < chunkSize)] using completion.perm.flatten

theorem batchSaveModel_fst_of_succeeded (rows saveModels : List ρ)
    (completion : Completion (chunks chunkSize saveModels))
    (succeeded : ∀ result ∈ completion.results, result.2 = true) :
    (batchSaveModel key rows saveModels completion).1 =
      (completion.results.map Prod.fst).flatten.foldl (insertOrIgnore key) rows :=
  foldl_commitStatement_of_succeeded _ succeeded rows

/-- Committed in issue order and all succeeding, the chunk statements insert-or-ignore the models
one at a time. -/
theorem batchSaveModel_inOrder (rows saveModels : List ρ) :
    (batchSaveModel key rows saveModels (.inOrder _)).1 =
      saveModels.foldl (insertOrIgnore key) rows := by
  rw [batchSaveModel_fst_of_succeeded _ _ _ (by simp [Completion.inOrder])]
  simp [Completion.inOrder, Function.comp_def, flatten_chunks (by decide : 0 < chunkSize)]

/-- `batch_save_model` over content-addressed models, when every chunk statement succeeds, in
whatever order they commit: as a map from key to row the table is the one inserting-or-ignoring
the models one at a time in list order gives; every model's key is present; keys stay unique;
rows already present stay; and the same call again leaves the table as it is. -/
theorem batchSaveModel_sequential (rows saveModels : List ρ)
    (completion : Completion (chunks chunkSize saveModels))
    (addressed : ContentAddressed key saveModels)
    (succeeded : ∀ result ∈ completion.results, result.2 = true) :
    let after := (batchSaveModel key rows saveModels completion).1
    lookup key after = lookup key (saveModels.foldl (insertOrIgnore key) rows) ∧
      (∀ m ∈ saveModels, HasKey key after (key m)) ∧
      ((rows.map key).Nodup → (after.map key).Nodup) ∧
      (∀ k r, lookup key rows k = some r → lookup key after k = some r) ∧
      (∀ again : Completion (chunks chunkSize saveModels),
        (∀ result ∈ again.results, result.2 = true) →
          (batchSaveModel key after saveModels again).1 = after) := by
  intro after
  have perm := completion.flatten_perm
  have hafter : after = _ := batchSaveModel_fst_of_succeeded rows saveModels completion succeeded
  have hlookup : ∀ k, lookup key after k = (lookup key rows k).or (lookup key saveModels k) := by
    intro k
    rw [hafter, lookup_foldl_insertOrIgnore,
      lookup_perm perm (fun a ha b hb => addressed a (perm.subset ha) b (perm.subset hb))]
  have present : ∀ m ∈ saveModels, HasKey key after (key m) := by
    intro m mem
    obtain ⟨r, hr⟩ := Option.isSome_iff_exists.mp
      (lookup_isSome_iff.mpr ⟨m, mem, rfl⟩ : (lookup key saveModels (key m)).isSome)
    apply lookup_isSome_iff.mp
    cases hrows : lookup key rows (key m) <;> simp [hlookup, hrows, hr]
  refine ⟨funext fun k => by rw [hlookup, lookup_foldl_insertOrIgnore], present,
    fun h => hafter ▸ keys_nodup_foldl_insertOrIgnore _ h,
    fun k r h => by rw [hlookup, h, Option.or_some], fun again againOk => ?_⟩
  rw [batchSaveModel_fst_of_succeeded after saveModels again againOk]
  exact foldl_insertOrIgnore_of_present _ fun m mem => present m (again.flatten_perm.subset mem)

/-- A thousand and one models, cut into two chunks that commit in the reverse of their issue
order. -/
theorem batchSaveModel_sequential_two_chunks_reversed :
    (chunks chunkSize (List.range 1001)).length = 2 ∧ ContentAddressed id (List.range 1001) ∧
      (∀ result ∈ (Completion.reversed (chunks chunkSize (List.range 1001))).results,
        result.2 = true) ∧
      lookup id (batchSaveModel id [] (List.range 1001) (.reversed _)).1 =
        lookup id ((List.range 1001).foldl (insertOrIgnore id) []) :=
  have past : (List.range 1001).drop 2000 = [] := List.drop_eq_nil_of_le (by simp)
  have two : (chunks chunkSize (List.range 1001)).length = 2 := by
    simp [chunks_of_ne_nil, chunkSize, past]
  have addressed : ContentAddressed id (List.range 1001) := fun _ _ _ _ h => h
  have succeeded : ∀ result ∈ (Completion.reversed (chunks chunkSize (List.range 1001))).results,
      result.2 = true := by simp [Completion.reversed]
  ⟨two, addressed, succeeded,
    (batchSaveModel_sequential [] (List.range 1001) (.reversed _) addressed succeeded).1⟩

end Keyed

/-- One chunk statement fails: the table is left empty and the call still returns `Ok(())`. -/
theorem batchSaveModel_failed_chunk_returns_ok :
    batchSaveModel id [] ["m"]
        ⟨[(["m"], false)], List.Perm.refl _⟩ = ([], .ok ()) :=
  rfl

section Query

variable {ρ : Type}

/-- Whether a row passes `filter_column = value`; every row passes when no value is given. -/
def passesFilter (filterColumn : Option (ρ → String)) (value : Option String) (r : ρ) : Bool :=
  match value, filterColumn with
  | some v, some filter => filter r = v
  | _, _ => true

/-- The single query `column IN ids [AND filter_column = value]` that the chunked one stands
for. -/
def singleInQuery (table : List ρ) (column : ρ → String) (ids : List String)
    (filterColumn : Option (ρ → String)) (value : Option String) : List ρ :=
  table.filter (fun r => column r ∈ ids && passesFilter filterColumn value r)

variable {table : List ρ} {column : ρ → String} {filterColumn : Option (ρ → String)}
  {value : Option String}

theorem queryChunk_eq (hfilter : value.isSome → filterColumn.isSome) (chunk : List String) :
    queryChunk table column filterColumn value chunk =
      .ok (table.filter (fun r => column r ∈ chunk && passesFilter filterColumn value r)) := by
  cases value with
  | none => simp [queryChunk, passesFilter]
  | some v =>
      obtain ⟨filter, rfl⟩ := Option.isSome_iff_exists.mp (hfilter rfl)
      simp [queryChunk, passesFilter, List.filter_filter, Bool.and_comm]

/-- Extending the result chunk by chunk, with no chunk panicking, concatenates the answers. -/
theorem foldlM_extend (answer : List String → List ρ)
    (query : List String → Except Fault (List ρ))
    (hquery : ∀ chunk, query chunk = .ok (answer chunk)) :
    ∀ (pieces : List (List String)) (result : List ρ),
      pieces.foldlM (fun result chunk => (result ++ ·) <$> query chunk) result =
        .ok (result ++ (pieces.map answer).flatten)
  | [], result => by simp
  | chunk :: pieces, result => by
      rw [List.foldlM_cons, hquery, List.map_cons, List.flatten_cons, ← List.append_assoc]
      exact foldlM_extend answer query hquery pieces _

theorem batchQueryByColumns_eq (hfilter : value.isSome → filterColumn.isSome) (ids : List String) :
    batchQueryByColumns table column ids filterColumn value =
      .ok ((chunks chunkSize ids).map fun chunk =>
        table.filter (fun r => column r ∈ chunk && passesFilter filterColumn value r)).flatten := by
  rw [batchQueryByColumns, foldlM_extend _ _ (queryChunk_eq hfilter), List.nil_append]

/-- `batch_query_by_columns` panics exactly when it is given a value but no filter column and at
least one id: each chunk's query unwraps the filter column, and with no ids there is no chunk. -/
theorem batchQueryByColumns_eq_error (table : List ρ) (column : ρ → String) (ids : List String)
    (filterColumn : Option (ρ → String)) (value : Option String) (e : Fault) :
    batchQueryByColumns table column ids filterColumn value = .error e ↔
      e = .filterColumnMissing ∧ value.isSome ∧ filterColumn = none ∧ ids ≠ [] := by
  by_cases hfilter : value.isSome → filterColumn.isSome
  · rw [batchQueryByColumns_eq hfilter]
    refine ⟨(fun h => by cases h), fun ⟨_, given, missing, _⟩ => ?_⟩
    exact absurd (hfilter given) (by simp [missing])
  · obtain ⟨given, missing⟩ := Classical.not_imp.mp hfilter
    obtain ⟨v, rfl⟩ := Option.isSome_iff_exists.mp given
    rw [Option.not_isSome_iff_eq_none.mp missing]
    cases ids with
    | nil => simp [batchQueryByColumns, pure, Except.pure]
    | cons id ids =>
        rw [batchQueryByColumns, chunks_of_ne_nil (by decide) (List.cons_ne_nil id ids),
          List.foldlM_cons]
        simp [queryChunk, bind, Except.bind, eq_comm]

theorem count_filter_eq_ite [DecidableEq ρ] (p : ρ → Bool) (r : ρ) (rows : List ρ) :
    (rows.filter p).count r = if p r then rows.count r else 0 := by
  split
  · exact List.count_filter ‹_›
  · exact List.count_eq_zero.mpr fun mem => ‹¬ p r = true› (List.of_mem_filter mem)

/-- Each row comes once for every chunk that holds its value. -/
theorem count_flatten_chunk_answers [DecidableEq ρ] (r : ρ) (pieces : List (List String)) :
    ((pieces.map fun chunk =>
        table.filter (fun x => column x ∈ chunk && passesFilter filterColumn value x)).flatten).count
        r =
      if passesFilter filterColumn value r then
        table.count r * pieces.countP (fun chunk => column r ∈ chunk) else 0 := by
  induction pieces with
  | nil => simp
  | cons chunk pieces ih =>
      rw [List.map_cons, List.flatten_cons, List.count_append, ih, count_filter_eq_ite,
        List.countP_cons]
      by_cases hin : column r ∈ chunk <;> by_cases hpass : passesFilter filterColumn value r <;>
        simp [hin, hpass, Nat.mul_add, Nat.add_comm]

/-- In a list of chunks of a list without repeats, a value lies in one chunk if it lies in the
list, and in none otherwise. -/
theorem countP_mem_of_nodup {α : Type} [DecidableEq α] (v : α) :
    ∀ pieces : List (List α), pieces.flatten.Nodup →
      pieces.countP (fun piece => v ∈ piece) = if v ∈ pieces.flatten then 1 else 0
  | [], _ => by simp
  | piece :: pieces, nodup => by
      rw [List.flatten_cons] at nodup ⊢
      obtain ⟨_, rest, disjoint⟩ := List.nodup_append.mp nodup
      rw [List.countP_cons, countP_mem_of_nodup v pieces rest]
      by_cases hin : v ∈ piece
      · have : v ∉ pieces.flatten := fun h => disjoint hin h
        simp [hin, this]
      · simp [hin]

end Query

/-- A value repeated across the chunk boundary brings its row back twice; the single query
brings it once. -/
theorem batchQueryByColumns_repeats_row :
    batchQueryByColumns ["a"] id (List.replicate 1001 "a") none none = .ok ["a", "a"] ∧
      ¬ List.Perm ["a", "a"] (singleInQuery ["a"] id (List.replicate 1001 "a") none none) := by
  have hchunks : chunks chunkSize (List.replicate 1001 "a") = [List.replicate 1000 "a", ["a"]] := by
    rw [chunks_of_ne_nil (by decide) (List.replicate_succ_ne_nil _ _), chunkSize,
      List.take_replicate, List.drop_replicate, show min 1000 (1000 + 1) = 1000 from rfl,
      show List.replicate (1000 + 1 - 1000) "a" = ["a"] from rfl, chunks_cons (by decide)]
    simp only [List.take_succ_cons, List.take_nil, List.drop_succ_cons, List.drop_nil, chunks_nil]
  have hin : ∀ n, "a" ∈ List.replicate (n + 1) "a" := fun n => List.mem_replicate.mpr ⟨by simp, rfl⟩
  refine ⟨?_, fun perm => absurd perm.length_eq ?_⟩
  · rw [batchQueryByColumns_eq (by simp), hchunks]
    simp only [List.map_cons, List.map_nil, List.flatten_cons, List.flatten_nil, id, passesFilter,
      hin, List.mem_singleton, decide_True, Bool.and_self, List.filter_cons_of_pos,
      List.filter_nil]
    rfl
  · simp only [singleInQuery, passesFilter, id, hin, decide_True, Bool.and_self,
      List.filter_cons_of_pos, List.filter_nil]
    decide

/-- `batch_query_by_columns`, given a filter column whenever it is given a value, returns each
table row as many times as the table holds it times the number of chunks of `ids` holding its
value, if it passes the filter, and otherwise not at all. So when `ids` has no repeats its
answer is the single `IN` query's answer, as a multiset. -/
theorem batchQueryByColumns_count {ρ : Type} [DecidableEq ρ] (table : List ρ)
    (column : ρ → String) (ids : List String) (filterColumn : Option (ρ → String))
    (value : Option String) (hfilter : value.isSome → filterColumn.isSome) :
    ∃ rows, batchQueryByColumns table column ids filterColumn value = .ok rows ∧
      (∀ r, rows.count r = if passesFilter filterColumn value r then
          table.count r * (chunks chunkSize ids).countP (fun chunk => column r ∈ chunk) else 0) ∧
      (ids.Nodup → rows.Perm (singleInQuery table column ids filterColumn value)) := by
  refine ⟨_, batchQueryByColumns_eq hfilter ids, fun r => count_flatten_chunk_answers r _,
    fun nodup => ?_⟩
  rw [List.perm_iff_count]
  intro r
  have once := countP_mem_of_nodup (column r) (chunks chunkSize ids)
    (by rwa [flatten_chunks (by decide)])
  rw [count_flatten_chunk_answers, once, flatten_chunks (by decide), singleInQuery,
    count_filter_eq_ite]
  by_cases hin : column r ∈ ids <;> simp [hin]

/-- Querying a one-row table by two ids, with no filter value. -/
theorem batchQueryByColumns_count_unfiltered :
    ((none : Option String).isSome → (none : Option (String → String)).isSome) ∧
      ∃ rows, batchQueryByColumns ["a"] id ["a", "b"] none none = .ok rows ∧
        rows.Perm (singleInQuery ["a"] id ["a", "b"] none none) :=
  have hfilter : (none : Option String).isSome → (none : Option (String → String)).isSome :=
    fun h => absurd h (by decide)
  have ⟨rows, hrows, _, perm⟩ := batchQueryByColumns_count ["a"] id ["a", "b"] none none hfilter
  ⟨hfilter, rows, hrows, perm (by decide)⟩

end Jupiter
