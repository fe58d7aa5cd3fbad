/-
Module: JupiterStorage.Model.Object
Purpose: The Git objects the storage layer of `jupiter` reads and writes: tree items, trees,
  commits, and the ids that name them. Hashing, `Tree::from_tree_items`, `init_commit` and
  `SHA1::from_str` live in crates outside the modelled sources (`venus`, `ganymede`); the
  hashes are a parameter, and the constructors follow the spec's contracts.
Trusted boundary: `ObjectHash`, `Tree.fromTreeItems`, `initCommit`, `Sha1.fromStr`
Main exports: TreeItemMode, TreeItem, Tree, ObjectHash, Tree.fromTreeItems, Commit, initCommit,
  Sha1.fromStr, Fault, bind_eq_ok, bind_eq_error, elim_eq_error, MegaError, repointItem
-/
import Mathlib.Data.List.Basic

namespace Jupiter

/-- The modes `create_mega_file` gives tree items (`venus` has more). -/
inductive TreeItemMode where
  | blob
  | tree
deriving DecidableEq, Repr

/-- `TreeItem { mode, id, name }`: one entry of a tree, naming a child object by its id. -/
structure TreeItem where
  mode : TreeItemMode
  id : String
  name : String
deriving DecidableEq, Repr

/-- `Tree { id, tree_items }`. -/
structure Tree where
  id : String
  treeItems : List TreeItem
deriving DecidableEq, Repr

/-- The content hashes of `venus`: the id of a blob from its content, of a tree from its
items, and of a commit from its tree, its parents and its message. -/
structure ObjectHash where
  blob : String → String
  tree : List TreeItem → String
  commit : String → List String → String → String

/-- Why `Tree::from_tree_items` refuses an item list. -/
inductive GitError where
  | invalidTree
deriving DecidableEq, Repr

/-- Modelled from the spec: `Tree::from_tree_items` (in `venus`) hashes the items into a tree
and fails with `InvalidTree` if any two items share a name. -/
def Tree.fromTreeItems (hash : ObjectHash) (treeItems : List TreeItem) :
    Except GitError Tree :=
  if (treeItems.map TreeItem.name).Nodup then .ok ⟨hash.tree treeItems, treeItems⟩
  else .error .invalidTree

theorem Tree.fromTreeItems_eq_ok {hash : ObjectHash} {treeItems : List TreeItem} {tree : Tree} :
    Tree.fromTreeItems hash treeItems = .ok tree ↔
      (treeItems.map TreeItem.name).Nodup ∧ tree = ⟨hash.tree treeItems, treeItems⟩ := by
  unfold Tree.fromTreeItems
  split <;> simp_all [eq_comm]

/-- `Commit { id, tree_id, parent_ids, message }`. The author and committer signatures, with the
timestamp the spec's `Commit` carries, are left out: no modelled code reads them. -/
structure Commit where
  id : String
  treeId : String
  parentIds : List String
  message : String
deriving DecidableEq, Repr

/-- Modelled from the spec: `converter::init_commit(tree_id, parent_ids, message)` (in
`ganymede`) builds the commit with that tree and those parents, named by its hash. The real
commit is also signed with the current time, which enters its hash; here the id is
`hash.commit` of the tree, the parents and the message, and stands for the id of one call's
commit. No result here compares the commits of two calls by id. -/
def initCommit (hash : ObjectHash) (treeId : String) (parentIds : List String)
    (message : String) : Commit :=
  ⟨hash.commit treeId parentIds message, treeId, parentIds, message⟩

/-- A hexadecimal digit, in either case, as `hex::decode` reads it. -/
def isHexDigit (c : Char) : Bool :=
  c.isDigit || ('a' ≤ c && c ≤ 'f') || ('A' ≤ c && c ≤ 'F')

/-- `SHA1::from_str` (in `venus`): the text of forty hexadecimal digits. A `SHA1` is kept as
that text, which `to_plain_str` prints back. -/
def Sha1.fromStr (s : String) : Option String :=
  if s.length = 40 ∧ s.toList.all isHexDigit then some s else none

theorem Sha1.fromStr_eq_some {s t : String} (h : Sha1.fromStr s = some t) : t = s := by
  unfold Sha1.fromStr at h
  split at h <;> cases h
  rfl

@[simp] theorem Sha1.fromStr_empty : Sha1.fromStr "" = none := rfl

/-- How a call of the storage layer stops without returning: a panic at one of its `unwrap`s,
or, in this model, the upward walk of `create_mega_file` running past its fuel. -/
inductive Fault where
  /-- `get_mega_tree_by_path(..).unwrap().unwrap()` found no row. -/
  | pathNotFound
  /-- `get_mega_tree_by_sha(..).unwrap().unwrap()` found no row. -/
  | parentNotFound
  /-- `Tree::from_tree_items(..).unwrap()` got `InvalidTree`. -/
  | invalidTree
  /-- `SHA1::from_str(..).unwrap()` got a text that is not a SHA-1. -/
  | invalidSha1
  /-- `update_ref`'s `.one(..).unwrap().unwrap()` found no ref row. -/
  | refNotFound
  /-- An `insert(..).exec(..).unwrap()` hit the table's unique key. -/
  | uniqueViolation
  /-- A write the database rejected, unwrapped. -/
  | writeFailed
  /-- `filter_column.unwrap()` in `batch_query_by_columns` had no column. -/
  | filterColumnMissing
  /-- `unreachable!(message)`. -/
  | unreachable (message : String)
  /-- `env::var(name).unwrap()` found the variable unset, or not Unicode. -/
  | envVarMissing (name : String)
  /-- The walk of `create_mega_file` did not reach a root within its fuel. -/
  | outOfFuel
deriving DecidableEq, Repr

/-- A chain of fallible steps returns a value exactly when its first step does and the rest, run
on that value, returns it. -/
theorem bind_eq_ok {ε α β : Type} {x : Except ε α} {f : α → Except ε β} {b : β} :
    x >>= f = .ok b ↔ ∃ a, x = .ok a ∧ f a = .ok b := by
  cases x <;> simp [bind, Except.bind]

/-- A chain of fallible steps fails with `e` exactly when its first step does, or its first
step returns and the rest, run on that value, fails with `e`. -/
theorem bind_eq_error {ε α β : Type} {x : Except ε α} {f : α → Except ε β} {e : ε} :
    x >>= f = .error e ↔ x = .error e ∨ ∃ a, x = .ok a ∧ f a = .error e := by
  cases x <;> simp [bind, Except.bind]

@[simp] theorem pure_eq_ok {ε α : Type} {a b : α} : (pure a : Except ε α) = .ok b ↔ a = b := by
  simp [pure, Except.pure]

/-- The lifted `unwrap` of a lookup fails only on a missing row, with the fault named for it. -/
theorem elim_eq_error {ε α : Type} {o : Option α} {f e : ε}
    (h : o.elim (Except.error f) Except.ok = Except.error e) : o = none ∧ e = f := by
  cases o <;> cases h
  exact ⟨rfl, rfl⟩

/-- `MegaError { error, code }` (in `common`), with the error's message: the one that
`ServiceType::from_str` builds. -/
structure MegaError where
  error : String
  code : Int
deriving DecidableEq, Repr

/-- `tree_items.iter_mut().find(|x| x.name == name)` followed by `item.id = id`: the first item
with that name is re-pointed at `id`, and nothing changes if there is none. -/
def repointItem (name id : String) : List TreeItem → List TreeItem
  | [] => []
  | item :: items =>
      if item.name = name then { item with id := id } :: items
      else item :: repointItem name id items

@[simp] theorem repointItem_nil (name id : String) : repointItem name id [] = [] := rfl

@[simp] theorem map_name_repointItem (name id : String) (items : List TreeItem) :
    (repointItem name id items).map TreeItem.name = items.map TreeItem.name := by
  induction items with
  | nil => rfl
  | cons item items ih =>
      unfold repointItem
      split <;> simp [ih]

end Jupiter
