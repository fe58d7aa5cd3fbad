/-
Module: JupiterStorage.Model.NodeTree
Purpose: `MegaStorage::mega_node_tree`, which turns a list of `CreateFileInfo` entries into a tree
  of `MegaNode`s. The last directory at `/` becomes the root and every other entry goes onto
  `stack`. A breadth-first loop then pops a parent from the `parents` queue and scans `stack`,
  taking out each entry whose path is `parent.path.join(parent.name)`: it becomes a child of the
  parent, and a directory also joins the queue. The nodes live behind `Rc`, so a node already
  attached still gains children when its turn comes; here the nodes sit in a list, the root
  first, and a child is named by its position. Both loops run on fuel.
Trusted boundary: `MegaNode`, `From<CreateFileInfo> for MegaNode` and `MegaNode::add_child`
  (in `ganymede`); `Path::join` on Unix
Main exports: joinPath, MegaNode, MegaNode.childPath, isRootEntry, splitRoot, NodeTreeState,
  attachChildren, buildTree, megaNodeTree
-/
import JupiterStorage.Model.Store

namespace Jupiter

/-- `Path::join(base, name)` on Unix, read back with `to_str`: an absolute `name` replaces the
base; otherwise `/` goes between them unless the base is empty or already ends in `/`. -/
def joinPath (base name : String) : String :=
  if name.toList.head? = some '/' then name
  else
    match base.toList.getLast? with
    | some c => if c = '/' then base ++ name else base ++ "/" ++ name
    | none => name

/-- `MegaNode` (in `ganymede`) with the fields `mega_node_tree` reads, and its children, each by
its position among the nodes. -/
structure MegaNode where
  name : String
  path : String
  isDirectory : Bool
  children : List Nat
deriving DecidableEq, Repr

/-- `MegaNode::from(CreateFileInfo)`: the entry's name, path and kind, with no children. -/
def MegaNode.ofInfo (info : CreateFileInfo) : MegaNode :=
  ⟨info.name, info.path, info.isDirectory, []⟩

/-- `parent.path.join(parent.name)`: the path of the entries that go under `parent`. -/
def MegaNode.childPath (parent : MegaNode) : String :=
  joinPath parent.path parent.name

/-- `parent.add_child(&node)`: the node at `parentId` gains the child at `childId`. -/
def addChild (nodes : List MegaNode) (parentId childId : Nat) : List MegaNode :=
  nodes.modify (fun parent => { parent with children := parent.children ++ [childId] }) parentId

/-- `f_info.path == "/" && f_info.is_directory`: an entry the `for` loop takes as the root. -/
def isRootEntry (fInfo : CreateFileInfo) : Bool :=
  fInfo.path == "/" && fInfo.isDirectory

/-- The `for` loop of `mega_node_tree`: each root entry replaces the root, and every other
entry goes onto the back of `stack`. -/
def splitRoot (fileInfos : List CreateFileInfo) : Option MegaNode × List CreateFileInfo :=
  fileInfos.foldl
    (fun acc fInfo =>
      if isRootEntry fInfo then (some (MegaNode.ofInfo fInfo), acc.2) else (acc.1, acc.2 ++ [fInfo]))
    (none, [])

/-- The variables of the loops: the nodes made so far, `stack`, and the `parents` queue, which
holds each parent by its position and as it was made (its name and path never change). -/
structure NodeTreeState where
  nodes : List MegaNode
  stack : List CreateFileInfo
  parents : List (Nat × MegaNode)
deriving DecidableEq, Repr

/-- The inner loop `while index < stack.len()` for one parent: an entry at `index` whose path
is the parent's child path is made a node, queued if it is a directory, attached to the parent
and removed from `stack`; any other entry is stepped over. -/
def attachChildren (parentId : Nat) (parent : MegaNode) :
    Nat → NodeTreeState → Nat → Except Fault NodeTreeState
  | fuel, state, index =>
      if h : index < state.stack.length then
        match fuel with
        | 0 => .error .outOfFuel
        | fuel + 1 =>
            let element := state.stack[index]
            if element.path = parent.childPath then
              let node := MegaNode.ofInfo element
              let nodeId := state.nodes.length
              let parents :=
                if node.isDirectory then state.parents ++ [(nodeId, node)] else state.parents
              attachChildren parentId parent fuel
                ⟨addChild (state.nodes ++ [node]) parentId nodeId, state.stack.eraseIdx index,
                  parents⟩
                index
            else attachChildren parentId parent fuel state (index + 1)
      else .ok state

/-- The outer loop `while !parents.is_empty()`: pop the front parent and scan `stack` for it. -/
def buildTree : Nat → NodeTreeState → Except Fault NodeTreeState
  | fuel, state =>
      match state.parents, fuel with
      | [], _ => .ok state
      | _ :: _, 0 => .error .outOfFuel
      | (parentId, parent) :: parents, fuel + 1 =>
          attachChildren parentId parent state.stack.length { state with parents } 0 >>=
            buildTree fuel

/-- `MegaStorage::mega_node_tree`: the nodes of the tree, the root first. With no root entry the
call reaches `unreachable!`. -/
def megaNodeTree (fileInfos : List CreateFileInfo) : Except Fault (List MegaNode) := do
  let (root, stack) := splitRoot fileInfos
  let root ← root.elim (.error (.unreachable "can not create files without root directory!")) .ok
  let state ← buildTree (stack.length + 1) ⟨[root], stack, [(0, root)]⟩
  pure state.nodes

end Jupiter
