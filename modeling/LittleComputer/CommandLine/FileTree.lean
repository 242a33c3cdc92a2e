import LittleComputer.SystemError

namespace LittleComputer

/-! A tree of files -/

inductive FileNode where
  | file (bytes : List Byte)
  | folder

/-- Nodes by the names that lead to them from the root. Of two nodes in one place the later
one counts. The folders on the way to a node are there as well. -/
structure FileTree where
  nodes : List (List String × FileNode)
  workingFolder : List String := []

namespace FileTree

def longestName : Nat := 255

def longestPath : Nat := 4095

def node? (tree : FileTree) (place : List String) : Option FileNode :=
  match tree.nodes.reverse.lookup place with
  | some node => some node
  | none =>
      if tree.workingFolder :: tree.nodes.map Prod.fst |>.any place.isPrefixOf then
        some .folder
      else none

def isFolder (tree : FileTree) (place : List String) : Bool :=
  match tree.node? place with
  | some .folder => true
  | _ => false

def follow (tree : FileTree) (place : List String) : List String →
    Except SystemError (List String)
  | [] => .ok place
  | step :: steps =>
      if !tree.isFolder place then .error .notDirectory
      else if step = "" ∨ step = "." then tree.follow place steps
      else if step = ".." then tree.follow place.dropLast steps
      else if longestName < step.utf8ByteSize then .error .nameTooLong
      else if (tree.node? (place ++ [step])).isNone then .error .noSuchFile
      else tree.follow (place ++ [step]) steps

def start (tree : FileTree) (path : String) : List String :=
  if path.startsWith "/" then [] else tree.workingFolder

def resolve (tree : FileTree) (path : String) : Except SystemError (List String) :=
  if path.contains '\x00' then .error .nulInName
  else if path.isEmpty then .error .noSuchFile
  else if longestPath < path.utf8ByteSize then .error .nameTooLong
  else tree.follow (tree.start path) (path.splitOn "/")

def read (tree : FileTree) (path : String) : Except SystemError (List Byte) := do
  let place ← tree.resolve path
  match tree.node? place with
  | some (.file bytes) => return bytes
  | some .folder => throw .isDirectory
  | none => throw .noSuchFile

def add (tree : FileTree) (path : String) (node : FileNode) : FileTree :=
  let place := (path.splitOn "/").foldl (fun place step =>
    if step = "" ∨ step = "." then place
    else if step = ".." then place.dropLast
    else place ++ [step]) (tree.start path)
  { tree with nodes := tree.nodes ++ [(place, node)] }

end FileTree

end LittleComputer
