import SqlDialect.Environment

/-!
This module contains what settings are read from: the environment and the files.
-/

namespace SqlDialect

inductive FileState where
  | missing
  | unreadable (reason : String)
  | text (s : String)
  deriving DecidableEq

structure World where
  environment : Environment := {}
  file : String → FileState := fun _ => .missing
  /-- Where the settings of the user are kept. -/
  userConfig : Option String := none

inductive Place where
  | above
  | within (path : List String)

structure FileTree where
  files : List (List String × String)

namespace FileTree

def ofList (files : List (String × String)) : FileTree :=
  ⟨files.map fun (path, content) => (path.splitOn "/", content)⟩

def isDirectory (t : FileTree) (path : List String) : Bool :=
  path.isEmpty || t.files.any fun (file, _) => path.isPrefixOf file && path.length < file.length

/--
Where one step of a path leads to. A directory above the working directory has no entries that are
known here, and the topmost one lies above itself.
-/
def step? (t : FileTree) (here : Place) (step : String) : Option Place :=
  match here with
  | .above => if step = "" ∨ step = "." ∨ step = ".." then some .above else none
  | .within path =>
    if t.isDirectory path then
      if step = "" ∨ step = "." then
        some here
      else if step = ".." then
        some (if path.isEmpty then .above else .within path.dropLast)
      else
        some (.within (path ++ [step]))
    else
      none

def directoryState : FileState := .unreadable "Is a directory (os error 21)"

def stateAt (t : FileTree) : Place → FileState
  | .above => directoryState
  | .within path =>
    match t.files.lookup path with
    | some content => .text content
    | none => if t.isDirectory path then directoryState else .missing

def state (t : FileTree) (path : String) : FileState :=
  let start : Place := if path.startsWith "/" then .above else .within []
  if path.isEmpty then
    .missing
  else
    match (path.splitOn "/").foldlM t.step? start with
    | some place => t.stateAt place
    | none => .missing

end FileTree

end SqlDialect
