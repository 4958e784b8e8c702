-- A tree of files as a value. Paths are followed step by step as an operating
-- system does it, and each way in which that can fail has its own name.
import Lookalike.Path
import Lookalike.Text.Utf8

namespace Lookalike

/-! ## Failures -/

/-- Why a file operation failed. -/
inductive FileError where
  | notFound
  | alreadyExists
  | notADirectory
  | isADirectory
  | notText
  deriving DecidableEq

/-- The wording of the operating system. -/
def FileError.message : FileError → String
  | notFound => "No such file or directory (os error 2)"
  | alreadyExists => "File exists (os error 17)"
  | notADirectory => "Not a directory (os error 20)"
  | isADirectory => "Is a directory (os error 21)"
  | notText => "stream did not contain valid UTF-8"

/-! ## The tree -/

/-- The content of a directory: one entry and the entries beside it. -/
inductive Folder where
  | empty
  | file (name : Bytes) (content : Bytes) (beside : Folder)
  | dir (name : Bytes) (inside : Folder) (beside : Folder)

/-- What a path can lead to. -/
inductive Entry where
  | file (content : Bytes)
  | dir (inside : Folder)

namespace Folder

/-- The entry of a name. -/
def get? (name : Bytes) : Folder → Option Entry
  | empty => none
  | file n content beside => if n = name then some (.file content) else beside.get? name
  | dir n inside beside => if n = name then some (.dir inside) else beside.get? name

/-- Put an entry under a name, in the place of the old one or at the end. -/
def put (name : Bytes) (e : Entry) : Folder → Folder
  | empty =>
    match e with
    | .file content => file name content empty
    | .dir inside => dir name inside empty
  | file n content beside =>
    if n = name then
      match e with
      | .file new => file name new beside
      | .dir inside => dir name inside beside
    else file n content (beside.put name e)
  | dir n inside beside =>
    if n = name then
      match e with
      | .file content => file name content beside
      | .dir new => dir name new beside
    else dir n inside (beside.put name e)

/-- The entry that a list of names leads to. -/
def find? : List Bytes → Folder → Option Entry
  | [], f => some (.dir f)
  | [name], f => f.get? name
  | name :: names, f =>
    match f.get? name with
    | some (.dir inside) => find? names inside
    | _ => none

/-- Put an entry at the end of a list of names; nothing happens where a directory is missing. -/
def putAt (e : Entry) : List Bytes → Folder → Folder
  | [], f => f
  | [name], f => f.put name e
  | name :: names, f =>
    match f.get? name with
    | some (.dir inside) => f.put name (.dir (inside.putAt e names))
    | _ => f

/-! ## Following a path -/

/-- Where a path leads: the names from the top, and what is there. -/
structure Place where
  names : List Bytes
  entry : Entry

/-- Follow the pieces of a path from a place. -/
def follow (top : Folder) (at_ : Place) : List Bytes → Except FileError Place
  | [] => .ok at_
  | piece :: pieces =>
    match at_.entry with
    | .file _ => .error .notADirectory
    | .dir inside =>
      if piece = [] ∨ piece = "." then follow top at_ pieces
      else if piece = ".." then
        let names := at_.names.dropLast
        follow top ⟨names, (top.find? names).getD (.dir top)⟩ pieces
      else
        match inside.get? piece with
        | none => .error .notFound
        | some e => follow top ⟨at_.names ++ [piece], e⟩ pieces

/-- Follow a path from the top, which is the root and the working directory. The empty path leads
nowhere. -/
def resolve (top : Folder) (p : Path) : Except FileError Place :=
  if p.bytes = [] then .error .notFound
  else follow top ⟨[], .dir top⟩ p.segments

/-- Whether there is something at the path. -/
def reaches (top : Folder) (p : Path) : Bool := (top.resolve p).isOk

def isDir (top : Folder) (p : Path) : Bool :=
  match top.resolve p with
  | .ok ⟨_, .dir _⟩ => true
  | _ => false

def isFile (top : Folder) (p : Path) : Bool :=
  match top.resolve p with
  | .ok ⟨_, .file _⟩ => true
  | _ => false

/-! ## Reading -/

/-- The content of the file at a path. -/
def read (top : Folder) (p : Path) : Except FileError Bytes :=
  match top.resolve p with
  | .error e => .error e
  | .ok ⟨_, .dir _⟩ => .error .isADirectory
  | .ok ⟨_, .file content⟩ => .ok content

/-- The content of the file at a path, which must be well-formed text. -/
def readText (top : Folder) (p : Path) : Except FileError (List Char) := do
  match Text.decode? (← top.read p) with
  | some cs => .ok cs
  | none => .error .notText

/-! ## Writing -/

/-- The pieces above the last one, and the last one; separators at the end belong to it. -/
def splitLast (p : Path) : List Bytes × Bytes × Bool :=
  let back := p.segments.reverse
  let idle := back.takeWhile (·.isEmpty)
  match back.drop idle.length with
  | [] => ([], [], true)
  | s :: above => (above.reverse, s, !idle.isEmpty)

/-- The directory that holds the last piece of a path. -/
def holder (top : Folder) (p : Path) (above : List Bytes) : Except FileError Place :=
  if p.bytes = [] then .error .notFound
  else follow top ⟨[], .dir top⟩ above

/-- The names of the file that is written under a path: those of an older file, or a free place in a
directory. -/
def target (top : Folder) (p : Path) : Except FileError (List Bytes) :=
  let (above, last, open_) := splitLast p
  match top.resolve p with
  | .ok ⟨_, .dir _⟩ => .error .isADirectory
  | .ok ⟨names, .file _⟩ => .ok names
  | .error e =>
    if e = .notFound then
      match top.holder p above with
      | .error e => .error e
      | .ok ⟨_, .file _⟩ => .error .notADirectory
      | .ok ⟨names, .dir _⟩ =>
        if last = "." ∨ last = ".." ∨ last = [] then .error .notFound
        else if open_ then .error .isADirectory
        else .ok (names ++ [last])
    else .error e

/-- Write a file, in the place of an older one. -/
def write (top : Folder) (p : Path) (content : Bytes) : Except FileError Folder := do
  return top.putAt (.file content) (← top.target p)

def makeDir (top : Folder) (p : Path) : Except FileError Folder :=
  let (above, last, _) := splitLast p
  match top.resolve p with
  | .ok _ => .error .alreadyExists
  | .error _ =>
    match top.holder p above with
    | .error e => .error e
    | .ok ⟨_, .file _⟩ => .error .notADirectory
    | .ok ⟨names, .dir inside⟩ =>
      if last = "." ∨ last = ".." ∨ last = [] then .error .notFound
      else if (inside.get? last).isSome then .error .alreadyExists
      else .ok (top.putAt (.dir .empty) (names ++ [last]))

/-- Make a directory where the one above it may be missing, at most `fuel` levels deep. A path that
is a directory already is left alone. -/
def makeDirsWithin : Nat → Folder → Path → Except FileError Folder
  | 0, _, _ => .error .notFound
  | fuel + 1, top, p =>
    if p.bytes = [] then .ok top
    else
      match top.makeDir p with
      | .ok new => .ok new
      | .error .notFound =>
        match p.parent? with
        | none => .error .notFound
        | some above => do
          let top ← makeDirsWithin fuel top above
          match top.makeDir p with
          | .ok new => .ok new
          | .error e => if top.isDir p then .ok top else .error e
      | .error e => if top.isDir p then .ok top else .error e

def makeDirs (top : Folder) (p : Path) : Except FileError Folder :=
  makeDirsWithin (p.segments.length + 1) top p

/-! ## All at once -/

/-- Every file with its content and every directory without, each directory before what it holds,
below the path `above`. -/
def entries (above : Path) : Folder → List (Path × Option Bytes)
  | empty => []
  | file name content beside => (above.join name, some content) :: entries above beside
  | dir name inside beside =>
    (above.join name, none) :: entries (above.join name) inside ++ entries above beside

end Folder
end Lookalike
