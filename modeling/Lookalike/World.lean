-- What a command can change: the files and the text it has printed. A command
-- that fails keeps what it did before.
import Lookalike.Failure

namespace Lookalike

/-- The files, and the printed text. -/
structure World where
  files : Folder
  printed : String

/-- A command that may fail. What it did before it failed stays done. -/
abbrev Job (α : Type) := ExceptT Failure (StateM World) α

namespace Job

/-- Something that changes nothing. -/
def ofAttempt {α : Type} (a : Attempt α) : Job α := ExceptT.mk (pure a)

/-- Something that reads the files. -/
def reading {α : Type} (f : Folder → Attempt α) : Job α := do
  ofAttempt (f (← get).files)

def printLine (s : String) : Job Unit :=
  modify fun w => { w with printed := w.printed ++ s ++ "\n" }

/-- Change the files, as part of an activity. -/
def changing (a : Activity) (f : Folder → Except FileError Folder) : Job Unit := do
  let files ← ofAttempt (Attempt.ofFile a (f (← get).files))
  modify fun w => { w with files }

/-- Write a file and make the directories above it. -/
def save (a : Activity) (path : Path) (content : Bytes) : Job Unit := do
  match path.parent? with
  | none => pure ()
  | some above =>
    if above.bytes = [] then pure ()
    else changing (.creatingDirectory above) fun files => files.makeDirs above
  changing a fun files => files.write path content

end Job
end Lookalike
