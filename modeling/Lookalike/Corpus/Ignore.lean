-- Ignore files: their lines as rules, and what all rules that are in force for
-- a path say about it together. A deeper directory comes before the ones above
-- it, and within a file a later line before the earlier ones.
import Lookalike.Files
import Lookalike.Glob.Reading
import Lookalike.Text.Blank

namespace Lookalike

/-! ## Lines -/

/-- A rule of an ignore file: the paths it is about, whether it keeps them, and whether it is about
directories only. -/
structure IgnoreRule where
  pattern : Pattern
  keeps : Bool
  dirsOnly : Bool
  deriving DecidableEq

/-- What a line of an ignore file holds. -/
inductive IgnoreLine where
  | nothing
  | broken
  | rule (rule : IgnoreRule)
  deriving DecidableEq

namespace IgnoreLine

/-- White space at the end does not count, unless a backslash stands before the last blank. -/
def trimmed (cs : List Char) : List Char :=
  match cs.reverse with
  | ' ' :: '\\' :: _ => cs
  | _ => Text.trimEnd Text.isBlank cs

/-- A slash at the end marks directories; a backslash in front of it goes with it. -/
def splitDirMark (cs : List Char) : Bool × List Char :=
  match cs.reverse with
  | '/' :: '\\' :: back => (true, back.reverse)
  | '/' :: back => (true, back.reverse)
  | _ => (false, cs)

/-- The glob of a line. One without a slash is about names at any depth, and one that ends in a
double star is about what a directory holds. -/
def globText (anchored : Bool) (cs : List Char) : List Char :=
  let inside := ['*', '*', '/']
  let cs :=
    if anchored || cs.contains '/' || cs = ['*', '*'] then cs else inside ++ cs
  if ['*', '*', '/'].isPrefixOf cs.reverse then cs ++ ['/', '*'] else cs

/-- The rule of a line behind its marks. -/
def ofMarked (keeps anchored : Bool) (cs : List Char) : IgnoreLine :=
  let (dirsOnly, cs) := splitDirMark cs
  match Glob.read? .ignoreFile (globText anchored cs) with
  | some pattern => .rule ⟨pattern, keeps, dirsOnly⟩
  | none => .broken

/-- A slash in front ties a rule to the directory of its file. -/
def ofAnchor (keeps : Bool) : List Char → IgnoreLine
  | '/' :: cs => ofMarked keeps true cs
  | cs => ofMarked keeps false cs

/-- Read a line. A hash begins a comment and an exclamation mark keeps; a backslash takes either
meaning away. -/
def ofChars (cs : List Char) : IgnoreLine :=
  if cs.head? == some '#' then nothing
  else
    match trimmed cs with
    | [] => nothing
    | '\\' :: '!' :: rest => ofMarked false false ('!' :: rest)
    | '\\' :: '#' :: rest => ofMarked false false ('#' :: rest)
    | '!' :: rest => ofAnchor true rest
    | rest => ofAnchor false rest

end IgnoreLine

/-! ## Files -/

/-- The rules of an ignore file, the last one first, and whether some line could not be read. -/
structure IgnoreFile where
  back : List IgnoreRule
  broken : Bool

namespace IgnoreFile

/-- A file without rules. -/
def empty : IgnoreFile := ⟨[], false⟩

/-- Read one line more. -/
def add (f : IgnoreFile) : IgnoreLine → IgnoreFile
  | .nothing => f
  | .broken => ⟨f.back, true⟩
  | .rule r => ⟨r :: f.back, f.broken⟩

/-- The lines up to the first one that is no text. -/
def textLines : List Bytes → List (List Char)
  | [] => []
  | l :: rest =>
    match Text.decode? l with
    | some cs => cs :: textLines rest
    | none => []

/-- The lines without a byte order mark in front of the first. -/
def unmarked : List (List Char) → List (List Char)
  | [] => []
  | l :: rest => l.dropWhile (· == '\ufeff') :: rest

/-- Read the content of an ignore file. -/
def ofBytes (bs : Bytes) : IgnoreFile :=
  ((unmarked (textLines (Text.byteLines bs))).map IgnoreLine.ofChars).foldl add empty

/-- Read what may be an ignore file; a directory has no rules. -/
def ofEntry : Option Entry → IgnoreFile
  | some (.file bs) => ofBytes bs
  | _ => empty

end IgnoreFile

/-! ## Verdicts -/

/-- What rules say about a path. -/
inductive Verdict where
  | silent
  | ignored
  | kept
  deriving DecidableEq

/-- The first verdict that is not silent. -/
def Verdict.first : List Verdict → Verdict
  | [] => silent
  | silent :: rest => first rest
  | v :: _ => v

/-- The verdict of the last rule that is about the path. -/
def IgnoreFile.verdict (f : IgnoreFile) (path : Bytes) (isDir : Bool) : Verdict :=
  match f.back.find? fun r => r.pattern.accepts path && (isDir || !r.dirsOnly) with
  | none => .silent
  | some r => if r.keeps then .kept else .ignored

/-! ## Directories -/

/-- The rules that a directory brings: those of every tool, those of a repository, and those that a
repository keeps to itself; and whether a repository begins here. -/
structure DirRules where
  base : Bytes
  plain : IgnoreFile
  shared : IgnoreFile
  own : IgnoreFile
  hasRepository : Bool

namespace DirRules

/-- What stands behind a beginning. -/
def dropStart? {α : Type} [BEq α] (start xs : List α) : Option (List α) :=
  if start.isPrefixOf xs then some (xs.drop start.length) else none

/-- A path without a leading dot and slash. -/
def undotted (bs : Bytes) : Bytes := (dropStart? "./" bs).getD bs

/-- The first line of a file, when it is text. -/
def firstLine? (bs : Bytes) : Option (List Char) := (Text.byteLines bs).head?.bind Text.decode?

/-- Where the rules of a linked repository stand: its file names a directory, in which another file
names the directory that all links share. -/
def linked? (top : Folder) (bs : Bytes) : Option Path := do
  let home ← dropStart? ['g', 'i', 't', 'd', 'i', 'r', ':', ' '] (← firstLine? bs)
  let home := Path.mk (String.ofList home)
  let line ← firstLine? (← (top.read (home.join "commondir")).toOption)
  let line := String.ofList line
  return if line.toList.head? == some '.' then home.join line else .mk line

/-- The rules that a repository keeps to itself. -/
def ownRules (top inside : Folder) : IgnoreFile :=
  match inside.get? ".git" with
  | none => .empty
  | some (.dir _) => .ofEntry (inside.find? [".git", "info", "exclude"])
  | some (.file bs) =>
    match linked? top bs with
    | none => .empty
    | some home =>
      match top.read (home.join "info/exclude") with
      | .ok bs => .ofBytes bs
      | .error _ => .empty

/-- The rules of the directory that is spelled `base` and holds `inside`. -/
def ofFolder (top : Folder) (base : Bytes) (inside : Folder) : DirRules where
  base := base
  plain := .ofEntry (inside.get? ".ignore")
  shared := .ofEntry (inside.get? ".gitignore")
  own := ownRules top inside
  hasRepository := (inside.get? ".git").isSome

/-- Whether some line of the files could not be read. -/
def broken (d : DirRules) : Bool := d.plain.broken || d.shared.broken || d.own.broken

/-- The path as the rules of the directory see it: without the directory in front. -/
def seen (d : DirRules) (path : Bytes) : Bytes :=
  let bs := undotted path
  let base := undotted d.base
  if (Path.ofBytes base).same ⟨"."⟩ || !bs.contains Path.separator then bs
  else
    match dropStart? base bs with
    | none => bs
    | some rest => (dropStart? [Path.separator] rest).getD rest

/-- Directories up to the one in which the repository begins. -/
def upToRepository : List (DirRules × Bytes) → List (DirRules × Bytes)
  | [] => []
  | d :: rest => if d.1.hasRepository then [d] else d :: upToRepository rest

/-- The verdict of the directories above a path, the deepest first, each with the path as it is
spelled for it. The rules of a repository count only inside one. -/
def verdict (chain : List (DirRules × Bytes)) (isDir : Bool) : Verdict :=
  let repository :=
    if chain.any fun d => d.1.hasRepository then upToRepository chain else []
  Verdict.first (
    (chain.map fun d => d.1.plain.verdict (d.1.seen d.2) isDir) ++
    (repository.map fun d => d.1.shared.verdict (d.1.seen d.2) isDir) ++
    (repository.map fun d => d.1.own.verdict (d.1.seen d.2) isDir))

end DirRules
end Lookalike
