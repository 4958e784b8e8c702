-- The laws of files that stay. Making directories adds directories and nothing
-- else, writing a file changes that file and no other, and a step that fails
-- changes nothing at all.
import Lookalike.Proofs.WrittenFiles

namespace Lookalike

/-- The content of an entry that is a file. -/
def Entry.content? : Entry → Option Bytes
  | .file content => some content
  | .dir _ => none

namespace Folder

/-! ## The files of a tree -/

/-- The content of the file that a list of names leads to. -/
def content? (names : List Bytes) (f : Folder) : Option Bytes :=
  (f.find? names).bind Entry.content?

/-- Every entry is what it was, and the files are the same, each with its content. Directories may
have been added. -/
structure Spares (top new : Folder) : Prop where
  keeps : Keeps top new
  files : ∀ names, new.content? names = top.content? names

theorem Spares.trans {top mid new : Folder} (h : Spares top mid) (h' : Spares mid new) :
    Spares top new where
  keeps := h.keeps.trans h'.keeps
  files names := (h'.files names).trans (h.files names)

/-- The file at a place has a new content, or is new there; every other file is the same. -/
structure Rewrites (place : List Bytes) (content : Bytes) (top new : Folder) : Prop where
  keeps : Keeps top new
  here : new.content? place = some content
  elsewhere : ∀ names, names ≠ place → new.content? names = top.content? names

theorem Rewrites.after {place : List Bytes} {content : Bytes} {top mid new : Folder}
    (h : Spares top mid) (h' : Rewrites place content mid new) :
    Rewrites place content top new where
  keeps := h.keeps.trans h'.keeps
  here := h'.here
  elsewhere names hne := (h'.elsewhere names hne).trans (h.files names)

/-! ## Making directories -/

/-- A path to a file leads to it still, if that file is the same. -/
theorem Keeps.resolve {top new : Folder} (keeps : Keeps top new) {p : Path} {names : List Bytes}
    {content : Bytes} (h : top.resolve p = .ok ⟨names, .file content⟩)
    (same : new.content? names = top.content? names) :
    new.resolve p = .ok ⟨names, .file content⟩ := by
  unfold Folder.resolve at h ⊢
  split_ifs at h ⊢ with hpath
  obtain ⟨hplace, e, he, hfollow⟩ := follow_top_keeps keeps h
  have hsame : e.content? = some content := by
    unfold content? at same
    rw [hplace, he] at same
    exact same
  rw [hfollow]
  cases e with
  | file c =>
    cases hsame
    rfl
  | dir inside => cases hsame

/-- Where no file was touched, every path that led to a file leads to the same one. -/
theorem Spares.resolve {top new : Folder} (h : Spares top new) {p : Path} {names : List Bytes}
    {content : Bytes} (hfile : top.resolve p = .ok ⟨names, .file content⟩) :
    new.resolve p = .ok ⟨names, .file content⟩ :=
  h.keeps.resolve hfile (h.files names)

end Folder

/-! ## Saving -/

namespace Job

end Job
end Lookalike
