-- Loading listings: files are read in the order of their paths and cut into
-- streams. A corpus is loaded whole or not at all.
import Lookalike.Failure
import Lookalike.Listing.Stream

namespace Lookalike

/-! ## Content -/

/-- The content of a file, and whether it is large enough to be mapped into memory. -/
structure Content where
  bytes : Bytes
  mapped : Bool

namespace Content

/-- A file of more bytes than this is mapped. -/
def mappedAbove : Nat := 1024 * 1024

def read (files : Folder) (p : Path) : Attempt Content :=
  match files.resolve p with
  | .error e => .error ⟨[.readingMetadata p], .file e⟩
  | .ok ⟨_, .dir _⟩ => .error ⟨[.readingFile p], .file .isADirectory⟩
  | .ok ⟨_, .file bytes⟩ => .ok ⟨bytes, mappedAbove < bytes.length⟩

/-- The characters of a listing; what is no character shows as U+FFFD. -/
def chars (c : Content) : List Char := Text.decodeKindly c.bytes

end Content

/-! ## Loading -/

/-- How listings are turned into streams. -/
structure Loader where
  normalizer : Normalizer
  segmentation : Segmentation

namespace Loader

/-- The streams of one listing. -/
def loadFile (l : Loader) (files : Folder) (p : Path) : Attempt (List Stream) := do
  let content ← Content.read files p
  return l.segmentation.streams l.normalizer p content.chars

/-- The streams of listings in the given order; the first listing that cannot be read ends the
loading. -/
def loadInOrder (l : Loader) (files : Folder) : List Path → Attempt (List Stream)
  | [] => .ok []
  | p :: rest => do
    let streams ← (l.loadFile files p).during (.loadingListing p)
    return streams ++ (← l.loadInOrder files rest)

/-- The streams of a corpus, listings in the order of their paths. -/
def loadAll (l : Loader) (files : Folder) (ps : List Path) : Attempt (List Stream) :=
  l.loadInOrder files (ps.mergeSort Path.le)

/-- The listings of a corpus that can be read: each is told once, also when another one fails. -/
def loaded (l : Loader) (files : Folder) (ps : List Path) : List Path :=
  (ps.mergeSort Path.le).filter fun p => (l.loadFile files p).isOk

/-- The stream of a query listing: the first one that is not empty. -/
def loadQuery (l : Loader) (files : Folder) (p : Path) : Attempt Stream := do
  let streams ← (l.loadFile files p).during (.loadingQuery p)
  match streams.find? fun s => !s.lines.isEmpty with
  | some s => .ok s
  | none => .error (.of (.noInstructions p))

end Loader
end Lookalike
