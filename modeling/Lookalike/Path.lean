-- Paths keep the spelling they were given, which may be any bytes, and are
-- compared by their components: repeated and trailing separators and a single dot
-- inside a path make no difference, a leading dot does.
import Lookalike.Text.Utf8

namespace Lookalike

/-! ## Components -/

/-- A step of a path. -/
inductive Component where
  | root
  | here
  | up
  | name (bytes : Bytes)
  deriving DecidableEq

namespace Component

/-- The kinds in their order: the root, a leading dot, a step up, a name. -/
def rank : Component → Nat
  | root => 0
  | here => 1
  | up => 2
  | name _ => 3

/-- The name of a component. -/
def label : Component → Bytes
  | name bytes => bytes
  | _ => []

/-- By kind, then names byte by byte. -/
instance : Ord Component where
  compare a b := (compare a.rank b.rank).then (compare a.label b.label)

end Component

/-! ## Paths -/

/-- A path as the operating system has it: its bytes need not be those of a text. -/
structure Path where
  ofBytes ::
  bytes : Bytes
  deriving DecidableEq

namespace Path

/-- The path that a text spells. -/
def mk (text : String) : Path := ⟨text⟩

/-- The path to be read; what is no character shows as U+FFFD. -/
def text (p : Path) : String := String.ofList (Text.decodeKindly p.bytes)

/-- Whether a text spells the path. -/
def isText (p : Path) : Bool := mk p.text = p

/-- The byte between the pieces of a path. -/
def separator : UInt8 := 0x2F

/-- The pieces between separators. -/
def segments (p : Path) : List Bytes := p.bytes.splitOnP (· == separator)

/-- What a piece adds; `first` tells whether it opens a relative path. -/
def component? (first : Bool) (s : Bytes) : Option Component :=
  if s = [] then none
  else if s = "." then if first then some .here else none
  else if s = ".." then some .up
  else some (.name s)

/-- Whether the path starts at the root. -/
def isAbsolute (p : Path) : Bool := p.bytes.head? == some separator

/-- The steps of a path. -/
def components (p : Path) : List Component :=
  (if p.isAbsolute then [.root] else []) ++
    match p.segments with
    | [] => []
    | s :: rest => (component? true s).toList ++ rest.filterMap (component? false)

/-- Two spellings of one path. -/
def same (p q : Path) : Bool := p.components == q.components

/-- Step by step; a path comes before its extensions. -/
instance : Ord Path where
  compare p q := compare p.components q.components

/-- The order of paths as a test. -/
def le (p q : Path) : Bool := (compare p q).isLE

/-- A name below a path. -/
def join (p : Path) (child : Bytes) : Path :=
  if p.bytes = [] then ⟨child⟩
  else if p.bytes.getLast? == some separator then ⟨p.bytes ++ child⟩
  else ⟨p.bytes ++ separator :: child⟩

/-! ## The path above -/

/-- The pieces up to the last one that counts, back to front. The last piece of the list opens
the path. -/
def dropIdle : List Bytes → List Bytes
  | [] => []
  | [s] => if s = [] then [] else [s]
  | s :: rest => if s = [] ∨ s = "." then dropIdle rest else s :: rest

/-- The path above; none above the root and the empty path. -/
def parent? (p : Path) : Option Path :=
  match dropIdle p.segments.reverse with
  | [] => none
  | _ :: rest =>
    match dropIdle rest with
    | [] => some ⟨if p.isAbsolute then [separator] else []⟩
    | kept => some ⟨[separator].intercalate kept.reverse⟩

/-- The last component, when it is a name. -/
def fileName? (p : Path) : Option Bytes :=
  match p.components.getLast? with
  | some (.name s) => some s
  | _ => none

/-- The part behind the last dot of the name, if the dot is not its first byte. -/
def extension? (p : Path) : Option Bytes := do
  let back := (← p.fileName?).reverse
  let ext := back.takeWhile (· != 0x2E)
  match back.drop ext.length with
  | _ :: _ :: _ => some ext.reverse
  | _ => none

end Path
end Lookalike
