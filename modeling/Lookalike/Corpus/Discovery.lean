-- Finding listings: directories are walked under the ignore files and the
-- globs of the settings, files that are named are always taken, and the result
-- is a sorted list without repetitions.
import Lookalike.Corpus.Ignore

namespace Lookalike

/-- What a walk takes: no path that an ignore glob matches, only files that an include glob matches
if there are any, and names that begin with a dot only when asked to. -/
structure Walker where
  ignored : List Pattern
  included : List Pattern
  hidden : Bool

namespace Walker

/-- A walker for globs; the first one that cannot be read is told. -/
def make (ignored included : List String) (hidden : Bool) : Attempt Walker := do
  return ⟨← ignored.mapM Glob.read, ← included.mapM Glob.read, hidden⟩

/-- Whether an ignore glob matches a path below the root. -/
def excludes (w : Walker) (below : Bytes) : Bool := w.ignored.any fun p => p.accepts below

/-- Whether a file is taken, by its path below the root. -/
def takes (w : Walker) (below : Bytes) : Bool :=
  !w.excludes below && (w.included.isEmpty || w.included.any fun p => p.accepts below)

/-! ## Walking -/

/-- A place in a walk: the spelled path, the path below the root, and the path from the top. -/
structure Spot where
  spelled : Path
  below : Bytes
  whole : Bytes

/-- A name below a row of names. -/
def deeper (names name : Bytes) : Bytes :=
  if names = [] then name else names ++ Path.separator :: name

/-- A name below a place. -/
def Spot.join (s : Spot) (name : Bytes) : Spot :=
  ⟨s.spelled.join name, deeper s.below name, deeper s.whole name⟩

/-- The rules in force: those of the walked directories, which see the spelled path, and those of
the directories above the root, which see the path from the top. Both with the deepest first. -/
structure Context where
  top : Folder
  walked : List DirRules
  above : List DirRules

/-- Whether a name is hidden: a dot in front, and none at the end. -/
def isHidden (name : Bytes) : Bool := name.head? == some 0x2E && name.getLast? != some 0x2E

/-- Whether a place is passed over by its name and the ignore files. -/
def passesOver (w : Walker) (c : Context) (s : Spot) (name : Bytes) (isDir : Bool) : Bool :=
  let spelled := DirRules.undotted s.spelled.bytes
  let chain := (c.walked.map fun d => (d, spelled)) ++ c.above.map fun d => (d, s.whole)
  match DirRules.verdict chain isDir with
  | .ignored => true
  | .kept => false
  | .silent => !w.hidden && isHidden name

/-- A directory is entered with its rules in front. -/
def Context.enter (c : Context) (s : Spot) (inside : Folder) : Context :=
  { c with walked := .ofFolder c.top s.spelled.bytes inside :: c.walked }

/-- The files that are taken below a place. -/
def walk (w : Walker) (c : Context) (s : Spot) : Folder → List Path
  | .empty => []
  | .file name _ beside =>
    let here := s.join name
    if !w.passesOver c here name false && w.takes here.below then
      here.spelled :: w.walk c s beside
    else w.walk c s beside
  | .dir name inside beside =>
    let here := s.join name
    if w.passesOver c here name true || w.excludes here.below then
      w.walk c s beside
    else w.walk (c.enter here inside) here inside ++ w.walk c s beside

/-! ## Roots -/

/-- The rules of the directories above a list of names, the deepest first. -/
def rulesAbove (top : Folder) (names : List Bytes) : List DirRules :=
  ((List.range names.length).map fun n =>
    let above := names.take n
    match top.find? above with
    | some (.dir inside) => DirRules.ofFolder top ([Path.separator].intercalate above) inside
    | _ => DirRules.ofFolder top ([Path.separator].intercalate above) .empty).reverse

/-- The files below a root, sorted. Rules above the root that cannot be read end the walk. -/
def walkFiles (w : Walker) (files : Folder) (root : Path) : Attempt (List Path) :=
  match files.resolve root with
  | .error _ => .error ⟨[.walking root], .notWalked⟩
  | .ok ⟨_, .file _⟩ => .ok (if w.takes [] then [root] else [])
  | .ok ⟨names, .dir inside⟩ =>
    let above := rulesAbove files names
    if above.any DirRules.broken then .error ⟨[.walking root], .notWalked⟩
    else
      let spot : Spot := ⟨root, [], [Path.separator].intercalate names⟩
      let context := Context.enter ⟨files, [], above⟩ spot inside
      .ok ((w.walk context spot inside).mergeSort Path.le)

/-- The files of one root: what a walk finds in a directory, or the file itself. -/
def expand (w : Walker) (files : Folder) (root : Path) : Attempt (List Path) :=
  if files.isDir root then w.walkFiles files root
  else if files.isFile root then .ok [root]
  else .error (.of (.corpusMissing root))

/-- The paths without those that are the same as the one before. -/
def dropRepeated : List Path → List Path
  | [] => []
  | [p] => [p]
  | p :: q :: rest =>
    if p.same q then dropRepeated (p :: rest) else p :: dropRepeated (q :: rest)

/-- The files of all roots, sorted, each once. -/
def collect (w : Walker) (files : Folder) (roots : List Path) : Attempt (List Path) := do
  let found ← roots.mapM (w.expand files)
  return dropRepeated (found.flatten.mergeSort Path.le)

end Walker
end Lookalike
