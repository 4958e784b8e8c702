-- The text of settings as a TOML document: scalars on one line, lists with one
-- item a line, sections with an empty line between them.
import Lookalike.Json.Number
import Lookalike.Json.Writer
import Lookalike.Settings.Basic

namespace Lookalike.Settings

/-! ## Values -/

def quote (s : String) : String := String.ofList (Json.ofString s).compact

/-- A double with a point or a power of ten. -/
def floatText (x : Float) : String := String.ofList (Json.ofFloat x).compact

/-- A list of texts, one item a line unless it is empty. -/
def listText (xs : List String) : String :=
  if xs.isEmpty then "[]"
  else "[\n" ++ String.join (xs.map fun x => "    " ++ quote x ++ ",\n") ++ "]"

/-! ## Sections -/

def sectionText (name : String) (members : List (String × String)) : String :=
  "[" ++ name ++ "]\n" ++ String.join (members.map fun m => m.1 ++ " = " ++ m.2 ++ "\n")

/-- The sections of settings. A limit that is not set has no line. -/
def sections (s : Settings) : List String := [
  sectionText "dialect" [
    ("column_offset", toString s.dialect.column),
    ("header_lines", toString s.dialect.headerLines),
    ("strip_keywords", listText s.dialect.keywords)],
  sectionText "normalize" [("regseg", listText s.rules.registers)],
  sectionText "normalize.synonyms" (s.rules.synonyms.map fun g => (g.1, listText g.2)),
  sectionText "fingerprint" [
    ("window", toString s.fingerprint.window),
    ("sb_size", toString s.fingerprint.width),
    ("percentile", floatText s.fingerprint.percentile)],
  sectionText "corpus" [
    ("segment", quote s.corpus.segmentation.name),
    ("include", listText s.corpus.included),
    ("ignore", listText s.corpus.ignored)],
  sectionText "query" ([
    ("segment", quote s.query.segmentation.name),
    ("header_lines", toString s.query.headerLines)] ++
    (s.query.limit.toList.map fun n => ("limit", toString n)) ++
    [("min_similarity", floatText s.query.minSimilarity)]),
  sectionText "paths" [
    ("table", quote s.paths.table.text),
    ("index", quote s.paths.index.text)]]

def text (s : Settings) : String := String.intercalate "\n" s.sections

end Lookalike.Settings
