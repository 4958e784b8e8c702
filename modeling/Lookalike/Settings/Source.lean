-- Where settings come from: a file that is named, or else one in the working
-- directory, and then variables of the environment.
import Lookalike.Json.Number
import Lookalike.Json.Reader
import Lookalike.Settings.Reading
import Lookalike.Toml.Reader

namespace Lookalike

-- Powers are those of the core library, whatever else is imported.
attribute [local instance (high)] instPowNat

/-! ## JSON -/

namespace Json

/-- A number: whole if it is written so and fits 64 bits with a sign. -/
def numberSetting? (n : Decimal.Numeral) : Option Setting :=
  let whole : Int := if n.negative then -(Decimal.ofDigits n.whole) else Decimal.ofDigits n.whole
  let isWhole := n.fraction.isEmpty && n.exponent.isNone && !(n.negative && whole == 0)
  if isWhole && -(2 ^ (63 : Nat)) ≤ whole && whole < 2 ^ (63 : Nat) then some (.int whole)
  else (double? n).map .float

mutual

def setting? : Json → Option Setting
  | null => some .nothing
  | bool b => some (.bool b)
  | num n => numberSetting? n
  | str text => text.map .text
  | arr items => (itemSettings? items).map .list
  | obj members => (memberSettings? members []).map .table

def itemSettings? : List Json → Option (List Setting)
  | [] => some []
  | j :: rest =>
    match setting? j, itemSettings? rest with
    | some s, some ss => some (s :: ss)
    | _, _ => none

/-- The members, added to the ones so far; of a repeated one the last value counts. -/
def memberSettings? : List (Option String × Json) → List (String × Setting) →
    Option (List (String × Setting))
  | [], done => some done
  | (key, j) :: rest, done =>
    match key, setting? j with
    | some k, some s => memberSettings? rest (Ordered.put k s done)
    | _, _ => none

end

end Json

namespace Settings

/-! ## Files -/

/-- The forms of settings files. -/
inductive Form where
  | toml
  | json

def Form.ofExtension? (ending : Bytes) : Option Form :=
  if ending = "toml" then some .toml
  else if ending = "json" then some .json
  else none

/-- The members of the settings in a text. -/
def Form.read? : Form → List Char → Option (List (String × Setting))
  | toml, cs => Toml.read? cs
  | json, cs =>
    match (Json.read? cs).bind Json.setting? with
    | some (.table members) => some members
    | _ => none

/-- The bytes without a byte order mark in front. -/
def unmarked : Bytes → Bytes
  | 0xEF :: 0xBB :: 0xBF :: rest => rest
  | bs => bs

def textOf (bs : Bytes) : List Char := Text.decodeKindly (unmarked bs)

/-- The path with more letters behind its name. -/
def extended? (p : Path) (ending : String) : Option Path := do
  let name ← p.fileName?
  return ((p.parent?).getD ⟨""⟩).join (name ++ Text.encode ending)

/-- The file that a path stands for, and its form: the file itself, or one with a known ending. -/
def locate? (files : Folder) (p : Path) : Option (Path × Form) :=
  if files.isFile p then (p.extension?.bind Form.ofExtension?).map fun form => (p, form)
  else
    [(".toml", Form.toml), (".json", Form.json)].findSome? fun (ending, form) => do
      let q ← extended? p ending
      if files.isFile q then return (q, form) else none

def readFile? (files : Folder) (p : Path) : Option (List (String × Setting)) := do
  let (q, form) ← locate? files p
  form.read? (textOf (← (files.read q).toOption))

/-- The settings files of the working directory, the first one before the second. -/
def fileNames : List Path := [⟨"binclone.toml"⟩, ⟨".binclone.toml"⟩]

/-- The members of the settings file: the one that is named, which must be there, or else the first
one in the working directory. -/
def fileSource (files : Folder) (explicit : Option Path) : Attempt (List (String × Setting)) :=
  let reading := fun p => Attempt.ofOption .loadingSettings .badSettings (readFile? files p)
  match explicit with
  | some p => if files.reaches p then reading p else .error (.of (.settingsMissing p))
  | none =>
    match fileNames.find? files.reaches with
    | some p => reading p
    | none => .ok []

/-! ## Variables -/

/-- The beginning of the names of variables, in lower case. -/
def variableMark : List Char := ['b', 'i', 'n', 'c', 'l', 'o', 'n', 'e', '_']

/-- Two underscores in a name stand for a dot. -/
def dotted : List Char → List Char
  | '_' :: '_' :: rest => '.' :: dotted rest
  | c :: rest => c :: dotted rest
  | [] => []

/-- The key of a variable: its name in lower case behind the mark. -/
def keyOf? (name : String) : Option String :=
  let cs := name.toList.map Char.toLower
  if variableMark.isPrefixOf cs then some (String.ofList (dotted (cs.drop variableMark.length)))
  else none

/-- The value of a variable: a truth value, a number, or its text. -/
def valueOf (text : String) : Setting :=
  let word := String.ofList (text.toList.map Char.toLower)
  if word = "true" then .bool true
  else if word = "false" then .bool false
  else
    match Decimal.readInt? text, Decimal.readFloat? text with
    | some i, _ => .int i
    | none, some x => .float x
    | none, none => .text text

/-- The names of the variables that can make a difference, in capitals. -/
def variableNames : List String :=
  [("DIALECT", ["COLUMN_OFFSET", "HEADER_LINES", "STRIP_KEYWORDS"]),
    ("NORMALIZE", ["SYNONYMS", "REGSEG"]),
    ("FINGERPRINT", ["WINDOW", "SB_SIZE", "PERCENTILE"]),
    ("CORPUS", ["SEGMENT", "INCLUDE", "IGNORE"]),
    ("QUERY", ["SEGMENT", "HEADER_LINES", "LIMIT", "MIN_SIMILARITY"]),
    ("PATHS", ["TABLE", "INDEX"])].flatMap fun (name, keys) =>
      ("BINCLONE_" ++ name) :: keys.map fun key => "BINCLONE_" ++ name ++ "__" ++ key

/-- The members that variables give. -/
def variableSource (environment : List (String × String)) : List (String × Setting) :=
  Ordered.ofPairs (environment.filterMap fun v => (keyOf? v.1).map fun k => (k, valueOf v.2))

/-! ## Loading -/

/-- Load the settings: the file, and the variables over it. -/
def load (files : Folder) (environment : List (String × String)) (explicit : Option Path) :
    Attempt Settings := do
  let file ← fileSource files explicit
  let all := ((Setting.table []).addSource file).addSource (variableSource environment)
  Attempt.ofOption .parsingSettings .badSettings (ofSetting? all)

end Settings
end Lookalike
