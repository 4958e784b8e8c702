-- What can go wrong, as causes, and what was being done when it did. All
-- wording of messages stands here.
import Lookalike.Files
import Lookalike.Decimal.Shortest
import Lookalike.Text.Quoted

namespace Lookalike

/-! ## Causes -/

/-- A trait in which an index and a query have to agree. -/
inductive Trait where
  | rules
  | window
  | tableSize
  | tableId
  | bucketWidth
  deriving DecidableEq

def Trait.name : Trait → String
  | rules => "normalization rules"
  | window => "window"
  | tableSize => "table size"
  | tableId => "table id"
  | bucketWidth => "bucket size"

/-- Why digits are not read as a word. -/
inductive WordFault where
  | empty
  | notADigit
  | tooLarge
  deriving DecidableEq

def WordFault.reason : WordFault → String
  | empty => "cannot parse integer from empty string"
  | notADigit => "invalid digit found in string"
  | tooLarge => "number too large to fit in target type"

/-- A fault in what was read back. -/
inductive Defect where
  | zeroThreshold (symbol : String)
  | noHeader
  | recordCount (declared found : Nat)
  | noMarker (text : String)
  | notHexadecimal (text : String)
  | badWord (text : String) (fault : WordFault)
  deriving DecidableEq

/-- The thing that is malformed. -/
def Defect.subject : Defect → String
  | zeroThreshold _ => "threshold table"
  | noHeader => "index"
  | recordCount .. => "index"
  | noMarker _ => "full vector"
  | notHexadecimal _ => "full vector"
  | badWord .. => "full vector"

/-- What is wrong with the thing. -/
def Defect.reason : Defect → String
  | zeroThreshold symbol => "symbol " ++ Text.quoted symbol ++ " has a zero threshold"
  | noHeader => "missing header line"
  | recordCount declared found =>
    "header declares " ++ toString declared ++ " records, found " ++ toString found
  | noMarker text => Text.quoted text ++ ": missing 0x prefix"
  | notHexadecimal text => Text.quoted text ++ ": expected hexadecimal digits"
  | badWord text fault => Text.quoted text ++ ": " ++ fault.reason

/-- Why something failed. -/
inductive Cause where
  | invalidWindow (window : Nat)
  | invalidPercentile (percentile : Float)
  | invalidBucketWidth (width symbols : Nat)
  | mismatch (field : Trait) (index query : String)
  | queryTooShort (lines window : Nat)
  | malformed (defect : Defect)
  | badJson
  | badSettings
  | badGlob
  | notWalked
  | file (error : FileError)
  | settingsMissing (path : Path)
  | settingsPresent (path : Path)
  | corpusMissing (path : Path)
  | corpusEmpty (roots : List Path)
  | noInstructions (path : Path)

/-- The wording of a cause. What is wrong inside a JSON text, a settings file, a glob or a walk is
not told. -/
def Cause.message? : Cause → Option String
  | invalidWindow w => some ("invalid region window " ++ toString w ++ ": must be at least 1")
  | invalidPercentile p =>
    some ("invalid percentile " ++ Decimal.display p ++ ": must be in (0, 1]")
  | invalidBucketWidth width symbols =>
    some ("invalid bucket size " ++ toString width ++ " for a table of " ++ toString symbols ++
      " symbols (need 1 <= sb_size <= 64 and sb_size < table size)")
  | mismatch field index query =>
    some ("configuration mismatch on " ++ field.name ++ ": index has " ++ index ++
      ", query uses " ++ query)
  | queryTooShort lines window =>
    some ("query stream has " ++ toString lines ++
      " normalized lines, fewer than the region window of " ++ toString window)
  | malformed d => some ("malformed " ++ d.subject ++ ": " ++ d.reason)
  | badJson => none
  | badSettings => none
  | badGlob => none
  | notWalked => none
  | file e => some e.message
  | settingsMissing p => some ("Config file not found: " ++ p.text)
  | settingsPresent p =>
    some ("Config file already exists at " ++ p.text ++ ". Use --force to overwrite.")
  | corpusMissing p => some ("Corpus path not found: " ++ p.text)
  | corpusEmpty roots =>
    some ("No listing files found under " ++ String.intercalate ", " (roots.map (·.text)))
  | noInstructions p => some ("Query listing " ++ p.text ++ " contains no instructions")

/-! ## Activities -/

/-- What was being done. -/
inductive Activity where
  | creatingDirectory (path : Path)
  | writing (path : Path)
  | creating (path : Path)
  | readingTable (path : Path)
  | parsingTable (path : Path)
  | checkingTable (path : Path)
  | openingIndex (path : Path)
  | readingIndex (path : Path)
  | parsingHeader
  | readingLine (number : Nat)
  | parsingRecord (number : Nat)
  | writingRecord
  | writingReport
  | loadingListing (path : Path)
  | loadingQuery (path : Path)
  | readingMetadata (path : Path)
  | readingFile (path : Path)
  | compilingGlob (pattern : String)
  | walking (root : Path)
  | loadingSettings
  | parsingSettings
  | writingSettings

/-- What was going on, in words. -/
def Activity.message : Activity → String
  | creatingDirectory p => "Failed to create directory " ++ p.text
  | writing p => "Failed to write " ++ p.text
  | creating p => "Failed to create " ++ p.text
  | readingTable p => "Failed to read threshold table " ++ p.text
  | parsingTable p => "Failed to parse threshold table " ++ p.text
  | checkingTable p => "Invalid threshold table " ++ p.text
  | openingIndex p => "Failed to open index " ++ p.text
  | readingIndex p => "Failed to read " ++ p.text
  | parsingHeader => "Failed to parse index header"
  | readingLine n => "Failed to read line " ++ toString n
  | parsingRecord n => "Failed to parse index record on line " ++ toString n
  | writingRecord => "Failed to serialize index record"
  | writingReport => "Failed to serialize query report"
  | loadingListing p => "Failed to load listing " ++ p.text
  | loadingQuery p => "Failed to load query listing " ++ p.text
  | readingMetadata p => "Failed to read metadata for " ++ p.text
  | readingFile p => "Failed to read file " ++ p.text
  | compilingGlob pattern => "Invalid glob pattern " ++ Text.quoted pattern
  | walking root => "Failed to walk corpus directory " ++ root.text
  | loadingSettings => "Failed to load configuration"
  | parsingSettings => "Failed to parse configuration"
  | writingSettings => "Failed to write config file"

/-! ## Failures -/

/-- A cause, and the activities around it, outermost first. -/
structure Failure where
  during : List Activity
  cause : Cause

namespace Failure

/-- A cause by itself. -/
def of (c : Cause) : Failure := ⟨[], c⟩

/-- The activities and the cause, outermost first. -/
def message (f : Failure) : String :=
  String.intercalate ": " (f.during.map Activity.message ++ f.cause.message?.toList)

end Failure

/-- A result or a failure. -/
abbrev Attempt (α : Type) := Except Failure α

namespace Attempt

/-- Add what was being done to a failure. -/
def during {α : Type} (a : Activity) : Attempt α → Attempt α
  | .ok x => .ok x
  | .error f => .error ⟨a :: f.during, f.cause⟩

/-- A file operation, as part of an activity. -/
def ofFile {α : Type} (a : Activity) : Except FileError α → Attempt α
  | .ok x => .ok x
  | .error e => .error ⟨[a], .file e⟩

/-- A reading that may fail, as part of an activity. -/
def ofOption {α : Type} (a : Activity) (c : Cause) : Option α → Attempt α
  | some x => .ok x
  | none => .error ⟨[a], c⟩

end Attempt
end Lookalike
