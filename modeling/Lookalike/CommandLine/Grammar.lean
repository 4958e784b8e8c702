-- What may stand on the command line: commands, their options and the paths
-- they take.
import Lookalike.Listing.Stream

namespace Lookalike.CommandLine

/-! ## Options -/

/-- What an option or a place takes. -/
inductive Kind where
  | help
  | version
  | switch
  | count
  | number
  | path
  | text
  | choice (words : List String)
  deriving DecidableEq

/-- Whether a value follows. -/
def Kind.takesValue : Kind → Bool
  | help => false
  | version => false
  | switch => false
  | _ => true

/-- An option, by its name or a letter, or a place that takes what is no option. -/
structure Slot where
  name : String
  letter : Option Char
  kind : Kind
  many : Bool
  deriving DecidableEq

def option (name : String) (kind : Kind) : Slot := ⟨name, none, kind, false⟩

def lettered (name : String) (letter : Char) (kind : Kind) : Slot :=
  ⟨name, some letter, kind, false⟩

/-- What may stand behind a command: options, one place, and commands. -/
structure Grammar where
  options : List Slot
  place : Option Slot
  commands : List String

/-! ## Words -/

/-- The word for a segmentation on the command line. -/
def segmentationWord : Segmentation → String
  | .wholeFile => "whole-file"
  | .perFunction => "per-function"

/-- The segmentation that a word means. -/
def segmentationOf? (s : String) : Option Segmentation :=
  [Segmentation.wholeFile, .perFunction].find? fun m => segmentationWord m == s

/-- The words for segmentations, to choose from. -/
def segmentKind : Kind := .choice ["whole-file", "per-function"]

def versionText : String := "binclone 0.1.0"

/-! ## Commands -/

/-- The options that may stand anywhere. -/
def shared : List Slot := [
  option "no-color" .switch, option "quiet" .switch, option "config" .path,
  lettered "help" 'h' .help]

def corpusOptions : List Slot := [
  option "segment" segmentKind, ⟨"ignore", some 'i', .text, true⟩]

/-- The listings and directories of a corpus. -/
def corpusPlace : Slot := ⟨"corpus", none, .path, true⟩

/-- What stands in front of a command. -/
def outer : Grammar :=
  ⟨shared ++ [lettered "version" 'V' .version], none,
    ["init", "table", "index", "build", "query", "help"]⟩

/-- What stands behind a command. -/
def inner? (command : String) : Option Grammar :=
  match command with
  | "init" => some ⟨shared ++ [option "force" .switch], some ⟨"path", none, .path, false⟩, []⟩
  | "table" =>
    some ⟨shared ++ corpusOptions ++ [lettered "window" 'w' .count,
      lettered "percentile" 'p' .number, lettered "output" 'o' .path], some corpusPlace, []⟩
  | "index" =>
    some ⟨shared ++ corpusOptions ++ [lettered "table" 't' .path, lettered "sb-size" 's' .count,
      lettered "output" 'o' .path], some corpusPlace, []⟩
  | "build" =>
    some ⟨shared ++ corpusOptions ++ [lettered "window" 'w' .count,
      lettered "percentile" 'p' .number, lettered "sb-size" 's' .count, option "table" .path,
      option "index" .path], some corpusPlace, []⟩
  | "query" =>
    some ⟨shared ++ [lettered "table" 't' .path, lettered "index" 'i' .path,
      lettered "sb-size" 's' .count, lettered "limit" 'l' .count, option "min-similarity" .number,
      option "header-lines" .count, option "segment" segmentKind,
      option "format" (.choice ["table", "json"])], some ⟨"query", none, .path, false⟩, []⟩
  | _ => none

end Lookalike.CommandLine
