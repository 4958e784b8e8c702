-- The settings of a corpus and their default values.
import Lookalike.Listing.Stream
import Lookalike.Threshold.Table

namespace Lookalike

/-! ## Sections -/

/-- The window, the width of bucket numbers, and the rank of thresholds. -/
structure FingerprintSettings where
  window : Nat
  width : Nat
  percentile : Float

/-- How listings of a corpus are found and cut. -/
structure CorpusSettings where
  segmentation : Segmentation
  included : List String
  ignored : List String

/-- How a query listing is cut, the length of its banner, and what is told of its matches. -/
structure QuerySettings where
  segmentation : Segmentation
  headerLines : Nat
  limit : Option Nat
  minSimilarity : Float

/-- Where the table and the index are kept. -/
structure PathSettings where
  table : Path
  index : Path

structure Settings where
  dialect : Dialect
  rules : Rules
  fingerprint : FingerprintSettings
  corpus : CorpusSettings
  query : QuerySettings
  paths : PathSettings

/-! ## Default values -/

/-- Windows of sixty lines, buckets of sixteen bits, thresholds in the middle. -/
def FingerprintSettings.default : FingerprintSettings := ⟨60, 16, 0.5⟩

/-- Every listing as one stream; the common endings of listings. -/
def CorpusSettings.default : CorpusSettings :=
  ⟨.wholeFile, ["*.txt", "*.asm", "*.s", "*.S"], []⟩

/-- A whole listing without a banner, and at most twenty matches. -/
def QuerySettings.default : QuerySettings := ⟨.wholeFile, 0, some 20, 0⟩

/-- Both files in a directory of their own. -/
def PathSettings.default : PathSettings :=
  ⟨⟨"binclone/thresholds.json"⟩, ⟨"binclone/index.jsonl"⟩⟩

namespace Settings

def default : Settings where
  dialect := .default
  rules := .default
  fingerprint := .default
  corpus := .default
  query := .default
  paths := .default

/-! ## Normalizers -/

def corpusNormalizer (s : Settings) : Normalizer := ⟨s.rules, s.dialect⟩

/-- The normalizer of query listings: the same rules, with a banner of its own. -/
def queryNormalizer (s : Settings) (headerLines : Option Nat) : Normalizer :=
  s.corpusNormalizer.withHeaderLines (headerLines.getD s.query.headerLines)

/-- The rules do not depend on the banner of a query. -/
theorem identity_queryNormalizer (s : Settings) (headerLines : Option Nat) :
    (s.queryNormalizer headerLines).identity = s.corpusNormalizer.identity := rfl

end Settings
end Lookalike
