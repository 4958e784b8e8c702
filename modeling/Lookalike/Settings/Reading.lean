-- From the values of all sources to settings. What is missing takes its default
-- value, what is not known is left alone, and a value of the wrong kind spoils
-- the whole.
import Lookalike.Settings.Basic
import Lookalike.Settings.Value

namespace Lookalike

/-- Read a field; a missing one takes its default value. -/
def Setting.orElse {α : Type} (read : Setting → Option α) (dflt : α) : Option Setting → Option α
  | none => some dflt
  | some s => read s

/-- A segmentation, by its word. -/
def Setting.segmentation? (s : Setting) : Option Segmentation :=
  s.choice?.bind Segmentation.ofName?

/-- A path, by its text. -/
def Setting.path? (s : Setting) : Option Path := s.text?.map Path.mk

open Setting (orElse)

/-! ## Sections -/

/-- The layout of listings. -/
def Dialect.ofSetting? (s : Setting) : Option Dialect := do
  match ← s.fields? ["column_offset", "header_lines", "strip_keywords"] with
  | [column, header, keywords] =>
    return ⟨← orElse Setting.count? default.column column,
      ← orElse Setting.count? default.headerLines header,
      ← orElse Setting.texts? default.keywords keywords⟩
  | _ => none

/-- The rules that shape tokens. -/
def Rules.ofSetting? (s : Setting) : Option Rules := do
  match ← s.fields? ["synonyms", "regseg"] with
  | [synonyms, registers] =>
    return ⟨← orElse Setting.groups? default.synonyms synonyms,
      ← orElse Setting.texts? default.registers registers⟩
  | _ => none

/-- The section about fingerprints. -/
def FingerprintSettings.ofSetting? (s : Setting) : Option FingerprintSettings := do
  match ← s.fields? ["window", "sb_size", "percentile"] with
  | [window, width, percentile] =>
    return ⟨← orElse Setting.count? default.window window,
      ← orElse Setting.count? default.width width,
      ← orElse Setting.float? default.percentile percentile⟩
  | _ => none

/-- The section about the corpus. -/
def CorpusSettings.ofSetting? (s : Setting) : Option CorpusSettings := do
  match ← s.fields? ["segment", "include", "ignore"] with
  | [segment, included, ignored] =>
    return ⟨← orElse Setting.segmentation? default.segmentation segment,
      ← orElse Setting.texts? default.included included,
      ← orElse Setting.texts? default.ignored ignored⟩
  | _ => none

/-- The section about queries. -/
def QuerySettings.ofSetting? (s : Setting) : Option QuerySettings := do
  match ← s.fields? ["segment", "header_lines", "limit", "min_similarity"] with
  | [segment, header, limit, similarity] =>
    return ⟨← orElse Setting.segmentation? default.segmentation segment,
      ← orElse Setting.count? default.headerLines header,
      ← orElse Setting.optionalCount? default.limit limit,
      ← orElse Setting.float? default.minSimilarity similarity⟩
  | _ => none

/-- The section about files. -/
def PathSettings.ofSetting? (s : Setting) : Option PathSettings := do
  match ← s.fields? ["table", "index"] with
  | [table, index] =>
    return ⟨← orElse Setting.path? default.table table, ← orElse Setting.path? default.index index⟩
  | _ => none

/-! ## All settings -/

def Settings.ofSetting? (s : Setting) : Option Settings := do
  match ← s.fields? ["dialect", "normalize", "fingerprint", "corpus", "query", "paths"] with
  | [dialect, rules, fingerprint, corpus, query, paths] =>
    return ⟨← orElse Dialect.ofSetting? default.dialect dialect,
      ← orElse Rules.ofSetting? default.rules rules,
      ← orElse FingerprintSettings.ofSetting? default.fingerprint fingerprint,
      ← orElse CorpusSettings.ofSetting? default.corpus corpus,
      ← orElse QuerySettings.ofSetting? default.query query,
      ← orElse PathSettings.ofSetting? default.paths paths⟩
  | _ => none

end Lookalike
