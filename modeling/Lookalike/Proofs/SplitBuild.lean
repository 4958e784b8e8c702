-- Two ways to a table and an index: one build, or a table first and then an
-- index with it. Both save the same table, so the second way finds in the file
-- what the first one still holds, and everything after that is the same.
import Lookalike.Proofs.CommandRuns
import Lookalike.Proofs.SavedTable
import Lookalike.Proofs.WrittenIndex

namespace Lookalike

open CommandLine (CorpusChoice Order Command)

/-! ## Trees that look alike -/

/-- For the settings and the corpus of a command two trees look alike: the settings file gives the
same members, the same listings are found, and each has the same content. -/
structure LooksAlike (environment : List (String × String)) (explicit : Option Path)
    (c : CorpusChoice) (before after : Folder) : Prop where
  settings : Settings.fileSource after explicit = Settings.fileSource before explicit
  found : ∀ s walker, Settings.load before environment explicit = .ok s →
    Walker.make (s.corpus.ignored ++ c.ignored) s.corpus.included false = .ok walker →
    walker.collect after c.roots = walker.collect before c.roots
  content : ∀ s walker listings, Settings.load before environment explicit = .ok s →
    Walker.make (s.corpus.ignored ++ c.ignored) s.corpus.included false = .ok walker →
    walker.collect before c.roots = .ok listings →
    ∀ p ∈ listings, Content.read after p = Content.read before p

theorem Loader.loadInOrder_congr (l : Loader) {before after : Folder} {ps : List Path}
    (h : ∀ p ∈ ps, Content.read after p = Content.read before p) :
    l.loadInOrder after ps = l.loadInOrder before ps := by
  induction ps with
  | nil => rfl
  | cons p ps ih =>
    obtain ⟨hp, hps⟩ := List.forall_mem_cons.mp h
    rw [loadInOrder, loadInOrder, loadFile, loadFile, hp, ih hps]

namespace LooksAlike

variable {environment : List (String × String)} {explicit : Option Path} {c : CorpusChoice}
  {before after : Folder} (h : LooksAlike environment explicit c before after)

include h

theorem load_settings :
    Settings.load after environment explicit = Settings.load before environment explicit := by
  unfold Settings.load
  rw [h.settings]

theorem load_corpus {s : Settings} (hs : Settings.load before environment explicit = .ok s) :
    c.load s after = c.load s before := by
  unfold CorpusChoice.load
  cases hmake : Walker.make (s.corpus.ignored ++ c.ignored) s.corpus.included false with
  | error f => rfl
  | ok walker =>
    simp only [bind, Except.bind]
    rw [h.found s walker hs hmake]
    cases hfound : walker.collect before c.roots with
    | error f => rfl
    | ok listings =>
      have hload : (c.loader s).loadAll after listings = (c.loader s).loadAll before listings := by
        apply Loader.loadInOrder_congr
        intro p hp
        exact h.content s walker listings hs hmake hfound p (List.mem_mergeSort.mp hp)
      simp only [hload]

end LooksAlike

/-! ## A table that was learned and saved -/

theorem ThresholdTable.load_learned {streams : List Stream} {window : Nat} {percentile : Float}
    {t : ThresholdTable} (learned : learn streams window percentile = .ok t)
    (word : window < 2 ^ 64) (same : Json.reread percentile = some percentile) {o : Order}
    {path : Path} {w w' : World} (saved : (Job.saveTable o t path).run w = (.ok (), w')) :
    load w'.files path = .ok t := by
  obtain ⟨w₁, hsave, hfiles⟩ := Job.told_eq_ok saved
  have made : t.Made := .learned learned
  have hnodup := made.nodup_keys
  have hpositive := made.positive
  obtain ⟨hchecked, rfl⟩ := learn_eq_ok_iff.mp learned
  rw [hfiles, load_saved hsave, read_toChars word hnodup path same,
    ofParts_eq_ok_iff.mpr ⟨hchecked, hpositive, rfl⟩]
  rfl

/-! ## Both ways -/

section

variable {c : CorpusChoice} {window : Option Nat} {percentile : Option Float} {width : Option Nat}
  {tablePath indexPath : Path} {quiet plain : Bool} {config : Option Path}
  {environment : List (String × String)} {w w₁ w' : World}

/-- Behind a saved table the index command works with that table and the streams it was learned
from. -/
theorem index_behind_table {s : Settings} {streams : List Stream} {t : ThresholdTable}
    (settings : Settings.load w.files environment config = .ok s)
    (loaded : c.load s w.files = .ok streams)
    (table : ThresholdTable.load w₁.files tablePath = .ok t)
    (alike : LooksAlike environment config c w.files w₁.files) :
    ((⟨.index c (some tablePath) width (some indexPath), quiet, plain, config⟩ :
        Order).run environment).run w₁ = (.ok (), w') ↔
      ∃ i, Index.buildStamped streams t (c.loader s).normalizer t.window
          (width.getD s.fingerprint.width) (c.loader s).segmentation = .ok i ∧
        (Job.saveIndex ⟨.index c (some tablePath) width (some indexPath), quiet, plain, config⟩ i
          indexPath).run w₁ = (.ok (), w') := by
  have hsettings := alike.load_settings.trans settings
  have hloaded := (alike.load_corpus settings).trans loaded
  constructor
  · intro hrun
    obtain ⟨s', hs', hrun⟩ := Order.settings_bind_eq_ok_iff.mp hrun
    obtain rfl := Except.ok.inj (hs'.symm.trans hsettings)
    obtain ⟨t', streams', i, ht', hstreams', hbuild, hsave⟩ := Order.index_eq_ok_iff.mp hrun
    obtain rfl := Except.ok.inj (ht'.symm.trans table)
    obtain rfl := Except.ok.inj (hstreams'.symm.trans hloaded)
    exact ⟨i, hbuild, hsave⟩
  · rintro ⟨i, hbuild, hsave⟩
    exact Order.settings_bind_eq_ok_iff.mpr
      ⟨s, hsettings, Order.index_eq_ok_iff.mpr ⟨t, streams, i, table, hloaded, hbuild, hsave⟩⟩

/-- One build succeeds exactly if the table and then the index do, and then it leaves the same
files and has told the same. -/
theorem a_build_is_a_table_and_an_index
    (read_back : ∀ s, Settings.load w.files environment config = .ok s →
      checkParameters (window.getD s.fingerprint.window)
        (percentile.getD s.fingerprint.percentile) = .ok () →
      window.getD s.fingerprint.window < 2 ^ 64 ∧
        Json.reread (percentile.getD s.fingerprint.percentile) =
          some (percentile.getD s.fingerprint.percentile))
    (unseen : ∀ w₁, ((⟨.table c window percentile (some tablePath), quiet, plain, config⟩ :
        Order).run environment).run w = (.ok (), w₁) →
      LooksAlike environment config c w.files w₁.files) :
    ((⟨.build c window percentile width (some tablePath) (some indexPath), quiet, plain, config⟩ :
        Order).run environment).run w = (.ok (), w') ↔
      ∃ w₁,
        ((⟨.table c window percentile (some tablePath), quiet, plain, config⟩ :
          Order).run environment).run w = (.ok (), w₁) ∧
        ((⟨.index c (some tablePath) width (some indexPath), quiet, plain, config⟩ :
          Order).run environment).run w₁ = (.ok (), w') := by
  constructor
  · intro hrun
    obtain ⟨s, hs, hrun⟩ := Order.settings_bind_eq_ok_iff.mp hrun
    obtain ⟨streams, t, w₁, i, hchecked, hload, hlearn, hsaved, hbuild, hsave⟩ :=
      Order.build_eq_ok_iff.mp hrun
    have hfirst : ((⟨.table c window percentile (some tablePath), quiet, plain, config⟩ :
        Order).run environment).run w = (.ok (), w₁) :=
      Order.settings_bind_eq_ok_iff.mpr
        ⟨s, hs, Order.table_eq_ok_iff.mpr ⟨streams, t, hchecked, hload, hlearn, hsaved⟩⟩
    obtain ⟨word, same⟩ := read_back s hs hchecked
    have htable := ThresholdTable.load_learned hlearn word same hsaved
    obtain ⟨-, rfl⟩ := ThresholdTable.learn_eq_ok_iff.mp hlearn
    exact ⟨w₁, hfirst, (index_behind_table hs hload htable (unseen w₁ hfirst)).mpr
      ⟨i, hbuild, hsave⟩⟩
  · rintro ⟨w₁, hfirst, hsecond⟩
    have alike := unseen w₁ hfirst
    obtain ⟨s, hs, hrun⟩ := Order.settings_bind_eq_ok_iff.mp hfirst
    obtain ⟨streams, t, hchecked, hload, hlearn, hsaved⟩ := Order.table_eq_ok_iff.mp hrun
    obtain ⟨word, same⟩ := read_back s hs hchecked
    have htable := ThresholdTable.load_learned hlearn word same hsaved
    obtain ⟨i, hbuild, hsave⟩ := (index_behind_table hs hload htable alike).mp hsecond
    obtain ⟨-, rfl⟩ := ThresholdTable.learn_eq_ok_iff.mp hlearn
    exact Order.settings_bind_eq_ok_iff.mpr
      ⟨s, hs, Order.build_eq_ok_iff.mpr ⟨streams, _, w₁, i, hchecked, hload, hlearn, hsaved, hbuild,
        hsave⟩⟩

end

/-! ## A listing of three lines -/

namespace ShortListing

/-- A banner, two instructions that are the same, and one more. -/
def content : Bytes :=
  Text.encode (String.ofList (List.replicate 6 '\n' ++
    ["mov eax", "mov eax", "ret"].flatMap fun s => List.replicate 32 ' ' ++ s.toList ++ ['\n']))

/-- The listing and the files beside it. -/
def files (beside : Folder) : Folder := .file "l.asm" content beside

/-- A corpus of one listing. -/
def corpusOf (p : Path) : CorpusChoice := ⟨[p], none, []⟩

def streamOf (p : Path) : Stream :=
  ⟨⟨p, none, 6⟩, [⟨6, ["mov", "REGSEG"]⟩, ⟨7, ["mov", "REGSEG"]⟩, ⟨8, ["ret"]⟩]⟩

abbrev corpus : CorpusChoice := corpusOf ⟨"l.asm"⟩

abbrev stream : Stream := streamOf ⟨"l.asm"⟩

def table : ThresholdTable := ⟨1, 0.5, [("REGSEG", 1), ("mov", 1)]⟩

theorem collect_of_expand {walker : Walker} {top : Folder} {p : Path}
    (expanded : walker.expand top p = .ok [p]) :
    walker.collect top (corpusOf p).roots = .ok [p] := by
  simp [Walker.collect, corpusOf, expanded, bind, Except.bind, pure, Except.pure,
    Walker.dropRepeated]

theorem collect_eq (walker : Walker) (beside : Folder) :
    walker.collect (files beside) corpus.roots = .ok [⟨"l.asm"⟩] := collect_of_expand rfl

/-- A file beside the listing is not seen. -/
theorem looksAlike (saved : Bytes) :
    LooksAlike [] none corpus (files .empty) (files (.file "t.json" saved .empty)) where
  settings := rfl
  found _ walker _ _ := by rw [collect_eq, collect_eq]
  content _ walker listings _ _ hfound p hp := by
    rw [collect_eq] at hfound
    cases hfound
    obtain rfl := List.mem_singleton.mp hp
    rfl

/-- Wherever the listing stands, it is the one stream of its corpus. -/
theorem load_listing {top : Folder} {p : Path} {names : List Bytes}
    (expanded : ∀ walker : Walker, walker.expand top p = .ok [p])
    (place : top.resolve p = .ok ⟨names, .file content⟩) :
    (corpusOf p).load Settings.default top = .ok [streamOf p] := by
  obtain ⟨walker, hmake⟩ : ∃ walker, Walker.make
      (Settings.default.corpus.ignored ++ (corpusOf p).ignored) Settings.default.corpus.included
        false = .ok walker := ⟨_, rfl⟩
  have hread : Content.read top p = .ok ⟨content, false⟩ := by
    have hsmall : decide (Content.mappedAbove < content.length) = false := by decide +kernel
    rw [Content.read, place]
    simp only [hsmall]
  have hlines : ((Settings.default.corpusNormalizer.body (Text.decodeKindly content)).filterMap
      fun raw => Settings.default.corpusNormalizer.line? raw.2 raw.1) =
        [⟨6, ["mov", "REGSEG"]⟩, ⟨7, ["mov", "REGSEG"]⟩, ⟨8, ["ret"]⟩] := by decide +kernel
  have hfile : ((corpusOf p).loader Settings.default).loadFile top p = .ok [streamOf p] := by
    have hloader : (corpusOf p).loader Settings.default =
        ⟨Settings.default.corpusNormalizer, .wholeFile⟩ := rfl
    have hstart : Settings.default.corpusNormalizer.dialect.headerLines = 6 := rfl
    rw [Loader.loadFile, hread, hloader]
    simp only [bind, Except.bind, pure, Except.pure, Segmentation.streams, wholeStream,
      Content.chars, hlines, hstart, streamOf]
  have hloaded : ((corpusOf p).loader Settings.default).loadAll top [p] = .ok [streamOf p] := by
    rw [Loader.loadAll, List.mergeSort_singleton, Loader.loadInOrder, hfile]
    rfl
  unfold CorpusChoice.load
  rw [hmake]
  simp only [bind, Except.bind, collect_of_expand (expanded walker)]
  exact hloaded

theorem load_eq (beside : Folder) : corpus.load Settings.default (files beside) = .ok [stream] :=
  load_listing (fun _ => rfl) rfl

theorem checked : checkParameters 1 0.5 = .ok () :=
  checkParameters_eq_ok_iff.mpr (by decide)

theorem reread_half : Json.reread 0.5 = some 0.5 := by
  apply Json.reread_short (d := 5) (k := 1) (by decide) (by decide) (by decide)
  exact Decimal.toBits_inj (by decide)

theorem learn_alike {p : Path} {window seen k : Nat} {values : List Nat}
    (checks : checkParameters window 0.5 = .ok ())
    (tally : Tally.ofStreams window [streamOf p] = ⟨seen, [("mov", values), ("REGSEG", values)]⟩)
    (statistic : orderStatistic seen 0.5 values = k) (positive : UInt32.ofNat k ≠ 0) :
    ThresholdTable.learn [streamOf p] window 0.5 =
      .ok ⟨window, 0.5, [("REGSEG", UInt32.ofNat k), ("mov", UInt32.ofNat k)]⟩ := by
  have hsorted : [("mov", values), ("REGSEG", values)].mergeSort
      (fun a b => (compare a.1 b.1).isLE) = [("REGSEG", values), ("mov", values)] := by
    have hle : (compare "mov" "REGSEG").isLE = false := by decide
    simp [List.mergeSort, List.MergeSort.Internal.splitInTwo, hle]
  apply ThresholdTable.learn_eq_ok_iff.mpr
  refine ⟨checks, ?_⟩
  rw [tally]
  simp [Tally.thresholds, hsorted, statistic, positive]

theorem learn_eq (p : Path) : ThresholdTable.learn [streamOf p] 1 0.5 = .ok table := by
  have htally : Tally.ofStreams 1 [streamOf p] = ⟨2, [("mov", [1, 1]), ("REGSEG", [1, 1])]⟩ := by
    cbv
  have hsame : (padded 2 [1, 1]).mergeSort = [1, 1] := by cbv
  have hrank : rank 2 0.5 = 1 := by decide
  apply learn_alike (k := 1) checked htally
  · unfold orderStatistic
    rw [hsame]
    simp [hrank]
  · decide

theorem isText_of_built {t : ThresholdTable} {n : Normalizer} {window width : Nat}
    {mode : Segmentation} {i : Index}
    (built : Index.buildStamped [stream] t n window width mode = .ok i) : i.isText = true :=
  Index.isText_of_buildStamped built (by simp [streamOf])

theorem saveIndex_eq {t : ThresholdTable} {n : Normalizer} {window width : Nat}
    {mode : Segmentation} {i : Index}
    (built : Index.buildStamped [stream] t n window width mode = .ok i) {o : Order}
    (quiet : o.quiet = true) (saved : Bytes) :
    (Job.saveIndex o i ⟨"i.jsonl"⟩).run ⟨files (.file "t.json" saved .empty), ""⟩ =
      (.ok (), ⟨files (.file "t.json" saved
        (.file "i.jsonl" (Text.encode (String.ofList i.toChars)) .empty)), ""⟩) := by
  unfold Job.saveIndex
  rw [Index.save_of_isText (isText_of_built built), quiet]
  rfl

end ShortListing

open ShortListing in
/-- Both ways give the same two files beside the listing. -/
theorem a_short_listing_is_built_both_ways :
    ∃ tableBytes indexBytes,
      let learned : World := ⟨files (.file "t.json" tableBytes .empty), ""⟩
      let built : World :=
        ⟨files (.file "t.json" tableBytes (.file "i.jsonl" indexBytes .empty)), ""⟩
      ((⟨.build corpus (some 1) (some 0.5) (some 1) (some ⟨"t.json"⟩) (some ⟨"i.jsonl"⟩),
          true, true, none⟩ : Order).run []).run ⟨files .empty, ""⟩ = (.ok (), built) ∧
        ((⟨.table corpus (some 1) (some 0.5) (some ⟨"t.json"⟩), true, true, none⟩ :
          Order).run []).run ⟨files .empty, ""⟩ = (.ok (), learned) ∧
        ((⟨.index corpus (some ⟨"t.json"⟩) (some 1) (some ⟨"i.jsonl"⟩), true, true, none⟩ :
          Order).run []).run learned = (.ok (), built) := by
  have hsettings : Settings.load (files .empty) [] none = .ok Settings.default := rfl
  obtain ⟨i, hindex⟩ : ∃ i, Index.buildStamped [stream] table
      (corpus.loader Settings.default).normalizer 1 1
      (corpus.loader Settings.default).segmentation = .ok i := ⟨_, rfl⟩
  have hfirst : ((⟨.table corpus (some 1) (some 0.5) (some ⟨"t.json"⟩), true, true, none⟩ :
      Order).run []).run ⟨files .empty, ""⟩ =
        (.ok (), ⟨files (.file "t.json" (Text.encode (String.ofList table.toChars)) .empty), ""⟩) :=
    Order.settings_bind_eq_ok_iff.mpr ⟨_, hsettings, Order.table_eq_ok_iff.mpr
      ⟨[stream], table, checked, load_eq _, learn_eq _, rfl⟩⟩
  have hbuilt : ((⟨.build corpus (some 1) (some 0.5) (some 1) (some ⟨"t.json"⟩)
      (some ⟨"i.jsonl"⟩), true, true, none⟩ : Order).run []).run ⟨files .empty, ""⟩ =
        (.ok (), ⟨files (.file "t.json" (Text.encode (String.ofList table.toChars))
          (.file "i.jsonl" (Text.encode (String.ofList i.toChars)) .empty)), ""⟩) :=
    Order.settings_bind_eq_ok_iff.mpr ⟨_, hsettings, Order.build_eq_ok_iff.mpr
      ⟨[stream], table, _, i, checked, load_eq _, learn_eq _, rfl, hindex,
        saveIndex_eq hindex rfl _⟩⟩
  have unseen : ∀ w₁, ((⟨.table corpus (some 1) (some 0.5) (some ⟨"t.json"⟩), true, true, none⟩ :
      Order).run []).run ⟨files .empty, ""⟩ = (.ok (), w₁) →
      LooksAlike [] none corpus (files .empty) w₁.files := by
    intro w₁ h
    cases hfirst.symm.trans h
    exact looksAlike _
  have hword : 1 < 2 ^ 64 := by decide
  obtain ⟨w₁, hlearned, hsecond⟩ :=
    (@a_build_is_a_table_and_an_index corpus (some 1) (some 0.5) (some 1) ⟨"t.json"⟩ ⟨"i.jsonl"⟩
      true true none [] ⟨files .empty, ""⟩ _ (fun _ _ _ => ⟨hword, reread_half⟩) unseen).mp hbuilt
  cases hfirst.symm.trans hlearned
  exact ⟨_, _, hbuilt, hfirst, hsecond⟩

end Lookalike
