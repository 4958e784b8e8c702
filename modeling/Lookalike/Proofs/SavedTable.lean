-- The laws of saved tables: the file of a table holds its window, its symbols
-- and its thresholds in order, whatever letters the symbols have. Only the
-- percentile goes through a decimal on the way.
import Lookalike.Proofs.Imprint
import Lookalike.Proofs.OrderStatistic
import Lookalike.Proofs.SavedNumbers
import Lookalike.Proofs.WrittenFiles
import Lookalike.Threshold.Saved

namespace Lookalike

namespace ThresholdTable

/-! ## Reading what was written -/

theorem allPlain_thresholds (es : List (String × UInt32)) :
    Json.AllPlainMembers
      ((es.map fun e => (e.1, Json.ofNat e.2.toNat)).map fun f => (some f.1, f.2)) := by
  induction es with
  | nil => trivial
  | cons e es ih => exact ⟨Decimal.plain_ofNat _, ih⟩

theorem allPlain_toJson (t : ThresholdTable) : t.toJson.AllPlain := by
  refine ⟨Decimal.plain_ofNat _, ?_, allPlain_thresholds t.entries, trivial⟩
  unfold Json.ofFloat
  split
  · rename_i n hn
    exact Decimal.plain_numeral? hn
  · trivial

theorem mapM_thresholds (es : List (String × UInt32)) :
    ((es.map fun e => (e.1, Json.ofNat e.2.toNat)).map fun f => (some f.1, f.2)).mapM
      (fun m : Option String × Json => do return (← m.1, UInt32.ofNat (← m.2.word?))) =
      some es := by
  induction es with
  | nil => rfl
  | cons e es ih =>
    have hword : (Json.ofNat e.2.toNat).word? = some e.2.toNat :=
      Decimal.wholeNumber?_ofNat (Nat.le_sub_one_of_lt e.2.toNat_lt)
    rw [List.map_cons, List.map_cons, List.mapM_cons, ih]
    simp [hword]

theorem entries?_thresholds {es : List (String × UInt32)} (h : (Ordered.keys es).Nodup) :
    entries? (.ofFields (es.map fun e => (e.1, .ofNat e.2.toNat))) = some es := by
  unfold entries? Json.ofFields
  dsimp only
  rw [mapM_thresholds, Option.bind_eq_bind, Option.bind_some, Ordered.ofPairs_of_nodup h]
  rfl

theorem parts?_toJson {t : ThresholdTable} (hw : t.window < 2 ^ 64)
    (h : (Ordered.keys t.entries).Nodup) :
    parts? t.toJson = (Json.ofFloat t.percentile).float?.map
      fun p => (t.window, p, t.entries) := by
  have hsize : (Json.ofNat t.window).size? = some t.window :=
    Decimal.wholeNumber?_ofNat (Nat.le_sub_one_of_lt hw)
  have hfields : t.toJson.fields? ["window", "percentile", "thresholds"] =
      some [some (.ofNat t.window), some (.ofFloat t.percentile),
        some (.ofFields (t.entries.map fun e => (e.1, .ofNat e.2.toNat)))] := by
    simp [toJson, Json.ofFields, Json.fields?, Json.single?, Json.named]
  unfold parts?
  rw [hfields]
  simp only [Option.bind_eq_bind, Option.bind_some, hsize, entries?_thresholds h]
  cases (Json.ofFloat t.percentile).float? <;> rfl

theorem float?_ofFloat (x : Float) : (Json.ofFloat x).float? = Json.reread x := by
  unfold Json.ofFloat Json.reread
  cases Decimal.Layout.saved.numeral? x <;> rfl

/-- Reading what was written for a table checks its window, its thresholds and the percentile that
was read. -/
theorem read_toChars {t : ThresholdTable} (hw : t.window < 2 ^ 64)
    (h : (Ordered.keys t.entries).Nodup) (path : Path) {p : Float}
    (hp : Json.reread t.percentile = some p) :
    read path t.toChars = (ofParts t.window p t.entries).during (.checkingTable path) := by
  have hparts : parts? t.toJson = some (t.window, p, t.entries) := by
    rw [parts?_toJson hw h, float?_ofFloat, hp]
    rfl
  unfold read toChars
  rw [Json.read?_pretty (allPlain_toJson t), Option.bind_some, hparts]
  rfl

/-- Loading what was saved reads what was written. -/
theorem load_saved {t : ThresholdTable} {a : Activity} {path : Path} {w w' : World}
    (h : (Job.save a path (Text.encode (String.ofList t.toChars))).run w = (.ok (), w')) :
    load w'.files path = read path t.toChars := by
  have hread := Job.read_save h
  have htext : w'.files.readText path = .ok t.toChars := by
    unfold Folder.readText
    rw [hread]
    simp only [bind, Except.bind, Text.decode?_encode, String.toList_ofList]
  unfold load
  rw [htext]
  rfl

/-! ## Tables that can be saved -/

theorem Made.nodup_keys {t : ThresholdTable} (h : t.Made) : (Ordered.keys t.entries).Nodup := by
  cases h with
  | given different ok =>
    obtain ⟨-, -, rfl⟩ := ofParts_eq_ok_iff.mp ok
    exact different
  | @learned streams window percentile _ ok =>
    obtain ⟨hchecked, rfl⟩ := learn_eq_ok_iff.mp ok
    have hw := (checkParameters_eq_ok_iff.mp hchecked).1
    have hascend := thresholds_ascend (Tally.holds_ofStreams hw streams) percentile
    apply List.pairwise_map.mpr
    apply hascend.imp
    intro e f hless heq
    rw [heq] at hless
    exact List.lt_irrefl _ hless

theorem Made.positive {t : ThresholdTable} (h : t.Made) : ∀ e ∈ t.entries, e.2 ≠ 0 := by
  cases h with
  | given different ok =>
    obtain ⟨-, hpositive, rfl⟩ := ofParts_eq_ok_iff.mp ok
    exact hpositive
  | learned ok =>
    obtain ⟨-, rfl⟩ := learn_eq_ok_iff.mp ok
    intro e he
    obtain ⟨v, -, hv⟩ := List.mem_filterMap.mp he
    dsimp only at hv
    split_ifs at hv with hzero
    cases hv
    exact hzero

end ThresholdTable

/-- A saved table loads again, with the window and the entries it had. Its percentile is the one
that is read from the numeral of the old one, so the table is the same just when that is the same.
It is for decimals of up to fifteen digits. Every index of the old table accepts the loaded one just
when their identities agree, and the bytes under the identities agree just when the tables do. -/
theorem a_saved_table_reads_back {t : ThresholdTable} (made : t.Made) (word : t.window < 2 ^ 64)
    {w w' : World} {path : Path}
    (saved : (Job.save (.writing path) path (Text.encode (String.ofList t.toChars))).run w =
      (.ok (), w')) :
    ∃ u, ThresholdTable.load w'.files path = .ok u ∧ u.window = t.window ∧ u.entries = t.entries ∧
      Json.reread t.percentile = some u.percentile ∧
      (u = t ↔ Json.reread t.percentile = some t.percentile) ∧
      (u.imprint = t.imprint ↔ u = t) ∧
      (∀ d k, d < 10 ^ 15 → k ≤ 21 → t.percentile = Decimal.nearest false d (10 ^ k) → u = t) ∧
      ∀ streams window width mode index,
        (Index.build streams t window width mode = .ok index ∨
          ∃ n, Index.buildStamped streams t n window width mode = .ok index) →
        (index.checkTable u width = .ok () ↔ u.identity = t.identity) := by
  obtain ⟨hwindow, hrank⟩ := checkParameters_eq_ok_iff.mp made.checked
  obtain ⟨p, hp, hrank'⟩ := Json.reread_rank hrank
  have hparts : ThresholdTable.ofParts t.window p t.entries = .ok ⟨t.window, p, t.entries⟩ :=
    ThresholdTable.ofParts_eq_ok_iff.mpr
      ⟨checkParameters_eq_ok_iff.mpr ⟨hwindow, hrank'⟩, made.positive, rfl⟩
  have hsame (q : Float) (hq : p = q) : (⟨t.window, p, t.entries⟩ : ThresholdTable) =
      ⟨t.window, q, t.entries⟩ := by rw [hq]
  have hback (h : (⟨t.window, p, t.entries⟩ : ThresholdTable) = t) : p = t.percentile := by
    rw [← h]
  refine ⟨⟨t.window, p, t.entries⟩, ?_, rfl, rfl, hp, ?_, ?_, ?_, ?_⟩
  · rw [ThresholdTable.load_saved saved, ThresholdTable.read_toChars word made.nodup_keys path hp,
      hparts]
    rfl
  · rw [hp, Option.some.injEq]
    exact ⟨hback, hsame t.percentile⟩
  · constructor
    · intro h
      obtain ⟨-, hbits, -⟩ := ThresholdTable.imprint_eq_iff.mp h
      exact hsame t.percentile (Decimal.toBits_inj (congrArg UInt64.toNat hbits))
    · intro h
      rw [h]
  · intro d k hd hk hnearest
    have hshort := Json.reread_short hrank hd hk hnearest
    rw [hp, Option.some.injEq] at hshort
    exact hsame t.percentile hshort
  · intro streams window width mode index hbuilt
    obtain ⟨hnoted, hsize, hid, hwidth⟩ := Index.notes_of_built hbuilt
    rw [Index.checkTable_eq_ok_iff, hnoted, hsize, hid, hwidth]
    constructor
    · rintro ⟨-, -, h, -⟩
      exact h.symm
    · intro h
      exact ⟨rfl, rfl, h.symm, rfl⟩

/-! ## Two saved tables -/

theorem save_top (a : Activity) (content : Bytes) :
    (Job.save a ⟨"t.json"⟩ content).run ⟨.empty, ""⟩ =
      (.ok (), ⟨.file "t.json" content .empty, ""⟩) := rfl

/-- A table with letters that JSON escapes, not in the order of its symbols. -/
def quotedTable : ThresholdTable := ⟨2, 0.5, [("say \"\x01 é\"", 3), ("mov", 1)]⟩

/-- It comes back as it was. -/
theorem a_quoted_table_reads_back :
    let path : Path := ⟨"t.json"⟩
    let content := Text.encode (String.ofList quotedTable.toChars)
    (quotedTable.Made ∧ quotedTable.window < 2 ^ 64 ∧
      (Job.save (.writing path) path content).run ⟨.empty, ""⟩ =
        (.ok (), ⟨.file "t.json" content .empty, ""⟩)) ∧
      ThresholdTable.load (.file "t.json" content .empty) path = .ok quotedTable := by
  intro path content
  have hhalf : (0 < quotedTable.percentile ∧ quotedTable.percentile ≤ 1) ∧
      quotedTable.percentile.toBits.toNat =
        (Decimal.nearest false 5 (10 ^ 1)).toBits.toNat := by decide
  have hmade : quotedTable.Made := by
    refine .given (by decide) (ThresholdTable.ofParts_eq_ok_iff.mpr ⟨?_, by decide, rfl⟩)
    exact checkParameters_eq_ok_iff.mpr ⟨by decide, hhalf.1⟩
  have hsaved := save_top (.writing path) content
  obtain ⟨u, hload, -, -, -, -, -, hshort, -⟩ :=
    a_saved_table_reads_back hmade (by decide) hsaved
  rw [hshort 5 1 (by decide) (by decide) (Decimal.toBits_inj hhalf.2)] at hload
  exact ⟨⟨hmade, by decide, hsaved⟩, hload⟩

/-- The percentile is the double below one. -/
def lossyTable : ThresholdTable := ⟨1, 0.9999999999999999, [("mov", 1), ("ret", 1)]⟩

/-- Its sixteen digits are divided by a power of ten that leaves no room below one: the loaded table
has the percentile one, and the index of the saved table turns it away. -/
theorem a_saved_percentile_is_lost :
    let path : Path := ⟨"t.json"⟩
    let content := Text.encode (String.ofList lossyTable.toChars)
    ThresholdTable.ofParts 1 0.9999999999999999 lossyTable.entries = .ok lossyTable ∧
      (Job.save (.writing path) path content).run ⟨.empty, ""⟩ =
        (.ok (), ⟨.file "t.json" content .empty, ""⟩) ∧
      lossyTable.percentile.toBits.toNat < Decimal.oneBits ∧
      ∃ u index, ThresholdTable.load (.file "t.json" content .empty) path = .ok u ∧
        u.percentile.toBits.toNat = Decimal.oneBits ∧
        Index.build [] lossyTable 1 1 .wholeFile = .ok index ∧ index.checkTable u 1 ≠ .ok () := by
  intro path content
  have hsaved := save_top (.writing path) content
  have hlossy : (0 < lossyTable.percentile ∧ lossyTable.percentile ≤ 1) ∧
      lossyTable.percentile.toBits.toNat < Decimal.oneBits ∧
      (Json.reread lossyTable.percentile).map (fun y => y.toBits.toNat) = some Decimal.oneBits ∧
      lossyTable.identity ≠ (⟨1, 1, lossyTable.entries⟩ : ThresholdTable).identity := by
    decide +kernel
  obtain ⟨hrank, hless, hbits, hdiffer⟩ := hlossy
  have hone : (0 : Float) < 1 ∧ (1 : Float) ≤ 1 :=
    (Decimal.rank_iff_bits 1).mpr (by rw [Decimal.toNat_one]; decide)
  have hparts (p : Float) (hp : 0 < p ∧ p ≤ 1) :
      ThresholdTable.ofParts 1 p lossyTable.entries = .ok ⟨1, p, lossyTable.entries⟩ :=
    ThresholdTable.ofParts_eq_ok_iff.mpr
      ⟨checkParameters_eq_ok_iff.mpr ⟨by decide, hp⟩, by decide, rfl⟩
  have hread : Json.reread lossyTable.percentile = some 1 := by
    obtain ⟨y, hy, hy'⟩ := Option.map_eq_some_iff.mp hbits
    rw [hy, Decimal.toBits_inj (hy'.trans Decimal.toNat_one.symm)]
  have hload : ThresholdTable.load (.file "t.json" content .empty) path =
      .ok ⟨1, 1, lossyTable.entries⟩ := by
    rw [ThresholdTable.load_saved hsaved,
      ThresholdTable.read_toChars (by decide) (by decide) path hread,
      show lossyTable.window = 1 from rfl, hparts 1 hone]
    rfl
  have hbuild : Index.build [] lossyTable 1 1 .wholeFile =
      .ok (Index.ofRecords ⟨1, 1, lossyTable.identity, 2, .wholeFile, false, 0, none⟩ []) := rfl
  refine ⟨hparts _ hrank, hsaved, hless, _, _, hload, Decimal.toNat_one, hbuild, ?_⟩
  intro hchecked
  obtain ⟨-, -, hid, -⟩ := Index.checkTable_eq_ok_iff.mp hchecked
  exact hdiffer hid

end Lookalike
