-- What becomes of a query. An index notes what it was built with; a query that
-- brings something else fails for the first difference, a short one fails for
-- its length, and any other is answered.
import Lookalike.Proofs.Numerals
import Lookalike.Proofs.QueryAnswer

namespace Lookalike

/-! ## Traits side by side -/

/-- A trait as an index notes it and as a query brings it. -/
structure Comparison where
  field : Trait
  noted : String
  brought : String

namespace Comparison

def differs (c : Comparison) : Bool := c.noted != c.brought

/-- The failure of a difference. -/
def failure (c : Comparison) : Failure := .of (.mismatch c.field c.noted c.brought)

/-- The failure of the first difference. -/
def check (cs : List Comparison) : Attempt Unit :=
  match cs.find? differs with
  | some c => .error c.failure
  | none => .ok ()

theorem check_cons (c : Comparison) (cs : List Comparison) :
    check (c :: cs) = if c.noted = c.brought then check cs else .error c.failure := by
  unfold check
  rw [List.find?_cons]
  by_cases h : c.noted = c.brought
  · rw [if_pos h, show c.differs = false by simp [differs, h]]
  · rw [if_neg h, show c.differs = true by simp [differs, h]]

/-- The traits of the table and the bucket width, in the order of the check. -/
def ofTable (h : Header) (t : ThresholdTable) (width : Nat) : List Comparison := [
  ⟨.window, toString h.window, toString t.window⟩,
  ⟨.tableSize, toString h.tableSize, toString t.size⟩,
  ⟨.tableId, h.tableId, t.identity⟩,
  ⟨.bucketWidth, toString h.width, toString width⟩]

/-- All traits: the rules come first. -/
def all (rulesId : String) (h : Header) (t : ThresholdTable) (n : Normalizer) (width : Nat) :
    List Comparison :=
  ⟨.rules, rulesId, n.identity⟩ :: ofTable h t width

theorem none_differs_iff {rulesId : String} {h : Header} {t : ThresholdTable} {n : Normalizer}
    {width : Nat} : (all rulesId h t n width).find? differs = none ↔
      rulesId = n.identity ∧ h.window = t.window ∧ h.tableSize = t.size ∧
        h.tableId = t.identity ∧ h.width = width := by
  simp only [all, ofTable, List.find?_eq_none, List.forall_mem_cons, differs, bne_iff_ne, ne_eq,
    not_not, Decimal.toString_inj, List.not_mem_nil, IsEmpty.forall_iff, implies_true, and_true]

end Comparison

namespace Index

theorem checkTable_eq (i : Index) (t : ThresholdTable) (width : Nat) :
    i.checkTable t width = Comparison.check (Comparison.ofTable i.header t width) := by
  unfold checkTable Comparison.ofTable
  simp only [Comparison.check_cons, Decimal.toString_inj, ne_eq, ite_not]
  rfl

theorem checkRules_eq {i : Index} {noted : String} (h : i.header.rulesId = some noted)
    (rulesId : String) : i.checkRules rulesId =
      if noted = rulesId then .ok () else .error (Comparison.failure ⟨.rules, noted, rulesId⟩) := by
  unfold checkRules
  rw [h]
  rfl

end Index

/-! ## Answers -/

section

variable {index : Index} {noted : String} (h : index.header.rulesId = some noted)
  (q : Stream) (t : ThresholdTable) (n : Normalizer) (options : QueryOptions)

include h

/-- A query compares all traits before it looks at the stream. -/
theorem query_eq_check :
    query q index t n options =
      Comparison.check (Comparison.all noted index.header t n options.width) >>= fun _ =>
        (if index.header.degenerate then .ok none
          else (Encoder.make t options.width).map some) >>= fun e =>
            (⟨index, e, t.size, options⟩ : Engine).query q := by
  unfold query Engine.make
  rw [index.checkRules_eq h, index.checkTable_eq, Comparison.all, Comparison.check_cons]
  by_cases hsame : noted = n.identity
  · rw [if_pos hsame, if_pos hsame]
    cases Comparison.check (Comparison.ofTable index.header t options.width) with
    | error f => rfl
    | ok u =>
      cases index.header.degenerate with
      | true => rfl
      | false => cases Encoder.make t options.width <;> rfl
  · rw [if_neg hsame, if_neg hsame]
    rfl

end

/-- Once all traits agree there is an engine, without an encoder exactly if the table was empty, and
it answers every query. -/
theorem engine_of_agreement {streams : List Stream} {t₀ : ThresholdTable} {n₀ : Normalizer}
    {window width : Nat} {mode : Segmentation} {index : Index}
    (built : Index.buildStamped streams t₀ n₀ window width mode = .ok index) {t : ThresholdTable}
    {n : Normalizer} (options : QueryOptions)
    (agree : (Comparison.all n₀.identity index.header t n options.width).find?
      Comparison.differs = none) :
    index.header.window = t.window ∧
      ∃ e, Engine.make index t options = .ok ⟨index, e, t.size, options⟩ ∧
        (∀ q, query q index t n options = (⟨index, e, t.size, options⟩ : Engine).query q) ∧
        (e = none ↔ t₀.isEmpty = true) := by
  obtain ⟨hrules, hdegenerate, hfits⟩ := Index.buildStamped_header built
  obtain ⟨-, hsize₀, -, hwidth₀⟩ := Index.notes_of_built (.inr ⟨_, built⟩)
  obtain ⟨hsame, hwindow, hsize, htable, hwidth⟩ := Comparison.none_differs_iff.mp agree
  have hcheck := Index.checkTable_eq_ok_iff.mpr ⟨hwindow, hsize, htable, hwidth⟩
  have hquery {e : Engine} (ready : Engine.make index t options = .ok e) (q : Stream) :
      query q index t n options = e.query q := by
    unfold query
    rw [index.checkRules_eq hrules, if_pos hsame, ready]
    rfl
  refine ⟨hwindow, ?_⟩
  cases hempty : t₀.isEmpty with
  | true =>
    have ready := Engine.make_eq_ok_iff.mpr ⟨hcheck, .inl ⟨hdegenerate.trans hempty, rfl⟩⟩
    exact ⟨none, ready, hquery ready, by simp⟩
  | false =>
    have fits : 0 < options.width ∧ options.width ≤ 64 ∧ options.width < t.size := by
      rw [← hsize, ← hwidth, hsize₀, hwidth₀]
      exact hfits hempty
    have ready := Engine.make_eq_ok_iff.mpr ⟨hcheck, .inr ⟨hdegenerate.trans hempty, fits, rfl⟩⟩
    exact ⟨some ⟨t, options.width⟩, ready, hquery ready, by simp⟩

/-- A query of an index that was built fails for the first trait that differs from the noted one; if
none differs, for a stream that is shorter than the window; and for nothing else. The answer is of
low confidence, and then empty, exactly if the index was built with an empty table. -/
theorem a_query_fails_for_its_first_difference {streams : List Stream} {t₀ : ThresholdTable}
    {n₀ : Normalizer} {window width : Nat} {mode : Segmentation} {index : Index}
    (built : Index.buildStamped streams t₀ n₀ window width mode = .ok index) {t : ThresholdTable}
    (made : t.Made) (n : Normalizer) (q : Stream) (options : QueryOptions) :
    let first :=
      (Comparison.all n₀.identity index.header t n options.width).find? Comparison.differs
    (∀ c, first = some c → query q index t n options = .error c.failure) ∧
      (first = none →
        (q.lines.length < t.window →
          query q index t n options = .error (.of (.queryTooShort q.lines.length t.window))) ∧
        (t.window ≤ q.lines.length →
          ∃ report, query q index t n options = .ok report ∧
            (report.lowConfidence = true ↔ t₀.isEmpty = true) ∧
            (t₀.isEmpty = true → report.ranked = [] ∧ report.groups = []))) := by
  intro first
  obtain ⟨hrules, -, -⟩ := Index.buildStamped_header built
  refine ⟨fun c hc => ?_, fun hnone => ?_⟩
  · rw [query_eq_check hrules, Comparison.check, show List.find? _ _ = some c from hc]
    rfl
  · obtain ⟨hwindow, e, -, hquery, he⟩ := engine_of_agreement built options hnone
    rw [hquery]
    unfold Engine.query
    rw [hwindow]
    refine ⟨fun hshort => ?_, fun hlong => ?_⟩
    · have hfirst : firstWindow? q.lines t.window = none := if_pos (.inr hshort)
      rw [hfirst]
    · obtain ⟨w, hfirst, -, -⟩ := firstWindow?_recounts made.window_pos hlong
      rw [hfirst, ← he]
      cases e with
      | none => exact ⟨_, rfl, ⟨fun _ => rfl, fun _ => rfl⟩, fun _ => ⟨rfl, rfl⟩⟩
      | some e => exact ⟨_, rfl, by simp, fun h => by cases h⟩

/-- An index of one window refuses a table without entries for its size, though the bucket width
differs as well, another bucket width alone, and a stream without lines; asked as it was built, it
finds its window. An index of an empty table finds nothing, whatever its width. -/
theorem an_answer_among_refusals :
    let n : Normalizer := ⟨Rules.default, Dialect.default⟩
    let t : ThresholdTable := ⟨1, 0.5, [("a", 1), ("b", 1)]⟩
    let bare : ThresholdTable := ⟨1, 0.5, []⟩
    let s : Stream := ⟨⟨⟨"s"⟩, none, 6⟩, [⟨6, ["a", "a"]⟩, ⟨7, []⟩]⟩
    let short : Stream := ⟨⟨⟨"s"⟩, none, 6⟩, []⟩
    t.Made ∧ bare.Made ∧
      (∃ index, Index.buildStamped [s] t n 1 1 .wholeFile = .ok index ∧
        query s index bare n ⟨2, none, 0⟩ = .error (.of (.mismatch .tableSize "2" "0")) ∧
        query s index t n ⟨2, none, 0⟩ = .error (.of (.mismatch .bucketWidth "1" "2")) ∧
        query short index t n ⟨1, none, 0⟩ = .error (.of (.queryTooShort 0 1)) ∧
        ∃ report, query s index t n ⟨1, none, 0⟩ = .ok report ∧ report.lowConfidence = false ∧
          ∃ m ∈ report.ranked, m.id = s.id ∧ m.line = 6 ∧ m.distance = 0) ∧
      ∃ index, Index.buildStamped [s] bare n 1 77 .wholeFile = .ok index ∧
        ∃ report, query s index bare n ⟨77, none, 0⟩ = .ok report ∧
          report.lowConfidence = true ∧ report.ranked = [] := by
  intro n t bare s short
  have ok : ThresholdTable.ofParts 1 0.5 t.entries = .ok t := rfl
  have ok' : ThresholdTable.ofParts 1 0.5 bare.entries = .ok bare := rfl
  have made : t.Made := .given (by decide) ok
  have made' : bare.Made := .given (by decide) ok'
  obtain ⟨plain, -, hplain, -, -, hrecords⟩ := @exists_engine t (by decide) 1 (by decide)
    (by decide) (by decide) [s] .wholeFile none 0
  obtain ⟨index, built, hsame⟩ : ∃ i, Index.buildStamped [s] t n 1 1 .wholeFile = .ok i ∧
      i.records = plain.records :=
    ⟨_, Index.buildStamped_eq_ok_iff.mpr ⟨plain, hplain, rfl⟩, rfl⟩
  obtain ⟨other, built'⟩ : ∃ i, Index.buildStamped [s] bare n 1 77 .wholeFile = .ok i := ⟨_, rfl⟩
  obtain ⟨hwindow, hsize, htable, hwidth⟩ := Index.notes_of_built (.inr ⟨n, built⟩)
  have smaller : (Comparison.all n.identity index.header bare n 2).find? Comparison.differs =
      some ⟨.tableSize, "2", "0"⟩ := by
    simp [Comparison.all, Comparison.ofTable, Comparison.differs, hwindow, hsize, t, bare,
      ThresholdTable.size, show Nat.repr 0 = "0" from rfl, show Nat.repr 2 = "2" from rfl]
  have wider : (Comparison.all n.identity index.header t n 2).find? Comparison.differs =
      some ⟨.bucketWidth, "1", "2"⟩ := by
    simp [Comparison.all, Comparison.ofTable, Comparison.differs, hwindow, hsize, htable, hwidth,
      show Nat.repr 1 = "1" from rfl, show Nat.repr 2 = "2" from rfl]
  have agree : (Comparison.all n.identity index.header t n 1).find? Comparison.differs = none :=
    Comparison.none_differs_iff.mpr ⟨rfl, hwindow, hsize, htable, hwidth⟩
  refine ⟨made, made', ⟨index, built, ?_, ?_, ?_, ?_⟩, other, built', ?_⟩
  · exact (a_query_fails_for_its_first_difference built made' n s ⟨2, none, 0⟩).1 _ smaller
  · exact (a_query_fails_for_its_first_difference built made n s ⟨2, none, 0⟩).1 _ wider
  · exact ((a_query_fails_for_its_first_difference built made n short ⟨1, none, 0⟩).2 agree).1
      (by decide)
  · obtain ⟨report, hreport, hlow, -⟩ :=
      ((a_query_fails_for_its_first_difference built made n s ⟨1, none, 0⟩).2 agree).2 (by decide)
    have sure : report.lowConfidence = false := Bool.eq_false_iff.mpr fun h => by cases hlow.mp h
    refine ⟨report, hreport, sure, ?_⟩
    obtain ⟨-, e, ready, hquery, -⟩ := engine_of_agreement built ⟨1, none, 0⟩ agree
    rw [hquery, Engine.query_eq_report made (.inr ⟨n, built⟩) ready, hwindow,
      if_neg (by decide)] at hreport
    cases hreport
    have hrecord : (⟨s, 0⟩ : Spot).record ⟨t, 1⟩ ∈ index.records :=
      hsame ▸ hrecords.mem_iff.mpr (List.mem_map_of_mem (.head _))
    exact ⟨_, Index.toMatch_mem_ranked hrecord (by decide) (by decide), rfl, rfl, by decide⟩
  · have agree' : (Comparison.all n.identity other.header bare n 77).find? Comparison.differs =
        none :=
      Comparison.none_differs_iff.mpr ⟨rfl, Index.notes_of_built (.inr ⟨n, built'⟩)⟩
    obtain ⟨report, hreport, hlow, hnothing⟩ :=
      ((a_query_fails_for_its_first_difference built' made' n s ⟨77, none, 0⟩).2 agree').2
        (by decide)
    exact ⟨report, hreport, hlow.mpr rfl, (hnothing rfl).1⟩

end Lookalike
