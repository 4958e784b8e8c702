-- A file of an index without its end is no file of an index. A line that was
-- cut cannot be read, and without a line there are fewer records than the
-- header declares.
import Lookalike.Proofs.CutJson
import Lookalike.Proofs.SavedIndex

namespace Lookalike

open Text (Short)

/-! ## Lines that were cut -/

namespace Json

/-- What is left of an object is not blank, and no value is read from it. -/
theorem cut_object {members : List (Option String × Json)} {p q : Bytes}
    (plain : (obj members).AllPlain) (hcut : p ++ q = (obj members).bytes) (hp : p ≠ [])
    (hq : q ≠ []) {cs : List Char} (hread : Text.decode? p = some cs) :
    Text.isBlankLine cs = false ∧ read? cs = none := by
  rcases Text.decode?_cut hcut with hnone | ⟨as, bs, htext, hleft, hmissing, has⟩
  · rw [hnone] at hread
    cases hread
  · obtain rfl : as = cs := Option.some.inj (has.symm.trans hread)
    have hwrites := writes_compact (obj members) plain
    rw [htext] at hwrites
    have hmore : bs ≠ [] := by
      rintro rfl
      exact hq hmissing
    refine ⟨?_, read?_cut hwrites hmore⟩
    cases as with
    | nil => exact absurd hleft hp
    | cons c cs =>
      obtain ⟨tail, htail⟩ := writes_brace hwrites
      obtain rfl := (List.cons.inj htail).1
      rfl

end Json

namespace Index

/-- Behind the header, short lines give a failure or fewer records. -/
theorem readRecords_short {rs : List Record} {seen : List Bytes}
    (h : Short (rs.map fun r => r.toJson.bytes) seen) (number : Nat) {found : List Record}
    (hfound : readRecords number seen = .ok found) : found.length < rs.length := by
  induction rs generalizing seen number found with
  | nil => cases h
  | cons r rs ih =>
    rw [List.map_cons] at h
    generalize hl : r.toJson.bytes = l at h
    cases h with
    | lost =>
      cases hfound
      simp
    | torn left missing =>
      rw [readRecords] at hfound
      obtain ⟨cs, hcs, hfound⟩ := Attempt.bind_eq_ok_iff.mp hfound
      obtain ⟨hblank, hnone⟩ := Json.cut_object r.allPlain_toJson hl.symm left missing
        (Attempt.ofOption_eq_ok_iff.mp hcs)
      rw [hblank, hnone] at hfound
      cases hfound
    | more _ rest =>
      obtain ⟨others, hothers, hfound⟩ := readRecords_cons_eq_ok hfound
      have := ih rest (number + 1) hothers
      rcases hfound with rfl | ⟨j, x, -, rfl⟩ <;> simp <;> omega

/-- From short lines no index is read. -/
theorem Savable.read_short {i : Index} (h : i.Savable) (path : Path) {content : Bytes}
    (hshort : Short i.lines (Text.byteLines content)) : ∃ f, read path content = .error f := by
  cases hread : read path content with
  | error f => exact ⟨f, rfl⟩
  | ok found =>
    exfalso
    rw [lines] at hshort
    generalize hl : i.header.toJson.bytes = l at hshort
    generalize hseen : Text.byteLines content = seen at hshort
    cases hshort with
    | lost =>
      rw [read, hseen] at hread
      cases hread
    | torn left missing =>
      rw [read, hseen] at hread
      obtain ⟨cs, hcs, hread⟩ := Attempt.bind_eq_ok_iff.mp hread
      obtain ⟨-, hnone⟩ := Json.cut_object i.header.allPlain_toJson hl.symm left missing
        (Attempt.ofOption_eq_ok_iff.mp hcs)
      rw [hnone] at hread
      cases hread
    | more _ rest =>
      rw [read_header h.header (hseen.trans (by rw [hl]))] at hread
      obtain ⟨rs, hrs, hread⟩ := Attempt.bind_eq_ok_iff.mp hread
      have hfewer := readRecords_short rest 2 hrs
      rw [h.proper.counted, if_pos hfewer.ne] at hread
      cases hread

/-! ## Files that were not written to the end -/

end Index

/-- Without its last bytes the file of an index is refused, wherever it was cut; only the last line
feed may be missing. -/
theorem a_cut_index_is_refused {i : Index} (reachable : i.Reachable) {w w' : World} {path : Path}
    (saved : (i.save path).run w = (.ok (), w')) {cut rest : Bytes}
    (whole : w'.files.read path = .ok (cut ++ rest)) {files : Folder} {copy : Path}
    (found : files.read copy = .ok cut) :
    (rest = [0x0A] → Index.load files copy = .ok i) ∧
      (rest ≠ [] → rest ≠ [0x0A] → ∃ f, Index.load files copy = .error f) := by
  obtain ⟨text, hsave⟩ := Index.save_eq_ok_iff.mp saved
  have hcut : cut ++ rest = Text.joinLines i.lines := by
    rw [Job.read_save hsave] at whole
    rw [← Except.ok.inj whole, Index.encode_toChars]
  unfold Index.load
  rw [found]
  rcases Text.byteLines_cut i.lines_onLine hcut with ⟨hend, hlines⟩ | ⟨⟨-, hmissing⟩, hshort⟩
  · exact ⟨fun _ => reachable.savable.read_lines text copy hlines,
      fun hsome hmissing => absurd hend (not_or.mpr ⟨hsome, hmissing⟩)⟩
  · exact ⟨fun hfeed => absurd hfeed hmissing, fun _ _ => reachable.savable.read_short copy hshort⟩

/-- Of two files the line of the header is left, without its line feed. It is an index where there
were no records, and none where there was one. -/
theorem a_header_alone :
    let t : ThresholdTable := ⟨1, 0.5, [("a", 1), ("b", 1)]⟩
    let s : Stream := ⟨⟨⟨"é.asm"⟩, none, 6⟩, [⟨6, ["a", "a"]⟩, ⟨7, ["b"]⟩]⟩
    let saved (i : Index) : Folder :=
      .file "i.jsonl" (Text.encode (String.ofList i.toChars)) .empty
    let cut (i : Index) : Folder := .file "cut.jsonl" i.header.toJson.bytes .empty
    (∃ i, Index.build [] t 1 1 .wholeFile = .ok i ∧ i.Reachable ∧ i.records.length = 0 ∧
      (i.save ⟨"i.jsonl"⟩).run ⟨.empty, ""⟩ = (.ok (), ⟨saved i, ""⟩) ∧
      Index.load (cut i) ⟨"cut.jsonl"⟩ = .ok i) ∧
    ∃ i, Index.build [s] t 1 1 .wholeFile = .ok i ∧ i.Reachable ∧ i.records.length = 1 ∧
      (i.save ⟨"i.jsonl"⟩).run ⟨.empty, ""⟩ = (.ok (), ⟨saved i, ""⟩) ∧
      ∃ f, Index.load (cut i) ⟨"cut.jsonl"⟩ = .error f := by
  intro t s saved cut
  have ok : ThresholdTable.ofParts 1 0.5 t.entries = .ok t := rfl
  have made : t.Made := .given (by decide) ok
  have built (streams : List Stream) := @build_eq t 1 (by decide) (by decide) (by decide)
    (by decide) streams .wholeFile
  have hsize (streams : List Stream) := (Index.records_ofRecords_perm (t.header 1 .wholeFile)
    ((Spot.all streams t.window).map (Spot.record ⟨t, 1⟩))).length_eq
  have hsaved (i : Index) (text : i.isText = true) :
      (i.save ⟨"i.jsonl"⟩).run ⟨.empty, ""⟩ = (.ok (), ⟨saved i, ""⟩) := by
    rw [Index.save_of_isText text]
    rfl
  have hwhole (i : Index) : (saved i).read ⟨"i.jsonl"⟩ = .ok (i.header.toJson.bytes ++
      0x0A :: Text.joinLines (i.records.map fun r => r.toJson.bytes)) := by
    rw [← Text.joinLines_cons, show _ :: _ = i.lines from rfl, ← Index.encode_toChars]
    rfl
  have hfound (i : Index) : (cut i).read ⟨"cut.jsonl"⟩ = .ok i.header.toJson.bytes := rfl
  constructor
  · have fits : CorpusFits [] := ⟨by decide, by decide, by decide⟩
    have reachable := Index.Reachable.built made fits (by decide) (by decide) (by decide) (built [])
    have hwhole := hwhole (Index.ofRecords (t.header 1 .wholeFile) [])
    have hsaved := hsaved _ (Index.isText_of_build (built []) (by decide))
    refine ⟨_, built [], reachable, hsize [], hsaved, ?_⟩
    exact (a_cut_index_is_refused reachable hsaved hwhole (hfound _)).1 rfl
  · have fits : CorpusFits [s] := ⟨by decide, by decide, by decide⟩
    have reachable :=
      Index.Reachable.built made fits (by decide) (by decide) (by decide) (built [s])
    have hsaved := hsaved _ (Index.isText_of_build (built [s]) (by simp [s]))
    refine ⟨_, built [s], reachable, hsize [s], hsaved, ?_⟩
    apply (a_cut_index_is_refused reachable hsaved (hwhole _) (hfound _)).2 (by simp)
    intro hfeed
    obtain ⟨r, hr⟩ := List.exists_mem_of_length_pos (Nat.one_pos.trans_eq (hsize [s]).symm)
    have hnone := List.flatMap_eq_nil_iff.mp (List.cons.inj hfeed).2 _
      (List.mem_map_of_mem (f := fun r : Record => r.toJson.bytes) hr)
    simp at hnone

end Lookalike
