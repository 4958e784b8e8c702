-- What saving an index leaves in its file. The file is emptied first, then it
-- is written line by line, and a source that is no text ends the writing.
import Lookalike.Index.Saved
import Lookalike.Proofs.BuiltIndex
import Lookalike.Proofs.Encoding
import Lookalike.Proofs.KeptFiles
import Lookalike.Proofs.ProperIndex

namespace Lookalike

/-! ## Paths that are texts -/

namespace Path

theorem text_mk (s : String) : (mk s).text = s := by
  rw [text, mk, Text.decodeKindly_encode, String.ofList_toList]

theorem isText_iff {p : Path} : p.isText = true ↔ ∃ s, p = mk s := by
  rw [isText, decide_eq_true_iff]
  constructor
  · intro h
    exact ⟨p.text, h.symm⟩
  · rintro ⟨s, rfl⟩
    rw [text_mk]

@[simp]
theorem isText_encode (s : String) : (ofBytes (Text.encode s)).isText = true :=
  isText_iff.mpr ⟨s, rfl⟩

end Path

/-! ## A file that is written twice -/

namespace Job

/-- Of a file that is written twice only the second content stays. -/
theorem changing_write_write (a : Activity) (path : Path) (old content : Bytes) :
    (changing a (fun files => files.write path old) >>= fun _ =>
        changing a fun files => files.write path content) =
      changing a fun files => files.write path content := by
  funext w
  change (changing a (fun files => files.write path old) >>= _).run w =
    (changing a fun files => files.write path content).run w
  cases hold : w.files.write path old with
  | error e =>
    have hfirst : (changing a fun files => files.write path old).run w =
        (.error ⟨[a], .file e⟩, w) := by rw [run_changing, hold]
    rw [run_bind hfirst, run_changing, Folder.write_eq_error hold]
    rfl
  | ok mid =>
    obtain ⟨new, hmid, hnew⟩ := Folder.write_write hold content
    have hfirst : (changing a fun files => files.write path old).run w =
        (.ok (), { w with files := mid }) := by rw [run_changing, hold]
    rw [run_bind hfirst, run_changing, hnew]
    change (changing a fun files => files.write path content).run { w with files := mid } = _
    rw [run_changing, hmid]

/-- A file that is saved and written again holds what was written last. -/
theorem save_over (a : Activity) (path : Path) (old content : Bytes) :
    (save a path old >>= fun _ => changing a fun files => files.write path content) =
      save a path content := by
  unfold save
  cases path.parent? with
  | none => exact changing_write_write a path old content
  | some above =>
    by_cases habove : above.bytes = []
    · simp only [habove, if_true]
      exact changing_write_write a path old content
    · simp only [habove, if_false]
      rw [bind_assoc]
      simp only [changing_write_write]

end Job

/-! ## What is written -/

namespace Index

theorem writtenRecords_of_text {rs : List Record} (h : ∀ r ∈ rs, r.id.source.isText = true) :
    writtenRecords rs = (rs.map Record.toJson).flatMap fun j => j.compact ++ ['\n'] := by
  induction rs with
  | nil => rfl
  | cons r rs ih =>
    obtain ⟨hr, hrs⟩ := List.forall_mem_cons.mp h
    rw [writtenRecords, if_pos hr, ih hrs]
    simp

variable {i : Index}

theorem isText_iff : i.isText = true ↔ ∀ r ∈ i.records, r.id.source.isText = true :=
  List.all_eq_true

theorem written_of_isText (h : i.isText = true) : i.written = i.toChars := by
  rw [written, writtenRecords_of_text (isText_iff.mp h)]
  simp [toChars]

theorem mem_records_of_build {streams : List Stream} {t : ThresholdTable} {window width : Nat}
    {mode : Segmentation} (h : build streams t window width mode = .ok i) {r : Record}
    (hr : r ∈ i.records) : ∃ s ∈ streams, r.id = s.id := by
  obtain ⟨-, ⟨-, rfl⟩ | ⟨-, -, rfl⟩⟩ := build_eq_ok_iff.mp h
  · exact absurd hr List.not_mem_nil
  · obtain ⟨s, hs, hrecord⟩ :=
      List.mem_flatMap.mp ((records_ofRecords_perm _ _).mem_iff.mp hr)
    obtain ⟨place, -, rfl⟩ := List.mem_map.mp hrecord
    exact ⟨s, hs, rfl⟩

theorem isText_of_build {streams : List Stream} {t : ThresholdTable} {window width : Nat}
    {mode : Segmentation} (h : build streams t window width mode = .ok i)
    (text : ∀ s ∈ streams, s.id.source.isText = true) : i.isText = true := by
  apply isText_iff.mpr
  intro r hr
  obtain ⟨s, hs, hid⟩ := mem_records_of_build h hr
  exact hid ▸ text s hs

theorem isText_of_buildStamped {streams : List Stream} {t : ThresholdTable} {n : Normalizer}
    {window width : Nat} {mode : Segmentation}
    (h : buildStamped streams t n window width mode = .ok i)
    (text : ∀ s ∈ streams, s.id.source.isText = true) : i.isText = true := by
  obtain ⟨plain, hplain, rfl⟩ := buildStamped_eq_ok_iff.mp h
  have htext : plain.isText = true := isText_of_build hplain text
  exact htext

/-! ## Saving -/

/-- Saving writes what can be written, and fails if that is not all. -/
theorem save_eq (i : Index) (path : Path) :
    i.save path =
      Job.save (.creating path) path (Text.encode (String.ofList i.written)) >>= fun _ =>
        Job.ofAttempt (if i.isText then .ok () else .error ⟨[.writingRecord], .badJson⟩) := by
  rw [← Job.save_over _ _ [] _]
  simp only [save, bind_assoc]

theorem save_of_isText (h : i.isText = true) (path : Path) :
    i.save path = Job.save (.creating path) path (Text.encode (String.ofList i.toChars)) := by
  rw [save_eq, written_of_isText h, if_pos h]
  exact bind_pure _

variable {path : Path} {w w' : World} {f : Failure}

/-- An index is saved if all of its sources are texts and its file can be written. -/
theorem save_eq_ok_iff :
    (i.save path).run w = (.ok (), w') ↔
      i.isText = true ∧
        (Job.save (.creating path) path (Text.encode (String.ofList i.toChars))).run w =
          (.ok (), w') := by
  rw [save_eq]
  simp only [Job.bind_eq_ok_iff, Job.run_ofAttempt_iff]
  constructor
  · rintro ⟨u, w₁, hsave, hall, rfl⟩
    split_ifs at hall with htext
    exact ⟨htext, written_of_isText htext ▸ hsave⟩
  · rintro ⟨htext, hsave⟩
    exact ⟨(), w', (written_of_isText htext).symm ▸ hsave, if_pos htext, rfl⟩

end Index

end Lookalike
