-- What it takes for a command to succeed: each of its steps, in order, and what
-- each step finds in the files at that time.
import Lookalike.Commands
import Lookalike.Proofs.WrittenFiles

namespace Lookalike

open CommandLine (CorpusChoice Order)

/-! ## Telling -/

namespace Job

theorem forM_printLine (lines : List String) (w : World) :
    ∃ printed, (lines.forM printLine).run w = (.ok (), ⟨w.files, printed⟩) := by
  induction lines generalizing w with
  | nil => exact ⟨w.printed, rfl⟩
  | cons line lines ih =>
    obtain ⟨printed, hrest⟩ := ih ⟨w.files, w.printed ++ line ++ "\n"⟩
    exact ⟨printed, hrest⟩

theorem tell_keeps_files (quiet : Bool) (lines : List String) (w : World) :
    ∃ printed, (tell quiet lines).run w = (.ok (), ⟨w.files, printed⟩) := by
  unfold tell
  cases quiet with
  | true => exact ⟨w.printed, rfl⟩
  | false => exact forM_printLine lines w

/-- What was told about was done before, and the files are as it left them. -/
theorem told_eq_ok {j : Job Unit} {quiet : Bool} {lines : List String} {w w' : World}
    (h : (j >>= fun _ => tell quiet lines).run w = (.ok (), w')) :
    ∃ w₁, j.run w = (.ok (), w₁) ∧ w'.files = w₁.files := by
  obtain ⟨u, w₁, hdone, htell⟩ := bind_eq_ok_iff.mp h
  obtain ⟨printed, hrun⟩ := tell_keeps_files quiet lines w₁
  rw [hrun] at htell
  cases htell
  exact ⟨w₁, hdone, rfl⟩

end Job

/-! ## Commands -/

namespace CommandLine.Order

/-- What a command does before it has a table to save: the streams of the corpus, and what is
learned from them. -/
def learned (s : Settings) (c : CorpusChoice) (window : Nat) (percentile : Float) :
    Job (List Stream × ThresholdTable) := do
  Job.ofAttempt (checkParameters window percentile)
  let streams ← Job.reading (c.load s)
  let t ← Job.ofAttempt (ThresholdTable.learn streams window percentile)
  return (streams, t)

variable {o : Order} {s : Settings} {c : CorpusChoice} {w w' : World} {f : Failure}

theorem learned_eq_ok_iff {window : Nat} {percentile : Float}
    {a : List Stream × ThresholdTable} :
    (learned s c window percentile).run w = (.ok a, w') ↔
      w' = w ∧ checkParameters window percentile = .ok () ∧ c.load s w.files = .ok a.1 ∧
        ThresholdTable.learn a.1 window percentile = .ok a.2 := by
  unfold learned
  simp only [Job.bind_eq_ok_iff, Job.run_ofAttempt_iff, Job.run_reading_iff]
  constructor
  · rintro ⟨u, w₁, ⟨hchecked, rfl⟩, streams, w₂, ⟨hload, rfl⟩, t, w₃, ⟨hlearn, rfl⟩, hpure⟩
    cases hpure
    exact ⟨rfl, hchecked, hload, hlearn⟩
  · rintro ⟨rfl, hchecked, hload, hlearn⟩
    exact ⟨(), _, ⟨hchecked, rfl⟩, a.1, _, ⟨hload, rfl⟩, a.2, _, ⟨hlearn, rfl⟩, rfl⟩

theorem table_eq_learned (window : Option Nat) (percentile : Option Float) (output : Option Path) :
    o.table s c window percentile output =
      learned s c (window.getD s.fingerprint.window) (percentile.getD s.fingerprint.percentile) >>=
        fun a => Job.saveTable o a.2 (output.getD s.paths.table) := by
  simp only [table, learned, bind_assoc, pure_bind]

/-- A build goes on where the table command ends. -/
theorem build_eq_learned (window : Option Nat) (percentile : Option Float) (width : Option Nat)
    (table index : Option Path) :
    o.build s c window percentile width table index =
      learned s c (window.getD s.fingerprint.window) (percentile.getD s.fingerprint.percentile) >>=
        fun a => Job.saveTable o a.2 (table.getD s.paths.table) >>= fun _ =>
          Job.ofAttempt (Index.buildStamped a.1 a.2 (c.loader s).normalizer
            (window.getD s.fingerprint.window) (width.getD s.fingerprint.width)
            (c.loader s).segmentation) >>= fun i =>
              Job.saveIndex o i (index.getD s.paths.index) := by
  simp only [build, learned, bind_assoc, pure_bind]

theorem table_eq_ok_iff {window : Option Nat} {percentile : Option Float} {output : Option Path} :
    (o.table s c window percentile output).run w = (.ok (), w') ↔
      ∃ streams t,
        checkParameters (window.getD s.fingerprint.window)
          (percentile.getD s.fingerprint.percentile) = .ok () ∧
        c.load s w.files = .ok streams ∧
        ThresholdTable.learn streams (window.getD s.fingerprint.window)
          (percentile.getD s.fingerprint.percentile) = .ok t ∧
        (Job.saveTable o t (output.getD s.paths.table)).run w = (.ok (), w') := by
  rw [table_eq_learned]
  simp only [Job.bind_eq_ok_iff, learned_eq_ok_iff]
  constructor
  · rintro ⟨a, w₁, ⟨rfl, hchecked, hload, hlearn⟩, hsave⟩
    exact ⟨a.1, a.2, hchecked, hload, hlearn, hsave⟩
  · rintro ⟨streams, t, hchecked, hload, hlearn, hsave⟩
    exact ⟨(streams, t), w, ⟨rfl, hchecked, hload, hlearn⟩, hsave⟩

theorem index_eq_ok_iff {table : Option Path} {width : Option Nat} {output : Option Path} :
    (o.index s c table width output).run w = (.ok (), w') ↔
      ∃ t streams i,
        ThresholdTable.load w.files (table.getD s.paths.table) = .ok t ∧
        c.load s w.files = .ok streams ∧
        Index.buildStamped streams t (c.loader s).normalizer t.window
          (width.getD s.fingerprint.width) (c.loader s).segmentation = .ok i ∧
        (Job.saveIndex o i (output.getD s.paths.index)).run w = (.ok (), w') := by
  unfold index
  simp only [Job.bind_eq_ok_iff, Job.run_ofAttempt_iff, Job.run_reading_iff]
  constructor
  · rintro ⟨t, w₁, ⟨htable, rfl⟩, streams, w₂, ⟨hload, rfl⟩, i, w₃, ⟨hbuild, rfl⟩, hsave⟩
    exact ⟨t, streams, i, htable, hload, hbuild, hsave⟩
  · rintro ⟨t, streams, i, htable, hload, hbuild, hsave⟩
    exact ⟨t, w, ⟨htable, rfl⟩, streams, w, ⟨hload, rfl⟩, i, w, ⟨hbuild, rfl⟩, hsave⟩

/-- A build learns and saves a table, and then builds and saves an index. -/
theorem build_eq_ok_iff {window : Option Nat} {percentile : Option Float} {width : Option Nat}
    {table index : Option Path} :
    (o.build s c window percentile width table index).run w = (.ok (), w') ↔
      ∃ streams t w₁ i,
        checkParameters (window.getD s.fingerprint.window)
          (percentile.getD s.fingerprint.percentile) = .ok () ∧
        c.load s w.files = .ok streams ∧
        ThresholdTable.learn streams (window.getD s.fingerprint.window)
          (percentile.getD s.fingerprint.percentile) = .ok t ∧
        (Job.saveTable o t (table.getD s.paths.table)).run w = (.ok (), w₁) ∧
        Index.buildStamped streams t (c.loader s).normalizer (window.getD s.fingerprint.window)
          (width.getD s.fingerprint.width) (c.loader s).segmentation = .ok i ∧
        (Job.saveIndex o i (index.getD s.paths.index)).run w₁ = (.ok (), w') := by
  rw [build_eq_learned]
  simp only [Job.bind_eq_ok_iff, learned_eq_ok_iff, Job.run_ofAttempt_iff]
  constructor
  · rintro ⟨a, w₁, ⟨rfl, hchecked, hload, hlearn⟩, u, w₂, htable, i, w₃, ⟨hbuild, rfl⟩, hsave⟩
    exact ⟨a.1, a.2, w₃, i, hchecked, hload, hlearn, htable, hbuild, hsave⟩
  · rintro ⟨streams, t, w₁, i, hchecked, hload, hlearn, htable, hbuild, hsave⟩
    exact ⟨(streams, t), w, ⟨rfl, hchecked, hload, hlearn⟩, (), w₁, htable, i, w₁, ⟨hbuild, rfl⟩,
      hsave⟩

theorem settings_bind_eq_ok_iff {environment : List (String × String)} {k : Settings → Job Unit} :
    (run.settings o environment >>= k).run w = (.ok (), w') ↔
      ∃ s, Settings.load w.files environment o.settings = .ok s ∧ (k s).run w = (.ok (), w') := by
  unfold run.settings
  simp only [Job.bind_eq_ok_iff, Job.run_reading_iff]
  constructor
  · rintro ⟨s, w₁, ⟨hload, rfl⟩, hrun⟩
    exact ⟨s, hload, hrun⟩
  · rintro ⟨s, hload, hrun⟩
    exact ⟨s, w, ⟨hload, rfl⟩, hrun⟩

end CommandLine.Order
end Lookalike
