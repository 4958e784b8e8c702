-- When an index can be built, and what it notes. Without thresholds no window is
-- told from another and nothing is recorded; with them the bucket width must fit
-- the table, and every window is recorded.
import Lookalike.Index.Basic
import Lookalike.Proofs.Runs
import Lookalike.Proofs.Tables

namespace Lookalike

/-- What an index of a table notes when it is built. -/
def ThresholdTable.header (t : ThresholdTable) (width : Nat) (mode : Segmentation) : Header :=
  ⟨t.window, width, t.identity, t.size, mode, t.isEmpty, 0, none⟩

namespace Index

variable {streams : List Stream} {t : ThresholdTable} {n : Normalizer} {window width : Nat}
  {mode : Segmentation} {i : Index}

/-! ## Building -/

theorem build_eq_ok_iff :
    build streams t window width mode = .ok i ↔
      window = t.window ∧
        ((t.isEmpty = true ∧ i = ⟨t.header width mode, []⟩) ∨
          (t.isEmpty = false ∧ (0 < width ∧ width ≤ 64 ∧ width < t.size) ∧
            i = ofRecords (t.header width mode)
              (streams.flatMap (recordsOf ⟨t, width⟩ t.window)))) := by
  unfold build
  by_cases hwindow : window = t.window
  · subst hwindow
    rw [if_neg (not_not_intro rfl)]
    cases hempty : t.isEmpty with
    | true => simp [ThresholdTable.header, hempty, eq_comm]
    | false =>
      simp only [Bool.false_eq_true, if_false, Attempt.bind_eq_ok_iff, Encoder.make_eq_ok_iff,
        false_and, false_or, true_and]
      constructor
      · rintro ⟨e, ⟨hfits, rfl⟩, h⟩
        cases h
        rw [ThresholdTable.header, hempty]
        exact ⟨hfits, rfl⟩
      · rintro ⟨hfits, rfl⟩
        rw [ThresholdTable.header, hempty]
        exact ⟨_, ⟨hfits, rfl⟩, rfl⟩
  · simp [hwindow]

theorem buildStamped_eq_ok_iff :
    buildStamped streams t n window width mode = .ok i ↔
      ∃ plain, build streams t window width mode = .ok plain ∧ i = plain.stamp n.identity := by
  unfold buildStamped
  rw [Attempt.bind_eq_ok_iff]
  simp only [pure, Except.pure, Except.ok.injEq]
  exact exists_congr fun plain => and_congr_right fun _ => eq_comm

theorem build_notes (h : build streams t window width mode = .ok i) :
    i.header.window = t.window ∧ i.header.tableSize = t.size ∧
      i.header.tableId = t.identity ∧ i.header.width = width := by
  obtain ⟨-, ⟨-, rfl⟩ | ⟨-, -, rfl⟩⟩ := build_eq_ok_iff.mp h
  · exact ⟨rfl, rfl, rfl, rfl⟩
  · exact ⟨rfl, rfl, rfl, rfl⟩

theorem notes_of_built (h : build streams t window width mode = .ok i ∨
      ∃ n, buildStamped streams t n window width mode = .ok i) :
    i.header.window = t.window ∧ i.header.tableSize = t.size ∧
      i.header.tableId = t.identity ∧ i.header.width = width := by
  rcases h with h | ⟨n, h⟩
  · exact build_notes h
  · obtain ⟨plain, hplain, rfl⟩ := buildStamped_eq_ok_iff.mp h
    exact build_notes (i := plain) hplain

/-- A stamped index notes the rules and whether its table was empty; where it was not, the bucket
width fits the table. -/
theorem buildStamped_header (h : buildStamped streams t n window width mode = .ok i) :
    i.header.rulesId = some n.identity ∧ i.header.degenerate = t.isEmpty ∧
      (t.isEmpty = false → 0 < width ∧ width ≤ 64 ∧ width < t.size) := by
  obtain ⟨plain, hplain, rfl⟩ := buildStamped_eq_ok_iff.mp h
  refine ⟨rfl, ?_⟩
  obtain ⟨-, ⟨hempty, rfl⟩ | ⟨hempty, hfits, rfl⟩⟩ := build_eq_ok_iff.mp hplain
  · exact ⟨rfl, fun hsome => absurd (hempty.symm.trans hsome) (by decide)⟩
  · exact ⟨rfl, fun _ => hfits⟩

/-! ## The check of a table -/

theorem checkTable_eq_ok_iff :
    i.checkTable t width = .ok () ↔
      i.header.window = t.window ∧ i.header.tableSize = t.size ∧
        i.header.tableId = t.identity ∧ i.header.width = width := by
  unfold checkTable
  dsimp only
  split_ifs with hwindow hsize hid hwidth <;> simp_all

end Index
end Lookalike
