-- What the ways to a threshold table promise: a table is put together from
-- given thresholds or learned from a corpus, and both check the parameters.
import Lookalike.Proofs.OrderedKeys
import Lookalike.Threshold.Learning
import Lookalike.Fingerprint.Encoder

namespace Lookalike

/-! ## Parameters -/

theorem checkParameters_eq_ok_iff {window : Nat} {percentile : Float} :
    checkParameters window percentile = .ok () ↔
      0 < window ∧ 0 < percentile ∧ percentile ≤ 1 := by
  unfold checkParameters
  by_cases hw : window = 0
  · simp [hw]
  · by_cases hp : 0 < percentile ∧ percentile ≤ 1
    · simp [hw, hp, Nat.pos_of_ne_zero hw]
    · simp [hw, hp]

theorem checkBucketWidth_eq_ok_iff {width symbols : Nat} :
    checkBucketWidth width symbols = .ok () ↔ 0 < width ∧ width ≤ 64 ∧ width < symbols := by
  unfold checkBucketWidth
  split
  · rename_i h
    simp only [reduceCtorEq, false_iff]
    omega
  · rename_i h
    simp only [true_iff]
    omega

theorem Encoder.make_eq_ok_iff {t : ThresholdTable} {width : Nat} {e : Encoder} :
    Encoder.make t width = .ok e ↔
      (0 < width ∧ width ≤ 64 ∧ width < t.size) ∧ e = ⟨t, width⟩ := by
  rw [← checkBucketWidth_eq_ok_iff]
  unfold Encoder.make
  cases checkBucketWidth width t.size with
  | error f => simp [bind, Except.bind]
  | ok u => simp [bind, Except.bind, pure, Except.pure, eq_comm]

namespace ThresholdTable

theorem ofParts_eq_ok_iff {window : Nat} {percentile : Float} {entries : List (String × UInt32)}
    {t : ThresholdTable} :
    ofParts window percentile entries = .ok t ↔
      checkParameters window percentile = .ok () ∧ (∀ e ∈ entries, e.2 ≠ 0) ∧
        t = ⟨window, percentile, entries⟩ := by
  unfold ofParts
  cases checkParameters window percentile with
  | error f => simp [bind, Except.bind]
  | ok u =>
    cases hf : entries.find? fun e => e.2 == 0 with
    | some e =>
      have he := List.find?_some hf
      have hm := List.mem_of_find?_eq_some hf
      simp only [bind, Except.bind, reduceCtorEq, false_iff]
      rintro ⟨-, h, -⟩
      exact h e hm (by simpa using he)
    | none =>
      rw [List.find?_eq_none] at hf
      have hpos : ∀ e ∈ entries, e.2 ≠ 0 := fun e he => by simpa using hf e he
      simp only [bind, Except.bind, Except.ok.injEq, true_and]
      exact ⟨fun h => ⟨hpos, h.symm⟩, fun h => h.2.symm⟩

theorem learn_eq_ok_iff {streams : List Stream} {window : Nat} {percentile : Float}
    {t : ThresholdTable} :
    learn streams window percentile = .ok t ↔
      checkParameters window percentile = .ok () ∧
        t = ⟨window, percentile, (Tally.ofStreams window streams).thresholds percentile⟩ := by
  unfold learn
  cases checkParameters window percentile with
  | error f => simp [bind, Except.bind]
  | ok u => simp [bind, Except.bind, pure, Except.pure, eq_comm]

/-- A table that was put together from thresholds of different symbols, or learned. -/
inductive Made : ThresholdTable → Prop
  | given {window : Nat} {percentile : Float} {entries : List (String × UInt32)}
      {t : ThresholdTable} (different : (Ordered.keys entries).Nodup)
      (ok : ofParts window percentile entries = .ok t) : Made t
  | learned {streams : List Stream} {window : Nat} {percentile : Float} {t : ThresholdTable}
      (ok : learn streams window percentile = .ok t) : Made t

theorem Made.checked {t : ThresholdTable} (h : t.Made) :
    checkParameters t.window t.percentile = .ok () := by
  cases h with
  | given _ ok =>
    obtain ⟨hc, -, rfl⟩ := ofParts_eq_ok_iff.mp ok
    exact hc
  | learned ok =>
    obtain ⟨hc, rfl⟩ := learn_eq_ok_iff.mp ok
    exact hc

theorem Made.window_pos {t : ThresholdTable} (h : t.Made) : 0 < t.window :=
  (checkParameters_eq_ok_iff.mp h.checked).1

end ThresholdTable
end Lookalike
