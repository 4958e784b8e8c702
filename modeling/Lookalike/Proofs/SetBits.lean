-- How often a bit is set. The threshold of a symbol stands at a rank of its sorted
-- counts, so at most the windows behind the rank lie above it; and a symbol without
-- a threshold has a zero at the rank.
import Mathlib.Data.List.Forall2
import Lookalike.Proofs.BuiltIndex
import Lookalike.Proofs.Hexadecimal
import Lookalike.Proofs.OrderStatistic

namespace Lookalike

/-! ## Values around a rank -/

section

variable {counts : List Nat} {r v : Nat} (h : counts.mergeSort[r]? = some v)

include h

/-- The value at a rank parts the other values into as many as the rank says, none of them larger,
and the rest, none of them smaller. -/
theorem exists_split_at_rank :
    ∃ low high, counts.Perm (low ++ v :: high) ∧ low.length = r ∧ (∀ n ∈ low, n ≤ v) ∧
      ∀ n ∈ high, v ≤ n := by
  obtain ⟨hr, rfl⟩ := List.getElem?_eq_some_iff.mp h
  have hsplit : counts.mergeSort = counts.mergeSort.take r ++
      counts.mergeSort[r] :: counts.mergeSort.drop (r + 1) := by
    rw [← List.drop_eq_getElem_cons hr, List.take_append_drop]
  have hsorted := pairwise_le_mergeSort counts
  rw [hsplit] at hsorted
  obtain ⟨-, hhigh, hlow⟩ := List.pairwise_append.mp hsorted
  refine ⟨_, _, hsplit ▸ (List.mergeSort_perm counts _).symm, ?_, fun n hn => ?_,
    (List.pairwise_cons.mp hhigh).1⟩
  · rw [List.length_take, Nat.min_eq_left (Nat.le_of_lt hr)]
  · exact hlow n hn _ List.mem_cons_self

/-- Only values behind a rank are above the one at the rank. -/
theorem countP_above_rank : (counts.countP fun n => v < n) + (r + 1) ≤ counts.length := by
  obtain ⟨low, high, hperm, rfl, hlow, -⟩ := exists_split_at_rank h
  have hnone : (low.countP fun n => v < n) = 0 := by
    rw [List.countP_eq_zero]
    exact fun n hn => by simpa using hlow n hn
  have hhigh : (high.countP fun n => v < n) ≤ high.length := List.countP_le_length
  rw [hperm.countP_eq, hperm.length_eq, List.countP_append, hnone, List.countP_cons,
    List.length_append, List.length_cons]
  simp only [Nat.lt_irrefl, decide_false, Bool.false_eq_true, if_false]
  omega

/-- All values behind a rank reach the one at the rank. -/
theorem length_le_countP_from_rank : counts.length ≤ (counts.countP fun n => v ≤ n) + r := by
  obtain ⟨low, high, hperm, rfl, -, hhigh⟩ := exists_split_at_rank h
  have hall : (high.countP fun n => v ≤ n) = high.length := by
    rw [List.countP_eq_length]
    exact fun n hn => by simpa using hhigh n hn
  rw [hperm.countP_eq, hperm.length_eq, List.countP_append, List.countP_cons, hall,
    List.length_append, List.length_cons]
  simp only [Nat.le_refl, decide_true, if_true]
  omega

end

/-! ## The windows of a corpus -/

/-- The windows of all streams, with the counts that a pass gives them. -/
def corpusPasses (streams : List Stream) (width : Nat) : List Window :=
  streams.flatMap fun s => windows s.lines width

theorem corpusPasses_recount {width : Nat} (hw : 0 < width) (streams : List Stream) :
    List.Forall₂ (fun w inside => w.counts.Recounts inside) (corpusPasses streams width)
      (corpusWindows streams width) := by
  induction streams with
  | nil => exact .nil
  | cons s streams ih => exact List.rel_append (windows_recount hw s.lines) ih

theorem map_get_corpusPasses {width : Nat} (hw : 0 < width) (streams : List Stream)
    (symbol : String) :
    (corpusPasses streams width).map (fun w => w.counts.get symbol) =
      (corpusWindows streams width).map (occurrences symbol) := by
  rw [← List.forall₂_eq_eq_eq, List.forall₂_map_left_iff, List.forall₂_map_right_iff]
  exact (corpusPasses_recount hw streams).imp fun w inside h => h.get_eq symbol

/-! ## Bits that are not set -/

namespace BitVector

variable {bits : BitVector} (h : ∀ b ∈ bits, b = false)

include h

theorem value_eq_zero : value bits = 0 := by
  induction bits with
  | nil => rfl
  | cons b bits ih =>
    obtain ⟨rfl, hbits⟩ := List.forall_mem_cons.mp h
    rw [value, ih hbits]
    rfl

theorem full_eq_zero : full bits = ⟨[]⟩ := by
  have hvalue : value bits.reverse = 0 := value_eq_zero fun b hb => h b (List.mem_reverse.mp hb)
  refine FullVector.Made.eq_of_toNat (.full bits) (.ofLimbs []) ?_
  rw [FullVector.toNat_full, hvalue]
  rfl

theorem bucket_eq_zero (width : Nat) : bucket width bits = 0 := by
  have hlead : ∀ b ∈ bits.take width, b = false := fun b hb => h b (List.mem_of_mem_take hb)
  have hzeros : bits.take width = List.replicate (bits.take width).length false :=
    List.eq_replicate_of_mem hlead
  unfold bucket
  rw [hzeros]
  induction (bits.take width).length with
  | zero => rfl
  | succ n ih =>
    rw [List.replicate_succ, List.foldl_cons]
    exact ih

end BitVector

/-! ## Learned thresholds -/

theorem ThresholdTable.getElem?_bits {t : ThresholdTable} {i : Nat} {e : String × UInt32}
    (he : t.entries[i]? = some e) (c : Counts) :
    (t.bits c)[i]? = some (decide (e.2.toNat < c.get e.1)) := by
  rw [bits, List.getElem?_map, he]
  rfl

section

variable {streams : List Stream} {width : Nat} {percentile : Float} {t : ThresholdTable}
  (learned : ThresholdTable.learn streams width percentile = .ok t)
  (fits : ∀ ls ∈ corpusWindows streams width, ∀ s, occurrences s ls < 2 ^ 32)

include learned fits

/-- At the rank of a corpus the counts of an entry give its threshold. -/
theorem counts_of_entry {e : String × UInt32} (he : e ∈ t.entries) :
    ((corpusPasses streams width).map fun w => w.counts.get e.1).mergeSort[
      rank (corpusPasses streams width).length percentile]? = some e.2.toNat := by
  obtain ⟨hchecked, rfl⟩ := ThresholdTable.learn_eq_ok_iff.mp learned
  have hw : 0 < width := (checkParameters_eq_ok_iff.mp hchecked).1
  have hholds := Tally.holds_ofStreams hw streams
  rw [map_get_corpusPasses hw, (corpusPasses_recount hw streams).length_eq]
  exact ((mem_thresholds_iff_of_counts hholds fits percentile e.1 e.2).mp he).2.1

theorem counts_of_absent {symbol : String}
    (occurs : ∃ w ∈ corpusPasses streams width, 0 < w.counts.get symbol)
    (absent : ∀ e ∈ t.entries, e.1 ≠ symbol) :
    ((corpusPasses streams width).map fun w => w.counts.get symbol).mergeSort[
      rank (corpusPasses streams width).length percentile]? = some 0 := by
  obtain ⟨hchecked, rfl⟩ := ThresholdTable.learn_eq_ok_iff.mp learned
  have hw : 0 < width := (checkParameters_eq_ok_iff.mp hchecked).1
  have hcounts := map_get_corpusPasses hw streams symbol
  have hoccurs : ∃ ls ∈ corpusWindows streams width, 0 < occurrences symbol ls := by
    obtain ⟨w, hwin, hpos⟩ := occurs
    obtain ⟨ls, hls, hcount⟩ := List.mem_map.mp (hcounts ▸ List.mem_map_of_mem hwin)
    exact ⟨ls, hls, hcount ▸ hpos⟩
  rw [hcounts, (corpusPasses_recount hw streams).length_eq]
  exact sortedCounts_eq_zero_of_absent (Tally.holds_ofStreams hw streams) fits hoccurs absent

/-- Only the windows behind the rank set the bit of an entry. -/
theorem countP_set_bit {i : Nat} {e : String × UInt32} (he : t.entries[i]? = some e) :
    ((corpusPasses streams width).countP fun w => (t.bits w.counts)[i]? == some true) +
      (rank (corpusPasses streams width).length percentile + 1) ≤
        (corpusPasses streams width).length := by
  have hrank := countP_above_rank (counts_of_entry learned fits (List.mem_of_getElem? he))
  rw [List.countP_map, List.length_map] at hrank
  simpa [ThresholdTable.getElem?_bits he, Function.comp_def] using hrank

/-- At the last place no window of the corpus sets a bit. -/
theorem no_bit_set_of_rank_eq
    (hlast : rank (corpusPasses streams width).length percentile =
      (corpusPasses streams width).length - 1)
    {w : Window} (hwin : w ∈ corpusPasses streams width) :
    ∀ b ∈ t.bits w.counts, b = false := by
  intro b hb
  obtain ⟨i, hi, rfl⟩ := List.mem_iff_getElem.mp hb
  have hplace : i < t.entries.length := by simpa [ThresholdTable.bits] using hi
  by_contra hset
  have hone : 0 < (corpusPasses streams width).countP fun w =>
      (t.bits w.counts)[i]? == some true :=
    List.countP_pos_iff.mpr ⟨w, hwin, by simpa [hi] using hset⟩
  have hbound := countP_set_bit learned fits (List.getElem?_eq_getElem hplace)
  omega

end

/-- Where counts are words of 32 bits, as thresholds are, the rank bounds how often a bit of a
learned table is set over the windows of its corpus, and how often the threshold is reached; and it
bounds how often a symbol occurs that the table leaves out. So a table of the largest counts gives
every window of its corpus the zero vector. -/
theorem the_rank_bounds_the_set_bits {width : Nat} {percentile : Float} (hw : 0 < width)
    (hpos : 0 < percentile) (hle : percentile ≤ 1) (streams : List Stream)
    (fits : ∀ ls ∈ corpusWindows streams width, ∀ s, occurrences s ls < 2 ^ 32) :
    ∃ t, ThresholdTable.learn streams width percentile = .ok t ∧
      let pass := corpusPasses streams width
      let n := pass.length
      let r := rank n percentile
      List.Forall₂ (fun w inside => w.counts.Recounts inside) pass
          (corpusWindows streams width) ∧
        (∀ (i : Nat) e, t.entries[i]? = some e →
          (pass.countP fun w => (t.bits w.counts)[i]? == some true) + (r + 1) ≤ n ∧
            n ≤ (pass.countP fun w => e.2.toNat ≤ w.counts.get e.1) + r) ∧
        (∀ symbol, (∃ w ∈ pass, 0 < w.counts.get symbol) → (∀ e ∈ t.entries, e.1 ≠ symbol) →
          (pass.countP fun w => 0 < w.counts.get symbol) + (r + 1) ≤ n) ∧
        (r = n - 1 → ∀ w ∈ pass, (∀ b ∈ t.bits w.counts, b = false) ∧
          ∀ bucketWidth e, Encoder.make t bucketWidth = .ok e →
            e.encode w.counts = ⟨0, ⟨[]⟩⟩) := by
  obtain ⟨t, learned⟩ : ∃ t, ThresholdTable.learn streams width percentile = .ok t :=
    ⟨_, ThresholdTable.learn_eq_ok_iff.mpr ⟨checkParameters_eq_ok_iff.mpr ⟨hw, hpos, hle⟩, rfl⟩⟩
  refine ⟨t, learned, ?_⟩
  intro pass n r
  refine ⟨corpusPasses_recount hw streams, fun i e he => ⟨countP_set_bit learned fits he, ?_⟩,
    fun symbol hocc hleft => ?_, fun hlast w hwin => ?_⟩
  · have hrank := length_le_countP_from_rank
      (counts_of_entry learned fits (List.mem_of_getElem? he))
    rwa [List.countP_map, List.length_map] at hrank
  · have hrank := countP_above_rank (counts_of_absent learned fits hocc hleft)
    rwa [List.countP_map, List.length_map] at hrank
  · have hclear := no_bit_set_of_rank_eq learned fits hlast hwin
    refine ⟨hclear, fun bucketWidth e he => ?_⟩
    obtain ⟨-, rfl⟩ := Encoder.make_eq_ok_iff.mp he
    rw [Encoder.encode, BitVector.full_eq_zero hclear, BitVector.bucket_eq_zero hclear]

/-- Three windows of two streams, at a rank in their midst and at the last one. -/
theorem two_ranks_of_three_windows :
    let s : Stream := ⟨⟨⟨"s"⟩, none, 6⟩, [⟨6, ["b", "b"]⟩, ⟨7, ["a"]⟩, ⟨8, []⟩]⟩
    let r : Stream := ⟨⟨⟨"r"⟩, none, 6⟩, [⟨6, ["b"]⟩, ⟨7, ["b", "a"]⟩]⟩
    (0 < 1 ∧ ((0 : Float) < 0.3 ∧ (0.3 : Float) ≤ 1) ∧ ((0 : Float) < 1 ∧ (1 : Float) ≤ 1) ∧
      ∀ ls ∈ corpusWindows [s, r] 1, ∀ symbol, occurrences symbol ls < 2 ^ 32) ∧
      (∃ t, ThresholdTable.learn [s, r] 1 0.3 = .ok t ∧ t.entries = [("b", 1)] ∧
        ((corpusPasses [s, r] 1).countP fun w => (t.bits w.counts)[0]? == some true) ≤ 1 ∧
        2 ≤ ((corpusPasses [s, r] 1).countP fun w => 1 ≤ w.counts.get "b") ∧
        ((corpusPasses [s, r] 1).countP fun w => 0 < w.counts.get "a") ≤ 1) ∧
      ∃ t e, ThresholdTable.learn [s, r] 1 1 = .ok t ∧ t.entries = [("a", 1), ("b", 2)] ∧
        Encoder.make t 1 = .ok e ∧ ∀ w ∈ corpusPasses [s, r] 1, e.encode w.counts = ⟨0, ⟨[]⟩⟩ := by
  intro s r
  have small : ∀ ls ∈ corpusWindows [s, r] 1, tokenCount ls < 2 ^ 32 := by decide
  have fits : ∀ ls ∈ corpusWindows [s, r] 1, ∀ symbol, occurrences symbol ls < 2 ^ 32 :=
    fun ls hls symbol => lt_of_le_of_lt (occurrences_le_tokenCount symbol ls) (small ls hls)
  obtain ⟨hmid, hlast, hone, htwo⟩ : ((0 : Float) < 0.3 ∧ (0.3 : Float) ≤ 1) ∧
      ((0 : Float) < 1 ∧ (1 : Float) ≤ 1) ∧ rank 3 0.3 = 1 ∧ rank 3 1 = 2 := by decide
  have hlen : (corpusPasses [s, r] 1).length = 3 := by decide
  have htally : Tally.ofStreams 1 [s, r] = ⟨3, [("b", [1, 2]), ("a", [1])]⟩ := by cbv
  have hordered : [("b", [1, 2]), ("a", [1])].mergeSort (fun a b => (compare a.1 b.1).isLE) =
      [("a", [1]), ("b", [1, 2])] := by cbv
  have ha : (padded 3 [1]).mergeSort = [0, 0, 1] := by cbv
  have hb : (padded 3 [1, 2]).mergeSort = [0, 1, 2] := by cbv
  have hstatistics {p : Float} {k : Nat} (hrank : rank 3 p = k) :
      orderStatistic 3 p [1] = [0, 0, 1][k]?.getD 0 ∧
        orderStatistic 3 p [1, 2] = [0, 1, 2][k]?.getD 0 := by
    unfold orderStatistic
    rw [ha, hb]
    simp [hrank]
  refine ⟨⟨Nat.one_pos, hmid, hlast, fits⟩, ?_, ?_⟩
  · obtain ⟨t, learned, -, hbits, hleft, -⟩ :=
      the_rank_bounds_the_set_bits Nat.one_pos hmid.1 hmid.2 [s, r] fits
    have hentries : t.entries = [("b", 1)] := by
      obtain ⟨-, rfl⟩ := ThresholdTable.learn_eq_ok_iff.mp learned
      simp [htally, Tally.thresholds, hordered, hstatistics hone]
    obtain ⟨hset, hreached⟩ := hbits 0 ("b", 1) (by rw [hentries]; rfl)
    have habsent := hleft "a" (by decide) (by rw [hentries]; decide)
    rw [hlen, hone] at hset hreached habsent
    exact ⟨t, learned, hentries, by omega, Nat.le_of_succ_le_succ hreached, by omega⟩
  · obtain ⟨t, learned, -, -, -, hzero⟩ :=
      the_rank_bounds_the_set_bits Nat.one_pos hlast.1 hlast.2 [s, r] fits
    have hentries : t.entries = [("a", 1), ("b", 2)] := by
      obtain ⟨-, rfl⟩ := ThresholdTable.learn_eq_ok_iff.mp learned
      simp [htally, Tally.thresholds, hordered, hstatistics htwo]
    have hmake : Encoder.make t 1 = .ok ⟨t, 1⟩ :=
      Encoder.make_eq_ok_iff.mpr ⟨by simp [ThresholdTable.size, hentries], rfl⟩
    refine ⟨t, ⟨t, 1⟩, learned, hentries, hmake, fun w hw => ?_⟩
    exact (hzero (by rw [hlen, htwo]) w hw).2 1 _ hmake

end Lookalike
