-- The ranking of matches. All that was found is put in one order; a limit cuts
-- the end of it off, and nothing else in a report depends on the limit.
import Lookalike.Proofs.DoubleOrder
import Lookalike.Proofs.QueryAnswer

namespace Lookalike

open Std (TransCmp)

/-! ## The order of matches -/

namespace Match

/-- The more similar of two matches comes first; of equally similar ones the one of the lower path,
then of the lower function, of the lower starting line, and of the lower place. -/
def Precedes (a b : Match) : Prop :=
  Decimal.orderKey b.similarity < Decimal.orderKey a.similarity ∨
    a.similarity.toBits = b.similarity.toBits ∧
      (compare a.id.source b.id.source = .lt ∨ a.id.source.same b.id.source ∧
        (compare a.id.function b.id.function = .lt ∨ a.id.function = b.id.function ∧
          (a.id.startLine < b.id.startLine ∨ a.id.startLine = b.id.startLine ∧
            a.offset ≤ b.offset)))

/-- Matches of one similarity at one place of one stream. -/
def tied (a b : Match) : Bool :=
  a.similarity.toBits == b.similarity.toBits && a.id.same b.id && a.offset == b.offset

instance : TransCmp compareRank :=
  have hsimilarity : TransCmp fun a b : Match =>
      compare (Decimal.orderKey a.similarity) (Decimal.orderKey b.similarity) :=
    transCmp_on fun m : Match => Decimal.orderKey m.similarity
  transCmp_then hsimilarity.opposite (transCmp_then (transCmp_on id) (transCmp_on offset))

variable {a b c : Match}

theorem compare_similarity_eq_iff :
    compare (Decimal.orderKey b.similarity) (Decimal.orderKey a.similarity) = .eq ↔
      a.similarity.toBits = b.similarity.toBits := by
  rw [Std.compare_eq_iff_eq, Decimal.orderKey_eq_iff, eq_comm]

theorem isLE_compareRank_iff : (a.compareRank b).isLE ↔ a.Precedes b := by
  have hid : compare a.id b.id = (compare a.id.source b.id.source).then
    ((compare a.id.function b.id.function).then (compare a.id.startLine b.id.startLine)) := rfl
  unfold compareRank Precedes
  rw [Ordering.isLE_then_iff_or, compare_similarity_eq_iff, Std.compare_eq_lt]
  simp only [hid, Ordering.then_assoc, Ordering.isLE_then_iff_or, Std.compare_eq_lt,
    Std.compare_eq_iff_eq, Path.compare_eq_iff, Std.isLE_compare]

theorem compareRank_eq_iff : a.compareRank b = .eq ↔ a.tied b := by
  unfold compareRank tied
  rw [Ordering.then_eq_eq, Ordering.then_eq_eq, compare_similarity_eq_iff,
    StreamId.compare_eq_iff, Std.compare_eq_iff_eq]
  simp only [Bool.and_eq_true, beq_iff_eq, and_assoc]

/-- What is tied with one match is tied with each other. -/
theorem compareRank_eq_of_tied (ha : a.tied c) (hb : b.tied c) : a.compareRank b = .eq :=
  TransCmp.eq_trans (compareRank_eq_iff.mpr ha)
    (Std.OrientedCmp.eq_symm (compareRank_eq_iff.mpr hb))

end Match

/-! ## Rankings -/

/-- Matches in order of their rank, with those that are tied as they were found. -/
structure Ranks (ranked found : List Match) : Prop where
  perm : ranked.Perm found
  ordered : ranked.Pairwise Match.Precedes
  stable : ∀ m, ranked.filter (·.tied m) = found.filter (·.tied m)

theorem ranks_rankMatches (ms : List Match) : Ranks (rankMatches ms) ms where
  perm := List.mergeSort_perm ms _
  ordered := (pairwise_mergeSort Match.compareRank ms).imp Match.isLE_compareRank_iff.mp
  stable _ := filter_mergeSort Match.compareRank ms fun _ _ => Match.compareRank_eq_of_tied

/-! ## Limits -/

theorem limited_eq_take (limit : Option Nat) (ms : List Match) :
    limited limit ms = match limit with
      | none => ms
      | some k => ms.take (min k ms.length) := by
  cases limit with
  | none => rfl
  | some k => exact List.take_eq_take_min

/-- For each least similarity there is one ranking of what is found, and one list of groups. Without
a limit an engine reports all of the ranking, with one as much of it as the limit allows; the bucket
number, the number of bits and the number of candidates do not depend on the least similarity
either. A stream that is shorter than the window is refused with every limit and every least
similarity. -/
theorem a_limit_cuts_one_ranking {streams : List Stream} {t₀ : ThresholdTable} (made : t₀.Made)
    {window width : Nat} {mode : Segmentation} {i : Index}
    (built : Index.build streams t₀ window width mode = .ok i ∨
      ∃ n, Index.buildStamped streams t₀ n window width mode = .ok i) {t : ThresholdTable}
    {options : QueryOptions} {e : Engine} (ready : Engine.make i t options = .ok e) (q : Stream) :
    (q.lines.length < i.header.window → ∀ limit least, ∃ e',
      Engine.make i t ⟨options.width, limit, least⟩ = .ok e' ∧
        e'.query q = .error (.of (.queryTooShort q.lines.length i.header.window))) ∧
    (i.header.window ≤ q.lines.length →
      let candidates := i.candidates t options.width q
      ∀ least, ∃ ranked groups,
        Ranks ranked ((candidates.filter fun r => least ≤ r.score t q).map (Record.toMatch t q)) ∧
        ∀ limit, ∃ e', Engine.make i t ⟨options.width, limit, least⟩ = .ok e' ∧
          e'.query q = .ok ⟨q.id.text, t.bucketOf options.width q, t.size, candidates.length,
            (match limit with
              | none => ranked
              | some k => ranked.take (min k ranked.length)), groups, i.header.degenerate⟩) := by
  refine ⟨fun short limit least => ?_, fun long => ?_⟩
  · obtain ⟨e', he'⟩ := Engine.make_others ready limit least
    refine ⟨e', he', ?_⟩
    rw [Engine.query_eq_report made built he' q, if_pos short]
  · intro candidates least
    refine ⟨_, groupMatches (i.found t ⟨options.width, none, least⟩ q), ranks_rankMatches _,
      fun limit => ?_⟩
    obtain ⟨e', he'⟩ := Engine.make_others ready limit least
    refine ⟨e', he', ?_⟩
    rw [Engine.query_eq_report made built he' q, if_neg (Nat.not_lt.mpr long), Index.reportOn,
      limited_eq_take]
    rfl

/-- Of three matches, two of them of one similarity, a limit of two leaves two. -/
theorem three_matches_are_cut_to_two :
    let t : ThresholdTable := ⟨1, 0.5, [("a", 1), ("b", 1)]⟩
    let s : Stream := ⟨⟨⟨"s"⟩, none, 6⟩, [⟨6, ["a", "a"]⟩, ⟨7, ["a", "a", "b", "b"]⟩, ⟨9, []⟩]⟩
    let r : Stream := ⟨⟨⟨"r"⟩, some "f", 2⟩, [⟨3, ["a", "a"]⟩, ⟨4, []⟩]⟩
    t.Made ∧ ∃ i e, Index.build [s, r] t 1 1 .wholeFile = .ok i ∧
      Engine.make i t ⟨1, none, 0⟩ = .ok e ∧ i.header.window ≤ s.lines.length ∧
      ∃ ranked : List Match, ranked.length = 3 ∧ ranked.Pairwise Match.Precedes ∧ ∃ e' report,
        Engine.make i t ⟨1, some 2, 0⟩ = .ok e' ∧ e'.query s = .ok report ∧
        report.candidates = 3 ∧ report.ranked = ranked.take 2 := by
  intro t s r
  have ok : ThresholdTable.ofParts 1 0.5 t.entries = .ok t := rfl
  have made : t.Made := .given (by decide) ok
  obtain ⟨i, e, built, ready, hwindow, hrecords⟩ := @exists_engine t (by decide) 1 (by decide)
    (by decide) (by decide) [s, r] .wholeFile none 0
  have long : i.header.window ≤ s.lines.length := hwindow ▸ (by decide)
  obtain ⟨ranked, groups, hranks, hreports⟩ :=
    (a_limit_cuts_one_ranking made (.inl built) ready s).2 long 0
  obtain ⟨e', he', hreport⟩ := hreports (some 2)
  have hcandidates := hrecords.filter fun r => r.bucket == t.bucketOf 1 s
  have hfound := (hcandidates.filter fun r => 0 ≤ r.score t s).map (Record.toMatch t s)
  have hthree : ranked.length = 3 :=
    (hranks.perm.trans hfound).length_eq.trans (by decide)
  refine ⟨made, i, e, built, ready, long, ranked, hthree, hranks.ordered, e', _, he', hreport, ?_,
    ?_⟩
  · exact hcandidates.length_eq.trans (by decide)
  · rw [hthree]
    rfl

end Lookalike
