-- The groups of a report. A group stands for a run of matches at consecutive
-- places of one stream. The walk compares each match with the open group only;
-- that no run is cut in two rests on the order in which the matches lie.
import Lookalike.Proofs.DoubleOrder
import Lookalike.Proofs.QueryAnswer

namespace Lookalike

open Std (TransCmp)

/-! ## Places of streams -/

/-- By stream, then by place. -/
def compareMarks (a b : StreamId × Nat) : Ordering := (compare a.1 b.1).then (compare a.2 b.2)

instance : TransCmp compareMarks := transCmp_then (transCmp_on Prod.fst) (transCmp_on Prod.snd)

section

variable {i j : StreamId} {k l : Nat}

theorem compareMarks_eq_iff : compareMarks (i, k) (j, l) = .eq ↔ i.same j ∧ k = l := by
  rw [compareMarks, Ordering.then_eq_eq, StreamId.compare_eq_iff, Std.compare_eq_iff_eq]

theorem compareMarks_lt_iff :
    compareMarks (i, k) (j, l) = .lt ↔ compare i j = .lt ∨ i.same j ∧ k < l := by
  rw [compareMarks, Ordering.then_eq_lt, StreamId.compare_eq_iff, Nat.compare_eq_lt]

/-- What lies behind a place and not at the next one lies behind the next one. -/
theorem compareMarks_next (h : compareMarks (i, k) (j, l) = .lt)
    (hnext : ¬ (i.same j ∧ l = k + 1)) : compareMarks (i, k + 1) (j, l) = .lt := by
  rw [compareMarks_lt_iff] at h ⊢
  refine h.imp_right fun ⟨hsame, hlt⟩ => ⟨hsame, ?_⟩
  have hne : l ≠ k + 1 := fun heq => hnext ⟨hsame, heq⟩
  omega

theorem StreamId.same_self (i : StreamId) : i.same i = true :=
  StreamId.compare_eq_iff.mp Std.compare_self

theorem StreamId.same_of_same {i j m : StreamId} (hi : i.same m) (hj : j.same m) : i.same j :=
  StreamId.compare_eq_iff.mp (Std.TransCmp.eq_trans (StreamId.compare_eq_iff.mpr hi)
    (Std.OrientedCmp.eq_symm (StreamId.compare_eq_iff.mpr hj)))

end

/-- The place of a match. -/
def Match.mark (m : Match) : StreamId × Nat := (m.id, m.offset)

/-- The matches lie by stream and place, no two of them at one place. -/
def Ascend (ms : List Match) : Prop := ms.Pairwise fun a b => compareMarks a.mark b.mark = .lt

theorem Index.found_ascend {streams : List Stream} {i : Index} (sound : i.SoundFor streams)
    (apart : Apart i.records) (t : ThresholdTable) (options : QueryOptions) (q : Stream) :
    Ascend (i.found t options q) := by
  unfold Ascend found candidates
  rw [List.pairwise_map]
  apply List.Pairwise.filter
  rw [List.pairwise_filter]
  apply (sound.ordered.and apart).imp
  intro r r' ⟨hle, hne⟩ hr hr'
  rw [Record.comparePlace_of_eq ((beq_iff_eq.mp hr).trans (beq_iff_eq.mp hr').symm)] at hle
  exact (Ordering.isLE_iff_eq_lt_or_eq_eq.mp hle).resolve_right hne

/-! ## Groups and runs -/

namespace MatchGroup

/-- A group reaches over the place of a match. -/
def Holds (g : MatchGroup) (m : Match) : Prop :=
  g.id.same m.id ∧ g.first ≤ m.offset ∧ m.offset ≤ g.last

/-- A group tells of a run of matches its stream, its places and the largest similarity. -/
structure SumsUp (g : MatchGroup) (run : List Match) : Prop where
  same : ∀ m ∈ run, g.id.same m.id
  ordered : g.first ≤ g.last
  offsets : run.map Match.offset = List.range' g.first g.windows
  attained : ∃ m ∈ run, m.similarity = g.best
  greatest : ∀ m ∈ run, m.similarity ≤ g.best

variable {g h : MatchGroup} {run : List Match} {m : Match}

theorem sumsUp_single (number : Decimal.IsNumber m.similarity) :
    SumsUp ⟨m.id, m.offset, m.offset, m.similarity⟩ [m] where
  same := by simp [StreamId.same_self]
  ordered := le_rfl
  offsets := by simp [windows]
  attained := ⟨m, List.mem_singleton_self m, rfl⟩
  greatest := by simp [Decimal.le_refl_of_isNumber number]

/-- A match that continues a group comes at the end of its run. -/
theorem SumsUp.continued (sums : g.SumsUp run) (continues : g.continues m)
    (number : Decimal.IsNumber m.similarity) :
    SumsUp ⟨g.id, g.first, m.offset, larger g.best m.similarity⟩ (run ++ [m]) := by
  simp only [MatchGroup.continues, Bool.and_eq_true, beq_iff_eq] at continues
  obtain ⟨hsame, hoffset⟩ := continues
  have hordered := sums.ordered
  obtain ⟨x, hx, hbest⟩ := sums.attained
  obtain ⟨-, hnumber⟩ := Decimal.isNumber_of_le (sums.greatest x hx)
  obtain ⟨hleft, hright, hlarger⟩ := Decimal.larger_spec hnumber number
  refine ⟨?_, by simp only; omega, ?_, ?_, ?_⟩
  · exact List.forall_mem_append.mpr ⟨sums.same, List.forall_mem_singleton.mpr hsame⟩
  · have hwindows : m.offset - g.first + 1 = g.windows + 1 := by
      unfold windows
      omega
    have hlast : m.offset = g.first + g.windows := by
      unfold windows
      omega
    rw [List.map_append, sums.offsets]
    change _ ++ [m.offset] = List.range' g.first (m.offset - g.first + 1)
    rw [hwindows, List.range'_1_concat, ← hlast]
  · rcases hlarger with hl | hl
    · exact ⟨x, List.mem_append_left _ hx, hbest.trans hl.symm⟩
    · exact ⟨m, List.mem_append_right _ (List.mem_singleton_self m), hl.symm⟩
  · refine List.forall_mem_append.mpr ⟨fun y hy => ?_, List.forall_mem_singleton.mpr hright⟩
    exact Decimal.le_trans_of_le (sums.greatest y hy) hleft

theorem SumsUp.length_eq (sums : g.SumsUp run) : run.length = g.windows := by
  have h := congrArg List.length sums.offsets
  rwa [List.length_map, List.length_range'] at h

theorem SumsUp.holds (sums : g.SumsUp run) (hm : m ∈ run) : g.Holds m := by
  have hoffset := List.mem_map_of_mem (f := Match.offset) hm
  rw [sums.offsets, List.mem_range'_1, windows] at hoffset
  have hordered := sums.ordered
  exact ⟨sums.same m hm, hoffset.1, by omega⟩

theorem SumsUp.exists_offset (sums : g.SumsUp run) {k : Nat} (hfirst : g.first ≤ k)
    (hlast : k ≤ g.last) : ∃ m ∈ run, m.offset = k := by
  have hoffset : k ∈ List.range' g.first g.windows := by
    rw [List.mem_range'_1, windows]
    omega
  rw [← sums.offsets] at hoffset
  exact List.mem_map.mp hoffset

end MatchGroup

/-- Groups tell of a list of matches, one run after the other. -/
inductive Grouped : List MatchGroup → List Match → Prop where
  | nil : Grouped [] []
  | cons {g : MatchGroup} {run : List Match} {groups : List MatchGroup} {ms : List Match}
      (head : g.SumsUp run) (tail : Grouped groups ms) : Grouped (g :: groups) (run ++ ms)

/-- With the run of the open group in front, the groups tell of all matches. -/
theorem grouped_groupFrom {g : MatchGroup} {run : List Match} (sums : g.SumsUp run)
    {ms : List Match} (numbers : ∀ m ∈ ms, Decimal.IsNumber m.similarity) :
    Grouped (groupFrom g ms) (run ++ ms) := by
  induction ms generalizing g run with
  | nil => exact .cons sums .nil
  | cons m rest ih =>
    obtain ⟨hm, hrest⟩ := List.forall_mem_cons.mp numbers
    rw [groupFrom]
    split_ifs with hcontinues
    · have hgrouped := ih (sums.continued hcontinues hm) hrest
      rwa [List.append_assoc, List.singleton_append] at hgrouped
    · exact .cons sums (ih (MatchGroup.sumsUp_single hm) hrest)

theorem grouped_groupMatches (ms : List Match)
    (numbers : ∀ m ∈ ms, Decimal.IsNumber m.similarity) : Grouped (groupMatches ms) ms := by
  cases ms with
  | nil => exact .nil
  | cons m rest =>
    obtain ⟨hm, hrest⟩ := List.forall_mem_cons.mp numbers
    exact grouped_groupFrom (MatchGroup.sumsUp_single hm) hrest

namespace Grouped

variable {groups : List MatchGroup} {ms : List Match} (grouped : Grouped groups ms)

include grouped

/-- The groups count every match. -/
theorem sum_windows : (groups.map MatchGroup.windows).sum = ms.length := by
  induction grouped with
  | nil => rfl
  | cons head tail ih =>
    rw [List.map_cons, List.sum_cons, ih, List.length_append, head.length_eq]

/-- Each group tells of a run of the matches. -/
theorem exists_run {g : MatchGroup} (hg : g ∈ groups) : ∃ run, g.SumsUp run ∧ run ⊆ ms := by
  induction grouped with
  | nil => cases hg
  | cons head tail ih =>
    rcases List.mem_cons.mp hg with rfl | hg
    · exact ⟨_, head, List.subset_append_left _ _⟩
    · obtain ⟨run, hrun, hsub⟩ := ih hg
      exact ⟨run, hrun, List.subset_append_of_subset_right _ hsub⟩

theorem first_le_last {g : MatchGroup} (hg : g ∈ groups) : g.first ≤ g.last := by
  obtain ⟨run, hrun, -⟩ := grouped.exists_run hg
  exact hrun.ordered

/-- Each match is in the run of a group. -/
theorem exists_group {m : Match} (hm : m ∈ ms) :
    ∃ g ∈ groups, ∃ run, g.SumsUp run ∧ m ∈ run := by
  induction grouped with
  | nil => cases hm
  | cons head tail ih =>
    rcases List.mem_append.mp hm with hm | hm
    · exact ⟨_, List.mem_cons_self, _, head, hm⟩
    · obtain ⟨g, hg, hrun⟩ := ih hm
      exact ⟨g, List.mem_cons_of_mem _ hg, hrun⟩

end Grouped

/-! ## Gaps between groups -/

/-- A group lies before another one, with a place between them if they are of one stream. -/
def MatchGroup.LiesBefore (g h : MatchGroup) : Prop :=
  compareMarks (g.id, g.last + 1) (h.id, h.first) = .lt

theorem MatchGroup.LiesBefore.lt_of_same {g h : MatchGroup} (before : g.LiesBefore h)
    (same : g.id.same h.id) : g.last + 1 < h.first := by
  rcases compareMarks_lt_iff.mp before with hlt | ⟨-, hlt⟩
  · rw [StreamId.compare_eq_iff.mpr same] at hlt
    cases hlt
  · exact hlt

/-- A group starts where the open group does, or at a match. -/
theorem start_of_mem_groupFrom {g h : MatchGroup} {ms : List Match} (hmem : h ∈ groupFrom g ms) :
    (h.id, h.first) = (g.id, g.first) ∨ ∃ m ∈ ms, (h.id, h.first) = m.mark := by
  induction ms generalizing g with
  | nil =>
    rw [groupFrom, List.mem_singleton] at hmem
    exact .inl (by rw [hmem])
  | cons m rest ih =>
    rw [groupFrom] at hmem
    split_ifs at hmem with hcontinues
    · exact (ih hmem).imp_right fun ⟨x, hx, heq⟩ => ⟨x, List.mem_cons_of_mem m hx, heq⟩
    · rcases List.mem_cons.mp hmem with rfl | hmem
      · exact .inl rfl
      · rcases ih hmem with heq | ⟨x, hx, heq⟩
        · exact .inr ⟨m, List.mem_cons_self, heq⟩
        · exact .inr ⟨x, List.mem_cons_of_mem m hx, heq⟩

/-- Where the matches ascend behind the open group, every group lies before the later ones. -/
theorem liesBefore_groupFrom {g : MatchGroup} {ms : List Match}
    (behind : ∀ m ∈ ms, compareMarks (g.id, g.last) m.mark = .lt) (ascend : Ascend ms) :
    (groupFrom g ms).Pairwise MatchGroup.LiesBefore := by
  induction ms generalizing g with
  | nil => exact List.pairwise_singleton _ g
  | cons m rest ih =>
    obtain ⟨hm, hrest⟩ := List.pairwise_cons.mp ascend
    rw [groupFrom]
    split_ifs with hcontinues
    · -- the open group now ends at the match, which still lies in front of the others
      simp only [MatchGroup.continues, Bool.and_eq_true, beq_iff_eq] at hcontinues
      have hend : compareMarks (g.id, m.offset) m.mark = .eq :=
        compareMarks_eq_iff.mpr ⟨hcontinues.1, rfl⟩
      exact ih (fun x hx => TransCmp.lt_of_eq_of_lt hend (hm x hx)) hrest
    · -- the match is not at the next place, so that place is in the gap
      simp only [MatchGroup.continues, Bool.and_eq_true, beq_iff_eq] at hcontinues
      have hnext := compareMarks_next (behind m List.mem_cons_self) hcontinues
      refine List.pairwise_cons.mpr ⟨fun h hh => ?_, ih hm hrest⟩
      unfold MatchGroup.LiesBefore
      rcases start_of_mem_groupFrom hh with heq | ⟨x, hx, heq⟩
      · rw [heq]
        exact hnext
      · rw [heq]
        exact TransCmp.lt_trans hnext (hm x hx)

theorem liesBefore_groupMatches {ms : List Match} (ascend : Ascend ms) :
    (groupMatches ms).Pairwise MatchGroup.LiesBefore := by
  cases ms with
  | nil => exact List.Pairwise.nil
  | cons m rest =>
    obtain ⟨hm, hrest⟩ := List.pairwise_cons.mp ascend
    exact liesBefore_groupFrom hm hrest

/-! ## Maximal runs -/

/-- The groups are the longest runs of matches at consecutive places: each match is in one group,
each place of a group is that of a match, the places in front of a group and behind it are not, and
the groups lie by stream and place, each with its largest similarity. -/
structure MaximalRuns (found : List Match) (groups : List MatchGroup) : Prop where
  once : ∀ m ∈ found, ∃! g, g ∈ groups ∧ g.Holds m
  whole : ∀ g ∈ groups, ∀ k, g.first ≤ k → k ≤ g.last →
    ∃ m ∈ found, g.id.same m.id ∧ m.offset = k
  front : ∀ g ∈ groups, ∀ m ∈ found, g.id.same m.id → m.offset + 1 ≠ g.first
  back : ∀ g ∈ groups, ∀ m ∈ found, g.id.same m.id → m.offset ≠ g.last + 1
  ordered : groups.Pairwise fun g h => compareMarks (g.id, g.first) (h.id, h.first) = .lt
  best : ∀ g ∈ groups, (∃ m ∈ found, g.Holds m ∧ m.similarity = g.best) ∧
    ∀ m ∈ found, g.Holds m → m.similarity ≤ g.best

section

variable {groups : List MatchGroup} {ms : List Match} (grouped : Grouped groups ms)
  (gaps : groups.Pairwise MatchGroup.LiesBefore)

include gaps in
/-- Two groups of one stream have a place between them. -/
theorem apart_of_gaps {g h : MatchGroup} (hg : g ∈ groups) (hh : h ∈ groups) (hne : g ≠ h)
    (same : g.id.same h.id) : g.last + 1 < h.first ∨ h.last + 1 < g.first := by
  have heither : groups.Pairwise fun g h => g.LiesBefore h ∨ h.LiesBefore g := gaps.imp Or.inl
  have hsymm : Std.Symm fun g h : MatchGroup => g.LiesBefore h ∨ h.LiesBefore g :=
    ⟨fun _ _ => Or.symm⟩
  rcases heither.forall hg hh hne with hbefore | hbefore
  · exact .inl (hbefore.lt_of_same same)
  · exact .inr (hbefore.lt_of_same (StreamId.same_of_same h.id.same_self same))

include gaps in
/-- Groups that hold one match are the same. -/
theorem eq_of_holds {g h : MatchGroup} {m : Match} (hg : g ∈ groups) (hh : h ∈ groups)
    (holds : g.Holds m) (holds' : h.Holds m) : g = h := by
  obtain ⟨hsame, hfirst, hlast⟩ := holds
  obtain ⟨hsame', hfirst', hlast'⟩ := holds'
  by_contra hne
  have hapart := apart_of_gaps gaps hg hh hne (StreamId.same_of_same hsame hsame')
  omega

include grouped gaps

/-- A match of the stream of a group is in the group or has a place between it and the group. -/
theorem holds_or_apart {g : MatchGroup} {m : Match} (hg : g ∈ groups) (hm : m ∈ ms)
    (same : g.id.same m.id) : g.Holds m ∨ m.offset + 1 < g.first ∨ g.last + 1 < m.offset := by
  obtain ⟨h, hh, run, hrun, hmem⟩ := grouped.exists_group hm
  obtain ⟨hsame, hfirst, hlast⟩ := hrun.holds hmem
  by_cases heq : g = h
  · exact .inl (heq ▸ ⟨hsame, hfirst, hlast⟩)
  · have hapart := apart_of_gaps gaps hg hh heq (StreamId.same_of_same same hsame)
    omega

theorem maximalRuns : MaximalRuns ms groups where
  once m hm := by
    obtain ⟨g, hg, run, hrun, hmem⟩ := grouped.exists_group hm
    exact ⟨g, ⟨hg, hrun.holds hmem⟩, fun h ⟨hh, hholds⟩ =>
      eq_of_holds gaps hh hg hholds (hrun.holds hmem)⟩
  whole g hg k hfirst hlast := by
    obtain ⟨run, hrun, hsub⟩ := grouped.exists_run hg
    obtain ⟨m, hm, hoffset⟩ := hrun.exists_offset hfirst hlast
    exact ⟨m, hsub hm, hrun.same m hm, hoffset⟩
  front g hg m hm hsame heq := by
    have hordered := grouped.first_le_last hg
    rcases holds_or_apart grouped gaps hg hm hsame with ⟨-, hfirst, hlast⟩ | hapart <;> omega
  back g hg m hm hsame heq := by
    have hordered := grouped.first_le_last hg
    rcases holds_or_apart grouped gaps hg hm hsame with ⟨-, hfirst, hlast⟩ | hapart <;> omega
  ordered := by
    apply gaps.imp_of_mem
    intro g h hg hh hbefore
    have hordered := grouped.first_le_last hg
    rcases compareMarks_lt_iff.mp hbefore with hlt | ⟨hsame, hlt⟩
    · exact compareMarks_lt_iff.mpr (.inl hlt)
    · exact compareMarks_lt_iff.mpr (.inr ⟨hsame, by omega⟩)
  best g hg := by
    obtain ⟨run, hrun, hsub⟩ := grouped.exists_run hg
    obtain ⟨x, hx, hbest⟩ := hrun.attained
    refine ⟨⟨x, hsub hx, hrun.holds hx, hbest⟩, fun m hm hholds => ?_⟩
    obtain ⟨h, hh, run', hrun', hmem⟩ := grouped.exists_group hm
    obtain rfl := eq_of_holds gaps hg hh hholds (hrun'.holds hmem)
    exact hrun'.greatest m hmem

end

/-- A query of an index that was built gets a report exactly if it is as long as a window. The
groups of the report count what is found, and none ends before it begins; and if the streams are
different, the groups are the maximal runs of what is found. -/
theorem groups_are_the_maximal_runs {streams : List Stream} {t₀ : ThresholdTable} (made : t₀.Made)
    {window width : Nat} {mode : Segmentation} {i : Index}
    (built : Index.build streams t₀ window width mode = .ok i ∨
      ∃ n, Index.buildStamped streams t₀ n window width mode = .ok i) {t : ThresholdTable}
    {options : QueryOptions} {e : Engine} (ready : Engine.make i t options = .ok e) (q : Stream) :
    (i.header.window ≤ q.lines.length ↔ ∃ report, e.query q = .ok report) ∧
    ∀ report, e.query q = .ok report →
      (report.groups.map MatchGroup.windows).sum = (i.found t options q).length ∧
      (∀ g ∈ report.groups, g.first ≤ g.last) ∧
      (Distinct streams → MaximalRuns (i.found t options q) report.groups) := by
  rw [Engine.query_eq_report made built ready q]
  by_cases hlength : q.lines.length < i.header.window
  · rw [if_pos hlength]
    refine ⟨iff_of_false (Nat.not_le.mpr hlength) ?_, ?_⟩
    · rintro ⟨_, ⟨⟩⟩
    · rintro _ ⟨⟩
  · rw [if_neg hlength]
    refine ⟨iff_of_true (Nat.not_lt.mp hlength) ⟨_, rfl⟩, ?_⟩
    rintro _ ⟨⟩
    have grouped := grouped_groupMatches (i.found t options q) fun m hm =>
      (Decimal.isNumber_of_le (Index.le_similarity_of_found hm)).2
    refine ⟨grouped.sum_windows, fun g => grouped.first_le_last, fun distinct => ?_⟩
    have ascend := Index.found_ascend (Index.soundFor_of_built made built)
      (Index.apart_of_built made built distinct) t options q
    exact maximalRuns grouped (liesBefore_groupMatches ascend)

/-- Of three neighbouring windows the one in the middle is not similar enough, and a window of
another stream is; so there are three groups of one window. -/
theorem a_gap_parts_two_groups :
    let t : ThresholdTable := ⟨1, 0.5, [("a", 1), ("b", 1)]⟩
    let s : Stream := ⟨⟨⟨"s"⟩, none, 6⟩,
      [⟨6, ["a", "a"]⟩, ⟨7, ["a", "a", "b", "b"]⟩, ⟨8, ["a", "a"]⟩, ⟨9, []⟩]⟩
    let r : Stream := ⟨⟨⟨"r"⟩, some "f", 2⟩, [⟨3, ["a", "a"]⟩, ⟨4, []⟩]⟩
    t.Made ∧ Distinct [s, r] ∧ ∃ i e report, Index.build [s, r] t 1 1 .wholeFile = .ok i ∧
      Engine.make i t ⟨1, none, 1⟩ = .ok e ∧ e.query s = .ok report ∧
      (report.groups.map MatchGroup.windows).sum = 3 ∧ (∀ g ∈ report.groups, g.first = g.last) ∧
      MaximalRuns (i.found t ⟨1, none, 1⟩ s) report.groups := by
  intro t s r
  have ok : ThresholdTable.ofParts 1 0.5 t.entries = .ok t := rfl
  have made : t.Made := .given (by decide) ok
  have distinct : Distinct [s, r] := by
    unfold Distinct
    decide
  obtain ⟨i, e, built, ready, hwindow, hrecords⟩ := @exists_engine t (by decide) 1 (by decide)
    (by decide) (by decide) [s, r] .wholeFile none 1
  have long : i.header.window ≤ s.lines.length := hwindow ▸ (by decide)
  obtain ⟨hanswered, hgroups⟩ := groups_are_the_maximal_runs made (.inl built) ready s
  obtain ⟨report, hreport⟩ := hanswered.mp long
  obtain ⟨hsum, hordered, hruns⟩ := hgroups report hreport
  have hruns := hruns distinct
  have hfound := ((hrecords.filter fun r => r.bucket == t.bucketOf 1 s).filter
    fun r => 1 ≤ r.score t s).map (Record.toMatch t s)
  have hoffsets : ((i.found t ⟨1, none, 1⟩ s).map Match.offset).Perm [0, 2, 0] :=
    (hfound.map Match.offset).trans (by decide)
  have hthree : (i.found t ⟨1, none, 1⟩ s).length = 3 := by simpa using hoffsets.length_eq
  have hplaces : ∀ m ∈ i.found t ⟨1, none, 1⟩ s, m.offset = 0 ∨ m.offset = 2 := by
    intro m hm
    simpa [or_comm] using hoffsets.mem_iff.mp (List.mem_map_of_mem hm)
  refine ⟨made, distinct, i, e, report, built, ready, hreport, hsum.trans hthree, fun g hg => ?_,
    hruns⟩
  by_contra hne
  have hle := hordered g hg
  obtain ⟨m, hm, -, hfirst⟩ := hruns.whole g hg g.first le_rfl hle
  obtain ⟨m', hm', -, hnext⟩ := hruns.whole g hg (g.first + 1) (by omega) (by omega)
  have hplace := hplaces m hm
  have hplace' := hplaces m' hm'
  omega

end Lookalike
