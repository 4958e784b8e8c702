-- The laws of learning. A tally holds the counts of its windows without the
-- zeros, in no order that matters; filled up with zeros and sorted they are
-- the counts of a recount. So a table depends on the windows of the corpus
-- alone, not on the order of streams or the way tallies were merged.
import Mathlib.Data.List.Permutation
import Mathlib.Data.List.Sort
import Mathlib.Data.List.Flatten
import Lookalike.Proofs.Encoding
import Lookalike.Proofs.Recount
import Lookalike.Proofs.Rounding
import Lookalike.Proofs.Tables

namespace Lookalike

open Ordered (keys)

/-! ## The windows of a corpus -/

/-- The lines of every window of a stream. -/
def windowsOf (ls : List Line) (width : Nat) : List (List Line) :=
  (List.range (ls.length - width)).map (windowLines ls width)

/-- The lines of every window of a corpus. -/
def corpusWindows (streams : List Stream) (width : Nat) : List (List Line) :=
  streams.flatMap fun s => windowsOf s.lines width

theorem windows_recount {width : Nat} (hw : 0 < width) (ls : List Line) :
    List.Forall₂ (fun w inside => w.counts.Recounts inside) (windows ls width)
      (windowsOf ls width) := by
  unfold windowsOf
  rw [List.forall₂_map_right_iff]
  exact (windows_at hw ls).imp fun _ _ h => h.recounts

theorem corpusWindows_perm {streams others : List Stream} (h : streams.Perm others)
    (width : Nat) : (corpusWindows streams width).Perm (corpusWindows others width) :=
  h.flatMap_right _

/-! ## Order statistics -/

/-- The counts of a symbol in windows, in ascending order; a window without it counts zero. -/
def sortedCounts (ws : List (List Line)) (symbol : String) : List Nat :=
  (ws.map (occurrences symbol)).mergeSort

/-- The count of a symbol at the rank of its sorted counts. -/
def statistic (ws : List (List Line)) (percentile : Float) (symbol : String) : Nat :=
  (sortedCounts ws symbol)[rank ws.length percentile]?.getD 0

theorem pairwise_le_mergeSort (xs : List Nat) : xs.mergeSort.Pairwise (· ≤ ·) := by
  have := @List.pairwise_mergeSort Nat (fun a b => decide (a ≤ b))
    (fun a b c hab hbc => by simp at *; omega) (fun a b => by simp; omega) xs
  simpa using this

theorem mergeSort_eq_of_perm {xs ys : List Nat} (h : xs.Perm ys) : xs.mergeSort = ys.mergeSort := by
  refine List.Perm.eq_of_pairwise (fun a b _ _ hab hba => Nat.le_antisymm hab hba)
    (pairwise_le_mergeSort xs) (pairwise_le_mergeSort ys) ?_
  exact ((List.mergeSort_perm xs _).trans h).trans (List.mergeSort_perm ys _).symm

/-- The rank is the place near to the fraction of the length, half a place to the even one, unless
that lies behind the last place. -/
theorem rank_eq {length : Nat} {percentile : Float} {m : Nat} {e : Int}
    (product : Decimal.Value.ofFloat (Decimal.nearest false length 1 * percentile) =
      .finite false m e) :
    ∃ place, Decimal.Near (m * 2 ^ e.toNat) (2 ^ (-e).toNat) place ∧
      rank length percentile = min place (length - 1) :=
  ⟨_, Decimal.near_roundToNat product, rfl⟩

example : rank 3 0.5 = 2 ∧ rank 5 0.5 = 2 ∧ rank 4 1 = 3 ∧ rank 10 0.8 = 8 := by decide

theorem rank_lt {n : Nat} (h : 0 < n) (percentile : Float) : rank n percentile < n := by
  unfold rank
  omega

/-- Values without zeros, filled up with zeros, are all values again. -/
theorem padded_perm {values counts : List Nat} (h : values.Perm (counts.filter (0 < ·))) :
    (padded counts.length values).Perm counts := by
  have hlen : values.length = (counts.filter (0 < ·)).length := h.length_eq
  have hzeros : counts.filter (fun n => !decide (0 < n)) =
      List.replicate (counts.length - values.length) 0 := by
    rw [List.eq_replicate_iff]
    refine ⟨?_, fun n hn => ?_⟩
    · have := List.length_eq_length_filter_add (l := counts) (fun n => decide (0 < n))
      omega
    · have := (List.mem_filter.mp hn).2
      simp at this
      exact this
  have hle : values.length ≤ counts.length := hlen ▸ List.length_filter_le _ _
  unfold padded
  rw [List.take_of_length_le (by simp; omega), ← hzeros]
  exact (h.append_right _).trans (List.filter_append_perm _ counts)

theorem orderStatistic_eq {values counts : List Nat} (h : values.Perm (counts.filter (0 < ·)))
    (percentile : Float) :
    orderStatistic counts.length percentile values =
      counts.mergeSort[rank counts.length percentile]?.getD 0 := by
  unfold orderStatistic
  simp only [mergeSort_eq_of_perm (padded_perm h), List.length_mergeSort]

/-! ## Tallies -/

namespace Tally

/-- The values of a symbol. -/
def valuesOf (symbol : String) (values : List (String × List Nat)) : List Nat :=
  (Ordered.get? symbol values).getD []

theorem valuesOf_extend (values : List (String × List Nat)) (symbol other : String)
    (more : List Nat) :
    valuesOf other (extend values symbol more) =
      if symbol = other then more ++ valuesOf other values else valuesOf other values := by
  unfold valuesOf extend
  by_cases h : symbol = other
  · subst h
    simp [Ordered.get?_alter_self]
  · simp [Ordered.get?_alter_of_ne h, h]

/-- Values that are added entry by entry, each symbol once. -/
theorem valuesOf_foldl_extend {α : Type} (f : α → List Nat) {es : List (String × α)}
    (h : (keys es).Nodup) (values : List (String × List Nat)) (symbol : String) :
    valuesOf symbol (es.foldl (fun vs e => extend vs e.1 (f e.2)) values) =
      ((Ordered.get? symbol es).map f).getD [] ++ valuesOf symbol values := by
  induction es generalizing values with
  | nil => rfl
  | cons e rest ih =>
    obtain ⟨s, a⟩ := e
    rw [Ordered.keys_cons, List.nodup_cons] at h
    rw [List.foldl_cons, ih h.2, valuesOf_extend]
    by_cases hs : s = symbol
    · subst hs
      have hgone : Ordered.get? s rest = none := Ordered.get?_eq_none_iff.mpr h.1
      simp [hgone, Ordered.get?]
    · simp [Ordered.get?, hs]

/-- Every symbol has one entry, and no entry is empty. -/
structure Proper (values : List (String × List Nat)) : Prop where
  nodup : (keys values).Nodup
  filled : ∀ e ∈ values, e.2 ≠ []

theorem proper_extend {values : List (String × List Nat)} (h : Proper values) (symbol : String)
    {more : List Nat} (hm : more ≠ []) : Proper (extend values symbol more) := by
  refine ⟨Ordered.nodup_keys_alter h.nodup, ?_⟩
  exact Ordered.forall_mem_alter (P := (· ≠ [])) h.filled fun o _ => by simp [hm]

theorem proper_foldl_extend {α : Type} {f : α → List Nat} {es : List (String × α)}
    (hf : ∀ e ∈ es, f e.2 ≠ []) {values : List (String × List Nat)} (h : Proper values) :
    Proper (es.foldl (fun vs e => extend vs e.1 (f e.2)) values) := by
  induction es generalizing values with
  | nil => exact h
  | cons e rest ih =>
    obtain ⟨he, hrest⟩ := List.forall_mem_cons.mp hf
    exact ih hrest (proper_extend h e.1 he)

/-- A tally of windows: their number, and for each symbol its counts without the zeros. -/
structure Holds (t : Tally) (ws : List (List Line)) : Prop where
  seen_eq : t.seen = ws.length
  proper : Proper t.values
  values_perm : ∀ symbol,
    (valuesOf symbol t.values).Perm ((ws.map (occurrences symbol)).filter (0 < ·))

theorem holds_empty : empty.Holds [] :=
  ⟨rfl, ⟨List.nodup_nil, by simp [empty]⟩, fun _ => List.Perm.refl _⟩

theorem Holds.perm {t : Tally} {ws vs : List (List Line)} (h : t.Holds ws) (hp : ws.Perm vs) :
    t.Holds vs :=
  ⟨h.seen_eq.trans hp.length_eq, h.proper,
    fun symbol => (h.values_perm symbol).trans ((hp.map _).filter _)⟩

/-- One more window gives each of its symbols one more value, and no other symbol any. -/
theorem holds_addWindow {t : Tally} {ws : List (List Line)} {w : Window} {inside : List Line}
    (h : t.Holds ws) (hw : w.counts.Recounts inside) : (t.addWindow w).Holds (inside :: ws) := by
  refine ⟨by rw [addWindow, h.seen_eq, List.length_cons], ?_, fun symbol => ?_⟩
  · exact proper_foldl_extend (f := fun n => [n]) (by simp) h.proper
  · have hvalues := valuesOf_foldl_extend (fun n => [n]) hw.proper.nodup t.values symbol
    have hcount : (Ordered.get? symbol w.counts.entries).getD 0 = occurrences symbol inside :=
      hw.get_eq symbol
    rw [addWindow, hvalues, List.map_cons, List.filter_cons]
    cases hg : Ordered.get? symbol w.counts.entries with
    | none =>
      rw [hg] at hcount
      have hzero : ¬ 0 < occurrences symbol inside := by
        rw [← hcount]
        simp
      simpa [hzero] using h.values_perm symbol
    | some n =>
      rw [hg] at hcount
      have hpos : 0 < n := hw.proper.positive _ (Ordered.mem_of_get?_eq_some hg)
      simp only [Option.getD_some] at hcount
      simpa [← hcount, hpos] using h.values_perm symbol

theorem holds_merge {a b : Tally} {ws vs : List (List Line)} (ha : a.Holds ws) (hb : b.Holds vs) :
    (a.merge b).Holds (ws ++ vs) := by
  refine ⟨by rw [merge, ha.seen_eq, hb.seen_eq, List.length_append], ?_, fun symbol => ?_⟩
  · exact proper_foldl_extend (f := id) hb.proper.filled ha.proper
  · have hvalues := valuesOf_foldl_extend id hb.proper.nodup a.values symbol
    have hsplit : valuesOf symbol (a.merge b).values =
        valuesOf symbol b.values ++ valuesOf symbol a.values := by
      rw [Option.map_id] at hvalues
      exact hvalues
    rw [hsplit, List.map_append, List.filter_append]
    exact List.perm_append_comm.trans ((ha.values_perm symbol).append (hb.values_perm symbol))

theorem holds_foldl_addWindow {pass : List Window} {inside ws : List (List Line)} {t : Tally}
    (h : List.Forall₂ (fun w ls => w.counts.Recounts ls) pass inside) (ht : t.Holds ws) :
    (pass.foldl addWindow t).Holds (inside ++ ws) := by
  induction h generalizing t ws with
  | nil => exact ht
  | cons hw _ ih => exact (ih (holds_addWindow ht hw)).perm List.perm_middle

theorem holds_ofStream {width : Nat} (hw : 0 < width) (s : Stream) :
    (ofStream width s).Holds (windowsOf s.lines width) := by
  have := holds_foldl_addWindow (windows_recount hw s.lines) holds_empty
  rwa [List.append_nil] at this

theorem holds_foldl_merge {width : Nat} (hw : 0 < width) (streams : List Stream) {t : Tally}
    {ws : List (List Line)} (h : t.Holds ws) :
    ((streams.map (ofStream width)).foldl merge t).Holds (ws ++ corpusWindows streams width) := by
  induction streams generalizing t ws with
  | nil => simpa [corpusWindows] using h
  | cons s streams ih =>
    have := ih (holds_merge h (holds_ofStream hw s))
    rwa [List.append_assoc] at this

theorem holds_ofStreams {width : Nat} (hw : 0 < width) (streams : List Stream) :
    (ofStreams width streams).Holds (corpusWindows streams width) :=
  holds_foldl_merge hw streams holds_empty

/-! ## Thresholds -/

theorem Holds.mem_keys_iff {t : Tally} {ws : List (List Line)} (h : t.Holds ws)
    {symbol : String} : symbol ∈ keys t.values ↔ ∃ ls ∈ ws, 0 < occurrences symbol ls := by
  have hfilter : (∃ ls ∈ ws, 0 < occurrences symbol ls) ↔
      (ws.map (occurrences symbol)).filter (0 < ·) ≠ [] := by
    simp [List.filter_eq_nil_iff, Nat.pos_iff_ne_zero]
  rw [hfilter, ← List.length_pos_iff, ← (h.values_perm symbol).length_eq, List.length_pos_iff]
  cases hg : Ordered.get? symbol t.values with
  | none => simp [valuesOf, hg, Ordered.get?_eq_none_iff.mp hg]
  | some vs =>
    have hmem := Ordered.mem_of_get?_eq_some hg
    have hne : vs ≠ [] := h.proper.filled _ hmem
    simp [valuesOf, hg, hne, Ordered.mem_keys_of_mem hmem]

theorem Holds.entry_perm {t : Tally} {ws : List (List Line)} (h : t.Holds ws)
    {e : String × List Nat} (he : e ∈ t.values) :
    e.2.Perm ((ws.map (occurrences e.1)).filter (0 < ·)) := by
  have hg : Ordered.get? e.1 t.values = some e.2 :=
    (Ordered.get?_eq_some_iff h.proper.nodup).mpr he
  have hp := h.values_perm e.1
  rwa [valuesOf, hg] at hp

/-- The entries by symbol. -/
def ordered (t : Tally) : List (String × List Nat) :=
  t.values.mergeSort fun a b => (compare a.1 b.1).isLE

/-- What a table holds of a symbol of a corpus. -/
def entryOf (ws : List (List Line)) (percentile : Float) (symbol : String) :
    Option (String × UInt32) :=
  let n := UInt32.ofNat (statistic ws percentile symbol)
  if n = 0 then none else some (symbol, n)

theorem Holds.thresholds_eq {t : Tally} {ws : List (List Line)} (h : t.Holds ws)
    (percentile : Float) :
    t.thresholds percentile = (keys t.ordered).filterMap (entryOf ws percentile) := by
  unfold thresholds keys
  rw [List.filterMap_map]
  apply List.filterMap_congr
  intro e he
  have hstat : orderStatistic t.seen percentile e.2 = statistic ws percentile e.1 := by
    have := orderStatistic_eq (h.entry_perm (List.mem_mergeSort.mp he)) percentile
    rw [List.length_map] at this
    rw [h.seen_eq, this]
    rfl
  rw [hstat]
  rfl

theorem isLE_compare_iff {a b : String} : (compare a b).isLE = true ↔ a ≤ b :=
  isLE_compareOfLessAndEq String.le_antisymm String.not_le String.le_total

theorem keys_ordered_ascend {t : Tally} {ws : List (List Line)} (h : t.Holds ws) :
    (keys t.ordered).Pairwise (· < ·) := by
  have hle : t.ordered.Pairwise fun a b => a.1 ≤ b.1 := by
    have := @List.pairwise_mergeSort (String × List Nat) (fun a b => (compare a.1 b.1).isLE)
      (fun a b c hab hbc => isLE_compare_iff.mpr
        (String.le_trans (isLE_compare_iff.mp hab) (isLE_compare_iff.mp hbc)))
      (fun a b => by
        rw [Bool.or_eq_true, isLE_compare_iff, isLE_compare_iff]
        exact String.le_total a.1 b.1) t.values
    exact this.imp fun hab => isLE_compare_iff.mp hab
  have hnodup : (keys t.ordered).Nodup :=
    ((List.mergeSort_perm t.values _).map Prod.fst).nodup_iff.mpr h.proper.nodup
  have hkeys : (keys t.ordered).Pairwise (· ≤ ·) := List.pairwise_map.mpr hle
  exact hkeys.imp₂ (fun a b hab hne => lt_of_le_of_ne hab hne) hnodup

theorem mem_keys_ordered {t : Tally} {symbol : String} :
    symbol ∈ keys t.ordered ↔ symbol ∈ keys t.values :=
  ((List.mergeSort_perm t.values _).map Prod.fst).mem_iff

/-- The symbols depend on the windows alone. -/
theorem Holds.keys_eq {t u : Tally} {ws : List (List Line)} (ht : t.Holds ws) (hu : u.Holds ws) :
    keys t.ordered = keys u.ordered := by
  have hnodup {v : Tally} (hv : v.Holds ws) : (keys v.ordered).Nodup :=
    (keys_ordered_ascend hv).imp fun h => ne_of_lt h
  have hperm : (keys t.ordered).Perm (keys u.ordered) := by
    rw [List.perm_ext_iff_of_nodup (hnodup ht) (hnodup hu)]
    intro symbol
    rw [mem_keys_ordered, mem_keys_ordered, ht.mem_keys_iff, hu.mem_keys_iff]
  exact hperm.eq_of_pairwise (fun a b _ _ hab hba => absurd (lt_trans hab hba) (lt_irrefl a))
    (keys_ordered_ascend ht) (keys_ordered_ascend hu)

/-- So do the thresholds. -/
theorem Holds.thresholds_unique {t u : Tally} {ws : List (List Line)} (ht : t.Holds ws)
    (hu : u.Holds ws) (percentile : Float) : t.thresholds percentile = u.thresholds percentile := by
  rw [ht.thresholds_eq, hu.thresholds_eq, ht.keys_eq hu]

end Tally

/-! ## Merging in any way -/

/-- A way to merge the tallies of streams, with empty tallies anywhere. -/
inductive Merging where
  | nothing
  | single (s : Stream)
  | both (l r : Merging)

namespace Merging

/-- The streams in the order of their tallies. -/
def streams : Merging → List Stream
  | nothing => []
  | single s => [s]
  | both l r => l.streams ++ r.streams

/-- The tally that comes out. -/
def tally (width : Nat) : Merging → Tally
  | nothing => Tally.empty
  | single s => Tally.ofStream width s
  | both l r => (l.tally width).merge (r.tally width)

theorem holds_tally {width : Nat} (hw : 0 < width) (m : Merging) :
    (m.tally width).Holds (corpusWindows m.streams width) := by
  induction m with
  | nothing => exact Tally.holds_empty
  | single s => simpa [corpusWindows, streams, tally] using Tally.holds_ofStream hw s
  | both l r hl hr =>
    rw [streams, corpusWindows, List.flatMap_append]
    exact Tally.holds_merge hl hr

end Merging

/-! ## Learned tables -/

/-- The number of tokens of lines. -/
def tokenCount (ls : List Line) : Nat := (ls.map fun l => l.tokens.length).sum

theorem occurrences_le_tokenCount (symbol : String) (ls : List Line) :
    occurrences symbol ls ≤ tokenCount ls := by
  induction ls with
  | nil => exact Nat.le_refl 0
  | cons l ls ih =>
    have : l.tokens.count symbol ≤ l.tokens.length := List.count_le_length
    simp only [occurrences_cons, tokenCount, List.map_cons, List.sum_cons] at *
    omega

/-- A statistic that is not zero is the count of a window. -/
theorem statistic_lt {ws : List (List Line)} {limit : Nat} {symbol : String}
    (h : ∀ ls ∈ ws, occurrences symbol ls < limit) (percentile : Float)
    (hpos : 0 < statistic ws percentile symbol) : statistic ws percentile symbol < limit := by
  unfold statistic at hpos ⊢
  cases hg : (sortedCounts ws symbol)[rank ws.length percentile]? with
  | none => simp [hg] at hpos
  | some n =>
    have hmem : n ∈ ws.map (occurrences symbol) :=
      List.mem_mergeSort.mp (List.mem_of_getElem? hg)
    obtain ⟨ls, hls, rfl⟩ := List.mem_map.mp hmem
    exact h ls hls

theorem entryOf_eq_some_iff {ws : List (List Line)} {percentile : Float} {symbol : String}
    {e : String × UInt32} (hlt : statistic ws percentile symbol < 2 ^ 32) :
    Tally.entryOf ws percentile symbol = some e ↔
      e.1 = symbol ∧ statistic ws percentile symbol = e.2.toNat ∧ 0 < e.2.toNat := by
  have hsame {v : UInt32} : UInt32.ofNat (statistic ws percentile symbol) = v ↔
      statistic ws percentile symbol = v.toNat := by
    rw [← UInt32.toNat_inj, UInt32.toNat_ofNat_of_lt' hlt]
  unfold Tally.entryOf
  obtain ⟨s, v⟩ := e
  dsimp only
  split_ifs with hzero
  · rw [hsame, UInt32.toNat_zero] at hzero
    rw [false_iff]
    omega
  · rw [hsame, UInt32.toNat_zero] at hzero
    simp only [Option.some.injEq, Prod.mk.injEq, hsame]
    constructor
    · rintro ⟨rfl, hv⟩
      exact ⟨rfl, hv, by omega⟩
    · rintro ⟨rfl, hv, -⟩
      exact ⟨rfl, hv⟩

/-- The entries of a tally whose counts fit 32 bits: the symbols that occur, each with its statistic
unless that is zero. -/
theorem mem_thresholds_iff_of_counts {t : Tally} {ws : List (List Line)} (h : t.Holds ws)
    (fits : ∀ ls ∈ ws, ∀ s, occurrences s ls < 2 ^ 32) (percentile : Float) (symbol : String)
    (threshold : UInt32) :
    (symbol, threshold) ∈ t.thresholds percentile ↔
      (∃ ls ∈ ws, 0 < occurrences symbol ls) ∧
        (sortedCounts ws symbol)[rank ws.length percentile]? = some threshold.toNat ∧
        0 < threshold.toNat := by
  have hstat {s : String} : statistic ws percentile s < 2 ^ 32 := by
    rcases Nat.eq_zero_or_pos (statistic ws percentile s) with h0 | hpos
    · omega
    · exact statistic_lt (fun ls hls => fits ls hls s) percentile hpos
  have hget (hpos : 0 < threshold.toNat) :
      statistic ws percentile symbol = threshold.toNat ↔
        (sortedCounts ws symbol)[rank ws.length percentile]? = some threshold.toNat := by
    unfold statistic
    cases (sortedCounts ws symbol)[rank ws.length percentile]? with
    | none => simp; omega
    | some n => simp
  rw [h.thresholds_eq, List.mem_filterMap]
  constructor
  · rintro ⟨s, hs, he⟩
    obtain ⟨rfl, hv, hpos⟩ := (entryOf_eq_some_iff hstat).mp he
    exact ⟨h.mem_keys_iff.mp (Tally.mem_keys_ordered.mp hs), (hget hpos).mp hv, hpos⟩
  · rintro ⟨hocc, hv, hpos⟩
    exact ⟨symbol, Tally.mem_keys_ordered.mpr (h.mem_keys_iff.mpr hocc),
      (entryOf_eq_some_iff hstat).mpr ⟨rfl, (hget hpos).mpr hv, hpos⟩⟩

/-- A symbol that occurs without an entry counts zero at the rank. -/
theorem sortedCounts_eq_zero_of_absent {t : Tally} {ws : List (List Line)} (h : t.Holds ws)
    (fits : ∀ ls ∈ ws, ∀ s, occurrences s ls < 2 ^ 32) {percentile : Float} {symbol : String}
    (occurs : ∃ ls ∈ ws, 0 < occurrences symbol ls)
    (absent : ∀ e ∈ t.thresholds percentile, e.1 ≠ symbol) :
    (sortedCounts ws symbol)[rank ws.length percentile]? = some 0 := by
  have hplace : rank ws.length percentile < (sortedCounts ws symbol).length := by
    obtain ⟨ls, hls, -⟩ := occurs
    rw [sortedCounts, List.length_mergeSort, List.length_map]
    exact rank_lt (List.length_pos_of_mem hls) percentile
  have hv := List.getElem?_eq_getElem hplace
  generalize (sortedCounts ws symbol)[rank ws.length percentile] = n at hv
  rcases Nat.eq_zero_or_pos n with rfl | hn
  · exact hv
  · -- a count above zero is that of a window, so it would be a threshold
    obtain ⟨ls', hls', hcount⟩ := List.mem_map.mp (List.mem_mergeSort.mp (List.mem_of_getElem? hv))
    have hword : (UInt32.ofNat n).toNat = n :=
      UInt32.toNat_ofNat_of_lt' (hcount ▸ fits ls' hls' symbol)
    have hentry := (mem_thresholds_iff_of_counts h fits percentile symbol (UInt32.ofNat n)).mpr
      ⟨occurs, hword.symm ▸ hv, hword.symm ▸ hn⟩
    exact absurd rfl (absent _ hentry)

/-- A window of fewer tokens has counts that fit. -/
theorem mem_thresholds_iff {t : Tally} {ws : List (List Line)} (h : t.Holds ws)
    (small : ∀ ls ∈ ws, tokenCount ls < 2 ^ 32) (percentile : Float) (symbol : String)
    (threshold : UInt32) :
    (symbol, threshold) ∈ t.thresholds percentile ↔
      (∃ ls ∈ ws, 0 < occurrences symbol ls) ∧
        (sortedCounts ws symbol)[rank ws.length percentile]? = some threshold.toNat ∧
        0 < threshold.toNat :=
  mem_thresholds_iff_of_counts h
    (fun ls hls s => (occurrences_le_tokenCount s ls).trans_lt (small ls hls)) percentile symbol
    threshold

theorem thresholds_ascend {t : Tally} {ws : List (List Line)} (h : t.Holds ws)
    (percentile : Float) :
    (t.thresholds percentile).Pairwise fun a b => Text.encode a.1 < Text.encode b.1 := by
  rw [h.thresholds_eq, List.pairwise_filterMap]
  refine (Tally.keys_ordered_ascend h).imp fun {a b} hab x hx y hy => ?_
  have hkey {s : String} {e : String × UInt32} (he : Tally.entryOf ws percentile s = some e) :
      e.1 = s := by
    unfold Tally.entryOf at he
    dsimp only at he
    split_ifs at he
    cases he
    rfl
  rw [hkey hx, hkey hy]
  exact Text.encode_lt hab

/-- The filled up values of a tally reach the rank, and none of them is cut off. -/
theorem padded_reaches_rank {t : Tally} {ws : List (List Line)} (h : t.Holds ws)
    (percentile : Float) {e : String × List Nat} (he : e ∈ t.values) :
    e.2.length ≤ t.seen ∧
      rank (padded t.seen e.2).length percentile < (padded t.seen e.2).length := by
  have hperm := h.entry_perm he
  have hlen : e.2.length ≤ t.seen := by
    rw [h.seen_eq, hperm.length_eq]
    simpa using List.length_filter_le (fun n => decide (0 < n)) (ws.map (occurrences e.1))
  have hseen : (padded t.seen e.2).length = t.seen := by
    simp [padded]
    omega
  have hpos : 0 < e.2.length := List.length_pos_iff.mpr (h.proper.filled e he)
  exact ⟨hlen, rank_lt (by omega) percentile⟩

/-- A learned table holds the order statistics of its corpus: by symbol, for each symbol that
occurs in a window the count at the rank, zeros left out. Every order of the streams and every way
to merge their tallies gives this table. -/
theorem learning_takes_order_statistics {width : Nat} {percentile : Float} (hw : 0 < width)
    (hpos : 0 < percentile) (hle : percentile ≤ 1) (streams : List Stream)
    (small : ∀ ls ∈ corpusWindows streams width, tokenCount ls < 2 ^ 32) :
    ∃ t, ThresholdTable.learn streams width percentile = .ok t ∧
      t.window = width ∧ t.percentile = percentile ∧
      (t.entries.Pairwise fun a b => Text.encode a.1 < Text.encode b.1) ∧
      (∀ symbol threshold, (symbol, threshold) ∈ t.entries ↔
        (∃ ls ∈ corpusWindows streams width, 0 < occurrences symbol ls) ∧
          (sortedCounts (corpusWindows streams width) symbol)[rank
            (corpusWindows streams width).length percentile]? = some threshold.toNat ∧
          0 < threshold.toNat) ∧
      (∀ m : Merging, m.streams.Perm streams →
        (∀ e ∈ (m.tally width).values, e.2.length ≤ (m.tally width).seen ∧
          rank (padded (m.tally width).seen e.2).length percentile <
            (padded (m.tally width).seen e.2).length) ∧
        let u : ThresholdTable := ⟨width, percentile, (m.tally width).thresholds percentile⟩
        u = t ∧ u.identity = t.identity) ∧
      (∀ others, others.Perm streams → ThresholdTable.learn others width percentile = .ok t) := by
  have hchecked := checkParameters_eq_ok_iff.mpr ⟨hw, hpos, hle⟩
  have hholds := Tally.holds_ofStreams hw streams
  refine ⟨_, ThresholdTable.learn_eq_ok_iff.mpr ⟨hchecked, rfl⟩, rfl, rfl,
    thresholds_ascend hholds percentile, mem_thresholds_iff hholds small percentile, ?_, ?_⟩
  · intro m hm
    have htally := (m.holds_tally hw).perm (corpusWindows_perm hm width)
    refine ⟨fun e he => padded_reaches_rank htally percentile he, ?_⟩
    simp only [htally.thresholds_unique hholds, and_self]
  · intro others hothers
    have htally := (Tally.holds_ofStreams hw others).perm (corpusWindows_perm hothers width)
    rw [ThresholdTable.learn_eq_ok_iff, htally.thresholds_unique hholds]
    exact ⟨hchecked, rfl⟩

/-- Five windows of two streams, of which the fourth in order counts: one symbol stays, the other
counts zero there. -/
theorem learning_from_two_streams :
    let s : Stream :=
      ⟨⟨⟨"s"⟩, none, 6⟩, [⟨6, ["b", "b"]⟩, ⟨7, ["a"]⟩, ⟨8, ["b"]⟩, ⟨9, []⟩]⟩
    let r : Stream := ⟨⟨⟨"r"⟩, none, 6⟩, [⟨6, ["b"]⟩, ⟨7, ["b", "b"]⟩, ⟨8, ["b", "a"]⟩]⟩
    (0 < 1 ∧ (0 : Float) < 0.6 ∧ (0.6 : Float) ≤ 1 ∧
      ∀ ls ∈ corpusWindows [s, r] 1, tokenCount ls < 2 ^ 32) ∧
      rank (corpusWindows [s, r] 1).length 0.6 = 3 ∧
      ∃ t, ThresholdTable.learn [s, r] 1 0.6 = .ok t ∧
        ThresholdTable.learn [r, s] 1 0.6 = .ok t ∧
        ("b", 2) ∈ t.entries ∧ ∀ threshold, ("a", threshold) ∉ t.entries := by
  intro s r
  have small : ∀ ls ∈ corpusWindows [s, r] 1, tokenCount ls < 2 ^ 32 := by decide
  obtain ⟨hpos, hle, hrank⟩ : (0 : Float) < 0.6 ∧ (0.6 : Float) ≤ 1 ∧
      rank (corpusWindows [s, r] 1).length 0.6 = 3 := by decide
  obtain ⟨t, hlearn, -, -, -, hmem, -, horder⟩ :=
    learning_takes_order_statistics Nat.one_pos hpos hle [s, r] small
  have hb : sortedCounts (corpusWindows [s, r] 1) "b" = [0, 1, 1, 2, 2] := by cbv
  have ha : sortedCounts (corpusWindows [s, r] 1) "a" = [0, 0, 0, 0, 1] := by cbv
  rw [hrank] at hmem
  refine ⟨⟨Nat.one_pos, hpos, hle, small⟩, hrank, t, hlearn,
    horder [r, s] (List.Perm.swap s r []), ?_, ?_⟩
  · exact (hmem "b" 2).mpr ⟨by decide, by rw [hb]; rfl, by decide⟩
  · intro threshold h
    obtain ⟨-, hv, hpos⟩ := (hmem "a" threshold).mp h
    rw [ha] at hv
    have hzero : 0 = threshold.toNat := Option.some.inj hv
    omega

end Lookalike
