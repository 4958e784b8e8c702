-- A pass call by call. Each call gives the window at the next place, and none
-- once no place is left. The tokens that leave a window are counted in it, so no
-- count is taken below zero, and on the way to the next window no count is
-- greater than in one of the two.
import Lookalike.Proofs.OrderStatistic

namespace Lookalike

namespace Pass

/-! ## One step -/

/-- A step takes one line off each list and slides the window by these; without two such lines there
is no step, and no window is left. -/
theorem step?_cases (p : Pass) :
    (p.step? = none ∧ p.toList = []) ∨
      ∃ out into q, p.leaving = out :: q.leaving ∧ p.entering = into :: q.entering ∧
        q.next = ⟨p.next.offset + 1, (p.next.counts.removeLine out).addLine into⟩ ∧
        p.step? = some (p.next, q) ∧ p.toList = p.next :: q.toList := by
  obtain ⟨w, leaving, entering⟩ := p
  cases leaving with
  | nil => exact .inl ⟨rfl, rfl⟩
  | cons out leaving =>
    cases entering with
    | nil => exact .inl ⟨rfl, rfl⟩
    | cons into entering => exact .inr ⟨out, into, ⟨_, leaving, entering⟩, rfl, rfl, rfl, rfl, rfl⟩

/-- Leaving out windows gives the one behind them and goes on behind that one. -/
theorem skip_eq (n : Nat) (p : Pass) :
    (p.skip n).1 = p.toList[n]? ∧ (p.skip n).2.toList = p.toList.drop (n + 1) := by
  induction n generalizing p with
  | zero =>
    rcases p.step?_cases with ⟨hstep, hnone⟩ | ⟨_, _, q, _, _, _, hstep, hmore⟩
    · simp [skip, hstep, hnone]
    · simp [skip, hstep, hmore]
  | succ n ih =>
    rcases p.step?_cases with ⟨hstep, hnone⟩ | ⟨_, _, q, _, _, _, hstep, hmore⟩
    · simp [skip, hstep, hnone]
    · simp [skip, hstep, hmore, ih q]

theorem first_eq_next {p : Pass} {w : Window} (h : p.toList[0]? = some w) : w = p.next := by
  rcases p.step?_cases with ⟨_, hnone⟩ | ⟨_, _, q, _, _, _, _, hmore⟩
  · simp [hnone] at h
  · simpa [hmore, eq_comm] using h

/-- Between two windows in a row one line leaves and one enters. -/
theorem next_counts {p : Pass} {a b : Window} {k : Nat} (ha : p.toList[k]? = some a)
    (hb : p.toList[k + 1]? = some b) :
    ∃ out into, p.leaving[k]? = some out ∧ p.entering[k]? = some into ∧
      b.counts = (a.counts.removeLine out).addLine into := by
  induction k generalizing p with
  | zero =>
    rcases p.step?_cases with ⟨_, hnone⟩ | ⟨out, into, q, hout, hinto, hnext, _, hmore⟩
    · simp [hnone] at ha
    · rw [hmore] at ha hb
      cases ha
      rw [hout, hinto, first_eq_next hb, hnext]
      exact ⟨out, into, rfl, rfl, rfl⟩
  | succ k ih =>
    rcases p.step?_cases with ⟨_, hnone⟩ | ⟨out, into, q, hout, hinto, _, _, hmore⟩
    · simp [hnone] at ha
    · rw [hmore] at ha hb
      rw [hout, hinto]
      exact ih ha hb

/-! ## Calls -/

/-- The pass behind `k` calls. A call that finds no window leaves the pass as it is. -/
def after : Nat → Pass → Pass
  | 0, p => p
  | k + 1, p => after k (p.skip 0).2

theorem toList_after (k : Nat) (p : Pass) : (p.after k).toList = p.toList.drop k := by
  induction k generalizing p with
  | zero => rfl
  | succ k ih => rw [after, ih, (skip_eq 0 p).2, List.drop_drop, Nat.add_comm]

/-- No more lines enter than leave. -/
def Balanced (p : Pass) : Prop := p.entering.length ≤ p.leaving.length

theorem start_of_pos {width : Nat} (hpos : 0 < width) (ls : List Line) :
    start ls width = ⟨⟨0, Counts.ofLines (ls.take width)⟩, ls, ls.drop width⟩ :=
  if_neg (Nat.ne_of_gt hpos)

theorem balanced_start (ls : List Line) (width : Nat) : (start ls width).Balanced := by
  unfold start Balanced
  split
  · exact Nat.le_refl 0
  · simp

theorem Balanced.after {p : Pass} (h : p.Balanced) (k : Nat) : (p.after k).Balanced := by
  induction k generalizing p with
  | zero => exact h
  | succ k ih =>
    apply ih
    rcases p.step?_cases with ⟨hstep, _⟩ | ⟨out, into, q, hout, hinto, _, hstep, _⟩
    · simpa [skip, hstep] using h
    · unfold Balanced at h
      rw [hout, hinto] at h
      simpa [skip, hstep, Balanced] using h

theorem length_slide (w : Window) (leaving entering : List Line) :
    (slide w leaving entering).length = min leaving.length entering.length := by
  induction leaving generalizing w entering with
  | nil => simp [slide]
  | cons out leaving ih =>
    cases entering with
    | nil => simp [slide]
    | cons into entering => simp [slide, ih]

theorem Balanced.remaining_eq {p : Pass} (h : p.Balanced) : p.remaining = p.toList.length := by
  rw [toList, length_slide, remaining]
  exact (Nat.min_eq_right h).symm

/-- Behind `k` calls of a pass, the next calls give the windows from place `k` on. -/
theorem call_after (ls : List Line) (width k n : Nat) :
    (((start ls width).after k).skip n).1 = (windows ls width)[k + n]? ∧
      ((start ls width).after k).remaining = (windows ls width).length - k := by
  rw [(skip_eq n _).1, ((balanced_start ls width).after k).remaining_eq, toList_after,
    List.getElem?_drop, List.length_drop]
  exact ⟨rfl, rfl⟩

end Pass

/-! ## Counts on the way -/

namespace Counts

/-- Every token is counted when its turn comes to be taken away, and no count gets greater. -/
structure Falls (c : Counts) (ts : List String) : Prop where
  counted : ∀ before t behind, ts = before ++ t :: behind → 0 < (before.foldl remove c).get t
  below : ∀ before, before <+: ts → ∀ t, (before.foldl remove c).get t ≤ c.get t

/-- While tokens are added no count is greater than in the end. -/
def Rises (c : Counts) (ts : List String) : Prop :=
  ∀ before, before <+: ts → ∀ t, (before.foldl add c).get t ≤ (ts.foldl add c).get t

/-- The tokens of a line that is counted can be taken away one after the other. -/
theorem falls_of_recounts {c : Counts} {l : Line} {ls : List Line} (h : c.Recounts (l :: ls)) :
    c.Falls l.tokens := by
  refine ⟨fun before t behind hsplit => ?_, fun before _ t => ?_⟩
  · have hcount := h.get_eq t
    rw [occurrences_cons, hsplit, List.count_append, List.count_cons_self] at hcount
    rw [(remove_tokens h.proper before).2]
    omega
  · rw [(remove_tokens h.proper before).2]
    exact Nat.sub_le _ _

theorem rises_of_proper {c : Counts} (h : c.Proper) (ts : List String) : c.Rises ts := by
  rintro before ⟨behind, rfl⟩ t
  rw [(add_tokens h before).2, (add_tokens h (before ++ behind)).2, List.count_append]
  omega

theorem ofLines_eq (ls : List Line) : ofLines ls = (ls.flatMap Line.tokens).foldl add empty :=
  List.foldl_flatMap.symm

end Counts

/-! ## Places -/

theorem offsets_windows (ls : List Line) (width : Nat) :
    (windows ls width).map Window.offset =
      List.range (if width = 0 then 0 else ls.length - width) := by
  split_ifs with hzero
  · rw [hzero, windows_zero]
    rfl
  · have hall := (windows_at (Nat.pos_of_ne_zero hzero) ls).imp fun _ _ h => h.offset_eq
    rwa [← List.forall₂_map_left_iff, List.forall₂_eq_eq_eq] at hall

theorem windowLines_eq_cons {ls : List Line} {width k : Nat} {l : Line} (hpos : 0 < width)
    (h : ls[k]? = some l) : ∃ inside, windowLines ls width k = l :: inside := by
  obtain ⟨width, rfl⟩ := Nat.exists_eq_add_one.mpr hpos
  obtain ⟨hk, rfl⟩ := List.getElem?_eq_some_iff.mp h
  exact ⟨(ls.drop (k + 1)).take width, by rw [windowLines, List.drop_eq_getElem_cons hk]; rfl⟩

/-- A window of so many lines has no count of 32 bits or more if its lines have fewer tokens. -/
theorem Window.At.get_lt {ls : List Line} {width k : Nat} {w : Window} (h : w.At ls width k)
    (hsmall : tokenCount (windowLines ls width k) < 2 ^ 32) (t : String) :
    w.counts.get t < 2 ^ 32 := by
  rw [h.recounts.get_eq]
  exact Nat.lt_of_le_of_lt (occurrences_le_tokenCount t _) hsmall

/-- The windows of a stream stand at the places behind which a line is left, in order, and a pass
gives them call by call, always knowing how many are left, and then none for ever. Each counts
exactly the tokens of its lines. From one to the next a line of the stream leaves and one enters;
what leaves is counted, and no count on the way is greater than in one of the two windows, so it
fits 32 bits if the number of their tokens does. The first window is that of a stream that is long
enough. -/
theorem a_pass_recounts_every_window (ls : List Line) (width : Nat) :
    let ws := windows ls width
    ws.map Window.offset = List.range (if width = 0 then 0 else ls.length - width) ∧
      (∀ k n, let p := (Pass.start ls width).after k
        (p.skip n).1 = ws[k + n]? ∧ p.remaining = ws.length - k) ∧
      (∀ k w, ws[k]? = some w →
        w.At ls width k ∧
          (∀ t m, (t, m) ∈ w.counts.entries ↔
            0 < m ∧ m = occurrences t (windowLines ls width k)) ∧
          (tokenCount (windowLines ls width k) < 2 ^ 32 → ∀ t, w.counts.get t < 2 ^ 32)) ∧
      (∀ k w v, ws[k]? = some w → ws[k + 1]? = some v →
        ∃ out into, ls[k]? = some out ∧ ls[k + width]? = some into ∧
          v.counts = (w.counts.removeLine out).addLine into ∧ w.counts.Falls out.tokens ∧
          (w.counts.removeLine out).Rises into.tokens) ∧
      (1 ≤ width → width ≤ ls.length →
        ∃ w, firstWindow? ls width = some w ∧ w.At ls width 0 ∧
          (tokenCount (windowLines ls width 0) < 2 ^ 32 → ∀ t, w.counts.get t < 2 ^ 32) ∧
          w.counts = ((ls.take width).flatMap Line.tokens).foldl Counts.add .empty ∧
          Counts.empty.Rises ((ls.take width).flatMap Line.tokens)) ∧
      ∀ w, ws[0]? = some w → width ≤ ls.length ∧ firstWindow? ls width = some w := by
  intro ws
  refine ⟨offsets_windows ls width, fun k n => Pass.call_after ls width k n, fun k w hw => ?_,
    fun k w v hw hv => ?_, fun hpos hlen => ?_, fun w hw => ?_⟩
  · obtain ⟨-, -, hat⟩ := window_at hw
    exact ⟨hat, fun t m => hat.recounts.mem_entries_iff, hat.get_lt⟩
  · obtain ⟨hpos, -, hat⟩ := window_at hw
    obtain ⟨out, into, hout, hinto, hcounts⟩ := Pass.next_counts hw hv
    rw [Pass.start_of_pos hpos] at hout hinto
    obtain ⟨inside, hinside⟩ := windowLines_eq_cons hpos hout
    have hrecounts := hat.recounts
    rw [hinside] at hrecounts
    refine ⟨out, into, hout, ?_, hcounts, Counts.falls_of_recounts hrecounts,
      Counts.rises_of_proper (Counts.recounts_removeLine hrecounts).proper _⟩
    rwa [List.getElem?_drop, Nat.add_comm] at hinto
  · have hfirst : (⟨0, Counts.ofLines (ls.take width)⟩ : Window).At ls width 0 :=
      ⟨rfl, Counts.recounts_ofLines _⟩
    exact ⟨_, if_neg (by omega), hfirst, hfirst.get_lt, Counts.ofLines_eq _,
      Counts.rises_of_proper Counts.proper_empty _⟩
  · obtain ⟨hpos, hlen, -⟩ := window_at hw
    have hfirst := Pass.first_eq_next hw
    rw [Pass.start_of_pos hpos] at hfirst
    rw [hfirst]
    exact ⟨by omega, if_neg (by omega)⟩

/-- A token that stands twice in the line that leaves and once in the line that enters. -/
theorem a_repeated_token_leaves_and_enters :
    let ls : List Line := [⟨3, ["mov", "mov"]⟩, ⟨4, ["mov", "add"]⟩, ⟨6, ["ret"]⟩]
    ∃ w v, (windows ls 1)[0]? = some w ∧ (windows ls 1)[1]? = some v ∧ (windows ls 1)[2]? = none ∧
      (∀ m, ("mov", m) ∈ v.counts.entries ↔ 0 < m ∧ m = 1) ∧
      w.counts.Falls ["mov", "mov"] ∧ firstWindow? ls 1 = some w := by
  intro ls
  obtain ⟨-, -, hwindow, hstep, -, hfirst⟩ := a_pass_recounts_every_window ls 1
  refine ⟨_, _, rfl, rfl, rfl, fun m => (hwindow 1 _ rfl).2.1 "mov" m, ?_, (hfirst _ rfl).2⟩
  obtain ⟨out, into, hout, -, -, hfalls, -⟩ := hstep 0 _ _ rfl rfl
  cases hout
  exact hfalls

end Lookalike
