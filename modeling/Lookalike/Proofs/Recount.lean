-- The laws of the sliding windows. A pass changes its counts by one line that
-- leaves and one that enters; the counts that it gives at a place are those
-- of the lines of the window, counted from scratch.
import Lookalike.Proofs.OrderedKeys
import Lookalike.Window

namespace Lookalike

open Ordered (keys)

-- Sums are those of the core library, whatever else is imported.
attribute [local instance (high)] Zero.ofOfNat0

/-! ## Counting from scratch -/

/-- How often a token occurs in lines. -/
def occurrences (t : String) (ls : List Line) : Nat := (ls.map fun l => l.tokens.count t).sum

/-- The lines of the window at a place. -/
def windowLines (ls : List Line) (width i : Nat) : List Line := (ls.drop i).take width

@[simp] theorem occurrences_nil (t : String) : occurrences t [] = 0 := rfl

@[simp] theorem occurrences_cons (t : String) (l : Line) (ls : List Line) :
    occurrences t (l :: ls) = l.tokens.count t + occurrences t ls := rfl

@[simp] theorem occurrences_append (t : String) (as bs : List Line) :
    occurrences t (as ++ bs) = occurrences t as + occurrences t bs := by
  simp [occurrences]

namespace Counts

/-! ## Entries without zeros and without repetitions -/

/-- No token has two entries, and no entry is zero. -/
structure Proper (c : Counts) : Prop where
  nodup : (keys c.entries).Nodup
  positive : ∀ e ∈ c.entries, 0 < e.2

theorem proper_empty : Proper empty := ⟨List.nodup_nil, by simp [empty]⟩

theorem proper_add {c : Counts} (h : c.Proper) (t : String) : (c.add t).Proper := by
  refine ⟨Ordered.nodup_keys_alter h.nodup, ?_⟩
  exact Ordered.forall_mem_alter (P := (0 < ·)) h.positive (fun o _ => Nat.succ_pos _)

theorem keys_removeFrom_subset (t : String) (es : List (String × Nat)) :
    (keys (removeFrom t es)).Sublist (keys es) := by
  induction es with
  | nil => simp [removeFrom]
  | cons e rest ih =>
    obtain ⟨t', n⟩ := e
    simp only [removeFrom]
    split
    · split
      · exact List.sublist_cons_self ..
      · simp
    · simpa using ih

theorem positive_removeFrom {t : String} {es : List (String × Nat)} (h : ∀ e ∈ es, 0 < e.2) :
    ∀ e ∈ removeFrom t es, 0 < e.2 := by
  induction es with
  | nil => simp [removeFrom]
  | cons e rest ih =>
    obtain ⟨t', n⟩ := e
    obtain ⟨_, hrest⟩ := List.forall_mem_cons.mp h
    simp only [removeFrom]
    split
    · split
      · exact hrest
      · exact List.forall_mem_cons.mpr ⟨by simp only; omega, hrest⟩
    · exact List.forall_mem_cons.mpr ⟨h _ (List.mem_cons_self ..), ih hrest⟩

theorem proper_remove {c : Counts} (h : c.Proper) (t : String) : (c.remove t).Proper :=
  ⟨h.nodup.sublist (keys_removeFrom_subset t _), positive_removeFrom h.positive⟩

theorem get?_removeFrom {t u : String} {es : List (String × Nat)} (h : (keys es).Nodup) :
    (Ordered.get? u (removeFrom t es)).getD 0 =
      (Ordered.get? u es).getD 0 - if t = u then 1 else 0 := by
  induction es with
  | nil => simp [removeFrom, Ordered.get?]
  | cons e rest ih =>
    obtain ⟨t', n⟩ := e
    rw [Ordered.keys_cons, List.nodup_cons] at h
    by_cases ht : t' = t
    · subst ht
      have hgone : Ordered.get? t' rest = none := Ordered.get?_eq_none_iff.mpr h.1
      by_cases hu : t' = u
      · subst hu
        by_cases hn : n ≤ 1
        · simp [removeFrom, Ordered.get?, hn, hgone]
        · simp [removeFrom, Ordered.get?, hn]
      · by_cases hn : n ≤ 1
        · simp [removeFrom, Ordered.get?, hn, hu]
        · simp [removeFrom, Ordered.get?, hn, hu]
    · by_cases hu : t' = u
      · subst hu
        simp [removeFrom, Ordered.get?, ht, Ne.symm ht]
      · simp only [removeFrom, ht, if_false, Ordered.get?, hu]
        exact ih h.2

theorem get_remove {c : Counts} (h : c.Proper) (t u : String) :
    (c.remove t).get u = c.get u - if t = u then 1 else 0 := get?_removeFrom h.nodup

/-! ## Lines that enter and leave -/

/-- The entries say what a recount of the lines says. -/
structure Recounts (c : Counts) (ls : List Line) : Prop where
  proper : c.Proper
  get_eq : ∀ t, c.get t = occurrences t ls

theorem add_tokens {c : Counts} (h : c.Proper) (ts : List String) :
    (ts.foldl add c).Proper ∧ ∀ t, (ts.foldl add c).get t = c.get t + ts.count t := by
  induction ts generalizing c with
  | nil => exact ⟨h, by simp⟩
  | cons u ts ih =>
    obtain ⟨hp, hg⟩ := ih (proper_add h u)
    refine ⟨hp, fun t => ?_⟩
    rw [List.foldl_cons, hg, get_add, List.count_cons]
    simp only [beq_iff_eq]
    omega

theorem remove_tokens {c : Counts} (h : c.Proper) (ts : List String) :
    (ts.foldl remove c).Proper ∧ ∀ t, (ts.foldl remove c).get t = c.get t - ts.count t := by
  induction ts generalizing c with
  | nil => exact ⟨h, by simp⟩
  | cons u ts ih =>
    obtain ⟨hp, hg⟩ := ih (proper_remove h u)
    refine ⟨hp, fun t => ?_⟩
    rw [List.foldl_cons, hg, get_remove h, List.count_cons]
    simp only [beq_iff_eq]
    omega

theorem recounts_addLine {c : Counts} {ls : List Line} (h : c.Recounts ls) (l : Line) :
    (c.addLine l).Recounts (ls ++ [l]) := by
  obtain ⟨hp, hg⟩ := add_tokens h.proper l.tokens
  refine ⟨hp, fun t => ?_⟩
  rw [addLine, hg, h.get_eq]
  simp

theorem recounts_removeLine {c : Counts} {l : Line} {ls : List Line} (h : c.Recounts (l :: ls)) :
    (c.removeLine l).Recounts ls := by
  obtain ⟨hp, hg⟩ := remove_tokens h.proper l.tokens
  refine ⟨hp, fun t => ?_⟩
  rw [removeLine, hg, h.get_eq, occurrences_cons]
  omega

theorem recounts_foldl {c : Counts} {before : List Line} (h : c.Recounts before)
    (ls : List Line) : (ls.foldl addLine c).Recounts (before ++ ls) := by
  induction ls generalizing c before with
  | nil => simpa using h
  | cons l ls ih =>
    have := ih (recounts_addLine h l)
    rwa [List.append_assoc, List.singleton_append] at this

theorem recounts_ofLines (ls : List Line) : (ofLines ls).Recounts ls := by
  have hempty : empty.Recounts [] := ⟨proper_empty, fun _ => rfl⟩
  exact recounts_foldl hempty ls

theorem Recounts.mem_entries_iff {c : Counts} {ls : List Line} (h : c.Recounts ls) {t : String}
    {n : Nat} : (t, n) ∈ c.entries ↔ 0 < n ∧ n = occurrences t ls := by
  rw [← h.get_eq, get, ← Ordered.get?_eq_some_iff h.proper.nodup]
  constructor
  · intro hn
    exact ⟨h.proper.positive _ (Ordered.mem_of_get?_eq_some hn), by simp [hn]⟩
  · rintro ⟨hpos, hn⟩
    cases hg : Ordered.get? t c.entries with
    | none => simp [hg] at hn; omega
    | some m => simp [hg] at hn; rw [hn]

end Counts

/-! ## A pass over a stream -/

/-- A window that says where it is, with the counts of a recount at its place. -/
structure Window.At (w : Window) (ls : List Line) (width i : Nat) : Prop where
  offset_eq : w.offset = i
  recounts : w.counts.Recounts (windowLines ls width i)

theorem windowLines_zero (inside ls : List Line) :
    windowLines (inside ++ ls) inside.length 0 = inside := by
  simp [windowLines]

theorem windowLines_succ (l : Line) (ls : List Line) (width i : Nat) :
    windowLines (l :: ls) width (i + 1) = windowLines ls width i := by
  simp [windowLines]

/-- One step slides the window: its first line leaves, and the line behind it enters. -/
theorem recounts_step {c : Counts} {l : Line} {inside : List Line}
    (h : c.Recounts (l :: inside)) (into : Line) :
    ((c.removeLine l).addLine into).Recounts (inside ++ [into]) :=
  Counts.recounts_addLine (Counts.recounts_removeLine h) into

/-- The lines that leave are those of the window and then those that enter. So each window of a
pass is a recount at its place. -/
theorem slide_recounts {w : Window} {inside : List Line} (entering : List Line)
    (hin : inside ≠ []) (h : w.counts.Recounts inside) :
    List.Forall₂
      (fun v i => v.offset = w.offset + i ∧
        v.counts.Recounts (windowLines (inside ++ entering) inside.length i))
      (Pass.slide w (inside ++ entering) entering) (List.range entering.length) := by
  induction entering generalizing w inside with
  | nil => cases inside <;> exact List.Forall₂.nil
  | cons into entering ih =>
    cases inside with
    | nil => exact absurd rfl hin
    | cons l inside =>
      have hrest := ih (w := ⟨w.offset + 1, (w.counts.removeLine l).addLine into⟩) (by simp)
        (recounts_step h into)
      have hsplit : inside ++ into :: entering = (inside ++ [into]) ++ entering := by simp
      have hfirst : windowLines (l :: inside ++ into :: entering) (l :: inside).length 0 =
          l :: inside := windowLines_zero _ _
      rw [List.length_cons (a := into), List.range_succ_eq_map]
      refine List.Forall₂.cons ⟨rfl, by rw [hfirst]; exact h⟩ ?_
      rw [List.forall₂_map_right_iff]
      change List.Forall₂ _ (Pass.slide _ (inside ++ into :: entering) entering) _
      rw [hsplit]
      refine hrest.imp fun {v i} hv => ⟨?_, ?_⟩
      · rw [hv.1]
        simp only
        omega
      · rw [Nat.succ_eq_add_one, List.cons_append, windowLines_succ, hsplit]
        simpa using hv.2

/-- The windows of a stream stand at every place behind which a line is left, in order, and each is
a recount of the lines at its place. -/
theorem windows_at {width : Nat} (hw : 0 < width) (ls : List Line) :
    List.Forall₂ (fun w i => w.At ls width i) (windows ls width)
      (List.range (ls.length - width)) := by
  unfold windows Pass.toList Pass.start
  rw [if_neg (by omega)]
  by_cases hlen : width < ls.length
  · have hne : ls.take width ≠ [] := by
      intro he
      have hl := congrArg List.length he
      rw [List.length_take, List.length_nil] at hl
      omega
    have hwidth : (ls.take width).length = width := by
      rw [List.length_take]
      omega
    have h := slide_recounts (w := ⟨0, Counts.ofLines (ls.take width)⟩) (ls.drop width) hne
      (Counts.recounts_ofLines _)
    rw [List.take_append_drop, hwidth, List.length_drop] at h
    refine h.imp fun v i hv => ⟨?_, hv.2⟩
    rw [hv.1]
    exact Nat.zero_add i
  · have hd : ls.drop width = [] := List.drop_eq_nil_of_le (by omega)
    have hn : ls.length - width = 0 := by omega
    rw [hd, hn]
    cases ls <;> exact List.Forall₂.nil

theorem windows_zero (ls : List Line) : windows ls 0 = [] := rfl

/-- The window at a place says where it is and recounts its lines, behind which a line is left. -/
theorem window_at {ls : List Line} {width k : Nat} {w : Window}
    (h : (windows ls width)[k]? = some w) :
    0 < width ∧ k + width < ls.length ∧ w.At ls width k := by
  rcases Nat.eq_zero_or_pos width with rfl | hpos
  · rw [windows_zero] at h
    cases h
  · have hall := windows_at hpos ls
    obtain ⟨hk, hw⟩ := List.getElem?_eq_some_iff.mp h
    have hrange : k < (List.range (ls.length - width)).length := hall.length_eq ▸ hk
    have hat := hall.get hk hrange
    rw [List.get_eq_getElem, List.get_eq_getElem, List.getElem_range, hw] at hat
    rw [List.length_range] at hrange
    exact ⟨hpos, by omega, hat⟩

/-- There are as many windows as lines behind a whole window. -/
theorem length_windows {width : Nat} (hw : 0 < width) (ls : List Line) :
    (windows ls width).length = ls.length - width := by
  rw [(windows_at hw ls).length_eq, List.length_range]

theorem firstWindow?_recounts {width : Nat} {ls : List Line} (hw : 0 < width)
    (h : width ≤ ls.length) :
    ∃ w, firstWindow? ls width = some w ∧ w.offset = 0 ∧
      w.counts.Recounts (ls.take width) := by
  refine ⟨_, if_neg (by omega), rfl, Counts.recounts_ofLines _⟩

end Lookalike
