-- What reaches the tokens of a line. Behind the column only the runs of characters
-- between separators count: neither the address in front of the column nor the
-- separators before, between and behind the runs make a difference.
import Mathlib.Data.List.Forall2
import Mathlib.Data.List.Sort
import Lookalike.Proofs.FunctionBlocks

namespace Lookalike

namespace Text

/-! ## Maximal runs -/

/-- A maximal run of a text: characters that are no separators, from a place on, with a separator or
an end of the text on either side. -/
structure IsRun (separator : Char → Bool) (cs : List Char) (start : Nat) (run : List Char) :
    Prop where
  filled : run ≠ []
  inside : run <+: cs.drop start
  clean : ∀ c ∈ run, separator c = false
  front : ∀ k c, k + 1 = start → cs[k]? = some c → separator c = true
  back : ∀ c, cs[start + run.length]? = some c → separator c = true

/-- The maximal runs of a text, all of them and in their order. -/
def HasRuns (separator : Char → Bool) (cs : List Char) (rs : List (List Char)) : Prop :=
  ∃ starts : List Nat, starts.Pairwise (· < ·) ∧ List.Forall₂ (IsRun separator cs) starts rs ∧
    ∀ start, start ∈ starts ↔ ∃ run, IsRun separator cs start run

variable {separator : Char → Bool} {cs word rest run other : List Char} {start : Nat}

namespace IsRun

/-- Clean characters from the start of a run on are not more than the run has. -/
theorem length_le (h : IsRun separator cs start run) (inside : other <+: cs.drop start)
    (clean : ∀ c ∈ other, separator c = false) : other.length ≤ run.length := by
  by_contra hlt
  have hlt := Nat.lt_of_not_le hlt
  have hget := List.prefix_iff_getElem?.mp inside run.length hlt
  rw [List.getElem?_drop] at hget
  have hback := h.back _ hget
  rw [clean _ (List.getElem_mem hlt)] at hback
  cases hback

theorem unique (h : IsRun separator cs start run) (h' : IsRun separator cs start other) :
    run = other := by
  have hle := h.length_le h'.inside h'.clean
  have hge := h'.length_le h.inside h.clean
  have hprefix := List.prefix_of_prefix_length_le h.inside h'.inside hge
  exact hprefix.eq_of_length (Nat.le_antisymm hge hle)

theorem exists_first (h : IsRun separator cs start run) :
    ∃ c, cs[start]? = some c ∧ separator c = false := by
  obtain ⟨c, run, rfl⟩ := List.exists_cons_of_ne_nil h.filled
  refine ⟨c, ?_, h.clean c List.mem_cons_self⟩
  have hget := List.prefix_iff_getElem?.mp h.inside 0 (Nat.zero_lt_succ _)
  rwa [List.getElem?_drop] at hget

end IsRun

theorem not_isRun_nil : ¬ IsRun separator [] start run := by
  intro h
  obtain ⟨c, hc, -⟩ := h.exists_first
  cases hc

theorem isRun_cons {c : Char} (hc : separator c = true) :
    IsRun separator (c :: cs) start run ↔ ∃ s, s + 1 = start ∧ IsRun separator cs s run := by
  constructor
  · intro h
    cases start with
    | zero =>
      obtain ⟨d, hd, hclean⟩ := h.exists_first
      cases hd
      rw [hc] at hclean
      cases hclean
    | succ s =>
      refine ⟨s, rfl, h.filled, h.inside, h.clean, fun k d hk hd => ?_, fun d hd => ?_⟩
      · exact h.front (k + 1) d (by rw [hk]) hd
      · exact h.back d (by rwa [Nat.succ_add])
  · rintro ⟨s, rfl, h⟩
    refine ⟨h.filled, h.inside, h.clean, fun k d hk hd => ?_, fun d hd => ?_⟩
    · cases k with
      | zero =>
        cases hd
        exact hc
      | succ k => exact h.front k d (Nat.succ.inj hk) hd
    · exact h.back d (by rwa [Nat.succ_add] at hd)

/-- A word in front, ended by a separator or the end of the text, is a run. -/
theorem isRun_word (filled : word ≠ []) (clean : ∀ c ∈ word, separator c = false)
    (ends : ∀ c, rest[0]? = some c → separator c = true) :
    IsRun separator (word ++ rest) 0 word := by
  refine ⟨filled, List.prefix_append word rest, clean, fun k c hk => by omega, fun c hc => ?_⟩
  rw [Nat.zero_add, List.getElem?_append_right (Nat.le_refl _), Nat.sub_self] at hc
  exact ends c hc

/-- In front of a later run stands a separator, so it does not begin in the word. -/
theorem IsRun.length_lt (h : IsRun separator (word ++ rest) start run)
    (clean : ∀ c ∈ word, separator c = false) (later : 0 < start) : word.length < start := by
  by_contra hle
  obtain ⟨k, rfl⟩ : ∃ k, start = k + 1 := ⟨start - 1, by omega⟩
  have hk : k < word.length := by omega
  have hget : (word ++ rest)[k]? = some word[k] := by
    rw [List.getElem?_append_left hk, List.getElem?_eq_getElem hk]
  have hseparator := h.front k _ rfl hget
  rw [clean _ (List.getElem_mem hk)] at hseparator
  cases hseparator

/-- Behind the word the runs are those of the rest. -/
theorem isRun_behind (ends : ∀ c, rest[0]? = some c → separator c = true) {s : Nat} :
    IsRun separator (word ++ rest) (word.length + s) run ↔ IsRun separator rest s run := by
  have hrest {k : Nat} : (word ++ rest)[word.length + k]? = rest[k]? := by
    rw [List.getElem?_append_right (Nat.le_add_right _ _), Nat.add_sub_cancel_left]
  have hdrop : (word ++ rest).drop (word.length + s) = rest.drop s := by
    rw [List.drop_append, Nat.add_sub_cancel_left, List.drop_of_length_le (Nat.le_add_right _ _),
      List.nil_append]
  constructor
  · intro h
    refine ⟨h.filled, hdrop ▸ h.inside, h.clean, fun k c hk hc => ?_, fun c hc => h.back c ?_⟩
    · exact h.front (word.length + k) c (by omega) (hrest.trans hc)
    · rw [Nat.add_assoc]
      exact hrest.trans hc
  · intro h
    -- the rest begins with a separator, so its runs do not begin at once
    have hs : s ≠ 0 := by
      rintro rfl
      obtain ⟨c, hc, hclean⟩ := h.exists_first
      rw [ends c hc] at hclean
      cases hclean
    refine ⟨h.filled, hdrop.symm ▸ h.inside, h.clean, fun k c hk hc => ?_, fun c hc => ?_⟩
    · obtain ⟨j, rfl⟩ : ∃ j, k = word.length + j := ⟨k - word.length, by omega⟩
      exact h.front j c (by omega) (hrest.symm.trans hc)
    · rw [Nat.add_assoc] at hc
      exact h.back c (hrest.symm.trans hc)

/-- With a word in front there is one more run. -/
theorem isRun_append (filled : word ≠ []) (clean : ∀ c ∈ word, separator c = false)
    (ends : ∀ c, rest[0]? = some c → separator c = true) :
    IsRun separator (word ++ rest) start run ↔
      (start = 0 ∧ run = word) ∨ ∃ s, word.length + s = start ∧ IsRun separator rest s run := by
  constructor
  · intro h
    rcases Nat.eq_zero_or_pos start with rfl | hpos
    · exact .inl ⟨rfl, h.unique (isRun_word filled clean ends)⟩
    · obtain ⟨s, rfl⟩ := Nat.exists_eq_add_of_le (Nat.le_of_lt (h.length_lt clean hpos))
      exact .inr ⟨s, rfl, (isRun_behind ends).mp h⟩
  · rintro (⟨rfl, rfl⟩ | ⟨s, rfl, h⟩)
    · exact isRun_word filled clean ends
    · exact (isRun_behind ends).mpr h

/-! ## The runs of a text -/

theorem runs_cons {c : Char} (hc : separator c = true) (cs : List Char) :
    runs separator (c :: cs) = runs separator cs := by
  unfold runs
  rw [List.splitOnP_cons_eq_if_modifyHead, if_pos hc]
  rfl

/-- A word in front, ended by a separator or the end of the text, is the first run. -/
theorem runs_append (filled : word ≠ []) (clean : ∀ c ∈ word, separator c = false)
    (ends : ∀ c, rest[0]? = some c → separator c = true) :
    runs separator (word ++ rest) = word :: runs separator rest := by
  have hword : runs separator word = [word] := by
    unfold runs
    rw [List.splitOnP_eq_singleton clean]
    simp [filled]
  cases rest with
  | nil => rw [List.append_nil, hword]; rfl
  | cons c rest =>
    have hc := ends c rfl
    rw [runs_cons hc, ← List.singleton_append (x := word), ← hword]
    unfold runs
    rw [List.splitOnP_append_cons word rest hc, List.filter_append]

theorem runs_append_separators (cs : List Char) (h : ∀ c ∈ rest, separator c = true) :
    runs separator (cs ++ rest) = runs separator cs := by
  cases rest with
  | nil => rw [List.append_nil]
  | cons c rest =>
    obtain ⟨hc, hrest⟩ := List.forall_mem_cons.mp h
    have hnone := runs_separators hrest
    unfold runs at hnone ⊢
    rw [List.splitOnP_append_cons cs rest hc, List.filter_append, hnone, List.append_nil]

theorem ne_nil_of_mem_runs (h : run ∈ runs separator cs) : run ≠ [] := by
  simpa using (List.mem_filter.mp h).2

/-- A text is empty, or a separator stands in front, or a word does. -/
theorem words_induction (separator : Char → Bool) {motive : List Char → Prop} (nil : motive [])
    (gap : ∀ c cs, separator c = true → motive cs → motive (c :: cs))
    (word : ∀ word rest, word ≠ [] → (∀ c ∈ word, separator c = false) →
      (∀ c, rest[0]? = some c → separator c = true) → motive rest → motive (word ++ rest))
    (cs : List Char) : motive cs := by
  induction hlen : cs.length using Nat.strong_induction_on generalizing cs with
  | _ n ih =>
    cases cs with
    | nil => exact nil
    | cons c cs =>
      by_cases hc : separator c = true
      · exact gap c cs hc (ih cs.length (by simp [← hlen]) cs rfl)
      · have hclean : (!separator c) = true := by simpa using hc
        have hsplit := List.takeWhile_append_dropWhile (p := fun c => !separator c) (l := c :: cs)
        rw [← hsplit]
        apply word
        · simp [hclean]
        · intro d hd
          simpa using List.mem_takeWhile_imp hd
        · intro d hd
          have hhead := List.head?_dropWhile_not (fun c => !separator c) (c :: cs)
          rw [List.head?_eq_getElem?, hd] at hhead
          simpa using hhead
        · refine ih _ ?_ _ rfl
          rw [List.dropWhile_cons, if_pos hclean, ← hlen, List.length_cons]
          exact Nat.lt_succ_of_le (List.length_dropWhile_le _ _)

/-- What a text is cut into are its maximal runs. -/
theorem hasRuns_runs (cs : List Char) : HasRuns separator cs (runs separator cs) := by
  induction cs using words_induction separator with
  | nil => exact ⟨[], List.Pairwise.nil, .nil, fun start => by simp [not_isRun_nil]⟩
  | gap c cs hc ih =>
    obtain ⟨starts, hascend, hruns, hall⟩ := ih
    rw [runs_cons hc]
    refine ⟨starts.map (· + 1), ?_, ?_, fun start => ?_⟩
    · exact List.pairwise_map.mpr (hascend.imp Nat.succ_lt_succ)
    · rw [List.forall₂_map_left_iff]
      exact hruns.imp fun s run h => (isRun_cons hc).mpr ⟨s, rfl, h⟩
    · simp only [List.mem_map, hall, isRun_cons hc]
      tauto
  | word word rest filled clean ends ih =>
    obtain ⟨starts, hascend, hruns, hall⟩ := ih
    have hrun {start : Nat} {run : List Char} : IsRun separator (word ++ rest) start run ↔
        (start = 0 ∧ run = word) ∨ ∃ s, word.length + s = start ∧ IsRun separator rest s run :=
      isRun_append filled clean ends
    rw [runs_append filled clean ends]
    refine ⟨0 :: starts.map (word.length + ·), ?_, .cons (hrun.mpr (.inl ⟨rfl, rfl⟩)) ?_,
      fun start => ?_⟩
    · refine List.pairwise_cons.mpr ⟨List.forall_mem_map.mpr fun s _ => ?_, ?_⟩
      · exact Nat.add_pos_left (List.length_pos_of_ne_nil filled) s
      · exact List.pairwise_map.mpr (hascend.imp fun h => Nat.add_lt_add_left h _)
    · rw [List.forall₂_map_left_iff]
      exact hruns.imp fun s run h => hrun.mpr (.inr ⟨s, rfl, h⟩)
    · simp only [List.mem_cons, List.mem_map, hall, hrun]
      constructor
      · rintro (rfl | ⟨s, ⟨run, h⟩, rfl⟩)
        · exact ⟨word, .inl ⟨rfl, rfl⟩⟩
        · exact ⟨run, .inr ⟨s, rfl, h⟩⟩
      · rintro ⟨run, ⟨rfl, -⟩ | ⟨s, rfl, h⟩⟩
        · exact .inl rfl
        · exact .inr ⟨s, ⟨run, h⟩, rfl⟩

/-- A text has one sequence of maximal runs. -/
theorem HasRuns.unique {rs rs' : List (List Char)} (h : HasRuns separator cs rs)
    (h' : HasRuns separator cs rs') : rs = rs' := by
  obtain ⟨starts, hascend, hruns, hall⟩ := h
  obtain ⟨starts', hascend', hruns', hall'⟩ := h'
  obtain rfl : starts = starts' :=
    hascend.eq_of_mem_iff hascend' fun start => (hall start).trans (hall' start).symm
  exact List.right_unique_forall₂' (fun _ _ _ h h' => h.unique h') hruns hruns'

theorem hasRuns_iff {rs : List (List Char)} : HasRuns separator cs rs ↔ rs = runs separator cs :=
  ⟨fun h => h.unique (hasRuns_runs cs), fun h => h ▸ hasRuns_runs cs⟩

/-! ## Ends that are cut off -/

theorem trimEnd_append (p : Char → Bool) (cs : List Char) (h : ∀ c ∈ rest, p c = true) :
    trimEnd p (cs ++ rest) = trimEnd p cs := by
  unfold trimEnd
  rw [List.reverse_append, List.dropWhile_append_of_pos (by simpa using h)]

theorem exists_trimEnd (p : Char → Bool) (cs : List Char) :
    ∃ rest, cs = trimEnd p cs ++ rest ∧ ∀ c ∈ rest, p c = true := by
  refine ⟨(cs.reverse.takeWhile p).reverse, ?_, fun c hc => ?_⟩
  · rw [trimEnd, ← List.reverse_append, List.takeWhile_append_dropWhile, List.reverse_reverse]
  · exact List.mem_takeWhile_imp (List.mem_reverse.mp hc)

end Text

namespace Normalizer

variable (n : Normalizer)

/-! ## The tokens of a line -/

/-- The runs that are no size words. -/
def operands (rs : List (List Char)) : List String :=
  (rs.map String.ofList).filter fun word => !n.dialect.keywords.contains word

/-- What is cut off the end of a line in front of the column or behind it holds no run. -/
theorem tokens_eq (raw : List Char) :
    n.tokens raw =
      (n.operands (Text.runs isSeparator (raw.drop n.dialect.column))).filterMap n.operand? := by
  obtain ⟨rest, hraw, hrest⟩ := Text.exists_trimEnd (fun c => c == '\r' || c == '\n') raw
  have hseparators : ∀ c ∈ rest, isSeparator c = true := by
    intro c hc
    have hreturn := hrest c hc
    rw [Bool.or_eq_true, beq_iff_eq, beq_iff_eq] at hreturn
    rcases hreturn with rfl | rfl <;> rfl
  have hruns : Text.runs isSeparator (raw.drop n.dialect.column) = Text.runs isSeparator
      ((Text.trimEnd (fun c => c == '\r' || c == '\n') raw).drop n.dialect.column) := by
    conv_lhs => rw [hraw, List.drop_append]
    exact Text.runs_append_separators _ fun c hc => hseparators c (List.mem_of_mem_drop hc)
  rw [hruns]
  unfold tokens instruction? operands
  rw [List.filterMap_filter]
  cases (Text.trimEnd (fun c => c == '\r' || c == '\n') raw).drop n.dialect.column with
  | nil => rfl
  | cons c cs =>
    refine List.filterMap_congr fun word _ => ?_
    by_cases hkeyword : word ∈ n.dialect.keywords <;> simp [hkeyword]

theorem exists_operand {word : String} (h : word ≠ "") : ∃ token, n.operand? word = some token :=
  ⟨_, if_neg h⟩

theorem ne_empty_of_mem_operands {cs : List Char} {word : String}
    (h : word ∈ n.operands (Text.runs isSeparator cs)) : word ≠ "" := by
  obtain ⟨run, hrun, rfl⟩ := List.mem_map.mp (List.mem_filter.mp h).1
  have hfilled := Text.ne_nil_of_mem_runs hrun
  simpa using hfilled

theorem forall₂_filterMap {words : List String} (h : ∀ word ∈ words, word ≠ "") :
    List.Forall₂ (fun word token => n.operand? word = some token) words
      (words.filterMap n.operand?) := by
  induction words with
  | nil => exact .nil
  | cons word words ih =>
    obtain ⟨hword, hwords⟩ := List.forall_mem_cons.mp h
    obtain ⟨token, htoken⟩ := n.exists_operand hword
    rw [List.filterMap_cons_some htoken]
    exact .cons htoken (ih hwords)

theorem line?_eq_ite (k : Nat) (raw : List Char) :
    n.line? k raw = if n.tokens raw = [] then none else some ⟨k, n.tokens raw⟩ := by
  unfold line?
  split <;> simp_all

end Normalizer

open Normalizer (isSeparator)

/-- Two lines that hold the same runs behind the column, between commas and white space of any kind,
have the same tokens: for each run that is no size word the token of that operand, in their order. A
line has no tokens just when it holds no such run. -/
theorem the_layout_never_reaches_the_tokens (n : Normalizer) {raw raw' : List Char}
    {rs : List (List Char)}
    (holds : Text.HasRuns isSeparator (raw.drop n.dialect.column) rs)
    (holds' : Text.HasRuns isSeparator (raw'.drop n.dialect.column) rs) :
    ∃ tokens,
      List.Forall₂ (fun word token => n.operand? word = some token) (n.operands rs) tokens ∧
      ∀ k, n.line? k raw = (if tokens = [] then none else some ⟨k, tokens⟩) ∧
        n.line? k raw' = if tokens = [] then none else some ⟨k, tokens⟩ := by
  obtain rfl := Text.hasRuns_iff.mp holds
  have hsame : n.tokens raw' = n.tokens raw := by
    rw [n.tokens_eq raw', ← Text.hasRuns_iff.mp holds', ← n.tokens_eq raw]
  refine ⟨n.tokens raw, ?_, fun k => ⟨n.line?_eq_ite k raw, ?_⟩⟩
  · rw [n.tokens_eq]
    exact n.forall₂_filterMap fun word hword => n.ne_empty_of_mem_operands hword
  · rw [n.line?_eq_ite, hsame]

/-- One instruction in two layouts: behind addresses of four characters, one of them not in ASCII,
with separators of many kinds, and with carriage returns at the end. -/
theorem two_layouts_of_one_instruction :
    let n : Normalizer := ⟨Rules.default, ⟨4, 6, ["DWORD", "PTR"]⟩⟩
    let raw := "40:,movl eax,DWORD PTR [rbp-8]".toList
    let raw' := "é日\t \u3000\tmovl\u00a0,eax DWORD\tPTR,,[rbp-8] \r\r".toList
    let rs := ["movl", "eax", "DWORD", "PTR", "[rbp-8]"].map String.toList
    Text.HasRuns isSeparator (raw.drop n.dialect.column) rs ∧
      Text.HasRuns isSeparator (raw'.drop n.dialect.column) rs ∧
      n.line? 7 raw = some ⟨7, ["mov", "REGSEG", "MEM"]⟩ ∧
      n.line? 9 raw' = some ⟨9, ["mov", "REGSEG", "MEM"]⟩ := by
  intro n raw raw' rs
  have holds : Text.HasRuns isSeparator (raw.drop n.dialect.column) rs :=
    Text.hasRuns_iff.mpr (by decide)
  have holds' : Text.HasRuns isSeparator (raw'.drop n.dialect.column) rs :=
    Text.hasRuns_iff.mpr (by decide)
  obtain ⟨tokens, hread, hlines⟩ := the_layout_never_reaches_the_tokens n holds holds'
  have hoperands : n.operands rs = ["movl", "eax", "[rbp-8]"] := by decide
  have htokens : tokens = ["mov", "REGSEG", "MEM"] := by
    rw [hoperands] at hread
    refine List.right_unique_forall₂' (fun _ _ _ h h' => Option.some.inj (h.symm.trans h')) hread ?_
    exact .cons (by decide) (.cons (by decide) (.cons (by decide) .nil))
  subst htokens
  exact ⟨holds, holds', (hlines 7).1, (hlines 9).2⟩

end Lookalike
