-- The functions of a listing, line by line. Each header that is followed by an
-- instruction has a stream of its own, and its lines are the indented ones for
-- which it is the last header. So the streams share the lines behind the first
-- header among them, and no line is lost or told twice.
import Mathlib.Data.List.Basic
import Lookalike.Proofs.FunctionBlocks

namespace Lookalike

/-! ## Lines behind a header -/

/-- A line that is neither blank nor a header. -/
def isIndented (raw : List Char) : Bool := !Text.isBlankLine raw && !isHeader raw

/-- A line stands behind a header and in front of the next one. -/
def Follows (raws : List RawLine) (head raw : RawLine) : Prop :=
  head.2 < raw.2 ∧
    ∀ other ∈ raws, isHeader other.1 = true → head.2 < other.2 → raw.2 < other.2

instance (raws : List RawLine) (head raw : RawLine) : Decidable (Follows raws head raw) :=
  inferInstanceAs (Decidable (_ ∧ ∀ other ∈ raws, _))

/-- A line stands behind some header. -/
def Headed (raws : List RawLine) (raw : RawLine) : Prop :=
  ∃ head ∈ raws, isHeader head.1 = true ∧ head.2 < raw.2

instance (raws : List RawLine) (raw : RawLine) : Decidable (Headed raws raw) :=
  inferInstanceAs (Decidable (∃ head ∈ raws, _))

theorem follows_cons {first head raw : RawLine} {raws : List RawLine} (h : first.2 ≤ head.2) :
    Follows (first :: raws) head raw ↔ Follows raws head raw := by
  unfold Follows
  rw [List.forall_mem_cons]
  refine and_congr_right fun _ => ⟨fun hall => hall.2, fun hall => ⟨fun _ hlt => ?_, hall⟩⟩
  omega

open Normalizer (Numbered)

/-- The lines up to the next header are those that every header stands behind. -/
theorem untilHeader_eq {raws : List RawLine} (h : Numbered raws) :
    untilHeader raws =
      raws.filter fun raw => ∀ other ∈ raws, isHeader other.1 = true → raw.2 < other.2 := by
  induction raws with
  | nil => rfl
  | cons first raws ih =>
    obtain ⟨hfirst, hrest⟩ := List.pairwise_cons.mp h
    cases hheader : isHeader first.1 with
    | true =>
      rw [untilHeader_header hheader, eq_comm, List.filter_eq_nil_iff]
      intro raw hraw
      simp only [decide_eq_true_eq, List.forall_mem_cons, not_and]
      intro hlt
      have hle : first.2 ≤ raw.2 := by
        rcases List.mem_cons.mp hraw with rfl | hraw
        · exact Nat.le_refl _
        · exact Nat.le_of_lt (hfirst raw hraw)
      have := hlt hheader
      omega
    | false =>
      have hall : ∀ other ∈ first :: raws, isHeader other.1 = true → first.2 < other.2 := by
        simpa [hheader] using fun a b hab _ => hfirst (a, b) hab
      rw [untilHeader_other hheader, List.filter_cons_of_pos (by simpa using hall), ih hrest]
      refine congrArg _ (List.filter_congr fun raw _ => ?_)
      simp [hheader]

theorem filter_follows_cons {first head : RawLine} {raws : List RawLine}
    (h : first.2 ≤ head.2) :
    ((first :: raws).filter fun raw => Follows (first :: raws) head raw) =
      raws.filter fun raw => Follows raws head raw := by
  have hfirst : ¬ Follows (first :: raws) head first := fun hf => by
    have := hf.1
    omega
  rw [List.filter_cons_of_neg (by simpa using hfirst)]
  exact List.filter_congr fun raw _ => decide_eq_decide.mpr (follows_cons h)

theorem filter_follows_first {first : RawLine} {raws : List RawLine}
    (h : Numbered (first :: raws)) :
    ((first :: raws).filter fun raw => Follows (first :: raws) first raw) = untilHeader raws := by
  obtain ⟨hfirst, hrest⟩ := List.pairwise_cons.mp h
  rw [filter_follows_cons (Nat.le_refl _), untilHeader_eq hrest]
  refine List.filter_congr fun raw hraw => decide_eq_decide.mpr ⟨fun hf other hother hheader => ?_,
    fun hall => ⟨hfirst raw hraw, fun other hother hheader _ => hall other hother hheader⟩⟩
  exact hf.2 other hother hheader (hfirst other hother)

/-- Each header has a block, with the lines that follow it. -/
theorem blocks_eq {raws : List RawLine} (h : Numbered raws) :
    blocks raws = (raws.filter fun raw => isHeader raw.1).map fun head =>
      ⟨head, raws.filter fun raw => Follows raws head raw⟩ := by
  induction raws with
  | nil => rfl
  | cons first raws ih =>
    obtain ⟨hfirst, hrest⟩ := List.pairwise_cons.mp h
    have hlater : ((raws.filter fun raw => isHeader raw.1).map fun head =>
        (⟨head, (first :: raws).filter fun raw => Follows (first :: raws) head raw⟩ : Block)) =
        blocks raws := by
      rw [ih hrest]
      refine List.map_congr_left fun head hhead => ?_
      have hlt := hfirst head (List.mem_filter.mp hhead).1
      rw [filter_follows_cons (Nat.le_of_lt hlt)]
    cases hheader : isHeader first.1 with
    | true =>
      rw [blocks, if_pos hheader, List.filter_cons, if_pos hheader, List.map_cons, hlater,
        filter_follows_first h]
    | false =>
      rw [blocks, if_neg (by simp [hheader]), List.filter_cons_of_neg (by simp [hheader]), hlater]

/-! ## All blocks -/

/-- The blocks and the lines in front of them are all lines but the headers. -/
theorem untilHeader_append_blocks (raws : List RawLine) :
    untilHeader raws ++ (blocks raws).flatMap Block.inside =
      raws.filter fun raw => !isHeader raw.1 := by
  induction raws with
  | nil => rfl
  | cons first raws ih =>
    cases hheader : isHeader first.1 with
    | true =>
      rw [untilHeader_header hheader, blocks, if_pos hheader, List.flatMap_cons, List.nil_append,
        List.filter_cons_of_neg (by simp [hheader]), ih]
    | false =>
      rw [untilHeader_other hheader, blocks, if_neg (by simp [hheader]),
        List.filter_cons_of_pos (by simp [hheader]), List.cons_append, ih]

theorem headed_cons {first raw : RawLine} {raws : List RawLine} (h : isHeader first.1 = false) :
    Headed raws raw ↔ Headed (first :: raws) raw := by
  unfold Headed
  rw [List.exists_mem_cons_iff, h]
  simp

/-- The lines of the blocks are those that stand behind some header, the headers left out. -/
theorem flatMap_inside {raws : List RawLine} (h : Numbered raws) :
    (blocks raws).flatMap Block.inside =
      raws.filter fun raw => !isHeader raw.1 && Headed raws raw := by
  induction raws with
  | nil => rfl
  | cons first raws ih =>
    obtain ⟨hfirst, hrest⟩ := List.pairwise_cons.mp h
    cases hheader : isHeader first.1 with
    | true =>
      have hheaded : ∀ raw ∈ raws, Headed (first :: raws) raw := fun raw hraw =>
        ⟨first, List.mem_cons_self, hheader, hfirst raw hraw⟩
      rw [blocks, if_pos hheader, List.flatMap_cons, untilHeader_append_blocks,
        List.filter_cons_of_neg (by simp [hheader])]
      exact List.filter_congr fun raw hraw => by simp [hheaded raw hraw]
    | false =>
      have hnot : ¬ Headed (first :: raws) first := by
        rintro ⟨head, hhead, hopens, hlt⟩
        rcases List.mem_cons.mp hhead with rfl | hhead
        · omega
        · have := hfirst head hhead
          omega
      rw [blocks, if_neg (by simp [hheader]), List.filter_cons_of_neg (by simp [hnot]), ih hrest]
      refine List.filter_congr fun raw _ => ?_
      rw [decide_eq_decide.mpr (headed_cons hheader)]

/-! ## Kept lines -/

namespace Normalizer

variable (n : Normalizer)

theorem kept_filter_congr {raws : List RawLine} {p q : RawLine → Bool}
    (h : ∀ raw ∈ raws, n.line? raw.2 raw.1 ≠ none → p raw = q raw) :
    n.kept (raws.filter p) = n.kept (raws.filter q) := by
  unfold kept
  rw [List.filterMap_filter, List.filterMap_filter]
  refine List.filterMap_congr fun raw hraw => ?_
  by_cases hline : n.line? raw.2 raw.1 = none
  · simp [hline]
  · rw [h raw hraw hline]

/-- To choose among the token lines is to choose among their raw lines. -/
theorem filter_kept {raws : List RawLine} {p : RawLine → Bool} {q : Line → Bool}
    (h : ∀ raw ∈ raws, ∀ l, n.line? raw.2 raw.1 = some l → q l = p raw) :
    (n.kept raws).filter q = n.kept (raws.filter p) := by
  unfold kept
  rw [List.filter_filterMap, List.filterMap_filter]
  refine List.filterMap_congr fun raw hraw => ?_
  cases hline : n.line? raw.2 raw.1 with
  | none => simp
  | some l => simp [Option.filter, h raw hraw l hline]

theorem kept_flatMap {α : Type} (as : List α) (f : α → List RawLine) :
    n.kept (as.flatMap f) = as.flatMap fun a => n.kept (f a) := by
  induction as with
  | nil => rfl
  | cons a as ih => rw [List.flatMap_cons, List.flatMap_cons, kept_append, ih]

theorem isEmpty_kept {raws : List RawLine} :
    (n.kept raws).isEmpty = !raws.any fun raw => (n.line? raw.2 raw.1).isSome := by
  induction raws with
  | nil => rfl
  | cons raw raws ih =>
    cases hline : n.line? raw.2 raw.1 with
    | none => simpa [kept, hline] using ih
    | some l => simp [kept, hline]

theorem eq_of_number {text : List Char} {a b : RawLine} (ha : a ∈ n.body text)
    (hb : b ∈ n.body text) (h : a.2 = b.2) : a = b := by
  have hget : (Text.lines text)[a.2]? = some a.1 := (n.mem_body_iff.mp ha).2
  rw [h, (n.mem_body_iff.mp hb).2] at hget
  exact Prod.ext (Option.some.inj hget).symm h

end Normalizer

/-! ## The cut -/

/-- The indented lines between a header and the next one. -/
def between (raws : List RawLine) (head : RawLine) : List RawLine :=
  raws.filter fun raw => isIndented raw.1 && Follows raws head raw

theorem Follows.not_header {raws : List RawLine} {head raw : RawLine}
    (h : Follows raws head raw) (hraw : raw ∈ raws) : isHeader raw.1 = false := by
  by_contra hheader
  exact Nat.lt_irrefl _ (h.2 raw hraw (by simpa using hheader) h.1)

section

variable (n : Normalizer)

theorem isIndented_of_line? {raw : RawLine} (h : n.line? raw.2 raw.1 ≠ none) :
    isIndented raw.1 = !isHeader raw.1 := by
  have hblank : Text.isBlankLine raw.1 = false := by
    by_contra hblank
    exact h (n.line?_blank (by simpa using hblank) raw.2)
  rw [isIndented, hblank]
  rfl

/-- The token lines of a block come from the indented lines behind its header. -/
theorem kept_between (raws : List RawLine) (head : RawLine) :
    n.kept (raws.filter fun raw => Follows raws head raw) = n.kept (between raws head) := by
  refine n.kept_filter_congr fun raw hraw hline => ?_
  by_cases hfollows : Follows raws head raw
  · simp [hfollows, isIndented_of_line? n hline, hfollows.not_header hraw]
  · simp [hfollows]

/-- A stream for a header and the indented lines behind it. -/
def functionStream (source : Path) (raws : List RawLine) (head : RawLine) : Stream :=
  ⟨⟨source, some (functionName head.1), head.2⟩, n.kept (between raws head)⟩

/-- A header has its own stream if an instruction follows it. -/
theorem perFunction_streams_eq_map (source : Path) (text : List Char) :
    Segmentation.perFunction.streams n source text =
      ((n.body text).filter fun head => isHeader head.1 &&
        (between (n.body text) head).any fun raw => (n.line? raw.2 raw.1).isSome).map
          (functionStream n source (n.body text)) := by
  have hblocks : (blocks (n.body text)).map (Block.stream n source) =
      ((n.body text).filter fun raw => isHeader raw.1).map
        (functionStream n source (n.body text)) := by
    rw [blocks_eq (n.numbered_body text), List.map_map]
    refine List.map_congr_left fun head _ => ?_
    simp only [Function.comp_apply, Block.stream, functionStream, kept_between]
  rw [Segmentation.perFunction_streams_eq, hblocks, List.filter_map, List.filter_filter]
  refine congrArg _ (List.filter_congr fun head _ => ?_)
  simp only [Function.comp_apply, functionStream, n.isEmpty_kept, Bool.not_not]
  rw [Bool.and_comm]

theorem flatMap_filter_lines (streams : List Stream) :
    (streams.filter fun s => !s.lines.isEmpty).flatMap Stream.lines =
      streams.flatMap Stream.lines := by
  have hmap := List.filter_map (f := Stream.lines) (p := fun ls => !ls.isEmpty) (l := streams)
  rw [List.flatMap_def, List.flatMap_def, ← List.flatten_filter_not_isEmpty (L := streams.map _),
    hmap]
  rfl

theorem flatMap_perFunction (source : Path) (text : List Char) :
    (Segmentation.perFunction.streams n source text).flatMap Stream.lines =
      n.kept ((n.body text).filter fun raw => isIndented raw.1 && Headed (n.body text) raw) := by
  have hlines : (Segmentation.perFunction.streams n source text).flatMap Stream.lines =
      (blocks (n.body text)).flatMap fun b => n.kept b.inside := by
    rw [Segmentation.perFunction_streams_eq, flatMap_filter_lines, List.flatMap_map]
    rfl
  rw [hlines, ← n.kept_flatMap, flatMap_inside (n.numbered_body text)]
  refine n.kept_filter_congr fun raw _ hline => ?_
  rw [isIndented_of_line? n hline]

/-- The lines of all functions are those lines of the listing that are indented and stand behind
some header. -/
theorem flatMap_perFunction_eq_filter (source : Path) (text : List Char) :
    (Segmentation.perFunction.streams n source text).flatMap Stream.lines =
      (wholeStream n source text).lines.filter fun l =>
        ∃ raw ∈ n.body text, raw.2 = l.number ∧ isIndented raw.1 = true ∧
          Headed (n.body text) raw := by
  rw [flatMap_perFunction, eq_comm]
  refine n.filter_kept fun raw hraw l hline => ?_
  rw [Bool.eq_iff_iff, decide_eq_true_iff, Bool.and_eq_true, decide_eq_true_iff,
    n.number_of_line? hline]
  constructor
  · rintro ⟨other, hother, hnumber, hboth⟩
    obtain rfl := n.eq_of_number hother hraw hnumber
    exact hboth
  · exact fun hboth => ⟨raw, hraw, rfl, hboth⟩

theorem lines_ne_nil_of_mem {source : Path} {text : List Char} {s : Stream}
    (h : s ∈ Segmentation.perFunction.streams n source text) : s.lines ≠ [] := by
  rw [Segmentation.perFunction_streams_eq] at h
  simpa using (List.mem_filter.mp h).2

theorem StreamId.same_eq_false {a b : StreamId} (h : a.startLine < b.startLine) :
    a.same b = false := by
  have hne : (a.startLine == b.startLine) = false := beq_eq_false_iff_ne.mpr (Nat.ne_of_lt h)
  rw [same, hne, Bool.and_false]

end

/-- The streams of a listing by functions, against its stream as a whole. There is one for each
header behind the banner that an instruction follows before the next header, with its name, its
number and the indented lines between the two; together they hold every indented line of the listing
behind its first header, each of them once. -/
theorem functions_share_the_headed_lines (n : Normalizer) (source : Path) (text : List Char) :
    let body := n.body text
    let streams := Segmentation.perFunction.streams n source text
    (∀ raw k, (raw, k) ∈ body ↔
        n.dialect.headerLines ≤ k ∧ (Text.lines text)[k]? = some raw) ∧
      (body.Pairwise fun a b => a.2 < b.2) ∧
      streams =
        (body.filter fun head => isHeader head.1 &&
          (between body head).any fun raw => (n.line? raw.2 raw.1).isSome).map
            (fun head => ⟨⟨source, some (functionName head.1), head.2⟩,
              n.kept (between body head)⟩) ∧
      (∀ s ∈ streams, s.lines ≠ []) ∧
      (streams.Pairwise fun a b => a.id.startLine < b.id.startLine ∧ a.id.same b.id = false) ∧
      (∃ whole, Segmentation.wholeFile.streams n source text = [whole] ∧
        streams.flatMap Stream.lines = whole.lines.filter fun l =>
          ∃ raw ∈ body, raw.2 = l.number ∧ isIndented raw.1 = true ∧ Headed body raw) ∧
      (streams.flatMap Stream.lines).Pairwise fun a b => a.number < b.number := by
  have hascend := Segmentation.starts_ascend .perFunction n source text
  refine ⟨fun _ _ => n.mem_body_iff, n.numbered_body text, perFunction_streams_eq_map n source text,
    fun s => lines_ne_nil_of_mem n, hascend.imp fun hlt => ⟨hlt, StreamId.same_eq_false hlt⟩,
    ⟨wholeStream n source text, rfl, flatMap_perFunction_eq_filter n source text⟩, ?_⟩
  rw [flatMap_perFunction]
  exact n.kept_ascend ((n.numbered_body text).filter _)

/-- A function without instructions gives no stream, and the next one may have its name. -/
example :
    let n : Normalizer := ⟨⟨[], []⟩, ⟨2, 1, []⟩⟩
    let text := "  banner\n  nop\nf:\n\nf:\n  ret\n\n  nop\nf:\n  ret".toList
    (Segmentation.perFunction.streams n ⟨"a"⟩ text).map
      (fun s => (s.id.startLine, s.lines.map Line.number)) = [(4, [5, 7]), (8, [9])] := by
  decide

end Lookalike
