-- A listing by functions. Its raw lines fall into blocks, each a header with
-- the lines behind it up to the next header, and the walk over the lines gives
-- one stream for each block that holds an instruction.
import Mathlib.Data.List.TakeWhile
import Lookalike.Listing.Stream

namespace Lookalike

/-! ## Separators only -/

theorem Text.splitOnP_separators {separator : Char → Bool} {cs : List Char}
    (h : ∀ c ∈ cs, separator c = true) :
    cs.splitOnP separator = List.replicate (cs.length + 1) [] := by
  induction cs with
  | nil => rfl
  | cons c cs ih =>
    obtain ⟨hc, hcs⟩ := List.forall_mem_cons.mp h
    rw [List.splitOnP_cons_eq_if_modifyHead, if_pos hc, ih hcs]
    rfl

theorem Text.runs_separators {separator : Char → Bool} {cs : List Char}
    (h : ∀ c ∈ cs, separator c = true) : runs separator cs = [] := by
  unfold runs
  rw [splitOnP_separators h]
  simp

/-! ## Numbered lines -/

namespace Normalizer

variable (n : Normalizer)

theorem body_eq (text : List Char) :
    n.body text =
      ((Text.lines text).drop n.dialect.headerLines).zipIdx n.dialect.headerLines := by
  unfold body
  apply List.ext_getElem?
  intro i
  rw [List.getElem?_drop, List.getElem?_zipIdx, List.getElem?_zipIdx, List.getElem?_drop,
    Nat.zero_add]

/-- Behind the banner each raw line stands with its number in the listing. -/
theorem mem_body_iff {text raw : List Char} {k : Nat} :
    (raw, k) ∈ n.body text ↔ n.dialect.headerLines ≤ k ∧ (Text.lines text)[k]? = some raw := by
  rw [body_eq, List.mk_mem_zipIdx_iff_le_and_getElem?_sub]
  apply and_congr_right
  intro hle
  rw [List.getElem?_drop, Nat.add_sub_cancel' hle]

/-- Some lines of a listing, with ascending numbers. -/
def Numbered (raws : List RawLine) : Prop := raws.Pairwise fun a b => a.2 < b.2

theorem numbered_body (text : List Char) : Numbered (n.body text) := by
  rw [body_eq]
  have h := List.pairwise_lt_range' (s := n.dialect.headerLines)
    (n := ((Text.lines text).drop n.dialect.headerLines).length) 1
  rw [← List.zipIdx_map_snd] at h
  exact List.pairwise_map.mp h

/-! ## Lines that are kept -/

/-- The token lines of raw lines. -/
def kept (raws : List RawLine) : List Line := raws.filterMap fun raw => n.line? raw.2 raw.1

theorem kept_append (as bs : List RawLine) : n.kept (as ++ bs) = n.kept as ++ n.kept bs :=
  List.filterMap_append

theorem number_of_line? {k : Nat} {raw : List Char} {l : Line} (h : n.line? k raw = some l) :
    l.number = k := by
  unfold line? at h
  split at h
  · cases h
  · cases h
    rfl

theorem mem_of_mem_instruction? {raw cs : List Char} (h : n.instruction? raw = some cs) {c : Char}
    (hc : c ∈ cs) : c ∈ raw := by
  unfold instruction? at h
  split at h
  · cases h
  · cases h
    have htrimmed := List.mem_reverse.mp (List.mem_of_mem_drop hc)
    exact List.mem_reverse.mp ((List.dropWhile_sublist _).subset htrimmed)

theorem line?_blank {raw : List Char} (h : Text.isBlankLine raw = true) (k : Nat) :
    n.line? k raw = none := by
  have htokens : n.tokens raw = [] := by
    unfold tokens
    split
    · rfl
    · rename_i cs hcs
      have hblank : ∀ c ∈ cs, isSeparator c = true := by
        intro c hc
        have hall := List.all_eq_true.mp h c (n.mem_of_mem_instruction? hcs hc)
        simp [isSeparator, hall]
      rw [Text.runs_separators hblank]
      rfl
  unfold line?
  rw [htokens]

theorem mem_kept {raws : List RawLine} {l : Line} (h : l ∈ n.kept raws) :
    ∃ raw, (raw, l.number) ∈ raws ∧ n.line? l.number raw = some l := by
  obtain ⟨⟨raw, k⟩, hraw, hl⟩ := List.mem_filterMap.mp h
  obtain rfl := n.number_of_line? hl
  exact ⟨raw, hraw, hl⟩

theorem kept_ascend {raws : List RawLine} (h : Numbered raws) :
    (n.kept raws).Pairwise fun a b => a.number < b.number := by
  apply List.pairwise_filterMap.mpr
  apply h.imp
  intro a b hlt l hl m hm
  rw [n.number_of_line? hl, n.number_of_line? hm]
  exact hlt

end Normalizer

/-! ## Blocks -/

/-- A header and the lines behind it, up to the next header. -/
structure Block where
  header : RawLine
  inside : List RawLine

/-- The lines up to the next header. -/
def untilHeader (raws : List RawLine) : List RawLine := raws.takeWhile fun raw => !isHeader raw.1

theorem untilHeader_header {raw : RawLine} (h : isHeader raw.1 = true) (rest : List RawLine) :
    untilHeader (raw :: rest) = [] := by
  unfold untilHeader
  rw [List.takeWhile_cons_of_neg (by simp [h])]

theorem untilHeader_other {raw : RawLine} (h : isHeader raw.1 = false) (rest : List RawLine) :
    untilHeader (raw :: rest) = raw :: untilHeader rest := by
  unfold untilHeader
  rw [List.takeWhile_cons_of_pos (by simp [h])]

/-- The blocks of raw lines; lines before the first header are in none. -/
def blocks : List RawLine → List Block
  | [] => []
  | raw :: rest => if isHeader raw.1 then ⟨raw, untilHeader rest⟩ :: blocks rest else blocks rest

/-- Where a block stands: its header, the lines behind it, none of them a header, and the rest. -/
theorem mem_blocks {raws : List RawLine} {b : Block} (h : b ∈ blocks raws) :
    isHeader b.header.1 = true ∧ (∀ raw ∈ b.inside, isHeader raw.1 = false) ∧
      ∃ before behind, raws = before ++ b.header :: (b.inside ++ behind) := by
  induction raws with
  | nil => cases h
  | cons raw rest ih =>
    rw [blocks] at h
    by_cases hheader : isHeader raw.1 = true
    · rw [if_pos hheader, List.mem_cons] at h
      rcases h with rfl | h
      · refine ⟨hheader, fun other hother => ?_, [], rest.dropWhile fun raw => !isHeader raw.1, ?_⟩
        · simpa using List.mem_takeWhile_imp hother
        · rw [List.nil_append, untilHeader, List.takeWhile_append_dropWhile]
      · obtain ⟨hopens, hinside, before, behind, hraws⟩ := ih h
        exact ⟨hopens, hinside, raw :: before, behind, by rw [hraws, List.cons_append]⟩
    · rw [if_neg hheader] at h
      obtain ⟨hopens, hinside, before, behind, hraws⟩ := ih h
      exact ⟨hopens, hinside, raw :: before, behind, by rw [hraws, List.cons_append]⟩

theorem map_header_blocks (raws : List RawLine) :
    (blocks raws).map Block.header = raws.filter fun raw => isHeader raw.1 := by
  induction raws with
  | nil => rfl
  | cons raw rest ih =>
    rw [blocks, List.filter_cons]
    split_ifs
    · rw [List.map_cons, ih]
    · exact ih

/-- The stream of a block. -/
def Block.stream (n : Normalizer) (source : Path) (b : Block) : Stream :=
  ⟨⟨source, some (functionName b.header.1), b.header.2⟩, n.kept b.inside⟩

/-! ## The walk -/

theorem isBlankLine_header {raw : List Char} (h : isHeader raw = true) :
    Text.isBlankLine raw = false := by
  cases raw with
  | nil => cases h
  | cons c cs =>
    have hc : Text.isBlank c = false := by simpa [isHeader] using h
    rw [Text.isBlankLine, List.all_cons, hc, Bool.false_and]

/-- A function whose lines are held back to front gives its stream, unless it has no lines. -/
theorem finished_held (id : StreamId) (lines : List Line) :
    finished (some ⟨id, lines.reverse⟩) =
      [(⟨id, lines⟩ : Stream)].filter fun s => !s.lines.isEmpty := by
  unfold finished
  cases lines <;> simp

/-- Lines that are no headers go to the open function. -/
def hold (n : Normalizer) (raws : List RawLine) (s : Stream) : Stream :=
  { s with lines := (n.kept raws).reverse ++ s.lines }

theorem hold_nil (n : Normalizer) (s : Stream) : hold n [] s = s := rfl

theorem hold_cons (n : Normalizer) (raw : RawLine) (raws : List RawLine) (s : Stream) :
    hold n (raw :: raws) s = hold n raws (hold n [raw] s) := by
  have hsplit : n.kept (raw :: raws) = n.kept [raw] ++ n.kept raws := n.kept_append [raw] raws
  simp only [hold, hsplit, List.reverse_append, List.append_assoc]

section

variable (n : Normalizer) (source : Path) (open_ : Option Stream) {raw : RawLine}
  (rest : List RawLine)

/-- A header closes the open function and opens its own. -/
theorem cutFunctions_header (h : isHeader raw.1 = true) :
    cutFunctions n source open_ (raw :: rest) = finished open_ ++
      cutFunctions n source (some ⟨⟨source, some (functionName raw.1), raw.2⟩, []⟩) rest := by
  have hsome := isBlankLine_header h
  cases open_ <;> simp [cutFunctions, hsome, h]

/-- Any other line goes to the open function, if there is one. -/
theorem cutFunctions_other (h : isHeader raw.1 = false) :
    cutFunctions n source open_ (raw :: rest) =
      cutFunctions n source (open_.map (hold n [raw])) rest := by
  by_cases hblank : Text.isBlankLine raw.1 = true
  · have hnone := n.line?_blank hblank raw.2
    cases open_ <;> simp [cutFunctions, hblank, hold, Normalizer.kept, hnone]
  · cases hline : n.line? raw.2 raw.1 <;>
      cases open_ <;> simp [cutFunctions, hblank, h, hold, Normalizer.kept, hline]

end

/-- The streams of a walk: first that of the open function, which gets the lines up to the next
header, and then one for each block that holds an instruction. -/
theorem cutFunctions_eq (n : Normalizer) (source : Path) (open_ : Option Stream)
    (raws : List RawLine) :
    cutFunctions n source open_ raws =
      finished (open_.map (hold n (untilHeader raws))) ++
        ((blocks raws).map (Block.stream n source)).filter fun s => !s.lines.isEmpty := by
  induction raws generalizing open_ with
  | nil => cases open_ <;> simp [cutFunctions, blocks, untilHeader, hold_nil]
  | cons raw rest ih =>
    cases hheader : isHeader raw.1 with
    | true =>
      have hopen : open_.map (hold n []) = open_ := by cases open_ <;> rfl
      have hnew : hold n (untilHeader rest) ⟨⟨source, some (functionName raw.1), raw.2⟩, []⟩ =
          ⟨⟨source, some (functionName raw.1), raw.2⟩, (n.kept (untilHeader rest)).reverse⟩ := by
        rw [hold, List.append_nil]
      have hblocks : ((blocks (raw :: rest)).map (Block.stream n source)) =
          [⟨⟨source, some (functionName raw.1), raw.2⟩, n.kept (untilHeader rest)⟩] ++
            (blocks rest).map (Block.stream n source) := by
        rw [blocks, if_pos hheader, List.map_cons]
        rfl
      rw [cutFunctions_header n source open_ rest hheader, ih, Option.map_some, hnew,
        finished_held, untilHeader_header hheader, hopen, hblocks, List.filter_append]
    | false =>
      have hopen : (open_.map (hold n [raw])).map (hold n (untilHeader rest)) =
          open_.map (hold n (raw :: untilHeader rest)) := by
        cases open_ with
        | none => rfl
        | some s => rw [Option.map_some, Option.map_some, Option.map_some, ← hold_cons]
      rw [cutFunctions_other n source open_ rest hheader, ih, untilHeader_other hheader, hopen,
        blocks, if_neg (by simp [hheader])]

/-! ## The streams of a listing -/

namespace Segmentation

variable {n : Normalizer} {source : Path} {text : List Char} {s : Stream}

/-- Cut by functions a listing has one stream for each block that holds an instruction. -/
theorem perFunction_streams_eq (n : Normalizer) (source : Path) (text : List Char) :
    perFunction.streams n source text =
      ((blocks (n.body text)).map (Block.stream n source)).filter fun s => !s.lines.isEmpty := by
  rw [streams, cutFunctions_eq]
  rfl

theorem mem_perFunction (h : s ∈ perFunction.streams n source text) :
    ∃ b ∈ blocks (n.body text), s = b.stream n source := by
  rw [perFunction_streams_eq] at h
  obtain ⟨b, hb, rfl⟩ := List.mem_map.mp (List.mem_filter.mp h).1
  exact ⟨b, hb, rfl⟩

/-- However a listing is cut, a stream names the listing, and its lines are those of some of the raw
lines, in their order. -/
theorem mem_streams {mode : Segmentation} (h : s ∈ mode.streams n source text) :
    s.id.source = source ∧ ∃ raws, raws.Sublist (n.body text) ∧ s.lines = n.kept raws := by
  cases mode with
  | wholeFile =>
    obtain rfl := List.mem_singleton.mp h
    exact ⟨rfl, n.body text, List.Sublist.refl _, rfl⟩
  | perFunction =>
    obtain ⟨b, hb, rfl⟩ := mem_perFunction h
    obtain ⟨-, -, before, behind, hbody⟩ := mem_blocks hb
    refine ⟨rfl, b.inside, ?_, rfl⟩
    rw [hbody]
    exact (((List.sublist_append_left _ behind).cons _).trans (List.sublist_append_right before _))

/-- The streams of a listing start at ascending lines. -/
theorem starts_ascend (mode : Segmentation) (n : Normalizer) (source : Path) (text : List Char) :
    (mode.streams n source text).Pairwise fun a b => a.id.startLine < b.id.startLine := by
  cases mode with
  | wholeFile => exact List.pairwise_singleton _ _
  | perFunction =>
    rw [perFunction_streams_eq]
    apply List.Pairwise.filter
    have h := (n.numbered_body text).filter fun raw => isHeader raw.1
    rw [← map_header_blocks, List.pairwise_map] at h
    exact List.pairwise_map.mpr h

end Segmentation

end Lookalike
