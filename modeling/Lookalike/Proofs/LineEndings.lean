-- Line endings. With a carriage return in front of each line feed a listing has the
-- same lines, up to one carriage return at their ends; and nothing that is read off a
-- line, be it blank, a header or an instruction, depends on carriage returns there.
import Lookalike.Proofs.OperandRuns

namespace Lookalike

namespace Text

/-! ## Carriage returns in front of line feeds -/

/-- The text with a carriage return put in front of each line feed. -/
def withReturns (cs : List Char) : List Char :=
  cs.flatMap fun c => if c = '\n' then ['\r', '\n'] else [c]

/-- A line as it is, or with one more carriage return at its end. -/
def UpToReturn (line other : List Char) : Prop := other = line ∨ other = line ++ ['\r']

theorem upToReturn_closeLine (back : List Char) : UpToReturn (closeLine back) back.reverse := by
  unfold closeLine
  split
  · exact .inr List.reverse_cons
  · exact .inl rfl

theorem cutLines_feed (back : List Char) (done : List (List Char)) (cs : List Char) :
    cutLines back done ('\n' :: cs) = cutLines [] (closeLine back :: done) cs := rfl

theorem cutLines_cons {c : Char} (hc : c ≠ '\n') (back : List Char) (done : List (List Char))
    (cs : List Char) : cutLines back done (c :: cs) = cutLines (c :: back) done cs := by
  rw [cutLines]
  exact hc

theorem cutLines_done (back : List Char) (done : List (List Char)) (cs : List Char) :
    cutLines back done cs = done.reverse ++ cutLines back [] cs := by
  induction cs generalizing back done with
  | nil =>
    rw [cutLines, cutLines]
    split_ifs <;> simp
  | cons c cs ih =>
    by_cases hc : c = '\n'
    · subst hc
      rw [cutLines_feed, cutLines_feed, ih [] (_ :: done), ih [] [_], List.reverse_cons,
        List.append_assoc]
      rfl
    · rw [cutLines_cons hc, cutLines_cons hc, ih]

theorem cutLines_withReturns (back cs : List Char) :
    List.Forall₂ UpToReturn (cutLines back [] cs) (cutLines back [] (withReturns cs)) := by
  induction cs generalizing back with
  | nil => exact List.forall₂_same.mpr fun line _ => .inl rfl
  | cons c cs ih =>
    by_cases hc : c = '\n'
    · subst hc
      -- the line loses the carriage return that was put behind it, and no other one
      have hreturns : withReturns ('\n' :: cs) = '\r' :: '\n' :: withReturns cs := rfl
      have hclose : closeLine ('\r' :: back) = back.reverse := rfl
      rw [hreturns, cutLines_feed, cutLines_cons (c := '\r') (by decide), cutLines_feed, hclose,
        cutLines_done [] [_], cutLines_done [] [_] (withReturns cs)]
      exact .cons (upToReturn_closeLine back) (ih [])
    · have hreturns : withReturns (c :: cs) = c :: withReturns cs := by simp [withReturns, hc]
      rw [hreturns, cutLines_cons hc, cutLines_cons hc]
      exact ih (c :: back)

/-- Line by line there is at most one more carriage return. -/
theorem lines_withReturns (cs : List Char) :
    List.Forall₂ UpToReturn (lines cs) (lines (withReturns cs)) := cutLines_withReturns [] cs

theorem trim_append (cs : List Char) {rest : List Char} (h : ∀ c ∈ rest, isBlank c = true) :
    trim (cs ++ rest) = trim cs := by
  unfold trim
  rw [List.dropWhile_append]
  split_ifs with hblank
  · rw [List.isEmpty_iff.mp hblank, List.dropWhile_eq_nil_iff.mpr h]
  · exact trimEnd_append isBlank _ h

end Text

/-! ## Lines that are read alike -/

/-- Raw lines of which the same is read: whether they are blank, whether they open a function and
which one, and their tokens. -/
structure ReadsAlike (n : Normalizer) (raw other : List Char) : Prop where
  blank : Text.isBlankLine other = Text.isBlankLine raw
  header : isHeader other = isHeader raw
  name : functionName other = functionName raw
  line : ∀ k, n.line? k other = n.line? k raw

theorem readsAlike_of_upToReturn (n : Normalizer) {raw other : List Char}
    (h : Text.UpToReturn raw other) : ReadsAlike n raw other := by
  rcases h with rfl | rfl
  · exact ⟨rfl, rfl, rfl, fun _ => rfl⟩
  · have hreturn : Text.isBlank '\r' = true := by decide
    refine ⟨?_, ?_, ?_, fun k => ?_⟩
    · simp [Text.isBlankLine, hreturn]
    · cases raw <;> simp [isHeader, hreturn]
    · unfold functionName
      rw [Text.trim_append raw (by simpa using hreturn)]
    · unfold Normalizer.line? Normalizer.tokens Normalizer.instruction?
      rw [Text.trimEnd_append _ raw (by simp)]

/-! ## Listings that are read alike -/

section

variable {n : Normalizer} {raws others : List RawLine}

/-- Raw lines that are read alike, each with the number of the other. -/
def AllAlike (n : Normalizer) (raws others : List RawLine) : Prop :=
  List.Forall₂ (fun raw other => ReadsAlike n raw.1 other.1 ∧ other.2 = raw.2) raws others

theorem allAlike_zipIdx {lines others : List (List Char)}
    (h : List.Forall₂ (ReadsAlike n) lines others) (k : Nat) :
    AllAlike n (lines.zipIdx k) (others.zipIdx k) := by
  induction h generalizing k with
  | nil => exact .nil
  | cons hline _ ih => exact .cons ⟨hline, rfl⟩ (ih (k + 1))

theorem AllAlike.kept_eq (h : AllAlike n raws others) : n.kept others = n.kept raws := by
  induction h with
  | nil => rfl
  | cons hraw _ ih =>
    obtain ⟨halike, hnumber⟩ := hraw
    unfold Normalizer.kept at ih ⊢
    rw [List.filterMap_cons, List.filterMap_cons, hnumber, halike.line, ih]

theorem AllAlike.cutFunctions_eq (h : AllAlike n raws others) (source : Path)
    (open_ : Option Stream) :
    cutFunctions n source open_ others = cutFunctions n source open_ raws := by
  induction h generalizing open_ with
  | nil => rfl
  | @cons raw other raws others hraw _ ih =>
    obtain ⟨halike, hnumber⟩ := hraw
    cases hheader : isHeader raw.1 with
    | true =>
      rw [cutFunctions_header n source open_ raws hheader,
        cutFunctions_header n source open_ others (halike.header.trans hheader), hnumber,
        halike.name, ih]
    | false =>
      have hheld : hold n [other] = hold n [raw] := by
        funext s
        unfold hold
        rw [AllAlike.kept_eq (.cons ⟨halike, hnumber⟩ .nil)]
      rw [cutFunctions_other n source open_ raws hheader,
        cutFunctions_other n source open_ others (halike.header.trans hheader), hheld, ih]

/-- Listings whose lines are read alike have the same streams. -/
theorem streams_eq_of_readsAlike {text other : List Char}
    (h : List.Forall₂ (ReadsAlike n) (Text.lines text) (Text.lines other)) (mode : Segmentation)
    (source : Path) : mode.streams n source other = mode.streams n source text := by
  have hbody : AllAlike n (n.body text) (n.body other) := by
    rw [n.body_eq, n.body_eq]
    exact allAlike_zipIdx (List.forall₂_drop _ h) _
  cases mode with
  | wholeFile =>
    have hkept := hbody.kept_eq
    unfold Normalizer.kept at hkept
    unfold Segmentation.streams wholeStream
    rw [hkept]
  | perFunction => exact hbody.cutFunctions_eq source none

end

/-- A carriage return in front of each line feed changes no stream of a listing, however it is cut:
neither the names of the functions nor the numbers of the lines nor the tokens. -/
theorem line_endings_do_not_matter (mode : Segmentation) (n : Normalizer) (source : Path)
    (text : List Char) :
    mode.streams n source (Text.withReturns text) = mode.streams n source text :=
  streams_eq_of_readsAlike
    ((Text.lines_withReturns text).imp fun _ _ h => readsAlike_of_upToReturn n h) mode source

/-- Carriage returns that are there already stay without effect, and so do those of a last line
without a line feed. -/
example :
    let n : Normalizer := ⟨⟨[], []⟩, ⟨0, 0, []⟩⟩
    let text := "f:\r\r\n\r\n nop\n ret\r\r".toList
    Text.lines (Text.withReturns text) ≠ Text.lines text ∧
      (Segmentation.perFunction.streams n ⟨"a"⟩ (Text.withReturns text)).map
        (fun s => (s.id.function, s.lines)) =
          [(some "f", [⟨2, ["nop"]⟩, ⟨3, ["ret"]⟩])] := by
  decide

end Lookalike
