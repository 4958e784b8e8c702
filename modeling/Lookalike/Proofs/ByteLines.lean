-- Lines of bytes, and what is left of them when the end of a file is missing:
-- the lines in front stay what they were, and a line that was cut is either cut
-- between two characters or no text at all.
import Lookalike.Proofs.Encoding

namespace Lookalike.Text

/-! ## Texts cut between bytes -/

/-- The number of characters and broken pieces that were begun. -/
def Decoder.begun (d : Decoder) : Nat :=
  d.back.length + if d.pending = .start then 0 else 1

theorem begun_lead (back : List (Option Char)) (b : UInt8) :
    (Decoder.lead back b).begun = back.length + 1 := by
  unfold Decoder.lead Decoder.begun
  split_ifs <;> simp_all

theorem begun_step_start (back : List (Option Char)) (b : UInt8) :
    (Decoder.step ⟨.start, back⟩ b).begun = back.length + 1 := begun_lead back b

theorem begun_le_step (d : Decoder) (b : UInt8) : d.begun ≤ (d.step b).begun := by
  rcases d with ⟨_ | ⟨left, value, lo, hi⟩, back⟩
  · rw [begun_step_start]
    simp [Decoder.begun]
  · simp only [Decoder.step]
    split_ifs with hcontinues
    · split <;> simp [Decoder.begun]
    · rw [begun_lead]
      simp [Decoder.begun]

theorem begun_le_foldl (d : Decoder) (bs : Bytes) : d.begun ≤ (bs.foldl Decoder.step d).begun := by
  induction bs generalizing d with
  | nil => exact le_refl _
  | cons b bs ih => exact (begun_le_step d b).trans (ih _)

theorem begun_foldl_start (back : List (Option Char)) {bs : Bytes} (h : bs ≠ []) :
    back.length + 1 ≤ (bs.foldl Decoder.step ⟨.start, back⟩).begun := by
  obtain ⟨b, bs, rfl⟩ := List.exists_cons_of_ne_nil h
  rw [List.foldl_cons, ← begun_step_start back b]
  exact begun_le_foldl _ bs

theorem open_of_cut {c : Char} {p q : Bytes} (h : String.utf8EncodeChar c = p ++ q) (hp : p ≠ [])
    (hq : q ≠ []) (back : List (Option Char)) :
    (p.foldl Decoder.step ⟨.start, back⟩).pending ≠ .start := by
  intro hstart
  have hwhole := foldl_step_encodeChar c back
  rw [h, List.foldl_append] at hwhole
  have hfirst := begun_foldl_start back hp
  rcases hd : p.foldl Decoder.step ⟨.start, back⟩ with ⟨pending, back'⟩
  rw [hd] at hstart hfirst hwhole
  subst hstart
  have hsecond := begun_foldl_start back' hq
  -- both pieces would begin a character, but there is only one
  rw [hwhole] at hsecond
  simp [Decoder.begun] at hfirst hsecond
  omega

/-- The first bytes of a text are the bytes of its first characters, or end inside a character. -/
theorem cut_encoded {cs : List Char} {p q : Bytes} (h : p ++ q = cs.flatMap String.utf8EncodeChar)
    (back : List (Option Char)) :
    (∃ as bs, cs = as ++ bs ∧ p = as.flatMap String.utf8EncodeChar ∧
        q = bs.flatMap String.utf8EncodeChar) ∨
      (p.foldl Decoder.step ⟨.start, back⟩).pending ≠ .start := by
  induction cs generalizing p back with
  | nil =>
    obtain ⟨rfl, rfl⟩ := List.append_eq_nil_iff.mp h
    exact .inl ⟨[], [], rfl, rfl, rfl⟩
  | cons c cs ih =>
    rw [List.flatMap_cons] at h
    rcases List.append_eq_append_iff.mp h with ⟨more, hchar, hq⟩ | ⟨p', rfl, hrest⟩
    · rcases eq_or_ne p [] with rfl | hp
      · exact .inl ⟨[], c :: cs, rfl, rfl, h⟩
      · rcases eq_or_ne more [] with rfl | hmore
        · rw [List.append_nil] at hchar
          exact .inl ⟨[c], cs, rfl, by simp [hchar], hq⟩
        · exact .inr (open_of_cut hchar hp hmore back)
    · rcases ih hrest.symm (some c :: back) with ⟨as, bs, rfl, rfl, rfl⟩ | hopen
      · exact .inl ⟨c :: as, bs, rfl, rfl, rfl⟩
      · rw [List.foldl_append, foldl_step_encodeChar]
        exact .inr hopen

theorem decode?_open {bs : Bytes} (h : (bs.foldl Decoder.step ⟨.start, []⟩).pending ≠ .start) :
    decode? bs = none := by
  unfold decode? scan Decoder.finish
  split
  · rename_i hstart
    exact absurd hstart h
  · rw [List.reverse_cons, List.mapM_append]
    cases List.mapM id (bs.foldl Decoder.step ⟨.start, []⟩).back.reverse <;> rfl

/-- The first bytes of a text are read as its first characters, or not at all. -/
theorem decode?_cut {cs : List Char} {p q : Bytes}
    (h : p ++ q = cs.flatMap String.utf8EncodeChar) :
    decode? p = none ∨ ∃ as bs, cs = as ++ bs ∧ p = as.flatMap String.utf8EncodeChar ∧
      q = bs.flatMap String.utf8EncodeChar ∧ decode? p = some as := by
  rcases cut_encoded h [] with ⟨as, bs, hcs, rfl, hq⟩ | hopen
  · refine .inr ⟨as, bs, hcs, rfl, hq, ?_⟩
    have hread := decode?_encode (String.ofList as)
    rwa [encode, String.toList_ofList] at hread
  · exact .inl (decode?_open hopen)

/-! ## Lines -/

/-- Bytes that can stand on a line. -/
structure OnLine (l : Bytes) : Prop where
  no_feed : 0x0A ∉ l
  no_return : 0x0D ∉ l

theorem OnLine.left {p q : Bytes} (h : OnLine (p ++ q)) : OnLine p :=
  ⟨fun hp => h.no_feed (List.mem_append_left q hp),
    fun hp => h.no_return (List.mem_append_left q hp)⟩

theorem onLine_encoded {cs : List Char} (h : ∀ c ∈ cs, 0x20 ≤ c.toNat) :
    OnLine (cs.flatMap String.utf8EncodeChar) := by
  have hcontrol {b : UInt8} (hb : b < 0x20) : b ∉ cs.flatMap String.utf8EncodeChar := by
    intro hmem
    obtain ⟨c, hc, hbc⟩ := List.mem_flatMap.mp hmem
    have hlt : b.toNat < 0x20 := UInt8.lt_iff_toNat_lt.mp hb
    have hascii : b < 0x80 := UInt8.lt_iff_toNat_lt.mpr (hlt.trans (by decide))
    have hsame := toNat_of_mem_encodeChar hascii hbc
    have hlow := h c hc
    omega
  exact ⟨hcontrol (by decide), hcontrol (by decide)⟩

/-- Lines with a line feed behind each. -/
def joinLines (ls : List Bytes) : Bytes := ls.flatMap fun l => l ++ [0x0A]

theorem joinLines_cons (l : Bytes) (ls : List Bytes) :
    joinLines (l :: ls) = l ++ 0x0A :: joinLines ls := by
  simp [joinLines]

theorem cutByteLines_done (back : Bytes) (done : List Bytes) (bs : Bytes) :
    cutByteLines back done bs = done.reverse ++ cutByteLines back [] bs := by
  induction bs generalizing back done with
  | nil =>
    rw [cutByteLines, cutByteLines]
    split_ifs <;> simp
  | cons b bs ih =>
    rw [cutByteLines, cutByteLines]
    split
    · rw [ih [] (_ :: done), ih [] [_], List.reverse_cons, List.append_assoc]
      rfl
    · exact ih (b :: back) done

theorem cutByteLines_append {l : Bytes} (h : 0x0A ∉ l) (back bs : Bytes) :
    cutByteLines back [] (l ++ bs) = cutByteLines (l.reverse ++ back) [] bs := by
  induction l generalizing back with
  | nil => rfl
  | cons b l ih =>
    rw [List.mem_cons, not_or] at h
    rw [List.cons_append, cutByteLines, if_neg (by simpa using Ne.symm h.1), ih h.2,
      List.reverse_cons, List.append_assoc, List.singleton_append]

/-- A line without one carriage return at its end. -/
def withoutReturn (l : Bytes) : Bytes := if l.getLast? = some 0x0D then l.dropLast else l

theorem withoutReturn_onLine {l : Bytes} (h : OnLine l) : withoutReturn l = l :=
  if_neg fun hlast => h.no_return (List.mem_of_getLast? hlast)

/-- Bytes up to the first line feed are the first line. -/
theorem byteLines_feed {l : Bytes} (h : 0x0A ∉ l) (bs : Bytes) :
    byteLines (l ++ 0x0A :: bs) = withoutReturn l :: byteLines bs := by
  rw [byteLines, cutByteLines_append h [], List.append_nil, cutByteLines, if_pos (by decide),
    cutByteLines_done, List.head?_reverse, List.tail_reverse, withoutReturn]
  by_cases hreturn : l.getLast? = some 0x0D
  · rw [if_pos hreturn, if_pos (beq_iff_eq.mpr hreturn), List.reverse_reverse]
    rfl
  · rw [if_neg hreturn, if_neg (by simpa using hreturn), List.reverse_reverse]
    rfl

theorem byteLines_cons {l : Bytes} (h : OnLine l) (bs : Bytes) :
    byteLines (l ++ 0x0A :: bs) = l :: byteLines bs := by
  rw [byteLines_feed h.no_feed, withoutReturn_onLine h]

/-- A last line may be without its line feed. -/
theorem byteLines_last {l : Bytes} (h : OnLine l) (hne : l ≠ []) : byteLines l = [l] := by
  have hopen := cutByteLines_append h.no_feed [] []
  rw [List.append_nil, List.append_nil] at hopen
  rw [byteLines, hopen, cutByteLines, if_neg (by simpa using hne), List.reverse_reverse]
  rfl

theorem byteLines_joinLines {ls : List Bytes} (h : ∀ l ∈ ls, OnLine l) :
    byteLines (joinLines ls) = ls := by
  induction ls with
  | nil => rfl
  | cons l ls ih =>
    obtain ⟨hl, hls⟩ := List.forall_mem_cons.mp h
    rw [joinLines_cons, byteLines_cons hl, ih hls]

theorem byteLines_joinLines_feeds {ls : List Bytes} (h : ∀ l ∈ ls, 0x0A ∉ l) :
    byteLines (joinLines ls) = ls.map withoutReturn := by
  induction ls with
  | nil => rfl
  | cons l ls ih =>
    obtain ⟨hl, hls⟩ := List.forall_mem_cons.mp h
    rw [joinLines_cons, byteLines_feed hl, ih hls, List.map_cons]

/-! ## Texts on lines -/

/-- A character below U+0080 is found in the bytes of a text only where it stands. -/
theorem mem_of_mem_encoded {cs : List Char} {c : Char} {b : UInt8} (hb : b < 0x80)
    (hc : c.toNat = b.toNat) (h : b ∈ cs.flatMap String.utf8EncodeChar) : c ∈ cs := by
  obtain ⟨d, hd, hmem⟩ := List.mem_flatMap.mp h
  have hsame : d = c :=
    Char.ext (UInt32.toNat_inj.mp ((toNat_of_mem_encodeChar hb hmem).trans hc.symm))
  exact hsame ▸ hd

/-- A text that loses its last carriage return is the text in front of it. -/
theorem withoutReturn_encoded (cs : List Char) :
    ∃ as, as <+: cs ∧
      withoutReturn (cs.flatMap String.utf8EncodeChar) = as.flatMap String.utf8EncodeChar := by
  unfold withoutReturn
  split_ifs with hlast
  · rcases List.eq_nil_or_concat cs with rfl | ⟨as, c, rfl⟩
    · cases hlast
    · rw [List.concat_eq_append, List.flatMap_append, List.flatMap_singleton] at hlast ⊢
      have hne : String.utf8EncodeChar c ≠ [] := String.utf8EncodeChar_ne_nil
      rw [List.getLast?_append_of_ne_nil _ hne] at hlast
      have hreturn : c = '\r' := by
        have hmem : (0x0D : UInt8) ∈ [c].flatMap String.utf8EncodeChar := by
          simpa using List.mem_of_getLast? hlast
        have hc : '\r' ∈ [c] := mem_of_mem_encoded (by decide) rfl hmem
        exact (List.mem_singleton.mp hc).symm
      subst hreturn
      exact ⟨as, List.prefix_append _ _, List.dropLast_concat⟩
  · exact ⟨cs, List.prefix_rfl, rfl⟩

/-! ## Lines with a missing end -/

/-- What is left of lines when their end is missing: lines from the front, and the beginning of the
line that was cut, if one was. -/
inductive Short : List Bytes → List Bytes → Prop where
  | lost (l : Bytes) (ls : List Bytes) : Short (l :: ls) []
  | torn {p q : Bytes} (left : p ≠ []) (missing : q ≠ []) (ls : List Bytes) :
    Short ((p ++ q) :: ls) [p]
  | more (l : Bytes) {ls seen : List Bytes} (rest : Short ls seen) : Short (l :: ls) (l :: seen)

/-- A file is cut behind its first line or in it. -/
theorem cut_first_line {l cut rest behind : Bytes} (h : cut ++ rest = l ++ 0x0A :: behind) :
    (∃ cut', cut = l ++ 0x0A :: cut' ∧ cut' ++ rest = behind) ∨
      ∃ missing, l = cut ++ missing ∧ rest = missing ++ 0x0A :: behind := by
  rcases List.append_eq_append_iff.mp h with ⟨missing, hl, hrest⟩ | ⟨cut', rfl, hrest⟩
  · exact .inr ⟨missing, hl, hrest⟩
  · cases cut' with
    | nil => exact .inr ⟨[], by simp, hrest.symm⟩
    | cons b cut' =>
      obtain ⟨rfl, hbehind⟩ := List.cons.inj hrest
      exact .inl ⟨cut', rfl, hbehind.symm⟩

/-- Without its last bytes a file has short lines, unless only the last line feed is missing. -/
theorem byteLines_cut {ls : List Bytes} (h : ∀ l ∈ ls, OnLine l ∧ l ≠ []) {cut rest : Bytes}
    (hcut : cut ++ rest = joinLines ls) :
    ((rest = [] ∨ rest = [0x0A]) ∧ byteLines cut = ls) ∨
      ((rest ≠ [] ∧ rest ≠ [0x0A]) ∧ Short ls (byteLines cut)) := by
  induction ls generalizing cut with
  | nil =>
    obtain ⟨rfl, rfl⟩ := List.append_eq_nil_iff.mp hcut
    exact .inl ⟨.inl rfl, rfl⟩
  | cons l ls ih =>
    obtain ⟨⟨hl, hne⟩, hls⟩ := List.forall_mem_cons.mp h
    rw [joinLines_cons] at hcut
    rcases cut_first_line hcut with ⟨cut', rfl, hrest⟩ | ⟨missing, rfl, rfl⟩
    · rw [byteLines_cons hl]
      rcases ih hls hrest with ⟨hend, hlines⟩ | ⟨hmissing, hshort⟩
      · exact .inl ⟨hend, by rw [hlines]⟩
      · exact .inr ⟨hmissing, .more l hshort⟩
    · rcases eq_or_ne missing [] with rfl | hmissing
      · rw [List.append_nil] at hl hne ⊢
        rw [byteLines_last hl hne]
        cases ls with
        | nil => exact .inl ⟨.inr rfl, rfl⟩
        | cons l' ls =>
          rw [joinLines_cons]
          exact .inr ⟨⟨by simp, by simp⟩, .more cut (.lost l' ls)⟩
      · refine .inr ⟨⟨by simp, ?_⟩, ?_⟩
        · intro hfeed
          have hlen := congrArg List.length hfeed
          have hpos := List.length_pos_of_ne_nil hmissing
          simp at hlen
          omega
        · rcases eq_or_ne cut [] with rfl | hleft
          · exact .lost _ ls
          · rw [byteLines_last hl.left hleft]
            exact .torn hleft hmissing ls

end Lookalike.Text
