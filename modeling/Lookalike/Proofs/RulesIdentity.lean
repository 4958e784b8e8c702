-- What the identity of a normalizer tells. The imprint closes every word with a
-- byte that no word holds, and the byte says what the word is; so the words can
-- be read off it one after the other, and equal imprints are those of rules
-- that make the same tokens of every line.
import Lookalike.Proofs.Imprint
import Lookalike.Proofs.QueryOutcome
import Lookalike.Settings.Basic

namespace Lookalike

/-! ## Words without marks -/

/-- A word without the characters U+0000, U+0001 and U+0002. -/
def MarkFree (word : String) : Prop :=
  ∀ c ∈ word.toList, c ≠ '\x00' ∧ c ≠ '\x01' ∧ c ≠ '\x02'

-- The characters of the word are looked through, not all characters there are.
instance (word : String) : Decidable (MarkFree word) := List.decidableBAll _ word.toList

theorem MarkFree.lt_of_mem {word : String} (h : MarkFree word) {b : UInt8}
    (hb : b ∈ Text.encode word) : 2 < b.toNat := by
  obtain ⟨c, hc, hbc⟩ := List.mem_flatMap.mp hb
  obtain ⟨hzero, hone, htwo⟩ := h c hc
  by_contra hle
  have hsmall : b < 0x80 := UInt8.lt_iff_toNat_lt.mpr (by simp; omega)
  have hcode : c.toNat = b.toNat := Text.toNat_of_mem_encodeChar hsmall hbc
  have hchar {k : Char} (hne : c ≠ k) : c.toNat ≠ k.toNat :=
    fun hk => hne (Char.ext (UInt32.toNat_inj.mp hk))
  have h0 : c.toNat ≠ 0 := hchar hzero
  have h1 : c.toNat ≠ 1 := hchar hone
  have h2 : c.toNat ≠ 2 := hchar htwo
  omega

/-- The first mark of bytes ends the bytes before it. -/
theorem first_mark_inj {xs ys as bs : Bytes} {m k : UInt8} (hxs : ∀ b ∈ xs, 2 < b.toNat)
    (hys : ∀ b ∈ ys, 2 < b.toNat) (hm : m.toNat ≤ 2) (hk : k.toNat ≤ 2)
    (h : xs ++ m :: as = ys ++ k :: bs) : xs = ys ∧ m = k ∧ as = bs := by
  induction xs generalizing ys with
  | nil =>
    cases ys with
    | nil => simpa using h
    | cons y ys =>
      obtain ⟨rfl, -⟩ := List.cons.inj h
      have := hys m List.mem_cons_self
      omega
  | cons x xs ih =>
    cases ys with
    | nil =>
      obtain ⟨rfl, -⟩ := List.cons.inj h
      have := hxs x List.mem_cons_self
      omega
    | cons y ys =>
      obtain ⟨rfl, hrest⟩ := List.cons.inj h
      obtain ⟨rfl, hmark, htail⟩ := ih (fun b hb => hxs b (List.mem_cons_of_mem x hb))
        (fun b hb => hys b (List.mem_cons_of_mem x hb)) hrest
      exact ⟨rfl, hmark, htail⟩

/-! ## Closed words -/

/-- The bytes of words, each behind which stands the mark that closes it. -/
def closedBytes (ws : List (String × UInt8)) : Bytes :=
  ws.flatMap fun w => Text.encode w.1 ++ [w.2]

theorem closedBytes_cons (w : String × UInt8) (ws : List (String × UInt8)) (rest : Bytes) :
    closedBytes (w :: ws) ++ rest = Text.encode w.1 ++ w.2 :: (closedBytes ws ++ rest) := by
  simp [closedBytes]

/-- Words that hold no mark and are closed by 0 or 1. -/
def Closed (ws : List (String × UInt8)) : Prop := ∀ w ∈ ws, MarkFree w.1 ∧ w.2.toNat ≤ 1

theorem two_cons_ne_closedBytes {w : String × UInt8} (hw : MarkFree w.1 ∧ w.2.toNat ≤ 1)
    (ws : List (String × UInt8)) (as rest : Bytes) :
    2 :: as ≠ closedBytes (w :: ws) ++ rest := by
  intro h
  rw [closedBytes_cons, ← List.nil_append (2 :: as)] at h
  obtain ⟨-, htwo, -⟩ := first_mark_inj (List.forall_mem_nil _) (fun b hb => hw.1.lt_of_mem hb)
    (by decide) (by omega) h
  rw [← htwo] at hw
  exact absurd hw.2 (by decide)

/-- Closed words can be read off up to a mark 2 in front of which no word stands. -/
theorem closedBytes_inj {ws vs : List (String × UInt8)} (hws : Closed ws) (hvs : Closed vs)
    {as bs : Bytes} (h : closedBytes ws ++ 2 :: as = closedBytes vs ++ 2 :: bs) :
    ws = vs ∧ as = bs := by
  induction ws generalizing vs with
  | nil =>
    cases vs with
    | nil => exact ⟨rfl, (List.cons.inj h).2⟩
    | cons v vs => exact absurd h (two_cons_ne_closedBytes (hvs v List.mem_cons_self) vs as _)
  | cons w ws ih =>
    have hw := hws w List.mem_cons_self
    cases vs with
    | nil => exact absurd h.symm (two_cons_ne_closedBytes hw ws bs _)
    | cons v vs =>
      obtain ⟨hword, hmark⟩ := hw
      obtain ⟨hword', hmark'⟩ := hvs v List.mem_cons_self
      rw [closedBytes_cons, closedBytes_cons] at h
      obtain ⟨hbytes, hmarks, hrest⟩ := first_mark_inj (fun b hb => hword.lt_of_mem hb)
        (fun b hb => hword'.lt_of_mem hb) (by omega) (by omega) h
      obtain ⟨rfl, htail⟩ := ih (fun x hx => hws x (List.mem_cons_of_mem w hx))
        (fun x hx => hvs x (List.mem_cons_of_mem v hx)) hrest
      exact ⟨congrArg (· :: ws) (Prod.ext (Text.encode_inj.mp hbytes) hmarks), htail⟩

/-! ## Groups -/

/-- The key of a group is closed by 1, its members by 0. -/
def groupWords (groups : List (String × List String)) : List (String × UInt8) :=
  groups.flatMap fun g => (g.1, 1) :: g.2.map (·, 0)

theorem groupWords_cons (g : String × List String) (groups : List (String × List String)) :
    groupWords (g :: groups) = (g.1, 1) :: (g.2.map (·, 0) ++ groupWords groups) := rfl

/-- The members of a group end at the next key. -/
theorem members_inj {ms ns : List String} {gs hs : List (String × List String)}
    (h : ms.map (·, (0 : UInt8)) ++ groupWords gs = ns.map (·, 0) ++ groupWords hs) :
    ms = ns ∧ groupWords gs = groupWords hs := by
  have hmembers (ws : List String) : ∀ w ∈ ws.map (·, (0 : UInt8)), (w.2 == 0) = true := by simp
  have hkey (groups : List (String × List String)) :
      (groupWords groups).takeWhile (·.2 == 0) = [] ∧
        (groupWords groups).dropWhile (·.2 == 0) = groupWords groups := by
    cases groups with
    | nil => exact ⟨rfl, rfl⟩
    | cons g groups => exact ⟨rfl, rfl⟩
  have htake := congrArg (List.takeWhile (·.2 == 0)) h
  have hdrop := congrArg (List.dropWhile (·.2 == 0)) h
  rw [List.takeWhile_append_of_pos (hmembers ms), List.takeWhile_append_of_pos (hmembers ns),
    (hkey gs).1, (hkey hs).1, List.append_nil, List.append_nil] at htake
  rw [List.dropWhile_append_of_pos (hmembers ms), List.dropWhile_append_of_pos (hmembers ns),
    (hkey gs).2, (hkey hs).2] at hdrop
  exact ⟨List.map_injective_iff.mpr (Prod.mk_left_injective 0) htake, hdrop⟩

theorem groupWords_inj {gs hs : List (String × List String)} (h : groupWords gs = groupWords hs) :
    gs = hs := by
  induction gs generalizing hs with
  | nil =>
    cases hs with
    | nil => rfl
    | cons k hs => cases h
  | cons g gs ih =>
    cases hs with
    | nil => cases h
    | cons k hs =>
      rw [groupWords_cons, groupWords_cons, List.cons.injEq, Prod.mk.injEq] at h
      obtain ⟨⟨hkey, -⟩, hrest⟩ := h
      obtain ⟨hmembers, hgroups⟩ := members_inj hrest
      rw [ih hgroups, Prod.ext hkey hmembers]

/-! ## Imprints -/

namespace Normalizer

/-- No word of the rules and no size word holds a mark. -/
structure MarkFree (n : Normalizer) : Prop where
  keys : ∀ g ∈ n.rules.synonyms, Lookalike.MarkFree g.1
  members : ∀ g ∈ n.rules.synonyms, ∀ member ∈ g.2, Lookalike.MarkFree member
  registers : ∀ register ∈ n.rules.registers, Lookalike.MarkFree register
  keywords : ∀ keyword ∈ n.dialect.keywords, Lookalike.MarkFree keyword

theorem closed_eq (words : List String) : closed 0 words = closedBytes (words.map (·, 0)) := by
  rw [closed, closedBytes, List.flatMap_map]

theorem closed_words {words : List String} (h : ∀ w ∈ words, Lookalike.MarkFree w) :
    Closed (words.map (·, 0)) := by
  intro w hw
  obtain ⟨word, hword, rfl⟩ := List.mem_map.mp hw
  exact ⟨h word hword, Nat.zero_le 1⟩

theorem MarkFree.closed_groups {n : Normalizer} (h : n.MarkFree) :
    Closed (groupWords n.rules.synonyms) := by
  intro w hw
  obtain ⟨g, hg, hw⟩ := List.mem_flatMap.mp hw
  rcases List.mem_cons.mp hw with rfl | hw
  · exact ⟨h.keys g hg, by simp⟩
  · exact closed_words (h.members g hg) w hw

/-- The imprint: the groups, the register beginnings and the size words as closed words, with the
column between them. -/
theorem imprint_eq (n : Normalizer) :
    n.imprint = closedBytes (groupWords n.rules.synonyms) ++ 2 ::
      (closedBytes (n.rules.registers.map (·, 0)) ++ 2 ::
        (Digest.littleEndian 8 n.dialect.column ++
          closedBytes (n.dialect.keywords.map (·, 0)))) := by
  have hgroups : (n.rules.synonyms.flatMap fun g => Text.encode g.1 ++ [1] ++ closed 0 g.2) =
      closedBytes (groupWords n.rules.synonyms) := by
    rw [groupWords, closedBytes, List.flatMap_assoc]
    refine List.flatMap_congr fun g _ => ?_
    rw [closed_eq, List.flatMap_cons]
    rfl
  rw [imprint, hgroups, closed_eq, closed_eq]
  simp

/-- Rules and layout that differ at most in the length of the banner. -/
structure Agrees (n m : Normalizer) : Prop where
  synonyms : n.rules.synonyms = m.rules.synonyms
  registers : n.rules.registers = m.rules.registers
  column : n.dialect.column = m.dialect.column
  keywords : n.dialect.keywords = m.dialect.keywords

theorem agrees_of_imprint {n m : Normalizer} (hn : n.MarkFree) (hm : m.MarkFree)
    (hcolumn : n.dialect.column < 2 ^ 64) (hcolumn' : m.dialect.column < 2 ^ 64)
    (h : n.imprint = m.imprint) : n.Agrees m := by
  have hwords {as bs : List String}
      (he : as.map (·, (0 : UInt8)) = bs.map (·, 0)) : as = bs :=
    List.map_injective_iff.mpr (Prod.mk_left_injective 0) he
  rw [imprint_eq, imprint_eq] at h
  obtain ⟨hgroups, h⟩ := closedBytes_inj hn.closed_groups hm.closed_groups h
  obtain ⟨hregisters, h⟩ :=
    closedBytes_inj (closed_words hn.registers) (closed_words hm.registers) h
  obtain ⟨hcolumns, hkeywords⟩ := List.append_inj h (by simp)
  -- nothing follows the last words, so a mark put behind them ends them as well
  have hended : closedBytes (n.dialect.keywords.map (·, 0)) ++ [2] =
      closedBytes (m.dialect.keywords.map (·, 0)) ++ [2] := congrArg (· ++ [2]) hkeywords
  obtain ⟨hkeywords, -⟩ :=
    closedBytes_inj (closed_words hn.keywords) (closed_words hm.keywords) hended
  exact ⟨groupWords_inj hgroups, hwords hregisters,
    Digest.littleEndian_inj hcolumn hcolumn' hcolumns, hwords hkeywords⟩

theorem Agrees.eq_withHeaderLines {n m : Normalizer} (h : n.Agrees m) :
    m = n.withHeaderLines m.dialect.headerLines := by
  obtain ⟨⟨synonyms, registers⟩, ⟨column, headerLines, keywords⟩⟩ := n
  obtain ⟨⟨synonyms', registers'⟩, ⟨column', headerLines', keywords'⟩⟩ := m
  obtain ⟨rfl, rfl, rfl, rfl⟩ := h
  rfl

theorem line?_withHeaderLines (n : Normalizer) (headerLines k : Nat) (raw : List Char) :
    (n.withHeaderLines headerLines).line? k raw = n.line? k raw := rfl

theorem Agrees.line?_eq {n m : Normalizer} (h : n.Agrees m) (k : Nat) (raw : List Char) :
    n.line? k raw = m.line? k raw := by
  rw [h.eq_withHeaderLines, line?_withHeaderLines]

theorem Agrees.identity_eq {n m : Normalizer} (h : n.Agrees m) : n.identity = m.identity := by
  rw [h.eq_withHeaderLines]
  rfl

end Normalizer

/-! ## Identities -/

/-- An index that notes the rules of one normalizer is asked by another only if these rules pass. -/
theorem rules_of_answer {index : Index} {noted : String} (h : index.header.rulesId = some noted)
    {q : Stream} {t : ThresholdTable} {n : Normalizer} {options : QueryOptions} {report : Report}
    (answered : query q index t n options = .ok report) : noted = n.identity := by
  obtain ⟨⟨⟩, hrules, -⟩ := Attempt.bind_eq_ok_iff.mp answered
  rw [index.checkRules_eq h] at hrules
  by_contra hne
  rw [if_neg hne] at hrules
  cases hrules

/-- Normalizers without the characters U+0000, U+0001 and U+0002 in their words have one identity
just when they have the same groups, register beginnings, column and size words, all in the same
order; the digest is taken to tell the two imprints apart. So an index that notes the one is open to
the other only if both read every line alike. The length of the banner changes neither the identity
nor a line. -/
theorem the_identity_tells_the_rules {n m : Normalizer} (hn : n.MarkFree) (hm : m.MarkFree)
    (hcolumn : n.dialect.column < 2 ^ 64) (hcolumn' : m.dialect.column < 2 ^ 64)
    (digest : n.identity = m.identity → n.imprint = m.imprint) :
    (n.identity = m.identity ↔ n.Agrees m) ∧
      (∀ i : Index, (i.stamp n.identity).checkRules m.identity = .ok () →
        ∀ k raw, n.line? k raw = m.line? k raw) ∧
      (∀ (streams : List Stream) (t : ThresholdTable) (window width : Nat) (mode : Segmentation)
          (i : Index), Index.buildStamped streams t n window width mode = .ok i →
        ∀ (q : Stream) (t' : ThresholdTable) (options : QueryOptions) (report : Report),
          query q i t' m options = .ok report → ∀ k raw, n.line? k raw = m.line? k raw) ∧
      (∀ (any : Normalizer) (headerLines : Nat),
        (any.withHeaderLines headerLines).identity = any.identity ∧
          ∀ k raw, (any.withHeaderLines headerLines).line? k raw = any.line? k raw) ∧
      ∀ (s : Settings) (headerLines : Option Nat),
        (s.queryNormalizer headerLines).identity = s.corpusNormalizer.identity ∧
          ∀ k raw, (s.queryNormalizer headerLines).line? k raw =
            s.corpusNormalizer.line? k raw := by
  have hagrees (h : n.identity = m.identity) : n.Agrees m :=
    Normalizer.agrees_of_imprint hn hm hcolumn hcolumn' (digest h)
  refine ⟨⟨hagrees, fun h => h.identity_eq⟩, fun i hchecked => ?_, ?_, fun any headerLines => ?_,
    fun s headerLines => ?_⟩
  · have hnoted : (i.stamp n.identity).header.rulesId = some n.identity := rfl
    rw [Index.checkRules_eq hnoted] at hchecked
    by_cases hsame : n.identity = m.identity
    · exact (hagrees hsame).line?_eq
    · rw [if_neg hsame] at hchecked
      cases hchecked
  · intro streams t window width mode i hbuilt q t' options report hanswered
    obtain ⟨hnoted, -, -⟩ := Index.buildStamped_header hbuilt
    exact (hagrees (rules_of_answer hnoted hanswered)).line?_eq
  · exact ⟨rfl, any.line?_withHeaderLines headerLines⟩
  · exact ⟨s.identity_queryNormalizer headerLines, s.corpusNormalizer.line?_withHeaderLines _⟩

/-- A member that moves to another group changes the identity, and a shorter banner does not. The
column is written with the bytes 2 and 1. -/
theorem a_moved_member_changes_the_identity :
    let n : Normalizer := ⟨⟨[("mov", ["movl", ""]), ("", [])], ["ea", ""]⟩, ⟨258, 6, ["PTR"]⟩⟩
    let m : Normalizer := ⟨⟨[("mov", ["movl"]), ("", [""])], ["ea", ""]⟩, ⟨258, 6, ["PTR"]⟩⟩
    (n.MarkFree ∧ m.MarkFree ∧ n.dialect.column < 2 ^ 64 ∧ n.identity ≠ m.identity ∧
        ¬ n.Agrees m) ∧
      n.identity = (n.withHeaderLines 0).identity ∧
        ∀ k raw, n.line? k raw = (n.withHeaderLines 0).line? k raw := by
  intro n m
  have hn : n.MarkFree := ⟨by decide, by decide, by decide, by decide⟩
  have hm : m.MarkFree := ⟨by decide, by decide, by decide, by decide⟩
  have hcolumn : n.dialect.column < 2 ^ 64 := by decide
  have hidentity : n.identity ≠ m.identity := by decide +kernel
  obtain ⟨hiff, -⟩ := the_identity_tells_the_rules hn hm hcolumn hcolumn (absurd · hidentity)
  have hshort : (n.withHeaderLines 0).MarkFree := ⟨hn.keys, hn.members, hn.registers, hn.keywords⟩
  obtain ⟨hiff', hlines, -⟩ :=
    the_identity_tells_the_rules hn hshort hcolumn hcolumn fun _ => rfl
  have hagrees : n.Agrees (n.withHeaderLines 0) := ⟨rfl, rfl, rfl, rfl⟩
  refine ⟨⟨hn, hm, hcolumn, hidentity, fun h => hidentity (hiff.mpr h)⟩, hiff'.mpr hagrees, ?_⟩
  exact hlines ⟨⟨1, 1, "", 0, .wholeFile, true, 0, none⟩, []⟩ (if_pos rfl)

end Lookalike
