-- What the identity of a table tells. The imprint puts symbols and thresholds
-- one after the other, with a zero byte behind each symbol. A symbol with
-- U+0000 can hide that byte, so equal imprints mean equal tables only where
-- the symbols have equal lengths.
import Mathlib.Data.List.Basic
import Lookalike.Proofs.BuiltIndex
import Lookalike.Proofs.Encoding

namespace Lookalike

/-! ## Numbers as bytes -/

namespace Digest

@[simp] theorem length_littleEndian (n v : Nat) : (littleEndian n v).length = n := by
  induction n generalizing v with
  | zero => rfl
  | succ n ih => rw [littleEndian, List.length_cons, ih]

theorem littleEndian_inj {n a b : Nat} (ha : a < 256 ^ n) (hb : b < 256 ^ n)
    (h : littleEndian n a = littleEndian n b) : a = b := by
  induction n generalizing a b with
  | zero =>
    rw [Nat.pow_zero] at ha hb
    omega
  | succ n ih =>
    rw [littleEndian, littleEndian, List.cons.injEq] at h
    obtain ⟨hlow, hhigh⟩ := h
    have hmod : a % 256 = b % 256 := by
      have hn := congrArg UInt8.toNat hlow
      rwa [UInt8.toNat_ofNat_of_lt' (Nat.mod_lt a (by decide)),
        UInt8.toNat_ofNat_of_lt' (Nat.mod_lt b (by decide))] at hn
    rw [Nat.pow_succ] at ha hb
    have hdiv : a / 256 = b / 256 := ih (by omega) (by omega) hhigh
    omega

end Digest

theorem Text.ff_not_mem_encode (s : String) : 0xFF ∉ Text.encode s := by
  intro h
  obtain ⟨c, -, hb⟩ := List.mem_flatMap.mp h
  have hc := Text.toNat_lt c
  have hmem : 255 ∈ (String.utf8EncodeChar c).map UInt8.toNat := List.mem_map_of_mem (f := _) hb
  rw [Text.encodeChar_bytes] at hmem
  split_ifs at hmem <;> simp at hmem <;> omega

namespace ThresholdTable

open Digest (littleEndian)

/-! ## Entries as bytes -/

/-- The bytes of entries, one after the other. -/
def entryBytes (es : List (String × UInt32)) : Bytes :=
  es.flatMap fun e => Text.encode e.1 ++ [0] ++ littleEndian 4 e.2.toNat

theorem entryBytes_cons (e : String × UInt32) (es : List (String × UInt32)) :
    entryBytes (e :: es) =
      Text.encode e.1 ++ 0 :: (littleEndian 4 e.2.toNat ++ entryBytes es) := by
  simp [entryBytes]

/-- The lengths of the symbols in bytes, place by place. -/
def symbolSizes (es : List (String × UInt32)) : List Nat := es.map fun e => (Text.encode e.1).length

/-- No symbol has U+0000. -/
def ZeroFree (es : List (String × UInt32)) : Prop := ∀ e ∈ es, '\x00' ∉ e.1.toList

/-- Thresholds have four bytes, so equal ones behind each other can be cut off. -/
theorem threshold_inj {t u : UInt32} {xs ys : Bytes}
    (h : littleEndian 4 t.toNat ++ xs = littleEndian 4 u.toNat ++ ys) : t = u ∧ xs = ys := by
  obtain ⟨hbytes, hrest⟩ := List.append_inj h (by simp)
  exact ⟨UInt32.toNat_inj.mp (Digest.littleEndian_inj t.toNat_lt u.toNat_lt hbytes), hrest⟩

/-- Where the first symbols are as long as each other, the first entries are equal. -/
theorem entryBytes_head_inj {e f : String × UInt32} {es fs : List (String × UInt32)}
    (h : entryBytes (e :: es) = entryBytes (f :: fs))
    (hsize : (Text.encode e.1).length = (Text.encode f.1).length) :
    e = f ∧ entryBytes es = entryBytes fs := by
  rw [entryBytes_cons, entryBytes_cons] at h
  obtain ⟨hsymbol, hrest⟩ := List.append_inj h hsize
  obtain ⟨hthreshold, hrest⟩ := threshold_inj (List.cons.inj hrest).2
  exact ⟨Prod.ext (Text.encode_inj.mp hsymbol) hthreshold, hrest⟩

/-- Equal bytes with equal lengths of the symbols are the bytes of equal entries. -/
theorem entryBytes_inj {es fs : List (String × UInt32)} (h : entryBytes es = entryBytes fs)
    (hsizes : symbolSizes es = symbolSizes fs) : es = fs := by
  induction es generalizing fs with
  | nil => exact (List.map_eq_nil_iff.mp hsizes.symm).symm
  | cons e es ih =>
    cases fs with
    | nil => exact absurd hsizes (by simp [symbolSizes])
    | cons f fs =>
      rw [symbolSizes, symbolSizes, List.map_cons, List.map_cons, List.cons.injEq] at hsizes
      obtain ⟨rfl, hrest⟩ := entryBytes_head_inj h hsizes.1
      rw [ih hrest hsizes.2]

/-- The zero byte ends a symbol without U+0000, so such symbols are as long as each other. -/
theorem symbolSizes_eq_of_zeroFree {es fs : List (String × UInt32)}
    (h : entryBytes es = entryBytes fs) (hlen : es.length = fs.length) (hes : ZeroFree es)
    (hfs : ZeroFree fs) : symbolSizes es = symbolSizes fs := by
  induction es generalizing fs with
  | nil => rw [List.length_eq_zero_iff.mp hlen.symm]
  | cons e es ih =>
    cases fs with
    | nil => simp at hlen
    | cons f fs =>
      have hsplit := h
      rw [entryBytes_cons, entryBytes_cons] at hsplit
      have he := Text.zero_not_mem_encode (hes e List.mem_cons_self)
      have hf := Text.zero_not_mem_encode (hfs f List.mem_cons_self)
      have hsymbol : Text.encode e.1 = Text.encode f.1 := by
        rcases List.append_eq_append_iff.mp hsplit with ⟨xs, hx, hy⟩ | ⟨xs, hx, hy⟩
        · cases xs with
          | nil => simpa using hx.symm
          | cons x xs =>
            obtain ⟨rfl, -⟩ := List.cons.inj hy
            exact absurd (hx ▸ by simp) hf
        · cases xs with
          | nil => simpa using hx
          | cons x xs =>
            obtain ⟨rfl, -⟩ := List.cons.inj hy
            exact absurd (hx ▸ by simp) he
      have hsize := congrArg List.length hsymbol
      obtain ⟨-, hrest⟩ := entryBytes_head_inj h hsize
      have htail := ih hrest (by simpa using hlen) (fun x hx => hes x (List.mem_cons_of_mem e hx))
        (fun x hx => hfs x (List.mem_cons_of_mem f hx))
      rw [symbolSizes, symbolSizes, List.map_cons, List.map_cons, hsize]
      exact congrArg _ htail

/-! ## Different tables behind one imprint -/

theorem bits_cons {window : Nat} {percentile : Float} {e : String × UInt32}
    {es : List (String × UInt32)} {c : Counts} :
    bits ⟨window, percentile, e :: es⟩ c =
      decide (e.2.toNat < c.get e.1) :: bits ⟨window, percentile, es⟩ c := rfl

/-- Where one symbol is shorter, its threshold is not the greatest word: the bytes of the threshold
lie in the longer symbol or on its zero byte. -/
theorem threshold_lt_of_shorter {e f : String × UInt32} {es fs : List (String × UInt32)}
    (h : entryBytes (e :: es) = entryBytes (f :: fs))
    (hshort : (Text.encode e.1).length < (Text.encode f.1).length) :
    e.2.toNat + 1 < 2 ^ 32 := by
  rw [entryBytes_cons, entryBytes_cons] at h
  have hbyte : UInt8.ofNat (e.2.toNat % 256) ∈ Text.encode f.1 ++ [0] := by
    have hget := congrArg (fun bs : Bytes => bs[(Text.encode e.1).length + 1]?) h
    rw [List.getElem?_append_right (by omega), Nat.add_sub_cancel_left, List.getElem?_cons_succ,
      littleEndian, List.cons_append, List.getElem?_cons_zero, List.append_cons,
      List.getElem?_append_left (by simp; omega)] at hget
    exact List.mem_of_getElem? hget.symm
  have hne : UInt8.ofNat (e.2.toNat % 256) ≠ 0xFF := by
    intro hff
    rw [hff] at hbyte
    rcases List.mem_append.mp hbyte with hmem | hmem
    · exact Text.ff_not_mem_encode f.1 hmem
    · simp at hmem
  have hmod : e.2.toNat % 256 ≠ 255 := fun hlast => hne (by rw [hlast]; rfl)
  have hlt := e.2.toNat_lt
  omega

/-- Counts of one symbol, just above its threshold, set its bit and no other. -/
theorem bits_differ_of_shorter {e f : String × UInt32}
    (hshort : (Text.encode e.1).length < (Text.encode f.1).length) :
    let c : Counts := ⟨[(e.1, e.2.toNat + 1)]⟩
    decide (e.2.toNat < c.get e.1) = true ∧ decide (f.2.toNat < c.get f.1) = false := by
  have hne : e.1 ≠ f.1 := by
    rintro heq
    rw [heq] at hshort
    omega
  simp [Counts.get, Ordered.get?, hne]

/-- Where two lists of as many entries have the same bytes and are different, some counts of words
tell them apart. -/
theorem exists_bits_ne (window : Nat) (percentile : Float) {es fs : List (String × UInt32)}
    (h : entryBytes es = entryBytes fs) (hlen : es.length = fs.length) (hne : es ≠ fs) :
    ∃ c : Counts, (∀ p ∈ c.entries, p.2 < 2 ^ 32) ∧
      bits ⟨window, percentile, es⟩ c ≠ bits ⟨window, percentile, fs⟩ c := by
  induction es generalizing fs with
  | nil => exact absurd (List.length_eq_zero_iff.mp hlen.symm).symm hne
  | cons e es ih =>
    cases fs with
    | nil => simp at hlen
    | cons f fs =>
      rcases Nat.lt_trichotomy (Text.encode e.1).length (Text.encode f.1).length with
        hlt | hsize | hgt
      · have hword := threshold_lt_of_shorter h hlt
        obtain ⟨he, hf⟩ := bits_differ_of_shorter hlt
        refine ⟨⟨[(e.1, e.2.toNat + 1)]⟩, by simpa using hword, ?_⟩
        rw [bits_cons, bits_cons, he, hf]
        simp
      · obtain ⟨rfl, hrest⟩ := entryBytes_head_inj h hsize
        obtain ⟨c, hc, hbits⟩ := ih hrest (by simpa using hlen) (by simpa using hne)
        refine ⟨c, hc, ?_⟩
        rw [bits_cons, bits_cons]
        simpa using hbits
      · have hword := threshold_lt_of_shorter h.symm hgt
        obtain ⟨hf, he⟩ := bits_differ_of_shorter hgt
        refine ⟨⟨[(f.1, f.2.toNat + 1)]⟩, by simpa using hword, ?_⟩
        rw [bits_cons, bits_cons, he, hf]
        simp

/-! ## Imprints -/

/-- The imprint tells the percentile and the bytes of the entries, and of the window its eight low
bytes. -/
theorem imprint_eq_iff {a b : ThresholdTable} :
    a.imprint = b.imprint ↔
      littleEndian 8 a.window = littleEndian 8 b.window ∧
        a.percentile.toBits = b.percentile.toBits ∧
        entryBytes a.entries = entryBytes b.entries := by
  unfold imprint
  constructor
  · intro h
    obtain ⟨hhead, hentries⟩ := List.append_inj h (by simp)
    obtain ⟨hwindow, hpercentile⟩ := List.append_inj hhead (by simp)
    have hbits := Digest.littleEndian_inj a.percentile.toBits.toNat_lt
      b.percentile.toBits.toNat_lt hpercentile
    exact ⟨hwindow, UInt64.toNat_inj.mp hbits, hentries⟩
  · rintro ⟨hwindow, hpercentile, hentries⟩
    rw [hwindow, hpercentile]
    exact congrArg _ hentries

end ThresholdTable

/-! ## The check of an index -/

/-- A table that passes the check of an index has the window and the percentile of its table. It
encodes all counts alike exactly where the symbols of the two tables have equal lengths in bytes,
place by place, and then it has the same entries; symbols without U+0000 always have. The digest
is taken to tell the two imprints apart. -/
theorem checked_tables_encode_alike_iff {a b : ThresholdTable} {streams : List Stream}
    {window width : Nat} {mode : Segmentation} {index : Index}
    (built : Index.build streams a window width mode = .ok index ∨
      ∃ n, Index.buildStamped streams a n window width mode = .ok index)
    (digest : a.identity = b.identity → a.imprint = b.imprint)
    (checked : index.checkTable b width = .ok ()) :
    (a.window = b.window ∧ a.percentile.toBits = b.percentile.toBits) ∧
      ((∀ c : Counts, (∀ p ∈ c.entries, p.2 < 2 ^ 32) → a.bits c = b.bits c) ↔
        ThresholdTable.symbolSizes a.entries = ThresholdTable.symbolSizes b.entries) ∧
      (ThresholdTable.symbolSizes a.entries = ThresholdTable.symbolSizes b.entries →
        a.entries = b.entries ∧ ∀ c, a.bits c = b.bits c ∧
          (⟨a, width⟩ : Encoder).encode c = (⟨b, width⟩ : Encoder).encode c) ∧
      (ThresholdTable.ZeroFree a.entries → ThresholdTable.ZeroFree b.entries →
        ThresholdTable.symbolSizes a.entries = ThresholdTable.symbolSizes b.entries) := by
  obtain ⟨hwindow, hsize, hid, -⟩ := Index.notes_of_built built
  obtain ⟨hwindow', hsize', hid', -⟩ := Index.checkTable_eq_ok_iff.mp checked
  obtain ⟨-, hpercentile, hbytes⟩ :=
    ThresholdTable.imprint_eq_iff.mp (digest (hid.symm.trans hid'))
  have hlen : a.entries.length = b.entries.length := hsize.symm.trans hsize'
  have hsame (h : ThresholdTable.symbolSizes a.entries = ThresholdTable.symbolSizes b.entries) :
      a.entries = b.entries := ThresholdTable.entryBytes_inj hbytes h
  have hbits (h : a.entries = b.entries) (c : Counts) : a.bits c = b.bits c := by
    rw [ThresholdTable.bits, ThresholdTable.bits, h]
  refine ⟨⟨hwindow.symm.trans hwindow', hpercentile⟩, ⟨fun halike => ?_, fun h c _ => ?_⟩, ?_, ?_⟩
  · by_contra hne
    have hentries : a.entries ≠ b.entries := fun h => hne (by rw [h])
    obtain ⟨c, hc, hdiffer⟩ :=
      ThresholdTable.exists_bits_ne a.window a.percentile hbytes hlen hentries
    exact hdiffer (halike c hc)
  · exact hbits (hsame h) c
  · intro h
    refine ⟨hsame h, fun c => ⟨hbits (hsame h) c, ?_⟩⟩
    simp only [Encoder.encode, hbits (hsame h) c]
  · exact fun ha hb => ThresholdTable.symbolSizes_eq_of_zeroFree hbytes hlen ha hb

/-! ## A zero byte in a symbol -/

/-- A table whose second symbol begins with the bytes of a threshold. -/
def plainTable : ThresholdTable := ⟨1, 0.5, [("a", 1), ("bbq", 1)]⟩

/-- The same bytes, but the first symbol goes on behind the zero byte. -/
def hidingTable : ThresholdTable := ⟨1, 0.5, [("a\x00\x01", 0x62620000), ("q", 1)]⟩

theorem imprint_hidingTable : plainTable.imprint = hidingTable.imprint :=
  ThresholdTable.imprint_eq_iff.mpr ⟨rfl, rfl, by decide⟩

theorem checkTable_hidingTable {streams : List Stream} {mode : Segmentation} {index : Index}
    (h : Index.build streams plainTable 1 1 mode = .ok index) :
    index.checkTable hidingTable 1 = .ok () := by
  obtain ⟨hwindow, hsize, hid, hwidth⟩ := Index.build_notes h
  refine Index.checkTable_eq_ok_iff.mpr ⟨hwindow, hsize, ?_, hwidth⟩
  rw [hid, ThresholdTable.identity, ThresholdTable.identity, imprint_hidingTable]

/-- The index of the one table accepts the other, and some counts tell them apart. -/
theorem a_hidden_zero_byte_passes_the_check :
    ∃ index, Index.build [] plainTable 1 1 .wholeFile = .ok index ∧
      index.checkTable hidingTable 1 = .ok () ∧
      ¬ ∀ c : Counts, (∀ p ∈ c.entries, p.2 < 2 ^ 32) → plainTable.bits c = hidingTable.bits c := by
  have hbuild : Index.build [] plainTable 1 1 .wholeFile =
      .ok (Index.ofRecords ⟨1, 1, plainTable.identity, 2, .wholeFile, false, 0, none⟩ []) := rfl
  have hcheck := checkTable_hidingTable hbuild
  refine ⟨_, hbuild, hcheck, fun halike => ?_⟩
  obtain ⟨-, hiff, -, -⟩ :=
    checked_tables_encode_alike_iff (.inl hbuild) (fun _ => imprint_hidingTable) hcheck
  exact absurd (hiff.mp halike) (by decide)

/-- Both tables are accepted, and a window of the indexed corpus has other bits in each. -/
theorem the_check_accepts_a_foreign_table :
    let s : Stream := ⟨⟨⟨"s"⟩, none, 0⟩, [⟨0, ["a", "a", "bbq", "bbq"]⟩, ⟨1, []⟩]⟩
    ThresholdTable.ofParts 1 0.5 plainTable.entries = .ok plainTable ∧
      ThresholdTable.ofParts 1 0.5 hidingTable.entries = .ok hidingTable ∧
      ∃ index, Index.build [s] plainTable 1 1 .wholeFile = .ok index ∧
        index.checkTable hidingTable 1 = .ok () ∧
        plainTable.bits (Counts.ofLines (s.lines.take 1)) = [true, true] ∧
        hidingTable.bits (Counts.ofLines (s.lines.take 1)) = [false, false] := by
  intro s
  have hbuild : Index.build [s] plainTable 1 1 .wholeFile =
      .ok (Index.ofRecords ⟨1, 1, plainTable.identity, 2, .wholeFile, false, 0, none⟩
        ([s].flatMap (Index.recordsOf ⟨plainTable, 1⟩ 1))) := rfl
  exact ⟨rfl, rfl, _, hbuild, checkTable_hidingTable hbuild, by decide, by decide⟩

end Lookalike
