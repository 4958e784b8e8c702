-- Listings are loaded side by side, each for itself and in any order, and a
-- listing that was read is told at once. What came of them is gathered in the
-- order of their paths, so neither the streams nor the failure show which of
-- them was ready first.
import Mathlib.Logic.Relation
import Mathlib.Tactic.Choose
import Lookalike.Corpus.Loading
import Lookalike.Proofs.CollectedPaths
import Lookalike.Proofs.FunctionBlocks
import Lookalike.Proofs.QueriedFiles

namespace Lookalike

open Relation (ReflTransGen)

/-! ## Different paths -/

/-- No two of the paths have the same components. -/
def Path.AllDiffer (ps : List Path) : Prop := ps.Pairwise fun p q => p.same q = false

instance (ps : List Path) : Decidable (Path.AllDiffer ps) :=
  inferInstanceAs (Decidable (ps.Pairwise fun p q => p.same q = false))

namespace Path

variable {ps qs : List Path}

theorem AllDiffer.perm (h : AllDiffer ps) (perm : ps.Perm qs) : AllDiffer qs := by
  apply (perm.pairwise_iff ?_).mp h
  intro p q hne
  rw [Bool.eq_false_iff] at hne ⊢
  exact fun hsame => hne (beq_iff_eq.mpr (beq_iff_eq.mp hsame).symm)

theorem AllDiffer.ascending (h : AllDiffer ps) : Ascending (ps.mergeSort le) := by
  have hdiffer : AllDiffer (ps.mergeSort le) := h.perm (List.mergeSort_perm ps le).symm
  have hordered : (ps.mergeSort le).Pairwise fun p q => (compare p q).isLE :=
    pairwise_mergeSort compare ps
  apply (hordered.and hdiffer).imp
  rintro p q ⟨hle, hne⟩
  exact compare_eq_lt hle hne

/-- Different paths ascend in one order only, so it does not matter in which one they come. -/
theorem AllDiffer.mergeSort_eq (h : AllDiffer ps) (perm : qs.Perm ps) :
    qs.mergeSort le = ps.mergeSort le := by
  have hperm : (qs.mergeSort le).Perm (ps.mergeSort le) :=
    ((List.mergeSort_perm qs le).trans perm).trans (List.mergeSort_perm ps le).symm
  apply List.Perm.eq_of_pairwise _ (h.perm perm.symm).ascending h.ascending hperm
  intro p q _ _ hpq hqp
  rw [Std.OrientedCmp.gt_of_lt hpq] at hqp
  cases hqp

end Path

/-- The listings of a corpus are different paths. -/
theorem Walker.allDiffer_collect {w : Walker} {files : Folder} {roots found : List Path}
    (ok : w.collect files roots = .ok found) : Path.AllDiffer found := by
  apply (collect_ok ok).1.imp
  intro p q hlt
  rw [Bool.eq_false_iff, Ne, ← Path.compare_eq_iff, hlt]
  decide

/-- In a row that ascends no path comes after one that stands behind it. -/
theorem Ascending.isLE_of_append {before after : List Path} {p q : Path}
    (h : Ascending (before ++ p :: after)) (mem : q ∈ before ++ p :: after)
    (behind : q ∉ before) : (compare p q).isLE = true := by
  rcases List.mem_cons.mp ((List.mem_append.mp mem).resolve_left behind) with rfl | hafter
  · rw [Std.compare_self]
    rfl
  · have hlt : compare p q = .lt :=
      (List.pairwise_cons.mp (List.pairwise_append.mp h).2.1).1 q hafter
    rw [hlt]
    rfl

/-- A stream comes before another one: by its listing, or by its first line in the same listing. -/
def Stream.Precedes (a b : Stream) : Prop :=
  compare a.id.source b.id.source = .lt ∨
    (a.id.source = b.id.source ∧ a.id.startLine < b.id.startLine)

/-! ## Side by side -/

/-- How far a listing is. -/
inductive Phase where
  | waiting
  | told (streams : List Stream)
  | done (piece : Attempt (List Stream))

namespace Phase

/-- The steps that a listing has before it. -/
def left : Phase → Nat
  | waiting => 2
  | told _ => 1
  | done _ => 0

/-- A listing is as far as its content brings it. -/
def Fits (piece : Attempt (List Stream)) : Phase → Prop
  | waiting => True
  | told streams => piece = .ok streams
  | done found => piece = found

/-- Whether a listing was read and told. -/
def wasTold : Phase → Bool
  | waiting => false
  | told _ => true
  | done found => found.isOk

@[simp] theorem wasTold_waiting : waiting.wasTold = false := rfl

@[simp] theorem wasTold_told (streams : List Stream) : (told streams).wasTold = true := rfl

@[simp] theorem wasTold_failed (f : Failure) : (done (.error f)).wasTold = false := rfl

@[simp] theorem wasTold_read (streams : List Stream) : (done (.ok streams)).wasTold = true := rfl

end Phase

/-- Listings that are being loaded: how far each of them is, in the order of the paths, and which
were told, the last one at the end. -/
structure Loading where
  slots : List (Path × Phase)
  told : List Path

namespace Loading

/-- At the start all of them wait. -/
def start (ps : List Path) : Loading :=
  ⟨(ps.mergeSort Path.le).map fun p => (p, .waiting), []⟩

/-- What came of the listings, one behind the other, once all of them are done; the first failure
stands for all of them. -/
def gather : List (Path × Phase) → Option (Attempt (List Stream))
  | [] => some (.ok [])
  | (_, .done piece) :: rest => (gather rest).map fun others => do
    return (← piece) ++ (← others)
  | _ => none

/-- The result of a load that has come to its end. -/
def result? (s : Loading) : Option (Attempt (List Stream)) := gather s.slots

/-- The listings that were read so far, in the order of the paths. -/
def readSoFar (slots : List (Path × Phase)) : List Path :=
  (slots.filter fun slot => slot.2.wasTold).map Prod.fst

/-- The steps that all listings together have before them, at most. -/
def left : List (Path × Phase) → Nat
  | [] => 0
  | (_, phase) :: rest => phase.left + left rest

theorem left_lt {before after : List (Path × Phase)} {p : Path} {old new : Phase}
    (h : new.left < old.left) :
    left (before ++ (p, new) :: after) < left (before ++ (p, old) :: after) := by
  induction before with
  | nil => exact Nat.add_lt_add_right h _
  | cons slot before ih => exact Nat.add_lt_add_left ih _

theorem gather_eq_none {slots : List (Path × Phase)} {slot : Path × Phase}
    (h : slot ∈ slots) (undone : ∀ piece, slot.2 ≠ .done piece) : gather slots = none := by
  induction slots with
  | nil => cases h
  | cons first rest ih =>
    obtain ⟨p, phase⟩ := first
    cases phase with
    | waiting => rfl
    | told streams => rfl
    | done piece =>
      rcases List.mem_cons.mp h with rfl | h
      · exact absurd rfl (undone piece)
      · rw [gather, ih h, Option.map_none]

end Loading

theorem Attempt.isOk_iff {α : Type} {a : Attempt α} : a.isOk = true ↔ ∃ x, a = .ok x := by
  cases a <;> simp [Except.isOk, Except.toBool]

namespace Loader

/-- What is to come of a listing. -/
def piece (l : Loader) (files : Folder) (p : Path) : Attempt (List Stream) :=
  (l.loadFile files p).during (.loadingListing p)

/-- One listing goes on: it turns out that it cannot be read, or it is read and told, or, when it
was told, it is done. -/
inductive Step (l : Loader) (files : Folder) : Loading → Loading → Prop
  | fail {before after : List (Path × Phase)} {p : Path} {told : List Path} {f : Failure}
    (h : l.piece files p = .error f) :
    Step l files ⟨before ++ (p, .waiting) :: after, told⟩
      ⟨before ++ (p, .done (.error f)) :: after, told⟩
  | tell {before after : List (Path × Phase)} {p : Path} {told : List Path}
    {streams : List Stream} (h : l.piece files p = .ok streams) :
    Step l files ⟨before ++ (p, .waiting) :: after, told⟩
      ⟨before ++ (p, .told streams) :: after, told ++ [p]⟩
  | finish {before after : List (Path × Phase)} {p : Path} {told : List Path}
    {streams : List Stream} :
    Step l files ⟨before ++ (p, .told streams) :: after, told⟩
      ⟨before ++ (p, .done (.ok streams)) :: after, told⟩

variable {l : Loader} {files : Folder} {ps : List Path} {s s' : Loading}

/-! ## Every load comes to an end -/

theorem Step.left_lt (h : l.Step files s s') : Loading.left s'.slots < Loading.left s.slots := by
  cases h with
  | fail => exact Loading.left_lt (by simp [Phase.left])
  | tell => exact Loading.left_lt (by simp [Phase.left])
  | finish => exact Loading.left_lt (by simp [Phase.left])

/-- No load goes on for ever. -/
theorem wellFounded_step (l : Loader) (files : Folder) :
    WellFounded fun s' s => l.Step files s s' :=
  Subrelation.wf (fun h => Step.left_lt h)
    (InvImage.wf (fun s : Loading => Loading.left s.slots) Nat.lt_wfRel.wf)

/-- A load can go on unless all listings are done. -/
theorem step_or_done (l : Loader) (files : Folder) (s : Loading) :
    (∃ s', l.Step files s s') ∨ ∀ slot ∈ s.slots, ∃ piece, slot.2 = .done piece := by
  by_cases hdone : ∀ slot ∈ s.slots, ∃ piece, slot.2 = .done piece
  · exact .inr hdone
  · left
    push Not at hdone
    obtain ⟨⟨p, phase⟩, hslot, hphase⟩ := hdone
    obtain ⟨slots, told⟩ := s
    obtain ⟨before, after, rfl⟩ := List.mem_iff_append.mp hslot
    cases phase with
    | waiting =>
      cases hpiece : l.piece files p with
      | error f => exact ⟨_, .fail hpiece⟩
      | ok streams => exact ⟨_, .tell hpiece⟩
    | told streams => exact ⟨_, .finish⟩
    | done piece => exact absurd rfl (hphase piece)

/-- As long as it goes on it has no result. -/
theorem Step.result?_eq_none (h : l.Step files s s') : s.result? = none := by
  cases h <;> exact Loading.gather_eq_none (List.mem_append_right _ List.mem_cons_self) (by simp)

/-! ## What every step keeps -/

/-- What holds while some paths are loaded: each has its place, each is as far as its content brings
it, and those that were read were told, each once. -/
structure Loads (l : Loader) (files : Folder) (ps : List Path) (s : Loading) : Prop where
  paths : s.slots.map Prod.fst = ps.mergeSort Path.le
  fits : ∀ slot ∈ s.slots, slot.2.Fits (l.piece files slot.1)
  told : s.told.Perm (Loading.readSoFar s.slots)

theorem loads_start (l : Loader) (files : Folder) (ps : List Path) :
    l.Loads files ps (.start ps) where
  paths := by
    rw [Loading.start, List.map_map]
    exact List.map_id _
  fits := by
    intro slot hslot
    obtain ⟨p, -, rfl⟩ := List.mem_map.mp hslot
    trivial
  told := by
    simp [Loading.start, Loading.readSoFar, List.filter_map, Function.comp_def]

/-- One listing goes on, and the others stay as far as they are. -/
theorem Loads.replace {before after : List (Path × Phase)} {p : Path} {old new : Phase}
    {told told' : List Path} (h : l.Loads files ps ⟨before ++ (p, old) :: after, told⟩)
    (fits : new.Fits (l.piece files p))
    (tells : told.Perm (Loading.readSoFar (before ++ (p, old) :: after)) →
      told'.Perm (Loading.readSoFar (before ++ (p, new) :: after))) :
    l.Loads files ps ⟨before ++ (p, new) :: after, told'⟩ := by
  obtain ⟨paths, others, told⟩ := h
  obtain ⟨hbefore, hafter⟩ := List.forall_mem_append.mp others
  refine ⟨by simpa using paths, List.forall_mem_append.mpr ⟨hbefore, ?_⟩, tells told⟩
  exact List.forall_mem_cons.mpr ⟨fits, (List.forall_mem_cons.mp hafter).2⟩

/-- Every step keeps it. -/
theorem Loads.step (h : l.Loads files ps s) (step : l.Step files s s') : l.Loads files ps s' := by
  cases step with
  | @fail before after p told f hpiece =>
    have hfits : (Phase.done (.error f)).Fits (l.piece files p) := hpiece
    apply h.replace hfits
    simp [Loading.readSoFar]
  | @tell before after p told streams hpiece =>
    have hfits : (Phase.told streams).Fits (l.piece files p) := hpiece
    apply h.replace hfits
    intro told
    simp only [Loading.readSoFar, List.filter_append, List.filter_cons, Phase.wasTold_waiting,
      Phase.wasTold_told, Bool.false_eq_true, if_false, if_true, List.map_append,
      List.map_cons] at told ⊢
    exact ((told.append_right [p]).trans (List.perm_append_singleton p _)).trans
      List.perm_middle.symm
  | @finish before after p told streams =>
    have hfits : (Phase.done (.ok streams)).Fits (l.piece files p) :=
      h.fits _ (List.mem_append_right _ List.mem_cons_self)
    apply h.replace hfits
    simp [Loading.readSoFar, List.filter_cons]

theorem Loads.run (h : l.Loads files ps s) (run : ReflTransGen (l.Step files) s s') :
    l.Loads files ps s' := by
  induction run with
  | refl => exact h
  | tail _ step ih => exact ih.step step

theorem isOk_piece (l : Loader) (files : Folder) (p : Path) :
    (l.piece files p).isOk = (l.loadFile files p).isOk := by
  unfold piece
  cases l.loadFile files p <;> rfl

/-- Once a listing no longer waits, it was told if it can be read. -/
theorem wasTold_eq_isOk {p : Path} {phase : Phase} (fits : phase.Fits (l.piece files p))
    (started : phase ≠ .waiting) : phase.wasTold = (l.loadFile files p).isOk := by
  rw [← isOk_piece]
  cases phase with
  | waiting => exact absurd rfl started
  | told streams =>
    have hpiece : l.piece files p = .ok streams := fits
    rw [hpiece]
    rfl
  | done found =>
    have hpiece : l.piece files p = found := fits
    rw [hpiece]
    rfl

/-- At no time was a listing told that cannot be read. -/
theorem Loads.isOk_of_told (h : l.Loads files ps s) {p : Path} (told : p ∈ s.told) :
    (l.loadFile files p).isOk = true := by
  obtain ⟨slot, hslot, rfl⟩ := List.mem_map.mp (h.told.mem_iff.mp told)
  obtain ⟨hslot, htold⟩ := List.mem_filter.mp hslot
  rw [← wasTold_eq_isOk (h.fits slot hslot), htold]
  intro hwaiting
  rw [hwaiting] at htold
  cases htold

/-! ## What comes of a load -/

/-- At the end the listings have been told that can be read, each once. -/
theorem Loads.told_perm (h : l.Loads files ps s)
    (done : ∀ slot ∈ s.slots, ∃ piece, slot.2 = .done piece) :
    s.told.Perm (ps.filter fun p => (l.loadFile files p).isOk) := by
  have hread : (s.slots.filter fun slot => slot.2.wasTold) =
      s.slots.filter fun slot => (l.loadFile files slot.1).isOk := by
    apply List.filter_congr
    intro slot hslot
    apply wasTold_eq_isOk (h.fits slot hslot)
    obtain ⟨piece, hdone⟩ := done slot hslot
    rw [hdone]
    intro hwaiting
    cases hwaiting
  have hpaths : ((s.slots.filter fun slot => (l.loadFile files slot.1).isOk).map Prod.fst) =
      (ps.mergeSort Path.le).filter fun p => (l.loadFile files p).isOk := by
    rw [← h.paths, List.filter_map]
    rfl
  have htold := h.told
  rw [Loading.readSoFar, hread, hpaths] at htold
  exact htold.trans ((List.mergeSort_perm ps Path.le).filter _)

/-- What is gathered is what the listings give one after the other. -/
theorem gather_eq_loadInOrder {slots : List (Path × Phase)}
    (done : ∀ slot ∈ slots, ∃ piece, slot.2 = .done piece)
    (fits : ∀ slot ∈ slots, slot.2.Fits (l.piece files slot.1)) :
    Loading.gather slots = some (l.loadInOrder files (slots.map Prod.fst)) := by
  induction slots with
  | nil => rfl
  | cons slot slots ih =>
    obtain ⟨p, phase⟩ := slot
    obtain ⟨⟨found, hdone⟩, hrest⟩ := List.forall_mem_cons.mp done
    obtain ⟨hfits, hothers⟩ := List.forall_mem_cons.mp fits
    dsimp only at hdone
    subst hdone
    have hpiece : l.piece files p = found := hfits
    rw [Loading.gather, ih hrest hothers, Option.map_some, List.map_cons, loadInOrder, ← hpiece]
    rfl

/-- Listings that can all be read give their streams one behind the other. -/
theorem loadInOrder_eq_ok {streams : Path → List Stream}
    (read : ∀ p ∈ ps, l.loadFile files p = .ok (streams p)) :
    l.loadInOrder files ps = .ok (ps.flatMap streams) := by
  induction ps with
  | nil => rfl
  | cons p ps ih =>
    obtain ⟨hp, hps⟩ := List.forall_mem_cons.mp read
    rw [loadInOrder, hp, ih hps]
    rfl

/-- The first listing that cannot be read makes them fail. -/
theorem loadInOrder_eq_error {before after : List Path} {p : Path} {f : Failure}
    (read : ∀ q ∈ before, (l.loadFile files q).isOk = true)
    (fails : l.loadFile files p = .error f) :
    l.loadInOrder files (before ++ p :: after) =
      .error ⟨.loadingListing p :: f.during, f.cause⟩ := by
  induction before with
  | nil =>
    rw [List.nil_append, loadInOrder, fails]
    rfl
  | cons q before ih =>
    obtain ⟨hq, hbefore⟩ := List.forall_mem_cons.mp read
    rw [List.cons_append, loadInOrder, ih hbefore]
    cases hload : l.loadFile files q with
    | ok streams => rfl
    | error g =>
      rw [hload] at hq
      cases hq

/-- What becomes of listings: all of their streams, if all of them can be read, or the failure of
the first one that cannot. In either case those have been told that can be read, each once. -/
inductive Outcome (l : Loader) (files : Folder) (ps told : List Path) :
    Attempt (List Stream) → Prop
  | whole {sorted : List Path} {streams : Path → List Stream} (perm : sorted.Perm ps)
    (ascending : Ascending sorted) (read : ∀ p ∈ ps, l.loadFile files p = .ok (streams p))
    (ordered : (sorted.flatMap streams).Pairwise Stream.Precedes) (tells : told.Perm ps) :
    Outcome l files ps told (.ok (sorted.flatMap streams))
  | failed {p : Path} {f : Failure} (mem : p ∈ ps) (fails : l.loadFile files p = .error f)
    (least : ∀ q ∈ ps, (l.loadFile files q).isOk = false → (compare p q).isLE = true)
    (tells : told.Perm (ps.filter fun q => (l.loadFile files q).isOk)) :
    Outcome l files ps told (.error ⟨.loadingListing p :: f.during, f.cause⟩)

theorem precedes_flatMap {streams : Path → List Stream} (ascending : Ascending ps)
    (read : ∀ p ∈ ps, l.loadFile files p = .ok (streams p)) :
    (ps.flatMap streams).Pairwise Stream.Precedes := by
  have hstreams : ∀ p ∈ ps, ∃ content : Content,
      streams p = l.segmentation.streams l.normalizer p content.chars := by
    intro p hp
    obtain ⟨content, -, hstreams⟩ := loadFile_eq_ok_iff.mp (read p hp)
    exact ⟨content, hstreams⟩
  have hsource : ∀ p ∈ ps, ∀ s ∈ streams p, s.id.source = p := by
    intro p hp s hs
    obtain ⟨content, hcontent⟩ := hstreams p hp
    rw [hcontent] at hs
    exact (Segmentation.mem_streams hs).1
  rw [List.pairwise_flatMap]
  constructor
  · intro p hp
    have hsame : (streams p).Pairwise fun a b => a.id.startLine < b.id.startLine := by
      obtain ⟨content, hcontent⟩ := hstreams p hp
      rw [hcontent]
      exact Segmentation.starts_ascend _ _ _ _
    apply List.Pairwise.imp_of_mem _ hsame
    intro a b ha hb hlt
    exact .inr ⟨(hsource p hp a ha).trans (hsource p hp b hb).symm, hlt⟩
  · apply List.Pairwise.imp_of_mem _ ascending
    intro p q hp hq hlt a ha b hb
    left
    rw [hsource p hp a ha, hsource q hq b hb]
    exact hlt

/-- What the listings give one after the other, in the order of their paths, is what becomes of
them. -/
theorem outcome_loadAll (differ : Path.AllDiffer ps) {told : List Path}
    (perm : told.Perm (ps.filter fun p => (l.loadFile files p).isOk)) :
    l.Outcome files ps told (l.loadAll files ps) := by
  have hsorted : Ascending (ps.mergeSort Path.le) := differ.ascending
  have hperm : (ps.mergeSort Path.le).Perm ps := List.mergeSort_perm ps Path.le
  unfold loadAll
  cases hfind : (ps.mergeSort Path.le).find? fun p => !(l.loadFile files p).isOk with
  | none =>
    have hread : ∀ p ∈ ps, (l.loadFile files p).isOk = true := by
      intro p hp
      simpa using List.find?_eq_none.mp hfind p (hperm.mem_iff.mpr hp)
    choose! streams hstreams using fun p hp => Attempt.isOk_iff.mp (hread p hp)
    have hsame : ∀ p ∈ ps.mergeSort Path.le, l.loadFile files p = .ok (streams p) :=
      fun p hp => hstreams p (hperm.mem_iff.mp hp)
    rw [loadInOrder_eq_ok hsame]
    rw [List.filter_eq_self.mpr hread] at perm
    exact .whole hperm hsorted hstreams (precedes_flatMap hsorted hsame) perm
  | some p =>
    obtain ⟨hfails, before, after, hsplit, hbefore⟩ := List.find?_eq_some_iff_append.mp hfind
    have hread : ∀ q ∈ before, (l.loadFile files q).isOk = true := by simpa using hbefore
    have hmem : p ∈ ps := hperm.mem_iff.mp (List.mem_of_find?_eq_some hfind)
    cases hload : l.loadFile files p with
    | ok streams =>
      rw [hload] at hfails
      cases hfails
    | error f =>
      rw [hsplit] at hsorted hperm ⊢
      rw [loadInOrder_eq_error hread hload]
      refine .failed hmem hload (fun q hq hfailed => ?_) perm
      apply hsorted.isLE_of_append (hperm.mem_iff.mpr hq)
      intro hq
      rw [hread q hq] at hfailed
      cases hfailed

end Loader

/-- In whatever order different listings are given, and in whatever order they come along: no load
goes on for ever, none tells a listing that cannot be read, and none has a result before all of them
are done. Then it has the result that they give one after the other: all streams, in the order of
the paths and of the lines, or the failure of the first listing that cannot be read. -/
theorem a_load_does_not_show_who_was_first (l : Loader) (files : Folder) {ps qs : List Path}
    (differ : Path.AllDiffer ps) (perm : qs.Perm ps) :
    (WellFounded fun s' s => l.Step files s s') ∧
      ∀ s, ReflTransGen (l.Step files) (.start qs) s →
        (∀ p ∈ s.told, (l.loadFile files p).isOk = true) ∧
          (((∃ s', l.Step files s s') ∧ s.result? = none) ∨
            (s.result? = some (l.loadAll files ps) ∧
              l.Outcome files ps s.told (l.loadAll files ps))) := by
  refine ⟨Loader.wellFounded_step l files, fun s run => ?_⟩
  have hloads : l.Loads files qs s := (Loader.loads_start l files qs).run run
  refine ⟨fun p told => hloads.isOk_of_told told, ?_⟩
  rcases Loader.step_or_done l files s with ⟨s', step⟩ | hdone
  · exact .inl ⟨⟨s', step⟩, step.result?_eq_none⟩
  · right
    have hresult : s.result? = some (l.loadAll files ps) := by
      rw [Loading.result?, Loader.gather_eq_loadInOrder hdone hloads.fits, hloads.paths,
        differ.mergeSort_eq perm, Loader.loadAll]
    exact ⟨hresult, Loader.outcome_loadAll differ ((hloads.told_perm hdone).trans (perm.filter _))⟩

namespace TwoListings

/-- Two listings of one instruction each; a third one is missing. -/
def files : Folder := .file "a" (Text.encode "ret\n") <| .file "b" (Text.encode "ret\n") .empty

def loader : Loader := ⟨⟨Rules.default, ⟨0, 0, []⟩⟩, .wholeFile⟩

def first : Path := ⟨"a"⟩

def second : Path := ⟨"b"⟩

def missing : Path := ⟨"c"⟩

/-- The stream of a listing. -/
def stream (p : Path) : Stream := ⟨⟨p, none, 0⟩, [⟨0, ["ret"]⟩]⟩

def failure : Failure :=
  ⟨[.loadingListing missing, .readingMetadata missing], .file .notFound⟩

theorem piece_eq {p : Path} (h : (loader.piece files p).toOption = some [stream p]) :
    loader.piece files p = .ok [stream p] := by
  cases hpiece : loader.piece files p with
  | error f =>
    rw [hpiece] at h
    cases h
  | ok streams =>
    rw [hpiece] at h
    rw [Option.some.inj h]

theorem piece_first : loader.piece files first = .ok [stream first] := piece_eq (by decide +kernel)

theorem piece_second : loader.piece files second = .ok [stream second] :=
  piece_eq (by decide)

theorem piece_missing : loader.piece files missing = .error failure := by rfl

theorem start_eq {p q : Path} (h : [p, q].Pairwise fun p q => Path.le p q = true)
    (differ : Path.AllDiffer [p, q]) :
    Loading.start [q, p] = ⟨[(p, .waiting), (q, .waiting)], []⟩ := by
  rw [Loading.start, differ.mergeSort_eq (List.Perm.swap p q []), List.mergeSort_of_pairwise h]
  rfl

/-- The second listing is read before the first one. -/
theorem run_both : ReflTransGen (loader.Step files) (.start [second, first])
    ⟨[(first, .done (.ok [stream first])), (second, .done (.ok [stream second]))],
      [second, first]⟩ := by
  rw [start_eq (by decide) (by decide)]
  apply ReflTransGen.head (@Loader.Step.tell _ _ [(first, .waiting)] [] second [] _ piece_second)
  apply ReflTransGen.head
    (@Loader.Step.tell _ _ [] [(second, .told [stream second])] first [second] _ piece_first)
  apply ReflTransGen.head (@Loader.Step.finish _ _ [(first, .told [stream first])] [] second
    [second, first] [stream second])
  exact .single (@Loader.Step.finish _ _ [] [(second, .done (.ok [stream second]))] first
    [second, first] [stream first])

/-- That a listing is missing is seen before the other one is read. -/
theorem run_missing : ReflTransGen (loader.Step files) (.start [missing, second])
    ⟨[(second, .done (.ok [stream second])), (missing, .done (.error failure))], [second]⟩ := by
  rw [start_eq (by decide) (by decide)]
  apply ReflTransGen.head (@Loader.Step.fail _ _ [(second, .waiting)] [] missing [] _ piece_missing)
  apply ReflTransGen.head
    (@Loader.Step.tell _ _ [] [(missing, .done (.error failure))] second [] _ piece_second)
  exact .single
    (@Loader.Step.finish _ _ [] [(missing, .done (.error failure))] second [second] [stream second])

end TwoListings

open TwoListings in
/-- Two listings are told in one order and give their streams in the other; with a missing one there
are no streams, though the other one was told. -/
theorem two_listings_side_by_side :
    (∃ s, ReflTransGen (loader.Step files) (.start [second, first]) s ∧
      s.told = [second, first] ∧ s.result? = some (loader.loadAll files [first, second]) ∧
      loader.loadAll files [first, second] = .ok [stream first, stream second]) ∧
    ∃ s, ReflTransGen (loader.Step files) (.start [missing, second]) s ∧
      s.told = [second] ∧ s.result? = some (loader.loadAll files [second, missing]) ∧
      loader.loadAll files [second, missing] = .error failure := by
  have hboth : Path.AllDiffer [first, second] := by decide
  have hone : Path.AllDiffer [second, missing] := by decide
  have hswap (p q : Path) : [q, p].Perm [p, q] := List.Perm.swap p q []
  obtain ⟨-, hloaded⟩ := a_load_does_not_show_who_was_first loader files hboth (hswap first second)
  obtain ⟨-, hfailed⟩ := a_load_does_not_show_who_was_first loader files hone (hswap second missing)
  constructor
  · rcases (hloaded _ run_both).2 with ⟨-, hnone⟩ | ⟨hresult, -⟩
    · cases hnone
    · exact ⟨_, run_both, rfl, hresult, (Option.some.inj hresult).symm⟩
  · rcases (hfailed _ run_missing).2 with ⟨-, hnone⟩ | ⟨hresult, -⟩
    · cases hnone
    · exact ⟨_, run_missing, rfl, hresult, (Option.some.inj hresult).symm⟩

end Lookalike
