-- What a walk finds. To a file leads a way, one directory after another; a walk
-- goes down the tree and asks its rules at each step, so it comes to the end of
-- just those ways on which the rules let every step pass.
import Lookalike.Corpus.Discovery
import Lookalike.Proofs.WrittenFiles

namespace Lookalike

/-! ## Ways down a tree -/

namespace Folder

/-- The entries of a directory, each with its name. -/
def listed : Folder → List (Bytes × Entry)
  | empty => []
  | file name content beside => (name, .file content) :: beside.listed
  | dir name inside beside => (name, .dir inside) :: beside.listed

/-- A way from a directory down to a file: the directories on it, one in another, and the file. -/
inductive Way : Folder → List (Bytes × Entry) → Prop
  | file {f : Folder} {name : Bytes} {content : Bytes} (here : (name, .file content) ∈ f.listed) :
    Way f [(name, .file content)]
  | dir {f inside : Folder} {name : Bytes} {steps : List (Bytes × Entry)}
    (here : (name, .dir inside) ∈ f.listed) (below : inside.Way steps) :
    Way f ((name, .dir inside) :: steps)

/-- A way begins with an entry, and what is behind it depends on that entry only. -/
theorem Way.of_listed {f g : Folder} {step : Bytes × Entry} {steps : List (Bytes × Entry)}
    (h : f.Way (step :: steps)) (here : step ∈ g.listed) : g.Way (step :: steps) := by
  cases h with
  | file => exact .file here
  | dir _ below => exact .dir here below

theorem Way.head_listed {f : Folder} {step : Bytes × Entry} {steps : List (Bytes × Entry)}
    (h : f.Way (step :: steps)) : step ∈ f.listed := by
  cases h with
  | file here => exact here
  | dir here => exact here

end Folder

namespace Walker

/-- The place behind some steps. -/
def Spot.down (s : Spot) (steps : List (Bytes × Entry)) : Spot :=
  steps.foldl (fun s step => s.join step.1) s

/-- The rules in force behind some steps: those of the directories on the way have come in front. -/
def Context.down (c : Context) (s : Spot) : List (Bytes × Entry) → Context
  | (name, .dir inside) :: steps => (c.enter (s.join name) inside).down (s.join name) steps
  | _ => c

/-- Every step of a way passes a test, which is told the steps before it. -/
def Along (test : List (Bytes × Entry) → Bytes × Entry → Prop) (steps : List (Bytes × Entry)) :
    Prop :=
  ∀ before step after, steps = before ++ step :: after → test before step

theorem along_nil (test : List (Bytes × Entry) → Bytes × Entry → Prop) : Along test [] := by
  intro before step after h
  cases before <;> cases h

theorem along_cons_iff {test : List (Bytes × Entry) → Bytes × Entry → Prop}
    {step : Bytes × Entry} {steps : List (Bytes × Entry)} :
    Along test (step :: steps) ↔
      test [] step ∧ Along (fun before => test (step :: before)) steps := by
  constructor
  · intro h
    exact ⟨h [] step steps rfl, fun before other after heq => h (step :: before) other after
      (by rw [heq, List.cons_append])⟩
  · rintro ⟨hstep, hsteps⟩ before other after heq
    cases before with
    | nil =>
      obtain ⟨rfl, -⟩ := List.cons.inj heq
      exact hstep
    | cons first before =>
      obtain ⟨rfl, hrest⟩ := List.cons.inj heq
      exact hsteps before other after hrest

/-! ## What is to be found -/

/-- The ways to the files that are to be found below a place. Neither the ignore files nor a dot in
front of its name keeps an entry on the way out, no ignore glob matches its path below the root, and
an include glob matches the path of the file, if there are any. -/
structure Finds (w : Walker) (c : Context) (s : Spot) (f : Folder) (steps : List (Bytes × Entry)) :
    Prop where
  way : f.Way steps
  admitted : Along (fun before step =>
    w.passesOver (c.down s before) ((s.down before).join step.1) step.1 step.2.isDir = false) steps
  unmatched : Along (fun before step =>
    ∀ g ∈ w.ignored, g.accepts ((s.down before).join step.1).below = false) steps
  included : w.included = [] ∨
    ∃ g ∈ w.included, g.accepts (s.down steps).below = true

variable {w : Walker} {c : Context} {s : Spot} {f : Folder} {name : Bytes} {content : Bytes}
  {inside : Folder} {step : Bytes × Entry} {steps : List (Bytes × Entry)} {p : Path}

theorem excludes_eq_false_iff {below : Bytes} :
    w.excludes below = false ↔ ∀ g ∈ w.ignored, g.accepts below = false := by
  unfold excludes
  rw [List.any_eq_false]
  simp only [Bool.not_eq_true]

theorem takes_iff {below : Bytes} :
    w.takes below = true ↔ w.excludes below = false ∧
      (w.included = [] ∨ ∃ g ∈ w.included, g.accepts below = true) := by
  simp [takes]

theorem Finds.of_listed {g : Folder} (h : w.Finds c s f (step :: steps)) (here : step ∈ g.listed) :
    w.Finds c s g (step :: steps) :=
  ⟨h.way.of_listed here, h.admitted, h.unmatched, h.included⟩

theorem not_finds_nil : ¬ w.Finds c s f [] := by
  intro h
  cases h.way

theorem finds_file_iff : w.Finds c s f ((name, .file content) :: steps) ↔
    (name, .file content) ∈ f.listed ∧ steps = [] ∧
      w.passesOver c (s.join name) name false = false ∧
      w.takes (s.join name).below = true := by
  rw [takes_iff, excludes_eq_false_iff]
  constructor
  · rintro ⟨way, admitted, unmatched, included⟩
    cases way with
    | file here =>
      exact ⟨here, rfl, (along_cons_iff.mp admitted).1, (along_cons_iff.mp unmatched).1, included⟩
  · rintro ⟨here, rfl, admitted, unmatched, included⟩
    exact ⟨.file here, along_cons_iff.mpr ⟨admitted, along_nil _⟩,
      along_cons_iff.mpr ⟨unmatched, along_nil _⟩, included⟩

theorem finds_dir_iff : w.Finds c s f ((name, .dir inside) :: steps) ↔
    (name, .dir inside) ∈ f.listed ∧ w.passesOver c (s.join name) name true = false ∧
      w.excludes (s.join name).below = false ∧
      w.Finds (c.enter (s.join name) inside) (s.join name) inside steps := by
  rw [excludes_eq_false_iff]
  constructor
  · rintro ⟨way, admitted, unmatched, included⟩
    cases way with
    | dir here below =>
      obtain ⟨hadmitted, hrest⟩ := along_cons_iff.mp admitted
      obtain ⟨hunmatched, hothers⟩ := along_cons_iff.mp unmatched
      exact ⟨here, hadmitted, hunmatched, below, hrest, hothers, included⟩
  · rintro ⟨here, hadmitted, hunmatched, way, admitted, unmatched, included⟩
    exact ⟨.dir here way, along_cons_iff.mpr ⟨hadmitted, admitted⟩,
      along_cons_iff.mpr ⟨hunmatched, unmatched⟩, included⟩

/-! ## What is found -/

/-- A path is the end of a way that is to be found. -/
def Reaches (w : Walker) (c : Context) (s : Spot) (f : Folder) (p : Path) : Prop :=
  ∃ steps, w.Finds c s f steps ∧ p = (s.down steps).spelled

/-- A way begins with the first entry of a directory or with one of the others. -/
theorem reaches_cons_iff {beside : Folder} (h : f.listed = step :: beside.listed) :
    w.Reaches c s f p ↔
      (∃ steps, w.Finds c s f (step :: steps) ∧ p = (s.down (step :: steps)).spelled) ∨
        w.Reaches c s beside p := by
  constructor
  · rintro ⟨steps, finds, hp⟩
    cases steps with
    | nil => exact absurd finds not_finds_nil
    | cons first steps =>
      have hfirst := finds.way.head_listed
      rw [h, List.mem_cons] at hfirst
      rcases hfirst with rfl | hbeside
      · exact .inl ⟨steps, finds, hp⟩
      · exact .inr ⟨first :: steps, finds.of_listed hbeside, hp⟩
  · rintro (⟨steps, finds, hp⟩ | ⟨steps, finds, hp⟩)
    · exact ⟨_, finds, hp⟩
    · cases steps with
      | nil => exact absurd finds not_finds_nil
      | cons first steps =>
        have hfirst : first ∈ f.listed := by
          rw [h]
          exact List.mem_cons_of_mem _ finds.way.head_listed
        exact ⟨_, finds.of_listed hfirst, hp⟩

theorem reaches_file_iff {beside : Folder} :
    w.Reaches c s (.file name content beside) p ↔
      ((w.passesOver c (s.join name) name false = false ∧
          w.takes (s.join name).below = true) ∧ p = (s.join name).spelled) ∨
        w.Reaches c s beside p := by
  have hlisted : (Folder.file name content beside).listed =
      (name, .file content) :: beside.listed := rfl
  rw [reaches_cons_iff hlisted]
  simp only [finds_file_iff, hlisted, List.mem_cons_self, true_and]
  apply or_congr_left
  constructor
  · rintro ⟨_, ⟨rfl, htaken⟩, hp⟩
    exact ⟨htaken, hp⟩
  · rintro ⟨htaken, hp⟩
    exact ⟨[], ⟨rfl, htaken⟩, hp⟩

theorem reaches_dir_iff {beside : Folder} :
    w.Reaches c s (.dir name inside beside) p ↔
      ((w.passesOver c (s.join name) name true = false ∧
          w.excludes (s.join name).below = false) ∧
        w.Reaches (c.enter (s.join name) inside) (s.join name) inside p) ∨
        w.Reaches c s beside p := by
  have hlisted : (Folder.dir name inside beside).listed =
      (name, .dir inside) :: beside.listed := rfl
  rw [reaches_cons_iff hlisted]
  simp only [finds_dir_iff, hlisted, List.mem_cons_self, true_and]
  apply or_congr_left
  constructor
  · rintro ⟨steps, ⟨hadmitted, hunmatched, finds⟩, hp⟩
    exact ⟨⟨hadmitted, hunmatched⟩, steps, finds, hp⟩
  · rintro ⟨⟨hadmitted, hunmatched⟩, steps, finds, hp⟩
    exact ⟨steps, ⟨hadmitted, hunmatched, finds⟩, hp⟩

theorem not_reaches_empty : ¬ w.Reaches c s .empty p := by
  rintro ⟨steps, ⟨way, -, -, -⟩, -⟩
  cases way with
  | file here => cases here
  | dir here => cases here

/-- A walk takes the files at the ends of the ways that are to be found, and no others. -/
theorem mem_walk_iff : p ∈ w.walk c s f ↔ w.Reaches c s f p := by
  induction f generalizing c s with
  | empty =>
    rw [walk]
    exact iff_of_false List.not_mem_nil not_reaches_empty
  | file name content beside ih =>
    rw [reaches_file_iff, ← ih, walk]
    split_ifs with htaken
    · rw [Bool.and_eq_true, Bool.not_eq_true'] at htaken
      rw [List.mem_cons, and_iff_right htaken]
    · rw [Bool.and_eq_true, Bool.not_eq_true'] at htaken
      rw [or_iff_right (fun h => htaken h.1)]
  | dir name inside beside ihInside ihBeside =>
    rw [reaches_dir_iff, ← ihBeside, ← ihInside, walk]
    split_ifs with hpruned
    · rw [Bool.or_eq_true] at hpruned
      have hkept : ¬ (w.passesOver c (s.join name) name true = false ∧
          w.excludes (s.join name).below = false) := by
        rintro ⟨hadmitted, hunmatched⟩
        simp [hadmitted, hunmatched] at hpruned
      rw [or_iff_right (fun h => hkept h.1)]
    · rw [Bool.not_eq_true, Bool.or_eq_false_iff] at hpruned
      rw [List.mem_append, and_iff_right hpruned]

end Walker
end Lookalike
