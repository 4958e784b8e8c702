-- The listings of a corpus are a set: what is collected from some roots ascends
-- without repetitions, and which paths these are does not depend on the order in
-- which the roots are named or on how often one is.
import Mathlib.Data.List.Sort
import Lookalike.Proofs.Orders
import Lookalike.Proofs.Runs
import Lookalike.Proofs.Walks

namespace Lookalike

open Std (TransCmp)

/-! ## Attempts in a row -/

namespace Attempt

variable {α β : Type} {f : α → Attempt β} {xs : List α}

/-- When attempts in a row succeed, each of them did, and the results are theirs. -/
theorem mem_of_mapM_eq_ok {ys : List β} (h : xs.mapM f = .ok ys) :
    (∀ x ∈ xs, ∃ y ∈ ys, f x = .ok y) ∧ ∀ y ∈ ys, ∃ x ∈ xs, f x = .ok y := by
  induction xs generalizing ys with
  | nil =>
    cases h
    exact ⟨fun _ hx => absurd hx List.not_mem_nil, fun _ hy => absurd hy List.not_mem_nil⟩
  | cons x xs ih =>
    rw [List.mapM_cons] at h
    obtain ⟨y, hy, h⟩ := bind_eq_ok_iff.mp h
    obtain ⟨rest, hrest, h⟩ := bind_eq_ok_iff.mp h
    cases h
    obtain ⟨hxs, hys⟩ := ih hrest
    constructor
    · intro x' hx'
      rcases List.mem_cons.mp hx' with rfl | hx'
      · exact ⟨y, List.mem_cons_self, hy⟩
      · obtain ⟨y', hy', hok⟩ := hxs x' hx'
        exact ⟨y', List.mem_cons_of_mem _ hy', hok⟩
    · intro y' hy'
      rcases List.mem_cons.mp hy' with rfl | hy'
      · exact ⟨x, List.mem_cons_self, hy⟩
      · obtain ⟨x', hx', hok⟩ := hys y' hy'
        exact ⟨x', List.mem_cons_of_mem _ hx', hok⟩

theorem mapM_fails_iff :
    (∃ e, xs.mapM f = .error e) ↔ ∃ x ∈ xs, ∃ e, f x = .error e := by
  induction xs with
  | nil => simp [pure, Except.pure]
  | cons x xs ih =>
    rw [List.mapM_cons, List.exists_mem_cons_iff, ← ih]
    simp only [bind_eq_error_iff]
    cases hx : f x with
    | error e => simp
    | ok y =>
      constructor
      · rintro ⟨e, h | ⟨_, -, h | ⟨_, -, h⟩⟩⟩
        · cases h
        · exact .inr ⟨e, h⟩
        · cases h
      · rintro (⟨e, h⟩ | ⟨e, h⟩)
        · cases h
        · exact ⟨e, .inr ⟨y, rfl, .inl h⟩⟩

end Attempt

/-! ## Paths that ascend -/

theorem Path.compare_eq_lt {p q : Path} (ordered : le p q = true) (differ : p.same q = false) :
    compare p q = .lt := by
  have hle : (compare p q).isLE = true := ordered
  cases h : compare p q with
  | lt => rfl
  | eq =>
    rw [compare_eq_iff.mp h] at differ
    cases differ
  | gt =>
    rw [h] at hle
    cases hle

/-- Each path comes before the next one, compared by components. -/
def Ascending (ps : List Path) : Prop := ps.Pairwise fun p q => compare p q = .lt

/-- Ascending lists of the same paths are the same, up to the spelling of paths. -/
theorem Ascending.components_eq {ps qs : List Path} (hp : Ascending ps) (hq : Ascending qs)
    (hsub : ∀ p ∈ ps, ∃ q ∈ qs, q.same p = true) (hsup : ∀ q ∈ qs, ∃ p ∈ ps, p.same q = true) :
    ps.map Path.components = qs.map Path.components := by
  have hascend {rs : List Path} (h : Ascending rs) :
      (rs.map Path.components).Pairwise fun a b => compare a b = .lt := List.pairwise_map.mpr h
  have hmem {as bs : List Path} (h : ∀ a ∈ as, ∃ b ∈ bs, b.same a = true) :
      ∀ cs ∈ as.map Path.components, cs ∈ bs.map Path.components := by
    intro cs hcs
    obtain ⟨a, ha, rfl⟩ := List.mem_map.mp hcs
    obtain ⟨b, hb, hsame⟩ := h a ha
    rw [← beq_iff_eq.mp hsame]
    exact List.mem_map_of_mem hb
  have hirrefl : Std.Irrefl fun a b : List Component => compare a b = .lt :=
    ⟨fun a h => by
      rw [Std.compare_self] at h
      cases h⟩
  have hanti : Std.Antisymm fun a b : List Component => compare a b = .lt :=
    ⟨fun a b hab hba => by
      rw [Std.OrientedCmp.gt_of_lt hab] at hba
      cases hba⟩
  exact (hascend hp).eq_of_mem_iff (hascend hq) fun cs => ⟨hmem hsub cs, hmem hsup cs⟩

namespace Walker

/-! ## Without repetitions -/

theorem mem_of_mem_dropRepeated {ps : List Path} {p : Path} (h : p ∈ dropRepeated ps) : p ∈ ps := by
  fun_induction dropRepeated ps with
  | case1 => exact h
  | case2 => exact h
  | case3 q r rest hsame ih =>
    rcases List.mem_cons.mp (ih h) with rfl | h
    · exact List.mem_cons_self
    · exact List.mem_cons_of_mem _ (List.mem_cons_of_mem _ h)
  | case4 q r rest hsame ih =>
    rcases List.mem_cons.mp h with rfl | h
    · exact List.mem_cons_self
    · exact List.mem_cons_of_mem _ (ih h)

/-- What is dropped is the same as something that stays. -/
theorem exists_mem_dropRepeated {ps : List Path} {p : Path} (h : p ∈ ps) :
    ∃ q ∈ dropRepeated ps, q.same p = true := by
  fun_induction dropRepeated ps generalizing p with
  | case1 => cases h
  | case2 q =>
    obtain rfl := List.mem_singleton.mp h
    exact ⟨p, List.mem_cons_self, beq_self_eq_true _⟩
  | case3 q r rest hsame ih =>
    rcases List.mem_cons.mp h with rfl | h
    · exact ih List.mem_cons_self
    · rcases List.mem_cons.mp h with rfl | h
      · -- what stands for the first path stands for the second one as well
        obtain ⟨x, hx, hxq⟩ := ih List.mem_cons_self
        exact ⟨x, hx, beq_iff_eq.mpr ((beq_iff_eq.mp hxq).trans (beq_iff_eq.mp hsame))⟩
      · exact ih (List.mem_cons_of_mem _ h)
  | case4 q r rest hdiffer ih =>
    rcases List.mem_cons.mp h with rfl | h
    · exact ⟨p, List.mem_cons_self, beq_self_eq_true _⟩
    · obtain ⟨x, hx, hxp⟩ := ih h
      exact ⟨x, List.mem_cons_of_mem _ hx, hxp⟩

theorem ascending_dropRepeated {ps : List Path} (h : ps.Pairwise fun p q => Path.le p q = true) :
    Ascending (dropRepeated ps) := by
  fun_induction dropRepeated ps with
  | case1 => exact List.Pairwise.nil
  | case2 q => exact List.pairwise_singleton _ q
  | case3 q r rest hsame ih =>
    exact ih (h.sublist ((List.sublist_cons_self r rest).cons_cons q))
  | case4 q r rest hdiffer ih =>
    obtain ⟨hq, hrest⟩ := List.pairwise_cons.mp h
    have hlt : compare q r = .lt :=
      Path.compare_eq_lt (hq r List.mem_cons_self) (Bool.eq_false_iff.mpr hdiffer)
    refine List.pairwise_cons.mpr ⟨fun x hx => ?_, ih hrest⟩
    rcases List.mem_cons.mp (mem_of_mem_dropRepeated hx) with rfl | hx
    · exact hlt
    · exact TransCmp.lt_of_lt_of_isLE hlt ((List.pairwise_cons.mp hrest).1 x hx)

/-! ## What a corpus holds -/

variable {w : Walker} {files : Folder} {root p : Path} {roots : List Path}

/-- The path of a root as a place: nothing is below it yet. -/
def rootSpot (root : Path) (names : List Bytes) : Spot :=
  ⟨root, [], [Path.separator].intercalate names⟩

/-- The rules in force for what a root holds: its own, and those of the directories above it. -/
def rootContext (files : Folder) (root : Path) (names : List Bytes) (inside : Folder) : Context :=
  Context.enter ⟨files, [], rulesAbove files names⟩ (rootSpot root names) inside

/-- What a root brings: itself, if it is a file, and the files below it that are to be found, if it
is a directory. -/
inductive Brings (w : Walker) (files : Folder) (root : Path) : Path → Prop
  | file (h : files.isFile root = true) : Brings w files root root
  | below {names : List Bytes} {inside : Folder} {steps : List (Bytes × Entry)}
    (h : files.resolve root = .ok ⟨names, .dir inside⟩)
    (finds : w.Finds (rootContext files root names inside) (rootSpot root names) inside steps) :
    Brings w files root ((rootSpot root names).down steps).spelled

theorem isDir_eq_false_of_isFile (h : files.isFile root = true) : files.isDir root = false := by
  unfold Folder.isFile at h
  unfold Folder.isDir
  split at h
  · rename_i hplace
    rw [hplace]
  · cases h

/-- A walk that succeeds gives what a directory brings. -/
theorem mem_walkFiles_iff {names : List Bytes} {inside : Folder} {ps : List Path}
    (h : files.resolve root = .ok ⟨names, .dir inside⟩) (ok : w.walkFiles files root = .ok ps) :
    p ∈ ps ↔ w.Brings files root p := by
  unfold walkFiles at ok
  rw [h] at ok
  dsimp only at ok
  split_ifs at ok
  cases ok
  rw [List.mem_mergeSort, mem_walk_iff]
  constructor
  · rintro ⟨steps, finds, rfl⟩
    exact .below h finds
  · rintro (hfile | ⟨h', finds⟩)
    · have hdir := isDir_eq_false_of_isFile hfile
      unfold Folder.isDir at hdir
      rw [h] at hdir
      cases hdir
    · rw [h] at h'
      cases h'
      exact ⟨_, finds, rfl⟩

theorem isDir_iff : files.isDir root = true ↔
    ∃ names inside, files.resolve root = .ok ⟨names, .dir inside⟩ := by
  unfold Folder.isDir
  split
  · rename_i names inside h
    exact ⟨fun _ => ⟨names, inside, h⟩, fun _ => rfl⟩
  · rename_i h
    simp only [Bool.false_eq_true, false_iff, not_exists]
    intro names inside hplace
    exact h names inside hplace

/-- A root that can be expanded gives what it brings. -/
theorem mem_expand_iff {ps : List Path} (ok : w.expand files root = .ok ps) :
    p ∈ ps ↔ w.Brings files root p := by
  unfold expand at ok
  split_ifs at ok with hdir hfile
  · obtain ⟨names, inside, h⟩ := isDir_iff.mp hdir
    exact mem_walkFiles_iff h ok
  · cases ok
    rw [List.mem_singleton]
    constructor
    · rintro rfl
      exact .file hfile
    · rintro (_ | ⟨h, -⟩)
      · rfl
      · exact absurd (isDir_iff.mpr ⟨_, _, h⟩) hdir

/-- A root cannot be expanded when it leads to no file and no directory, or the walk fails. -/
theorem expand_fails_iff : (∃ e, w.expand files root = .error e) ↔
    (files.isFile root = false ∧ files.isDir root = false) ∨
      (files.isDir root = true ∧ ∃ e, w.walkFiles files root = .error e) := by
  unfold expand
  split_ifs with hdir hfile
  · simp [hdir]
  · simp [hdir, hfile]
  · simp [hdir, hfile]

/-- What is collected ascends and is, up to the spelling of paths, what some root brings. -/
theorem collect_ok {found : List Path} (ok : w.collect files roots = .ok found) :
    Ascending found ∧ (∀ p ∈ found, ∃ root ∈ roots, w.Brings files root p) ∧
      ∀ root ∈ roots, ∀ p, w.Brings files root p → ∃ q ∈ found, q.same p = true := by
  obtain ⟨lists, hlists, h⟩ := Attempt.bind_eq_ok_iff.mp ok
  cases h
  obtain ⟨hleft, hright⟩ := Attempt.mem_of_mapM_eq_ok hlists
  refine ⟨ascending_dropRepeated (pairwise_mergeSort compare _), fun p hp => ?_,
    fun root hroot p brings => ?_⟩
  · obtain ⟨ps, hps, hp⟩ := List.mem_flatten.mp
      (List.mem_mergeSort.mp (mem_of_mem_dropRepeated hp))
    obtain ⟨root, hroot, hok⟩ := hright ps hps
    exact ⟨root, hroot, (mem_expand_iff hok).mp hp⟩
  · obtain ⟨ps, hps, hok⟩ := hleft root hroot
    apply exists_mem_dropRepeated
    rw [List.mem_mergeSort]
    exact List.mem_flatten.mpr ⟨ps, hps, (mem_expand_iff hok).mpr brings⟩

theorem collect_fails_iff : (∃ e, w.collect files roots = .error e) ↔
    ∃ root ∈ roots, (files.isFile root = false ∧ files.isDir root = false) ∨
      (files.isDir root = true ∧ ∃ e, w.walkFiles files root = .error e) := by
  simp only [← expand_fails_iff, ← Attempt.mapM_fails_iff]
  unfold collect
  simp only [Attempt.bind_eq_error_iff]
  constructor
  · rintro ⟨e, h | ⟨_, -, h⟩⟩
    · exact ⟨e, h⟩
    · cases h
  · rintro ⟨e, h⟩
    exact ⟨e, .inl h⟩

/-- What a root brings does not depend on the other roots, so collections of the same roots are the
same, up to the spelling of paths. -/
theorem collect_components_eq {others found found' : List Path}
    (same : ∀ root, root ∈ others ↔ root ∈ roots) (ok : w.collect files roots = .ok found)
    (ok' : w.collect files others = .ok found') :
    found.map Path.components = found'.map Path.components := by
  obtain ⟨ascending, brought, all⟩ := collect_ok ok
  obtain ⟨ascending', brought', all'⟩ := collect_ok ok'
  refine ascending.components_eq ascending' (fun p hp => ?_) fun q hq => ?_
  · obtain ⟨root, hroot, brings⟩ := brought p hp
    exact all' root ((same root).mpr hroot) p brings
  · obtain ⟨root, hroot, brings⟩ := brought' q hq
    exact all root ((same root).mp hroot) q brings

end Walker

/-- A collection fails when a root leads to nothing or a walk fails. Otherwise it ascends, and it
is, up to the spelling of paths, what the roots bring: the files among them, whatever the globs are,
and of the files below the directories just those that the rules and the globs let through. So
neither the order of the roots nor how often one of them is named makes a difference. -/
theorem a_corpus_is_a_sorted_set (w : Walker) (files : Folder) (roots : List Path) :
    ((∃ e, w.collect files roots = .error e) ↔
      ∃ root ∈ roots, (files.isFile root = false ∧ files.isDir root = false) ∨
        (files.isDir root = true ∧ ∃ e, w.walkFiles files root = .error e)) ∧
    (∀ found, w.collect files roots = .ok found →
      Ascending found ∧ (∀ p ∈ found, ∃ root ∈ roots, w.Brings files root p) ∧
        ∀ root ∈ roots, ∀ p, w.Brings files root p → ∃ q ∈ found, q.same p = true) ∧
    ∀ others, (∀ root, root ∈ others ↔ root ∈ roots) →
      ((∃ e, w.collect files roots = .error e) ∧ ∃ e, w.collect files others = .error e) ∨
        ∃ found found', w.collect files roots = .ok found ∧ w.collect files others = .ok found' ∧
          found.map Path.components = found'.map Path.components := by
  refine ⟨Walker.collect_fails_iff, fun found ok => Walker.collect_ok ok, fun others same => ?_⟩
  have hfails : (∃ e, w.collect files others = .error e) ↔
      ∃ e, w.collect files roots = .error e := by
    simp only [Walker.collect_fails_iff, same]
  cases h : w.collect files roots with
  | error e => exact .inl ⟨⟨e, rfl⟩, hfails.mpr ⟨e, h⟩⟩
  | ok found =>
    cases h' : w.collect files others with
    | error e =>
      obtain ⟨e', herror⟩ := hfails.mp ⟨e, h'⟩
      cases h.symm.trans herror
    | ok found' => exact .inr ⟨found, found', rfl, rfl, Walker.collect_components_eq same h h'⟩

namespace SmallTree

/-- Two listings; beside them a hidden one, one that the ignore file names, a note, and a directory
that a glob keeps out. -/
def src : Folder :=
  .file ".a.asm" [] <| .file ".gitignore" (Text.encode "d.asm\n") <| .dir ".git" .empty <|
  .file "a.asm" [] <| .file "b.asm" [] <| .file "d.asm" [] <| .file "notes" [] <|
  .dir "old" (.file "a.asm" [] .empty) .empty

def files : Folder := .dir "src" src (.file "x" [] .empty)

/-- Without what is old, and with listings only. -/
def walker : Walker :=
  ⟨(Glob.read? .setting ['o', 'l', 'd']).toList,
    (Glob.read? .setting ['*', '.', 'a', 's', 'm']).toList, false⟩

/-- The directory, and beside it a file that is no listing by its name. -/
def roots : List Path := [⟨"src"⟩, ⟨"x"⟩]

def found : List Path := [⟨"src/a.asm"⟩, ⟨"src/b.asm"⟩, ⟨"x"⟩]

theorem expand_src : walker.expand files ⟨"src"⟩ = .ok [⟨"src/a.asm"⟩, ⟨"src/b.asm"⟩] := by
  have hwalk : walker.walk (Walker.rootContext files ⟨"src"⟩ ["src"] src)
      (Walker.rootSpot ⟨"src"⟩ ["src"]) src = [⟨"src/a.asm"⟩, ⟨"src/b.asm"⟩] := by
    decide
  have hsorted : [(⟨"src/a.asm"⟩ : Path), ⟨"src/b.asm"⟩].mergeSort Path.le =
      [⟨"src/a.asm"⟩, ⟨"src/b.asm"⟩] := List.mergeSort_of_pairwise (by decide)
  have hplace : files.resolve ⟨"src"⟩ = .ok ⟨["src"], .dir src⟩ := by rfl
  have hreadable : (Walker.rulesAbove files ["src"]).any DirRules.broken = false := by
    decide +kernel
  unfold Walker.expand Walker.walkFiles
  rw [if_pos (Walker.isDir_iff.mpr ⟨_, _, hplace⟩), hplace]
  dsimp only
  rw [if_neg (by rw [hreadable]; decide)]
  rw [Walker.rootContext, Walker.rootSpot] at hwalk
  rw [hwalk, hsorted]

theorem collect_roots : walker.collect files roots = .ok found := by
  have hfile : walker.expand files ⟨"x"⟩ = .ok [⟨"x"⟩] := by rfl
  have hsorted : found.mergeSort Path.le = found := List.mergeSort_of_pairwise (by decide)
  have hfound : found = [[⟨"src/a.asm"⟩, ⟨"src/b.asm"⟩], [⟨"x"⟩]].flatten := rfl
  have hkept : Walker.dropRepeated found = found := by
    unfold found
    rw [Walker.dropRepeated, if_neg (by decide), Walker.dropRepeated,
      if_neg (by decide), Walker.dropRepeated]
  unfold Walker.collect roots
  rw [List.mapM_cons, List.mapM_cons, List.mapM_nil, expand_src, hfile]
  change Except.ok (Walker.dropRepeated (found.mergeSort Path.le)) = _
  rw [hsorted, hkept]

end SmallTree

open SmallTree in
/-- Of the small tree the two listings are found, and the file beside it, in any order of the roots
and also when one of them is named again. -/
theorem two_listings_of_a_small_tree :
    walker.collect files roots = .ok found ∧ Ascending found ∧
      ¬ walker.Brings files ⟨"src"⟩ ⟨"src/.a.asm"⟩ ∧ ¬ walker.Brings files ⟨"src"⟩ ⟨"src/d.asm"⟩ ∧
      ¬ walker.Brings files ⟨"src"⟩ ⟨"src/notes"⟩ ∧
      ¬ walker.Brings files ⟨"src"⟩ ⟨"src/old/a.asm"⟩ ∧
      ∃ found', walker.collect files [⟨"x"⟩, ⟨"src"⟩, ⟨"x"⟩] = .ok found' ∧
        found.map Path.components = found'.map Path.components := by
  obtain ⟨-, hok, hothers⟩ := a_corpus_is_a_sorted_set walker files roots
  obtain ⟨ascending, -, all⟩ := hok found collect_roots
  have left (p : Path) (h : ∀ q ∈ found, q.same p = false) :
      ¬ walker.Brings files ⟨"src"⟩ p := by
    intro brings
    obtain ⟨q, hq, hsame⟩ := all ⟨"src"⟩ List.mem_cons_self p brings
    rw [h q hq] at hsame
    cases hsame
  refine ⟨collect_roots, ascending, left _ (by decide), left _ (by decide),
    left _ (by decide), left _ (by decide), ?_⟩
  have same : ∀ root, root ∈ [(⟨"x"⟩ : Path), ⟨"src"⟩, ⟨"x"⟩] ↔ root ∈ roots := by
    intro root
    simp only [roots, List.mem_cons, List.not_mem_nil, or_false]
    tauto
  rcases hothers _ same with ⟨⟨e, herror⟩, -⟩ | ⟨_, found', h, h', hsame⟩
  · cases collect_roots.symm.trans herror
  · cases collect_roots.symm.trans h
    exact ⟨found', h', hsame⟩

end Lookalike
