-- The laws of written files: a path that led somewhere before a file was
-- written leads to the same place after it, and the path that was written
-- leads to the new content.
import Mathlib.Data.List.Basic
import Mathlib.Data.List.DropRight
import Lookalike.Proofs.Runs

namespace Lookalike

/-- Whether an entry is a directory. -/
def Entry.isDir : Entry → Bool
  | .file _ => false
  | .dir _ => true

namespace Folder

/-! ## Entries by name -/

theorem get?_put_self (name : Bytes) (e : Entry) (f : Folder) :
    (f.put name e).get? name = some e := by
  induction f with
  | empty => cases e <;> simp [put, get?]
  | file n content beside ih =>
    by_cases h : n = name
    · cases e <;> simp [put, get?, h]
    · simp [put, get?, h, ih]
  | dir n inside beside _ ih =>
    by_cases h : n = name
    · cases e <;> simp [put, get?, h]
    · simp [put, get?, h, ih]

theorem get?_put_of_ne {name other : Bytes} (hne : name ≠ other) (e : Entry) (f : Folder) :
    (f.put name e).get? other = f.get? other := by
  induction f with
  | empty => cases e <;> simp [put, get?, hne]
  | file n content beside ih =>
    by_cases h : n = name
    · cases e <;> simp [put, get?, h, hne]
    · simp [put, get?, h, ih]
  | dir n inside beside _ ih =>
    by_cases h : n = name
    · cases e <;> simp [put, get?, h, hne]
    · simp [put, get?, h, ih]

/-! ## Entries by names -/

theorem find?_cons (name : Bytes) (names : List Bytes) (f : Folder) :
    f.find? (name :: names) =
      if names = [] then f.get? name
      else match f.get? name with
        | some (.dir inside) => inside.find? names
        | _ => none := by
  cases names with
  | nil => rfl
  | cons n ns => rw [if_neg (List.cons_ne_nil n ns)]; rfl

theorem putAt_cons (e : Entry) (name : Bytes) (names : List Bytes) (f : Folder) :
    f.putAt e (name :: names) =
      if names = [] then f.put name e
      else match f.get? name with
        | some (.dir inside) => f.put name (.dir (inside.putAt e names))
        | _ => f := by
  cases names with
  | nil => rfl
  | cons n ns => rw [if_neg (List.cons_ne_nil n ns)]; rfl

theorem find?_concat (names : List Bytes) (name : Bytes) (f : Folder) :
    f.find? (names ++ [name]) =
      match f.find? names with
      | some (.dir inside) => inside.get? name
      | _ => none := by
  induction names generalizing f with
  | nil => rfl
  | cons n ns ih =>
    rw [List.cons_append, find?_cons, if_neg (by simp), find?_cons]
    split_ifs with hns
    · subst hns
      rw [List.nil_append]
      cases f.get? n with
      | none => rfl
      | some e => cases e <;> rfl
    · cases f.get? n with
      | none => rfl
      | some e =>
        cases e with
        | file c => rfl
        | dir inside => exact ih inside

theorem find?_dropLast {names : List Bytes} {f : Folder} {e : Entry}
    (h : f.find? names = some e) : ∃ inside, f.find? names.dropLast = some (.dir inside) := by
  rcases List.eq_nil_or_concat names with rfl | ⟨above, name, rfl⟩
  · exact ⟨f, rfl⟩
  · rw [List.concat_eq_append] at h ⊢
    rw [find?_concat] at h
    rw [List.dropLast_concat]
    split at h
    · rename_i inside hinside
      exact ⟨inside, hinside⟩
    · cases h

theorem find?_putAt_self (e : Entry) {names : List Bytes} (name : Bytes) {f inside : Folder}
    (h : f.find? names = some (.dir inside)) :
    (f.putAt e (names ++ [name])).find? (names ++ [name]) = some e := by
  induction names generalizing f with
  | nil => exact get?_put_self name e f
  | cons n ns ih =>
    have hne : ns ++ [name] ≠ [] := by simp
    rw [List.cons_append, putAt_cons, if_neg hne]
    rw [find?_cons] at h
    have hdir : ∃ d, f.get? n = some (.dir d) ∧ d.find? ns = some (.dir inside) := by
      split_ifs at h with hns
      · subst hns
        exact ⟨inside, h, rfl⟩
      · split at h
        · rename_i d hd
          exact ⟨d, hd, h⟩
        · cases h
    obtain ⟨d, hd, hrest⟩ := hdir
    rw [hd]
    dsimp only
    rw [find?_cons, if_neg hne, get?_put_self]
    exact ih hrest

theorem put_put (name : Bytes) (e e' : Entry) (f : Folder) :
    (f.put name e).put name e' = f.put name e' := by
  induction f with
  | empty => cases e <;> cases e' <;> simp [put]
  | file n content beside ih =>
    by_cases h : n = name
    · cases e <;> cases e' <;> simp [put, h]
    · simp [put, h, ih]
  | dir n inside beside _ ih =>
    by_cases h : n = name
    · cases e <;> cases e' <;> simp [put, h]
    · simp [put, h, ih]

/-- Of two entries at the same names the second one stays. -/
theorem putAt_putAt (e e' : Entry) (names : List Bytes) (f : Folder) :
    (f.putAt e names).putAt e' names = f.putAt e' names := by
  induction names generalizing f with
  | nil => rfl
  | cons n ns ih =>
    simp only [putAt_cons]
    split_ifs with hns
    · exact put_put n e e' f
    · cases hget : f.get? n with
      | none => simp only [hget]
      | some there =>
        cases there with
        | file c => simp only [hget]
        | dir inside => simp only [get?_put_self, ih, put_put]

/-! ## What a new file leaves in place -/

/-- Every entry stays what it is, a file or a directory. -/
def Keeps (top new : Folder) : Prop :=
  ∀ names e, top.find? names = some e → ∃ e', new.find? names = some e' ∧ e'.isDir = e.isDir

theorem keeps_refl (top : Folder) : Keeps top top := fun _ e h => ⟨e, h, rfl⟩

theorem Keeps.trans {top mid new : Folder} (h : Keeps top mid) (h' : Keeps mid new) :
    Keeps top new := by
  intro names e he
  obtain ⟨e₁, he₁, hkind₁⟩ := h names e he
  obtain ⟨e₂, he₂, hkind₂⟩ := h' names e₁ he₁
  exact ⟨e₂, he₂, hkind₂.trans hkind₁⟩

theorem keeps_put {f : Folder} {name : Bytes} {e : Entry}
    (hsame : ∀ old, f.get? name = some old → e.isDir = old.isDir)
    (hinside : ∀ inside d, f.get? name = some (.dir inside) → e = .dir d → Keeps inside d) :
    Keeps f (f.put name e) := by
  intro names old h
  cases names with
  | nil =>
    cases h
    exact ⟨_, rfl, rfl⟩
  | cons n ns =>
    by_cases hn : name = n
    · subst hn
      rw [find?_cons] at h ⊢
      rw [get?_put_self]
      split_ifs at h ⊢ with hns
      · exact ⟨e, rfl, hsame old h⟩
      · cases hget : f.get? name with
        | none => simp [hget] at h
        | some there =>
          have hkind := hsame there hget
          cases there with
          | file c => simp [hget] at h
          | dir inside =>
            simp only [hget] at h
            cases e with
            | file c => cases hkind
            | dir d => exact hinside inside d hget rfl ns old h
    · rw [find?_cons] at h ⊢
      rw [get?_put_of_ne hn]
      exact ⟨old, h, rfl⟩

/-- An entry in a free place and a file in the place of a file keep all entries. -/
theorem keeps_putAt (e : Entry) {names : List Bytes} {f : Folder}
    (h : ∀ old, f.find? names = some old → old.isDir = false ∧ e.isDir = false) :
    Keeps f (f.putAt e names) := by
  induction names generalizing f with
  | nil => exact keeps_refl f
  | cons n ns ih =>
    rw [putAt_cons]
    rw [find?_cons] at h
    split_ifs at h ⊢ with hns
    · apply keeps_put
      · intro old hold
        obtain ⟨hfile, hnew⟩ := h old hold
        rw [hnew, hfile]
      · intro inside d hinside _
        cases (h _ hinside).1
    · cases hget : f.get? n with
      | none => exact keeps_refl f
      | some there =>
        cases there with
        | file c => exact keeps_refl f
        | dir inside =>
          rw [hget] at h
          apply keeps_put
          · intro old hold
            rw [hget] at hold
            cases hold
            rfl
          · intro inside' d hinside hd
            rw [hget] at hinside
            cases hinside
            cases hd
            exact ih h

/-! ## Following paths -/

theorem follow_append (top : Folder) (at_ : Place) (above below : List Bytes) :
    follow top at_ (above ++ below) =
      match follow top at_ above with
      | .ok place => follow top place below
      | .error e => .error e := by
  fun_induction follow top at_ above with
  | case1 => rfl
  | case2 => simp_all [follow]
  | case3 at_ piece pieces inside hentry hidle ih =>
    rw [List.cons_append, follow, hentry]
    simp only [hidle, if_true]
    exact ih
  | case4 at_ pieces inside hentry names hidle ih =>
    rw [List.cons_append, follow, hentry]
    simp only [hidle, if_true, if_false]
    exact ih
  | case5 at_ piece pieces inside hentry hidle hup hget =>
    rw [List.cons_append, follow, hentry]
    simp only [hidle, hup, if_false, hget]
  | case6 at_ piece pieces inside hentry hidle hup e hget ih =>
    rw [List.cons_append, follow, hentry]
    simp only [hidle, hup, if_false, hget]
    exact ih

theorem Keeps.dir {top new inside : Folder} (keeps : Keeps top new) {names : List Bytes}
    (h : top.find? names = some (.dir inside)) : ∃ d, new.find? names = some (.dir d) := by
  obtain ⟨e, he, hkind⟩ := keeps _ _ h
  cases e with
  | file c => cases hkind
  | dir d => exact ⟨d, he⟩

/-- A path that was followed in a tree leads to the same names in every tree that keeps its
entries. -/
theorem follow_keeps {top new : Folder} (keeps : Keeps top new) {at_ place : Place}
    {pieces : List Bytes} (hat : top.find? at_.names = some at_.entry)
    (h : follow top at_ pieces = .ok place) {e : Entry} (he : new.find? at_.names = some e) :
    top.find? place.names = some place.entry ∧
      ∃ e', new.find? place.names = some e' ∧ follow new ⟨at_.names, e⟩ pieces =
        .ok ⟨place.names, e'⟩ := by
  fun_induction follow top at_ pieces generalizing e with
  | case1 at_ =>
    cases h
    exact ⟨hat, e, he, rfl⟩
  | case2 => cases h
  | case3 at_ piece pieces inside hentry hidle ih =>
    obtain ⟨hplace, e', he', hfollow⟩ := ih hat h he
    refine ⟨hplace, e', he', ?_⟩
    rw [hentry] at hat
    obtain ⟨d, hd⟩ := keeps.dir hat
    rw [he] at hd
    cases hd
    rw [follow]
    simp only [hidle, if_true]
    exact hfollow
  | case4 at_ pieces inside hentry names hidle ih =>
    rw [hentry] at hat
    obtain ⟨above, habove⟩ := find?_dropLast hat
    obtain ⟨d, hd⟩ := keeps.dir habove
    have hup : top.find? names = some (.dir above) := habove
    have hsome : (top.find? names).getD (.dir top) = .dir above := by rw [hup]; rfl
    obtain ⟨hplace, e', he', hfollow⟩ := ih (by rw [hsome]; exact hup) h hd
    refine ⟨hplace, e', he', ?_⟩
    obtain ⟨d', hd'⟩ := keeps.dir hat
    rw [he] at hd'
    cases hd'
    rw [follow]
    simp only [hidle, if_true, if_false, hd, Option.getD_some]
    exact hfollow
  | case5 at_ piece pieces inside hentry hidle hup hget => cases h
  | case6 at_ piece pieces inside hentry hidle hup there hget ih =>
    rw [hentry] at hat
    have hnext : top.find? (at_.names ++ [piece]) = some there := by
      rw [find?_concat, hat]
      exact hget
    obtain ⟨e₂, he₂, -⟩ := keeps _ _ hnext
    obtain ⟨hplace, e', he', hfollow⟩ := ih hnext h he₂
    refine ⟨hplace, e', he', ?_⟩
    obtain ⟨d, hd⟩ := keeps.dir hat
    rw [he] at hd
    cases hd
    rw [find?_concat, he] at he₂
    rw [follow]
    simp only [hidle, hup, if_false]
    simp only at he₂
    rw [he₂]
    exact hfollow

/-- A place that a path led to is found under its names, and so is it in every tree that keeps the
entries. -/
theorem follow_top_keeps {top new : Folder} (keeps : Keeps top new) {place : Place}
    {pieces : List Bytes} (h : follow top ⟨[], .dir top⟩ pieces = .ok place) :
    top.find? place.names = some place.entry ∧
      ∃ e, new.find? place.names = some e ∧
        follow new ⟨[], .dir new⟩ pieces = .ok ⟨place.names, e⟩ :=
  follow_keeps keeps rfl h rfl

/-! ## Reading what was written -/

theorem splitLast_eq {p : Path} {above : List Bytes} {last : Bytes}
    (h : splitLast p = (above, last, false)) : p.segments = above ++ [last] := by
  unfold splitLast at h
  dsimp only at h
  split at h
  · cases h
  · rename_i s above' hdrop
    rw [Prod.mk.injEq, Prod.mk.injEq] at h
    obtain ⟨habove, hs, hidle⟩ := h
    have hnil : p.segments.reverse.takeWhile (·.isEmpty) = [] := by simpa using hidle
    rw [hnil, List.length_nil, List.drop_zero] at hdrop
    have hreverse := congrArg List.reverse hdrop
    rw [List.reverse_reverse, List.reverse_cons] at hreverse
    rw [hreverse, habove, hs]

theorem resolve_eq_ok_iff {top : Folder} {p : Path} {place : Place} :
    top.resolve p = .ok place ↔ p.bytes ≠ [] ∧
      follow top ⟨[], .dir top⟩ p.segments = .ok place := by
  unfold resolve
  split_ifs with hpath
  · simp [hpath]
  · rw [and_iff_right hpath]

theorem holder_eq_ok_iff {top : Folder} {p : Path} {above : List Bytes} {place : Place} :
    top.holder p above = .ok place ↔ p.bytes ≠ [] ∧
      follow top ⟨[], .dir top⟩ above = .ok place := by
  unfold holder
  split_ifs with hpath
  · simp [hpath]
  · rw [and_iff_right hpath]

/-- A path leads to the entry of its last name in the directory above. -/
theorem follow_concat {top inside : Folder} {above names : List Bytes} {last : Bytes} {e : Entry}
    (named : last ≠ "." ∧ last ≠ ".." ∧ last ≠ [])
    (habove : follow top ⟨[], .dir top⟩ above = .ok ⟨names, .dir inside⟩)
    (there : inside.get? last = some e) :
    follow top ⟨[], .dir top⟩ (above ++ [last]) = .ok ⟨names ++ [last], e⟩ := by
  rw [follow_append, habove]
  simp [follow, named, there]

/-- A file is written in the place of a file, or in a free place of a directory. -/
theorem target_cases {top : Folder} {p : Path} {place : List Bytes}
    (h : top.target p = .ok place) :
    p.bytes ≠ [] ∧
      ((∃ old, follow top ⟨[], .dir top⟩ p.segments = .ok ⟨place, .file old⟩) ∨
        ∃ (above : List Bytes) (last : Bytes) (names : List Bytes) (inside : Folder),
          p.segments = above ++ [last] ∧ (last ≠ "." ∧ last ≠ ".." ∧ last ≠ []) ∧
          follow top ⟨[], .dir top⟩ above = .ok ⟨names, .dir inside⟩ ∧
          inside.get? last = none ∧ place = names ++ [last]) := by
  rcases hsplit : splitLast p with ⟨above, last, open_⟩
  unfold target at h
  simp only [hsplit] at h
  split at h
  · cases h
  · rename_i names old hold
    cases h
    obtain ⟨hpath, hfound⟩ := resolve_eq_ok_iff.mp hold
    exact ⟨hpath, .inl ⟨old, hfound⟩⟩
  · rename_i err hmissing
    by_cases herr : err = .notFound
    · rw [if_pos herr] at h
      split at h
      · cases h
      · cases h
      · rename_i names inside hholder
        split_ifs at h with hlast hopen
        cases h
        obtain ⟨hpath, habove⟩ := holder_eq_ok_iff.mp hholder
        rw [Bool.not_eq_true] at hopen
        subst hopen
        have hsegments := splitLast_eq hsplit
        simp only [not_or] at hlast
        -- if something stood in the place, the path would lead to it
        have hfree : inside.get? last = none := by
          cases hget : inside.get? last with
          | none => rfl
          | some e =>
            have hthere := resolve_eq_ok_iff.mpr
              ⟨hpath, hsegments.symm ▸ follow_concat hlast habove hget⟩
            rw [hthere] at hmissing
            cases hmissing
        exact ⟨hpath, .inr ⟨above, last, names, inside, hsegments, hlast, habove, hfree, rfl⟩⟩
    · rw [if_neg herr] at h
      cases h

theorem write_eq_ok_iff {top new : Folder} {p : Path} {content : Bytes} :
    top.write p content = .ok new ↔
      ∃ place, top.target p = .ok place ∧ new = top.putAt (.file content) place := by
  unfold write
  cases top.target p with
  | error e => simp [bind, Except.bind]
  | ok place => simp [bind, Except.bind, pure, Except.pure, eq_comm]

theorem follow_over {top : Folder} {pieces names : List Bytes} {old content : Bytes}
    (h : follow top ⟨[], .dir top⟩ pieces = .ok ⟨names, .file old⟩) :
    ∃ above name inside, names = above ++ [name] ∧ top.find? above = some (.dir inside) ∧
      (∀ e, top.find? names = some e → e.isDir = false) ∧
      follow (top.putAt (.file content) names) ⟨[], .dir (top.putAt (.file content) names)⟩ pieces =
        .ok ⟨names, .file content⟩ := by
  obtain ⟨hplace, -⟩ := follow_top_keeps (keeps_refl top) h
  rcases List.eq_nil_or_concat names with rfl | ⟨above, name, rfl⟩
  · cases hplace
  · rw [List.concat_eq_append] at h hplace ⊢
    obtain ⟨inside, hinside⟩ := find?_dropLast hplace
    rw [List.dropLast_concat] at hinside
    have hfile : ∀ e, top.find? (above ++ [name]) = some e → e.isDir = false := by
      intro e he
      rw [hplace] at he
      cases he
      rfl
    have hkeeps := keeps_putAt (.file content) fun e he => ⟨hfile e he, rfl⟩
    obtain ⟨-, e, he, hfollow⟩ := follow_top_keeps hkeeps h
    rw [find?_putAt_self _ name hinside] at he
    cases he
    exact ⟨above, name, inside, rfl, hinside, hfile, hfollow⟩

theorem follow_fresh {top inside : Folder} {above names : List Bytes} {last : Bytes}
    {content : Bytes} (named : last ≠ "." ∧ last ≠ ".." ∧ last ≠ [])
    (h : follow top ⟨[], .dir top⟩ above = .ok ⟨names, .dir inside⟩)
    (free : inside.get? last = none) :
    top.find? names = some (.dir inside) ∧ top.find? (names ++ [last]) = none ∧
      follow (top.putAt (.file content) (names ++ [last]))
        ⟨[], .dir (top.putAt (.file content) (names ++ [last]))⟩ (above ++ [last]) =
          .ok ⟨names ++ [last], .file content⟩ := by
  obtain ⟨hplace, -⟩ := follow_top_keeps (keeps_refl top) h
  have hnone : top.find? (names ++ [last]) = none := by
    rw [find?_concat, hplace]
    exact free
  have hkeeps : Keeps top (top.putAt (.file content) (names ++ [last])) := by
    apply keeps_putAt
    intro old hold
    rw [hnone] at hold
    cases hold
  obtain ⟨-, e, he, hfollow⟩ := follow_top_keeps hkeeps h
  have hnew := find?_putAt_self (.file content) last hplace
  obtain ⟨d, hd⟩ := hkeeps.dir hplace
  rw [hd] at he
  cases he
  rw [find?_concat, hd] at hnew
  exact ⟨hplace, hnone, follow_concat named hfollow hnew⟩

/-- A file is put into a directory, in a free place or in the place of a file, and its path leads to
it. -/
theorem target_place {top : Folder} {p : Path} {place : List Bytes} (h : top.target p = .ok place)
    (content : Bytes) :
    ∃ above name inside, place = above ++ [name] ∧ top.find? above = some (.dir inside) ∧
      (∀ old, top.find? place = some old → old.isDir = false) ∧
      (top.putAt (.file content) place).resolve p = .ok ⟨place, .file content⟩ := by
  obtain ⟨hpath, hcases⟩ := target_cases h
  rcases hcases with ⟨old, hfound⟩ |
    ⟨above, last, names, inside, hsegments, hlast, habove, hfree, rfl⟩
  · obtain ⟨above, name, inside, rfl, hinside, hfile, hfollow⟩ := follow_over hfound
    exact ⟨above, name, inside, rfl, hinside, hfile, resolve_eq_ok_iff.mpr ⟨hpath, hfollow⟩⟩
  · obtain ⟨hplace, hnone, hfollow⟩ := follow_fresh hlast habove hfree
    refine ⟨names, last, inside, rfl, hplace, ?_,
      resolve_eq_ok_iff.mpr ⟨hpath, hsegments.symm ▸ hfollow⟩⟩
    intro old hold
    rw [hnone] at hold
    cases hold

theorem target_of_file {top : Folder} {p : Path} {place : List Bytes} {content : Bytes}
    (h : top.resolve p = .ok ⟨place, .file content⟩) : top.target p = .ok place := by
  unfold target
  simp only [h]

/-- Where a file can be written, another one can be, in its place. -/
theorem write_write {top mid : Folder} {p : Path} {old : Bytes} (h : top.write p old = .ok mid)
    (content : Bytes) :
    ∃ new, mid.write p content = .ok new ∧ top.write p content = .ok new := by
  obtain ⟨place, htarget, rfl⟩ := write_eq_ok_iff.mp h
  obtain ⟨-, -, -, -, -, -, hthere⟩ := target_place htarget old
  exact ⟨_, write_eq_ok_iff.mpr ⟨place, target_of_file hthere, (putAt_putAt _ _ _ _).symm⟩,
    write_eq_ok_iff.mpr ⟨place, htarget, rfl⟩⟩

theorem write_eq_error {top : Folder} {p : Path} {old : Bytes} {e : FileError}
    (h : top.write p old = .error e) (content : Bytes) : top.write p content = .error e := by
  unfold write at h ⊢
  cases htarget : top.target p with
  | error e' =>
    rw [htarget] at h
    cases h
    rfl
  | ok place =>
    rw [htarget] at h
    cases h

/-- What was written under a path is read from it. -/
theorem read_write {top new : Folder} {p : Path} {content : Bytes}
    (h : top.write p content = .ok new) : new.read p = .ok content := by
  obtain ⟨place, htarget, rfl⟩ := write_eq_ok_iff.mp h
  obtain ⟨-, -, -, -, -, -, hresolve⟩ := target_place htarget content
  unfold read
  rw [hresolve]

end Folder

/-! ## Jobs -/

namespace Job

theorem read_save {a : Activity} {path : Path} {content : Bytes} {w w' : World}
    (h : (save a path content).run w = (.ok (), w')) : w'.files.read path = .ok content := by
  have hwrite : ∃ w₁ : World, w₁.files.write path content = .ok w'.files := by
    unfold save at h
    split at h
    · exact ⟨w, changing_eq_ok h⟩
    · split_ifs at h with htext
      · exact ⟨w, changing_eq_ok h⟩
      · obtain ⟨u, w₁, hdirs, hlast⟩ := bind_eq_ok_iff.mp h
        exact ⟨w₁, changing_eq_ok hlast⟩
  obtain ⟨w₁, hw⟩ := hwrite
  exact Folder.read_write hw

end Job
end Lookalike
