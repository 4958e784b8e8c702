-- How things succeed one after another: attempts, which give a result or a
-- failure, and jobs, which change the world as well. A sequence succeeds when
-- each of its steps does, each in the world that the one before it left.
import Lookalike.World

namespace Lookalike

/-! ## Attempts -/

namespace Attempt

theorem bind_eq_ok_iff {α β : Type} {a : Attempt α} {f : α → Attempt β} {b : β} :
    a >>= f = .ok b ↔ ∃ x, a = .ok x ∧ f x = .ok b := by
  cases a with
  | ok x => simp [bind, Except.bind]
  | error e => simp [bind, Except.bind]

theorem bind_eq_error_iff {α β : Type} {a : Attempt α} {f : α → Attempt β} {e : Failure} :
    a >>= f = .error e ↔ a = .error e ∨ ∃ x, a = .ok x ∧ f x = .error e := by
  cases a with
  | ok x => simp [bind, Except.bind]
  | error e => simp [bind, Except.bind]

theorem ofOption_eq_ok_iff {α : Type} {a : Activity} {c : Cause} {o : Option α} {x : α} :
    ofOption a c o = .ok x ↔ o = some x := by
  cases o <;> simp [ofOption]

end Attempt

/-! ## Jobs -/

namespace Job

/-- What follows a step runs in the world that the step left, unless the step failed. -/
theorem run_bind {α β : Type} {j : Job α} {k : α → Job β} {r : Attempt α} {w w₁ : World}
    (h : j.run w = (r, w₁)) : (j >>= k).run w = ExceptT.bindCont k r w₁ := by
  change (StateT.bind j.run (ExceptT.bindCont k)) w = _
  rw [StateT.bind, h]
  rfl

theorem bind_eq_ok_iff {α β : Type} {j : Job α} {k : α → Job β} {w w' : World} {b : β} :
    (j >>= k).run w = (.ok b, w') ↔
      ∃ a w₁, j.run w = (.ok a, w₁) ∧ (k a).run w₁ = (.ok b, w') := by
  rcases hj : j.run w with ⟨r, w₁⟩
  rw [run_bind hj]
  cases r with
  | ok a =>
    constructor
    · exact fun h => ⟨a, w₁, rfl, h⟩
    · rintro ⟨_, _, hsame, h⟩
      cases hsame
      exact h
  | error e =>
    constructor
    · intro h
      cases h
    · rintro ⟨_, _, hsame, -⟩
      cases hsame

theorem bind_eq_error_iff {α β : Type} {j : Job α} {k : α → Job β} {w w' : World} {e : Failure} :
    (j >>= k).run w = (.error e, w') ↔
      j.run w = (.error e, w') ∨
        ∃ a w₁, j.run w = (.ok a, w₁) ∧ (k a).run w₁ = (.error e, w') := by
  rcases hj : j.run w with ⟨r, w₁⟩
  rw [run_bind hj]
  cases r with
  | ok a =>
    constructor
    · exact fun h => .inr ⟨a, w₁, rfl, h⟩
    · rintro (hsame | ⟨_, _, hsame, h⟩)
      · cases hsame
      · cases hsame
        exact h
  | error f =>
    constructor
    · intro h
      cases h
      exact .inl rfl
    · rintro (hsame | ⟨_, _, hsame, -⟩)
      · cases hsame
        rfl
      · cases hsame

theorem run_ofAttempt_iff {α : Type} {a r : Attempt α} {w w' : World} :
    (ofAttempt a).run w = (r, w') ↔ a = r ∧ w' = w := by
  have hrun : (ofAttempt a).run w = (a, w) := rfl
  rw [hrun, Prod.mk.injEq]
  exact and_congr_right fun _ => eq_comm

theorem run_reading_iff {α : Type} {f : Folder → Attempt α} {r : Attempt α} {w w' : World} :
    (reading f).run w = (r, w') ↔ f w.files = r ∧ w' = w := by
  have hrun : (reading f).run w = (f w.files, w) := rfl
  rw [hrun, Prod.mk.injEq]
  exact and_congr_right fun _ => eq_comm

/-- A change of the files is made as a whole or not at all. -/
theorem run_changing (a : Activity) (f : Folder → Except FileError Folder) (w : World) :
    (changing a f).run w =
      match f w.files with
      | .ok files => (.ok (), { w with files })
      | .error e => (.error ⟨[a], .file e⟩, w) := by
  cases hf : f w.files with
  | ok files =>
    have hattempt : (ofAttempt (Attempt.ofFile a (f w.files))).run w = (.ok files, w) := by
      rw [hf]
      rfl
    exact bind_eq_ok_iff.mpr ⟨w, w, rfl, bind_eq_ok_iff.mpr ⟨files, w, hattempt, rfl⟩⟩
  | error e =>
    have hattempt : (ofAttempt (Attempt.ofFile a (f w.files))).run w =
        (.error ⟨[a], .file e⟩, w) := by
      rw [hf]
      rfl
    exact bind_eq_error_iff.mpr (.inr ⟨w, w, rfl, bind_eq_error_iff.mpr (.inl hattempt)⟩)

theorem changing_eq_ok {a : Activity} {f : Folder → Except FileError Folder} {w w' : World}
    (h : (changing a f).run w = (.ok (), w')) : f w.files = .ok w'.files := by
  rw [run_changing] at h
  split at h
  · rename_i files hf
    cases h
    exact hf
  · cases h

end Job
end Lookalike
