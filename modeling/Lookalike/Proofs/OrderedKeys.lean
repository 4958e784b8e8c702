-- The keys of ordered lists of keyed values: a change keeps every key at its
-- place and adds a new one at the end, so no key ever comes twice.
import Mathlib.Data.List.Nodup
import Lookalike.Ordered

namespace Lookalike.Ordered

variable {κ α : Type}

/-! ## Keys -/

/-- The keys in order. -/
def keys (m : List (κ × α)) : List κ := m.map Prod.fst

@[simp] theorem keys_nil : keys ([] : List (κ × α)) = [] := rfl

@[simp] theorem keys_cons (p : κ × α) (m : List (κ × α)) : keys (p :: m) = p.1 :: keys m := rfl

@[simp] theorem keys_append (m n : List (κ × α)) : keys (m ++ n) = keys m ++ keys n := by
  simp [keys]

theorem mem_keys_of_mem {p : κ × α} {m : List (κ × α)} (h : p ∈ m) : p.1 ∈ keys m :=
  List.mem_map_of_mem h

variable [DecidableEq κ]

theorem get?_eq_none_iff {k : κ} {m : List (κ × α)} : get? k m = none ↔ k ∉ keys m := by
  induction m with
  | nil => simp [get?]
  | cons p rest ih =>
    obtain ⟨k', a⟩ := p
    by_cases h : k' = k
    · simp [get?, h]
    · simp [get?, h, ih, Ne.symm h]

theorem mem_of_get?_eq_some {k : κ} {a : α} {m : List (κ × α)} (h : get? k m = some a) :
    (k, a) ∈ m := by
  induction m with
  | nil => simp [get?] at h
  | cons p rest ih =>
    obtain ⟨k', b⟩ := p
    by_cases hk : k' = k
    · simp only [get?, hk, if_true, Option.some.injEq] at h
      simp [hk, h]
    · simp only [get?, hk, if_false] at h
      exact List.mem_cons_of_mem _ (ih h)

theorem get?_eq_some_iff {k : κ} {a : α} {m : List (κ × α)} (h : (keys m).Nodup) :
    get? k m = some a ↔ (k, a) ∈ m := by
  refine ⟨mem_of_get?_eq_some, fun hm => ?_⟩
  induction m with
  | nil => simp at hm
  | cons p rest ih =>
    obtain ⟨k', b⟩ := p
    rw [keys_cons, List.nodup_cons] at h
    rcases List.mem_cons.mp hm with he | hr
    · cases he
      simp [get?]
    · have hne : k' ≠ k := by
        rintro rfl
        exact h.1 (mem_keys_of_mem (p := (k', a)) hr)
      simp only [get?, hne, if_false]
      exact ih h.2 hr

/-! ## Changes -/

theorem alter_of_not_mem {k : κ} {m : List (κ × α)} (f : Option α → α) (h : k ∉ keys m) :
    alter k f m = m ++ [(k, f none)] := by
  induction m with
  | nil => rfl
  | cons p rest ih =>
    obtain ⟨k', a⟩ := p
    simp only [keys_cons, List.mem_cons, not_or] at h
    simp [alter, Ne.symm h.1, ih h.2]

/-- A change keeps the keys in order; only a new key is added, at the end. -/
theorem keys_alter (k : κ) (f : Option α → α) (m : List (κ × α)) :
    keys (alter k f m) = if k ∈ keys m then keys m else keys m ++ [k] := by
  induction m with
  | nil => simp [alter]
  | cons p rest ih =>
    obtain ⟨k', a⟩ := p
    by_cases h : k' = k
    · simp [alter, h]
    · have hk : k ≠ k' := Ne.symm h
      simp only [alter, h, if_false, keys_cons, ih, List.mem_cons, hk, false_or]
      split <;> rfl

theorem nodup_keys_alter {k : κ} {f : Option α → α} {m : List (κ × α)} (h : (keys m).Nodup) :
    (keys (alter k f m)).Nodup := by
  rw [keys_alter]
  split
  · exact h
  · rename_i hk
    rw [← List.concat_eq_append]
    exact h.concat hk

/-- What holds of every value, and of the changed one, holds of every value after the change. -/
theorem forall_mem_alter {k : κ} {f : Option α → α} {m : List (κ × α)} {P : α → Prop}
    (h : ∀ e ∈ m, P e.2) (hf : ∀ o : Option α, (∀ a ∈ o, P a) → P (f o)) :
    ∀ e ∈ alter k f m, P e.2 := by
  induction m with
  | nil =>
    intro e he
    rw [List.mem_singleton.mp he]
    exact hf none (by simp)
  | cons p rest ih =>
    obtain ⟨k', a⟩ := p
    intro e he
    have hrest : ∀ e ∈ rest, P e.2 := fun e he => h e (List.mem_cons_of_mem _ he)
    by_cases hk : k' = k
    · simp only [alter, hk, if_true, List.mem_cons] at he
      rcases he with rfl | he
      · exact hf (some a) (by simpa using h (k', a) (List.mem_cons_self ..))
      · exact hrest e he
    · simp only [alter, hk, if_false, List.mem_cons] at he
      rcases he with rfl | he
      · exact h _ (List.mem_cons_self ..)
      · exact ih hrest e he

/-! ## Pairs with different keys -/

theorem foldl_put_of_nodup {m ps : List (κ × α)} (h : (keys (m ++ ps)).Nodup) :
    ps.foldl (fun m p => put p.1 p.2 m) m = m ++ ps := by
  induction ps generalizing m with
  | nil => simp
  | cons p rest ih =>
    have hp : p.1 ∉ keys m := by
      rw [keys_append, keys_cons] at h
      intro hm
      exact (List.nodup_append.mp h).2.2 _ hm _ (List.mem_cons_self ..) rfl
    have hput : put p.1 p.2 m = m ++ [p] := alter_of_not_mem _ hp
    rw [List.foldl_cons, hput, ih (by simpa using h), List.append_assoc, List.singleton_append]

theorem ofPairs_of_nodup {ps : List (κ × α)} (h : (keys ps).Nodup) : ofPairs ps = ps :=
  foldl_put_of_nodup (m := []) (by simpa using h)

end Lookalike.Ordered
