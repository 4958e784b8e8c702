-- Lists of keyed values in the order in which their keys first came. A key
-- that comes again keeps its place and takes the new value.

namespace Lookalike.Ordered

variable {κ α : Type} [DecidableEq κ]

/-- The value of a key. -/
def get? (k : κ) : List (κ × α) → Option α
  | [] => none
  | (k', a) :: rest => if k' = k then some a else get? k rest

/-- Change the value of a key; a new key comes last, with the change made to nothing. -/
def alter (k : κ) (f : Option α → α) : List (κ × α) → List (κ × α)
  | [] => [(k, f none)]
  | (k', a) :: rest => if k' = k then (k', f (some a)) :: rest else (k', a) :: alter k f rest

/-- Give a key a value. -/
def put (k : κ) (a : α) (m : List (κ × α)) : List (κ × α) := alter k (fun _ => a) m

/-- All pairs put one after the other. -/
def ofPairs (ps : List (κ × α)) : List (κ × α) := ps.foldl (fun m p => put p.1 p.2 m) []

/-! ## What the operations do to a look-up -/

theorem get?_alter_self (k : κ) (f : Option α → α) (m : List (κ × α)) :
    get? k (alter k f m) = some (f (get? k m)) := by
  induction m with
  | nil => simp [alter, get?]
  | cons p rest ih =>
    obtain ⟨k', a⟩ := p
    by_cases h : k' = k
    · simp [alter, get?, h]
    · simp [alter, get?, h, ih]

theorem get?_alter_of_ne {k l : κ} (h : k ≠ l) (f : Option α → α) (m : List (κ × α)) :
    get? l (alter k f m) = get? l m := by
  induction m with
  | nil => simp [alter, get?, h]
  | cons p rest ih =>
    obtain ⟨k', a⟩ := p
    by_cases hk : k' = k
    · subst hk
      simp [alter, get?, h]
    · simp only [alter, if_neg hk, get?, ih]

end Lookalike.Ordered
