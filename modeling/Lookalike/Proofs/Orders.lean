-- The orders of the library are orders: components, paths, streams and records
-- are compared step by step, each step by an order that is total and
-- transitive. So sorting puts them in order and leaves an ordered list alone.
import Mathlib.Data.List.Basic
import Mathlib.Data.List.Pairwise
import Lookalike.Index.Basic

namespace Lookalike

open Std (LawfulEqOrd TransCmp TransOrd)

/-! ## Orders made of orders -/

theorem transCmp_then {α : Type} {f g : α → α → Ordering} (hf : TransCmp f) (hg : TransCmp g) :
    TransCmp fun a b => (f a b).then (g a b) :=
  inferInstanceAs (TransCmp (compareLex f g))

theorem transCmp_on {α β : Type} [Ord β] [TransOrd β] (f : α → β) :
    TransCmp fun a b => compare (f a) (f b) :=
  inferInstanceAs (TransCmp (compareOn f))

instance : TransOrd Component :=
  transCmp_then (transCmp_on Component.rank) (transCmp_on Component.label)

instance : TransOrd Path := transCmp_on Path.components

instance : TransOrd StreamId :=
  transCmp_then (transCmp_on StreamId.source)
    (transCmp_then (transCmp_on StreamId.function) (transCmp_on StreamId.startLine))

instance : TransCmp Record.compareKey :=
  transCmp_then (transCmp_on Record.id) (transCmp_on Record.offset)

/-! ## What compares equal -/

/-- Where no two members of a list are alike, members that are alike are the same one. -/
theorem eq_of_apart {α : Type} {alike : α → α → Prop} (symm : ∀ {a b}, alike a b → alike b a)
    {xs : List α} (apart : xs.Pairwise fun a b => ¬ alike a b) {a b : α} (ha : a ∈ xs)
    (hb : b ∈ xs) (h : alike a b) : a = b := by
  have hsymm : Std.Symm fun a b => ¬ alike a b := ⟨fun _ _ hne hba => hne (symm hba)⟩
  by_contra hne
  exact apart.forall ha hb hne h

/-- Components that compare equal are the same. -/
instance : LawfulEqOrd Component where
  eq_of_compare {a b} h := by
    obtain ⟨hrank, hlabel⟩ := Ordering.then_eq_eq.mp h
    have hsame : a.rank = b.rank := Std.compare_eq_iff_eq.mp hrank
    have htext : a.label = b.label := Std.compare_eq_iff_eq.mp hlabel
    cases a <;> cases b <;> simp_all [Component.rank, Component.label]

theorem Path.compare_eq_iff {p q : Path} : compare p q = .eq ↔ p.same q = true := by
  have h : compare p.components q.components = .eq ↔ p.components = q.components :=
    Std.compare_eq_iff_eq
  exact h.trans beq_iff_eq.symm

theorem StreamId.compare_eq_iff {a b : StreamId} : compare a b = .eq ↔ a.same b = true := by
  change (compare a.source b.source).then
    ((compare a.function b.function).then (compare a.startLine b.startLine)) = .eq ↔ _
  rw [Ordering.then_eq_eq, Ordering.then_eq_eq, Path.compare_eq_iff, Std.compare_eq_iff_eq,
    Std.compare_eq_iff_eq]
  simp only [StreamId.same, Bool.and_eq_true, beq_iff_eq, and_assoc]

theorem Record.compareKey_eq_iff {a b : Record} :
    a.compareKey b = .eq ↔ a.id.same b.id = true ∧ a.offset = b.offset := by
  unfold compareKey
  rw [Ordering.then_eq_eq, StreamId.compare_eq_iff, Std.compare_eq_iff_eq]

/-! ## Sorting -/

section

variable {α : Type} (f : α → α → Ordering) [h : TransCmp f]

theorem isLE_total (a b : α) : ((f a b).isLE || (f b a).isLE) = true := by
  rw [h.eq_swap (a := b)]
  cases f a b <;> rfl

theorem pairwise_mergeSort (xs : List α) :
    (xs.mergeSort fun a b => (f a b).isLE).Pairwise fun a b => (f a b).isLE :=
  List.pairwise_mergeSort (fun _ _ _ => TransCmp.isLE_trans) (isLE_total f) xs

/-- Sorting leaves the members that are equal to each other as they stood. -/
theorem filter_mergeSort (xs : List α) {p : α → Bool} (equal : ∀ a b, p a → p b → f a b = .eq) :
    (xs.mergeSort fun a b => (f a b).isLE).filter p = xs.filter p := by
  have hperm := (List.mergeSort_perm xs fun a b => (f a b).isLE).filter p
  have hequal : (xs.filter p).Pairwise fun a b => (f a b).isLE := by
    refine List.pairwise_of_forall_mem_list fun a ha b hb => ?_
    rw [equal a b (List.mem_filter.mp ha).2 (List.mem_filter.mp hb).2]
    rfl
  have hkept : (xs.filter p).Sublist (xs.mergeSort fun a b => (f a b).isLE) := by
    apply List.sublist_mergeSort _ _ hequal List.filter_sublist
    · exact fun _ _ _ => TransCmp.isLE_trans
    · exact isLE_total f
  have hsub := hkept.filter p
  rw [List.filter_filter, List.filter_congr fun a _ => Bool.and_self (p a)] at hsub
  exact (hsub.eq_of_length hperm.length_eq.symm).symm

end

end Lookalike
