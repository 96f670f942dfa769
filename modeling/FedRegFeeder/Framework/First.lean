import Mathlib.Algebra.BigOperators.Group.List.Basic

/-!
# The first non-empty list

Lists under "the first of the two unless it is empty" are a monoid, `First`:
what is left of several reports where the first one wins. A product in it is
the first factor that is not empty (`First.toList_prod`).
-/

namespace Framework

universe u v

/-- Lists, multiplied by taking the first that is not empty. -/
@[ext] structure First (α : Type u) where
  toList : List α

namespace First

variable {α : Type u} {β : Type v}

instance : Mul (First α) := ⟨fun a b => if a.toList = [] then b else a⟩

instance : One (First α) := ⟨⟨[]⟩⟩

theorem mul_def (a b : First α) : a * b = if a.toList = [] then b else a := rfl

@[simp] theorem toList_one : (1 : First α).toList = [] := rfl

instance : Monoid (First α) where
  one_mul a := by rw [mul_def, if_pos toList_one]
  mul_one a := by
    rw [mul_def]
    split
    · rename_i h; exact First.ext h.symm
    · rfl
  mul_assoc a b c := by
    simp only [mul_def]
    by_cases h : a.toList = []
    · rw [if_pos h, if_pos h]
    · rw [if_neg h, if_neg h, if_neg h]

/-- The first factor that is not empty. -/
theorem toList_prod : ∀ l : List (First α),
    l.prod.toList = ((l.map toList).find? fun a => !a.isEmpty).getD []
  | [] => rfl
  | a :: l => by
    rw [List.prod_cons, mul_def, List.map_cons]
    split
    · rename_i h
      rw [toList_prod l, h, List.find?_cons_of_neg (by simp)]
    · rename_i h
      rw [List.find?_cons_of_pos (by simpa using h), Option.getD_some]

/-- The images of a list's elements. -/
def map (f : α → β) (a : First α) : First β := ⟨a.toList.map f⟩

/-- Of at most one list, the first non-empty one is all there is. -/
theorem flatMap_eq_prod {l : List β} (f : β → First α) (h : l.length ≤ 1) :
    l.flatMap (fun b => (f b).toList) = (l.map f).prod.toList := by
  match l, h with
  | [], _ => rfl
  | [b], _ => rw [List.map_singleton, List.prod_singleton, List.flatMap_singleton]

end First

theorem prod_filter_map {α β : Type*} {M : Type*} [Monoid M] (p : β → Bool) (f : α → β) (w : β → M) :
    ∀ l : List α, (((l.map f).filter p).map w).prod =
      (l.map fun a => (([f a].filter p).map w).prod).prod
  | [] => rfl
  | a :: l => by
    rw [List.map_cons, ← List.singleton_append, List.filter_append, List.map_append,
      List.prod_append, prod_filter_map p f w l, List.map_cons, List.prod_cons]

end Framework
