import Mathlib.Data.List.Forall2

/-!
# The same list in another order

`UpToOrder R l l'`: the elements of `l'` are related to those of `l` one by one,
in some order. What some element satisfies, or every element, does not depend on
the order (`UpToOrder.exists_iff`, `UpToOrder.forall_iff`). Nothing here depends
on a program.
-/

namespace Framework

variable {α : Type*} {R : α → α → Prop} {l l' : List α}

/-- Up to `R`, the elements of `l'` are those of `l`, in some order. -/
def UpToOrder (R : α → α → Prop) (l l' : List α) : Prop :=
  ∃ mid, List.Forall₂ R l mid ∧ mid.Perm l'

theorem UpToOrder.of_perm (hR : ∀ a, R a a) (h : l.Perm l') : UpToOrder R l l' :=
  ⟨l, List.forall₂_same.mpr fun a _ => hR a, h⟩

theorem UpToOrder.refl (hR : ∀ a, R a a) (l : List α) : UpToOrder R l l :=
  UpToOrder.of_perm hR (.refl l)

theorem UpToOrder.exists_iff {p q : α → Prop} (hpq : ∀ a b, R a b → (p a ↔ q b))
    (h : UpToOrder R l l') : (∃ a ∈ l, p a) ↔ ∃ b ∈ l', q b := by
  obtain ⟨mid, hmid, hperm⟩ := h
  have hsame : (∃ a ∈ l, p a) ↔ ∃ b ∈ mid, q b := by
    clear hperm
    induction hmid with
    | nil => simp
    | cons hab _ ih => rw [List.exists_mem_cons_iff, List.exists_mem_cons_iff, hpq _ _ hab, ih]
  rw [hsame]
  exact exists_congr fun b => and_congr_left fun _ => hperm.mem_iff

theorem UpToOrder.forall_iff {p q : α → Prop} (hpq : ∀ a b, R a b → (p a ↔ q b))
    (h : UpToOrder R l l') : (∀ a ∈ l, p a) ↔ ∀ b ∈ l', q b := by
  have hnot := h.exists_iff (fun a b hab => not_congr (hpq a b hab))
  simpa only [not_exists, not_and, not_not] using not_congr hnot

end Framework
