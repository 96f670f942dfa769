import Mathlib.Data.List.Forall2

/-!
# Lists in step

Rules for `List.Forall₂`, which pairs the elements of two lists in order: the
partner of an element (`forall₂_mem_left`), pairs of pairs (`forall₂_comp`), and
the elements that a filter keeps with what it makes of them
(`filterMap_forall₂`). Nothing here depends on a program.
-/

namespace Framework

variable {α β γ : Type}

/-- The partner of an element. -/
theorem forall₂_mem_left {R : α → β → Prop} {l : List α} {l' : List β} (h : List.Forall₂ R l l')
    {a : α} (ha : a ∈ l) : ∃ b ∈ l', R a b := by
  induction h with
  | nil => cases ha
  | cons hab _ ih =>
    rcases List.mem_cons.mp ha with rfl | ha
    · exact ⟨_, List.mem_cons_self, hab⟩
    · obtain ⟨b, hb, hR⟩ := ih ha
      exact ⟨b, List.mem_cons_of_mem _ hb, hR⟩

theorem forall₂_comp {R : α → β → Prop} {S : β → γ → Prop} {T : α → γ → Prop}
    (hT : ∀ a b c, R a b → S b c → T a c) {l : List α} {l' : List β} {l'' : List γ}
    (h : List.Forall₂ R l l') (h' : List.Forall₂ S l' l'') : List.Forall₂ T l l'' := by
  induction h generalizing l'' with
  | nil =>
    cases h'
    exact .nil
  | cons hab _ ih =>
    cases h' with
    | cons hbc hl => exact .cons (hT _ _ _ hab hbc) (ih hl)

/-- The elements for which a partial function has a value, with the values. -/
theorem filterMap_forall₂ (f : α → Option β) : ∀ l : List α, ∃ l', l'.Sublist l ∧
    List.Forall₂ (fun a b => a ∈ l ∧ f a = some b) l' (l.filterMap f)
  | [] => ⟨[], .refl _, .nil⟩
  | a :: l => by
    obtain ⟨l', hl', h⟩ := filterMap_forall₂ f l
    have hcons : List.Forall₂ (fun x b => x ∈ a :: l ∧ f x = some b) l' (l.filterMap f) :=
      h.imp fun x b hx => ⟨List.mem_cons_of_mem a hx.1, hx.2⟩
    rw [List.filterMap_cons]
    cases ha : f a with
    | none => exact ⟨l', hl'.cons a, hcons⟩
    | some b => exact ⟨a :: l', hl'.cons_cons a, .cons ⟨List.mem_cons_self, ha⟩ hcons⟩

end Framework
