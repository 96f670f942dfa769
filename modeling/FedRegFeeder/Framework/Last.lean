import FedRegFeeder.Framework.Except

/-!
# The last write

A loop whose steps overwrite what is read of the state leaves what its last
step that writes it wrote (`foldlM_last`). The last element of a list with a
property is `l.reverse.find? p`: in lists put one after the other it is in the
last of them that has one (`reverse_find?_flatMap`). Nothing here depends on a
program.
-/

namespace Framework

universe u

variable {ε α β γ : Type u}

theorem foldlM_append_ok {f : β → α → Except ε β} {l₁ l₂ : List α} {b r : β} :
    (l₁ ++ l₂).foldlM f b = .ok r ↔ ∃ b', l₁.foldlM f b = .ok b' ∧ l₂.foldlM f b' = .ok r := by
  rw [List.foldlM_append, bind_eq_ok]

/-- What is read of the state after a run is what the last step that writes it
wrote. -/
theorem foldlM_last {f : β → α → Except ε β} {g : β → Option γ} {p : α → Bool}
    {w : α → Option γ} (hf : ∀ b a b', f b a = .ok b' → g b' = if p a then w a else g b) :
    ∀ {l : List α} {b r : β}, l.foldlM f b = .ok r →
      g r = (l.reverse.find? p).elim (g b) w
  | [], _, _, h => by rw [← foldlM_nil_ok.mp h]; rfl
  | a :: l, b, r, h => by
    obtain ⟨b', h₁, h₂⟩ := foldlM_cons_ok.mp h
    rw [foldlM_last hf h₂, hf b a b' h₁, List.reverse_cons, List.find?_append]
    cases l.reverse.find? p with
    | some x => rfl
    | none => cases hp : p a <;> simp [hp]

/-- The last element with a property, and what is around it. -/
theorem reverse_find?_eq_some {l : List α} {p : α → Bool} {x : α} :
    l.reverse.find? p = some x ↔
      p x = true ∧ ∃ as bs, l = as ++ x :: bs ∧ ∀ y ∈ bs, p y = false := by
  rw [List.find?_eq_some_iff_append]
  refine and_congr_right fun _ => ⟨fun ⟨as, bs, hl, has⟩ => ?_, fun ⟨as, bs, hl, hbs⟩ => ?_⟩
  · refine ⟨bs.reverse, as.reverse, ?_, fun y hy => ?_⟩
    · rw [← List.reverse_reverse l, hl]
      simp
    · simpa using has y (List.mem_reverse.mp hy)
  · refine ⟨bs.reverse, as.reverse, by simp [hl], fun y hy => ?_⟩
    simp [hbs y (List.mem_reverse.mp hy)]

/-- In lists put one after the other, the last element with a property is in
the last list that has one. -/
theorem reverse_find?_flatMap {g : α → List β} {p : β → Bool} {x : β} :
    ∀ {l : List α}, (l.flatMap g).reverse.find? p = some x → ∃ before a after,
      l = before ++ a :: after ∧ (g a).reverse.find? p = some x ∧
        ∀ a' ∈ after, ∀ y ∈ g a', p y = false
  | [], h => nomatch h
  | a :: l, h => by
    rw [List.flatMap_cons, List.reverse_append, List.find?_append] at h
    cases hl : (l.flatMap g).reverse.find? p with
    | some y =>
      rw [hl, Option.some_or] at h
      obtain ⟨before, a', after, rfl, ha', hafter⟩ := reverse_find?_flatMap (hl.trans h)
      exact ⟨a :: before, a', after, rfl, ha', hafter⟩
    | none =>
      rw [hl, Option.none_or] at h
      refine ⟨[], a, l, rfl, h, fun a' ha' y hy => ?_⟩
      have hy : y ∈ (l.flatMap g).reverse :=
        List.mem_reverse.mpr (List.mem_flatMap.mpr ⟨a', ha', hy⟩)
      simpa using List.find?_eq_none.mp hl y hy

end Framework
