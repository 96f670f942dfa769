import Mathlib.Data.List.Infix

/-!
# Labelled steps

A system is a relation between a state, the label of a step and the state
after it; `Steps` follows it along a list of labels. What each step keeps, the
whole run keeps (`Steps.invariant`), and a system whose steps another one can
make is simulated by it (`Steps.simulates`). Nothing here depends on a program.
-/

namespace Framework

variable {σ τ ι : Type}

/-- A run: the steps with the given labels, in order. -/
inductive Steps (step : σ → ι → σ → Prop) : σ → List ι → σ → Prop
  | nil (s : σ) : Steps step s [] s
  | cons {s s' s'' : σ} {a : ι} {l : List ι} :
    step s a s' → Steps step s' l s'' → Steps step s (a :: l) s''

namespace Steps

variable {step : σ → ι → σ → Prop} {s s' : σ} {a : ι} {l : List ι}

theorem nil_iff : Steps step s [] s' ↔ s' = s := by
  constructor
  · rintro ⟨⟩
    rfl
  · rintro rfl
    exact .nil _

theorem cons_iff : Steps step s (a :: l) s' ↔ ∃ t, step s a t ∧ Steps step t l s' := by
  constructor
  · rintro (_ | ⟨h, hl⟩)
    exact ⟨_, h, hl⟩
  · rintro ⟨t, h, hl⟩
    exact .cons h hl

/-- What every step with a label of the run keeps holds at its end. -/
theorem invariant {I : σ → Prop} (h : Steps step s l s')
    (hI : ∀ a ∈ l, ∀ t t', I t → step t a t' → I t') (hs : I s) : I s' := by
  induction h with
  | nil => exact hs
  | cons ha _ ih =>
    exact ih (fun b hb => hI b (List.mem_cons_of_mem _ hb)) (hI _ List.mem_cons_self _ _ hs ha)

/-- A run is simulated by a system that, from a state related to that of the
run, can make each of its steps and stay related. -/
theorem simulates {step' : τ → ι → τ → Prop} {R : σ → τ → Prop} (h : Steps step s l s')
    (hR : ∀ a ∈ l, ∀ t t' u, R t u → step t a t' → ∃ u', step' u a u' ∧ R t' u') {u : τ}
    (hu : R s u) : ∃ u', Steps step' u l u' ∧ R s' u' := by
  induction h generalizing u with
  | nil => exact ⟨u, .nil u, hu⟩
  | cons ha _ ih =>
    obtain ⟨v, hv, hRv⟩ := hR _ List.mem_cons_self _ _ u hu ha
    obtain ⟨u', hl, hu'⟩ := ih (fun b hb => hR b (List.mem_cons_of_mem _ hb)) hRv
    exact ⟨u', .cons hv hl, hu'⟩

end Steps

end Framework
