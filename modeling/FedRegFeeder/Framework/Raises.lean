import FedRegFeeder.Framework.Yields

/-!
# What a stateful, fallible computation can raise

`Raises x E`: every exception that `x` raises, from any state, satisfies `E`.
There is one rule for each construct. Nothing here depends on a program.
-/

namespace Framework

universe u

variable {σ ε α β : Type u}

def Raises (x : StateT σ (Except ε) α) (E : ε → Prop) : Prop := ∀ s e, x s = .error e → E e

namespace Raises

variable {x : StateT σ (Except ε) α} {E : ε → Prop}

theorem imp {E' : ε → Prop} (h : Raises x E) (hE : ∀ e, E e → E' e) : Raises x E' :=
  fun s e hx => hE e (h s e hx)

theorem pure (a : α) : Raises (Pure.pure a : StateT σ (Except ε) α) E := fun _ _ h => nomatch h

theorem throw {e : ε} (h : E e) : Raises (throw e : StateT σ (Except ε) α) E := by
  intro s e' hx
  cases hx
  exact h

theorem get : Raises (get : StateT σ (Except ε) σ) E := fun _ _ h => nomatch h

theorem set (s : σ) : Raises (set s : StateT σ (Except ε) PUnit) E := fun _ _ h => nomatch h

theorem lift {y : Except ε α} (h : ∀ e, y = .error e → E e) :
    Raises (StateT.lift y : StateT σ (Except ε) α) E := by
  intro s e hx
  rcases bind_eq_error.mp hx with hy | ⟨_, -, hpure⟩
  · exact h e hy
  · cases hpure

/-- What follows only has to be looked at for the values that are yielded. -/
theorem bind_yields {f : α → StateT σ (Except ε) β} {P : α → Prop} (hx : Raises x E)
    (hy : Yields x P) (hf : ∀ a, P a → Raises (f a) E) : Raises (x >>= f) E := by
  intro s e h
  rcases bind_eq_error.mp h with h | ⟨⟨a, s'⟩, ha, h⟩
  · exact hx s e h
  · exact hf a (hy s a s' ha) s' e h

theorem bind {f : α → StateT σ (Except ε) β} (hx : Raises x E) (hf : ∀ a, Raises (f a) E) :
    Raises (x >>= f) E := hx.bind_yields (yields_true x) fun a _ => hf a

theorem map (hx : Raises x E) (f : α → β) : Raises (f <$> x) E := hx.bind fun a => pure (f a)

theorem mapM {f : α → StateT σ (Except ε) β} :
    ∀ {l : List α}, (∀ a ∈ l, Raises (f a) E) → Raises (l.mapM f) E
  | [], _ => by
    rw [List.mapM_nil]
    exact pure []
  | a :: l, hf => by
    obtain ⟨ha, hl⟩ := List.forall_mem_cons.mp hf
    rw [List.mapM_cons]
    exact ha.bind fun b => (mapM hl).bind fun bs => pure (b :: bs)

theorem foldlM {f : β → α → StateT σ (Except ε) β} (hf : ∀ b a, Raises (f b a) E) :
    ∀ (l : List α) (b : β), Raises (l.foldlM f b) E
  | [], b => by
    rw [List.foldlM_nil]
    exact pure b
  | a :: l, b => by
    rw [List.foldlM_cons]
    exact (hf b a).bind fun b' => foldlM hf l b'

theorem mapError {f : ε → ε} {E' : ε → Prop} (hx : Raises x E) (hf : ∀ e, E e → E' (f e)) :
    Raises (mapError f x) E' := by
  intro s e h
  simp only [Framework.mapError] at h
  cases hr : x s with
  | ok r => rw [hr] at h; cases h
  | error e' =>
    rw [hr] at h
    cases h
    exact hf e' (hx s e' hr)

end Raises

end Framework
