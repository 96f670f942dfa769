import FedRegFeeder.Framework.Yields

/-!
# What a computation does to an error flag

The state of a fallible computation is a flag that is only ever raised.
`Marks x Q`: a run of `x` that returns `a` has raised the flag or not, from any
state, and `Q a b` holds where `b` tells which; a `Quiet` computation leaves the
flag alone. There is one rule for each construct; a loop raises the flag if one
of its turns does (`Marks.mapM`). What `Yields` says of the values alone is
added by `Marks.and`. Nothing here depends on a program.
-/

namespace Framework

variable {ε α β : Type}

def Marks (x : StateT Bool (Except ε) α) (Q : α → Bool → Prop) : Prop :=
  ∀ s a s', x s = .ok (a, s') → ∃ b, s' = (s || b) ∧ Q a b

def Quiet (x : StateT Bool (Except ε) α) : Prop := Marks x fun _ b => b = false

namespace Marks

variable {x : StateT Bool (Except ε) α} {P Q : α → Bool → Prop}

theorem imp (h : Marks x P) (hPQ : ∀ a b, P a b → Q a b) : Marks x Q := by
  intro s a s' hx
  obtain ⟨b, hs', hP⟩ := h s a s' hx
  exact ⟨b, hs', hPQ a b hP⟩

theorem pure {a : α} (h : Q a false) : Marks (Pure.pure a : StateT Bool (Except ε) α) Q := by
  intro s a' s' hx
  cases hx
  exact ⟨false, (Bool.or_false s).symm, h⟩

theorem throw (e : ε) : Marks (throw e : StateT Bool (Except ε) α) Q := fun _ _ _ h => nomatch h

theorem bind {f : α → StateT Bool (Except ε) β} {R : β → Bool → Prop} (hx : Marks x P)
    (hf : ∀ a b, P a b → Marks (f a) fun c b' => R c (b || b')) : Marks (x >>= f) R := by
  intro s c s' h
  obtain ⟨⟨a, s₁⟩, ha, hfa⟩ := bind_eq_ok.mp h
  obtain ⟨b, rfl, hP⟩ := hx s a s₁ ha
  obtain ⟨b', rfl, hR⟩ := hf a b hP _ c s' hfa
  exact ⟨b || b', Bool.or_assoc s b b', hR⟩

/-- A computation that does not use the flag. -/
theorem lift {y : Except ε α} (h : ∀ a, y = .ok a → Q a false) :
    Marks (StateT.lift y : StateT Bool (Except ε) α) Q := by
  intro s a s' hx
  obtain ⟨a', ha, hpure⟩ := bind_eq_ok.mp hx
  cases hpure
  exact ⟨false, (Bool.or_false s).symm, h _ ha⟩

/-- The flag is raised. -/
theorem set {Q : PUnit → Bool → Prop} (h : Q ⟨⟩ true) :
    Marks (set true : StateT Bool (Except ε) PUnit) Q := by
  intro s a s' hx
  cases hx
  exact ⟨true, (Bool.or_true s).symm, h⟩

theorem mapError {f : ε → ε} (h : Marks x Q) : Marks (mapError f x) Q :=
  fun s a s' hx => h s a s' (mapError_eq_ok.mp hx)

/-- With what is known of the value. -/
theorem and {R : α → Prop} (h : Marks x Q) (hy : Yields x R) : Marks x fun a b => R a ∧ Q a b := by
  intro s a s' hx
  obtain ⟨b, hs', hQ⟩ := h s a s' hx
  exact ⟨b, hs', hy s a s' hx, hQ⟩

/-- What comes after leaves the flag alone. -/
theorem bind_quiet {f : α → StateT Bool (Except ε) β} {R : Bool → Prop} (hx : Marks x fun _ b => R b)
    (hf : ∀ a, Quiet (f a)) : Marks (x >>= f) fun _ b => R b := by
  refine hx.bind fun a b hb => (hf a).imp fun _ b' hb' => ?_
  rwa [hb', Bool.or_false]

/-- A loop raises the flag if and only if one of its turns does. -/
theorem mapM {f : α → StateT Bool (Except ε) β} {flag : α → Bool} :
    ∀ {l : List α}, (∀ a ∈ l, Marks (f a) fun _ b => b = flag a) →
      Marks (l.mapM f) fun _ b => b = l.any flag
  | [], _ => by
    rw [List.mapM_nil]
    exact pure rfl
  | a :: l, hf => by
    obtain ⟨ha, hl⟩ := List.forall_mem_cons.mp hf
    rw [List.mapM_cons]
    refine bind ha fun _ b hb => bind (mapM hl) fun _ b' hb' => pure ?_
    rw [hb, hb', Bool.or_false, List.any_cons]

end Marks

namespace Quiet

variable {x : StateT Bool (Except ε) α}

theorem pure (a : α) : Quiet (Pure.pure a : StateT Bool (Except ε) α) := Marks.pure rfl

theorem get : Quiet (get : StateT Bool (Except ε) Bool) := by
  intro s a s' hx
  cases hx
  exact ⟨false, (Bool.or_false s).symm, rfl⟩

theorem throw (e : ε) : Quiet (throw e : StateT Bool (Except ε) α) := Marks.throw e

theorem lift (y : Except ε α) : Quiet (StateT.lift y : StateT Bool (Except ε) α) :=
  Marks.lift fun _ _ => rfl

/-- What comes before leaves the flag alone. -/
theorem bind_marks {f : α → StateT Bool (Except ε) β} {Q : β → Bool → Prop} (hx : Quiet x)
    (hf : ∀ a, Marks (f a) Q) : Marks (x >>= f) Q := by
  refine Marks.bind hx fun a b hb => ?_
  simp only [hb, Bool.false_or]
  exact hf a

theorem bind {f : α → StateT Bool (Except ε) β} (hx : Quiet x) (hf : ∀ a, Quiet (f a)) :
    Quiet (x >>= f) := hx.bind_marks hf

theorem map (hx : Quiet x) (f : α → β) : Quiet (f <$> x) := hx.bind fun a => pure (f a)

theorem mapM {f : α → StateT Bool (Except ε) β} {l : List α} (hf : ∀ a ∈ l, Quiet (f a)) :
    Quiet (l.mapM f) := by
  have hany : Marks (l.mapM f) fun _ b => b = l.any fun _ => false := Marks.mapM hf
  exact hany.imp fun _ _ hb => hb.trans (List.any_eq_false.mpr fun _ _ => Bool.false_ne_true)

theorem foldlM {f : β → α → StateT Bool (Except ε) β} (hf : ∀ b a, Quiet (f b a)) :
    ∀ (l : List α) (b : β), Quiet (l.foldlM f b)
  | [], b => by
    rw [List.foldlM_nil]
    exact pure b
  | a :: l, b => by
    rw [List.foldlM_cons]
    exact (hf b a).bind fun b' => foldlM hf l b'

end Quiet

end Framework
