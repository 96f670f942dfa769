import FedRegFeeder.Framework.Except

/-!
# What a stateful, fallible computation can yield

`Yields x Q`: every value that `x` returns, from any state, satisfies `Q`
(partial correctness, of the value alone). The rules follow the structure of
a computation; `Yields.bind` chains two steps, `Yields.mapM` a loop that
collects its results, `Yields.mapError` a handler that only translates errors.
`Returns x a`: from any state, `x` returns `a` and leaves the state as it is
(total correctness, for a computation that reads and writes no state). Nothing
here depends on a program.
-/

namespace Framework

universe u

variable {σ ε α β : Type u}

/-- Every value `x` returns satisfies `Q`. -/
def Yields (x : StateT σ (Except ε) α) (Q : α → Prop) : Prop :=
  ∀ s a s', x s = .ok (a, s') → Q a

theorem Yields.pure {Q : α → Prop} {a : α} (h : Q a) :
    Yields (Pure.pure a : StateT σ (Except ε) α) Q := by
  rintro s b s' hb
  cases hb
  exact h

theorem Yields.bind {x : StateT σ (Except ε) α} {f : α → StateT σ (Except ε) β} {P : α → Prop}
    {Q : β → Prop} (hx : Yields x P) (hf : ∀ a, P a → Yields (f a) Q) : Yields (x >>= f) Q := by
  intro s b s' hb
  obtain ⟨⟨a, s₁⟩, ha, hfa⟩ := bind_eq_ok.mp hb
  exact hf a (hx s a s₁ ha) s₁ b s' hfa

theorem yields_true (x : StateT σ (Except ε) α) : Yields x fun _ => True := fun _ _ _ _ => trivial

theorem Yields.map {x : StateT σ (Except ε) α} {f : α → β} {P : α → Prop} {Q : β → Prop}
    (hx : Yields x P) (hf : ∀ a, P a → Q (f a)) : Yields (f <$> x) Q := by
  intro s b s' hb
  obtain ⟨⟨a, s₁⟩, ha, hfa⟩ := bind_eq_ok.mp hb
  cases hfa
  exact hf a (hx s a _ ha)

/-- A step whose value does not matter. -/
theorem Yields.bind' {x : StateT σ (Except ε) α} {f : α → StateT σ (Except ε) β} {Q : β → Prop}
    (hf : ∀ a, Yields (f a) Q) : Yields (x >>= f) Q :=
  (yields_true x).bind fun a _ => hf a

theorem Yields.imp {x : StateT σ (Except ε) α} {P Q : α → Prop} (hx : Yields x P)
    (h : ∀ a, P a → Q a) : Yields x Q := fun s a s' ha => h a (hx s a s' ha)

theorem Yields.throw {Q : α → Prop} (e : ε) : Yields (throw e : StateT σ (Except ε) α) Q :=
  fun _ _ _ h => nomatch h

/-- A computation that does not use the state. -/
theorem Yields.lift {x : Except ε α} {Q : α → Prop} (hx : ∀ a, x = .ok a → Q a) :
    Yields (StateT.lift x : StateT σ (Except ε) α) Q := by
  intro s a s' h
  obtain ⟨b, hb, hp⟩ := bind_eq_ok.mp h
  cases hp
  exact hx _ hb

/-- A loop that collects its results. -/
theorem Yields.mapM {f : α → StateT σ (Except ε) β} {P : α → Prop} {Q : β → Prop} :
    ∀ {l : List α}, (∀ a ∈ l, P a) → (∀ a, P a → Yields (f a) Q) →
      Yields (l.mapM f) fun r => ∀ b ∈ r, Q b
  | [], _, _ => by
    rw [List.mapM_nil]
    exact Yields.pure fun _ h => nomatch h
  | a :: l, hl, hf => by
    obtain ⟨ha, hl⟩ := List.forall_mem_cons.mp hl
    rw [List.mapM_cons]
    exact (hf a ha).bind fun b hb => (Yields.mapM hl hf).bind fun r hr =>
      Yields.pure (List.forall_mem_cons.mpr ⟨hb, hr⟩)

/-- Raise another error in place of one. -/
def mapError (f : ε → ε) (x : StateT σ (Except ε) α) : StateT σ (Except ε) α :=
  fun s => (x s).mapError f

theorem mapError_eq_ok {f : ε → ε} {x : StateT σ (Except ε) α} {s : σ} {r : α × σ} :
    mapError f x s = .ok r ↔ x s = .ok r := by
  simp only [mapError]
  cases x s with
  | error e => exact ⟨nofun, nofun⟩
  | ok r' => rfl

theorem Yields.mapError {f : ε → ε} {x : StateT σ (Except ε) α} {Q : α → Prop} (hx : Yields x Q) :
    Yields (mapError f x) Q := by
  intro s a s' h
  simp only [Framework.mapError] at h
  cases hr : x s with
  | error e => rw [hr] at h; cases h
  | ok r => rw [hr] at h; cases h; exact hx s a s' hr

/-- What is read off the results of a loop, read off its list. -/
theorem Yields.mapM_map {γ : Type u} {f : α → StateT σ (Except ε) β} {g : α → γ} {h : β → γ} :
    ∀ {l : List α}, (∀ a ∈ l, Yields (f a) fun b => h b = g a) →
      Yields (l.mapM f) fun r => r.map h = l.map g
  | [], _ => by
    rw [List.mapM_nil]
    exact Yields.pure rfl
  | a :: l, hf => by
    obtain ⟨ha, hf⟩ := List.forall_mem_cons.mp hf
    rw [List.mapM_cons]
    exact ha.bind fun b hb => (Yields.mapM_map hf).bind fun r hr =>
      Yields.pure (congrArg₂ List.cons hb hr)

/-- A loop whose steps can only yield what a function computes. -/
theorem Yields.foldlM_eq {f : β → α → StateT σ (Except ε) β} {g : β → α → β} :
    ∀ {l : List α} {b : β}, (∀ b, ∀ a ∈ l, Yields (f b a) (· = g b a)) →
      Yields (l.foldlM f b) (· = l.foldl g b)
  | [], _, _ => by
    rw [List.foldlM_nil]
    exact Yields.pure rfl
  | a :: l, b, hf => by
    rw [List.foldlM_cons]
    refine (hf b a List.mem_cons_self).bind ?_
    rintro _ rfl
    exact Yields.foldlM_eq fun b a ha => hf b a (List.mem_cons_of_mem _ ha)

/-! ## Computations that return -/

/-- `x` returns `a`, from every state, and keeps the state. -/
def Returns (x : StateT σ (Except ε) α) (a : α) : Prop := ∀ s, x s = .ok (a, s)

theorem Returns.pure (a : α) : Returns (Pure.pure a : StateT σ (Except ε) α) a := fun _ => rfl

theorem Returns.bind {x : StateT σ (Except ε) α} {f : α → StateT σ (Except ε) β} {a : α} {b : β}
    (hx : Returns x a) (hf : Returns (f a) b) : Returns (x >>= f) b := fun s =>
  bind_eq_ok.mpr ⟨(a, s), hx s, hf s⟩

theorem Returns.map {x : StateT σ (Except ε) α} {a : α} (hx : Returns x a) (f : α → β) :
    Returns (f <$> x) (f a) := fun s =>
  bind_eq_ok.mpr ⟨(a, s), hx s, rfl⟩

theorem Returns.mapM {f : α → StateT σ (Except ε) β} {g : α → β} :
    ∀ {l : List α}, (∀ a ∈ l, Returns (f a) (g a)) → Returns (l.mapM f) (l.map g)
  | [], _ => by
    rw [List.mapM_nil]
    exact Returns.pure []
  | a :: l, hf => by
    obtain ⟨ha, hf⟩ := List.forall_mem_cons.mp hf
    rw [List.mapM_cons]
    exact ha.bind ((Returns.mapM hf).bind (Returns.pure _))

theorem Returns.foldlM {f : β → α → StateT σ (Except ε) β} {g : β → α → β} :
    ∀ {l : List α} {b : β}, (∀ b, ∀ a ∈ l, Returns (f b a) (g b a)) →
      Returns (l.foldlM f b) (l.foldl g b)
  | [], b, _ => by
    rw [List.foldlM_nil]
    exact Returns.pure b
  | a :: l, b, hf => by
    rw [List.foldlM_cons]
    exact (hf b a List.mem_cons_self).bind
      (Returns.foldlM fun b a ha => hf b a (List.mem_cons_of_mem _ ha))

end Framework
