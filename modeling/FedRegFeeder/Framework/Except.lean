import Mathlib.Data.List.Basic

/-!
# Fallible computations

What a successful run of a computation in `Except ε` says of its steps
(`bind_eq_ok`, `map_eq_ok`), and the two rules for loops over a list: an
invariant that every step that succeeds keeps holds at the end of a run that
succeeds (`foldlM_inv`), and a loop whose steps all succeed from the
invariant succeeds (`foldlM_total`). What a traversal that succeeds leaves is
read off the list it started from (`mapM_mem_ok`, `mapM_map_eq`,
`mapM_filterMap`, `mapM_find?`); one that fails raises what its first step
that fails does (`mapM_eq_error`). Nothing here depends on a program.
-/

namespace Framework

universe u

variable {ε α β γ : Type u}

theorem ok_bind (a : α) (f : α → Except ε β) : (Except.ok a >>= f) = f a := rfl

theorem bind_eq_ok {x : Except ε α} {f : α → Except ε β} {b : β} :
    (x >>= f) = .ok b ↔ ∃ a, x = .ok a ∧ f a = .ok b := by
  cases x with
  | error e => exact ⟨(nomatch ·), fun ⟨_, h, _⟩ => (nomatch h)⟩
  | ok a => exact ⟨fun h => ⟨a, rfl, h⟩, fun ⟨_, h, hf⟩ => by cases h; exact hf⟩

theorem map_eq_ok {x : Except ε α} {f : α → β} {b : β} :
    x.map f = .ok b ↔ ∃ a, x = .ok a ∧ f a = b := by
  cases x with
  | error e => exact ⟨(nomatch ·), fun ⟨_, h, _⟩ => (nomatch h)⟩
  | ok a =>
    constructor
    · intro h; cases h; exact ⟨a, rfl, rfl⟩
    · rintro ⟨_, h, rfl⟩; cases h; rfl

theorem bind_eq_error {x : Except ε α} {f : α → Except ε β} {e : ε} :
    (x >>= f) = .error e ↔ x = .error e ∨ ∃ a, x = .ok a ∧ f a = .error e := by
  cases x with
  | error e' => exact ⟨fun h => .inl (by cases h; rfl), fun h => by
      rcases h with h | ⟨_, h, _⟩ <;> cases h; rfl⟩
  | ok a => exact ⟨fun h => .inr ⟨a, rfl, h⟩, fun h => by
      rcases h with h | ⟨_, h, hf⟩ <;> cases h; exact hf⟩

theorem pure_eq_ok {a b : α} : (pure a : Except ε α) = .ok b ↔ a = b :=
  ⟨fun h => by cases h; rfl, fun h => h ▸ rfl⟩

theorem toOption_eq_some {x : Except ε α} {a : α} : x.toOption = some a ↔ x = .ok a := by
  cases x with
  | error e => exact iff_of_false nofun nofun
  | ok a' => simp only [Except.toOption, Option.some.injEq, Except.ok.injEq]

/-! ## Loops -/

theorem foldlM_nil_ok {f : β → α → Except ε β} {b r : β} :
    [].foldlM f b = .ok r ↔ b = r := pure_eq_ok

theorem foldlM_cons_ok {f : β → α → Except ε β} {b r : β} {a : α} {l : List α} :
    (a :: l).foldlM f b = .ok r ↔ ∃ b', f b a = .ok b' ∧ l.foldlM f b' = .ok r := by
  rw [List.foldlM_cons, bind_eq_ok]

/-- An invariant of the steps that succeed holds at the end of a run that
succeeds. -/
theorem foldlM_inv {f : β → α → Except ε β} {P : β → Prop} :
    ∀ {l : List α} {b r : β}, (∀ b a b', a ∈ l → P b → f b a = .ok b' → P b') →
      P b → l.foldlM f b = .ok r → P r
  | [], _, _, _, hb, h => foldlM_nil_ok.mp h ▸ hb
  | a :: l, b, _, hstep, hb, h => by
    obtain ⟨b', h₁, h₂⟩ := foldlM_cons_ok.mp h
    exact foldlM_inv (fun b a b' ha => hstep b a b' (List.mem_cons_of_mem _ ha))
      (hstep b a b' List.mem_cons_self hb h₁) h₂

/-- A loop whose steps all succeed, and keep the invariant, succeeds. -/
theorem foldlM_total {f : β → α → Except ε β} {P : β → Prop} :
    ∀ {l : List α} {b : β}, (∀ b, ∀ a ∈ l, P b → ∃ b', f b a = .ok b' ∧ P b') →
      P b → ∃ r, l.foldlM f b = .ok r ∧ P r
  | [], b, _, hb => ⟨b, rfl, hb⟩
  | a :: l, b, hstep, hb => by
    obtain ⟨b', h₁, hb'⟩ := hstep b a List.mem_cons_self hb
    obtain ⟨r, h₂, hr⟩ := foldlM_total (l := l)
      (fun b a ha => hstep b a (List.mem_cons_of_mem _ ha)) hb'
    exact ⟨r, foldlM_cons_ok.mpr ⟨b', h₁, h₂⟩, hr⟩

/-- A loop that succeeds does so at each of its turns. -/
theorem foldlM_ok_of_mem {f : β → α → Except ε β} :
    ∀ {l : List α} {b r : β}, l.foldlM f b = .ok r → ∀ {a}, a ∈ l → ∃ b' b'', f b' a = .ok b''
  | a :: l, b, r, h, a', ha => by
    obtain ⟨b', hb', h⟩ := foldlM_cons_ok.mp h
    rcases List.mem_cons.mp ha with rfl | ha
    · exact ⟨b, b', hb'⟩
    · exact foldlM_ok_of_mem h ha

/-- A loop that fails does so at one of its turns. -/
theorem foldlM_error_mem {f : β → α → Except ε β} {e : ε} :
    ∀ {l : List α} {b : β}, l.foldlM f b = .error e → ∃ b', ∃ a ∈ l, f b' a = .error e
  | [], _, h => nomatch h
  | a :: l, b, h => by
    rw [List.foldlM_cons] at h
    rcases bind_eq_error.mp h with h | ⟨b', -, h⟩
    · exact ⟨b, a, List.mem_cons_self, h⟩
    · obtain ⟨b'', a', ha', h⟩ := foldlM_error_mem h
      exact ⟨b'', a', List.mem_cons_of_mem a ha', h⟩

/-! ## Traversals -/

theorem mapM_nil_ok {f : α → Except ε β} {r : List β} : [].mapM f = .ok r ↔ r = [] := by
  rw [List.mapM_nil, pure_eq_ok, eq_comm]

theorem mapM_cons_ok {f : α → Except ε β} {a : α} {l : List α} {r : List β} :
    (a :: l).mapM f = .ok r ↔ ∃ b bs, f a = .ok b ∧ l.mapM f = .ok bs ∧ r = b :: bs := by
  rw [List.mapM_cons]
  simp only [bind_eq_ok, pure_eq_ok]
  constructor
  · rintro ⟨b, hb, bs, hbs, rfl⟩
    exact ⟨b, bs, hb, hbs, rfl⟩
  · rintro ⟨b, bs, hb, hbs, rfl⟩
    exact ⟨b, hb, bs, hbs, rfl⟩

/-- A traversal whose steps all succeed. -/
theorem mapM_eq_map {f : α → Except ε β} {g : α → β} :
    ∀ {l : List α}, (∀ a ∈ l, f a = .ok (g a)) → l.mapM f = .ok (l.map g)
  | [], _ => rfl
  | a :: l, h => by
    obtain ⟨ha, hl⟩ := List.forall_mem_cons.mp h
    exact mapM_cons_ok.mpr ⟨_, _, ha, mapM_eq_map hl, rfl⟩

theorem mapM_total {f : α → Except ε β} :
    ∀ {l : List α}, (∀ a ∈ l, ∃ b, f a = .ok b) → ∃ r, l.mapM f = .ok r
  | [], _ => ⟨[], rfl⟩
  | a :: l, h => by
    obtain ⟨⟨b, hb⟩, hl⟩ := List.forall_mem_cons.mp h
    obtain ⟨bs, hbs⟩ := mapM_total hl
    exact ⟨b :: bs, mapM_cons_ok.mpr ⟨b, bs, hb, hbs, rfl⟩⟩

/-- Two traversals, one after the other, are one. -/
theorem mapM_bind_ok {f : α → Except ε β} {g : β → Except ε γ} :
    ∀ {l : List α} {m : List β} {r : List γ}, l.mapM f = .ok m → m.mapM g = .ok r →
      l.mapM (fun a => f a >>= g) = .ok r
  | [], m, r, hm, hr => by
    rw [mapM_nil_ok.mp hm] at hr
    rw [mapM_nil_ok.mp hr]
    rfl
  | a :: l, m, r, hm, hr => by
    obtain ⟨b, bs, hb, hbs, rfl⟩ := mapM_cons_ok.mp hm
    obtain ⟨c, cs, hc, hcs, rfl⟩ := mapM_cons_ok.mp hr
    exact mapM_cons_ok.mpr ⟨c, cs, bind_eq_ok.mpr ⟨b, hb, hc⟩, mapM_bind_ok hbs hcs, rfl⟩

/-- What is kept of results some of which are missing. -/
theorem reduceOption_map_eq (f : α → Option β) (l : List α) :
    (l.map f).reduceOption = l.filterMap f := by
  show List.filterMap id (List.map _ _) = _
  rw [List.filterMap_map]
  rfl

theorem mapM_cons_error {f : α → Except ε β} {a : α} {l : List α} {e : ε} :
    (a :: l).mapM f = .error e ↔ f a = .error e ∨ ∃ b, f a = .ok b ∧ l.mapM f = .error e := by
  rw [List.mapM_cons, bind_eq_error]
  refine or_congr_right (exists_congr fun b => and_congr_right fun _ => ?_)
  rw [bind_eq_error]
  exact or_iff_left fun ⟨_, _, h⟩ => nomatch h

theorem mapM_error_mem {f : α → Except ε β} {e : ε} :
    ∀ {l : List α}, l.mapM f = .error e → ∃ a ∈ l, f a = .error e
  | [], h => nomatch h
  | a :: l, h => by
    rcases mapM_cons_error.mp h with h | ⟨_, -, h⟩
    · exact ⟨a, List.mem_cons_self, h⟩
    · obtain ⟨a', ha', h⟩ := mapM_error_mem h
      exact ⟨a', List.mem_cons_of_mem a ha', h⟩

/-- A traversal raises what its first step that raises does. -/
theorem mapM_eq_error {f : α → Except ε β} {p : α → Bool} {e : ε}
    (hp : ∀ a, p a = true ↔ ∃ e, f a = .error e) :
    ∀ {l : List α}, l.mapM f = .error e ↔ ∃ a, l.find? p = some a ∧ f a = .error e
  | [] => ⟨(nomatch ·), fun ⟨_, h, _⟩ => nomatch h⟩
  | a :: l => by
    rw [mapM_cons_error, mapM_eq_error hp]
    cases ha : f a with
    | error e' =>
      rw [List.find?_cons_of_pos ((hp a).mpr ⟨e', ha⟩)]
      simp [ha]
    | ok b =>
      have hno : ¬ p a = true := fun h => by
        obtain ⟨e', he⟩ := (hp a).mp h
        rw [ha] at he
        cases he
      rw [List.find?_cons_of_neg hno]
      simp

/-- What a traversal leaves comes from where it started. -/
theorem mapM_mem_ok {f : α → Except ε β} :
    ∀ {l : List α} {r : List β}, l.mapM f = .ok r → ∀ b, b ∈ r ↔ ∃ a ∈ l, f a = .ok b
  | [], r, h, b => by
    rw [mapM_nil_ok.mp h]
    simp
  | a :: l, r, h, b => by
    obtain ⟨b', bs, hb', hbs, rfl⟩ := mapM_cons_ok.mp h
    rw [List.mem_cons, mapM_mem_ok hbs, List.exists_mem_cons_iff, hb', Except.ok.injEq,
      eq_comm (a := b)]

theorem mapM_ok_of_mem {f : α → Except ε β} :
    ∀ {l : List α} {r : List β}, l.mapM f = .ok r → ∀ {a}, a ∈ l → ∃ b, f a = .ok b
  | a :: l, r, h, a', ha => by
    obtain ⟨b, bs, hb, hbs, -⟩ := mapM_cons_ok.mp h
    rcases List.mem_cons.mp ha with rfl | ha
    · exact ⟨b, hb⟩
    · exact mapM_ok_of_mem hbs ha

/-- Traversed in another order, the elements leave the same in another order. -/
theorem mapM_perm {f : α → Except ε β} {l l' : List α} {r : List β} (h : l.Perm l')
    (hr : l.mapM f = .ok r) : ∃ r', l'.mapM f = .ok r' ∧ r.Perm r' := by
  induction h generalizing r with
  | nil => exact ⟨r, hr, .refl r⟩
  | cons a _ ih =>
    obtain ⟨b, bs, hb, hbs, rfl⟩ := mapM_cons_ok.mp hr
    obtain ⟨bs', hbs', hperm⟩ := ih hbs
    exact ⟨b :: bs', mapM_cons_ok.mpr ⟨b, bs', hb, hbs', rfl⟩, hperm.cons b⟩
  | swap a a' l =>
    obtain ⟨b', _, hb', hrest, rfl⟩ := mapM_cons_ok.mp hr
    obtain ⟨b, bs, hb, hbs, rfl⟩ := mapM_cons_ok.mp hrest
    have hl : (a' :: l).mapM f = .ok (b' :: bs) := mapM_cons_ok.mpr ⟨b', bs, hb', hbs, rfl⟩
    exact ⟨b :: b' :: bs, mapM_cons_ok.mpr ⟨b, _, hb, hl, rfl⟩, .swap b b' bs⟩
  | trans _ _ ih₁ ih₂ =>
    obtain ⟨r₁, h₁, hperm₁⟩ := ih₁ hr
    obtain ⟨r₂, h₂, hperm₂⟩ := ih₂ h₁
    exact ⟨r₂, h₂, hperm₁.trans hperm₂⟩

/-- What is read off the elements a traversal leaves, read off where it started. -/
theorem mapM_map_eq {f : α → Except ε β} {g : α → γ} {h : β → γ} :
    ∀ {l : List α} {r : List β}, (∀ a ∈ l, ∀ b, f a = .ok b → h b = g a) →
      l.mapM f = .ok r → r.map h = l.map g
  | [], r, _, hr => by
    rw [mapM_nil_ok.mp hr]
    rfl
  | a :: l, r, hf, hr => by
    obtain ⟨b, bs, hb, hbs, rfl⟩ := mapM_cons_ok.mp hr
    obtain ⟨hfa, hf⟩ := List.forall_mem_cons.mp hf
    rw [List.map_cons, List.map_cons, hfa b hb, mapM_map_eq hf hbs]

/-- What is kept of the elements a traversal leaves, kept where it started. -/
theorem mapM_filterMap {f : α → Except ε β} {g : β → Option γ} :
    ∀ {l : List α} {r : List β}, l.mapM f = .ok r →
      r.filterMap g = l.filterMap fun a => (f a).toOption.bind g
  | [], r, hr => by
    rw [mapM_nil_ok.mp hr]
    rfl
  | a :: l, r, hr => by
    obtain ⟨b, bs, hb, hbs, rfl⟩ := mapM_cons_ok.mp hr
    rw [List.filterMap_cons, List.filterMap_cons, hb, mapM_filterMap hbs]
    rfl

/-- Finding in what a traversal leaves is finding where it started. -/
theorem mapM_find? {f : α → Except ε β} {p : α → Bool} {q : β → Bool} :
    ∀ {l : List α} {r : List β}, (∀ a ∈ l, ∀ b, f a = .ok b → q b = p a) → l.mapM f = .ok r →
      ∀ b, r.find? q = some b ↔ ∃ a, l.find? p = some a ∧ f a = .ok b
  | [], r, _, hr, b => by
    rw [mapM_nil_ok.mp hr]
    simp
  | a :: l, r, hq, hr, b => by
    obtain ⟨b', bs, hb', hbs, rfl⟩ := mapM_cons_ok.mp hr
    obtain ⟨hqa, hq⟩ := List.forall_mem_cons.mp hq
    rw [List.find?_cons, List.find?_cons, hqa b' hb']
    split
    · simp only [Option.some.injEq, exists_eq_left', hb', Except.ok.injEq]
    · exact mapM_find? hq hbs b

end Framework
