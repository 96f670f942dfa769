import FedRegFeeder.Framework.Attempt

/-!
# Sessions of requests

A client sends one request after the other, and each ends with an answer or an
exception (`Session`). Its state is a `Log`: what was sent, and whether an
error was recorded; it survives an exception. How a session goes is followed
one step after the other (`bind_ok`, `bind_error`). How a loop goes whose turns
each send one request of a plan is read off the answers to the plan
(`foldlM_exchanges_ok`, `foldlM_exchanges_error`).
Nothing here depends on a program.
-/

namespace Framework

/-- A computation that sends requests and may raise. -/
abbrev Session (ι ε α : Type) := ExceptT ε (StateM (Log ι)) α

namespace Session

variable {ι ε ρ α β : Type}

/-- Send a request; `answer` tells how the `n`-th request, from 0, ends. -/
def send (answer : Nat → ι → Except ε ρ) (i : ι) : Session ι ε ρ :=
  fun s => (answer s.attempts.length i, { s with attempts := s.attempts ++ [i] })

def recordError : Session ι ε Unit := fun s => (.ok (), { s with error := true })

/-- A computation that sends nothing. -/
def ofExcept (x : Except ε α) : Session ι ε α := fun s => (x, s)

/-- A session of its own, whose requests are made by `f` requests of the one
around it. -/
def within {κ : Type} (f : ι → κ) (x : Session ι ε α) : Session κ ε α :=
  fun s => ((x {}).1, ⟨s.error || (x {}).2.error, s.attempts ++ (x {}).2.attempts.map f⟩)

theorem send_apply (answer : Nat → ι → Except ε ρ) (i : ι) (s : Log ι) :
    send answer i s = (answer s.attempts.length i, s.append ⟨false, [i]⟩) := by
  rw [send, Log.append, Bool.or_false]

theorem bind_ok {x : Session ι ε α} {s s' : Log ι} {a : α} (f : α → Session ι ε β)
    (h : x s = (.ok a, s')) : (x >>= f) s = f a s' := by
  show ExceptT.bindCont f (x s).1 (x s).2 = f a s'
  rw [h]
  rfl

theorem bind_error {x : Session ι ε α} {s : Log ι} {e : ε} (f : α → Session ι ε β)
    (h : (x s).1 = .error e) : ((x >>= f) s).1 = .error e := by
  show (ExceptT.bindCont f (x s).1 (x s).2).1 = .error e
  rw [h]
  rfl

/-- What a session returns, by what its first part returns and leaves. -/
theorem fst_bind (x : Session ι ε α) (f : α → Session ι ε β) (s : Log ι) :
    ((x >>= f) s).1 = (x s).1 >>= fun a => (f a (x s).2).1 := by
  show (ExceptT.bindCont f (x s).1 (x s).2).1 = _
  cases (x s).1 <;> rfl

@[simp] theorem fst_ofExcept (x : Except ε α) (s : Log ι) : (ofExcept x s).1 = x := rfl

@[simp] theorem fst_within {κ : Type} (f : ι → κ) (x : Session ι ε α) (s : Log κ) :
    (within f x s).1 = (x {}).1 := rfl

theorem tryCatch_error {x : Session ι ε α} {s : Log ι} {e : ε} (f : ε → Session ι ε α)
    (h : (x s).1 = .error e) : tryCatch x f s = f e (x s).2 := by
  have hx : x s = (.error e, (x s).2) := Prod.ext h rfl
  simp only [tryCatch, tryCatchThe, MonadExceptOf.tryCatch, ExceptT.tryCatch, ExceptT.mk, bind,
    StateT.bind]
  rw [hx]

theorem tryCatch_ok {x : Session ι ε α} {s s' : Log ι} {a : α} (f : ε → Session ι ε α)
    (h : x s = (.ok a, s')) : tryCatch x f s = (.ok a, s') := by
  simp only [tryCatch, tryCatchThe, MonadExceptOf.tryCatch, ExceptT.tryCatch, ExceptT.mk, bind,
    StateT.bind, h]
  rfl

/-- The requests of a loop whose turn at `a` sends `request b a` from `b`, and
goes on from `next b a`. -/
def plan (next : β → α → β) (request : β → α → ι) : β → List α → List ι
  | _, [] => []
  | b, a :: l => request b a :: plan next request (next b a) l

theorem mem_plan {next : β → α → β} {request : β → α → ι} :
    ∀ {l : List α} {b : β} {i : ι}, i ∈ plan next request b l → ∃ b' a, request b' a = i
  | a :: l, b, i, h => by
    rcases List.mem_cons.mp h with rfl | h
    · exact ⟨b, a, rfl⟩
    · exact mem_plan h

/-- The requests of a plan, with what is kept of the state. -/
theorem mem_plan_inv {next : β → α → β} {request : β → α → ι} {J : β → Prop}
    (hJ : ∀ b a, J b → J (next b a)) :
    ∀ {l : List α} {b : β} {i : ι}, J b → i ∈ plan next request b l →
      ∃ b', J b' ∧ ∃ a ∈ l, request b' a = i
  | a :: l, b, i, hb, h => by
    rcases List.mem_cons.mp h with rfl | h
    · exact ⟨b, hb, a, List.mem_cons_self, rfl⟩
    · obtain ⟨b', hb', a', ha', hi⟩ := mem_plan_inv hJ (hJ b a hb) h
      exact ⟨b', hb', a', List.mem_cons_of_mem a ha', hi⟩

/-- How the requests of a plan end, sent from the `n`-th on. -/
def exchanges (answer : Nat → ι → Except ε ρ) : Nat → List ι → List (ι × Except ε ρ)
  | _, [] => []
  | n, i :: l => (i, answer n i) :: exchanges answer (n + 1) l

theorem mem_exchanges {answer : Nat → ι → Except ε ρ} :
    ∀ {l : List ι} {n : Nat} {x : ι × Except ε ρ}, x ∈ exchanges answer n l →
      x.1 ∈ l ∧ ∃ k, x.2 = answer k x.1
  | i :: l, n, x, h => by
    rcases List.mem_cons.mp h with rfl | h
    · exact ⟨List.mem_cons_self, n, rfl⟩
    · exact (mem_exchanges h).imp_left (List.mem_cons_of_mem i)

theorem exchanges_append (answer : Nat → ι → Except ε ρ) : ∀ (n : Nat) (l l' : List ι),
    exchanges answer n (l ++ l') = exchanges answer n l ++ exchanges answer (n + l.length) l'
  | _, [], _ => rfl
  | n, i :: l, l' => by
    rw [List.cons_append, exchanges, exchanges_append answer (n + 1) l l', exchanges, List.cons_append,
      List.length_cons, Nat.add_right_comm, Nat.add_assoc n]

section
variable {f : β → α → Session ι ε β} {next : β → α → β} {request : β → α → ι}
  {answer : Nat → ι → Except ε ρ} {effect : ι × Except ε ρ → Except ε Bool}

/-- A loop of which each turn goes on after the answer to its request, having
recorded an error or not, sends its plan. -/
theorem foldlM_exchanges_ok (hf : ∀ b a s r,
      effect (request b a, answer s.attempts.length (request b a)) = .ok r →
        f b a s = (.ok (next b a), s.append ⟨r, [request b a]⟩)) :
    ∀ {l : List α} {b : β} {s : Log ι} {rs : List Bool},
      (exchanges answer s.attempts.length (plan next request b l)).mapM effect = .ok rs →
        l.foldlM f b s = (.ok (l.foldl next b), s.append ⟨rs.any id, plan next request b l⟩)
  | [], b, s, rs, h => by
    rw [mapM_nil_ok.mp h, plan]
    exact congrArg (Prod.mk _) (Log.append_empty s).symm
  | a :: l, b, s, rs, h => by
    obtain ⟨r, rs, hr, hrs, rfl⟩ := mapM_cons_ok.mp h
    have hstep := hf b a s r hr
    rw [← Log.length_append_one s r (request b a)] at hrs
    rw [List.foldlM_cons, bind_ok _ hstep, foldlM_exchanges_ok hf hrs, Log.append_assoc]
    rfl

/-- The first turn that raises ends the loop. -/
theorem foldlM_exchanges_error {e : ε} (hf : ∀ b a s r,
      effect (request b a, answer s.attempts.length (request b a)) = .ok r →
        f b a s = (.ok (next b a), s.append ⟨r, [request b a]⟩))
    (he : ∀ b a s e, effect (request b a, answer s.attempts.length (request b a)) = .error e →
      (f b a s).1 = .error e) :
    ∀ {l : List α} {b : β} {s : Log ι},
      (exchanges answer s.attempts.length (plan next request b l)).mapM effect = .error e →
        (l.foldlM f b s).1 = .error e
  | a :: l, b, s, h => by
    rcases mapM_cons_error.mp h with h | ⟨r, hr, hl⟩
    · rw [List.foldlM_cons]
      exact bind_error _ (he b a s e h)
    · have hstep := hf b a s r hr
      rw [← Log.length_append_one s r (request b a)] at hl
      rw [List.foldlM_cons, bind_ok _ hstep]
      exact foldlM_exchanges_error hf he hl

end

end Session

end Framework
