import FedRegFeeder.Framework.Except

/-!
# Attempts that may fail

A computation that makes one attempt after the other and goes on when an
attempt gives nothing: its state, a `Log`, records what was attempted and
whether an attempt gave nothing. `attempt` is one attempt with a known
outcome; a loop of attempts is a loop over the outcomes (`mapM_attempt`), and
so is making each attempt on its own and putting the results and the logs
together (`collect_attempt`). Nothing here depends on a program.
-/

namespace Framework

variable {ι ε α β : Type}

structure Log (ι : Type) where
  error : Bool := false
  attempts : List ι := []

/-- The log of both, the first one first. -/
def Log.append (s s' : Log ι) : Log ι := ⟨s.error || s'.error, s.attempts ++ s'.attempts⟩

def logAttempt (a : ι) : StateT (Log ι) (Except ε) Unit :=
  modify fun s => { s with attempts := s.attempts ++ [a] }

def logError : StateT (Log ι) (Except ε) Unit := modify fun s => { s with error := true }

/-- An attempt whose outcome is known: a value, nothing, or an exception. -/
def attempt (a : ι) (o : Except ε (Option β)) : StateT (Log ι) (Except ε) (Option β) := do
  logAttempt a
  match o with
  | .ok (some b) => return some b
  | .ok none => do
    logError
    return none
  | .error e => throw e

theorem attempt_run (a : ι) (o : Except ε (Option β)) (s : Log ι) :
    attempt a o s = o.map fun b => (b, s.append ⟨b.isNone, [a]⟩) := by
  match o with
  | .ok (some b) =>
    show Except.ok (some b, Log.mk s.error (s.attempts ++ [a])) =
      Except.ok (some b, Log.mk (s.error || false) (s.attempts ++ [a]))
    rw [Bool.or_false]
  | .ok none =>
    show Except.ok (none, Log.mk true (s.attempts ++ [a])) =
      Except.ok (none, Log.mk (s.error || true) (s.attempts ++ [a]))
    rw [Bool.or_true]
  | .error e => rfl

theorem Log.append_assoc (s s' s'' : Log ι) :
    (s.append s').append s'' = s.append (s'.append s'') := by
  simp only [Log.append, Bool.or_assoc, List.append_assoc]

theorem Log.append_empty (s : Log ι) : s.append ⟨false, []⟩ = s := by
  simp only [Log.append, Bool.or_false, List.append_nil]

theorem Log.length_append_one (s : Log ι) (error : Bool) (a : ι) :
    (s.append ⟨error, [a]⟩).attempts.length = s.attempts.length + 1 := List.length_append

/-- A loop of attempts is a loop over their outcomes, which logs every attempt
and whether one gave nothing. -/
theorem mapM_attempt (i : α → ι) (o : α → Except ε (Option β)) :
    ∀ (l : List α) (s : Log ι), l.mapM (fun a => attempt (i a) (o a)) s =
      (l.mapM o).map fun r => (r, s.append ⟨r.any (·.isNone), l.map i⟩)
  | [], s => by
    show Except.ok ([], s) = Except.ok ([], s.append ⟨false, []⟩)
    rw [Log.append_empty]
  | a :: l, s => by
    rw [List.mapM_cons, List.mapM_cons]
    show (attempt (i a) (o a) s >>= fun p => (l.mapM (fun a => attempt (i a) (o a)) p.2 >>=
      fun q => pure (p.1 :: q.1, q.2))) = _
    rw [attempt_run]
    cases o a with
    | error e => rfl
    | ok b =>
      show (l.mapM (fun a => attempt (i a) (o a)) (s.append ⟨b.isNone, [i a]⟩) >>= _) = _
      rw [mapM_attempt i o l]
      cases l.mapM o with
      | error e => rfl
      | ok r =>
        have hs : (s.append ⟨b.isNone, [i a]⟩).append ⟨r.any (·.isNone), l.map i⟩ =
            s.append ⟨(b :: r).any (·.isNone), (a :: l).map i⟩ := Log.append_assoc _ _ _
        exact congrArg (fun s' => Except.ok (b :: r, s')) hs

/-! ## Attempts made on their own -/

/-- The log with that of a computation that was run on its own. -/
def appendLog (s : Log ι) : Except ε (β × Log ι) → Log ι
  | .ok (_, s') => s.append s'
  | .error _ => s

/-- Put together the results of computations that were run on their own: the
first exception is raised. -/
def collect (results : List (Except ε (β × Log ι))) : StateT (Log ι) (Except ε) (List β) := do
  modify fun s => results.foldl appendLog s
  results.mapM fun r => StateT.lift (r.map Prod.fst)

theorem mapM_lift (f : α → Except ε β) :
    ∀ (l : List α) (s : Log ι), l.mapM (fun a => StateT.lift (f a)) s = (l.mapM f).map (·, s)
  | [], _ => rfl
  | a :: l, s => by
    rw [List.mapM_cons, List.mapM_cons]
    show (StateT.lift (f a) s >>= fun p => l.mapM (fun a => StateT.lift (f a)) p.2 >>=
      fun q => pure (p.1 :: q.1, q.2)) = _
    cases f a with
    | error e => rfl
    | ok b =>
      show (l.mapM (fun a => StateT.lift (f a)) s >>= fun q => pure (b :: q.1, q.2)) = _
      rw [mapM_lift f l]
      cases l.mapM f <;> rfl

theorem foldl_appendLog (i : α → ι) (o : α → Except ε (Option β)) :
    ∀ {l : List α} {r : List (Option β)}, l.mapM o = .ok r → ∀ s : Log ι,
      (l.map fun a => attempt (i a) (o a) {}).foldl appendLog s =
        s.append ⟨r.any (·.isNone), l.map i⟩
  | [], _, h, s => by
    cases h
    exact (Log.append_empty s).symm
  | a :: l, r, h, s => by
    obtain ⟨b, r', hb, hr', rfl⟩ := mapM_cons_ok.mp h
    rw [List.map_cons, List.foldl_cons, foldl_appendLog i o hr', attempt_run, hb]
    show (s.append (Log.append {} ⟨b.isNone, [i a]⟩)).append _ = _
    rw [Log.append_assoc]
    rfl

theorem collect_attempt (i : α → ι) (o : α → Except ε (Option β)) (l : List α) :
    collect (l.map fun a => attempt (i a) (o a) {}) = l.mapM fun a => attempt (i a) (o a) := by
  funext s
  have ho : (l.map fun a => attempt (i a) (o a) {}).mapM (fun r => r.map Prod.fst) = l.mapM o := by
    rw [List.mapM_map]
    congr 1
    funext a
    show (attempt (i a) (o a) {}).map Prod.fst = o a
    rw [attempt_run]
    cases o a <;> rfl
  rw [mapM_attempt]
  show ((l.map fun a => attempt (i a) (o a) {}).mapM (fun r => StateT.lift (r.map Prod.fst)) :
    StateT (Log ι) (Except ε) _) (List.foldl appendLog s _) = _
  rw [mapM_lift, ho]
  cases h : l.mapM o with
  | error e => rfl
  | ok r => exact congrArg (fun s' => Except.ok (r, s')) (foldl_appendLog i o h s)

end Framework
