import FedRegFeeder.Framework.Session

/-!
# How a session ends

`Ends x s Q E`: from the log `s`, the computation `x` returns a value and ends
in a log as `Q` says, or raises an exception and ends in one as `E` says. There
is one rule for each construct of a session; in that of a loop (`foldlM`) an
invariant is kept of what is left of the list. Nothing here depends on a
program.
-/

namespace Framework

open Session

variable {ι ε ρ α β : Type}

def Ends (x : Session ι ε α) (s : Log ι) (Q : α → Log ι → Prop) (E : ε → Log ι → Prop) : Prop :=
  match x s with
  | (.ok a, s') => Q a s'
  | (.error e, s') => E e s'

namespace Ends

variable {x : Session ι ε α} {s : Log ι} {Q Q' : α → Log ι → Prop} {E E' : ε → Log ι → Prop}

theorem ok (h : Ends x s Q E) {a : α} {s' : Log ι} (hx : x s = (.ok a, s')) : Q a s' := by
  rw [Ends, hx] at h
  exact h

theorem error (h : Ends x s Q E) {e : ε} {s' : Log ι} (hx : x s = (.error e, s')) : E e s' := by
  rw [Ends, hx] at h
  exact h

/-- A fact about the logs that both ends agree on. -/
theorem log {P : Log ι → Prop} (h : Ends x s (fun _ => P) (fun _ => P)) : P (x s).2 := by
  rcases hx : x s with ⟨_ | _, s'⟩
  · exact h.error hx
  · exact h.ok hx

theorem mono (h : Ends x s Q E) (hQ : ∀ a s', Q a s' → Q' a s') (hE : ∀ e s', E e s' → E' e s') :
    Ends x s Q' E' := by
  rcases hx : x s with ⟨e | a, s'⟩ <;> rw [Ends, hx]
  · exact hE e s' (h.error hx)
  · exact hQ a s' (h.ok hx)

theorem pure {a : α} (h : Q a s) : Ends (pure a) s Q E := h

theorem throw {e : ε} (h : E e s) : Ends (throw e : Session ι ε α) s Q E := h

theorem bind {f : α → Session ι ε β} {Q : β → Log ι → Prop}
    (h : Ends x s (fun a s' => Ends (f a) s' Q E) E) : Ends (x >>= f) s Q E := by
  rcases hx : x s with ⟨e | a, s'⟩
  · have hrun : (x >>= f) s = (.error e, s') := by
      show ExceptT.bindCont f (x s).1 (x s).2 = _
      rw [hx]
      rfl
    rw [Ends, hrun]
    exact h.error hx
  · rw [Ends, bind_ok f hx]
    exact h.ok hx

theorem send {answer : Nat → ι → Except ε ρ} {i : ι} {Q : ρ → Log ι → Prop}
    (hok : ∀ r, answer s.attempts.length i = .ok r → Q r ⟨s.error, s.attempts ++ [i]⟩)
    (herror : ∀ e, answer s.attempts.length i = .error e → E e ⟨s.error, s.attempts ++ [i]⟩) :
    Ends (send answer i) s Q E := by
  rw [Ends, Session.send]
  cases h : answer s.attempts.length i with
  | ok r => exact hok r h
  | error e => exact herror e h

theorem recordError {Q : Unit → Log ι → Prop} (h : Q () ⟨true, s.attempts⟩) :
    Ends recordError s Q E := h

theorem ofExcept {y : Except ε α} (hok : ∀ a, y = .ok a → Q a s) (herror : ∀ e, y = .error e → E e s) :
    Ends (ofExcept y) s Q E := by
  rw [Ends, Session.ofExcept]
  cases y with
  | ok a => exact hok a rfl
  | error e => exact herror e rfl

theorem within {κ : Type} {g : ι → κ} {s : Log κ} {Q : α → Log κ → Prop} {E : ε → Log κ → Prop}
    (h : Ends x {} (fun a s' => Q a ⟨s.error || s'.error, s.attempts ++ s'.attempts.map g⟩)
      fun e s' => E e ⟨s.error || s'.error, s.attempts ++ s'.attempts.map g⟩) :
    Ends (within g x) s Q E := by
  rcases hx : x {} with ⟨e | a, s'⟩ <;> rw [Ends, Session.within, hx]
  · exact h.error hx
  · exact h.ok hx

theorem tryCatch {f : ε → Session ι ε α} (h : Ends x s Q fun e s' => Ends (f e) s' Q E) :
    Ends (tryCatch x f) s Q E := by
  rcases hx : x s with ⟨e | a, s'⟩
  · have herror : (x s).1 = .error e := congrArg Prod.fst hx
    rw [Ends, tryCatch_error f herror, hx]
    exact h.error hx
  · rw [Ends, tryCatch_ok f hx]
    exact h.ok hx

/-- An invariant of the rest of the list, which each turn keeps. -/
theorem foldlM {f : β → α → Session ι ε β} {I : List α → β → Log ι → Prop}
    (hstep : ∀ a l b s, I (a :: l) b s → Ends (f b a) s (I l) E) :
    ∀ {l : List α} {b : β} {s : Log ι}, I l b s → Ends (l.foldlM f b) s (I []) E
  | [], _, _, h => h
  | a :: l, b, s, h => by
    rw [List.foldlM_cons]
    exact bind ((hstep a l b s h).mono (fun _ _ => foldlM hstep) fun _ _ => id)

theorem forM {f : α → Session ι ε PUnit} {I : List α → Log ι → Prop}
    (hstep : ∀ a l s, I (a :: l) s → Ends (f a) s (fun _ => I l) E) :
    ∀ {l : List α} {s : Log ι}, I l s → Ends (l.forM f) s (fun _ => I []) E
  | [], _, h => h
  | a :: l, s, h => by
    show Ends (f a >>= fun _ => l.forM f) s _ E
    exact bind ((hstep a l s h).mono (fun _ _ => forM hstep) fun _ _ => id)

end Ends

end Framework
