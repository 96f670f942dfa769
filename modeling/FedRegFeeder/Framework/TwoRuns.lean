import Mathlib.Data.List.Forall2
import FedRegFeeder.Framework.Session

/-!
# Two runs of a session

Of each request an observer sees `f`. `Alike f` relates the outcomes of two runs
that he cannot tell apart: they return or raise the same, after requests that
look the same. It is followed through a session one step after the other
(`Alike.bind`), and a loop over two lists whose turns are alike is alike
(`Alike.forM`) and stops at the same turn (`failure_congr`).
Nothing here depends on a program.
-/

namespace Framework

variable {ι ε ρ κ α β γ : Type} {f : ι → κ}

/-- Logs that look the same. -/
structure Log.Same (f : ι → κ) (s s' : Log ι) : Prop where
  error : s'.error = s.error
  attempts : s'.attempts.map f = s.attempts.map f

theorem Log.Same.refl (s : Log ι) : Log.Same f s s := ⟨rfl, rfl⟩

theorem Log.Same.length {s s' : Log ι} (h : Log.Same f s s') :
    s'.attempts.length = s.attempts.length := by
  simpa only [List.length_map] using congrArg List.length h.attempts

namespace Session

/-- Outcomes of two runs that look the same. -/
structure Alike (f : ι → κ) (p q : Except ε α × Log ι) : Prop where
  result : q.1 = p.1
  log : Log.Same f p.2 q.2

theorem Alike.ofExcept {x y : Except ε α} {s s' : Log ι} (h : y = x) (hs : Log.Same f s s') :
    Alike f (ofExcept x s) (ofExcept y s') := ⟨h, hs⟩

/-- Two requests that look the same and are answered alike. -/
theorem Alike.send {answer : Nat → ι → Except ε ρ} {i j : ι} {s s' : Log ι} (hf : f j = f i)
    (h : answer s.attempts.length j = answer s.attempts.length i) (hs : Log.Same f s s') :
    Alike f (send answer i s) (send answer j s') where
  result := by
    show answer s'.attempts.length j = answer s.attempts.length i
    rw [hs.length, h]
  log :=
    { error := hs.error
      attempts := by
        show (s'.attempts ++ [j]).map f = (s.attempts ++ [i]).map f
        rw [List.map_append, List.map_append, hs.attempts, List.map_singleton, List.map_singleton,
          hf] }

theorem Alike.bind {x y : Session ι ε α} {k l : α → Session ι ε β} {s s' : Log ι}
    (h : Alike f (x s) (y s'))
    (hk : ∀ a t t', Log.Same f t t' → Alike f (k a t) (l a t')) :
    Alike f ((x >>= k) s) ((y >>= l) s') := by
  show Alike f (ExceptT.bindCont k (x s).1 (x s).2) (ExceptT.bindCont l (y s').1 (y s').2)
  rw [h.result]
  cases (x s).1 with
  | ok a => exact hk a _ _ h.log
  | error e => exact ⟨rfl, h.log⟩

/-! ## Loops -/

/-- The turn at which a loop raises, from 0. -/
def failure (x : α → Session ι ε Unit) : List α → Log ι → Option Nat
  | [], _ => none
  | a :: l, s =>
    match x a s with
    | (.ok _, s') => (failure x l s').map (· + 1)
    | (.error _, _) => some 0

section
variable {R : α → β → Prop} {x : α → Session ι ε Unit} {y : β → Session ι ε Unit}

theorem Alike.forM (hxy : ∀ a b s s', R a b → Log.Same f s s' → Alike f (x a s) (y b s'))
    {l : List α} {l' : List β} (hl : List.Forall₂ R l l') {s s' : Log ι} (hs : Log.Same f s s') :
    Alike f (l.forM x s) (l'.forM y s') := by
  induction hl generalizing s s' with
  | nil => exact ⟨rfl, hs⟩
  | cons hab _ ih => exact (hxy _ _ _ _ hab hs).bind fun _ _ _ ht => ih ht

theorem failure_congr (hxy : ∀ a b s s', R a b → Log.Same f s s' → Alike f (x a s) (y b s'))
    {l : List α} {l' : List β} (hl : List.Forall₂ R l l') {s s' : Log ι} (hs : Log.Same f s s') :
    failure y l' s' = failure x l s := by
  induction hl generalizing s s' with
  | nil => rfl
  | @cons a b l l' hab _ ih =>
    have h := hxy a b s s' hab hs
    rw [failure, failure]
    cases hx : x a s with
    | mk r t =>
      cases hy : y b s' with
      | mk r' t' =>
        rw [hx, hy] at h
        obtain rfl : r' = r := h.result
        cases r' with
        | ok u => exact congrArg (Option.map (· + 1)) (ih h.log)
        | error e => rfl

end

end Session

end Framework
