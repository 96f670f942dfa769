import FedRegFeeder.Proof.Requests

/-!
# However the registry answers

`update_database` catches `ConnectionError` and `HTTPError`. So when each
request ends with some status, with `ConnectionError` or with `ReadTimeout`, it
returns, and returns whether every request was answered as it should, if and
only if the first request does not end with a timeout, or with a status that is
neither 200 nor an error, and no later request that it comes to ends with a
timeout (`updateDatabase_returns`).
-/

namespace FRF.Spec

open FRF.Impl
open Py (PyError)

/-- A request ends with an answer of any status, or without one by
`ConnectionError` or `ReadTimeout`. -/
structure Answers (registry : Registry) : Prop extends WellFormed registry where
  fails : ∀ n m e, registry n m = .error e → e = .connectionError ∨ e = .readTimeout

/-- The request was answered with a status it waits for. -/
def Accepted : Request × Except PyError Response → Prop
  | (q, .ok r) => Request.succeeded q r.status = true
  | (_, .error _) => False

/-- The run does not go on after a write request that ends so. -/
def ends : Except PyError Response → Bool
  | .error _ => true
  | .ok r => 400 ≤ r.status && r.status < 600 && r.status ≠ 422

end FRF.Spec

namespace FRF.Proof

open FRF.Impl FRF.Spec
open Py (PyError)
open Framework Session

/-- An answer lists one list of providers. -/
theorem lists_unique {answer : Except PyError Response} {stored stored' : List ProviderRead}
    (h : Lists answer stored) (h' : Lists answer stored') : stored' = stored := by
  obtain ⟨r, hr, -, hstored⟩ := h
  obtain ⟨r', hr', -, hstored'⟩ := h'
  rw [hr] at hr'
  cases hr'
  rw [hstored] at hstored'
  exact (Except.ok.inj hstored').symm

/-! ## Write requests -/

/-- No status a request waits for is that of an error. -/
theorem status_of_succeeded {q : Request} {status : Nat} (h : Request.succeeded q status = true) :
    status < 400 := by
  cases q <;> simp only [Request.succeeded, Bool.or_eq_true, decide_eq_true_eq] at h <;> omega

theorem effect_raises_iff (x : Request × Except PyError Response) :
    ends x.2 = true ↔ ∃ e, effect x = .error e := by
  obtain ⟨q, e | r⟩ := x
  · exact ⟨fun _ => ⟨e, rfl⟩, fun _ => rfl⟩
  · by_cases hs : Request.succeeded q r.status = true
    · have hlt := status_of_succeeded hs
      have hno : ¬ 400 ≤ r.status := by omega
      simp [ends, effect, hs, hno]
    · by_cases h422 : r.status = 422
      · rw [h422] at hs
        simp [ends, effect, hs, refusal, h422]
      · by_cases hstatus : 400 ≤ r.status ∧ r.status < 600 <;>
          simp [ends, effect, hs, refusal, h422, hstatus]

/-- A write raises what the request raised, or `HTTPError`. -/
theorem effect_error_cases {x : Request × Except PyError Response} {e : PyError}
    (h : effect x = .error e) : x.2 = .error e ∨ ∃ status, e = .httpError status := by
  obtain ⟨q, e' | r⟩ := x
  · cases h
    exact .inl rfl
  · simp only [effect, refusal] at h
    split at h
    · cases h
    · split at h
      · cases h
      · split at h <;> cases h
        exact .inr ⟨_, rfl⟩

theorem not_accepted_of_error {x : Request × Except PyError Response} {e : PyError}
    (h : effect x = .error e) : ¬ Accepted x := by
  obtain ⟨q, e' | r⟩ := x
  · exact id
  · intro hs
    have hs : Request.succeeded q r.status = true := hs
    rw [effect, if_pos hs] at h
    cases h

theorem effect_ok_iff {x : Request × Except PyError Response} {b : Bool} (h : effect x = .ok b) :
    b = true ↔ ¬ Accepted x := by
  obtain ⟨q, e' | r⟩ := x
  · cases h
  · simp only [effect, refusal] at h
    simp only [Accepted]
    split at h
    · rename_i hs
      cases h
      simp [hs]
    · rename_i hs
      split at h
      · cases h
        simp [hs]
      · split at h <;> cases h
        simp [hs]

/-! ## Runs -/

section
variable {registry : Registry} (ha : Answers registry) {token : String} (ht : token ≠ "")
  (url : String) (items : List ProviderCreateExtended) (timeout : Int)

include ha

/-- The exceptions of a run are those of its requests. -/
theorem exchanged_error {crud : CRUD} {stored : List ProviderRead}
    {x : Request × Except PyError Response} {e : PyError}
    (hx : x ∈ exchanged registry crud stored items) (h : x.2 = .error e) :
    e = .connectionError ∨ e = .readTimeout := by
  obtain ⟨-, n, hn⟩ := mem_exchanges hx
  exact ha.fails n _ e (hn ▸ h)

include ht

/-- A run that has read the stored providers. -/
theorem returns_of_lists {stored : List ProviderRead}
    (hg : Lists (answerTo registry (client url token timeout) 0 .get) stored) :
    (∃ b, (updateDatabase registry url items token timeout {}).1 = .ok b ∧
      (b = true ↔ ∀ x ∈ exchanged registry (client url token timeout) stored items, Accepted x)) ↔
    ∀ x, (exchanged registry (client url token timeout) stored items).find? (ends ·.2) = some x →
      x.2 ≠ .error .readTimeout := by
  cases h : (exchanged registry (client url token timeout) stored items).mapM effect with
  | ok rs =>
    have hrun := updateDatabase_ok ht url timeout (updateItems_ok ha.toWellFormed hg h)
    refine iff_of_true ⟨_, congrArg Prod.fst hrun, ?_⟩ fun x hx => ?_
    · rw [Bool.not_eq_true', List.any_eq_false]
      constructor
      · intro hrs x hx
        obtain ⟨b, hb⟩ := mapM_ok_of_mem h hx
        by_contra hno
        exact hrs b ((mapM_mem_ok h b).mpr ⟨x, hx, hb⟩) ((effect_ok_iff hb).mpr hno)
      · intro hall b hb hbt
        obtain ⟨x, hx, hxb⟩ := (mapM_mem_ok h b).mp hb
        exact (effect_ok_iff hxb).mp hbt (hall x hx)
    · obtain ⟨e, he⟩ := (effect_raises_iff x).mp (by simpa using List.find?_some hx)
      obtain ⟨b, hb⟩ := mapM_ok_of_mem h (List.mem_of_find?_eq_some hx)
      rw [he] at hb
      cases hb
  | error e =>
    obtain ⟨x, hx, he⟩ := (mapM_eq_error effect_raises_iff).mp h
    have hrun := updateDatabase_error ht url timeout (updateItems_error ha.toWellFormed hg h)
    have hmem := List.mem_of_find?_eq_some hx
    rw [hrun]
    -- the run ends with the exception of `x`
    by_cases htimeout : e = .readTimeout
    · subst htimeout
      refine iff_of_false (fun ⟨b, hb, _⟩ => by cases hb) fun hno => hno x hx ?_
      exact (effect_error_cases he).resolve_right fun ⟨_, h⟩ => nomatch h
    · have hcaught : caught e = .ok false := by
        rcases effect_error_cases he with h | ⟨status, rfl⟩
        · rw [(exchanged_error ha items hmem h).resolve_right htimeout]
          rfl
        · rfl
      refine iff_of_true ⟨false, hcaught, iff_of_false Bool.false_ne_true fun hall =>
        not_accepted_of_error he (hall x hmem)⟩ fun y hy htime => htimeout ?_
      rw [hx] at hy
      cases hy
      obtain ⟨q, o⟩ := x
      simp only at htime
      subst htime
      cases he
      rfl

/-- A run that could not read the stored providers. -/
theorem returns_of_not_lists
    (hg : ∀ r, answerTo registry (client url token timeout) 0 .get = .ok r → r.status ≠ 200) :
    (updateDatabase registry url items token timeout {}).1 = .ok false ↔
      answerTo registry (client url token timeout) 0 .get ≠ .error .readTimeout ∧
        ∀ r, answerTo registry (client url token timeout) 0 .get = .ok r →
          400 ≤ r.status ∧ r.status < 600 := by
  rw [updateDatabase_error ht url timeout (updateItems_readFailure hg)]
  cases h : answerTo registry (client url token timeout) 0 .get with
  | error e =>
    rcases ha.fails _ _ e h with rfl | rfl
    · simp [readFailure, caught]
    · simp [readFailure, caught]
  | ok r =>
    by_cases hstatus : 400 ≤ r.status ∧ r.status < 600
    · simp [readFailure, caught, hstatus]
    · simp [readFailure, caught, hstatus]

end

/-- With a token, `update_database` returns a boolean, which is `True` if and
only if the stored providers were listed and every write that was due was
answered as it should, exactly when the request that reads does not end with
`ReadTimeout`, nor with a status that is neither 200 nor an error, and the
first write that ends the run, if there is one, does not end with
`ReadTimeout`. -/
theorem updateDatabase_returns {registry : Registry} (ha : Answers registry) {token : String}
    (ht : token ≠ "") (url : String) (items : List ProviderCreateExtended) (timeout : Int) :
    (∃ b, (updateDatabase registry url items token timeout {}).1 = .ok b ∧ (b = true ↔
      ∃ stored, Lists (answerTo registry (client url token timeout) 0 .get) stored ∧
        ∀ x ∈ exchanged registry (client url token timeout) stored items, Accepted x)) ↔
    answerTo registry (client url token timeout) 0 .get ≠ .error .readTimeout ∧
      (∀ r, answerTo registry (client url token timeout) 0 .get = .ok r →
        r.status = 200 ∨ 400 ≤ r.status ∧ r.status < 600) ∧
      ∀ stored, Lists (answerTo registry (client url token timeout) 0 .get) stored →
        ∀ x, (exchanged registry (client url token timeout) stored items).find? (ends ·.2) = some x →
          x.2 ≠ .error .readTimeout := by
  by_cases hg : ∀ r, answerTo registry (client url token timeout) 0 .get = .ok r → r.status ≠ 200
  · have hno : ∀ stored, ¬ Lists (answerTo registry (client url token timeout) 0 .get) stored :=
      fun stored ⟨r, hr, h200, _⟩ => hg r hr h200
    have hreturns := returns_of_not_lists ha ht url items timeout hg
    constructor
    · rintro ⟨b, hb, hiff⟩
      cases b with
      | true =>
        obtain ⟨stored, hlists, -⟩ := hiff.mp rfl
        exact absurd hlists (hno stored)
      | false =>
        obtain ⟨htime, hstatus⟩ := hreturns.mp hb
        exact ⟨htime, fun r hr => .inr (hstatus r hr), fun stored hs => absurd hs (hno stored)⟩
    · rintro ⟨htime, hstatus, -⟩
      refine ⟨false, hreturns.mpr ⟨htime, fun r hr => (hstatus r hr).resolve_left (hg r hr)⟩, ?_⟩
      exact iff_of_false Bool.false_ne_true fun ⟨stored, hs, _⟩ => hno stored hs
  · push Not at hg
    obtain ⟨r, hr, h200⟩ := hg
    obtain ⟨stored, hstored⟩ := ha.providers _ _ r hr rfl h200
    have hlists : Lists (answerTo registry (client url token timeout) 0 .get) stored :=
      ⟨r, hr, h200, hstored⟩
    have hall : (∃ stored', Lists (answerTo registry (client url token timeout) 0 .get) stored' ∧
        ∀ x ∈ exchanged registry (client url token timeout) stored' items, Accepted x) ↔
        ∀ x ∈ exchanged registry (client url token timeout) stored items, Accepted x :=
      ⟨fun ⟨stored', hs, h⟩ => lists_unique hlists hs ▸ h, fun h => ⟨stored, hlists, h⟩⟩
    rw [hall, returns_of_lists ha ht url items timeout hlists]
    constructor
    · intro h
      refine ⟨fun htime => ?_, fun r' hr' => ?_, fun stored' hs => lists_unique hlists hs ▸ h⟩
      · rw [hr] at htime
        cases htime
      · rw [hr] at hr'
        cases hr'
        exact .inl h200
    · rintro ⟨-, -, h⟩
      exact h stored hlists

/-- A registry that lists nothing and takes too long to answer anything else. -/
def slowRegistry : Registry := fun _ m =>
  match m.method with
  | .get => .ok { status := 200, providers := .ok [] }
  | .post | .put | .delete => .error .readTimeout

theorem answers_slowRegistry : Answers slowRegistry where
  providers n m r h hm _ := by
    rw [slowRegistry, hm] at h
    cases h
    exact ⟨[], rfl⟩
  created n m r h hm _ := by
    rw [slowRegistry, hm] at h
    cases h
  updated n m r h hm _ := by
    rw [slowRegistry, hm] at h
    cases h
  json n m r h hm _ := by
    rcases hm with hm | hm <;> rw [slowRegistry, hm] at h <;> cases h
  fails n m e h := by
    cases hm : m.method <;> rw [slowRegistry, hm] at h <;> cases h <;> exact .inr rfl

/-- A registry that lists one provider, leaves what it is told to update and
refuses what it is told to create. -/
def refusingRegistry : Registry := fun _ m =>
  match m.method with
  | .get => .ok { status := 200, providers := .ok [{ uid := "a", name := "recas", type := .openstack }] }
  | .put => .ok { status := 304 }
  | .post | .delete => .ok { status := 422 }

theorem answers_refusingRegistry : Answers refusingRegistry where
  providers n m r h hm _ := by
    rw [refusingRegistry, hm] at h
    cases h
    exact ⟨_, rfl⟩
  created n m r h hm hs := by
    rw [refusingRegistry, hm] at h
    cases h
    cases hs
  updated n m r h hm hs := by
    rw [refusingRegistry, hm] at h
    cases h
    cases hs
  json n m r h hm _ := by
    rcases hm with hm | hm <;> rw [refusingRegistry, hm] at h <;> cases h <;> rfl
  fails n m e h := by cases hm : m.method <;> rw [refusingRegistry, hm] at h <;> cases h

/-- A provider with nothing in it. -/
private def named (name : String) : ProviderCreateExtended :=
  { name, type := .openstack, status := .active, identityProviders := [], projects := [], regions := [] }

/-- Of three items one is updated and two are refused. -/
theorem updateDatabase_returns_sample :
    ∃ b, (updateDatabase refusingRegistry "http://localhost"
        [named "cnaf", named "recas", named "infn"] "token" 30 {}).1 = .ok b ∧
      (b = true ↔ ∃ stored,
        Lists (answerTo refusingRegistry (client "http://localhost" "token" 30) 0 .get) stored ∧
          ∀ x ∈ exchanged refusingRegistry (client "http://localhost" "token" 30) stored
            [named "cnaf", named "recas", named "infn"], Accepted x) := by
  have ht : "token" ≠ "" := by decide
  refine (updateDatabase_returns answers_refusingRegistry ht "http://localhost"
    [named "cnaf", named "recas", named "infn"] 30).mpr ⟨?_, fun r hr => ?_, fun stored _ x hx => ?_⟩
  · exact fun h => nomatch h
  · cases hr
    exact .inl rfl
  · -- no request of this registry ends without an answer
    obtain ⟨-, k, hk⟩ := mem_exchanges (List.mem_of_find?_eq_some hx)
    intro htime
    rw [hk] at htime
    cases hm : ((client "http://localhost" "token" 30).message x.1).method <;>
      rw [answerTo, refusingRegistry, hm] at htime <;> cases htime

/-- The timeout of a creation escapes. -/
theorem timeout_escapes : Answers slowRegistry ∧
    ¬ ∃ b, (updateDatabase slowRegistry "http://localhost"
      [{ name := "recas", type := .openstack, status := .active, identityProviders := []
         projects := [], regions := [] }] "token" 30 {}).1 = .ok b :=
  ⟨answers_slowRegistry, fun ⟨_, h⟩ => by cases h⟩

end FRF.Proof
