import Mathlib.Data.Set.Subsingleton
import Mathlib.Tactic.Linarith
import FedRegFeeder.Proof.Providers.K8s
import FedRegFeeder.Spec.Quantity

/-!
# The amounts of a quota

`split_quotas` records the integer a quantity is written with, and leaves out
two characters where it is not an integer. So what it records keeps the order
and the unit of the amounts only among integers written with one binary suffix,
or among integers without suffix (`splitQuotas_magnitude`).
-/

namespace FRF.Spec

open FRF.Impl FRF.Impl.KubernetesData

/-- `split_quotas` records the value as `n`, whatever was recorded before. -/
def RecordedAs (key value : String) (n : Int) : Prop :=
  ∀ data, ∃ r, splitQuotas key value data = .ok r ∧
    ∃ c : Category, fieldOf key ∈ c.fields ∧ (c.dict r).get? (fieldOf key) = some n

/-- The quantities are recorded under the key in their order and in one unit. -/
structure KeepsMagnitude (key : String) (quantities : Set Quantity) : Prop where
  succeeds : ∀ q ∈ quantities, ∃ n, RecordedAs key q.render n
  equal : ∀ q₁ ∈ quantities, ∀ q₂ ∈ quantities, ∀ n₁ n₂, RecordedAs key q₁.render n₁ →
    RecordedAs key q₂.render n₂ → q₁.amount = q₂.amount → n₁ = n₂
  mono : ∀ q₁ ∈ quantities, ∀ q₂ ∈ quantities, ∀ n₁ n₂, RecordedAs key q₁.render n₁ →
    RecordedAs key q₂.render n₂ → q₁.amount < q₂.amount → n₁ ≤ n₂
  unit : ∃ U : ℚ, 0 < U ∧ ∀ q ∈ quantities, ∀ n, RecordedAs key q.render n →
    |n * U - q.amount| < U

end FRF.Spec

namespace FRF.Proof

open FRF.Impl FRF.Impl.KubernetesData FRF.Spec
open Py (PyError)
open Framework

/-! ## Reading numerals -/

theorem digits_digitChar (ds : List (Fin 10)) (acc : Nat) (b : Bool) (rest : List Char) :
    Py.digits acc b (ds.map digitChar ++ rest) =
      Py.digits (ds.foldl (fun acc d => 10 * acc + d.val) acc) (b || !ds.isEmpty) rest := by
  induction ds generalizing acc b with
  | nil => rw [List.map_nil, List.nil_append, List.foldl_nil, List.isEmpty_nil, Bool.not_true,
      Bool.or_false]
  | cons d ds ih =>
    have hchar : ∀ d : Fin 10, digitChar d ≠ '_' ∧ (digitChar d).isDigit = true ∧
        (digitChar d).toNat - '0'.toNat = d.val := by decide
    obtain ⟨hunder, hdigit, hval⟩ := hchar d
    rw [List.map_cons, List.cons_append, Py.digits, if_neg hunder, if_pos hdigit, hval, ih]
    simp

/-- No character is stripped from a text without spaces. -/
theorem strip_eq_self {l : List Char} (h : ∀ c ∈ l, Py.isSpace c = false) : Py.strip l = l := by
  have hdrop : ∀ {l : List Char}, (∀ c ∈ l, Py.isSpace c = false) → l.dropWhile Py.isSpace = l := by
    intro l h
    cases l with
    | nil => rfl
    | cons c l => rw [List.dropWhile_cons_of_neg (by simp [h c])]
  rw [Py.strip, hdrop h, hdrop fun c hc => h c (List.mem_reverse.mp hc), List.reverse_reverse]

/-- The characters of an integer. -/
def integerChars (sign : Sign) (ds : List (Fin 10)) : List Char := sign.chars ++ ds.map digitChar

theorem isSpace_integerChars {sign : Sign} {ds : List (Fin 10)} :
    ∀ c ∈ integerChars sign ds, Py.isSpace c = false := by
  intro c hc
  rcases List.mem_append.mp hc with hc | hc
  · cases sign with
    | none => cases hc
    | plus => cases List.mem_singleton.mp hc; decide
    | minus => cases List.mem_singleton.mp hc; decide
  · obtain ⟨d, -, rfl⟩ := List.mem_map.mp hc
    have hspace : ∀ d : Fin 10, Py.isSpace (digitChar d) = false := by decide
    exact hspace d

/-- What `int` raises for a text that is no number. -/
def notInt (s : String) : Except PyError Int :=
  .error (.valueError s!"invalid literal for int() with base 10: {s}")

/-- What `int` reads after a sign. -/
theorem int_sign {s : String} {sign : Sign} {d : Fin 10} {cs : List Char}
    (h : Py.strip s.toList = sign.chars ++ digitChar d :: cs) :
    Py.int s = ((Py.digits 0 false (digitChar d :: cs)).map sign.apply).elim (notInt s) .ok := by
  rw [Py.int, h]
  cases sign with
  | none =>
    have hchar : ∀ d : Fin 10, digitChar d ≠ '-' ∧ digitChar d ≠ '+' := by decide
    obtain ⟨hminus, hplus⟩ := hchar d
    simp only [Sign.chars, List.nil_append]
    generalize digitChar d = c at hminus hplus
    have hother : ∀ {o : Option Nat} {r : Option Int},
        (Option.map (fun n => n) do let a ← o; pure (a : Int)) = r → r = o.map Sign.none.apply := by
      intro o r h
      cases o <;> exact h.symm
    split <;> rename_i heq <;> split at heq
    · rename_i hcons; exact absurd (List.cons.inj hcons).1 hminus
    · rename_i hcons; exact absurd (List.cons.inj hcons).1 hplus
    · rw [← hother heq]; rfl
    · rename_i hcons; exact absurd (List.cons.inj hcons).1 hminus
    · rename_i hcons; exact absurd (List.cons.inj hcons).1 hplus
    · rw [← hother heq]; rfl
  | plus =>
    simp only [Sign.chars, List.singleton_append]
    cases Py.digits 0 false (digitChar d :: cs) <;> rfl
  | minus =>
    simp only [Sign.chars, List.singleton_append]
    cases Py.digits 0 false (digitChar d :: cs) <;> rfl

/-- Reading an integer with other text after it. -/
theorem int_integerChars {sign : Sign} {ds : List (Fin 10)} {rest : List Char} (hne : ds ≠ [])
    (hrest : ∀ c ∈ rest, Py.isSpace c = false) :
    Py.int (String.ofList (integerChars sign ds ++ rest)) =
      ((Py.digits (digitsValue ds) true rest).map sign.apply).elim
        (notInt (String.ofList (integerChars sign ds ++ rest))) .ok := by
  have hspace : ∀ c ∈ integerChars sign ds ++ rest, Py.isSpace c = false := fun c hc =>
    (List.mem_append.mp hc).elim (isSpace_integerChars c) (hrest c)
  cases ds with
  | nil => exact absurd rfl hne
  | cons d ds =>
    have hstrip : Py.strip (String.ofList (integerChars sign (d :: ds) ++ rest)).toList =
        sign.chars ++ digitChar d :: (ds.map digitChar ++ rest) := by
      rw [String.toList_ofList, strip_eq_self hspace, integerChars, List.append_assoc, List.map_cons,
        List.cons_append]
    rw [int_sign hstrip, ← List.cons_append, ← List.map_cons, digits_digitChar]
    rfl

theorem int_integer {sign : Sign} {ds : List (Fin 10)} (hne : ds ≠ []) :
    Py.int (String.ofList (integerChars sign ds)) = .ok (sign.apply (digitsValue ds)) := by
  have hint : Py.int (String.ofList (integerChars sign ds ++ [])) = _ :=
    int_integerChars hne fun _ h => nomatch h
  rw [List.append_nil] at hint
  exact hint

/-! ## Integers without suffix and with a binary one -/

/-- The integer a quantity is written with. -/
def Quantity.integer (q : Quantity) : Int := q.sign.apply (digitsValue q.whole)

/-- The unit of integers written in a form. -/
def Form.unit (f : Form) : ℚ :=
  match f.suffix with
  | .binary s => 1024 ^ s.power
  | _ => 1

theorem Form.unit_pos (f : Form) : 0 < Form.unit f := by
  unfold Form.unit
  split
  · exact pow_pos (by norm_num) _
  · exact one_pos

theorem valueOf_binary {sign : Sign} {ds : List (Fin 10)} (hne : ds ≠ []) (s : BinarySuffix) :
    valueOf (String.ofList (integerChars sign ds ++ [s.char, 'i'])) =
      .ok (sign.apply (digitsValue ds)) := by
  have hspace : ∀ c ∈ [s.char, 'i'], Py.isSpace c = false := by
    intro c hc
    rcases List.mem_pair.mp hc with rfl | rfl
    · cases s <;> rfl
    · rfl
  have hno : Py.digits (digitsValue ds) true [s.char, 'i'] = none := by cases s <;> rfl
  rw [valueOf, int_integerChars hne hspace, hno]
  show Py.int (String.ofList (String.ofList _).toList.dropLast.dropLast) = _
  rw [String.toList_ofList, List.dropLast_append_of_ne_nil (by simp)]
  show Py.int (String.ofList (integerChars sign ds ++ [s.char]).dropLast) = _
  rw [List.dropLast_concat, int_integer hne]

/-- An integer without suffix, or with a binary one, is recorded without it. -/
theorem valueOf_plain {q : Quantity} (hq : q.form.Plain) :
    valueOf q.render = .ok (Quantity.integer q) ∧
      q.amount = Quantity.integer q * Form.unit q.form := by
  obtain ⟨sign, whole, fraction, nonempty, suffix⟩ := q
  obtain ⟨hpoint, hsuffix⟩ := hq
  cases fraction with
  | some ds => cases hpoint
  | none =>
    have hne : whole ≠ [] := by simpa using nonempty
    have hrender : (⟨sign, whole, none, nonempty, suffix⟩ : Quantity).render =
        String.ofList (integerChars sign whole ++ suffix.chars) := by
      rw [Quantity.render, integerChars, Option.elim_none, List.append_nil]
    have hamount : (⟨sign, whole, none, nonempty, suffix⟩ : Quantity).amount =
        sign.apply (digitsValue whole) * suffix.factor := by
      simp [Quantity.amount]
    rw [hrender, hamount]
    cases suffix with
    | none =>
      refine ⟨?_, rfl⟩
      rw [Suffix.chars, List.append_nil, valueOf, int_integer hne]
      rfl
    | binary s => exact ⟨valueOf_binary hne s, rfl⟩
    | decimal s => rcases hsuffix with h | ⟨_, h⟩ <;> cases h
    | exponent upper expSign digits hdigits => rcases hsuffix with h | ⟨_, h⟩ <;> cases h

/-! ## What is recorded -/

theorem recordedAs_iff {key value : String} {n : Int} (hk : ∃ c : Category, fieldOf key ∈ c.fields) :
    RecordedAs key value n ↔ valueOf value = .ok n := by
  constructor
  · intro h
    obtain ⟨r, hr, c, hc, hn⟩ := h {}
    rw [splitQuotas_get? (e := (key, value)) hc hr, if_pos (decide_eq_true rfl)] at hn
    cases hv : valueOf value with
    | error e => rw [hv] at hn; cases hn
    | ok m => rw [hv] at hn; cases hn; rfl
  · intro h data
    obtain ⟨c, hc⟩ := hk
    obtain ⟨r, hr⟩ := splitQuotas_total key h data
    refine ⟨r, hr, c, hc, ?_⟩
    rw [splitQuotas_get? (e := (key, value)) hc hr, if_pos (decide_eq_true rfl), h]
    rfl

/-- Quantities of one plain form are recorded in their unit. -/
theorem keepsMagnitude_of_plain {key : String} (hk : ∃ c : Category, fieldOf key ∈ c.fields)
    {quantities : Set Quantity} {f : Form} (hf : f.Plain) (h : ∀ q ∈ quantities, q.form = f) :
    KeepsMagnitude key quantities := by
  have hvalue : ∀ q ∈ quantities, ∀ n, RecordedAs key q.render n ↔ n = Quantity.integer q := by
    intro q hq n
    rw [recordedAs_iff hk, (valueOf_plain (h q hq ▸ hf)).1, Except.ok.injEq, eq_comm]
  have hamount : ∀ q ∈ quantities, q.amount = Quantity.integer q * Form.unit f := by
    intro q hq
    rw [(valueOf_plain (h q hq ▸ hf)).2, h q hq]
  have hpos := Form.unit_pos f
  refine ⟨fun q hq => ⟨_, (hvalue q hq _).mpr rfl⟩, ?_, ?_, Form.unit f, hpos, ?_⟩
  · intro q₁ h₁ q₂ h₂ n₁ n₂ hr₁ hr₂ heq
    rw [(hvalue q₁ h₁ n₁).mp hr₁, (hvalue q₂ h₂ n₂).mp hr₂]
    rw [hamount q₁ h₁, hamount q₂ h₂] at heq
    exact_mod_cast mul_right_cancel₀ hpos.ne' heq
  · intro q₁ h₁ q₂ h₂ n₁ n₂ hr₁ hr₂ hlt
    rw [(hvalue q₁ h₁ n₁).mp hr₁, (hvalue q₂ h₂ n₂).mp hr₂]
    rw [hamount q₁ h₁, hamount q₂ h₂] at hlt
    exact_mod_cast (lt_of_mul_lt_mul_right hlt hpos.le).le
  · intro q hq n hr
    rw [(hvalue q hq n).mp hr, hamount q hq, sub_self, abs_zero]
    exact hpos

/-- A suffix of a kind. -/
def SuffixKind.suffix : SuffixKind → Suffix
  | .none => .none
  | .decimal s => .decimal s
  | .binary s => .binary s
  | .exponent => .exponent false .none [1, 0] (by decide)

/-- In every other form there are quantities that `split_quotas` cannot read. -/
theorem exists_unreadable {f : Form} (hf : ¬ f.Plain) :
    ∃ q : Quantity, q.form = f ∧ ∀ n, valueOf q.render ≠ .ok n := by
  have hunread : ∀ {v : String}, (valueOf v).toOption = none → ∀ n, valueOf v ≠ .ok n :=
    fun h n hn => by rw [hn] at h; cases h
  obtain ⟨point, kind⟩ := f
  cases point with
  | true =>
    -- 1.50 with any suffix
    refine ⟨⟨.none, [1], some [5, 0], by decide, SuffixKind.suffix kind⟩, ?_, hunread ?_⟩
    · cases kind <;> rfl
    · cases kind with
      | none => rfl
      | decimal s => cases s <;> rfl
      | binary s => cases s <;> rfl
      | exponent => rfl
  | false =>
    -- 1 with a decimal suffix, or with an exponent of two digits
    refine ⟨⟨.none, [1], none, by decide, SuffixKind.suffix kind⟩, ?_, hunread ?_⟩
    · cases kind <;> rfl
    · cases kind with
      | none => exact absurd ⟨rfl, .inl rfl⟩ hf
      | decimal s => cases s <;> rfl
      | binary s => exact absurd ⟨rfl, .inr ⟨s, rfl⟩⟩ hf
      | exponent => rfl

/-- The unit of a plain form as a power of 1024. -/
def Form.power (f : Form) : Nat :=
  match f.suffix with
  | .binary s => s.power
  | _ => 0

theorem Form.unit_eq (f : Form) : Form.unit f = 1024 ^ Form.power f := by
  unfold Form.unit Form.power
  split <;> simp

theorem Form.power_inj {f g : Form} (hf : f.Plain) (hg : g.Plain)
    (h : Form.power f = Form.power g) : f = g := by
  obtain ⟨fp, fs⟩ := f
  obtain ⟨gp, gs⟩ := g
  obtain ⟨rfl, hfs⟩ := hf
  obtain ⟨rfl, hgs⟩ := hg
  rcases hfs with rfl | ⟨s, rfl⟩ <;> rcases hgs with rfl | ⟨t, rfl⟩
  · rfl
  · cases t <;> cases h
  · cases s <;> cases h
  · cases s <;> cases t <;> first | rfl | cases h

/-- A digit in a form. -/
def single (d : Fin 10) (f : Form) : Quantity :=
  ⟨.none, [d], none, List.cons_ne_nil _ _, SuffixKind.suffix f.suffix⟩

theorem single_form {d : Fin 10} {f : Form} (hf : f.Plain) : (single d f).form = f := by
  obtain ⟨point, kind⟩ := f
  obtain ⟨rfl, -⟩ := hf
  cases kind <;> rfl

/-- Two units of a smaller form are less than one of a larger form, but are
recorded as more. -/
theorem not_keepsMagnitude {key : String} (hk : ∃ c : Category, fieldOf key ∈ c.fields)
    {F : Set Form} {f g : Form} (hf : f ∈ F) (hg : g ∈ F) (hfp : f.Plain) (hgp : g.Plain)
    (hlt : Form.power f < Form.power g) : ¬ KeepsMagnitude key {q | q.form ∈ F} := by
  intro h
  have hvalue : ∀ {d : Fin 10} {f : Form}, f.Plain → valueOf (single d f).render = .ok d ∧
      (single d f).amount = d * 1024 ^ Form.power f := by
    intro d f hp
    have hplain : (single d f).form.Plain := by rw [single_form hp]; exact hp
    obtain ⟨hv, ha⟩ := valueOf_plain hplain
    rw [single_form hp, Form.unit_eq] at ha
    have hint : Quantity.integer (single d f) = d := by
      show ((10 * 0 + d.val : Nat) : Int) = _
      simp
    rw [hint] at hv ha
    exact ⟨hv, by simpa using ha⟩
  obtain ⟨hv₂, ha₂⟩ := hvalue (d := 2) hfp
  obtain ⟨hv₁, ha₁⟩ := hvalue (d := 1) hgp
  have hamount : (single 2 f).amount < (single 1 g).amount := by
    rw [ha₁, ha₂]
    have hpos : (0 : ℚ) < 1024 ^ Form.power f := pow_pos (by norm_num) _
    calc (((2 : Fin 10) : ℕ) : ℚ) * 1024 ^ Form.power f
        < 1024 ^ (Form.power f + 1) := by
          rw [pow_succ]
          norm_num
          linarith
      _ ≤ 1024 ^ Form.power g := pow_le_pow_right₀ (by norm_num) hlt
      _ = (((1 : Fin 10) : ℕ) : ℚ) * 1024 ^ Form.power g := by norm_num
  have hmem : ∀ {d : Fin 10} {f : Form}, f ∈ F → f.Plain → single d f ∈ {q | q.form ∈ F} :=
    fun {d f} hf hp => show (single d f).form ∈ _ by rw [single_form hp]; exact hf
  have hle := h.mono _ (hmem hf hfp) _ (hmem hg hgp) _ _ ((recordedAs_iff hk).mpr hv₂)
    ((recordedAs_iff hk).mpr hv₁) hamount
  exact absurd hle (by decide)

/-- Under a recorded key, the quantities of some forms are recorded in their
order and in one unit exactly when they are integers without suffix, or
integers with one binary suffix. -/
theorem splitQuotas_magnitude {key : String} (hk : ∃ c : Category, fieldOf key ∈ c.fields)
    (F : Set Form) :
    KeepsMagnitude key {q | q.form ∈ F} ↔ (∀ f ∈ F, f.Plain) ∧ F.Subsingleton := by
  constructor
  · intro h
    have hplain : ∀ f ∈ F, f.Plain := by
      intro f hf
      by_contra hno
      obtain ⟨q, rfl, hq⟩ := exists_unreadable hno
      obtain ⟨n, hn⟩ := h.succeeds q hf
      exact hq n ((recordedAs_iff hk).mp hn)
    refine ⟨hplain, fun f hf g hg => ?_⟩
    by_contra hne
    rcases Nat.lt_trichotomy (Form.power f) (Form.power g) with hlt | heq | hlt
    · exact not_keepsMagnitude hk hf hg (hplain f hf) (hplain g hg) hlt h
    · exact hne (Form.power_inj (hplain f hf) (hplain g hg) heq)
    · exact not_keepsMagnitude hk hg hf (hplain g hg) (hplain f hf) hlt h
  · rintro ⟨hplain, hsub⟩
    by_cases hempty : ∃ f, f ∈ F
    · obtain ⟨f, hf⟩ := hempty
      exact keepsMagnitude_of_plain hk (hplain f hf) fun q hq => hsub hq hf
    · exact ⟨fun q hq => absurd ⟨_, hq⟩ hempty, fun q hq => absurd ⟨_, hq⟩ hempty,
        fun q hq => absurd ⟨_, hq⟩ hempty, 1, one_pos, fun q hq => absurd ⟨_, hq⟩ hempty⟩

theorem fieldOf_requests_memory : fieldOf "requests.memory" = "requests_memory" := by
  rw [← String.toList_inj]
  simp only [fieldOf, String.toList_map]
  decide

theorem splitQuotas_magnitude_sample :
    KeepsMagnitude "requests.memory" {q | q.form ∈ ({⟨false, .binary .Mi⟩} : Set Form)} := by
  have hk : ∃ c : Category, fieldOf "requests.memory" ∈ c.fields :=
    ⟨.compute, by rw [fieldOf_requests_memory]; decide⟩
  refine (splitQuotas_magnitude hk _).mpr ⟨fun f hf => ?_, Set.subsingleton_singleton⟩
  cases hf
  exact ⟨rfl, .inr ⟨.Mi, rfl⟩⟩

/-- 512Mi is recorded as 512, and 1Gi, which is more, as 1. -/
theorem suffix_dropped : ∃ q₁ q₂ : Quantity, q₁.render = "512Mi" ∧ q₂.render = "1Gi" ∧
    q₁.amount < q₂.amount ∧ RecordedAs "requests.memory" q₁.render 512 ∧
    RecordedAs "requests.memory" q₂.render 1 := by
  have hk : ∃ c : Category, fieldOf "requests.memory" ∈ c.fields :=
    ⟨.compute, by rw [fieldOf_requests_memory]; decide⟩
  refine ⟨⟨.none, [5, 1, 2], none, by decide, .binary .Mi⟩, ⟨.none, [1], none, by decide, .binary .Gi⟩,
    by decide, by decide, ?_, (recordedAs_iff hk).mpr (valueOf_plain ⟨rfl, .inr ⟨.Mi, rfl⟩⟩).1,
    (recordedAs_iff hk).mpr (valueOf_plain ⟨rfl, .inr ⟨.Gi, rfl⟩⟩).1⟩
  have hfive : ((5 : Fin 10) : ℕ) = 5 := rfl
  norm_num [Quantity.amount, Sign.apply, digitsValue, Suffix.factor, BinarySuffix.power, hfive]

end FRF.Proof
