import Mathlib.Algebra.Order.Field.Rat

/-!
# Quantities of Kubernetes

A quantity is a number, with or without a decimal point, and a suffix: none, a
decimal one (`n` to `E`), a binary one (`Ki` to `Ei`) or an exponent. `Quantity`
has its text (`Quantity.render`), the amount it denotes (`Quantity.amount`) and
its form: what kind of number and suffix it is written with.
-/

namespace FRF.Spec

inductive DecimalSuffix where
  | n | u | m | k | M | G | T | P | E
deriving DecidableEq, Repr

def DecimalSuffix.char : DecimalSuffix → Char
  | n => 'n' | u => 'u' | m => 'm' | k => 'k' | M => 'M'
  | G => 'G' | T => 'T' | P => 'P' | E => 'E'

/-- The power of ten. -/
def DecimalSuffix.power : DecimalSuffix → Int
  | n => -9 | u => -6 | m => -3 | k => 3 | M => 6 | G => 9 | T => 12 | P => 15 | E => 18

inductive BinarySuffix where
  | Ki | Mi | Gi | Ti | Pi | Ei
deriving DecidableEq, Repr

def BinarySuffix.char : BinarySuffix → Char
  | Ki => 'K' | Mi => 'M' | Gi => 'G' | Ti => 'T' | Pi => 'P' | Ei => 'E'

/-- The power of 1024. -/
def BinarySuffix.power : BinarySuffix → Nat
  | Ki => 1 | Mi => 2 | Gi => 3 | Ti => 4 | Pi => 5 | Ei => 6

inductive Sign where
  | none | plus | minus
deriving DecidableEq, Repr

def Sign.chars : Sign → List Char
  | none => []
  | plus => ['+']
  | minus => ['-']

/-- The number with the sign before it. -/
def Sign.apply : Sign → Nat → Int
  | none, a => a
  | plus, a => a
  | minus, a => -a

def digitChar (d : Fin 10) : Char := Char.ofNat ('0'.toNat + d.val)

/-- The value of decimal digits, read from the left. -/
def digitsValue (ds : List (Fin 10)) : Nat := ds.foldl (fun acc d => 10 * acc + d.val) 0

inductive Suffix where
  | none
  | decimal (s : DecimalSuffix)
  | binary (s : BinarySuffix)
  | exponent (upper : Bool) (sign : Sign) (digits : List (Fin 10)) (nonempty : digits ≠ [])
deriving DecidableEq

def Suffix.chars : Suffix → List Char
  | none => []
  | decimal s => [s.char]
  | binary s => [s.char, 'i']
  | exponent upper sign digits _ =>
    (if upper then 'E' else 'e') :: (sign.chars ++ digits.map digitChar)

def Suffix.factor : Suffix → ℚ
  | none => 1
  | decimal s => 10 ^ s.power
  | binary s => 1024 ^ s.power
  | exponent _ sign digits _ => 10 ^ sign.apply (digitsValue digits)

/-- A number with a suffix; `fraction` are the digits after a decimal point,
if there is one. -/
structure Quantity where
  sign : Sign
  whole : List (Fin 10)
  fraction : Option (List (Fin 10))
  nonempty : whole ++ fraction.getD [] ≠ []
  suffix : Suffix
deriving DecidableEq

namespace Quantity

def render (q : Quantity) : String :=
  String.ofList (q.sign.chars ++ q.whole.map digitChar ++
    q.fraction.elim [] (fun ds => '.' :: ds.map digitChar) ++ q.suffix.chars)

def amount (q : Quantity) : ℚ :=
  q.sign.apply (digitsValue (q.whole ++ q.fraction.getD [])) / 10 ^ (q.fraction.getD []).length *
    q.suffix.factor

end Quantity

inductive SuffixKind where
  | none
  | decimal (s : DecimalSuffix)
  | binary (s : BinarySuffix)
  | exponent
deriving DecidableEq, Repr

def Suffix.kind : Suffix → SuffixKind
  | none => .none
  | decimal s => .decimal s
  | binary s => .binary s
  | exponent .. => .exponent

/-- How a quantity is written: with or without a decimal point, and with which
kind of suffix. -/
structure Form where
  point : Bool
  suffix : SuffixKind
deriving DecidableEq, Repr

def Quantity.form (q : Quantity) : Form := ⟨q.fraction.isSome, q.suffix.kind⟩

/-- An integer with no suffix or a binary one. -/
def Form.Plain (f : Form) : Prop :=
  f.point = false ∧ (f.suffix = .none ∨ ∃ s, f.suffix = .binary s)

end FRF.Spec
