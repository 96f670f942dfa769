import Mathlib.Data.List.Dedup
import FedRegFeeder.Framework.Except

/-!
# What the program uses of Python

The exceptions the program raises, catches or lets through (`PyError`), and
the built-in functions its code calls: `list.remove`, `l[0]`, the union of two
sets turned into a list, `int` of a string, `os.path.dirname` and `os.path.join`.

An exception of a subclass is represented by the class the program's `except`
clauses name: pydantic's `ValidationError` and `JSONDecodeError` are
`ValueError`s.
-/

namespace FRF.Py

/-- The exceptions of the OpenStack SDK and of keystoneauth that the program
tells apart. -/
inductive SdkError where
  | connectFailure | connectTimeout | unauthorized | noMatchingPlugin | notFound
  | forbiddenException | sslError | gatewayTimeout | httpException
  | endpointNotFound
  | other (name : String)
deriving DecidableEq, Repr

/-- The body of a Kubernetes API error: a JSON object with or without a message,
other JSON, other text, or none. -/
inductive ApiBody where
  | message (text : String)
  | noMessage
  | notObject
  | notJson
  | absent
deriving DecidableEq, Repr

inductive PyError where
  | valueError (msg : String)
  | assertionError (msg : String)
  | notImplementedError (msg : String)
  | openstackProviderError
  | kubernetesProviderError
  | sdk (e : SdkError)
  | maxRetryError
  | apiException (status : Nat) (body : ApiBody)
  | indexError
  | keyError
  | typeError
  | attributeError
  | fileNotFoundError
  | oidcAgentConnectError
  | oidcAgentError
  | noBrokersAvailable
  | connectionError
  | readTimeout
  | httpError (status : Nat)
  | other (name : String)
deriving DecidableEq, Repr

/-- `l[0]`. -/
def index0 {α : Type} : List α → Except PyError α
  | [] => .error .indexError
  | a :: _ => .ok a

/-- `l.remove(x)`. -/
def remove {α : Type} [DecidableEq α] (l : List α) (x : α) : Except PyError (List α) :=
  if x ∈ l then .ok (l.erase x) else .error (.valueError "list.remove(x): x not in list")

/-- `list(set(a).union(b))`: each element once. Python leaves the order open;
nothing below depends on it. -/
def setUnion {α : Type} [DecidableEq α] (a b : List α) : List α := (a ++ b).dedup

@[simp] theorem mem_setUnion {α : Type} [DecidableEq α] {a b : List α} {x : α} :
    x ∈ setUnion a b ↔ x ∈ a ∨ x ∈ b := by
  rw [setUnion, List.mem_dedup, List.mem_append]

theorem index0_eq_ok {α : Type} {l : List α} {a : α} : index0 l = .ok a ↔ l.head? = some a := by
  cases l <;> simp [index0]

/-! ## Strings -/

/-- The ASCII characters `str.strip` removes. -/
def isSpace (c : Char) : Bool :=
  c = ' ' || (9 ≤ c.toNat && c.toNat ≤ 13) || (28 ≤ c.toNat && c.toNat ≤ 31)

/-- `s.strip()`. -/
def strip (s : List Char) : List Char :=
  ((s.dropWhile isSpace).reverse.dropWhile isSpace).reverse

/-- `s.strip(c)` of one character. -/
def stripChar (c : Char) (s : String) : String :=
  String.ofList ((s.toList.dropWhile (· = c)).reverse.dropWhile (· = c)).reverse

/-- The value of decimal digits, with single underscores between them, after
the value `acc`; `afterDigit` tells whether the last character was a digit. -/
def digits (acc : Nat) (afterDigit : Bool) : List Char → Option Nat
  | [] => if afterDigit then some acc else none
  | c :: cs =>
    if c = '_' then (if afterDigit then digits acc false cs else none)
    else if c.isDigit then digits (10 * acc + (c.toNat - '0'.toNat)) true cs
    else none

/-- `int(s)` of a string of ASCII characters, without the limit CPython puts on
the number of digits. -/
def int (s : String) : Except PyError Int :=
  let r : Option Int := match strip s.toList with
    | '-' :: cs => (digits 0 false cs).map fun n => -(n : Int)
    | '+' :: cs => (digits 0 false cs).map fun n => (n : Int)
    | cs => (digits 0 false cs).map fun n => (n : Int)
  match r with
  | some n => .ok n
  | none => .error (.valueError s!"invalid literal for int() with base 10: {s}")

example : int " -1_000 " = .ok (-1000) := by decide

/-- `os.path.dirname(p)`. -/
def dirname (p : String) : String :=
  let head := p.toList.reverse.dropWhile (· ≠ '/')
  if head.all (· = '/') then String.ofList head.reverse
  else String.ofList (head.dropWhile (· = '/')).reverse

example : dirname "https://cinder.test.it/v3/a8b3" = "https://cinder.test.it/v3" := by decide

/-- `os.path.join(a, b)`. -/
def pathJoin (a b : String) : String :=
  if b.toList.head? = some '/' then b
  else if a = "" ∨ a.toList.getLast? = some '/' then a ++ b
  else a ++ "/" ++ b

example : pathJoin "http://localhost:8000/api" "v1" = "http://localhost:8000/api/v1" := by decide

end FRF.Py
