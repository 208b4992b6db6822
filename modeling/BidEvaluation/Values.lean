-- The values that move between the parts of the service: the JSON-like
-- Python values of a payload, and the exceptions that a call can raise.
-- `errors.py` has the one exception class of the application itself.
import BidEvaluation.Lib.Dict
import Mathlib.Algebra.Order.Ring.Rat
import Mathlib.Data.List.Infix

open dict_lib

namespace bid_evaluation.values

/-! ## Exceptions -/

structure ApiError where
  code : String
  message : String
  error_class : String
  retryable : Bool
  http_status : Nat
deriving DecidableEq

/-- What a Python call can raise: the application's own error, the
interrupt of LangGraph, or any other exception by its class name. -/
inductive PyErr where
  | api (e : ApiError)
  | graph_interrupt
  | raised (class_name : String) (text : String)
deriving DecidableEq

-- What holds of the letters of a text is decided letter by letter; the other
-- instance in reach goes through all characters.
instance (priority := high) decidable_letters (p : Char → Prop) [DecidablePred p]
    (letters : List Char) : Decidable (∀ c ∈ letters, p c) :=
  List.decidableBAll p letters

/-! ## Fresh identifiers -/

/-- The draws of `uuid.uuid4().hex[:12]`, first to last. No two are equal. -/
structure Uuid4 where
  hex12 : Nat → String
  distinct : Function.Injective hex12

/-- One explicit source of identifiers. -/
def Uuid4.unary : Uuid4 where
  hex12 n := String.ofList (List.replicate n 'a')
  distinct := by
    intro m n h
    have := congrArg (fun s => s.toList.length) h
    simpa using this

/-! ## JSON-like values -/

inductive PyVal where
  | none
  | bool (b : Bool)
  | int (n : Int)
  | float (x : Rat)
  | str (s : String)
  | list (items : List PyVal)
  | dict (entries : List (String × PyVal))

abbrev PyDict := List (String × PyVal)

/-- The base-ten digits of `int(text)`. Single underscores may stand
between digits. -/
def digits? : Nat → Bool → List Char → Option Nat
  | acc, after_digit, [] => if after_digit then some acc else none
  | acc, after_digit, c :: rest =>
    if c = '_' then
      if after_digit then digits? acc false rest else none
    else if c.isDigit then digits? (acc * 10 + (c.toNat - 48)) true rest
    else none

/-- The characters for which `str.isspace` holds. -/
def is_space (c : Char) : Bool :=
  let n := c.toNat
  (9 ≤ n && n ≤ 13) || (28 ≤ n && n ≤ 32) || n = 133 || n = 160 || n = 5760 ||
    (8192 ≤ n && n ≤ 8202) || n = 8232 || n = 8233 || n = 8239 || n = 8287 || n = 12288

def strip (s : String) : String :=
  String.ofList ((s.toList.dropWhile is_space).reverse.dropWhile is_space).reverse

def int_of_str (s : String) : Option Int :=
  match (s.toList.dropWhile Char.isWhitespace).reverse.dropWhile Char.isWhitespace |>.reverse with
  | '-' :: rest => (digits? 0 false rest).map (fun n => -(n : Int))
  | '+' :: rest => (digits? 0 false rest).map (fun n => (n : Int))
  | rest => (digits? 0 false rest).map (fun n => (n : Int))

namespace PyVal

/-- `bool(x)`. -/
def truthy : PyVal → Bool
  | .none => false
  | .bool b => b
  | .int n => n ≠ 0
  | .float x => x ≠ 0
  | .str s => s ≠ ""
  | .list items => items ≠ []
  | .dict entries => entries ≠ []

/-- `int(x)`. A float is cut toward zero. -/
def toInt : PyVal → Except PyErr Int
  | .int n => .ok n
  | .bool b => .ok (if b then 1 else 0)
  | .float x => .ok (x.num.tdiv x.den)
  | .str s =>
    match int_of_str s with
    | Option.some n => .ok n
    | Option.none => .error (.raised "ValueError" "invalid literal for int() with base 10")
  | .none => .error (.raised "TypeError" "int() argument must be a string or a real number")
  | .list _ => .error (.raised "TypeError" "int() argument must be a string or a real number")
  | .dict _ => .error (.raised "TypeError" "int() argument must be a string or a real number")

end PyVal

/-- `d.get(key, default)`. -/
def PyDict.getD (d : PyDict) (key : String) (default : PyVal) : PyVal :=
  (lookupEntry d key).getD default

/-- `d.get(key)`. -/
def PyDict.get (d : PyDict) (key : String) : PyVal := d.getD key .none

/-- `d[key] = value`. -/
def PyDict.set (d : PyDict) (key : String) (value : PyVal) : PyDict := setEntry d key value

def PyDict.setdefault (d : PyDict) (key : String) (value : PyVal) : PyDict :=
  match lookupEntry d key with
  | some _ => d
  | none => d.set key value

/-- `a or b`. -/
def PyVal.or (a b : PyVal) : PyVal := if a.truthy then a else b

/-- `str(x)`, where `repr` writes a value that is no string. -/
def PyVal.toStr (repr : PyVal → String) : PyVal → String
  | .str s => s
  | x => repr x

/-- `float(x)`, where `float_of_str` reads a string. -/
def PyVal.toFloat (float_of_str : String → Except PyErr Rat) : PyVal → Except PyErr Rat
  | .float x => .ok x
  | .int n => .ok n
  | .bool b => .ok (if b then 1 else 0)
  | .str s => float_of_str s
  | _ => .error (.raised "TypeError" "float() argument must be a string or a real number")

/-- The first int that is too large for a float: from it on the nearest one
would be 2 ^ 1024. -/
def FLOAT_LIMIT : Nat := 2 ^ 1024 - 2 ^ 970

/-- `float(x)` of a value that can be any int. -/
def PyVal.float_of (float_of_str : String → Except PyErr Rat) : PyVal → Except PyErr Rat
  | .int n =>
    if n.natAbs < FLOAT_LIMIT then .ok n
    else .error (.raised "OverflowError" "int too large to convert to float")
  | x => x.toFloat float_of_str

example : PyVal.toInt (.str " -1_2 ") = .ok (-12) := by rfl

end bid_evaluation.values
