/-
What formulas mean.

A form has a value once every name has one, an integer or a truth value.  The symbols at
the head of lists have their meaning from the core and integer theories: minus is negation
of one integer and subtraction from left to right of several, `<=` and `=` relate two
values, `and` and `or` take two truth values or more.  Any other list has no value, and
neither has a list whose members are of the wrong sort.
-/
import TheoryScript.Proofs.Smt.Form

namespace TheoryScript.Smt

/-- An element of one of the two sorts of the integer theory. -/
inductive Value where
  /-- An integer, of any size. -/
  | int (n : Int)
  /-- A truth value. -/
  | bool (b : Bool)
  deriving DecidableEq, Repr

/-- Minus: the negation of one integer, or what is left of the first after the others. -/
def minus : List Int → Option Int
  | [] => none
  | [a] => some (-a)
  | a :: b :: rest => some ((b :: rest).foldl (· - ·) a)

namespace Value

/-- The integers in a list of values, if it holds nothing else. -/
def ints : List Value → Option (List Int)
  | [] => some []
  | int n :: rest => (ints rest).map (n :: ·)
  | bool _ :: _ => none

/-- The truth values in a list of values, if it holds nothing else. -/
def bools : List Value → Option (List Bool)
  | [] => some []
  | bool b :: rest => (bools rest).map (b :: ·)
  | int _ :: _ => none

/-- A connective of two truth values or more. -/
def connective (f : List Bool → Bool) : List Value → Option Value
  | a :: b :: rest => (bools (a :: b :: rest)).map fun bs => bool (f bs)
  | _ => none

/-- Apply a symbol of the theories. -/
def apply (operator : String) (values : List Value) : Option Value :=
  if operator = "-" then ((ints values).bind minus).map int
  else if operator = "<=" then
    match values with
    | [int a, int b] => some (bool (a ≤ b))
    | _ => none
  else if operator = "=" then
    match values with
    | [int a, int b] => some (bool (a = b))
    | [bool a, bool b] => some (bool (a = b))
    | _ => none
  else if operator = "and" then connective (·.all id) values
  else if operator = "or" then connective (·.any id) values
  else none

theorem ints_map (ns : List Int) : ints (ns.map int) = some ns := by
  induction ns with
  | nil => rfl
  | cons n ns ih => rw [List.map_cons, ints, ih, Option.map_some]

theorem bools_map (bs : List Bool) : bools (bs.map bool) = some bs := by
  induction bs with
  | nil => rfl
  | cons b bs ih => rw [List.map_cons, bools, ih, Option.map_some]

theorem apply_minus (ns : List Int) : apply "-" (ns.map int) = (minus ns).map int := by
  show ((ints (ns.map int)).bind minus).map int = _
  rw [ints_map, Option.bind_some]

theorem apply_or {bs : List Bool} (h : 2 ≤ bs.length) :
    apply "or" (bs.map bool) = some (bool (bs.any id)) := by
  match bs with
  | a :: b :: rest =>
      show (bools ((a :: b :: rest).map bool)).map _ = _
      rw [bools_map, Option.map_some]

end Value

namespace Form

mutual

/-- The value of a form, if it has one. -/
def eval (env : String → Value) : Form → Option Value
  | symbol name => some (env name)
  | numeral value => some (.int value)
  | list (symbol operator :: arguments) => (evalAll env arguments).bind (Value.apply operator)
  | list _ => none

/-- The values of several forms, if all of them have one. -/
def evalAll (env : String → Value) : List Form → Option (List Value)
  | [] => some []
  | f :: rest => (f.eval env).bind fun v => (evalAll env rest).map (v :: ·)

end

variable {env : String → Value}

/-- An application has the value of its operator at the values of its arguments. -/
theorem eval_application {operator : String} {arguments : List Form} {values : List Value}
    (h : evalAll env arguments = some values) :
    (list (symbol operator :: arguments)).eval env = Value.apply operator values := by
  rw [eval, h, Option.bind_some]

theorem evalAll_map {α : Type} {xs : List α} {form : α → Form} {value : α → Value}
    (h : ∀ x ∈ xs, (form x).eval env = some (value x)) :
    evalAll env (xs.map form) = some (xs.map value) := by
  induction xs with
  | nil => rfl
  | cons x xs ih =>
      rw [List.map_cons, List.map_cons, evalAll, h x (by simp),
        ih fun y hy => h y (by simp [hy])]
      rfl

theorem eval_binary {operator : String} {a b : Form} {u v : Value}
    (ha : a.eval env = some u) (hb : b.eval env = some v) :
    (list [symbol operator, a, b]).eval env = Value.apply operator [u, v] := by
  refine eval_application ?_
  rw [evalAll, ha, evalAll, hb]
  rfl

end Form

end TheoryScript.Smt
