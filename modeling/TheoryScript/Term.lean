/-
Terms of theory statements.

A term is a variable, a constant, or an operation applied to a list of terms.  Children
are stored in the term, so every term is a finite tree and every question about one is
answered by recursion on it.  Each recursive function has a companion on lists of terms
(`leaves` and `leavesAll`), and a lemma that says what the companion does in terms of
the list.
-/
import TheoryScript.Smt.SExpr

namespace TheoryScript

/-! ### Constants -/

/-- An integer of 64 bits, or a symbolic constant. -/
inductive Constant where
  /-- A number. -/
  | int (value : Int64)
  /-- A constant known by name only, such as `a` or a quoted text. -/
  | name (text : String)
  deriving DecidableEq, Repr

/-- The constant in a script: an integer, or the symbol of its name. -/
def Constant.toSExpr : Constant → Smt.SExpr
  | int value => .ofInt value.toInt
  | name text => .symbol text

/-! ### Terms -/

/-- A variable, an operation before its operands, or a constant. -/
inductive Term where
  /-- A variable, such as `x` or `start(1)`. -/
  | var (name : String)
  /-- An operation applied to terms, such as `x - y`. -/
  | app (operation : String) (children : List Term)
  /-- A constant. -/
  | const (value : Constant)
  deriving Repr

namespace Term

/-- Induction on terms, with the hypothesis for every child of an operation. -/
@[elab_as_elim]
theorem induct {motive : Term → Prop} (hvar : ∀ name, motive (var name))
    (happ : ∀ operation children, (∀ c ∈ children, motive c) → motive (app operation children))
    (hconst : ∀ value, motive (const value)) : ∀ t, motive t
  | var name => hvar name
  | app operation children => happ operation children fun c _ => induct hvar happ hconst c
  | const value => hconst value

/-! ### Equality -/

mutual

/-- Two terms are compared constructor by constructor. -/
def decEq : (s t : Term) → Decidable (s = t)
  | var a, var b => if h : a = b then isTrue (by rw [h]) else isFalse (by simp [h])
  | const a, const b => if h : a = b then isTrue (by rw [h]) else isFalse (by simp [h])
  | app f as, app g bs =>
      if hop : f = g then
        match decEqAll as bs with
        | isTrue h => isTrue (by rw [hop, h])
        | isFalse h => isFalse (by simp [h])
      else isFalse (by simp [hop])
  | var _, app _ _ | var _, const _ | app _ _, var _ | app _ _, const _
  | const _, var _ | const _, app _ _ => isFalse (by simp)

/-- Two lists of terms are compared term by term. -/
def decEqAll : (as bs : List Term) → Decidable (as = bs)
  | [], [] => isTrue rfl
  | [], _ :: _ | _ :: _, [] => isFalse (by simp)
  | a :: as, b :: bs =>
      match decEq a b with
      | isFalse h => isFalse (by simp [h])
      | isTrue h =>
          match decEqAll as bs with
          | isTrue hs => isTrue (by rw [h, hs])
          | isFalse hs => isFalse (by simp [hs])

end

instance : DecidableEq Term := decEq

/-! ### Variables -/

mutual

/-- The names of the variable leaves, from left to right, each as often as it occurs. -/
def leaves : Term → List String
  | var name => [name]
  | app _ children => leavesAll children
  | const _ => []

/-- The leaves of several terms, one term after the other. -/
def leavesAll : List Term → List String
  | [] => []
  | t :: rest => t.leaves ++ leavesAll rest

end

mutual

/-- The number of variable leaves.  Every occurrence counts, so `x - x` has two. -/
def variableCount : Term → Nat
  | var _ => 1
  | app _ children => variableCountAll children
  | const _ => 0

/-- The number of variable leaves of several terms together. -/
def variableCountAll : List Term → Nat
  | [] => 0
  | t :: rest => t.variableCount + variableCountAll rest

end

/-- The distinct variables, in the order in which they are first seen. -/
def vars (t : Term) : List String :=
  t.leaves.eraseDups

theorem leavesAll_eq_flatMap (ts : List Term) : leavesAll ts = ts.flatMap leaves := by
  induction ts with
  | nil => rfl
  | cons t rest ih => simp [leavesAll, ih]

theorem variableCountAll_eq_foldr (ts : List Term) :
    variableCountAll ts = (ts.map variableCount).foldr (· + ·) 0 := by
  induction ts with
  | nil => rfl
  | cons t rest ih => simp [variableCountAll, ih]

/-- Counting the leaves is the same as listing them. -/
theorem variableCount_eq_length_leaves (t : Term) : t.variableCount = t.leaves.length := by
  induction t using Term.induct with
  | hvar name => rfl
  | hconst value => rfl
  | happ operation children ih =>
      have hcounts : children.map variableCount = children.map fun c => c.leaves.length :=
        List.map_congr_left ih
      rw [variableCount, variableCountAll_eq_foldr, hcounts, leaves, leavesAll_eq_flatMap,
        List.length_flatMap, List.sum]

/-! ### Text -/

mutual

/-- The term in a script: operations keep their spelling and their operands. -/
def toSExpr : Term → Smt.SExpr
  | var name => .symbol name
  | app operation children => .app operation (toSExprs children)
  | const value => value.toSExpr

/-- Several terms in a script, in order. -/
def toSExprs : List Term → List Smt.SExpr
  | [] => []
  | t :: rest => t.toSExpr :: toSExprs rest

end

theorem toSExprs_eq_map (ts : List Term) : toSExprs ts = ts.map toSExpr := by
  induction ts with
  | nil => rfl
  | cons t rest ih => simp [toSExprs, ih]

/-- The term as it is written in a script. -/
def render (t : Term) : String :=
  t.toSExpr.render

end Term

end TheoryScript
