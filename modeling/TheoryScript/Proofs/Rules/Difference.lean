/-
The rules of difference constraints.

The rules are stated here one by one, each on the statement as it was given, and in the
order in which they are tried.  A statement is encoded when it keeps all of them, and the
error about any other statement is that of the first rule that it breaks.

The one rule that looks below the top of the head asks every node of it.  Its check walks
down the head and stops at the first node that is at fault; that this is the first one in
the list of all nodes is `text_operandFault?`, by induction on the head.
-/
import TheoryScript.Proofs.Difference
import TheoryScript.Proofs.Rules

namespace TheoryScript

/-! ### The nodes of a term -/

namespace Term

mutual

/-- The nodes of a term, parents before children and left to right. -/
def nodes : Term → List Term
  | var name => [var name]
  | app operation children => app operation children :: nodesAll children
  | const value => [const value]

/-- The nodes of several terms, one term after the other. -/
def nodesAll : List Term → List Term
  | [] => []
  | t :: rest => t.nodes ++ nodesAll rest

end

theorem nodesAll_eq_flatMap (ts : List Term) : nodesAll ts = ts.flatMap nodes := by
  induction ts with
  | nil => rfl
  | cons t rest ih => rw [nodesAll, ih, List.flatMap_cons]

theorem mem_nodes_app {operation : String} {children : List Term} {n : Term} :
    n ∈ (app operation children).nodes ↔
      n = app operation children ∨ ∃ t ∈ children, n ∈ t.nodes := by
  rw [nodes, nodesAll_eq_flatMap, List.mem_cons, List.mem_flatMap]

/-- Why a node is no part of an integer term, whatever stands below it. -/
def offence? : Term → Option String
  | var _ => none
  | const (.int _) => none
  | const (.name name) => some ("symbolic constant `" ++ name ++ "` is not an integer")
  | app operation [] => some ("operation `" ++ operation ++ "` has no operands")
  | app _ (_ :: _) => none

end Term

namespace Difference

theorem text_operandsFault? {ts : List Term}
    (h : ∀ t ∈ ts, (operandFault? t).map ShapeFault.text = t.nodes.findSome? Term.offence?) :
    (operandsFault? ts).map ShapeFault.text = (Term.nodesAll ts).findSome? Term.offence? := by
  induction ts with
  | nil => rfl
  | cons t rest ih =>
      obtain ⟨hfirst, hrest⟩ := List.forall_mem_cons.mp h
      rw [operandsFault?, Term.nodesAll, List.findSome?_append, ← hfirst, ← ih hrest]
      cases operandFault? t with
      | some fault => rfl
      | none => rfl

/-- **The operand check finds the first node that is at fault.** -/
theorem text_operandFault? (t : Term) :
    (operandFault? t).map ShapeFault.text = t.nodes.findSome? Term.offence? := by
  induction t using Term.induct with
  | hvar name => rfl
  | hconst value =>
      cases value with
      | int v => rfl
      | name text => rfl
  | happ operation children ih =>
      cases children with
      | nil => rfl
      | cons t rest =>
          -- an operation with operands is not at fault itself, so its operands decide
          show (operandsFault? (t :: rest)).map ShapeFault.text
            = (Term.nodesAll (t :: rest)).findSome? Term.offence?
          exact text_operandsFault? ih

/-! ### The rules -/

/-- There is exactly one element. -/
def oneElement : Rule where
  Kept s := s.elements.length = 1
  Reports s error :=
    (s.elements = [] ∧ error = .malformed s.category "missing left-hand term") ∨
      (2 ≤ s.elements.length ∧ error = .malformed s.category "more than one term not allowed")

/-- An element has exactly one term. -/
def oneTerm : Rule where
  Kept s := ∀ e ∈ s.elements, e.terms.length = 1
  Reports s error :=
    ∃ e ∈ s.elements, ∃ reason, e.NotSingle reason ∧ error = .malformed s.category reason

/-- Every operation in the head has operands and every constant in it is a number. -/
def operands : Rule where
  Kept s := ∀ head, s.head? = some head → head.Integral
  Reports s error :=
    ∃ head before node after reason, s.head? = some head ∧ head.nodes = before ++ node :: after ∧
      (∀ n ∈ before, n.offence? = none) ∧ node.offence? = some reason ∧
      error = .malformed s.category reason

/-- The bound is a number or a variable. -/
def bound : Rule where
  Kept s := (∃ value, s.right = .const (.int value)) ∨ ∃ name, s.right = .var name
  Reports s error := error = .malformed s.category "the bound must be an integer or a variable"

/-- Below an operation at the top of the head, at most two variables occur. -/
def arity : Rule where
  Kept s := ∀ op children, s.head? = some (.app op children) →
    (Term.app op children).leaves.length ≤ 2
  Reports s error := ∃ head, s.head? = some head ∧
    error = .tooManyVariables s.category head.leaves.length 2

/-- An operation at the top of the head is the difference. -/
def topOperation : Rule where
  Kept s := ∀ op children, s.head? = some (.app op children) → op = "-"
  Reports s error := ∃ op children, s.head? = some (.app op children) ∧
    error = .unsupportedOperator s.category .operation op "-"

/-- The rules about a head and its bound, in the order in which they are tried. -/
def headRules : List Rule :=
  [operands, bound, arity, topOperation, .relation "<="]

/-- All rules, in the order in which they are tried. -/
def rules : List Rule :=
  oneElement :: oneTerm :: headRules

/-! ### The checks of a head test the rules -/

section

variable {s : Statement} {head : Term}

theorem operands_testedBy (hhead : s.head? = some head) :
    operands.TestedBy s ((operandFault? head).map s.malformed) := by
  have hkept : operands.Kept s ↔ head.Integral := by
    unfold operands
    simp [hhead]
  refine ⟨?_, fun _ error => ?_⟩
  · rw [hkept, Option.map_eq_none_iff, operandFault?_eq_none_iff]
  · have hanswer : (operandFault? head).map s.malformed
        = (head.nodes.findSome? Term.offence?).map (EncodingError.malformed s.category) := by
      rw [← text_operandFault?, Option.map_map]
      rfl
    rw [hanswer, Option.map_eq_some_iff]
    constructor
    · rintro ⟨reason, hfound, rfl⟩
      obtain ⟨before, node, after, hnodes, hnode, hbefore⟩ := List.findSome?_eq_some_iff.mp hfound
      exact ⟨head, before, node, after, reason, hhead, hnodes, hbefore, hnode, rfl⟩
    · rintro ⟨other, before, node, after, reason, hother, hnodes, hbefore, hnode, rfl⟩
      obtain rfl : head = other := Option.some.inj (hhead.symm.trans hother)
      exact ⟨reason, List.findSome?_eq_some_iff.mpr ⟨before, node, after, hnodes, hnode, hbefore⟩,
        rfl⟩

theorem bound_testedBy (s : Statement) :
    bound.TestedBy s ((boundFault? s.right).map s.malformed) := by
  have hkept : boundFault? s.right = none ↔ bound.Kept s := boundFault?_eq_none_iff
  refine ⟨?_, fun hbroken error => ?_⟩
  · rw [Option.map_eq_none_iff, hkept]
  · have hfault : boundFault? s.right = some .bound := by
      rw [← hkept] at hbroken
      cases hright : s.right with
      | var name => simp [hright, boundFault?] at hbroken
      | app op children => rfl
      | const value =>
          cases value with
          | int v => simp [hright, boundFault?] at hbroken
          | name text => rfl
    have hanswer : (boundFault? s.right).map s.malformed
        = some (.malformed s.category "the bound must be an integer or a variable") := by
      rw [hfault]
      rfl
    rw [hanswer, Option.some.injEq]
    exact eq_comm

/-- The two rules about the top of a head are one check, which counts before it compares. -/
theorem headError?_iff {rest : List Rule} {more : Option EncodingError}
    (hhead : s.head? = some head) (hrest : ∀ error, more = some error ↔ FirstBroken rest s error)
    (error : EncodingError) :
    (headError? s head).or more = some error
      ↔ FirstBroken (arity :: topOperation :: rest) s error := by
  cases head with
  | var name =>
      have harity : arity.Kept s := by simp [arity, hhead]
      have htop : topOperation.Kept s := by simp [topOperation, hhead]
      rw [firstBroken_cons_of_kept harity, firstBroken_cons_of_kept htop, headError?,
        Option.none_or]
      exact hrest error
  | const value =>
      have harity : arity.Kept s := by simp [arity, hhead]
      have htop : topOperation.Kept s := by simp [topOperation, hhead]
      rw [firstBroken_cons_of_kept harity, firstBroken_cons_of_kept htop, headError?,
        Option.none_or]
      exact hrest error
  | app op children =>
      have harity : arity.Kept s ↔ (Term.app op children).leaves.length ≤ 2 := by
        simp [arity, hhead]
      have htop : topOperation.Kept s ↔ op = "-" := by simp [topOperation, hhead]
      rw [headError?, Term.variableCount_eq_length_leaves]
      by_cases hmany : maxVariables < (Term.app op children).leaves.length
      · rw [if_pos hmany, firstBroken_cons_of_broken (harity.not.mpr (Nat.not_le.mpr hmany))]
        simp [arity, hhead, maxVariables, eq_comm]
      rw [if_neg hmany, firstBroken_cons_of_kept (harity.mpr (Nat.not_lt.mp hmany))]
      by_cases hop : op = operation
      · rw [if_pos hop, firstBroken_cons_of_kept (htop.mpr hop), Option.none_or]
        exact hrest error
      · rw [if_neg hop, firstBroken_cons_of_broken (htop.not.mpr hop)]
        simp [topOperation, hhead, operation, eq_comm]

/-- The checks of a head find the first rule about it that is broken. -/
theorem error?_eq_some_iff (hhead : s.head? = some head) (error : EncodingError) :
    error? s head = some error ↔ FirstBroken headRules s error := by
  have hrelation := firstBroken_singleton_iff (Rule.relation_testedBy s "<=")
  have htop := headError?_iff hhead hrelation
  have hbound := firstBroken_iff_or (bound_testedBy s) htop
  exact firstBroken_iff_or (operands_testedBy hhead) hbound error

end

/-! ### The elements -/

theorem soleHead_ok_rules {head : Term} {s : Statement} (h : soleHead s = .ok head) :
    s.head? = some head ∧ oneElement.Kept s ∧ oneTerm.Kept s := by
  have helements := soleHead_eq_ok_iff.mp h
  exact ⟨by simp [Statement.head?, helements], by simp [oneElement, helements],
    by simp [oneTerm, helements]⟩

/-- An element that does not have one term breaks the rule about terms. -/
theorem soleTerm_error_iff {s : Statement} {e : Element} {fault : ShapeFault}
    (helements : s.elements = [e]) (h : e.soleTerm = .error fault) {rest : List Rule}
    {error : EncodingError} :
    error = s.malformed fault ↔ FirstBroken (oneTerm :: rest) s error := by
  have hbroken : ¬oneTerm.Kept s := by
    intro hkept
    obtain ⟨t, ht⟩ := List.length_eq_one_iff.mp (hkept e (by simp [helements]))
    rw [Element.soleTerm_eq_ok_iff.mpr ht] at h
    cases h
  rw [firstBroken_cons_of_broken hbroken]
  constructor
  · intro herror
    exact ⟨e, by simp [helements], fault.text, Element.notSingle_iff.mpr ⟨fault, h, rfl⟩, herror⟩
  · rintro ⟨other, hother, reason, hreason, rfl⟩
    obtain rfl : other = e := by simpa [helements] using hother
    obtain ⟨found, hfound, rfl⟩ := Element.notSingle_iff.mp hreason
    obtain rfl : fault = found := Except.error.inj (h.symm.trans hfound)
    rfl

/-- A statement without a head breaks one of the two rules about elements. -/
theorem soleHead_error_iff {s : Statement} {fault : ShapeFault} (h : soleHead s = .error fault)
    {rest : List Rule} {error : EncodingError} :
    error = s.malformed fault ↔ FirstBroken (oneElement :: oneTerm :: rest) s error := by
  unfold soleHead at h
  cases helements : s.elements with
  | nil =>
      have hbroken : ¬oneElement.Kept s := by simp [oneElement, helements]
      have hfew : ¬2 ≤ s.elements.length := by simp [helements]
      obtain rfl : .missingHead = fault := by simpa [helements] using h
      rw [firstBroken_cons_of_broken hbroken]
      constructor
      · intro herror
        exact Or.inl ⟨helements, herror⟩
      · rintro (⟨-, herror⟩ | ⟨hmany, -⟩)
        · exact herror
        · exact absurd hmany hfew
  | cons e more =>
      cases more with
      | cons f more =>
          have hbroken : ¬oneElement.Kept s := by simp [oneElement, helements]
          have hmany : 2 ≤ s.elements.length := by simp [helements]
          obtain rfl : .severalElements = fault := by simpa [helements] using h
          rw [firstBroken_cons_of_broken hbroken]
          constructor
          · intro herror
            exact Or.inr ⟨hmany, herror⟩
          · rintro (⟨hnone, -⟩ | ⟨-, herror⟩)
            · simp [hnone] at hmany
            · exact herror
      | nil =>
          have hkept : oneElement.Kept s := by simp [oneElement, helements]
          have hterm : e.soleTerm = .error fault := by simpa [helements] using h
          rw [firstBroken_cons_of_kept hkept]
          exact soleTerm_error_iff helements hterm

/-- **A statement is refused for the first rule that it breaks.** -/
theorem lower_eq_error_iff {s : Statement} {error : EncodingError} :
    lower s = .error error ↔ FirstBroken rules s error := by
  unfold lower rules
  cases hsole : soleHead s with
  | error fault =>
      rw [← soleHead_error_iff hsole]
      simp [eq_comm]
  | ok head =>
      obtain ⟨hhead, helement, hterm⟩ := soleHead_ok_rules hsole
      rw [firstBroken_cons_of_kept helement, firstBroken_cons_of_kept hterm,
        ← error?_eq_some_iff hhead]
      cases herror : error? s head with
      | none => simp [herror]
      | some found => simp [herror]

/-- **The statements that keep all rules are the difference constraints.** -/
theorem rules_kept_iff {s : Statement} :
    (∀ r ∈ rules, r.Kept s) ↔ ∃ head, s.IsDifference head := by
  constructor
  · intro hkept
    cases hlower : lower s with
    | error error => exact absurd (lower_eq_error_iff.mp hlower) (not_firstBroken_of_kept hkept)
    | ok c =>
        obtain ⟨head, hhead, -⟩ := lower_iff_isDifference.mp hlower
        exact ⟨head, hhead⟩
  · rintro ⟨head, h⟩
    have hhead : s.head? = some head := by simp [Statement.head?, h.elements]
    simp only [rules, headRules, List.forall_mem_cons]
    refine ⟨?_, ?_, ?_, h.bound, ?_, ?_, h.relation, List.forall_mem_nil _⟩
    · simp [oneElement, h.elements]
    · simp [oneTerm, h.elements]
    · simpa [operands, hhead] using h.integral
    · intro op children happ
      obtain rfl : head = .app op children := Option.some.inj (hhead.symm.trans happ)
      exact h.occurrences
    · intro op children happ
      exact h.top op children (Option.some.inj (hhead.symm.trans happ))

theorem lower_of_category {s : Statement} (hcat : s.category = "diff") :
    Fragment.difference.lower s = lower s :=
  if_pos hcat

end Difference

/--
**A difference is encoded when it keeps all rules, and refused for the first that it breaks.**
The text of one that keeps them is its head and its bound under `<=`.  The error about any
other is what the first broken rule reports, so an element too many is reported before a
constant that is no number, that before too many variables, and a relation last of all.
-/
theorem difference_is_refused_for_first_broken_rule {s : Statement} (hcat : s.category = "diff") :
    (∀ text, Fragment.difference.encode s = .ok text ↔
      (∀ r ∈ Difference.rules, r.Kept s) ∧
        ∃ head, s.head? = some head ∧
          text = "(<= " ++ head.render ++ " " ++ s.right.render ++ ")") ∧
    ∀ error, Fragment.difference.encode s = .error error ↔
      FirstBroken Difference.rules s error := by
  refine ⟨fun text => ?_, fun error => ?_⟩
  · rw [Difference.encode_eq_ok_iff hcat, Difference.rules_kept_iff]
    have hhead : ∀ head, s.IsDifference head → s.head? = some head := by
      intro head h
      simp [Statement.head?, h.elements]
    constructor
    · rintro ⟨head, h, htext⟩
      exact ⟨⟨head, h⟩, head, hhead head h, htext⟩
    · rintro ⟨⟨head, h⟩, other, hother, htext⟩
      obtain rfl : head = other := Option.some.inj ((hhead head h).symm.trans hother)
      exact ⟨head, h, htext⟩
  · rw [← Difference.lower_eq_error_iff, Fragment.encode, Difference.lower_of_category hcat]
    cases Difference.lower s with
    | error found => simp [Except.map]
    | ok c => simp [Except.map]

theorem first_broken_of_several_rules_is_reported :
    let broken : Term := .app "g" [.var "y", .app "f" [], .const (.name "k")]
    let s : Statement := ⟨"a", "diff", [⟨[.app "+" [.var "x", broken, .var "z"]]⟩], ">=", broken⟩
    let t : Statement :=
      { s with elements := [⟨[.app "+" [.var "x", .var "y", .var "x"]]⟩], right := .var "z" }
    let u : Statement := ⟨"a", "diff", [⟨[.app "-" [.var "x", .var "x"]]⟩], "<=", .var "z"⟩
    (s.category = "diff" ∧ Fragment.difference.encode s
        = .error (.malformed "diff" "operation `f` has no operands") ∧
      FirstBroken Difference.rules s (.malformed "diff" "operation `f` has no operands")) ∧
    (t.category = "diff" ∧ Fragment.difference.encode t = .error (.tooManyVariables "diff" 3 2) ∧
      FirstBroken Difference.rules t (.tooManyVariables "diff" 3 2)) ∧
    (u.category = "diff" ∧ Fragment.difference.encode u = .ok "(<= (- x x) z)" ∧
      ∀ r ∈ Difference.rules, r.Kept u) := by
  intro broken s t u
  have hs : Fragment.difference.encode s
      = .error (.malformed "diff" "operation `f` has no operands") := by decide +kernel
  have ht : Fragment.difference.encode t = .error (.tooManyVariables "diff" 3 2) := by
    decide +kernel
  have hu : Fragment.difference.encode u = .ok "(<= (- x x) z)" := by decide +kernel
  exact ⟨⟨rfl, hs, ((difference_is_refused_for_first_broken_rule rfl).2 _).mp hs⟩,
    ⟨rfl, ht, ((difference_is_refused_for_first_broken_rule rfl).2 _).mp ht⟩,
    rfl, hu, (((difference_is_refused_for_first_broken_rule rfl).1 _).mp hu).1⟩

end TheoryScript
