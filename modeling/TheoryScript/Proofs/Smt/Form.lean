/-
Reading forms.

A script is a sequence of forms: symbols, numerals and bracketed lists of forms.  The
reader goes over the tokens once and keeps the lists that are still open, each with the
items it has so far; a text is read when the tokens end with no list open.

`readAll_eq_some_iff` says that this reader accepts the tokens of a sequence of forms and
nothing else, so a question about reading becomes one about tokens.  `Reads` is what a
piece of a script has to satisfy to be read the same wherever it stands: pieces that do
can be put side by side, and then they are read side by side.
-/
import TheoryScript.Proofs.Smt.Token

namespace TheoryScript.Smt

/-! ### Forms and their tokens -/

/-- What a reader makes of a bracketed text. -/
inductive Form where
  /-- A name, whether it was bare or between bars. -/
  | symbol (name : String)
  /-- A natural number. -/
  | numeral (value : Nat)
  /-- The forms between two brackets. -/
  | list (items : List Form)
  deriving Repr

namespace Form

mutual

/-- The tokens of a form, its brackets included. -/
def tokens : Form → List Token
  | symbol name => [.symbol name]
  | numeral value => [.numeral value]
  | list items => .opening :: (tokensAll items ++ [.closing])

/-- The tokens of several forms, one form after the other. -/
def tokensAll : List Form → List Token
  | [] => []
  | f :: rest => f.tokens ++ tokensAll rest

end

@[simp] theorem tokensAll_append (fs gs : List Form) :
    tokensAll (fs ++ gs) = tokensAll fs ++ tokensAll gs := by
  induction fs with
  | nil => rfl
  | cons f rest ih => simp [tokensAll, ih]

theorem tokensAll_singleton (f : Form) : tokensAll [f] = f.tokens := by
  simp [tokensAll]

mutual

theorem comment_not_mem_tokens : ∀ f : Form, Token.comment ∉ f.tokens
  | symbol name => by simp [tokens]
  | numeral value => by simp [tokens]
  | list items => by simp [tokens, comment_not_mem_tokensAll items]

theorem comment_not_mem_tokensAll : ∀ fs : List Form, Token.comment ∉ tokensAll fs
  | [] => by simp [tokensAll]
  | f :: rest => by
      simp [tokensAll, comment_not_mem_tokens f, comment_not_mem_tokensAll rest]

end

/-! ### Reading tokens -/

/--
Read tokens with some lists open, the innermost first, behind the items that the
current list has so far.
-/
def gather : List (List Form) → List Form → List Token → Option (List Form)
  | [], items, [] => some items
  | _ :: _, _, [] => none
  | outer, items, .symbol name :: rest => gather outer (items ++ [symbol name]) rest
  | outer, items, .numeral value :: rest => gather outer (items ++ [numeral value]) rest
  | outer, items, .opening :: rest => gather (items :: outer) [] rest
  | [], _, .closing :: _ => none
  | enclosing :: outer, items, .closing :: rest => gather outer (enclosing ++ [list items]) rest
  | _, _, .keyword _ :: _ => none
  | _, _, .literal _ :: _ => none
  | _, _, .comment :: _ => none

/-- The forms of a text, if it is made of complete forms and nothing else. -/
def readAll (text : String) : Option (List Form) :=
  (Token.lex text.toList).bind (gather [] [])

mutual

/-- The tokens of a form add that form to the current list. -/
theorem gather_tokens : ∀ (f : Form) (outer : List (List Form)) (items : List Form)
    (ts : List Token), gather outer items (f.tokens ++ ts) = gather outer (items ++ [f]) ts
  | symbol name, outer, items, ts => by simp [tokens, gather]
  | numeral value, outer, items, ts => by simp [tokens, gather]
  | list inner, outer, items, ts => by
      have hinner := gather_tokensAll inner (items :: outer) [] (.closing :: ts)
      simp only [tokens, List.cons_append, List.append_assoc, List.nil_append] at hinner ⊢
      rw [gather, hinner, gather]

theorem gather_tokensAll : ∀ (fs : List Form) (outer : List (List Form)) (items : List Form)
    (ts : List Token), gather outer items (tokensAll fs ++ ts) = gather outer (items ++ fs) ts
  | [], outer, items, ts => by simp [tokensAll]
  | f :: rest, outer, items, ts => by
      rw [tokensAll, List.append_assoc, gather_tokens f, gather_tokensAll rest]
      simp

end

/-- The tokens that lead to a state of the reader. -/
def pending : List (List Form) → List Form → List Token
  | [], items => tokensAll items
  | enclosing :: outer, items => pending outer enclosing ++ .opening :: tokensAll items

theorem pending_append (outer : List (List Form)) (items fs : List Form) :
    pending outer (items ++ fs) = pending outer items ++ tokensAll fs := by
  cases outer with
  | nil => simp [pending]
  | cons enclosing outer => simp [pending]

/-- What was read and what is left are together the tokens of the result. -/
theorem pending_of_gather {ts : List Token} {fs : List Form} :
    ∀ (outer : List (List Form)) (items : List Form), gather outer items ts = some fs →
      pending outer items ++ ts = tokensAll fs := by
  induction ts with
  | nil =>
      intro outer items h
      cases outer with
      | nil =>
          rw [gather, Option.some.injEq] at h
          simp [pending, h]
      | cons enclosing outer => simp [gather] at h
  | cons t ts ih =>
      intro outer items h
      cases t with
      | symbol name =>
          rw [gather] at h
          rw [← ih _ _ h, pending_append]
          simp [tokensAll, tokens]
      | numeral value =>
          rw [gather] at h
          rw [← ih _ _ h, pending_append]
          simp [tokensAll, tokens]
      | opening =>
          rw [gather] at h
          rw [← ih _ _ h]
          simp [pending, tokensAll]
      | closing =>
          cases outer with
          | nil => simp [gather] at h
          | cons enclosing outer =>
              rw [gather] at h
              rw [← ih _ _ h, pending_append]
              simp [pending, tokensAll, tokens]
      | keyword name => simp [gather] at h
      | literal text => simp [gather] at h
      | comment => simp [gather] at h

/-- **A text reads as some forms exactly when its tokens are theirs.** -/
theorem readAll_eq_some_iff {text : String} {fs : List Form} :
    readAll text = some fs ↔ Token.lex text.toList = some (tokensAll fs) := by
  constructor
  · intro h
    obtain ⟨ts, hlex, hgather⟩ := Option.bind_eq_some_iff.mp h
    have hpending := pending_of_gather [] [] hgather
    rw [hlex, ← hpending]
    simp [pending, tokensAll]
  · intro h
    have hgather := gather_tokensAll fs [] [] []
    rw [List.append_nil, List.nil_append] at hgather
    rw [readAll, h, Option.bind_some, hgather, gather]

/-! ### Forms that were read before

Nothing that was read before the outermost list can be taken back, so it only stands in
front of the result.
-/

/-- Put forms in front of the outermost list. -/
def behind (fs : List Form) : List (List Form) → List (List Form)
  | [] => []
  | [base] => [fs ++ base]
  | enclosing :: next :: outer => enclosing :: behind fs (next :: outer)

theorem behind_cons_ne_nil (fs enclosing : List Form) {outer : List (List Form)}
    (houter : outer ≠ []) : behind fs (enclosing :: outer) = enclosing :: behind fs outer := by
  obtain ⟨next, outer, rfl⟩ := List.exists_cons_of_ne_nil houter
  rfl

theorem gather_behind (fs : List Form) (ts : List Token) :
    (∀ items : List Form, gather [] (fs ++ items) ts = (gather [] items ts).map (fs ++ ·)) ∧
    ∀ (outer : List (List Form)) (items : List Form), outer ≠ [] →
      gather (behind fs outer) items ts = (gather outer items ts).map (fs ++ ·) := by
  -- brackets lead from either case into the other, so one induction carries both
  induction ts with
  | nil =>
      refine ⟨fun items => by simp [gather], ?_⟩
      intro outer items houter
      match outer with
      | [base] => simp [behind, gather]
      | enclosing :: next :: outer => simp [behind, gather]
  | cons t ts ih =>
      obtain ⟨ihbase, ihouter⟩ := ih
      constructor
      · intro items
        cases t with
        | symbol name => simp only [gather, List.append_assoc]; exact ihbase _
        | numeral value => simp only [gather, List.append_assoc]; exact ihbase _
        | opening => simp only [gather]; exact ihouter [items] [] (by simp)
        | closing => simp [gather]
        | keyword name => simp [gather]
        | literal text => simp [gather]
        | comment => simp [gather]
      · intro outer items houter
        cases t with
        | symbol name => simp only [gather]; exact ihouter outer _ houter
        | numeral value => simp only [gather]; exact ihouter outer _ houter
        | opening =>
            simp only [gather]
            rw [← behind_cons_ne_nil fs items houter]
            exact ihouter (items :: outer) [] (by simp)
        | closing =>
            match outer with
            | [base] =>
                simp only [behind, gather, List.append_assoc]
                exact ihbase _
            | enclosing :: next :: outer =>
                simp only [behind, gather]
                exact ihouter (next :: outer) _ (by simp)
        | keyword name => simp [gather]
        | literal text => simp [gather]
        | comment => simp [gather]

/-! ### Pieces of a script -/

/-- A piece of text that gives the tokens of some forms, whatever follows it. -/
def Reads (text : String) (fs : List Form) : Prop :=
  ∀ rest : List Char,
    Token.lexFrom .idle (text.toList ++ rest) = (Token.lexFrom .idle rest).map (tokensAll fs ++ ·)

theorem Reads.nil : Reads "" [] := by
  intro rest
  simp [tokensAll]

theorem Reads.append {a b : String} {fs gs : List Form} (ha : Reads a fs) (hb : Reads b gs) :
    Reads (a ++ b) (fs ++ gs) := by
  intro rest
  rw [String.toList_append, List.append_assoc, ha, hb, Option.map_map, tokensAll_append]
  simp [Function.comp_def]

theorem Reads.join {α : Type} {xs : List α} (text : α → String) (forms : α → List Form)
    (h : ∀ x ∈ xs, Reads (text x) (forms x)) :
    Reads (String.join (xs.map text)) (xs.flatMap forms) := by
  induction xs with
  | nil => exact Reads.nil
  | cons x xs ih =>
      rw [List.map_cons, List.flatMap_cons, String.join_cons]
      exact (h x (by simp)).append (ih fun y hy => h y (by simp [hy]))

/-- **What follows a piece is read as if it stood alone.** -/
theorem Reads.readAll_append {text : String} {fs : List Form} (h : Reads text fs)
    (rest : String) : readAll (text ++ rest) = (readAll rest).map (fs ++ ·) := by
  rw [readAll, readAll, Token.lex, Token.lex, String.toList_append, h rest.toList]
  cases Token.lexFrom .idle rest.toList with
  | none => rfl
  | some ts =>
      have hbehind := (gather_behind fs ts).1 []
      rw [List.append_nil] at hbehind
      rw [Option.map_some, Option.bind_some, Option.bind_some, gather_tokensAll]
      exact hbehind

theorem Reads.readAll_eq {text : String} {fs : List Form} (h : Reads text fs) :
    readAll text = some fs := by
  have hempty : readAll "" = some [] := rfl
  have hread := h.readAll_append ""
  rw [String.append_empty, hempty] at hread
  simpa using hread

end Form

end TheoryScript.Smt
