/-
Trees are read back from their text.

A tree is proper when its names can stand between bars and each of its operators has
arguments.  The writer puts bars around every name that needs them, but an operator it
writes as it is, so a proper tree is read back exactly when its operators are simple
symbols.

That simple operators suffice is an induction on the tree with any delimited text behind
it (`readsBack`).  The converse (`simple_of_reads`) follows the reader: the token behind
the opening bracket must be the operator.  If it does not come from the operator's own
text, that text is blank and the first argument was taken for the operator; then every
argument is taken for the one before it, and the last is missing.
-/
import TheoryScript.Proofs.Smt.Form

namespace TheoryScript.Smt

/-! ### Applications as text -/

theorem intercalate_eq_empty_iff {texts : List String} :
    " ".intercalate texts = "" ↔ texts = [] ∨ texts = [""] := by
  match texts with
  | [] => simp
  | [text] => simp
  | first :: second :: rest => simp

/-- Arguments are written unless there is only one, without a text. -/
theorem application_of_ne_blank {operator first : String} {rest : List String}
    (h : first :: rest ≠ [""]) :
    application operator (first :: rest)
      = "(" ++ operator ++ " " ++ " ".intercalate (first :: rest) ++ ")" := by
  have hne : (" ".intercalate (first :: rest)).isEmpty = false := by
    rw [Bool.eq_false_iff]
    intro hempty
    rcases intercalate_eq_empty_iff.mp (String.isEmpty_iff.mp hempty) with hnil | hblank
    · cases hnil
    · exact h hblank
  simp [application, hne]

theorem application_eq {operator text : String} (h : text ≠ "") (texts : List String) :
    application operator (text :: texts)
      = "(" ++ operator ++ " " ++ " ".intercalate (text :: texts) ++ ")" :=
  application_of_ne_blank fun hblank => h (List.cons.inj hblank).1

theorem application_ne_empty {operator text : String} (h : text ≠ "") (texts : List String) :
    application operator (text :: texts) ≠ "" := by
  rw [application_eq h]
  intro hc
  have := congrArg String.toList hc
  simp at this

theorem symbol_ne_empty (name : String) : Smt.symbol name ≠ "" := by
  unfold Smt.symbol
  split
  · rename_i hplain
    rintro rfl
    exact absurd hplain (by decide)
  · intro hc
    have := congrArg String.toList hc
    simp at this

namespace SExpr

/-! ### Trees -/

/-- Induction on trees, with the hypothesis for every argument of an operator. -/
@[elab_as_elim]
theorem induct {motive : SExpr → Prop} (hsymbol : ∀ name, motive (symbol name))
    (hnumeral : ∀ value, motive (numeral value))
    (happ : ∀ operator arguments, (∀ a ∈ arguments, motive a) →
      motive (app operator arguments)) : ∀ e, motive e
  | symbol name => hsymbol name
  | numeral value => hnumeral value
  | app operator arguments =>
      happ operator arguments fun a _ => induct hsymbol hnumeral happ a

mutual

/-- The form of a tree: an application is a list that starts with its operator. -/
def toForm : SExpr → Form
  | symbol name => .symbol name
  | numeral value => .numeral value
  | app operator arguments => .list (.symbol operator :: toForms arguments)

/-- The forms of several trees, in order. -/
def toForms : List SExpr → List Form
  | [] => []
  | e :: rest => e.toForm :: toForms rest

end

mutual

/-- The operators of a tree, from left to right, each as often as it occurs. -/
def operators : SExpr → List String
  | symbol _ => []
  | numeral _ => []
  | app operator arguments => operator :: operatorsAll arguments

/-- The operators of several trees, one tree after the other. -/
def operatorsAll : List SExpr → List String
  | [] => []
  | e :: rest => e.operators ++ operatorsAll rest

end

mutual

/-- The names that stand as arguments, from left to right, each as often as it occurs. -/
def symbols : SExpr → List String
  | symbol name => [name]
  | numeral _ => []
  | app _ arguments => symbolsAll arguments

/-- The argument names of several trees, one tree after the other. -/
def symbolsAll : List SExpr → List String
  | [] => []
  | e :: rest => e.symbols ++ symbolsAll rest

end

theorem toForms_eq_map (es : List SExpr) : toForms es = es.map toForm := by
  induction es with
  | nil => rfl
  | cons e rest ih => simp [toForms, ih]

theorem operatorsAll_eq_flatMap (es : List SExpr) : operatorsAll es = es.flatMap operators := by
  induction es with
  | nil => rfl
  | cons e rest ih => simp [operatorsAll, ih]

theorem symbolsAll_eq_flatMap (es : List SExpr) : symbolsAll es = es.flatMap symbols := by
  induction es with
  | nil => rfl
  | cons e rest ih => simp [symbolsAll, ih]

/-- The operators of an argument are operators of the application. -/
theorem mem_operators_app {operator : String} {arguments : List SExpr} {a : SExpr}
    (ha : a ∈ arguments) {op : String} (hop : op ∈ a.operators) :
    op ∈ (app operator arguments).operators := by
  rw [operators, operatorsAll_eq_flatMap]
  exact List.mem_cons_of_mem _ (List.mem_flatMap.mpr ⟨a, ha, hop⟩)

/-- Every name can stand between bars, and every operator has arguments. -/
inductive Proper : SExpr → Prop
  | symbol {name : String} (hname : isQuotable name = true) : Proper (.symbol name)
  | numeral (value : Nat) : Proper (.numeral value)
  | app (operator : String) {arguments : List SExpr} (hne : arguments ≠ [])
      (hargs : ∀ a ∈ arguments, Proper a) : Proper (.app operator arguments)

theorem Proper.unary (operator : String) {a : SExpr} (ha : a.Proper) :
    (SExpr.app operator [a]).Proper := by
  refine .app operator (by simp) fun x hx => ?_
  rw [List.mem_singleton.mp hx]
  exact ha

theorem Proper.binary (operator : String) {a b : SExpr} (ha : a.Proper) (hb : b.Proper) :
    (SExpr.app operator [a, b]).Proper := by
  refine .app operator (by simp) fun x hx => ?_
  rcases List.mem_cons.mp hx with rfl | hx
  · exact ha
  · rw [List.mem_singleton.mp hx]
    exact hb

theorem Proper.render_ne_empty {e : SExpr} (h : e.Proper) : e.render ≠ "" := by
  induction h with
  | @symbol name hname => exact symbol_ne_empty name
  | numeral value =>
      intro hc
      exact Nat.repr_ne_empty hc
  | @app operator arguments hne hargs ih =>
      obtain ⟨a, rest, rfl⟩ := List.exists_cons_of_ne_nil hne
      rw [render, renderAll]
      exact application_ne_empty (ih a (by simp)) _

/-- The text of arguments and the bracket behind them, in front of more text. -/
def closingText (arguments : List SExpr) (rest : List Char) : List Char :=
  (" ".intercalate (arguments.map render)).toList ++ ')' :: rest

/-- The text of an operator between its bracket and its arguments. -/
theorem Proper.render_app {operator : String} {arguments : List SExpr}
    (h : (SExpr.app operator arguments).Proper) (rest : List Char) :
    (SExpr.app operator arguments).render.toList ++ rest
      = '(' :: (operator.toList ++ ' ' :: closingText arguments rest) := by
  cases h with
  | app _ hne hargs =>
      obtain ⟨a, more, rfl⟩ := List.exists_cons_of_ne_nil hne
      rw [render, renderAll_eq_map, List.map_cons,
        application_eq (hargs a (by simp)).render_ne_empty]
      simp [closingText]

theorem Proper.exists_closing {operator : String} {arguments : List SExpr}
    (h : (SExpr.app operator arguments).Proper) :
    ∃ w, (SExpr.app operator arguments).render.toList = w ++ [')'] := by
  have htext := h.render_app []
  rw [List.append_nil] at htext
  refine ⟨'(' :: (operator.toList ++ ' ' :: (" ".intercalate (arguments.map render)).toList), ?_⟩
  rw [htext, closingText]
  simp

theorem delimited_blank (rest : List Char) : Token.Delimited (' ' :: rest) :=
  Token.delimited_cons (by decide) rest

theorem delimited_closing (rest : List Char) : Token.Delimited (')' :: rest) :=
  Token.delimited_cons (by decide) rest

theorem lexFrom_closingText_nil (rest : List Char) :
    Token.lexFrom .idle (closingText [] rest)
      = (Token.lexFrom .idle rest).map (.closing :: ·) := by
  rw [← Token.lexFrom_closing]
  simp [closingText]

/-- Behind the first argument the text goes on as if that argument had not been there. -/
theorem closingText_cons (a : SExpr) (more : List SExpr) (rest : List Char) :
    ∃ tail, closingText (a :: more) rest = a.render.toList ++ tail ∧ Token.Delimited tail ∧
      Token.lexFrom .idle tail = Token.lexFrom .idle (closingText more rest) := by
  by_cases hmore : more = []
  · refine ⟨')' :: rest, ?_, delimited_closing rest, ?_⟩
    · simp [closingText, hmore]
    · simp [closingText, hmore]
  · obtain ⟨b, more, rfl⟩ := List.exists_cons_of_ne_nil hmore
    refine ⟨' ' :: closingText (b :: more) rest, ?_, delimited_blank _, Token.lexFrom_blank _⟩
    simp [closingText, String.intercalate_cons_cons]

/-! ### Simple operators are read back -/

open Token in
/-- The text of a tree gives the tokens of its form, whatever delimited text follows. -/
def ReadsBack (e : SExpr) : Prop :=
  ∀ rest : List Char, Delimited rest →
    lexFrom .idle (e.render.toList ++ rest) = (lexFrom .idle rest).map (e.toForm.tokens ++ ·)

open Token in
theorem arguments_readBack {arguments : List SExpr} (hargs : ∀ a ∈ arguments, a.ReadsBack)
    (rest : List Char) :
    lexFrom .idle (closingText arguments rest)
      = (lexFrom .idle rest).map (Form.tokensAll (toForms arguments) ++ .closing :: ·) := by
  induction arguments with
  | nil => exact lexFrom_closingText_nil rest
  | cons a more ih =>
      obtain ⟨tail, htext, htail, hlex⟩ := closingText_cons a more rest
      have ha : a.ReadsBack := hargs a (by simp)
      have hmore := ih fun x hx => hargs x (by simp [hx])
      rw [htext, ha tail htail, hlex, hmore, Option.map_map]
      simp [toForms, Form.tokensAll, Function.comp_def]

open Token in
/-- **A proper tree with simple operators is read back.** -/
theorem readsBack {e : SExpr} (he : e.Proper) :
    (∀ op ∈ e.operators, isSimple op = true) → e.ReadsBack := by
  induction he with
  | @symbol name hname =>
      intro _ rest hrest
      rw [render, lexFrom_symbol hname hrest]
      rfl
  | numeral value =>
      intro _ rest hrest
      rw [render, lexFrom_numeral value hrest]
      rfl
  | @app operator arguments hne hargs ih =>
      intro hops rest _
      have hback : ∀ a ∈ arguments, a.ReadsBack := by
        intro a ha
        exact ih a ha fun op hop => hops op (mem_operators_app ha hop)
      have hop : isSimple operator = true := hops operator (by simp [operators])
      rw [(Proper.app operator hne hargs).render_app, lexFrom_opening,
        lexFrom_simple hop (delimited_blank _), lexFrom_blank, arguments_readBack hback rest,
        Option.map_map, Option.map_map]
      simp [toForm, Form.tokens, Form.tokensAll, Function.comp_def]

theorem ReadsBack.readAll_render {e : SExpr} (h : e.ReadsBack) :
    Form.readAll e.render = some [e.toForm] := by
  have hdelimited : Token.Delimited [] := by simp [Token.Delimited]
  have htokens := h [] hdelimited
  rw [List.append_nil] at htokens
  rw [Form.readAll_eq_some_iff, Form.tokensAll_singleton, Token.lex, htokens]
  simp [Token.lexFrom, Token.finish]

theorem ReadsBack.reads_line {e : SExpr} (h : e.ReadsBack) :
    Form.Reads (e.render ++ "\n") [e.toForm] := by
  intro rest
  have htext : (e.render ++ "\n").toList ++ rest = e.render.toList ++ '\n' :: rest := by simp
  rw [htext, h _ (Token.delimited_cons (by decide) rest), Token.lexFrom_newline,
    Form.tokensAll_singleton]

/-! ### What is read back has simple operators -/

open Token in
/-- What the converse asks of a tree: tokens of its form only come from simple operators. -/
def Faithful (e : SExpr) : Prop :=
  ∀ (rest : List Char) (ts : List Token), Delimited rest →
    lexFrom .idle (e.render.toList ++ rest) = some (e.toForm.tokens ++ ts) →
      (∀ op ∈ e.operators, isSimple op = true) ∧ lexFrom .idle rest = some ts

theorem rest_of_map_cons {o : Option (List Token)} {t u : Token} {ts : List Token}
    (h : o.map (t :: ·) = some (u :: ts)) : t = u ∧ o = some ts := by
  obtain ⟨more, ho, heq⟩ := Option.map_eq_some_iff.mp h
  obtain ⟨hfirst, hmore⟩ := List.cons.inj heq
  exact ⟨hfirst, by rw [ho, hmore]⟩

open Token in
/--
Arguments never give their own tokens behind one more name.  The name would have to come
from the first argument, so it would be that argument's, and the argument's own token
would have to come from the next one.
-/
theorem no_symbol_before_arguments {arguments : List SExpr}
    (hargs : ∀ a ∈ arguments, a.Proper) (m : String) (rest : List Char) (ts : List Token) :
    lexFrom .idle (closingText arguments rest)
      ≠ some (.symbol m :: (Form.tokensAll (toForms arguments) ++ .closing :: ts)) := by
  -- the name changes from one argument to the next, so the induction is for all names
  induction arguments generalizing m with
  | nil =>
      intro h
      rw [lexFrom_closingText_nil] at h
      exact Token.noConfusion (rest_of_map_cons h).1
  | cons a more ih =>
      intro h
      obtain ⟨tail, htext, htail, hlex⟩ := closingText_cons a more rest
      rw [htext] at h
      cases hargs a (by simp) with
      | @symbol name hname =>
          rw [render, lexFrom_symbol hname htail, hlex] at h
          exact ih (fun x hx => hargs x (by simp [hx])) name (rest_of_map_cons h).2
      | numeral value =>
          rw [render, lexFrom_numeral value htail] at h
          exact Token.noConfusion (rest_of_map_cons h).1
      | app operator hne hargs' =>
          rw [(Proper.app operator hne hargs').render_app, lexFrom_opening] at h
          exact Token.noConfusion (rest_of_map_cons h).1

open Token in
theorem arguments_faithful {arguments : List SExpr} (hargs : ∀ a ∈ arguments, a.Faithful)
    {rest : List Char} {ts : List Token}
    (h : lexFrom .idle (closingText arguments rest)
      = some (Form.tokensAll (toForms arguments) ++ .closing :: ts)) :
    (∀ op ∈ operatorsAll arguments, isSimple op = true) ∧ lexFrom .idle rest = some ts := by
  induction arguments with
  | nil =>
      rw [lexFrom_closingText_nil] at h
      exact ⟨by simp [operatorsAll], (rest_of_map_cons h).2⟩
  | cons a more ih =>
      obtain ⟨tail, htext, htail, htailLex⟩ := closingText_cons a more rest
      rw [htext, toForms, Form.tokensAll, List.append_assoc] at h
      obtain ⟨hops, hlex⟩ := hargs a (by simp) tail _ htail h
      rw [htailLex] at hlex
      obtain ⟨hmore, hrest⟩ := ih (fun x hx => hargs x (by simp [hx])) hlex
      refine ⟨?_, hrest⟩
      intro op hop
      rw [operatorsAll, List.mem_append] at hop
      exact hop.elim (hops op) (hmore op)

open Token in
/--
An operator whose token comes first behind its bracket is a simple symbol, or its text
is blank and the token comes from what follows.
-/
theorem operator_simple_or_blank {operator : String} {rest : List Char} {ts : List Token}
    (h : lexFrom .idle (operator.toList ++ ' ' :: rest) = some (.symbol operator :: ts)) :
    isSimple operator = true ∨ lexFrom .idle rest = some (.symbol operator :: ts) := by
  rcases symbol_of_lexFrom h with hsimple | ⟨hbar, tail, htail⟩
  · exact Or.inl hsimple
  refine Or.inr ?_
  have hblank : ∀ w : List Char, '|' ∉ w → (w ++ ' ' :: rest).dropWhile isSpace = '|' :: tail →
      lexFrom .idle (w ++ ' ' :: rest) = lexFrom .idle rest := by
    intro w hw hdrop
    induction w with
    | nil => exact lexFrom_blank rest
    | cons c w ih =>
        by_cases hc : isSpace c = true
        · rw [List.cons_append, List.dropWhile_cons_of_pos hc] at hdrop
          rw [List.cons_append, lexFrom_space hc]
          exact ih (fun hmem => hw (List.mem_cons_of_mem _ hmem)) hdrop
        · rw [List.cons_append, List.dropWhile_cons_of_neg hc, List.cons.injEq] at hdrop
          exact absurd (by rw [hdrop.1]; simp) hw
  rw [← hblank operator.toList hbar htail]
  exact h

open Token in
/-- **Only simple operators are read back.** -/
theorem simple_of_reads {e : SExpr} (he : e.Proper) : e.Faithful := by
  induction he with
  | @symbol name hname =>
      intro rest ts hrest h
      rw [render, lexFrom_symbol hname hrest] at h
      exact ⟨by simp [operators], (rest_of_map_cons h).2⟩
  | numeral value =>
      intro rest ts hrest h
      rw [render, lexFrom_numeral value hrest] at h
      exact ⟨by simp [operators], (rest_of_map_cons h).2⟩
  | @app operator arguments hne hargs ih =>
      intro rest ts _ h
      rw [(Proper.app operator hne hargs).render_app, lexFrom_opening] at h
      have hlex : lexFrom .idle (operator.toList ++ ' ' :: closingText arguments rest)
          = some (.symbol operator :: (Form.tokensAll (toForms arguments) ++ .closing :: ts)) := by
        simpa [toForm, Form.tokens, Form.tokensAll] using (rest_of_map_cons h).2
      rcases operator_simple_or_blank hlex with hop | hshift
      · rw [lexFrom_simple hop (delimited_blank _), lexFrom_blank] at hlex
        obtain ⟨hops, hrest⟩ := arguments_faithful ih (rest_of_map_cons hlex).2
        refine ⟨?_, hrest⟩
        intro op hmem
        rw [operators, List.mem_cons] at hmem
        rcases hmem with rfl | hmem
        · exact hop
        · exact hops op hmem
      · exact absurd hshift (no_symbol_before_arguments hargs operator rest ts)

/--
**A proper tree on a line of its own is read back exactly when its operators are simple.**
-/
theorem Proper.readAll_line_iff {e : SExpr} (he : e.Proper) :
    Form.readAll (e.render ++ "\n") = some [e.toForm] ↔
      ∀ op ∈ e.operators, isSimple op = true := by
  constructor
  · intro h
    have hlex : Token.lexFrom .idle (e.render.toList ++ ['\n'])
        = some (e.toForm.tokens ++ []) := by
      have := Form.readAll_eq_some_iff.mp h
      rw [Form.tokensAll_singleton] at this
      simpa [Token.lex] using this
    exact (simple_of_reads he _ _ (Token.delimited_cons (by decide) []) hlex).1
  · intro hops
    exact (readsBack he hops).reads_line.readAll_eq

end SExpr

end TheoryScript.Smt
