/-
Names are told apart and read back.

A name is written bare or between bars, and a bare name holds no bar.  So the two ways of
writing never meet, and no two names have one text, whatever characters they hold.

A lexer of the standard makes one symbol of that text.  Between bars it is the work of the
second bar; a bare name is a word and ends where something comes that no word can hold.  A
blank or a bracket is enough, and what stands behind it has no say: the symbol is complete
before it is read.  But a word may be reserved, and the names of the commands are written bare
although they are.  So a name that can be declared is read back exactly when it is none of them.
-/
import TheoryScript.Proofs.Accepted
import TheoryScript.Proofs.Smt.Reserved

namespace TheoryScript.Smt

/-! ### Two ways of writing -/

/-- A lexical unit of the standard. -/
inductive Lexeme where
  /-- A word with a role of its own, which is no symbol. -/
  | reserved (word : String)
  /-- Any other token. -/
  | token (t : Token)
  deriving DecidableEq, Repr

/-- What a token is to the standard, by the mode that it ends in: a bare word may be reserved. -/
def Lexeme.ofToken : Token.Mode → Token → Lexeme
  | .word _, .symbol name =>
      if name ∈ standardWords then .reserved name else .token (.symbol name)
  | _, t => .token t

namespace Token

/-- The lexemes of a text that is entered in a mode. -/
def lexemesFrom : Mode → List Char → Option (List Lexeme)
  | mode, [] => (finish mode).map (List.map (Lexeme.ofToken mode))
  | mode, c :: rest =>
      match step mode c with
      | none => none
      | some (ts, next) => (lexemesFrom next rest).map (ts.map (Lexeme.ofToken mode) ++ ·)

/-- The token of a lexeme for a reader that has no reserved words. -/
def ofLexeme : Lexeme → Token
  | .reserved word => .symbol word
  | .token t => t

theorem ofLexeme_ofToken (mode : Mode) (t : Token) : ofLexeme (Lexeme.ofToken mode t) = t := by
  unfold Lexeme.ofToken
  split
  · split
    · rfl
    · rfl
  · rfl

/-- Reserved words apart, the standard has the tokens of the reader of forms. -/
theorem lexFrom_eq_lexemesFrom (mode : Mode) (text : List Char) :
    lexFrom mode text = (lexemesFrom mode text).map (List.map ofLexeme) := by
  have hback : ∀ mode, ofLexeme ∘ Lexeme.ofToken mode = id := by
    intro mode
    funext t
    exact ofLexeme_ofToken mode t
  induction text generalizing mode with
  | nil =>
      rw [lexFrom, lexemesFrom, Option.map_map]
      cases finish mode with
      | none => rfl
      | some ts => simp [hback]
  | cons c rest ih =>
      rw [lexFrom, lexemesFrom]
      cases step mode c with
      | none => rfl
      | some next =>
          simp only [ih next.2, Option.map_map]
          cases lexemesFrom next.2 rest with
          | none => rfl
          | some more => simp [hback]

end Token

end TheoryScript.Smt
