/-
Names that are written bare.

The standard says which names may stand bare: simple symbols, described here by the
characters that they hold, other than its reserved words.  These are a few general words and
the names of the commands.  A name is written bare when it is a simple symbol and none of the
general words (`symbol_eq_self_iff`), so all that is written bare is legal except for the
names of commands, and those are all written bare.
-/
import TheoryScript.Proofs.Smt.Token

namespace TheoryScript.Smt

/-! ### Simple symbols -/

/-- The marks that the standard allows in simple symbols. -/
def standardMarks : List Char :=
  ['~', '!', '@', '$', '%', '^', '&', '*', '_', '-', '+', '=', '<', '>', '.', '?', '/']

/-- The letters, digits and marks of the standard's simple symbols. -/
def IsSymbolCharacter (c : Char) : Prop :=
  ('a' ≤ c ∧ c ≤ 'z') ∨ ('A' ≤ c ∧ c ≤ 'Z') ∨ ('0' ≤ c ∧ c ≤ '9') ∨ c ∈ standardMarks

/-- A simple symbol of the standard, reserved or not. -/
structure SimpleSymbol (name : String) : Prop where
  /-- There is a character. -/
  nonempty : name ≠ ""
  /-- There are no characters but letters, digits and marks. -/
  characters : ∀ c ∈ name.toList, IsSymbolCharacter c
  /-- The first character is no digit. -/
  start : ∀ c ∈ name.toList.head?, ¬('0' ≤ c ∧ c ≤ '9')

theorem isDigit_iff {c : Char} : c.isDigit = true ↔ '0' ≤ c ∧ c ≤ '9' := by
  show (decide ('0' ≤ c) && decide (c ≤ '9')) = true ↔ _
  rw [Bool.and_eq_true, decide_eq_true_eq, decide_eq_true_eq]

theorem isAlpha_iff {c : Char} :
    c.isAlpha = true ↔ ('a' ≤ c ∧ c ≤ 'z') ∨ ('A' ≤ c ∧ c ≤ 'Z') := by
  have hlower : c.isLower = true ↔ 'a' ≤ c ∧ c ≤ 'z' := by
    show (decide ('a' ≤ c) && decide (c ≤ 'z')) = true ↔ _
    rw [Bool.and_eq_true, decide_eq_true_eq, decide_eq_true_eq]
  have hupper : c.isUpper = true ↔ 'A' ≤ c ∧ c ≤ 'Z' := decide_eq_true_iff
  show (c.isUpper || c.isLower) = true ↔ _
  rw [Bool.or_eq_true, hlower, hupper, or_comm]

theorem mem_symbolMarks_iff {c : Char} : c ∈ symbolMarks ↔ c ∈ standardMarks := by
  have hperm : symbolMarks.Perm standardMarks := by decide
  exact hperm.mem_iff

theorem isSymbolChar_iff {c : Char} : isSymbolChar c = true ↔ IsSymbolCharacter c := by
  simp only [isSymbolChar, isSymbolStart, Bool.or_eq_true, List.contains_iff_mem, isAlpha_iff,
    isDigit_iff, mem_symbolMarks_iff, IsSymbolCharacter, or_assoc]
  rw [or_comm (a := c ∈ _)]

theorem isSymbolStart_iff {c : Char} :
    isSymbolStart c = true ↔ IsSymbolCharacter c ∧ ¬('0' ≤ c ∧ c ≤ '9') := by
  rw [← isSymbolChar_iff, ← isDigit_iff, isSymbolChar, Bool.or_eq_true]
  constructor
  · intro hstart
    exact ⟨Or.inl hstart, by simp [Token.not_isDigit_of_isSymbolStart hstart]⟩
  · rintro ⟨hstart | hdigit, hnot⟩
    · exact hstart
    · exact absurd hdigit hnot

/-- **The names of simple form are the simple symbols of the standard.** -/
theorem isSimple_iff_simpleSymbol {name : String} : isSimple name = true ↔ SimpleSymbol name := by
  rw [Token.isSimple_iff]
  constructor
  · rintro ⟨c, w, hname, hc, hw⟩
    obtain ⟨hfirst, hdigit⟩ := isSymbolStart_iff.mp hc
    refine ⟨?_, ?_, ?_⟩
    · rintro rfl
      simp at hname
    · rw [hname, List.forall_mem_cons]
      exact ⟨hfirst, fun d hd => isSymbolChar_iff.mp (hw d hd)⟩
    · simpa [hname] using hdigit
  · intro h
    obtain ⟨c, w, hname⟩ : ∃ c w, name.toList = c :: w :=
      List.exists_cons_of_ne_nil (mt String.toList_eq_nil_iff.mp h.nonempty)
    obtain ⟨hfirst, hrest⟩ := List.forall_mem_cons.mp (hname ▸ h.characters)
    refine ⟨c, w, hname, isSymbolStart_iff.mpr ⟨hfirst, h.start c ?_⟩, fun d hd => ?_⟩
    · simp [hname]
    · exact isSymbolChar_iff.mpr (hrest d hd)

/-! ### Reserved words -/

/-- The reserved words of the standard that name no command. -/
def generalWords : List String :=
  ["_", "!", "as", "let", "exists", "forall", "match", "par", "BINARY", "DECIMAL", "HEXADECIMAL",
    "NUMERAL", "STRING"]

/-- The names of the standard's commands, which are reserved too. -/
def commandNames : List String :=
  ["assert", "check-sat", "check-sat-assuming", "declare-const", "declare-datatype",
    "declare-datatypes", "declare-fun", "declare-sort", "define-fun", "define-fun-rec",
    "define-funs-rec", "define-sort", "echo", "exit", "get-assertions", "get-assignment",
    "get-info", "get-model", "get-option", "get-proof", "get-unsat-assumptions",
    "get-unsat-core", "get-value", "pop", "push", "reset", "reset-assertions", "set-info",
    "set-logic", "set-option"]

/-- The reserved words of the standard. -/
def standardWords : List String :=
  generalWords ++ commandNames

theorem mem_reservedWords_iff {name : String} : name ∈ reservedWords ↔ name ∈ generalWords := by
  have hperm : reservedWords.Perm generalWords := by decide
  exact hperm.mem_iff

/-- A name is never the same with bars around it. -/
theorem bars_ne_self (name : String) : "|" ++ name ++ "|" ≠ name := by
  intro h
  have hlength := congrArg String.length h
  simp only [String.length_append] at hlength
  have hbar : "|".length = 1 := rfl
  omega

/-- **A name is written bare when it is a simple symbol and none of the general words.** -/
theorem symbol_eq_self_iff {name : String} :
    symbol name = name ↔ SimpleSymbol name ∧ name ∉ generalWords := by
  rw [← isSimple_iff_simpleSymbol, ← mem_reservedWords_iff]
  unfold symbol
  by_cases hbare : (isSimple name && !reservedWords.contains name) = true
  · rw [if_pos hbare]
    simpa using hbare
  · rw [if_neg hbare]
    refine ⟨fun h => absurd h (bars_ne_self name), fun h => absurd ?_ hbare⟩
    simpa using h

/--
**What is written bare is legal, unless it is the name of a command.**  A bare name is a
simple symbol of the standard and none of its reserved words exactly when it is not one of
the commands' names.
-/
theorem bare_symbol_is_legal_iff_no_command {name : String} (hbare : symbol name = name) :
    SimpleSymbol name ∧ name ∉ standardWords ↔ name ∉ commandNames := by
  obtain ⟨hsimple, hgeneral⟩ := symbol_eq_self_iff.mp hbare
  rw [standardWords, List.mem_append]
  constructor
  · rintro ⟨-, hword⟩ hcommand
    exact hword (Or.inr hcommand)
  · rintro hcommand
    exact ⟨hsimple, not_or.mpr ⟨hgeneral, hcommand⟩⟩

theorem name_like_a_command_is_legal :
    symbol "get-value?" = "get-value?" ∧
      SimpleSymbol "get-value?" ∧ "get-value?" ∉ standardWords := by
  have hbare : symbol "get-value?" = "get-value?" := by decide
  have hcommand : "get-value?" ∉ commandNames := by decide
  exact ⟨hbare, (bare_symbol_is_legal_iff_no_command hbare).mpr hcommand⟩

/-- The names of commands can be declared, and they are all written bare. -/
theorem command_is_bare {name : String} (h : name ∈ commandNames) :
    symbolFault? name = none ∧ symbol name = name := by
  have hall : ∀ command ∈ commandNames, symbolFault? command = none ∧ symbol command = command := by
    decide +kernel
  exact hall name h

/-- One of the reserved words passes the check and has no bars around it. -/
theorem assert_is_written_bare :
    symbolFault? "assert" = none ∧ symbol "assert" = "assert" ∧
      ¬(SimpleSymbol "assert" ∧ "assert" ∉ standardWords) := by
  have hcommand : "assert" ∈ commandNames := by decide
  have hword : "assert" ∈ standardWords := List.mem_append_right _ hcommand
  obtain ⟨hvalid, hbare⟩ := command_is_bare hcommand
  exact ⟨hvalid, hbare, fun hlegal => hlegal.2 hword⟩

end TheoryScript.Smt
