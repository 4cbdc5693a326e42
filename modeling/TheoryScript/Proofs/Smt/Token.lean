/-
Cutting a script into tokens.

Whether the text of a script says what it should is a question about its reader, so the
reader comes first.  It goes over the characters once, in a mode that remembers the token
it is inside of; a word ends where a character comes that no word can hold.

Two facts are read off.  A name that can stand between bars, written as a symbol, gives
one token with that name, whatever it holds and whatever follows it.  The other way
round, a token with a name is either a simple symbol or comes from a text that starts,
blanks aside, with a bar.
-/
import TheoryScript.Smt.SExpr

namespace TheoryScript.Smt

/-! ### Tokens -/

/-- A lexical unit of a script. -/
inductive Token where
  /-- The bracket that opens a list. -/
  | opening
  /-- The bracket that closes a list. -/
  | closing
  /-- A natural number. -/
  | numeral (value : Nat)
  /-- A name, bare or between bars; the bars are no part of it. -/
  | symbol (name : String)
  /-- A name behind a colon. -/
  | keyword (name : String)
  /-- A text between quotes. -/
  | literal (text : String)
  /-- A comment to the end of its line. -/
  | comment
  deriving DecidableEq, Repr

namespace Token

/-- The characters that only separate tokens. -/
def isSpace (c : Char) : Bool :=
  c = ' ' || c = '\t' || c = '\n' || c = '\r'

/-- The characters of numerals, bare symbols and keywords. -/
def isWordChar (c : Char) : Bool :=
  isSymbolChar c || c = ':'

/-- Decimal digits without a superfluous zero in front. -/
def isNumeral (word : List Char) : Bool :=
  word.all Char.isDigit && (word.head? != some '0' || word.length = 1)

/-- The token that a word is, if it is one. -/
def ofWord? (word : List Char) : Option Token :=
  if isNumeral word then some (.numeral (Nat.ofDigitChars 10 word 0))
  else if isSimple (String.ofList word) then some (.symbol (String.ofList word))
  else if word.head? = some ':' && isSimple (String.ofList word.tail) then
    some (.keyword (String.ofList word.tail))
  else none

/-! ### Reading characters -/

/-- What the reader is inside of, and the characters of it seen so far. -/
inductive Mode where
  /-- Between two tokens. -/
  | idle
  /-- A word. -/
  | word (seen : List Char)
  /-- A symbol between bars. -/
  | bars (seen : List Char)
  /-- A text between quotes. -/
  | quotes (seen : List Char)
  /-- Behind a quote, which ends the text unless another quote follows. -/
  | quoted (seen : List Char)
  /-- A comment. -/
  | comment

/-- The first character of a token, or one between tokens. -/
def enter (c : Char) : Option (List Token × Mode) :=
  if c = '(' then some ([.opening], .idle)
  else if c = ')' then some ([.closing], .idle)
  else if isSpace c then some ([], .idle)
  else if c = '|' then some ([], .bars [])
  else if c = '"' then some ([], .quotes [])
  else if c = ';' then some ([], .comment)
  else if isWordChar c then some ([], .word [c])
  else none

/-- Tokens that were complete before the next character is entered. -/
def enterAfter (done : Token) (c : Char) : Option (List Token × Mode) :=
  (enter c).map fun (tokens, mode) => (done :: tokens, mode)

/-- One character: the tokens that it completes, and the mode behind it. -/
def step : Mode → Char → Option (List Token × Mode)
  | .idle, c => enter c
  | .word seen, c =>
      if isWordChar c then some ([], .word (seen ++ [c]))
      else (ofWord? seen).bind (enterAfter · c)
  | .bars seen, c =>
      if c = '|' then some ([.symbol (String.ofList seen)], .idle)
      else if c = '\\' then none
      else some ([], .bars (seen ++ [c]))
  | .quotes seen, c =>
      if c = '"' then some ([], .quoted seen) else some ([], .quotes (seen ++ [c]))
  | .quoted seen, c =>
      if c = '"' then some ([], .quotes (seen ++ ['"']))
      else enterAfter (.literal (String.ofList seen)) c
  | .comment, c => if c = '\n' then some ([.comment], .idle) else some ([], .comment)

/-- The token that the end of the text completes. -/
def finish : Mode → Option (List Token)
  | .idle => some []
  | .word seen => (ofWord? seen).map ([·])
  | .bars _ => none
  | .quotes _ => none
  | .quoted seen => some [.literal (String.ofList seen)]
  | .comment => some [.comment]

/-- The tokens of a text that is entered in a mode. -/
def lexFrom : Mode → List Char → Option (List Token)
  | mode, [] => finish mode
  | mode, c :: rest =>
      match step mode c with
      | none => none
      | some (tokens, next) => (lexFrom next rest).map (tokens ++ ·)

/-- The tokens of a whole text, if it has no character out of place. -/
def lex (text : List Char) : Option (List Token) :=
  lexFrom .idle text

/-! ### Brackets and blanks -/

@[simp] theorem lexFrom_opening (rest : List Char) :
    lexFrom .idle ('(' :: rest) = (lexFrom .idle rest).map (.opening :: ·) := by
  simp [lexFrom, step, enter]

@[simp] theorem lexFrom_closing (rest : List Char) :
    lexFrom .idle (')' :: rest) = (lexFrom .idle rest).map (.closing :: ·) := by
  simp [lexFrom, step, enter]

theorem lexFrom_space {c : Char} (hc : isSpace c = true) (rest : List Char) :
    lexFrom .idle (c :: rest) = lexFrom .idle rest := by
  have hopen : c ≠ '(' := by rintro rfl; simp [isSpace] at hc
  have hclose : c ≠ ')' := by rintro rfl; simp [isSpace] at hc
  simp [lexFrom, step, enter, hopen, hclose, hc]

@[simp] theorem lexFrom_blank (rest : List Char) :
    lexFrom .idle (' ' :: rest) = lexFrom .idle rest :=
  lexFrom_space (by decide) rest

@[simp] theorem lexFrom_newline (rest : List Char) :
    lexFrom .idle ('\n' :: rest) = lexFrom .idle rest :=
  lexFrom_space (by decide) rest

/-! ### Words -/

/-- A text that no word before it can run into. -/
def Delimited (rest : List Char) : Prop :=
  ∀ c ∈ rest.head?, isWordChar c = false

theorem delimited_cons {c : Char} (hc : isWordChar c = false) (rest : List Char) :
    Delimited (c :: rest) := by
  intro d hd
  rw [List.head?_cons, Option.mem_some_iff] at hd
  rw [← hd]
  exact hc

theorem isWordChar_of_isSymbolChar {c : Char} (hc : isSymbolChar c = true) :
    isWordChar c = true := by
  rw [isWordChar, hc, Bool.true_or]

theorem isSymbolChar_of_isDigit {c : Char} (hc : c.isDigit = true) : isSymbolChar c = true := by
  rw [isSymbolChar, hc, Bool.or_true]

/-- A character of a word starts one when it is found between tokens. -/
theorem enter_wordChar {c : Char} (hc : isWordChar c = true) : enter c = some ([], .word [c]) := by
  have hne : ∀ d : Char, isWordChar d = false → c ≠ d := by
    intro d hd hcd
    rw [hcd, hd] at hc
    exact Bool.noConfusion hc
  have hspace : isSpace c = false := by
    rw [Bool.eq_false_iff]
    intro h
    simp only [isSpace, Bool.or_eq_true, decide_eq_true_eq] at h
    rcases h with ((h | h) | h) | h
    · exact hne ' ' (by decide) h
    · exact hne '\t' (by decide) h
    · exact hne '\n' (by decide) h
    · exact hne '\r' (by decide) h
  simp [enter, hspace, hc, hne '(' (by decide), hne ')' (by decide), hne '|' (by decide),
    hne '"' (by decide), hne ';' (by decide)]

theorem lexFrom_word_append (w rest : List Char) (hw : ∀ c ∈ w, isWordChar c = true) :
    ∀ seen : List Char, lexFrom (.word seen) (w ++ rest) = lexFrom (.word (seen ++ w)) rest := by
  induction w with
  | nil => intro seen; simp
  | cons c w ih =>
      intro seen
      have hc : isWordChar c = true := hw c (by simp)
      have htail : ∀ d ∈ w, isWordChar d = true := fun d hd => hw d (by simp [hd])
      have hstep : lexFrom (.word seen) (c :: (w ++ rest))
          = lexFrom (.word (seen ++ [c])) (w ++ rest) := by
        simp [lexFrom, step, hc]
      rw [List.cons_append, hstep, ih htail]
      simp

/-- A word that is a token ends at a delimiter, and the text goes on between tokens. -/
theorem lexFrom_word_end {w rest : List Char} {t : Token} (hw : ofWord? w = some t)
    (hrest : Delimited rest) :
    lexFrom (.word w) rest = (lexFrom .idle rest).map (t :: ·) := by
  cases rest with
  | nil => simp [lexFrom, finish, hw]
  | cons c rest =>
      have hc : isWordChar c = false := hrest c (by simp)
      cases henter : enter c with
      | none => simp [lexFrom, step, hc, hw, enterAfter, henter]
      | some next => simp [lexFrom, step, hc, hw, enterAfter, henter, Function.comp_def]

theorem lexFrom_word {c : Char} {w rest : List Char} {t : Token}
    (hw : ∀ d ∈ c :: w, isWordChar d = true) (ht : ofWord? (c :: w) = some t)
    (hrest : Delimited rest) :
    lexFrom .idle (c :: w ++ rest) = (lexFrom .idle rest).map (t :: ·) := by
  have hstart : lexFrom .idle (c :: w ++ rest) = lexFrom (.word [c]) (w ++ rest) := by
    simp [lexFrom, step, enter_wordChar (hw c (by simp))]
  rw [hstart, lexFrom_word_append w rest (fun d hd => hw d (by simp [hd])) [c]]
  exact lexFrom_word_end ht hrest

/-! ### Symbols and numerals -/

theorem isSimple_iff {name : String} :
    isSimple name = true ↔
      ∃ c w, name.toList = c :: w ∧ isSymbolStart c = true ∧ ∀ d ∈ w, isSymbolChar d = true := by
  unfold isSimple
  cases name.toList with
  | nil => simp
  | cons c w =>
      constructor
      · intro h
        obtain ⟨hc, hw⟩ := Bool.and_eq_true_iff.mp h
        exact ⟨c, w, rfl, hc, List.all_eq_true.mp hw⟩
      · rintro ⟨c', w', heq, hc, hw⟩
        obtain ⟨rfl, rfl⟩ := List.cons.inj heq
        exact Bool.and_eq_true_iff.mpr ⟨hc, List.all_eq_true.mpr hw⟩

theorem not_isDigit_of_isSymbolStart {c : Char} (hc : isSymbolStart c = true) :
    c.isDigit = false := by
  have hmarks : symbolMarks.all (!·.isDigit) = true := by decide
  rw [Bool.eq_false_iff]
  intro hd
  simp only [isSymbolStart, Bool.or_eq_true] at hc
  rcases hc with hc | hc
  · have hletter : (decide (c.val ≥ 'A'.val ∧ c.val ≤ 'Z'.val) ||
        (decide (c.val ≥ 'a'.val) && decide (c.val ≤ 'z'.val))) = true := hc
    have hdigit := Char.isDigit_iff_toNat.mp hd
    simp only [Bool.or_eq_true, Bool.and_eq_true, decide_eq_true_eq, ge_iff_le,
      UInt32.le_iff_toNat_le] at hletter
    change 48 ≤ c.val.toNat ∧ c.val.toNat ≤ 57 at hdigit
    change (65 ≤ c.val.toNat ∧ c.val.toNat ≤ 90) ∨ 97 ≤ c.val.toNat ∧ c.val.toNat ≤ 122 at hletter
    omega
  · have hmark := List.all_eq_true.mp hmarks c (by simpa using hc)
    rw [hd] at hmark
    exact Bool.noConfusion hmark

theorem isWordChar_of_isSimple {name : String} (hname : isSimple name = true) :
    ∀ c ∈ name.toList, isWordChar c = true := by
  obtain ⟨c, w, hlist, hc, hw⟩ := isSimple_iff.mp hname
  rw [hlist]
  intro d hd
  rcases List.mem_cons.mp hd with rfl | hd
  · exact isWordChar_of_isSymbolChar (by rw [isSymbolChar, hc, Bool.true_or])
  · exact isWordChar_of_isSymbolChar (hw d hd)

theorem ofWord?_of_isSimple {name : String} (hname : isSimple name = true) :
    ofWord? name.toList = some (.symbol name) := by
  obtain ⟨c, w, hlist, hc, -⟩ := isSimple_iff.mp hname
  have hnumeral : isNumeral name.toList = false := by
    simp [hlist, isNumeral, not_isDigit_of_isSymbolStart hc]
  rw [ofWord?, hnumeral, String.ofList_toList, hname]
  rfl

/-- A simple symbol that is written bare is one token. -/
theorem lexFrom_simple {name : String} (hname : isSimple name = true) {rest : List Char}
    (hrest : Delimited rest) :
    lexFrom .idle (name.toList ++ rest) = (lexFrom .idle rest).map (.symbol name :: ·) := by
  have hword := isWordChar_of_isSimple hname
  have htoken := ofWord?_of_isSimple hname
  obtain ⟨c, w, hlist, -, -⟩ := isSimple_iff.mp hname
  rw [hlist] at hword htoken ⊢
  exact lexFrom_word hword htoken hrest

theorem lexFrom_bars (w rest : List Char) (hw : ∀ c ∈ w, c ≠ '|' ∧ c ≠ '\\') :
    ∀ seen : List Char, lexFrom (.bars seen) (w ++ '|' :: rest)
      = (lexFrom .idle rest).map (.symbol (String.ofList (seen ++ w)) :: ·) := by
  induction w with
  | nil => intro seen; simp [lexFrom, step]
  | cons c w ih =>
      intro seen
      obtain ⟨hbar, hback⟩ := hw c (by simp)
      have hstep : lexFrom (.bars seen) (c :: (w ++ '|' :: rest))
          = lexFrom (.bars (seen ++ [c])) (w ++ '|' :: rest) := by
        simp [lexFrom, step, hbar, hback]
      rw [List.cons_append, hstep, ih (fun d hd => hw d (by simp [hd]))]
      simp

theorem isQuotable_iff {name : String} :
    isQuotable name = true ↔ ∀ c ∈ name.toList, c ≠ '|' ∧ c ≠ '\\' := by
  simp [isQuotable]

/--
**A name that can stand between bars is read back from its symbol.**  Nothing is asked
of the name's other characters, and of what follows only that no word runs into it.
-/
theorem lexFrom_symbol {name : String} (hname : isQuotable name = true) {rest : List Char}
    (hrest : Delimited rest) :
    lexFrom .idle ((Smt.symbol name).toList ++ rest)
      = (lexFrom .idle rest).map (.symbol name :: ·) := by
  unfold Smt.symbol
  split
  · rename_i hplain
    exact lexFrom_simple (Bool.and_eq_true_iff.mp hplain).1 hrest
  · have hbar : lexFrom .idle ('|' :: (name.toList ++ '|' :: rest))
        = lexFrom (.bars []) (name.toList ++ '|' :: rest) := by
      simp [lexFrom, step, enter, isSpace]
    have htext : ("|" ++ name ++ "|").toList ++ rest = '|' :: (name.toList ++ '|' :: rest) := by
      simp
    rw [htext, hbar, lexFrom_bars name.toList rest (isQuotable_iff.mp hname)]
    simp

theorem eq_zero_of_head_toDigits {n : Nat} (h : (Nat.toDigits 10 n).head? = some '0') :
    n = 0 := by
  induction n using Nat.strongRecOn with
  | _ n ih =>
      by_cases hn : n < 10
      · rw [Nat.toDigits_of_lt_base hn] at h
        simpa using h
      · -- the first digit is that of the number without its last digit
        have hpos : 0 < n / 10 := by omega
        obtain ⟨c, w, hlist⟩ := List.exists_cons_of_ne_nil
          (Nat.toDigits_ne_nil (n := n / 10) (b := 10))
        have hfirst : (Nat.toDigits 10 (n / 10)).head? = some '0' := by
          rw [Nat.toDigits_of_base_le (by decide) (by omega), hlist, List.cons_append,
            List.head?_cons] at h
          rw [hlist, List.head?_cons]
          exact h
        have hzero := ih (n / 10) (by omega) hfirst
        omega

/-- The decimal digits of a number have no superfluous zero in front. -/
theorem isNumeral_toDigits (n : Nat) : isNumeral (Nat.toDigits 10 n) = true := by
  have hdigits : (Nat.toDigits 10 n).all Char.isDigit = true := by
    rw [List.all_eq_true]
    intro c hc
    exact Nat.isDigit_of_mem_toDigits (by decide) (by decide) hc
  rw [isNumeral, hdigits, Bool.true_and]
  by_cases hzero : (Nat.toDigits 10 n).head? = some '0'
  · rw [eq_zero_of_head_toDigits hzero]
    decide
  · simp [hzero]

theorem lexFrom_numeral (n : Nat) {rest : List Char} (hrest : Delimited rest) :
    lexFrom .idle ((toString n).toList ++ rest)
      = (lexFrom .idle rest).map (.numeral n :: ·) := by
  have htext : (toString n).toList = Nat.toDigits 10 n := by
    rw [Nat.toString_eq_ofList_toDigits, String.toList_ofList]
  obtain ⟨c, w, hlist⟩ := List.exists_cons_of_ne_nil (Nat.toDigits_ne_nil (n := n) (b := 10))
  have hword : ∀ d ∈ c :: w, isWordChar d = true := by
    intro d hd
    have hdigit : d.isDigit = true :=
      Nat.isDigit_of_mem_toDigits (by decide) (by decide) (hlist ▸ hd)
    exact isWordChar_of_isSymbolChar (isSymbolChar_of_isDigit hdigit)
  have htoken : ofWord? (c :: w) = some (.numeral n) := by
    rw [← hlist, ofWord?, if_pos (isNumeral_toDigits n), Nat.ofDigitChars_ten_toDigits]
  rw [htext, hlist]
  exact lexFrom_word hword htoken hrest

/-! ### Where a token with a name comes from -/

theorem first_of_map_cons {o : Option (List Token)} {t u : Token} {before ts : List Token}
    (h : o.map (t :: before ++ ·) = some (u :: ts)) : t = u := by
  obtain ⟨more, -, heq⟩ := Option.map_eq_some_iff.mp h
  rw [List.cons_append] at heq
  exact (List.cons.inj heq).1

/-- The first token behind a word is the token that some word is. -/
theorem ofWord?_of_lexFrom_word {rest : List Char} {t : Token} {ts : List Token} :
    ∀ seen : List Char, lexFrom (.word seen) rest = some (t :: ts) → ∃ w, ofWord? w = some t := by
  induction rest with
  | nil =>
      intro seen h
      simp only [lexFrom, finish, Option.map_eq_some_iff] at h
      obtain ⟨t', ht', heq⟩ := h
      rw [List.cons.injEq] at heq
      exact ⟨seen, by rw [ht', heq.1]⟩
  | cons c rest ih =>
      intro seen h
      by_cases hc : isWordChar c = true
      · exact ih (seen ++ [c]) (by simpa [lexFrom, step, hc] using h)
      · cases hseen : ofWord? seen with
        | none => simp [lexFrom, step, hc, hseen] at h
        | some t' =>
            cases henter : enter c with
            | none => simp [lexFrom, step, hc, hseen, enterAfter, henter] at h
            | some next =>
                simp only [lexFrom, step, hc, hseen, enterAfter, henter] at h
                simp only [Bool.false_eq_true, if_false, Option.bind_some, Option.map_some] at h
                exact ⟨seen, by rw [hseen, first_of_map_cons h]⟩

/-- The first token behind a bar has a name without bars. -/
theorem no_bar_of_lexFrom_bars {rest : List Char} {m : String} {ts : List Token} :
    ∀ seen : List Char, '|' ∉ seen → lexFrom (.bars seen) rest = some (.symbol m :: ts) →
      '|' ∉ m.toList := by
  induction rest with
  | nil => intro seen _ h; simp [lexFrom, finish] at h
  | cons c rest ih =>
      intro seen hseen h
      by_cases hbar : c = '|'
      · simp only [lexFrom, step, hbar, if_true] at h
        have hname : String.ofList seen = m := Token.symbol.inj (first_of_map_cons h)
        rw [← hname, String.toList_ofList]
        exact hseen
      · by_cases hback : c = '\\'
        · simp [lexFrom, step, hback] at h
        · refine ih (seen ++ [c]) ?_ ?_
          · simp [hseen, Ne.symm hbar]
          · simpa [lexFrom, step, hbar, hback] using h

theorem literal_of_lexFrom_quotes {rest : List Char} {t : Token} {ts : List Token} :
    ∀ seen : List Char, (lexFrom (.quotes seen) rest = some (t :: ts) ∨
      lexFrom (.quoted seen) rest = some (t :: ts)) → ∃ text, t = .literal text := by
  induction rest with
  | nil =>
      intro seen h
      rcases h with h | h
      · simp [lexFrom, finish] at h
      · simp only [lexFrom, finish, Option.some.injEq, List.cons.injEq] at h
        exact ⟨_, h.1.symm⟩
  | cons c rest ih =>
      intro seen h
      by_cases hquote : c = '"'
      · rcases h with h | h
        · exact ih seen (Or.inr (by simpa [lexFrom, step, hquote] using h))
        · exact ih (seen ++ ['"']) (Or.inl (by simpa [lexFrom, step, hquote] using h))
      · rcases h with h | h
        · exact ih (seen ++ [c]) (Or.inl (by simpa [lexFrom, step, hquote] using h))
        · cases henter : enter c with
          | none => simp [lexFrom, step, hquote, enterAfter, henter] at h
          | some next =>
              simp only [lexFrom, step, hquote, if_false, enterAfter, henter, Option.map_some] at h
              exact ⟨_, (first_of_map_cons h).symm⟩

theorem comment_of_lexFrom_comment {rest : List Char} {t : Token} {ts : List Token}
    (h : lexFrom .comment rest = some (t :: ts)) : t = .comment := by
  induction rest with
  | nil =>
      simp only [lexFrom, finish, Option.some.injEq, List.cons.injEq] at h
      exact h.1.symm
  | cons c rest ih =>
      by_cases hc : c = '\n'
      · simp only [lexFrom, step, hc, if_true] at h
        exact (first_of_map_cons h).symm
      · exact ih (by simpa [lexFrom, step, hc] using h)

theorem isSimple_of_ofWord? {w : List Char} {m : String} (h : ofWord? w = some (.symbol m)) :
    isSimple m = true := by
  unfold ofWord? at h
  split at h
  · simp at h
  · split at h
    · rename_i hsimple
      rw [Option.some.injEq, Token.symbol.injEq] at h
      rw [← h]
      exact hsimple
    · split at h <;> simp at h

/--
**A token with a name is a simple symbol or stands between bars.**  In the second case
the text starts with a bar as soon as its blanks are gone, and the name has no bar.
-/
theorem symbol_of_lexFrom {text : List Char} {m : String} {ts : List Token}
    (h : lexFrom .idle text = some (.symbol m :: ts)) :
    isSimple m = true ∨
      ('|' ∉ m.toList ∧ ∃ rest, text.dropWhile isSpace = '|' :: rest) := by
  induction text with
  | nil => simp [lexFrom, finish] at h
  | cons c rest ih =>
      by_cases hspace : isSpace c = true
      · rw [lexFrom_space hspace] at h
        rw [List.dropWhile_cons_of_pos hspace]
        exact ih h
      rw [List.dropWhile_cons_of_neg hspace]
      -- of all characters that start something, only a bar and those of words start a name
      by_cases hopen : c = '('
      · subst hopen
        simp [Option.map_eq_some_iff] at h
      by_cases hclose : c = ')'
      · subst hclose
        simp [Option.map_eq_some_iff] at h
      by_cases hbar : c = '|'
      · subst hbar
        have hbars : lexFrom (.bars []) rest = some (.symbol m :: ts) := by
          simpa [lexFrom, step, enter, isSpace] using h
        exact Or.inr ⟨no_bar_of_lexFrom_bars [] (by simp) hbars, rest, rfl⟩
      by_cases hquote : c = '"'
      · have hquotes : lexFrom (.quotes []) rest = some (.symbol m :: ts) := by
          simpa [lexFrom, step, enter, hspace, hquote, isSpace] using h
        obtain ⟨text, htext⟩ := literal_of_lexFrom_quotes [] (Or.inl hquotes)
        simp at htext
      by_cases hsemi : c = ';'
      · have hcomment : lexFrom .comment rest = some (.symbol m :: ts) := by
          simpa [lexFrom, step, enter, hspace, hsemi, isSpace] using h
        have := comment_of_lexFrom_comment hcomment
        simp at this
      by_cases hword : isWordChar c = true
      · have hseen : lexFrom (.word [c]) rest = some (.symbol m :: ts) := by
          simpa [lexFrom, step, enter_wordChar hword] using h
        obtain ⟨w, hw⟩ := ofWord?_of_lexFrom_word [c] hseen
        exact Or.inl (isSimple_of_ofWord? hw)
      · simp [lexFrom, step, enter, hopen, hclose, hspace, hbar, hquote, hsemi, hword] at h

/-! ### Texts that end with a bracket -/

/-- The tokens that are complete at the end of a part of a text, and the mode behind it. -/
def run : Mode → List Char → Option (List Token × Mode)
  | mode, [] => some ([], mode)
  | mode, c :: rest =>
      match step mode c with
      | none => none
      | some (tokens, next) => (run next rest).map fun (more, last) => (tokens ++ more, last)

theorem lexFrom_append (mode : Mode) (w rest : List Char) :
    lexFrom mode (w ++ rest)
      = (run mode w).bind fun (ts, last) => (lexFrom last rest).map (ts ++ ·) := by
  induction w generalizing mode with
  | nil => simp [run]
  | cons c w ih =>
      rw [List.cons_append, lexFrom, run]
      cases step mode c with
      | none => rfl
      | some next =>
          simp only [ih next.2]
          cases run next.2 w with
          | none => rfl
          | some result => simp [Function.comp_def]

theorem lexFrom_of_run {mode last : Mode} {w : List Char} {ts : List Token}
    (h : run mode w = some (ts, last)) (rest : List Char) :
    lexFrom mode (w ++ rest) = (lexFrom last rest).map (ts ++ ·) := by
  rw [lexFrom_append, h, Option.bind_some]

theorem exists_run {mode : Mode} {w rest : List Char} {ts : List Token}
    (h : lexFrom mode (w ++ rest) = some ts) : ∃ before last, run mode w = some (before, last) := by
  cases hrun : run mode w with
  | none => simp [lexFrom_append, hrun] at h
  | some result => exact ⟨result.1, result.2, rfl⟩

/-- A closing bracket ends what no closing mark of its own has to end. -/
theorem mode_of_step_closing {mode last : Mode} {ts : List Token}
    (h : step mode ')' = some (ts, last)) :
    last = .idle ∨ (∃ seen, last = .bars seen) ∨ (∃ seen, last = .quotes seen) ∨
      last = .comment := by
  have hword : isWordChar ')' = false := by decide
  have hafter : ∀ t, enterAfter t ')' = some ([t, .closing], .idle) := fun _ => rfl
  cases mode with
  | idle =>
      obtain ⟨-, rfl⟩ := Prod.mk.inj (Option.some.inj h)
      exact Or.inl rfl
  | word seen =>
      cases hseen : ofWord? seen with
      | none => simp [step, hword, hseen] at h
      | some t =>
          simp only [step, hword, hseen, Option.bind_some, hafter] at h
          obtain ⟨-, rfl⟩ := Prod.mk.inj (Option.some.inj h)
          exact Or.inl rfl
  | bars seen =>
      obtain ⟨-, rfl⟩ := Prod.mk.inj (Option.some.inj h)
      exact Or.inr (Or.inl ⟨_, rfl⟩)
  | quotes seen =>
      obtain ⟨-, rfl⟩ := Prod.mk.inj (Option.some.inj h)
      exact Or.inr (Or.inr (Or.inl ⟨_, rfl⟩))
  | quoted seen =>
      obtain ⟨-, rfl⟩ := Prod.mk.inj (Option.some.inj h)
      exact Or.inl rfl
  | comment =>
      obtain ⟨-, rfl⟩ := Prod.mk.inj (Option.some.inj h)
      exact Or.inr (Or.inr (Or.inr rfl))

theorem mode_of_run_closing {w : List Char} {mode last : Mode} {ts : List Token}
    (h : run mode (w ++ [')']) = some (ts, last)) :
    last = .idle ∨ (∃ seen, last = .bars seen) ∨ (∃ seen, last = .quotes seen) ∨
      last = .comment := by
  induction w generalizing mode ts with
  | nil =>
      rw [List.nil_append, run] at h
      cases hstep : step mode ')' with
      | none => simp [hstep] at h
      | some next =>
          simp only [hstep, run, Option.map_some, Option.some.injEq, Prod.mk.injEq] at h
          rw [← h.2]
          exact mode_of_step_closing hstep
  | cons c w ih =>
      rw [List.cons_append, run] at h
      cases hstep : step mode c with
      | none => simp [hstep] at h
      | some next =>
          simp only [hstep, Option.map_eq_some_iff] at h
          obtain ⟨⟨more, final⟩, hrun, heq⟩ := h
          obtain ⟨-, rfl⟩ := Prod.mk.inj heq
          exact ih hrun

/-- **A text that ends with a bracket and has no comment is cut the same before any text.** -/
theorem lexFrom_closed {w : List Char} {ts : List Token} (hts : .comment ∉ ts)
    (h : lex (w ++ [')']) = some ts) (rest : List Char) :
    lexFrom .idle (w ++ [')'] ++ rest) = (lexFrom .idle rest).map (ts ++ ·) := by
  rw [lex, ← List.append_nil (w ++ [')'])] at h
  obtain ⟨before, last, hrun⟩ := exists_run h
  rw [lexFrom_of_run hrun] at h
  rw [lexFrom_of_run hrun]
  rcases mode_of_run_closing hrun with rfl | ⟨seen, rfl⟩ | ⟨seen, rfl⟩ | rfl
  · have hbefore : before = ts := by simpa [lexFrom, finish] using h
    rw [hbefore]
  · simp [lexFrom, finish] at h
  · simp [lexFrom, finish] at h
  · have hcomment : before ++ [.comment] = ts := by simpa [lexFrom, finish] using h
    exact absurd (by simp [← hcomment]) hts

/-- What two more brackets and a line break complete was complete without them. -/
theorem lex_of_closed {w : List Char} {ts : List Token}
    (h : lexFrom .idle (w ++ [')'] ++ [')', ')', '\n']) = some (ts ++ [.closing, .closing])) :
    lex (w ++ [')']) = some ts := by
  obtain ⟨before, last, hrun⟩ := exists_run h
  have hempty := lexFrom_of_run hrun []
  rw [List.append_nil] at hempty
  rw [lex, hempty]
  rw [lexFrom_of_run hrun] at h
  rcases mode_of_run_closing hrun with rfl | ⟨seen, rfl⟩ | ⟨seen, rfl⟩ | rfl
  · have hbrackets : lexFrom .idle [')', ')', '\n'] = some [.closing, .closing] := rfl
    rw [hbrackets, Option.map_some, Option.some.injEq, List.append_left_inj] at h
    simp [lexFrom, finish, h]
  · simp [lexFrom, step, finish] at h
  · simp [lexFrom, step, finish] at h
  · -- the comment would be the last token, where a bracket should be
    have hcomment : lexFrom .comment [')', ')', '\n'] = some [.comment] := rfl
    rw [hcomment, Option.map_some, Option.some.injEq] at h
    have hlast := congrArg List.getLast? h
    simp at hlast

end Token

end TheoryScript.Smt
