/-
Integers are written exactly.

An integer of 64 bits is written as the numeral of its magnitude, behind minus if it is
negative.  The magnitude of the least integer is too large for an integer of 64 bits, but not
for an unsigned word of that size, so no magnitude is wrapped around on its way to digits
(`toNat_abs`).  The reader makes the form of the integer of every such text, and that form is
worth the integer whatever the names stand for.  So two integers with one text are one.
-/
import TheoryScript.Proofs.Meaning
import TheoryScript.Proofs.Smt.Reserved

namespace TheoryScript

open Smt

/-! ### Decimal digits -/

/-- A decimal numeral: digits and nothing else, and no zero in front of another digit. -/
structure Smt.Numeral (word : List Char) : Prop where
  /-- There is a digit. -/
  nonempty : word ≠ []
  /-- There is no sign, and nothing else that is no digit. -/
  digits : ∀ c ∈ word, '0' ≤ c ∧ c ≤ '9'
  /-- A zero in front is the only digit. -/
  leading : word.head? = some '0' → word = ['0']

theorem Smt.numeral_toDigits (n : Nat) : Numeral (Nat.toDigits 10 n) := by
  refine ⟨Nat.toDigits_ne_nil, ?_, ?_⟩
  · intro c hc
    exact isDigit_iff.mp (Nat.isDigit_of_mem_toDigits (by decide) (by decide) hc)
  · intro hzero
    rw [Token.eq_zero_of_head_toDigits hzero]
    rfl

/-- As an unsigned word the absolute value is exact, also that of the least integer. -/
theorem toNat_abs (v : Int64) : v.abs.toUInt64.toNat = v.toInt.natAbs := by
  show v.toBitVec.abs.toNat = v.toBitVec.toInt.natAbs
  have hlt : v.toBitVec.toNat < 2 ^ 64 := v.toBitVec.isLt
  rw [BitVec.toNat_abs, BitVec.toInt_eq_msb_cond]
  by_cases hneg : v.toBitVec.msb = true
  · rw [if_pos hneg, if_pos hneg]
    omega
  · rw [if_neg hneg, if_neg hneg]
    omega

/-! ### The text of an integer -/

section

variable {n : Int}

theorem render_numeral (value : Nat) :
    (SExpr.numeral value).render.toList = Nat.toDigits 10 value := by
  rw [SExpr.render, Nat.toString_eq_ofList_toDigits, String.toList_ofList]

theorem render_of_nonneg (h : 0 ≤ n) :
    (SExpr.ofInt n).render.toList = Nat.toDigits 10 n.natAbs := by
  rw [SExpr.ofInt, if_neg (Int.not_lt.mpr h), render_numeral]

theorem render_of_neg (h : n < 0) :
    (SExpr.ofInt n).render.toList = "(- ".toList ++ Nat.toDigits 10 n.natAbs ++ [')'] := by
  have hproper : (SExpr.app "-" [.numeral n.natAbs]).Proper := .unary "-" (.numeral _)
  have htext := hproper.render_app []
  rw [List.append_nil, SExpr.closingText, List.map_singleton, String.intercalate_singleton,
    render_numeral] at htext
  rw [SExpr.ofInt, if_pos h, htext]
  rfl

theorem numeral_render_iff : Numeral (SExpr.ofInt n).render.toList ↔ 0 ≤ n := by
  by_cases h : 0 ≤ n
  · rw [render_of_nonneg h]
    exact ⟨fun _ => h, fun _ => numeral_toDigits _⟩
  · rw [render_of_neg (Int.not_le.mp h)]
    refine ⟨fun hnumeral => ?_, fun hpos => absurd hpos h⟩
    -- a bracket is no digit
    have hbracket := hnumeral.digits '(' (by simp)
    exact absurd hbracket (by decide)

theorem readAll_render_ofInt (n : Int) :
    Form.readAll (SExpr.ofInt n).render = some [integerForm n] := by
  have hsimple : ∀ op ∈ (SExpr.ofInt n).operators, isSimple op = true := by
    intro op hop
    rw [operators_ofInt hop]
    decide
  rw [(SExpr.readsBack (proper_ofInt n) hsimple).readAll_render, toForm_ofInt]

theorem eq_of_render_eq {m : Int} (h : (SExpr.ofInt m).render = (SExpr.ofInt n).render) :
    m = n := by
  have hread := readAll_render_ofInt m
  rw [h, readAll_render_ofInt, Option.some.injEq, List.cons.injEq] at hread
  -- the form means the integer whatever the names stand for, here zero
  have hvalue : (integerForm m).eval (fun _ => .int 0) = some (.int m) := eval_integerForm m
  rw [← hread.1, eval_integerForm, Option.some.injEq, Value.int.injEq] at hvalue
  exact hvalue.symm

end

/--
**An integer of 64 bits is read back from its text.**  The text is one decimal numeral, behind
minus if the integer is negative and bare if it is not.  The numeral has no sign and no
superfluous zero, and its digits are those of the magnitude, which is taken without wrapping
around.  Read as a form, the text is worth the integer, and no other integer has this text.
-/
theorem integer_is_read_back_from_its_text :
    (∀ v : Int64,
      let text := (SExpr.ofInt v.toInt).render
      (∃ digits, Numeral digits ∧ Nat.ofDigitChars 10 digits 0 = v.toInt.natAbs ∧
        v.toInt.natAbs = v.abs.toUInt64.toNat ∧
        text.toList = if v < 0 then "(- ".toList ++ digits ++ [')'] else digits) ∧
      (∃ form, Form.readAll text = some [form] ∧ ∀ env, form.eval env = some (.int v.toInt)) ∧
      (Numeral text.toList ↔ 0 ≤ v)) ∧
    ∀ v w : Int64, (SExpr.ofInt v.toInt).render = (SExpr.ofInt w.toInt).render ↔ v = w := by
  refine ⟨fun v => ⟨⟨Nat.toDigits 10 v.toInt.natAbs, numeral_toDigits _,
    Nat.ofDigitChars_ten_toDigits, (toNat_abs v).symm, ?_⟩,
    ⟨integerForm v.toInt, readAll_render_ofInt _, fun env => eval_integerForm _⟩, ?_⟩, ?_⟩
  · by_cases hneg : v < 0
    · rw [if_pos hneg]
      exact render_of_neg (Int64.lt_iff_toInt_lt.mp hneg)
    · rw [if_neg hneg]
      exact render_of_nonneg (Int.not_lt.mp fun h => hneg (Int64.lt_iff_toInt_lt.mpr h))
  · rw [numeral_render_iff, Int64.le_iff_toInt_le, Int64.toInt_zero]
  · intro v w
    refine ⟨fun h => ?_, fun h => h ▸ rfl⟩
    exact Int64.toInt_inj.mp (eq_of_render_eq h)

example : (SExpr.ofInt Int64.minValue.toInt).render = "(- 9223372036854775808)" := by
  decide +kernel

end TheoryScript
