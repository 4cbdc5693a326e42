/-
Texts cut into lines.

A line ends at a line feed, and one carriage return right before that line feed belongs
to the line's end.  The last line may lack its line feed; a text that ends in one has no
empty line after it.  So texts are cut into lines again when each was written with a line
feed behind it, holds none itself and does not end in a carriage return.
-/
namespace TheoryScript.Text

/-- The lines of a sequence of characters, without their ends. -/
def cutLines : List Char → List (List Char)
  | [] => []
  | '\n' :: rest => [] :: cutLines rest
  | '\r' :: '\n' :: rest => [] :: cutLines rest
  | c :: rest =>
      match cutLines rest with
      | [] => [[c]]
      | line :: others =>
          -- a line feed right after `c` closed an empty line, which `c` now fills
          (c :: line) :: others

/-- The lines of a text, without their ends. -/
def lines (text : String) : List String :=
  (cutLines text.toList).map String.ofList

/-! ### Lines before more text -/

theorem cutLines_newline (rest : List Char) : cutLines ('\n' :: rest) = [] :: cutLines rest := rfl

/-- A character goes in front of the first line behind it, where there is one. -/
theorem cutLines_cons {c : Char} {rest : List Char} (hc : c ≠ '\n')
    (hr : c = '\r' → rest.head? ≠ some '\n') :
    cutLines (c :: rest)
      = (c :: (cutLines rest).headD []) :: (cutLines rest).tail := by
  have hfeed : ∀ more, c = '\r' → rest = '\n' :: more → False := by
    intro more hcr hrest
    exact hr hcr (by rw [hrest]; rfl)
  rw [cutLines]
  · cases cutLines rest with
    | nil => rfl
    | cons line others => rfl
  · exact hc
  · exact hfeed

/-- A line feed ends a line; every other character goes with the line behind it. -/
theorem length_cutLines_cons (c : Char) (rest : List Char) :
    (cutLines (c :: rest)).length
      = if c = '\n' then (cutLines rest).length + 1 else max 1 (cutLines rest).length := by
  by_cases hc : c = '\n'
  · rw [if_pos hc, hc, cutLines_newline, List.length_cons]
  rw [if_neg hc]
  by_cases hr : c = '\r' → rest.head? ≠ some '\n'
  · rw [cutLines_cons hc hr, List.length_cons, List.length_tail]
    omega
  · obtain ⟨rfl, hrest⟩ := Classical.not_imp.mp hr
    obtain ⟨more, rfl⟩ := List.head?_eq_some_iff.mp (Classical.not_not.mp hrest)
    rw [cutLines_newline, List.length_cons, Nat.max_eq_right (Nat.le_add_left _ _)]
    rfl

/-- Every line feed of a text ends a line. -/
theorem length_cutLines_append (line rest : List Char) :
    (cutLines (line ++ '\n' :: rest)).length
      = line.count '\n' + 1 + (cutLines rest).length := by
  induction line with
  | nil =>
      rw [List.nil_append, length_cutLines_cons, if_pos rfl, List.count_nil]
      omega
  | cons c line ih =>
      rw [List.cons_append, length_cutLines_cons, ih]
      by_cases hc : c = '\n'
      · rw [if_pos hc, hc, List.count_cons_self]
        omega
      · rw [if_neg hc, List.count_cons_of_ne hc]
        omega

/-- What stands before a line feed is a line, unless it ends in a carriage return. -/
theorem cutLines_append {line : List Char} (hfeed : '\n' ∉ line)
    (hreturn : line.getLast? ≠ some '\r') (rest : List Char) :
    cutLines (line ++ '\n' :: rest) = line :: cutLines rest := by
  induction line with
  | nil => rfl
  | cons c line ih =>
      have hc : c ≠ '\n' := fun h => hfeed (by simp [h])
      have hmore : line.getLast? ≠ some '\r' := by
        intro h
        exact hreturn (by rw [List.getLast?_cons, h]; rfl)
      have hr : c = '\r' → (line ++ '\n' :: rest).head? ≠ some '\n' := by
        rintro rfl
        cases line with
        | nil => exact absurd rfl hreturn
        | cons d line =>
          intro h
          rw [List.cons_append, List.head?_cons, Option.some.injEq] at h
          exact hfeed (by simp [h])
      have hrest := ih (fun h => hfeed (List.mem_cons_of_mem _ h)) hmore
      rw [List.cons_append, cutLines_cons hc hr, hrest]
      rfl

/-- Texts with a line feed behind each are the lines again, if none of them is cut itself. -/
theorem lines_join {texts : List String}
    (h : ∀ t ∈ texts, '\n' ∉ t.toList ∧ t.toList.getLast? ≠ some '\r') :
    lines (String.join (texts.map (· ++ "\n"))) = texts := by
  induction texts with
  | nil => rfl
  | cons t more ih =>
      obtain ⟨hfeed, hreturn⟩ := h t (by simp)
      have htext : (String.join ((t :: more).map (· ++ "\n"))).toList
          = t.toList ++ '\n' :: (String.join (more.map (· ++ "\n"))).toList := by simp
      have hmore := ih fun u hu => h u (List.mem_cons_of_mem _ hu)
      rw [lines] at hmore ⊢
      rw [htext, cutLines_append hfeed hreturn, List.map_cons, hmore, String.ofList_toList]

/-- Texts with a line feed behind each make a line each, and one for each of their line feeds. -/
theorem length_lines_join (texts : List String) :
    (lines (String.join (texts.map (· ++ "\n")))).length
      = texts.length + (String.join texts).toList.count '\n' := by
  induction texts with
  | nil => rfl
  | cons t more ih =>
      have htext : (String.join ((t :: more).map (· ++ "\n"))).toList
          = t.toList ++ '\n' :: (String.join (more.map (· ++ "\n"))).toList := by simp
      rw [lines, List.length_map] at ih ⊢
      rw [htext, length_cutLines_append, ih, List.length_cons, String.join_cons,
        String.toList_append, List.count_append]
      omega

/-! ### Cutting at a mark -/

/-- The part of a sequence before the first place where `mark` stands, or all of it. -/
def cutBefore (mark : List Char) : List Char → List Char
  | [] => []
  | c :: rest => if mark.isPrefixOf (c :: rest) then [] else c :: cutBefore mark rest

end TheoryScript.Text
