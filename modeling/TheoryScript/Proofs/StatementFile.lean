/-
What a statement file describes.

A term is spelled in a document as a table with one key (`Spells`); operations, elements and
statements are records, which may be written as tables or as arrays.  A file describes the
statements that its values spell, in order.  Reading a file gives exactly the statements that
it describes, so it does not matter which of its spellings is chosen.

Terms nest, so the equivalence for them is an induction on the term that is spelled; for
everything above terms it follows from what the reader does with single fields.
-/
import TheoryScript.Proofs.Toml.Record
import TheoryScript.Batch
import TheoryScript.StatementFile

namespace TheoryScript.StatementFile

open Toml

/-! ### Spellings -/

/-- A value that spells a term: a table with one key, which says what the term is. -/
inductive Spells : Value → Term → Prop
  /-- A variable. -/
  | var (name : String) : Spells (.table [("Symbolic", .string name)]) (.var name)
  /-- A number. -/
  | int (value : Int64) : Spells (.table [("Literal", .integer value)]) (.const (.int value))
  /-- A constant known by name. -/
  | name (text : String) : Spells (.table [("Literal", .string text)]) (.const (.name text))
  /-- An operation with its operands. -/
  | app {v : Value} {operation : String} {style : ArrayStyle} {items : List Value}
      {operands : List Term}
      (hoperation : applicationShape.given "operation" v = [.string operation])
      (hchildren : applicationShape.given "children" v = [.array style items])
      (hitems : List.Forall₂ Spells items operands) :
      Spells (.table [("Expression", v)]) (.app operation operands)
  /-- An operation whose operands are left out. -/
  | bare {v : Value} {operation : String}
      (hoperation : applicationShape.given "operation" v = [.string operation])
      (hchildren : applicationShape.given "children" v = []) :
      Spells (.table [("Expression", v)]) (.app operation [])

/-- A value that spells an element: a record of an array of terms. -/
def SpellsElement (v : Value) (e : Element) : Prop :=
  ∃ style items, elementShape.given "terms" v = [.array style items] ∧
    List.Forall₂ Spells items e.terms

/-- A value that spells a statement: a record of its five fields. -/
structure SpellsStatement (v : Value) (s : Statement) : Prop where
  /-- The name of the atom. -/
  atom : statementShape.given "atom" v = [.string s.atom]
  /-- The kind of statement. -/
  category : statementShape.given "tag" v = [.string s.category]
  /-- The left-hand side. -/
  elements : ∃ style items, statementShape.given "elements" v = [.array style items] ∧
    List.Forall₂ SpellsElement items s.elements
  /-- The relation between the sides. -/
  relation : statementShape.given "operation" v = [.string s.relation]
  /-- The right-hand side. -/
  right : ∃ w, statementShape.given "right" v = [w] ∧ Spells w s.right

/-- A table that lists values that spell statements, or one without any key and no statements. -/
def Lists (table : Table) (statements : List Statement) : Prop :=
  (table = [] ∧ statements = []) ∨
    ∃ style items, table = [("statement", .array style items)] ∧
      List.Forall₂ SpellsStatement items statements

/-- A text that is a document which lists statements. -/
def Describes (text : String) (statements : List Statement) : Prop :=
  ∃ table, parse? text = some table ∧ Lists table statements

/-! ### Terms -/

section

variable {v w : Value} {vs : List Value} {t : Term}

theorem constant_eq_ok_iff {c : Constant} : constant v = .ok c ↔
    (∃ value, v = .integer value ∧ c = .int value) ∨ ∃ text, v = .string text ∧ c = .name text := by
  cases v <;> simp [constant, eq_comm]

theorem terms_eq_mapM (vs : List Value) : terms vs = vs.mapM term := by
  induction vs with
  | nil => rfl
  | cons v rest ih =>
      rw [terms, List.mapM_cons, ih]

theorem termSequence_eq_ok_iff {ts : List Term} : termSequence v = .ok ts ↔
    ∃ style items, v = .array style items ∧
      List.Forall₂ (fun v t => term v = .ok t) items ts := by
  cases v <;> simp [termSequence, terms_eq_mapM, mapM_eq_ok_iff]

/-- The slots of an operation are filled by the values for its fields. -/
theorem applicationFields_eq_ok_iff {entries : List (String × Value)}
    {fields found : ApplicationFields} : applicationFields fields entries = .ok found ↔
      Fills Value.asString (Entries.values "operation" entries) fields.operation found.operation ∧
        Fills termSequence (Entries.values "children" entries) fields.children found.children := by
  induction entries generalizing fields with
  | nil =>
      obtain ⟨operation, children⟩ := fields
      obtain ⟨operation', children'⟩ := found
      simp [applicationFields, fills_nil_iff]
  | cons entry rest ih =>
      obtain ⟨key, v⟩ := entry
      rw [applicationFields]
      by_cases hoperation : key = "operation"
      · subst hoperation
        simp [bind_eq_ok_iff, fills_cons_iff, ih, ← and_assoc]
      by_cases hchildren : key = "children"
      · subst hchildren
        simp only [bind_eq_ok_iff, fills_cons_iff, ih, Entries.values_cons, hoperation, if_true,
          if_false]
        exact ⟨fun ⟨x, hx, hoperation, hchildren⟩ => ⟨hoperation, x, hx, hchildren⟩,
          fun ⟨hoperation, x, hx, hchildren⟩ => ⟨x, hx, hoperation, hchildren⟩⟩
      · simp [hoperation, hchildren, ih]

/-- Entries of a statement's table are taken in as the values for its five fields are. -/
theorem statementFields_eq_ok_iff {entries : List (String × Value)}
    {fields found : StatementFields} :
    entries.foldlM StatementFields.add fields = .ok found ↔
      Fills Value.asString (Entries.values "atom" entries) fields.atom found.atom ∧
        Fills Value.asString (Entries.values "tag" entries) fields.category found.category ∧
        Fills elements (Entries.values "elements" entries) fields.elements found.elements ∧
        Fills Value.asString (Entries.values "operation" entries) fields.relation found.relation ∧
        Fills term (Entries.values "right" entries) fields.right found.right := by
  induction entries generalizing fields with
  | nil =>
      obtain ⟨atom, category, elements, relation, right⟩ := fields
      obtain ⟨atom', category', elements', relation', right'⟩ := found
      simp [fills_nil_iff, pure, Except.pure]
  | cons entry rest ih =>
      obtain ⟨key, v⟩ := entry
      rw [List.foldlM_cons, bind_eq_ok_iff]
      simp only [ih]
      -- a known key fills its own slot and leaves the others; any other key leaves all
      by_cases hkey : key ∈ statementShape.fields
      · simp only [statementShape, List.mem_cons, List.not_mem_nil, or_false] at hkey
        rcases hkey with rfl | rfl | rfl | rfl | rfl
        all_goals
          simp [StatementFields.add, bind_eq_ok_iff, fills_cons_iff, pure, Except.pure]
          grind
      · simp only [statementShape, List.mem_cons, List.not_mem_nil, or_false, not_or] at hkey
        simp [StatementFields.add, hkey, pure, Except.pure]

theorem toTerm_eq_ok_iff {fields : ApplicationFields} : fields.toTerm = .ok t ↔
    ∃ operation, fields.operation = some operation ∧
      t = .app operation (fields.children.getD []) := by
  rw [ApplicationFields.toTerm, bind_eq_ok_iff]
  simp only [required_eq_ok_iff, pure, Except.pure, Except.ok.injEq, @eq_comm _ t]

/-- The fields of an operation are what is given for them, in a table and in an array alike. -/
theorem application_eq_ok_iff_fills : application v = .ok t ↔ ∃ operation children,
    Fills Value.asString (applicationShape.given "operation" v) none (some operation) ∧
      Fills termSequence (applicationShape.given "children" v) none children ∧
      t = .app operation (children.getD []) := by
  cases v with
  | table entries =>
      rw [application, bind_eq_ok_iff]
      simp only [applicationFields_eq_ok_iff, toTerm_eq_ok_iff, RecordShape.given]
      constructor
      · rintro ⟨⟨_, children⟩, ⟨hoperation, hchildren⟩, operation, rfl, rfl⟩
        exact ⟨operation, children, hoperation, hchildren, rfl⟩
      · rintro ⟨operation, children, hoperation, hchildren, rfl⟩
        exact ⟨⟨some operation, children⟩, ⟨hoperation, hchildren⟩, operation, rfl, rfl⟩
  | array style items =>
      match items with
      | [] => simp [application, RecordShape.given, fills_nil_iff]
      | [operation] =>
          simp [application, RecordShape.given, applicationShape, bind_eq_ok_iff, pure, Except.pure,
            fills_cons_iff, fills_nil_iff, @eq_comm _ t]
      | operation :: children :: more =>
          simp [application, RecordShape.given, applicationShape, bind_eq_ok_iff, pure, Except.pure,
            fills_cons_iff, fills_nil_iff, @eq_comm _ t]
  | _ => simp [application, RecordShape.given, fills_nil_iff]

/-- An operation is read from a single name, and from one array of operands or none. -/
theorem application_eq_ok_iff (hv : v.KeysDistinct) {operation : String} {operands : List Term} :
    application v = .ok (.app operation operands) ↔
      applicationShape.given "operation" v = [.string operation] ∧
        ((applicationShape.given "children" v = [] ∧ operands = []) ∨
          ∃ style items, applicationShape.given "children" v = [.array style items] ∧
            List.Forall₂ (fun v t => term v = .ok t) items operands) := by
  have hname : Fills Value.asString (applicationShape.given "operation" v) none (some operation) ↔
      applicationShape.given "operation" v = [.string operation] :=
    (RecordShape.fills_given_iff hv).trans decodesOnly_asString_iff
  rw [application_eq_ok_iff_fills]
  constructor
  · rintro ⟨name, children, hoperation, hchildren, hsame⟩
    cases hsame
    refine ⟨hname.mp hoperation, ?_⟩
    cases children with
    | none => exact Or.inl ⟨fills_empty_iff.mp hchildren, rfl⟩
    | some operands =>
        obtain ⟨w, hw, hdecode⟩ := (RecordShape.fills_given_iff hv).mp hchildren
        obtain ⟨style, items, rfl, hitems⟩ := termSequence_eq_ok_iff.mp hdecode
        exact Or.inr ⟨style, items, hw, hitems⟩
  · rintro ⟨hoperation, ⟨hchildren, rfl⟩ | ⟨style, items, hchildren, hitems⟩⟩
    · exact ⟨operation, none, hname.mpr hoperation, fills_empty_iff.mpr hchildren, rfl⟩
    · have hdecode : termSequence (.array style items) = .ok operands :=
        termSequence_eq_ok_iff.mpr ⟨style, items, rfl, hitems⟩
      exact ⟨operation, some operands, hname.mpr hoperation,
        (RecordShape.fills_given_iff hv).mpr ⟨_, hchildren, hdecode⟩, rfl⟩

/-- A term is read from a table whose one key says what it is. -/
theorem term_eq_ok_iff : term v = .ok t ↔
    (∃ name, v = .table [("Symbolic", .string name)] ∧ t = .var name) ∨
      (∃ w, v = .table [("Expression", w)] ∧ application w = .ok t) ∨
      ∃ w c, v = .table [("Literal", w)] ∧ constant w = .ok c ∧ t = .const c := by
  match v with
  | .table [] => simp [term]
  | .table [(choice, w)] =>
      rw [term]
      by_cases hvar : choice = "Symbolic"
      · simp [hvar, map_eq_ok_iff, Value.asString_eq_ok_iff, @eq_comm _ t]
      by_cases happ : choice = "Expression"
      · simp [happ]
      by_cases hconst : choice = "Literal"
      · simp [hconst, map_eq_ok_iff, @eq_comm _ t]
      · simp [hvar, happ, hconst]
  | .table (_ :: _ :: _) => simp [term]
  | .string choice => simp [term]
  | .integer _ | .float _ | .boolean _ | .dateTime _ _ | .array _ _ => simp [term]

theorem keysDistinct_of_entry {key : String}
    (hv : (Value.table [(key, w)]).KeysDistinct) : w.KeysDistinct := by
  cases hv with
  | table _ h => exact h (key, w) List.mem_cons_self

/-- The items of an array that is given for a field. -/
theorem keysDistinct_of_given_array {r : RecordShape} {field : String} {style : ArrayStyle}
    {items : List Value} (hv : v.KeysDistinct) (hgiven : r.given field v = [.array style items]) :
    ∀ item ∈ items, item.KeysDistinct := by
  have harray : (Value.array style items).KeysDistinct :=
    RecordShape.keysDistinct_of_given hv (by rw [hgiven]; exact List.mem_cons_self)
  cases harray with
  | array _ h => exact h

/-- Lists are related alike by relations that agree on their members. -/
theorem forall₂_congr {α β : Type} {R S : α → β → Prop} {as : List α} {bs : List β}
    (h : ∀ a ∈ as, ∀ b ∈ bs, R a b ↔ S a b) : List.Forall₂ R as bs ↔ List.Forall₂ S as bs := by
  induction as generalizing bs with
  | nil => rw [List.forall₂_nil_left_iff, List.forall₂_nil_left_iff]
  | cons a rest ih =>
      cases bs with
      | nil => simp
      | cons b more =>
          have hfirst : R a b ↔ S a b := h a List.mem_cons_self b List.mem_cons_self
          have hmore : List.Forall₂ R rest more ↔ List.Forall₂ S rest more :=
            ih fun x hx y hy => h x (List.mem_cons_of_mem _ hx) y (List.mem_cons_of_mem _ hy)
          rw [List.forall₂_cons, List.forall₂_cons, hfirst, hmore]

/-- **A value is read as the term that it spells.** -/
theorem term_eq_ok_iff_spells (hv : v.KeysDistinct) : term v = .ok t ↔ Spells v t := by
  induction t using Term.induct generalizing v with
  | hvar name =>
      rw [term_eq_ok_iff]
      constructor
      · rintro (⟨found, rfl, h⟩ | ⟨w, -, happ⟩ | ⟨w, c, -, -, h⟩)
        · cases h
          exact .var name
        · obtain ⟨operation, children, -, -, h⟩ := application_eq_ok_iff_fills.mp happ
          cases h
        · cases h
      · rintro ⟨⟩
        exact Or.inl ⟨name, rfl, rfl⟩
  | happ operation operands ih =>
      rw [term_eq_ok_iff]
      constructor
      · rintro (⟨found, -, h⟩ | ⟨w, rfl, happ⟩ | ⟨w, c, -, -, h⟩)
        · cases h
        · have hw : w.KeysDistinct := keysDistinct_of_entry hv
          obtain ⟨hoperation, ⟨hchildren, rfl⟩ | ⟨style, items, hchildren, hitems⟩⟩ :=
            (application_eq_ok_iff hw).mp happ
          · exact .bare hoperation hchildren
          · have hall := keysDistinct_of_given_array hw hchildren
            exact .app hoperation hchildren ((forall₂_congr fun item hitem c hc =>
              ih c hc (hall item hitem)).mp hitems)
        · cases h
      · intro h
        cases h with
        | bare hoperation hchildren =>
            have hw := keysDistinct_of_entry hv
            exact Or.inr (Or.inl ⟨_, rfl,
              (application_eq_ok_iff hw).mpr ⟨hoperation, Or.inl ⟨hchildren, rfl⟩⟩⟩)
        | app hoperation hchildren hitems =>
            have hw := keysDistinct_of_entry hv
            have hall := keysDistinct_of_given_array hw hchildren
            have hdecoded := (forall₂_congr fun item hitem c hc =>
              ih c hc (hall item hitem)).mpr hitems
            exact Or.inr (Or.inl ⟨_, rfl, (application_eq_ok_iff hw).mpr
              ⟨hoperation, Or.inr ⟨_, _, hchildren, hdecoded⟩⟩⟩)
  | hconst c =>
      rw [term_eq_ok_iff]
      constructor
      · rintro (⟨found, -, h⟩ | ⟨w, -, happ⟩ | ⟨w, found, rfl, hc, h⟩)
        · cases h
        · obtain ⟨operation, children, -, -, h⟩ := application_eq_ok_iff_fills.mp happ
          cases h
        · cases h
          rcases constant_eq_ok_iff.mp hc with ⟨value, rfl, rfl⟩ | ⟨text, rfl, rfl⟩
          · exact .int value
          · exact .name text
      · rintro (_ | _ | _)
        · exact Or.inr (Or.inr ⟨_, _, rfl, rfl, rfl⟩)
        · exact Or.inr (Or.inr ⟨_, _, rfl, rfl, rfl⟩)

/-- An array is read as a list whose members its items spell, if each item is read that way. -/
theorem decodesOnly_sequence_iff {α : Type} {decodeAll : Value → Except ShapeError (List α)}
    {decode : Value → Except ShapeError α} {S : Value → α → Prop}
    (hall : ∀ {v : Value} {xs : List α}, decodeAll v = .ok xs ↔
      ∃ style items, v = .array style items ∧ List.Forall₂ (fun v x => decode v = .ok x) items xs)
    (hitem : ∀ {v : Value} {x : α}, v.KeysDistinct → (decode v = .ok x ↔ S v x))
    {r : RecordShape} {field : String} {xs : List α} (hv : v.KeysDistinct) :
    DecodesOnly decodeAll (r.given field v) xs ↔
      ∃ style items, r.given field v = [.array style items] ∧ List.Forall₂ S items xs := by
  have hspells : ∀ {style items}, r.given field v = [.array style items] →
      (List.Forall₂ (fun v x => decode v = .ok x) items xs ↔ List.Forall₂ S items xs) :=
    fun hgiven => forall₂_congr fun item hmem _ _ =>
      hitem (keysDistinct_of_given_array hv hgiven item hmem)
  constructor
  · rintro ⟨w, hgiven, hdecode⟩
    obtain ⟨style, items, rfl, hitems⟩ := hall.mp hdecode
    exact ⟨style, items, hgiven, (hspells hgiven).mp hitems⟩
  · rintro ⟨style, items, hgiven, hitems⟩
    exact ⟨_, hgiven, hall.mpr ⟨style, items, rfl, (hspells hgiven).mpr hitems⟩⟩

end

/-! ### Elements -/

section

variable {v : Value}

theorem elementFields_eq_ok_iff {entries : List (String × Value)}
    {before after : Option (List Term)} :
    elementFields before entries = .ok after ↔
      Fills termSequence (Entries.values "terms" entries) before after := by
  induction entries generalizing before with
  | nil => simp [elementFields, fills_nil_iff]
  | cons entry rest ih =>
      obtain ⟨key, v⟩ := entry
      rw [elementFields]
      by_cases hterms : key = "terms"
      · simp [hterms, bind_eq_ok_iff, fills_cons_iff, ih]
      · simp [hterms, ih]

/-- **A value is read as the element that it spells.** -/
theorem element_eq_ok_iff_spells {e : Element} (hv : v.KeysDistinct) :
    element v = .ok e ↔ SpellsElement v e := by
  have hfills : element v = .ok e ↔
      Fills termSequence (elementShape.given "terms" v) none (some e.terms) := by
    obtain ⟨ts⟩ := e
    match v with
    | .table entries =>
        simp [element, bind_eq_ok_iff, elementFields_eq_ok_iff, required_eq_ok_iff,
          RecordShape.given, pure, Except.pure]
    | .array _ [] => simp [element, RecordShape.given, fills_nil_iff]
    | .array _ (items :: _) =>
        simp [element, RecordShape.given, elementShape, bind_eq_ok_iff, fills_cons_iff,
          fills_nil_iff, pure, Except.pure]
    | .string _ | .integer _ | .float _ | .boolean _ | .dateTime _ _ =>
        simp [element, RecordShape.given, fills_nil_iff]
  rw [hfills, RecordShape.fills_given_iff hv,
    decodesOnly_sequence_iff termSequence_eq_ok_iff term_eq_ok_iff_spells hv, SpellsElement]

theorem elements_eq_ok_iff {es : List Element} : elements v = .ok es ↔
    ∃ style items, v = .array style items ∧
      List.Forall₂ (fun v e => element v = .ok e) items es := by
  rw [elements, bind_eq_ok_iff]
  simp only [Value.asItems_eq_ok_iff, mapM_eq_ok_iff]
  constructor
  · rintro ⟨items, ⟨style, rfl⟩, hitems⟩
    exact ⟨style, items, rfl, hitems⟩
  · rintro ⟨style, items, rfl, hitems⟩
    exact ⟨items, ⟨style, rfl⟩, hitems⟩

end

/-! ### Statements -/

section

variable {v : Value} {s : Statement}

theorem toStatement_eq_ok_iff {fields : StatementFields} : fields.toStatement = .ok s ↔
    fields = ⟨some s.atom, some s.category, some s.elements, some s.relation, some s.right⟩ := by
  obtain ⟨atom, category, elements, relation, right⟩ := fields
  obtain ⟨atom', category', elements', relation', right'⟩ := s
  simp only [StatementFields.toStatement, bind_eq_ok_iff, required_eq_ok_iff]
  simp [pure, Except.pure]

theorem fieldAt_eq_ok_iff {items : List Value} {place : Nat} :
    fieldAt items place = .ok v ↔ items[place]? = some v := by
  rw [fieldAt]
  cases items[place]? with
  | none => simp
  | some found => simp

theorem statementOfItems_eq_ok_iff {items : List Value} : statementOfItems items = .ok s ↔
    (∃ v, items[0]? = some v ∧ v.asString = .ok s.atom) ∧
      (∃ v, items[1]? = some v ∧ v.asString = .ok s.category) ∧
      (∃ v, items[2]? = some v ∧ elements v = .ok s.elements) ∧
      (∃ v, items[3]? = some v ∧ v.asString = .ok s.relation) ∧
      ∃ v, items[4]? = some v ∧ term v = .ok s.right := by
  simp only [statementOfItems, bind_eq_ok_iff, fieldAt_eq_ok_iff]
  constructor
  · rintro ⟨v0, h0, _, hatom, v1, h1, _, hcategory, v2, h2, _, helements, v3, h3, _, hrelation,
      v4, h4, _, hright, hsame⟩
    cases hsame
    exact ⟨⟨v0, h0, hatom⟩, ⟨v1, h1, hcategory⟩, ⟨v2, h2, helements⟩, ⟨v3, h3, hrelation⟩,
      v4, h4, hright⟩
  · rintro ⟨⟨v0, h0, hatom⟩, ⟨v1, h1, hcategory⟩, ⟨v2, h2, helements⟩, ⟨v3, h3, hrelation⟩,
      v4, h4, hright⟩
    exact ⟨v0, h0, _, hatom, v1, h1, _, hcategory, v2, h2, _, helements, v3, h3, _, hrelation,
      v4, h4, _, hright, rfl⟩

/-- The fields of a statement are what is given for them, in a table and in an array alike. -/
theorem statement_eq_ok_iff_fills : statement v = .ok s ↔
    Fills Value.asString (statementShape.given "atom" v) none (some s.atom) ∧
      Fills Value.asString (statementShape.given "tag" v) none (some s.category) ∧
      Fills elements (statementShape.given "elements" v) none (some s.elements) ∧
      Fills Value.asString (statementShape.given "operation" v) none (some s.relation) ∧
      Fills term (statementShape.given "right" v) none (some s.right) := by
  match v with
  | .table entries =>
      simp [statement, bind_eq_ok_iff, statementFields_eq_ok_iff, toStatement_eq_ok_iff,
        RecordShape.given]
  | .array _ items =>
      simp [statement, statementOfItems_eq_ok_iff, RecordShape.given, statementShape,
        fills_full_iff Option.length_toList_le, decodesOnly_toList_iff]
  | .string _ | .integer _ | .float _ | .boolean _ | .dateTime _ _ =>
      simp [statement, RecordShape.given, fills_nil_iff]

/-- **A value is read as the statement that it spells.** -/
theorem statement_eq_ok_iff_spells (hv : v.KeysDistinct) :
    statement v = .ok s ↔ SpellsStatement v s := by
  have hright : DecodesOnly term (statementShape.given "right" v) s.right ↔
      ∃ w, statementShape.given "right" v = [w] ∧ Spells w s.right := by
    refine exists_congr fun w => and_congr_right fun hw => term_eq_ok_iff_spells ?_
    exact RecordShape.keysDistinct_of_given hv (by rw [hw]; exact List.mem_cons_self)
  rw [statement_eq_ok_iff_fills]
  simp only [RecordShape.fills_given_iff hv, decodesOnly_asString_iff, hright,
    decodesOnly_sequence_iff elements_eq_ok_iff element_eq_ok_iff_spells hv]
  constructor
  · rintro ⟨hatom, hcategory, helements, hrelation, hright⟩
    exact ⟨hatom, hcategory, helements, hrelation, hright⟩
  · rintro ⟨hatom, hcategory, helements, hrelation, hright⟩
    exact ⟨hatom, hcategory, helements, hrelation, hright⟩

end

/-! ### Files -/

section

variable {table : Table} {statements : List Statement} {text : String}

/-- The key of a file is taken in once, as the list of statements that stands at it. -/
theorem addKey_eq_ok_iff {before : List Statement} {entry : String × Value} :
    addKey before entry = .ok statements ↔
      ∃ style items, entry = ("statement", .array style items) ∧
        List.Forall₂ (fun v s => statement v = .ok s) items statements := by
  obtain ⟨key, v⟩ := entry
  rw [addKey]
  by_cases hkey : key = "statement"
  · simp only [hkey, if_true, bind_eq_ok_iff, Value.asItems_eq_ok_iff, mapM_eq_ok_iff]
    constructor
    · rintro ⟨items, ⟨style, rfl⟩, hitems⟩
      exact ⟨style, items, rfl, hitems⟩
    · rintro ⟨style, items, hentry, hitems⟩
      cases hentry
      exact ⟨items, ⟨style, rfl⟩, hitems⟩
  · simp [hkey]

/-- **A table is read as the statements that it lists.** -/
theorem ofTable_eq_ok_iff_lists (h : table.KeysDistinct) :
    ofTable table = .ok statements ↔ Lists table statements := by
  match table, h with
  | [], _ => simp [ofTable, Lists, pure, Except.pure, eq_comm]
  | [entry], h =>
      have hspells : ∀ {style items}, entry = ("statement", .array style items) →
          (List.Forall₂ (fun v s => statement v = .ok s) items statements ↔
            List.Forall₂ SpellsStatement items statements) := by
        rintro style items rfl
        cases h.found _ List.mem_cons_self with
        | array _ hitems =>
            exact forall₂_congr fun v hv _ _ => statement_eq_ok_iff_spells (hitems v hv)
      have hrun : ofTable [entry] = .ok statements ↔ addKey [] entry = .ok statements := by
        rw [ofTable, List.foldlM_cons, bind_eq_ok_iff]
        simp [pure, Except.pure]
      rw [hrun, addKey_eq_ok_iff, Lists]
      simp only [List.cons_ne_nil, false_and, false_or, List.cons.injEq, and_true]
      exact exists_congr fun style => exists_congr fun items => and_congr_right hspells
  | first :: second :: rest, h =>
      -- both keys would have to be that of the statements
      constructor
      · intro hrun
        obtain ⟨_, hfirst, hrun⟩ := bind_eq_ok_iff.mp hrun
        obtain ⟨_, hsecond, -⟩ := bind_eq_ok_iff.mp hrun
        obtain ⟨_, _, rfl, -⟩ := addKey_eq_ok_iff.mp hfirst
        obtain ⟨_, _, rfl, -⟩ := addKey_eq_ok_iff.mp hsecond
        exact absurd h.keys (by simp [Entries.keys])
      · rintro (⟨hnil, -⟩ | ⟨_, _, hone, -⟩)
        · simp at hnil
        · simp at hone

theorem read_eq_ok_iff : read text = .ok statements ↔ Describes text statements := by
  rw [read, Describes]
  cases hparse : parse? text with
  | none => simp
  | some table =>
      simp only [Option.some.injEq, exists_eq_left',
        ← ofTable_eq_ok_iff_lists (keysDistinct_of_parse? hparse)]
      cases ofTable table with
      | error error => simp [Except.mapError]
      | ok found => simp [Except.mapError]

end

/-! ### Every batch has a spelling -/

/-- What can be spelled one by one can be spelled in a list. -/
theorem exists_forall₂ {α : Type} {S : Value → α → Prop} {xs : List α}
    (h : ∀ x ∈ xs, ∃ v : Value, v.KeysDistinct ∧ S v x) :
    ∃ items : List Value, (∀ v ∈ items, v.KeysDistinct) ∧ List.Forall₂ S items xs := by
  induction xs with
  | nil => exact ⟨[], by simp, .nil⟩
  | cons x rest ih =>
      obtain ⟨hx, hrest⟩ := List.forall_mem_cons.mp h
      obtain ⟨v, hv, hspells⟩ := hx
      obtain ⟨items, hitems, hall⟩ := ih hrest
      exact ⟨v :: items, List.forall_mem_cons.mpr ⟨hv, hitems⟩, .cons hspells hall⟩

theorem keysDistinct_singleton (key : String) {v : Value} (hv : v.KeysDistinct) :
    (Value.table [(key, v)]).KeysDistinct :=
  .table (List.nodup_singleton key) (List.forall_mem_singleton.mpr hv)

theorem exists_spells (t : Term) : ∃ v : Value, v.KeysDistinct ∧ Spells v t := by
  induction t using Term.induct with
  | hvar name => exact ⟨_, keysDistinct_singleton _ (.string name), .var name⟩
  | happ operation operands ih =>
      obtain ⟨items, hitems, hall⟩ := exists_forall₂ ih
      let record : Value := .array .bracketed [.string operation, .array .bracketed items]
      have hrecord : record.KeysDistinct := by
        refine .array _ (List.forall_mem_cons.mpr ⟨.string operation, ?_⟩)
        exact List.forall_mem_singleton.mpr (.array _ hitems)
      exact ⟨_, keysDistinct_singleton _ hrecord, .app rfl rfl hall⟩
  | hconst c =>
      cases c with
      | int value => exact ⟨_, keysDistinct_singleton _ (.integer value), .int value⟩
      | name text => exact ⟨_, keysDistinct_singleton _ (.string text), .name text⟩

theorem exists_spellsElement (e : Element) : ∃ v : Value, v.KeysDistinct ∧ SpellsElement v e := by
  obtain ⟨items, hitems, hall⟩ := exists_forall₂ fun t (_ : t ∈ e.terms) => exists_spells t
  refine ⟨.array .bracketed [.array .bracketed items], ?_, .bracketed, items, rfl, hall⟩
  exact .array _ (List.forall_mem_singleton.mpr (.array _ hitems))

theorem exists_spellsStatement (s : Statement) :
    ∃ v : Value, v.KeysDistinct ∧ SpellsStatement v s := by
  obtain ⟨items, hitems, hall⟩ :=
    exists_forall₂ fun e (_ : e ∈ s.elements) => exists_spellsElement e
  obtain ⟨right, hright, hspells⟩ := exists_spells s.right
  let fields : List Value :=
    [.string s.atom, .string s.category, .array .bracketed items, .string s.relation, right]
  have hfields : ∀ v ∈ fields, v.KeysDistinct := by
    simp only [fields, List.forall_mem_cons]
    exact ⟨.string _, .string _, .array _ hitems, .string _, hright, by simp⟩
  exact ⟨.array .bracketed fields, .array _ hfields,
    { atom := rfl, category := rfl, elements := ⟨.bracketed, items, rfl, hall⟩, relation := rfl
      right := ⟨right, rfl, hspells⟩ }⟩

theorem exists_lists (statements : List Statement) :
    ∃ table : Table, table.KeysDistinct ∧ Lists table statements := by
  obtain ⟨items, hitems, hall⟩ :=
    exists_forall₂ fun s (_ : s ∈ statements) => exists_spellsStatement s
  refine ⟨[("statement", .array .bracketed items)], ⟨List.nodup_singleton _, ?_⟩,
    Or.inr ⟨.bracketed, items, rfl, hall⟩⟩
  exact List.forall_mem_singleton.mpr (.array _ hitems)

/--
**A statement file is read as the statements that it describes.**  Reading gives a list of
statements for exactly those texts that describe it, however they spell it: records as
tables or as arrays, keys in any order and among keys that no record has, operands and the
whole list left out where they are empty.  So the encoding is that of the statements.
Every list of statements can be described, and a table is read as what it lists.
-/
theorem statement_file_is_read_as_described (statements : List Statement) :
    (∀ text, read text = .ok statements ↔ Describes text statements) ∧
      (∀ text, Describes text statements → ∀ f : Fragment,
        (read text).map f.encodeAll = .ok (f.encodeAll statements)) ∧
      ∃ table : Table,
        table.KeysDistinct ∧ Lists table statements ∧ ofTable table = .ok statements := by
  refine ⟨fun text => read_eq_ok_iff, ?_, ?_⟩
  · intro text h f
    rw [read_eq_ok_iff.mpr h]
    rfl
  · obtain ⟨table, htable, hlists⟩ := exists_lists statements
    exact ⟨table, htable, hlists, (ofTable_eq_ok_iff_lists htable).mpr hlists⟩

theorem tables_and_arrays_are_read_alike :
    let statements : List Statement := [⟨"a", "dom", [⟨[.const (.int 7)]⟩], "=", .var "x"⟩]
    let asTables := "[[statement]]\nright.Symbolic = \"x\"\nsource = 3\noperation = \"=\"\n" ++
      "elements = [[[\x7b Literal = 7 \x7d]]]\natom = \"a\"\ntag = \"dom\"\n"
    let asArrays := "statement = [[\"a\", \"dom\", [\x7b terms = [\x7b Literal = 7 \x7d] \x7d], " ++
      "\"=\", \x7b Symbolic = \"x\" \x7d, 3]]\n"
    Describes asTables statements ∧ Describes asArrays statements ∧
      (read asTables).map Fragment.difference.encodeAll
        = (read asArrays).map Fragment.difference.encodeAll := by
  intro statements asTables asArrays
  obtain ⟨hread, hencoded, -⟩ := statement_file_is_read_as_described statements
  have htables : Describes asTables statements := (hread asTables).mp (by decide +kernel)
  have harrays : Describes asArrays statements := (hread asArrays).mp (by decide +kernel)
  exact ⟨htables, harrays,
    (hencoded asTables htables _).trans (hencoded asArrays harrays _).symm⟩

end TheoryScript.StatementFile
