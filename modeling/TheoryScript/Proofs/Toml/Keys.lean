/-
No table of a document has a key twice.

This holds of every table in a document, however deep (`KeysDistinct`).  An inline table is
built by assignments at the ends of paths, and the lines of a document open a table, open
one more table of a sequence, or assign a value.  Each of them changes the tables along one
path, and in each of these either changes what stands at one key (`Distinct.alter`) or puts
one key at the end.  So distinct keys stay distinct from line to line.
-/
import Mathlib.Data.List.Nodup
import TheoryScript.Proofs.Toml.Scan
import TheoryScript.Toml.Document

namespace TheoryScript.Toml

namespace Entries

variable {α : Type} {key : String} {entries changed : Entries α}

/-- The keys of entries, in written order. -/
def keys (entries : Entries α) : List String :=
  entries.map Prod.fst

@[simp] theorem keys_cons (entry : String × α) (rest : Entries α) :
    keys (entry :: rest) = entry.1 :: keys rest := rfl

/-- A key may be put at the end once it stands nowhere before. -/
theorem nodup_keys_add (hkeys : entries.keys.Nodup) (hkey : key ∉ entries.keys) (added : α) :
    (keys (entries ++ [(key, added)])).Nodup := by
  have hadd : keys (entries ++ [(key, added)]) = entries.keys.concat key := by
    simp [keys]
  rw [hadd]
  exact hkeys.concat hkey

/-- A change at a key adds the key at the end if it was absent, and changes no other key. -/
theorem keys_alter {f : Option α → Option α} (h : entries.alter key f = some changed) :
    changed.keys = if key ∈ entries.keys then entries.keys else entries.keys.concat key := by
  induction entries generalizing changed with
  | nil =>
      obtain ⟨found, -, rfl⟩ := Option.map_eq_some_iff.mp h
      rfl
  | cons entry rest ih =>
      obtain ⟨k, found⟩ := entry
      rw [alter] at h
      by_cases hk : k = key
      · rw [if_pos hk] at h
        obtain ⟨altered, -, rfl⟩ := Option.map_eq_some_iff.mp h
        simp [hk]
      · rw [if_neg hk] at h
        obtain ⟨altered, hrest, rfl⟩ := Option.map_eq_some_iff.mp h
        have hmem : key ∈ k :: keys rest ↔ key ∈ keys rest := by
          simp [Ne.symm hk]
        simp only [keys_cons, hmem, ih hrest]
        by_cases hkey : key ∈ keys rest
        · rw [if_pos hkey, if_pos hkey]
        · rw [if_neg hkey, if_neg hkey, List.concat_cons]

theorem nodup_keys_alter {f : Option α → Option α} (hkeys : entries.keys.Nodup)
    (h : entries.alter key f = some changed) : changed.keys.Nodup := by
  rw [keys_alter h]
  by_cases hkey : key ∈ entries.keys
  · rw [if_pos hkey]
    exact hkeys
  · rw [if_neg hkey]
    exact hkeys.concat hkey

/-- A key that is put at the end may come from elsewhere among the entries. -/
theorem nodup_keys_move (hkeys : entries.keys.Nodup) (moved : α) :
    (keys (entries.without key ++ [(key, moved)])).Nodup := by
  refine nodup_keys_add ((List.filter_sublist.map Prod.fst).nodup hkeys) ?_ moved
  intro hkey
  obtain ⟨entry, hentry, hsame⟩ := List.mem_map.mp hkey
  simpa [hsame] using (List.mem_filter.mp hentry).2

theorem lookup_eq_none_iff : entries.lookup key = none ↔ key ∉ entries.keys := by
  rw [List.lookup_eq_none_iff, keys, List.mem_map]
  constructor
  · rintro h ⟨entry, hentry, rfl⟩
    simpa using h entry hentry
  · intro h entry hentry
    simpa using fun hkey => h ⟨entry, hentry, hkey.symm⟩

/-- Entries with distinct keys, and with a property of what stands at each of them. -/
structure Distinct (P : α → Prop) (entries : Entries α) : Prop where
  /-- No key comes twice. -/
  keys : entries.keys.Nodup
  /-- What stands at every key has the property. -/
  found : ∀ entry ∈ entries, P entry.2

namespace Distinct

variable {P : α → Prop}

theorem nil : Distinct P [] :=
  ⟨List.nodup_nil, fun _ hentry => absurd hentry List.not_mem_nil⟩

theorem of_lookup (h : Distinct P entries) {found : α} (hfound : entries.lookup key = some found) :
    P found := by
  obtain ⟨before, after, hsplit, -⟩ := List.lookup_eq_some_iff.mp hfound
  have hmem : (key, found) ∈ entries := by simp [hsplit]
  exact h.found _ hmem

theorem add (h : Distinct P entries) (hkey : key ∉ entries.keys) {added : α} (hadded : P added) :
    Distinct P (entries ++ [(key, added)]) := by
  refine ⟨nodup_keys_add h.keys hkey added, fun entry hentry => ?_⟩
  rcases List.mem_append.mp hentry with hentry | hentry
  · exact h.found entry hentry
  · rw [List.mem_singleton.mp hentry]
    exact hadded

theorem move (h : Distinct P entries) {moved : α} (hmoved : P moved) :
    Distinct P (entries.without key ++ [(key, moved)]) := by
  refine ⟨nodup_keys_move h.keys moved, fun entry hentry => ?_⟩
  rcases List.mem_append.mp hentry with hentry | hentry
  · exact h.found entry (List.mem_of_mem_filter hentry)
  · rw [List.mem_singleton.mp hentry]
    exact hmoved

theorem found_of_alter {f : Option α → Option α} (h : ∀ entry ∈ entries, P entry.2)
    (hf : ∀ found, (∀ x ∈ found, P x) → ∀ x ∈ f found, P x)
    (hrun : entries.alter key f = some changed) : ∀ entry ∈ changed, P entry.2 := by
  induction entries generalizing changed with
  | nil =>
      obtain ⟨added, hadded, rfl⟩ := Option.map_eq_some_iff.mp hrun
      rw [List.forall_mem_singleton]
      exact hf none (fun x hx => absurd hx (Option.not_mem_none x)) added hadded
  | cons entry rest ih =>
      obtain ⟨k, found⟩ := entry
      obtain ⟨hfound, hrest⟩ := List.forall_mem_cons.mp h
      rw [Entries.alter] at hrun
      by_cases hk : k = key
      · rw [if_pos hk] at hrun
        obtain ⟨altered, haltered, rfl⟩ := Option.map_eq_some_iff.mp hrun
        refine List.forall_mem_cons.mpr ⟨hf (some found) ?_ altered haltered, hrest⟩
        rintro x ⟨⟩
        exact hfound
      · rw [if_neg hk] at hrun
        obtain ⟨altered, haltered, rfl⟩ := Option.map_eq_some_iff.mp hrun
        exact List.forall_mem_cons.mpr ⟨hfound, ih hrest haltered⟩

/-- A change at a key that keeps the property of what stands there. -/
theorem alter {f : Option α → Option α} (h : Distinct P entries)
    (hf : ∀ found, (∀ x ∈ found, P x) → ∀ x ∈ f found, P x)
    (hrun : entries.alter key f = some changed) : Distinct P changed :=
  ⟨nodup_keys_alter h.keys hrun, found_of_alter h.found hf hrun⟩

end Distinct

end Entries

/-! ### Values -/

/-- A value in which no table, however deep, has a key twice. -/
inductive Value.KeysDistinct : Value → Prop
  | string (text : String) : KeysDistinct (.string text)
  | integer (value : Int64) : KeysDistinct (.integer value)
  | float (value : Decimal.Binary64) : KeysDistinct (.float value)
  | boolean (value : Bool) : KeysDistinct (.boolean value)
  | dateTime (text : String) (date : Option Date) : KeysDistinct (.dateTime text date)
  | array (style : ArrayStyle) {items : List Value} (h : ∀ v ∈ items, KeysDistinct v) :
      KeysDistinct (.array style items)
  | table {entries : List (String × Value)} (hkeys : (Entries.keys entries).Nodup)
      (h : ∀ entry ∈ entries, KeysDistinct entry.2) : KeysDistinct (.table entries)

/-- A table in which no table, itself and however deep, has a key twice. -/
abbrev Table.KeysDistinct (table : Table) : Prop :=
  Entries.Distinct Value.KeysDistinct table

theorem Value.keysDistinct_table_iff {entries : List (String × Value)} :
    (Value.table entries).KeysDistinct ↔ Table.KeysDistinct entries := by
  constructor
  · intro h
    cases h with
    | table hkeys h => exact ⟨hkeys, h⟩
  · intro h
    exact .table h.keys h.found

theorem Table.KeysDistinct.assignAt {path : List String} {key : String} {v : Value}
    {table changed : Table} (h : table.KeysDistinct) (hv : v.KeysDistinct)
    (hrun : assignAt path key v table = some changed) : changed.KeysDistinct := by
  induction path generalizing table changed with
  | nil =>
      refine h.alter ?_ hrun
      rintro (_ | found) hfound x ⟨⟩
      exact hv
  | cons parent path ih =>
      refine h.alter ?_ hrun
      intro found hfound x hx
      match found, hx with
      | none, hx =>
          obtain ⟨inner, hinner, rfl⟩ := Option.map_eq_some_iff.mp hx
          exact Value.keysDistinct_table_iff.mpr (ih Entries.Distinct.nil hinner)
      | some (.table entries), hx =>
          obtain ⟨inner, hinner, rfl⟩ := Option.map_eq_some_iff.mp hx
          have hentries := Value.keysDistinct_table_iff.mp (hfound _ rfl)
          exact Value.keysDistinct_table_iff.mpr (ih hentries hinner)

theorem Table.keysDistinct_ofAssignments? {pairs : List (KeyPath × Value)} {table : Table}
    (hpairs : ∀ pair ∈ pairs, pair.2.KeysDistinct) (hrun : ofAssignments? pairs = some table) :
    table.KeysDistinct := by
  have hfold : ∀ {start : Table}, start.KeysDistinct →
      pairs.foldlM (fun table pair => assignAt pair.1.parents pair.1.key pair.2 table) start
        = some table → table.KeysDistinct := by
    clear hrun
    induction pairs with
    | nil =>
        intro start hstart hrun
        cases hrun
        exact hstart
    | cons pair rest ih =>
        intro start hstart hrun
        obtain ⟨hpair, hrest⟩ := List.forall_mem_cons.mp hpairs
        rw [List.foldlM_cons] at hrun
        obtain ⟨after, hstep, hrun⟩ := Option.bind_eq_some_iff.mp hrun
        exact ih hrest (hstart.assignAt hpair hstep) hrun
  exact hfold Entries.Distinct.nil hrun

/-! ### Values that are read -/

section

open Scan

theorem gives_integerValue (value : Int) : Gives Value.KeysDistinct (integerValue value) := by
  unfold integerValue
  split
  · exact gives_pure (.integer _)
  · exact gives_failure

theorem gives_integer : Gives Value.KeysDistinct integer := by
  have hmarked : ∀ mark base, Gives Value.KeysDistinct (markedInteger mark base) :=
    fun mark base => gives_after fun _ => gives_after fun _ => gives_integerValue _
  have hdecimal : Gives Value.KeysDistinct decimalInteger :=
    gives_after fun _ => gives_after fun _ => gives_integerValue _
  exact gives_orElse (hmarked _ _)
    (gives_orElse (hmarked _ _) (gives_orElse (hmarked _ _) hdecimal))

theorem gives_scalar : Gives Value.KeysDistinct scalar := by
  have hboolean : Gives Value.KeysDistinct boolean :=
    gives_orElse (gives_map (gives_of_forall fun _ => .boolean true))
      (gives_map (gives_of_forall fun _ => .boolean false))
  have hdateTime : Gives Value.KeysDistinct dateTime :=
    gives_map (gives_of_forall fun found => .dateTime _ _)
  exact gives_orElse (gives_map (gives_of_forall .string))
    (gives_orElse hboolean (gives_orElse hdateTime
      (gives_orElse (gives_map (gives_of_forall .float)) gives_integer)))

variable {item : Scan Value}

theorem gives_array (hitem : Gives Value.KeysDistinct item) :
    Gives Value.KeysDistinct (array item) := by
  have hpadded : Gives Value.KeysDistinct (gap *> item <* gap) :=
    gives_seqLeft (gives_seqRight hitem)
  refine gives_after fun _ => gives_bind (gives_maybe (gives_sepBy1 hpadded)) fun items hitems => ?_
  have hfound : ∀ v ∈ items.getD [], v.KeysDistinct := by
    cases items with
    | none => simp
    | some found => exact hitems found rfl
  have hrest : Gives Value.KeysDistinct (do
      gap
      Scan.char ']'
      return .array .bracketed (items.getD [])) :=
    gives_after fun _ => gives_after fun _ => gives_pure (.array _ hfound)
  split
  · exact gives_after fun _ => hrest
  · exact hrest

theorem gives_assignment (hitem : Gives Value.KeysDistinct item) :
    Gives (fun pair => pair.2.KeysDistinct) (assignment item) :=
  gives_after fun _ => gives_after fun _ => gives_after fun _ =>
    gives_bind hitem fun _ hv => gives_pure hv

theorem gives_inlineTable (hitem : Gives Value.KeysDistinct item) :
    Gives Value.KeysDistinct (inlineTable item) := by
  have hpair : Gives (fun pair => pair.2.KeysDistinct) (assignment item <* spaces) :=
    gives_seqLeft (gives_assignment hitem)
  refine gives_after fun _ => gives_bind (gives_maybe (gives_sepBy1 hpair)) fun pairs hpairs => ?_
  have hfound : ∀ pair ∈ pairs.getD [], pair.2.KeysDistinct := by
    cases pairs with
    | none => simp
    | some found => exact hpairs found rfl
  refine gives_after fun _ => gives_after fun _ => gives_map ?_
  intro cs table rest hrun
  exact Value.keysDistinct_table_iff.mpr
    (Table.keysDistinct_ofAssignments? hfound (gives_lift cs table rest hrun))

/-- A value is read without a key twice in any table. -/
theorem gives_value (depth : Nat) : Gives Value.KeysDistinct (value depth) := by
  induction depth with
  | zero => exact gives_scalar
  | succ depth ih =>
      exact gives_orElse (gives_array ih) (gives_orElse (gives_inlineTable ih) gives_scalar)

end

/-! ### Tables while a document is read -/

/-- A node in which no table, however deep, has a key twice. -/
inductive Node.KeysDistinct : Node → Prop
  | value {v : Value} (h : v.KeysDistinct) : KeysDistinct (.value v)
  | table (form : TableForm) {entries : List (String × Node)}
      (hkeys : (Entries.keys entries).Nodup) (h : ∀ entry ∈ entries, KeysDistinct entry.2) :
      KeysDistinct (.table form entries)
  | tables {earlier : List (List (String × Node))} {latest : List (String × Node)}
      (hearlierKeys : ∀ entries ∈ earlier, (Entries.keys entries).Nodup)
      (hearlier : ∀ entries ∈ earlier, ∀ entry ∈ entries, KeysDistinct entry.2)
      (hkeys : (Entries.keys latest).Nodup) (h : ∀ entry ∈ latest, KeysDistinct entry.2) :
      KeysDistinct (.tables earlier latest)

/-- Nodes in which no table, themselves and however deep, has a key twice. -/
abbrev Nodes.KeysDistinct (entries : Nodes) : Prop :=
  Entries.Distinct Node.KeysDistinct entries

namespace Node.KeysDistinct

variable {form : TableForm} {entries latest : Nodes} {earlier : List (List (String × Node))}

theorem table_iff : (Node.table form entries).KeysDistinct ↔ Nodes.KeysDistinct entries := by
  constructor
  · intro h
    cases h with
    | table _ hkeys h => exact ⟨hkeys, h⟩
  · intro h
    exact .table form h.keys h.found

theorem tables_iff : (Node.tables earlier latest).KeysDistinct ↔
    (∀ entries ∈ earlier, Nodes.KeysDistinct entries) ∧ Nodes.KeysDistinct latest := by
  constructor
  · intro h
    cases h with
    | tables hearlierKeys hearlier hkeys h =>
        exact ⟨fun entries he => ⟨hearlierKeys entries he, hearlier entries he⟩, hkeys, h⟩
  · rintro ⟨hearlier, hlatest⟩
    exact .tables (fun entries he => (hearlier entries he).keys)
      (fun entries he => (hearlier entries he).found) hlatest.keys hlatest.found

/-- A table is distinct once what is put into it is. -/
theorem map_table {result : Option Nodes} (h : ∀ inner ∈ result, Nodes.KeysDistinct inner) :
    ∀ node ∈ result.map (Node.table form), node.KeysDistinct := by
  intro node hnode
  obtain ⟨inner, hinner, rfl⟩ := Option.map_eq_some_iff.mp hnode
  exact table_iff.mpr (h inner hinner)

/-- A sequence of tables is distinct once what is put into its latest one is. -/
theorem map_tables {result : Option Nodes}
    (hearlier : ∀ entries ∈ earlier, Nodes.KeysDistinct entries)
    (h : ∀ latest ∈ result, Nodes.KeysDistinct latest) :
    ∀ node ∈ result.map (Node.tables earlier), node.KeysDistinct := by
  intro node hnode
  obtain ⟨latest, hlatest, rfl⟩ := Option.map_eq_some_iff.mp hnode
  exact tables_iff.mpr ⟨hearlier, h latest hlatest⟩

end Node.KeysDistinct

namespace Nodes.KeysDistinct

variable {entries changed : Nodes} {v : Value}

/-- What a path leads to may be changed in any way that keeps keys distinct. -/
theorem within {path : List String} {f : Nodes → Option Nodes} (h : entries.KeysDistinct)
    (hf : ∀ {entries changed : Nodes}, entries.KeysDistinct → f entries = some changed →
      changed.KeysDistinct)
    (hrun : entries.within path f = some changed) : changed.KeysDistinct := by
  induction path generalizing entries changed with
  | nil => exact hf h hrun
  | cons key path ih =>
      refine h.alter ?_ hrun
      intro found hfound x hx
      match found, hx with
      | none, hx =>
          exact Node.KeysDistinct.map_table (fun _ hinner => ih Entries.Distinct.nil hinner) x hx
      | some (.table form inner), hx =>
          have hinner := Node.KeysDistinct.table_iff.mp (hfound _ rfl)
          exact Node.KeysDistinct.map_table (fun _ hafter => ih hinner hafter) x hx
      | some (.tables earlier latest), hx =>
          obtain ⟨hearlier, hlatest⟩ := Node.KeysDistinct.tables_iff.mp (hfound _ rfl)
          exact Node.KeysDistinct.map_tables hearlier (fun _ hafter => ih hlatest hafter) x hx

theorem openTable {path : KeyPath} (h : entries.KeysDistinct)
    (hrun : entries.openTable path = some changed) : changed.KeysDistinct := by
  refine within h (fun {entries changed} h hrun => ?_) hrun
  cases hfound : entries.lookup path.key with
  | none =>
      simp only [hfound, Option.some.injEq] at hrun
      rw [← hrun]
      exact h.add (Entries.lookup_eq_none_iff.mp hfound)
        (Node.KeysDistinct.table_iff.mpr Entries.Distinct.nil)
  | some found =>
      cases found with
      | value v => simp [hfound] at hrun
      | tables earlier latest => simp [hfound] at hrun
      | table form inner =>
          cases form with
          | headed => simp [hfound] at hrun
          | dotted => simp [hfound] at hrun
          | implied =>
              simp only [hfound, Option.some.injEq] at hrun
              rw [← hrun]
              have hinner := Node.KeysDistinct.table_iff.mp (h.of_lookup hfound)
              exact h.move (Node.KeysDistinct.table_iff.mpr hinner)

theorem openNext {path : KeyPath} (h : entries.KeysDistinct)
    (hrun : entries.openNext path = some changed) : changed.KeysDistinct := by
  refine within h (fun {entries changed} h hrun => h.alter ?_ hrun) hrun
  intro found hfound x hx
  match found, hx with
  | none, hx =>
      cases hx
      exact Node.KeysDistinct.tables_iff.mpr ⟨by simp, Entries.Distinct.nil⟩
  | some (.tables earlier latest), hx =>
      cases hx
      obtain ⟨hearlier, hlatest⟩ := Node.KeysDistinct.tables_iff.mp (hfound _ rfl)
      refine Node.KeysDistinct.tables_iff.mpr ⟨fun entries hentries => ?_, Entries.Distinct.nil⟩
      rcases List.mem_append.mp hentries with hentries | hentries
      · exact hearlier entries hentries
      · rw [List.mem_singleton.mp hentries]
        exact hlatest

theorem assignAt {path : List String} {key : String} (h : entries.KeysDistinct)
    (hv : v.KeysDistinct) (hrun : entries.assignAt path key v = some changed) :
    changed.KeysDistinct := by
  induction path generalizing entries changed with
  | nil =>
      refine h.alter ?_ hrun
      rintro (_ | found) hfound x ⟨⟩
      exact .value hv
  | cons parent path ih =>
      refine h.alter ?_ hrun
      intro found hfound x hx
      match found, hx with
      | none, hx =>
          exact Node.KeysDistinct.map_table (fun _ hinner => ih Entries.Distinct.nil hinner) x hx
      | some (.table .dotted inner), hx =>
          have hinner := Node.KeysDistinct.table_iff.mp (hfound _ rfl)
          exact Node.KeysDistinct.map_table (fun _ hafter => ih hinner hafter) x hx
      | some (.table .implied inner), hx =>
          obtain ⟨-, hx⟩ := Option.ite_none_left_eq_some.mp hx
          have hinner := Node.KeysDistinct.table_iff.mp (hfound _ rfl)
          exact Node.KeysDistinct.map_table (fun _ hafter => ih hinner hafter) x hx
      | some (.tables earlier latest), hx =>
          obtain ⟨-, hx⟩ := Option.ite_none_left_eq_some.mp hx
          obtain ⟨hearlier, hlatest⟩ := Node.KeysDistinct.tables_iff.mp (hfound _ rfl)
          exact Node.KeysDistinct.map_tables hearlier (fun _ hafter => ih hlatest hafter) x hx

theorem assign {path : KeyPath} (h : entries.KeysDistinct) (hv : v.KeysDistinct)
    (hrun : entries.assign path v = some changed) : changed.KeysDistinct :=
  h.assignAt hv hrun

end Nodes.KeysDistinct

/-! ### Finished documents -/

theorem Nodes.keys_toTable (entries : Nodes) :
    Entries.keys (Nodes.toTable entries) = entries.keys := by
  induction entries with
  | nil => rfl
  | cons entry rest ih => exact congrArg (entry.1 :: ·) ih

mutual

theorem Node.KeysDistinct.toValue : ∀ node : Node, node.KeysDistinct → node.toValue.KeysDistinct
  | .value _, .value h => h
  | .table _ entries, .table _ hkeys h =>
      .table (Nodes.keys_toTable entries ▸ hkeys) (Nodes.keysDistinct_toTable entries h)
  | .tables earlier latest, .tables hearlierKeys hearlier hkeys h => by
      refine .array .headed fun v hv => ?_
      rcases List.mem_append.mp hv with hv | hv
      · exact Nodes.keysDistinct_toTables earlier hearlierKeys hearlier v hv
      · rw [List.mem_singleton.mp hv]
        exact .table (Nodes.keys_toTable latest ▸ hkeys) (Nodes.keysDistinct_toTable latest h)

theorem Nodes.keysDistinct_toTable : ∀ entries : List (String × Node),
    (∀ entry ∈ entries, entry.2.KeysDistinct) →
    ∀ entry ∈ Nodes.toTable entries, entry.2.KeysDistinct
  | [], _ => fun _ hentry => absurd hentry List.not_mem_nil
  | (key, node) :: rest, h => by
      obtain ⟨hnode, hrest⟩ := List.forall_mem_cons.mp h
      exact List.forall_mem_cons.mpr
        ⟨Node.KeysDistinct.toValue node hnode, Nodes.keysDistinct_toTable rest hrest⟩

theorem Nodes.keysDistinct_toTables : ∀ all : List (List (String × Node)),
    (∀ entries ∈ all, (Entries.keys entries).Nodup) →
    (∀ entries ∈ all, ∀ entry ∈ entries, entry.2.KeysDistinct) →
    ∀ v ∈ Nodes.toTables all, v.KeysDistinct
  | [], _, _ => fun _ hv => absurd hv List.not_mem_nil
  | entries :: rest, hkeys, h => by
      obtain ⟨hfirstKeys, hrestKeys⟩ := List.forall_mem_cons.mp hkeys
      obtain ⟨hfirst, hrest⟩ := List.forall_mem_cons.mp h
      have htable : Value.KeysDistinct (.table (Nodes.toTable entries)) :=
        .table (Nodes.keys_toTable entries ▸ hfirstKeys) (Nodes.keysDistinct_toTable entries hfirst)
      exact List.forall_mem_cons.mpr ⟨htable, Nodes.keysDistinct_toTables rest hrestKeys hrest⟩

end

/-! ### Lines -/

/-- A line that assigns a value whose keys are distinct, or none. -/
def Line.KeysDistinct : Line → Prop
  | .assign _ v => v.KeysDistinct
  | .blank => True
  | .header _ => True
  | .nextHeader _ => True

theorem gives_line : Scan.Gives Line.KeysDistinct line := by
  have hheader : Scan.Gives Line.KeysDistinct header :=
    Scan.gives_orElse (Scan.gives_map (Scan.gives_of_forall fun _ => trivial))
      (Scan.gives_map (Scan.gives_of_forall fun _ => trivial))
  have hassigned : Scan.Gives Line.KeysDistinct
      ((fun pair => Line.assign pair.1 pair.2) <$> assignment (value maxDepth)) :=
    Scan.gives_map (gives_assignment (gives_value maxDepth))
  exact Scan.gives_after fun _ =>
    Scan.gives_bind (Scan.gives_orElse hheader
        (Scan.gives_orElse hassigned (Scan.gives_pure trivial))) fun _ hcontent =>
      Scan.gives_after fun _ => Scan.gives_pure hcontent

/-- A line keeps the keys of a document distinct. -/
theorem Draft.keysDistinct_step {d after : Draft} {line : Line} (h : d.entries.KeysDistinct)
    (hline : line.KeysDistinct) (hrun : d.step line = some after) : after.entries.KeysDistinct := by
  cases line with
  | blank =>
      cases hrun
      exact h
  | header path =>
      obtain ⟨entries, hopen, rfl⟩ := Option.map_eq_some_iff.mp hrun
      exact h.openTable hopen
  | nextHeader path =>
      obtain ⟨entries, hopen, rfl⟩ := Option.map_eq_some_iff.mp hrun
      exact h.openNext hopen
  | assign path v =>
      obtain ⟨entries, hassign, rfl⟩ := Option.map_eq_some_iff.mp hrun
      exact h.within (fun h hrun => h.assign hline hrun) hassign

theorem Draft.keysDistinct_run {lines : List Line} {d last : Draft} (h : d.entries.KeysDistinct)
    (hlines : ∀ line ∈ lines, line.KeysDistinct) (hrun : lines.foldlM step d = some last) :
    last.entries.KeysDistinct := by
  induction lines generalizing d with
  | nil =>
      cases hrun
      exact h
  | cons line rest ih =>
      obtain ⟨hline, hrest⟩ := List.forall_mem_cons.mp hlines
      rw [List.foldlM_cons] at hrun
      obtain ⟨after, hstep, hrun⟩ := Option.bind_eq_some_iff.mp hrun
      exact ih (keysDistinct_step h hline hstep) hrest hrun

/-- **No table of a document, itself and however deep, has a key twice.** -/
theorem keysDistinct_of_parse? {text : String} {table : Table} (h : parse? text = some table) :
    table.KeysDistinct := by
  obtain ⟨⟨found, left⟩, hfound, h⟩ := Option.bind_eq_some_iff.mp h
  obtain ⟨draft, hrun, h⟩ := Option.bind_eq_some_iff.mp h
  cases h
  have hlines : Scan.Gives (fun found => ∀ line ∈ found, line.KeysDistinct) documentLines :=
    Scan.gives_after fun _ => Scan.gives_bind (Scan.gives_many gives_line) fun _ hfound =>
      Scan.gives_after fun _ => Scan.gives_pure hfound
  have hdraft : draft.entries.KeysDistinct :=
    Draft.keysDistinct_run Entries.Distinct.nil (hlines _ _ _ hfound) hrun
  exact ⟨Nodes.keys_toTable draft.entries ▸ hdraft.keys,
    Nodes.keysDistinct_toTable draft.entries hdraft.found⟩

/-- No key of a document comes twice. -/
theorem nodup_keys_of_parse? {text : String} {table : Table} (h : parse? text = some table) :
    table.keys.Nodup :=
  (keysDistinct_of_parse? h).keys

end TheoryScript.Toml
