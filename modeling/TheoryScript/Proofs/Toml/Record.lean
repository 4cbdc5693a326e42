/-
The fields of a record.

A document writes a record as a table, or as an array of its fields in order.  Either way
it gives values for a field: those at its key, or the one at its place (`RecordShape.given`).
A reader goes over the keys as they are written and keeps a slot for every field, so what
ends up in a slot depends on the values for that field only (`Fills`), whatever other keys
stand between them.
-/
import Mathlib.Data.List.Forall2
import TheoryScript.Proofs.OptionsFile
import TheoryScript.Toml.ShapeError

namespace TheoryScript.Toml

/-! ### What is given for a field -/

namespace Entries

variable {α : Type} {key : String} {entries : Entries α}

/-- What stands at a key, in written order. -/
def values (key : String) (entries : Entries α) : List α :=
  (entries.filter (·.1 == key)).map Prod.snd

@[simp] theorem values_nil : values key ([] : Entries α) = [] := rfl

@[simp] theorem values_cons (k : String) (found : α) (rest : Entries α) :
    values key ((k, found) :: rest)
      = if k = key then found :: values key rest else values key rest := by
  by_cases hk : k = key
  · simp [values, hk]
  · simp [values, hk]

theorem mem_of_mem_values {found : α} (h : found ∈ entries.values key) :
    (key, found) ∈ entries := by
  obtain ⟨⟨k, x⟩, hentry, rfl⟩ := List.mem_map.mp h
  obtain ⟨hmem, hk⟩ := List.mem_filter.mp hentry
  rw [← beq_iff_eq.mp hk]
  exact hmem

theorem values_eq_nil_of_not_mem (h : key ∉ entries.keys) : entries.values key = [] := by
  refine List.eq_nil_iff_forall_not_mem.mpr fun found hfound => h ?_
  exact List.mem_map.mpr ⟨_, mem_of_mem_values hfound, rfl⟩

/-- Distinct keys give one value for a key at most. -/
theorem length_values_le_one (h : entries.keys.Nodup) : (entries.values key).length ≤ 1 := by
  induction entries with
  | nil => exact Nat.zero_le 1
  | cons entry rest ih =>
      obtain ⟨k, found⟩ := entry
      obtain ⟨hk, hrest⟩ := List.nodup_cons.mp h
      rw [values_cons]
      by_cases hkey : k = key
      · subst hkey
        rw [if_pos rfl, values_eq_nil_of_not_mem hk]
        exact Nat.le_refl 1
      · rw [if_neg hkey]
        exact ih hrest

end Entries

/-- The values that a record gives for a field. -/
def RecordShape.given (r : RecordShape) (field : String) : Value → List Value
  | .table entries => Entries.values field entries
  | .array _ items => items[r.fields.idxOf field]?.toList
  | _ => []

/-- A value is given for a field once at most, where no key comes twice. -/
theorem RecordShape.length_given_le_one (r : RecordShape) (field : String) {v : Value}
    (hv : v.KeysDistinct) : (r.given field v).length ≤ 1 := by
  cases hv with
  | table hkeys _ => exact Entries.length_values_le_one hkeys
  | array style _ => exact Option.length_toList_le
  | _ => exact Nat.zero_le 1

/-- What is given for a field is part of the record. -/
theorem RecordShape.keysDistinct_of_given {r : RecordShape} {field : String} {v w : Value}
    (hv : v.KeysDistinct) (hw : w ∈ r.given field v) : w.KeysDistinct := by
  cases hv with
  | table _ h => exact h _ (Entries.mem_of_mem_values hw)
  | array style h => exact h w (List.mem_of_getElem? (Option.mem_toList.mp hw))
  | _ => cases hw

/-! ### Slots -/

section

variable {α : Type} {decode : Value → Except ShapeError α} {v : Value} {vs : List Value} {x : α}
  {before after : Option α}

/-- Values are decoded in order, and each replaces what was in the slot before. -/
inductive Fills (decode : Value → Except ShapeError α) : List Value → Option α → Option α → Prop
  | kept (slot : Option α) : Fills decode [] slot slot
  | filled {v : Value} {vs : List Value} {x : α} {before after : Option α} (h : decode v = .ok x)
      (hrest : Fills decode vs (some x) after) : Fills decode (v :: vs) before after

theorem fills_nil_iff : Fills decode [] before after ↔ before = after := by
  constructor
  · rintro ⟨⟩
    rfl
  · rintro rfl
    exact .kept before

theorem fills_cons_iff : Fills decode (v :: vs) before after ↔
    ∃ x, decode v = .ok x ∧ Fills decode vs (some x) after := by
  constructor
  · rintro ⟨⟩
    exact ⟨_, ‹_›, ‹_›⟩
  · rintro ⟨x, h, hrest⟩
    exact .filled h hrest

/-- A slot is left empty only where there is no value. -/
theorem fills_empty_iff : Fills decode vs none none ↔ vs = [] := by
  have hsome : ∀ {vs : List Value} {x : α}, ¬Fills decode vs (some x) none := by
    intro vs
    induction vs with
    | nil => simp [fills_nil_iff]
    | cons v rest ih =>
        rintro x h
        obtain ⟨y, -, hrest⟩ := fills_cons_iff.mp h
        exact ih hrest
  cases vs with
  | nil => simp [fills_nil_iff]
  | cons v rest =>
      simp only [fills_cons_iff, reduceCtorEq, iff_false]
      rintro ⟨y, -, hrest⟩
      exact hsome hrest

/-- There is a single value, and it is decoded to `x`. -/
def DecodesOnly (decode : Value → Except ShapeError α) (vs : List Value) (x : α) : Prop :=
  ∃ v, vs = [v] ∧ decode v = .ok x

/-- Where there is one value at most, a full slot has what that value is decoded to. -/
theorem fills_full_iff (h : vs.length ≤ 1) :
    Fills decode vs none (some x) ↔ DecodesOnly decode vs x := by
  match vs, h with
  | [], _ => simp [DecodesOnly, fills_nil_iff]
  | [v], _ => simp [DecodesOnly, fills_cons_iff, fills_nil_iff]

/-- A field of a record is full with what its one value is decoded to. -/
theorem RecordShape.fills_given_iff {r : RecordShape} {field : String} (hv : v.KeysDistinct) :
    Fills decode (r.given field v) none (some x) ↔ DecodesOnly decode (r.given field v) x :=
  fills_full_iff (r.length_given_le_one field hv)

theorem decodesOnly_asString_iff {text : String} :
    DecodesOnly Value.asString vs text ↔ vs = [.string text] := by
  simp [DecodesOnly, Value.asString_eq_ok_iff]

theorem decodesOnly_toList_iff {found : Option Value} :
    DecodesOnly decode found.toList x ↔ ∃ v, found = some v ∧ decode v = .ok x := by
  cases found with
  | none => simp [DecodesOnly]
  | some v => simp [DecodesOnly]

end

/-! ### Results -/

section

variable {α : Type} {v : Value}

theorem map_eq_ok_iff {ε β : Type} {result : Except ε α} {f : α → β} {b : β} :
    f <$> result = .ok b ↔ ∃ a, result = .ok a ∧ f a = b := by
  cases result with
  | error error => simp [Functor.map, Except.map]
  | ok a => simp [Functor.map, Except.map]

theorem required_eq_ok_iff {name : String} {slot : Option α} {x : α} :
    required name slot = .ok x ↔ slot = some x := by
  cases slot with
  | none => simp [required]
  | some y => simp [required]

theorem Value.asItems_eq_ok_iff {items : List Value} :
    v.asItems = .ok items ↔ ∃ style, v = .array style items := by
  cases v <;> simp [asItems]

/-- Several values are decoded where each of them is. -/
theorem mapM_eq_ok_iff {decode : Value → Except ShapeError α} {vs : List Value} {xs : List α} :
    vs.mapM decode = .ok xs ↔ List.Forall₂ (fun v x => decode v = .ok x) vs xs := by
  induction vs generalizing xs with
  | nil =>
      rw [List.mapM_nil, List.forall₂_nil_left_iff]
      exact ⟨fun h => (Except.ok.inj h).symm, fun h => h ▸ rfl⟩
  | cons v rest ih =>
      rw [List.mapM_cons, bind_eq_ok_iff, List.forall₂_cons_left_iff]
      simp only [bind_eq_ok_iff, ih]
      constructor
      · rintro ⟨x, hx, more, hmore, hxs⟩
        exact ⟨x, more, hx, hmore, (Except.ok.inj hxs).symm⟩
      · rintro ⟨x, more, hx, hmore, rfl⟩
        exact ⟨x, hx, more, hmore, rfl⟩

end

end TheoryScript.Toml
