/-
Sets of names are listed by their bytes.

The canonical list of a set increases by code point.  A sink takes bytes, so what a reader
of the output sees is an order of bytes.  UTF-8 makes the two the same: a smaller code
point has the smaller bytes, already at the first byte in which the two differ.
-/
import Mathlib.Data.List.Sort
import TheoryScript.Names

namespace TheoryScript.Names

/-! ### Canonical lists increase -/

theorem insert_increasing {name : String} {names : List String}
    (h : names.Pairwise (· < ·)) : (insert name names).Pairwise (· < ·) := by
  induction names with
  | nil => simp [insert]
  | cons first rest ih =>
      obtain ⟨hfirst, hrest⟩ := List.pairwise_cons.mp h
      unfold insert
      split
      · exact h
      · rename_i hne
        split
        · rename_i hlt
          refine List.pairwise_cons.mpr ⟨fun other hother => ?_, h⟩
          rcases List.mem_cons.mp hother with rfl | hother
          · exact hlt
          · exact String.lt_trans hlt (hfirst other hother)
        · rename_i hge
          have hlt : first < name :=
            Std.lt_of_le_of_ne (String.not_lt.mp hge) (fun hc => hne hc.symm)
          refine List.pairwise_cons.mpr ⟨fun other hother => ?_, ih hrest⟩
          rcases mem_insert.mp hother with rfl | hother
          · exact hlt
          · exact hfirst other hother

theorem sorted_increasing (names : List String) : (sorted names).Pairwise (· < ·) := by
  induction names with
  | nil => exact List.Pairwise.nil
  | cons name rest ih => exact insert_increasing ih

/-- A canonical list is determined by its members. -/
theorem sorted_congr {names others : List String} (h : ∀ name, name ∈ names ↔ name ∈ others) :
    sorted names = sorted others := by
  refine (sorted_increasing names).eq_of_mem_iff (sorted_increasing others) fun name => ?_
  rw [mem_sorted, mem_sorted]
  exact h name

/-! ### Code points and bytes -/

/-- The bytes of a name. -/
def bytes (name : String) : List UInt8 :=
  name.toUTF8.data.toList

/-- The order of names by their bytes. -/
def Precedes (a b : String) : Prop :=
  bytes a < bytes b

instance (a b : String) : Decidable (Precedes a b) :=
  inferInstanceAs (Decidable (bytes a < bytes b))

theorem bytes_eq (name : String) : bytes name = name.toList.flatMap String.utf8EncodeChar := by
  rw [bytes, String.toUTF8_eq_toByteArray, ← String.utf8Encode_toList, List.utf8Encode,
    List.toList_data_toByteArray]

theorem byte_lt_iff {m n : Nat} (hm : m < 256) (hn : n < 256) :
    UInt8.ofNat m < UInt8.ofNat n ↔ m < n := by
  rw [UInt8.lt_iff_toNat_lt, UInt8.toNat_ofNat', UInt8.toNat_ofNat']
  omega

theorem byte_eq_iff {m n : Nat} (hm : m < 256) (hn : n < 256) :
    UInt8.ofNat m = UInt8.ofNat n ↔ m = n := by
  rw [← UInt8.toNat_inj, UInt8.toNat_ofNat', UInt8.toNat_ofNat']
  omega

/--
A smaller code point has smaller bytes, whatever follows.  Where the numbers of bytes
differ the first bytes decide; otherwise the digits to the base 64 are compared in turn.
-/
theorem utf8EncodeChar_lt {c d : Char} (h : c < d) (s t : List UInt8) :
    String.utf8EncodeChar c ++ s < String.utf8EncodeChar d ++ t := by
  have hlt : c.val.toNat < d.val.toNat := by
    rw [Char.lt_def, UInt32.lt_iff_toNat_lt] at h
    exact h
  have hmax : d.val.toNat < 1114112 := by
    have hvalid := d.valid
    simp only [UInt32.isValidChar, Nat.isValidChar] at hvalid
    omega
  unfold String.utf8EncodeChar
  generalize c.val.toNat = v at *
  generalize d.val.toNat = w at *
  clear h
  have hdigits : v / 262144 < w / 262144 ∨ v / 262144 = w / 262144 ∧
      (v / 4096 < w / 4096 ∨ v / 4096 = w / 4096 ∧
        (v / 64 < w / 64 ∨ v / 64 = w / 64 ∧ v % 64 < w % 64)) := by omega
  dsimp only
  repeat' split
  all_goals try (exfalso; omega)
  all_goals
    simp (disch := omega) only [List.cons_append, List.cons_lt_cons_iff, byte_lt_iff, byte_eq_iff]
    rcases hdigits with h | ⟨h, h | ⟨h', h | ⟨h'', h⟩⟩⟩ <;> omega

/-- **A name that comes first by its code points comes first by its bytes.** -/
theorem precedes_of_lt {a b : String} (h : a < b) : Precedes a b := by
  have hchars : ∀ l m : List Char, l < m →
      l.flatMap String.utf8EncodeChar < m.flatMap String.utf8EncodeChar := by
    intro l
    induction l with
    | nil =>
        intro m hm
        cases m with
        | nil => exact absurd hm (List.lt_irrefl _)
        | cons d m =>
            obtain ⟨b, rest, hb⟩ := List.exists_cons_of_ne_nil
              (String.utf8EncodeChar_ne_nil (c := d))
            rw [List.flatMap_nil, List.flatMap_cons, hb, List.cons_append]
            exact List.nil_lt_cons _ _
    | cons c l ih =>
        intro m hm
        cases m with
        | nil => exact absurd hm (List.not_lt_nil _)
        | cons d m =>
            rw [List.flatMap_cons, List.flatMap_cons]
            rcases List.cons_lt_cons_iff.mp hm with hcd | ⟨rfl, htail⟩
            · exact utf8EncodeChar_lt hcd _ _
            · exact List.append_left_lt (ih m htail)
  rw [Precedes, bytes_eq, bytes_eq]
  exact hchars a.toList b.toList h

theorem sorted_precedes (names : List String) : (sorted names).Pairwise Precedes :=
  (sorted_increasing names).imp precedes_of_lt

/-- A name does not precede itself, so a list that increases by bytes repeats nothing. -/
theorem nodup_of_precedes {names : List String} (h : names.Pairwise Precedes) :
    names.Nodup := by
  refine h.imp ?_
  rintro a b hab rfl
  exact List.lt_irrefl _ hab

end TheoryScript.Names
