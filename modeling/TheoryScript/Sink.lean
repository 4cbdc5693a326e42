/-
Where text is written.

A sink holds the text written so far and may have a limit on its length in characters.
A write that does not fit stores the characters that do and fails.  A sink may already
hold more than its limit, and then only the empty text fits.

Texts written one after the other leave a sink as their join would, and fit when it does.  So
a line written in two parts is one write, and so are all the lines of a run.
-/
namespace TheoryScript

/-- A text that grows by writing, up to a limit. -/
structure Sink where
  /-- What was written so far. -/
  text : String := ""
  /-- The greatest length in characters, if there is one. -/
  limit : Option Nat := none
  deriving DecidableEq, Repr

namespace Sink

/-- Whether a text fits behind what a sink holds. -/
def fits (k : Sink) (text : String) : Bool :=
  match k.limit with
  | none => true
  | some limit => text.length ≤ limit - k.text.length

/-- What a sink holds after a write: as much of the text as fits. -/
def store (k : Sink) (text : String) : Sink :=
  match k.limit with
  | none => { k with text := k.text ++ text }
  | some limit =>
      { k with text := k.text ++ String.ofList (text.toList.take (limit - k.text.length)) }

/-- Write a text; the flag says whether all of it was stored. -/
def write (k : Sink) (text : String) : Sink × Bool :=
  (k.store text, k.fits text)

/-- Write a text and then the end of its line; nothing is tried after a failure. -/
def writeLine (k : Sink) (text : String) : Sink × Bool :=
  match k.write text with
  | (after, true) => after.write "\n"
  | (after, false) => (after, false)

/-! ### Writes in sequence -/

theorem store_limited {k : Sink} {n : Nat} (hk : k.limit = some n) (a : String) :
    k.store a
      = { k with text := k.text ++ String.ofList (a.toList.take (n - k.text.length)) } := by
  simp only [store, hk]

theorem fits_limited {k : Sink} {n : Nat} (hk : k.limit = some n) (a : String) :
    k.fits a = decide (a.length ≤ n - k.text.length) := by
  simp only [fits, hk]

@[simp] theorem limit_store (k : Sink) (a : String) : (k.store a).limit = k.limit := by
  unfold store
  split <;> rfl

@[simp] theorem store_empty (k : Sink) : k.store "" = k := by
  unfold store
  split <;> simp

@[simp] theorem fits_empty (k : Sink) : k.fits "" = true := by
  unfold fits
  split <;> simp

/-- What was stored takes its part of the room. -/
theorem room_store {k : Sink} {n : Nat} (hk : k.limit = some n) (a : String) :
    n - (k.store a).text.length = n - k.text.length - a.length := by
  simp only [store_limited hk, String.length_append, String.length_ofList, List.length_take,
    String.length_toList]
  omega

/-- Two texts are stored as one would be, even where the first does not fit. -/
theorem store_append (k : Sink) (a b : String) : k.store (a ++ b) = (k.store a).store b := by
  cases hk : k.limit with
  | none => simp [store, hk, String.append_assoc]
  | some n =>
      have htake : (a ++ b).toList.take (n - k.text.length)
          = a.toList.take (n - k.text.length) ++ b.toList.take (n - k.text.length - a.length) := by
        rw [String.toList_append, List.take_append, String.length_toList]
      have hlimit : (k.store a).limit = some n := by rw [limit_store, hk]
      rw [store_limited hlimit, room_store hk, store_limited hk, store_limited hk, htake,
        String.ofList_append, String.append_assoc]

/-- Two texts fit together when each fits in its turn. -/
theorem fits_append (k : Sink) (a b : String) :
    k.fits (a ++ b) = (k.fits a && (k.store a).fits b) := by
  cases hk : k.limit with
  | none => simp [fits, hk]
  | some n =>
      have hlimit : (k.store a).limit = some n := by rw [limit_store, hk]
      rw [fits_limited hlimit, room_store hk, fits_limited hk, fits_limited hk,
        String.length_append, ← Bool.decide_and, decide_eq_decide]
      omega

/-- Nothing is stored behind a text that did not fit. -/
theorem store_of_not_fits {k : Sink} {a : String} (h : k.fits a = false) (b : String) :
    (k.store a).store b = k.store a := by
  cases hk : k.limit with
  | none => simp [fits, hk] at h
  | some n =>
      have hlimit : (k.store a).limit = some n := by rw [limit_store, hk]
      have hfull : n - k.text.length - a.length = 0 := by
        rw [fits_limited hk, decide_eq_false_iff_not] at h
        omega
      rw [store_limited hlimit, room_store hk, hfull, List.take_zero, String.ofList_nil,
        String.append_empty]

/-- A text and the end of its line are stored or refused as one text. -/
theorem writeLine_eq_write (k : Sink) (text : String) :
    k.writeLine text = k.write (text ++ "\n") := by
  unfold writeLine write
  rw [store_append, fits_append]
  cases h : k.fits text with
  | true => rfl
  | false => simp [store_of_not_fits h]

end Sink

end TheoryScript
