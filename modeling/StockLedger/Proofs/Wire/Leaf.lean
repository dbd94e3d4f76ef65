import Mathlib.Tactic.Common
import StockLedger.Proofs.Identity.Uuid
import StockLedger.Proofs.Time.Timestamp
import StockLedger.Wire.Leaf

/-!
# Single values read back

* `Uuid.ofJson?_json`, `Timestamp.ofJson?_json`, `Json.int64?_integer` : identities, instants and
  numbers of 64 bits are read back from JSON;
* `Fault.Code.spelling_eq`, `Fault.Category.spelling_eq`, `Reservation.Status.spelling_eq`,
  `StockRelease.Reason.spelling_eq` : the words in JSON are those used everywhere else;
* `Json.oneOf?_str` : a value is read back from its word when no two values share one.
-/

namespace StockLedger

/-! ## Numbers, identities and instants -/

/-- Numbers that fit 64 bits with a sign. -/
def Json.Word64 (n : Int) : Prop :=
  -9223372036854775808 ≤ n ∧ n ≤ 9223372036854775807

instance (n : Int) : Decidable (Json.Word64 n) :=
  inferInstanceAs (Decidable (_ ∧ _))

theorem Json.int64?_integer {n : Int} (h : Json.Word64 n) : (Json.integer n).int64? = some n :=
  if_pos h

theorem Json.word64_of_int64? {j : Json} {n : Int} (h : j.int64? = some n) : Json.Word64 n := by
  unfold Json.int64? Json.integerIn? at h
  split at h
  · split at h
    · cases h
      assumption
    · cases h
  · cases h

theorem Uuid.ofJson?_json (u : Uuid) : Uuid.ofJson? u.json = some u := by
  simp [Uuid.ofJson?, Uuid.json, Json.str, Json.string?, Json.Text.string?, Uuid.ofString?,
    Uuid.text, Uuid.ofChars?_chars]

theorem Timestamp.ofJson?_json (t : Timestamp) : Timestamp.ofJson? t.json = some t := by
  simp [Timestamp.ofJson?, Timestamp.json, Json.str, Json.string?, Json.Text.string?,
    Timestamp.ofString?_zulu]

/-! ## Words -/

/-- A value is found by its word when no two values share one. -/
theorem Json.oneOf?_str {α : Type} {all : List α} {spelling : α → String} {a : α} (ha : a ∈ all)
    (hinj : ∀ b ∈ all, spelling b = spelling a → b = a) :
    (Json.str (spelling a)).oneOf? all spelling = some a := by
  show (all.find? fun b => spelling b == spelling a) = some a
  cases hfound : all.find? fun b => spelling b == spelling a with
  | none => exact absurd (beq_self_eq_true _) (List.find?_eq_none.1 hfound a ha)
  | some b =>
    have hword : (spelling b == spelling a) = true :=
      List.find?_some (p := fun b => spelling b == spelling a) hfound
    rw [hinj b (List.mem_of_find?_eq_some hfound) (beq_iff_eq.1 hword)]

namespace Fault

theorem Code.mem_all (c : Code) : c ∈ Code.all := by
  cases c <;> decide

theorem Code.ofWord?_word (c : Code) : Code.ofWord? c.word = .ok c := by
  cases c <;> rfl

theorem Code.word_injective {a b : Code} (h : a.word = b.word) : a = b := by
  have hcode := congrArg Code.ofWord? h
  rw [Code.ofWord?_word, Code.ofWord?_word] at hcode
  exact Except.ok.inj hcode

/-- The name of a code in capitals is its word. -/
theorem Code.spelling_eq (c : Code) : c.spelling = c.word := by
  cases c <;> rfl

theorem Code.ofJson?_json (c : Code) : Code.ofJson? c.json = some c :=
  Json.oneOf?_str (Code.mem_all c) fun b _ h => by
    rw [Code.spelling_eq, Code.spelling_eq] at h
    exact Code.word_injective h

/-- The name of a category in small letters is its word. -/
theorem Category.spelling_eq (c : Category) : c.spelling = c.word := by
  cases c <;> rfl

end Fault

/-- The name of a status in small letters is its word. -/
theorem Reservation.Status.spelling_eq (s : Reservation.Status) : s.spelling = s.word := by
  cases s <;> rfl

/-- The name of a reason in small letters is its word. -/
theorem StockRelease.Reason.spelling_eq (r : StockRelease.Reason) : r.spelling = r.word := by
  cases r
  rfl

theorem StockRelease.Reason.ofJson?_json (r : StockRelease.Reason) :
    StockRelease.Reason.ofJson? r.json = some r := by
  cases r
  exact Json.oneOf?_str (List.mem_singleton_self _) fun b _ _ => by
    cases b
    rfl

end StockLedger
