import Mathlib.Algebra.Order.Ring.Int
import Mathlib.Data.List.TakeDrop
import Mathlib.Tactic.Common
import StockLedger.Text.Decimal

/-!
# Numerals read back

What is written by `Decimal.digits`, `Decimal.padded` and `Decimal.intChars` is found again by the
readers, whatever follows it, as long as no digit follows.

* `NoDigitAhead` : a text that does not begin with a digit;
* `Decimal.span_append` : a run of digits is read whole;
* `Decimal.value_padded`, `Decimal.length_padded` : numerals of a fixed width;
* `Decimal.digits_injective`, `Decimal.intChars_injective` : numerals tell numbers apart.
-/

namespace StockLedger

/-- The text does not begin with a digit. -/
def NoDigitAhead (cs : List Char) : Prop :=
  ∀ c ∈ cs.head?, c.isDigit = false

theorem noDigitAhead_cons {c : Char} (h : c.isDigit = false) (cs : List Char) :
    NoDigitAhead (c :: cs) := by
  intro d hd
  have : c = d := by simpa using hd
  simpa [← this] using h

/-- A run of digits in front of such a text ends where the run ends. -/
theorem span_isDigit_append {ds rest : List Char} (hds : ∀ d ∈ ds, d.isDigit = true)
    (hrest : NoDigitAhead rest) : (ds ++ rest).span Char.isDigit = (ds, rest) := by
  rw [List.span_eq_takeWhile_dropWhile, List.takeWhile_append_of_pos hds,
    List.dropWhile_append_of_pos hds]
  cases rest with
  | nil => simp
  | cons c cs =>
    have hc : c.isDigit = false := hrest c (by simp)
    simp [hc]

namespace Decimal

/-! ## Digits -/

theorem digits_ne_nil (n : Nat) : digits n ≠ [] := by
  simp [digits]

theorem digits_of_lt {n : Nat} (h : n < 10) : digits n = [Nat.digitChar n] :=
  Nat.toDigits_of_lt_base h

theorem digits_of_le {n : Nat} (h : 10 ≤ n) :
    digits n = digits (n / 10) ++ [Nat.digitChar (n % 10)] :=
  Nat.toDigits_of_base_le (by decide) h

/-- Only zero is written with a leading zero. -/
theorem head?_digits_ne_zero {n : Nat} (h : 0 < n) : (digits n).head? ≠ some '0' := by
  induction n using Nat.strongRecOn with
  | ind n ih =>
    by_cases hn : n < 10
    · rw [digits_of_lt hn]
      have hdigit : ∀ m < 10, 0 < m → Nat.digitChar m ≠ '0' := by decide
      simpa using hdigit n hn h
    · rw [digits_of_le (by omega)]
      obtain ⟨d, hd⟩ := Option.isSome_iff_exists.1
        (List.isSome_head?.2 (digits_ne_nil (n / 10)))
      have hrec := ih (n / 10) (by omega) (by omega)
      simpa [List.head?_append, hd] using hrec

/-- A numeral of one digit, or one whose first digit is not zero. -/
theorem digits_eq_singleton_or (n : Nat) :
    digits n = ['0'] ∨ ∃ d ds, digits n = d :: ds ∧ d ≠ '0' := by
  rcases Nat.eq_zero_or_pos n with rfl | h
  · exact .inl (digits_of_lt (by decide))
  · right
    cases hds : digits n with
    | nil => exact absurd hds (digits_ne_nil n)
    | cons d ds =>
        refine ⟨d, ds, rfl, ?_⟩
        rintro rfl
        exact head?_digits_ne_zero h (by rw [hds]; rfl)

/-! ## Runs of digits -/

/-- A run of digits is read whole if it is not too long and no digit follows. -/
theorem span_append {most : Nat} {ds rest : List Char} (hds : ∀ d ∈ ds, d.isDigit = true)
    (hlen : ds.length ≤ most) (hrest : ds.length = most ∨ NoDigitAhead rest) :
    span most (ds ++ rest) = (ds, rest) := by
  induction ds generalizing most with
  | nil =>
    cases most with
    | zero => simp [span]
    | succ most =>
      rcases hrest with h | h
      · simp at h
      · cases rest with
        | nil => rfl
        | cons c cs => simp [span, h c (by simp)]
  | cons d ds ih =>
    cases most with
    | zero => simp at hlen
    | succ most =>
      have hd : d.isDigit = true := hds d (by simp)
      have hrec : span most (ds ++ rest) = (ds, rest) := by
        refine ih (fun x hx => hds x (by simp [hx])) (by simpa using hlen) ?_
        simpa using hrest
      simp [span, hd, hrec]

/-! ## Numerals of a fixed width -/

theorem isDigit_of_mem_padded {c : Char} {width n : Nat} (h : c ∈ padded width n) :
    c.isDigit = true := by
  rcases List.mem_append.1 h with hz | hd
  · have : c = '0' := (List.mem_replicate.1 hz).2
    simp [this]
  · exact isDigit_of_mem_digits hd

theorem value_replicate_zero_append (k : Nat) (ds : List Char) :
    value (List.replicate k '0' ++ ds) = value ds := by
  simp [value, Nat.ofDigitChars_append]

theorem value_padded (width n : Nat) : value (padded width n) = n := by
  rw [padded, value_replicate_zero_append, value_digits]

theorem length_digits_le {width n : Nat} (hw : 0 < width) (h : n < 10 ^ width) :
    (digits n).length ≤ width :=
  (Nat.length_toDigits_le_iff (by decide) hw).2 h

theorem length_padded {width n : Nat} (hw : 0 < width) (h : n < 10 ^ width) :
    (padded width n).length = width := by
  have := length_digits_le hw h
  simp only [padded, List.length_append, List.length_replicate]
  omega

theorem padded_ne_nil (width n : Nat) : padded width n ≠ [] := by
  simp [padded, digits_ne_nil]

/-! ## Numerals tell numbers apart -/

theorem digits_injective {m n : Nat} (h : digits m = digits n) : m = n := by
  rw [← value_digits m, h, value_digits]

theorem isDigit_of_head?_digits {n : Nat} {c : Char} (h : (digits n).head? = some c) :
    c.isDigit = true :=
  isDigit_of_mem_digits (List.mem_of_mem_head? h)

theorem intChars_injective {a b : Int} (h : intChars a = intChars b) : a = b := by
  have minus : ∀ m n : Nat, digits m ≠ '-' :: digits n := by
    intro m n hmn
    have : ('-' : Char).isDigit = true := isDigit_of_head?_digits (n := m) (by rw [hmn]; rfl)
    simp at this
  cases a with
  | ofNat m =>
    cases b with
    | ofNat n => simp only [intChars] at h; rw [digits_injective h]
    | negSucc n => exact absurd h (minus m (n + 1))
  | negSucc m =>
    cases b with
    | ofNat n => exact absurd h.symm (minus n (m + 1))
    | negSucc n =>
      have hd : digits (m + 1) = digits (n + 1) := by simpa [intChars] using h
      have := digits_injective hd
      simp only [Int.negSucc.injEq]
      omega

theorem colon_notMem_digits (n : Nat) : ':' ∉ digits n := by
  intro h
  simpa using isDigit_of_mem_digits h

/-- No colon stands in a numeral. -/
theorem colon_notMem_intChars (n : Int) : ':' ∉ intChars n := by
  cases n with
  | ofNat m => exact colon_notMem_digits m
  | negSucc m =>
    intro h
    rcases List.mem_cons.1 h with h | h
    · simp at h
    · exact colon_notMem_digits (m + 1) h

end Decimal
end StockLedger
