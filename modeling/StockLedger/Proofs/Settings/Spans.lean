import Mathlib.Tactic.Common
import StockLedger.Settings.Basic

/-!
# The spans of accepted settings

* `Span.Settable` : the spans that a setting may ask for;
* `Settings.settable_spanOf` : no setting that is accepted asks for another one;
* `Settings.timed_ofLookup` : all spans of the settings that an environment asks for.
-/

namespace StockLedger

/-- A positive number of whole seconds that a setting may ask for. -/
def Span.Settable (d : Span) : Prop :=
  ∃ n : Nat, 0 < n ∧ n ≤ Span.maxSeconds ∧ d = .ofSeconds n

theorem Span.settable_ofSeconds {n : Nat} (h : 0 < n ∧ n ≤ Span.maxSeconds := by decide) :
    (Span.ofSeconds n).Settable :=
  ⟨n, h.1, h.2, rfl⟩

namespace Settings

variable {env : Lookup} {key : String} {d span : Span} {n : Nat} {s : Settings}

/-- What is accepted as a whole is accepted in its first part. -/
theorem of_bind_eq_ok {ε α β : Type} {x : Except ε α} {f : α → Except ε β} {b : β}
    (h : (x >>= f) = .ok b) : ∃ a, x = .ok a ∧ f a = .ok b := by
  cases x with
  | ok a => exact ⟨a, rfl, h⟩
  | error e => cases h

theorem range_of_secondsOf (h : secondsOf env key = .ok (some n)) :
    0 < n ∧ n ≤ Span.maxSeconds := by
  rcases of_bind_eq_ok h with ⟨number, -, hnumber⟩
  cases number with
  | none => cases hnumber
  | some m =>
    dsimp only at hnumber
    split at hnumber
    · cases hnumber
    split at hnumber
    · cases hnumber
    cases hnumber
    omega

/-- A setting that is unset leaves the default as it is. -/
theorem settable_spanOf (hdefault : d.Settable) (h : spanOf env key d = .ok span) :
    span.Settable := by
  rcases of_bind_eq_ok h with ⟨seconds, hseconds, hspan⟩
  cases seconds with
  | none =>
    cases hspan
    exact hdefault
  | some n =>
    cases hspan
    exact Span.settable_ofSeconds (range_of_secondsOf hseconds)

/-- All spans are such that a setting may ask for them. -/
structure Timed (s : Settings) : Prop where
  reservationTtl : s.reservationTtl.Settable
  interval : s.sweep.interval.Settable
  budget : ∃ d : Span, s.sweep.budget = some d ∧ d.Settable
  item : s.cache.item.Settable
  lowStock : s.cache.lowStock.Settable

theorem timed_ofLookup (h : ofLookup env = .ok s) : s.Timed := by
  -- One step for each setting, in the order in which they are read.
  rcases of_bind_eq_ok h with ⟨reservationTtl, hreservation, h⟩
  rcases of_bind_eq_ok h with ⟨interval, hinterval, h⟩
  rcases of_bind_eq_ok h with ⟨batchLimit, -, h⟩
  rcases of_bind_eq_ok h with ⟨budget, hbudget, h⟩
  rcases of_bind_eq_ok h with ⟨item, hitem, h⟩
  rcases of_bind_eq_ok h with ⟨lowStock, hlowStock, h⟩
  cases h
  exact {
    reservationTtl := settable_spanOf Span.settable_ofSeconds hreservation
    interval := settable_spanOf Span.settable_ofSeconds hinterval
    budget := ⟨budget, rfl, settable_spanOf Span.settable_ofSeconds hbudget⟩
    item := settable_spanOf Span.settable_ofSeconds hitem
    lowStock := settable_spanOf Span.settable_ofSeconds hlowStock }

end Settings
end StockLedger
