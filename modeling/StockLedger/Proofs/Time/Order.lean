import Mathlib.Tactic.Common
import StockLedger.Time.Timestamp

/-!
# The order of instants

* `Timestamp.lt_iff` : by second, then by nanosecond;
* `Timestamp.lt_irrefl`, `lt_trans`, `lt_trichotomy`, `lt_of_lt_of_le` : instants are strictly and
  totally ordered;
* `Timestamp.of_ofNanos?` : an instant that is found by its count of nanoseconds is ordinary;
* `Timestamp.lastSecond`, `Timestamp.add?_seconds` : how far whole seconds may lead.
-/

namespace StockLedger
namespace Timestamp

variable {a b c : Timestamp}

theorem lt_iff : a < b ↔ a.seconds < b.seconds ∨ a.seconds = b.seconds ∧ a.nanos < b.nanos := by
  change a.before b = true ↔ _
  simp [before]

theorem lt_irrefl (a : Timestamp) : ¬ a < a := by
  rw [lt_iff]
  omega

theorem lt_trans (h : a < b) (h' : b < c) : a < c := by
  rw [lt_iff] at h h' ⊢
  omega

theorem lt_trichotomy (a b : Timestamp) : a < b ∨ a = b ∨ b < a := by
  rcases a with ⟨s, n, _, _, _, _⟩
  rcases b with ⟨s', n', _, _, _, _⟩
  simp only [lt_iff, mk.injEq]
  omega

theorem lt_of_lt_of_le (h : a < b) (h' : b ≤ c) : a < c := by
  rcases lt_trichotomy b c with hlt | rfl | hlt
  · exact lt_trans h hlt
  · exact h
  · exact absurd hlt h'

/-! ## Instants by their parts -/

theorem of_ofParts? {seconds : Int} {nanos : Nat} {t : Timestamp}
    (h : ofParts? seconds nanos = some t) : t.seconds = seconds ∧ t.nanos = nanos := by
  unfold ofParts? at h
  split at h
  · cases h
    exact ⟨rfl, rfl⟩
  · cases h

theorem of_ofNanos? {n : Int} {t : Timestamp} (h : ofNanos? n = some t) :
    n = t.seconds * 1000000000 + t.nanos ∧ t.nanos < 1000000000 := by
  rcases of_ofParts? h with ⟨hseconds, hnanos⟩
  have hsecond : (Span.perSecond : Int) = 1000000000 := rfl
  rw [hsecond] at hseconds hnanos
  omega

/-! ## Whole seconds later -/

/-- The last second that any instant has. -/
def lastSecond : Int := 8210266876799

/-- It is the last second of the year 262142. -/
example : CalendarDate.dayNumber ⟨262142, 12, 31⟩ * 86400 + 86399 = lastSecond := by decide

/-- Whole seconds lead out of a leap second into the same place of an ordinary one. -/
theorem add?_ofSeconds {n : Nat} (h : 0 < n) :
    a.add? (.ofSeconds n) = ofParts? (a.seconds + n) (a.nanos % Span.perSecond) := by
  have hsecond : Span.perSecond = 1000000000 := rfl
  have hepoch : a.sinceEpoch = a.seconds * 1000000000 + a.nanos := rfl
  have hspan : (Span.ofSeconds n).nanos = n * 1000000000 := rfl
  have hnanos := a.nanos_lt
  unfold add? ofNanos?
  rw [hepoch, hspan, hsecond]
  split
  · congr 1 <;> omega
  · -- The second that carries the leap second is counted once, not twice.
    rw [if_pos (.inl (by omega))]
    congr 1 <;> omega

/-- There is an instant whole seconds later unless its second would be past the last one. -/
theorem add?_seconds {n : Nat} (h : 0 < n) :
    if a.seconds + n ≤ lastSecond then
      ∃ b, a.add? (.ofSeconds n) = some b ∧ b.seconds = a.seconds + n
    else a.add? (.ofSeconds n) = none := by
  have hfirst := a.first_le
  have hlast : lastSecond = 8210266876799 := rfl
  have hnanos : a.nanos % Span.perSecond < 1000000000 := Nat.mod_lt _ (by decide)
  rw [add?_ofSeconds h]
  unfold ofParts?
  split
  · rw [dif_pos ⟨by omega, by omega, by omega, by omega⟩]
    exact ⟨_, rfl, rfl⟩
  · rw [dif_neg (by omega)]

end Timestamp
end StockLedger
