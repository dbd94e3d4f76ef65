import Mathlib.Tactic.Common
import StockLedger.Proofs.Text.Decimal
import StockLedger.Proofs.Time.Calendar
import StockLedger.Time.Reader
import StockLedger.Time.Written

/-!
# Instants read back

Each reader of a part finds the part again in front of whatever follows it. The parts of an instant
in its written form are those of the instant, so the whole is read back as it was.

* `Timestamp.readFields_zulu` : the fields of the written form;
* `Timestamp.ofString?_zulu` : the instant that the written form denotes.
-/

namespace StockLedger

/-! ## Blanks -/

theorem not_isBlank_of_isDigit {c : Char} (h : c.isDigit = true) : isBlank c = false := by
  have hrange : 48 ≤ c.toNat ∧ c.toNat ≤ 57 := by
    simpa [Char.isDigit, UInt32.le_iff_toNat_le] using h
  simp [isBlank]
  omega

theorem skipBlanks_cons {c : Char} (h : isBlank c = false) (cs : List Char) :
    skipBlanks (c :: cs) = c :: cs := by
  simp [skipBlanks, h]

theorem skipBlanks_digits {ds rest : List Char} (hne : ds ≠ [])
    (hds : ∀ d ∈ ds, d.isDigit = true) : skipBlanks (ds ++ rest) = ds ++ rest := by
  cases ds with
  | nil => exact absurd rfl hne
  | cons d ds => exact skipBlanks_cons (not_isBlank_of_isDigit (hds d (by simp))) _

namespace Timestamp

/-! ## Fields -/

theorem readDigits_append {most : Nat} {ds rest : List Char} (hne : ds ≠ [])
    (hds : ∀ d ∈ ds, d.isDigit = true) (hlen : ds.length ≤ most)
    (hrest : ds.length = most ∨ NoDigitAhead rest) :
    readDigits most (ds ++ rest) = some (Decimal.value ds, rest) := by
  rw [readDigits, Decimal.span_append hds hlen hrest]
  cases ds with
  | nil => exact absurd rfl hne
  | cons d ds => rfl

theorem readField_padded {n : Nat} (h : n < 100) (rest : List Char) :
    readField (Decimal.padded 2 n ++ rest) = some (n, rest) := by
  have hlen : (Decimal.padded 2 n).length = 2 := Decimal.length_padded (by decide) h
  have hds : ∀ d ∈ Decimal.padded 2 n, d.isDigit = true :=
    fun _ hd => Decimal.isDigit_of_mem_padded hd
  rw [readField, skipBlanks_digits (Decimal.padded_ne_nil 2 n) hds,
    readDigits_append (Decimal.padded_ne_nil 2 n) hds (by omega) (.inl hlen),
    Decimal.value_padded]

theorem readMark_cons {mark : Char} (h : isBlank mark = false) (rest : List Char) :
    readMark mark (mark :: rest) = some ((), rest) := by
  simp [readMark, skipBlanks_cons h]

/-- A year is read back whatever its sign, as long as no digit follows. -/
theorem readYear_yearChars (year : Int) {rest : List Char} (hrest : NoDigitAhead rest) :
    readYear (yearChars year ++ rest) = some (year, rest) := by
  have hds : ∀ n, ∀ d ∈ Decimal.padded 4 n, d.isDigit = true :=
    fun _ _ hd => Decimal.isDigit_of_mem_padded hd
  have hsigned : ∀ n, readDigits (Decimal.padded 4 n ++ rest).length (Decimal.padded 4 n ++ rest) =
      some (n, rest) := by
    intro n
    rw [readDigits_append (Decimal.padded_ne_nil 4 n) (hds n) (by simp) (.inr hrest),
      Decimal.value_padded]
  by_cases h : 0 ≤ year ∧ year ≤ 9999
  · have hlen : (Decimal.padded 4 year.toNat).length = 4 :=
      Decimal.length_padded (by decide) (by omega)
    have hplain : readDigits 4 (Decimal.padded 4 year.toNat ++ rest) =
        some (year.toNat, rest) := by
      rw [readDigits_append (Decimal.padded_ne_nil 4 _) (hds _) (by omega) (.inl hlen),
        Decimal.value_padded]
    rw [yearChars, if_pos h, readYear, skipBlanks_digits (Decimal.padded_ne_nil 4 _) (hds _)]
    cases hcs : Decimal.padded 4 year.toNat with
    | nil => exact absurd hcs (Decimal.padded_ne_nil 4 _)
    | cons c cs =>
      have hc : c.isDigit = true := hds year.toNat c (by simp [hcs])
      have hminus : c ≠ '-' := by rintro rfl; simp at hc
      have hplus : c ≠ '+' := by rintro rfl; simp at hc
      rw [hcs] at hplain
      simp only [List.cons_append] at hplain ⊢
      split
      · next h => exact absurd (List.cons.inj h).1 hminus
      · next h => exact absurd (List.cons.inj h).1 hplus
      · simp [hplain]
        omega
  · rw [yearChars, if_neg h]
    by_cases hneg : year < 0
    · simp only [if_pos hneg, List.cons_append, readYear]
      rw [skipBlanks_cons (by decide)]
      simp only [hsigned, Option.map_some, Option.some.injEq, Prod.mk.injEq, and_true]
      omega
    · simp only [if_neg hneg, List.cons_append, readYear]
      rw [skipBlanks_cons (by decide)]
      simp only [hsigned, Option.map_some, Option.some.injEq, Prod.mk.injEq, and_true]
      omega

theorem value_append_zeros (ds : List Char) (k : Nat) :
    Decimal.value (ds ++ List.replicate k '0') = Decimal.value ds * 10 ^ k := by
  simp [Decimal.value, Nat.ofDigitChars_append, Nat.ofDigitChars_replicate_zero, Nat.mul_comm]

theorem readFraction_digits {width n : Nat} (hw : 0 < width) (hw9 : width ≤ 9) (h : n < 10 ^ width)
    {rest : List Char} (hrest : NoDigitAhead rest) :
    readFraction ('.' :: Decimal.padded width n ++ rest) =
      some (n * 10 ^ (9 - width), rest) := by
  have hlen : (Decimal.padded width n).length = width := Decimal.length_padded hw h
  have hds : ∀ d ∈ Decimal.padded width n, d.isDigit = true :=
    fun _ hd => Decimal.isDigit_of_mem_padded hd
  have hspan := Decimal.span_append hds (by omega : _ ≤ 9) (.inr hrest)
  have hdrop : rest.dropWhile Char.isDigit = rest := by
    cases rest with
    | nil => rfl
    | cons c cs => simp [hrest c (by simp)]
  cases hcs : Decimal.padded width n with
  | nil => exact absurd hcs (Decimal.padded_ne_nil width n)
  | cons c cs =>
    rw [hcs] at hspan
    simp only [List.cons_append] at hspan ⊢
    simp only [readFraction, hspan]
    rw [← hcs, hlen, value_append_zeros, Decimal.value_padded, hdrop]

theorem readFraction_fractionChars {nanos : Nat} (h : nanos < Span.perSecond) :
    readFraction (fractionChars nanos ++ ['Z']) = some (nanos, ['Z']) := by
  have hz : NoDigitAhead ['Z'] := noDigitAhead_cons (by decide) []
  have hsec : Span.perSecond = 1000000000 := rfl
  unfold fractionChars
  split
  · next h0 => subst h0; rfl
  split
  · rw [readFraction_digits (by decide) (by decide) (by omega) hz]
    simp only [Option.some.injEq, Prod.mk.injEq, and_true]
    omega
  split
  · rw [readFraction_digits (by decide) (by decide) (by omega) hz]
    simp only [Option.some.injEq, Prod.mk.injEq, and_true]
    omega
  · rw [readFraction_digits (by decide) (by decide) (by omega) hz]
    simp

/-! ## The written form -/

/-- The second of the day on which an instant falls. -/
def secondOfDay (t : Timestamp) : Nat :=
  (t.seconds % 86400).toNat

theorem secondOfDay_lt (t : Timestamp) : t.secondOfDay < 86400 := by
  unfold secondOfDay
  omega

/-- The fields of the written form: a leap second is second 60. -/
theorem readFields_zulu (t : Timestamp) :
    readFields (t.dateTimeChars ++ ['Z']) = some
      { date := t.date, hour := t.secondOfDay / 3600, minute := t.secondOfDay / 60 % 60
        second := t.secondOfDay % 60 + t.nanos / Span.perSecond
        nanos := t.nanos % Span.perSecond, offset := 0 } := by
  obtain ⟨hm1, hm12, hd1, hd31⟩ := CalendarDate.valid_ofDayNumber (t.seconds / 86400)
  have hmonth : t.date.month < 100 := by
    simp only [date]
    omega
  have hday : t.date.day < 100 := by
    have : CalendarDate.monthLength t.date.year t.date.month ≤ 31 := by
      unfold CalendarDate.monthLength
      split <;> split <;> omega
    simp only [date] at this ⊢
    omega
  have hs := t.secondOfDay_lt
  have hcarry : t.nanos / Span.perSecond ≤ 1 := by
    have := t.nanos_lt
    rw [show Span.perSecond = 1000000000 from rfl]
    omega
  have hyear : ∀ rest, NoDigitAhead ('-' :: rest) := fun rest => noDigitAhead_cons (by decide) rest
  have hh : t.secondOfDay / 3600 < 100 := by omega
  have hm : t.secondOfDay / 60 % 60 < 100 := by omega
  have hsec : t.secondOfDay % 60 + t.nanos / Span.perSecond < 100 := by omega
  have hfrac := readFraction_fractionChars (Nat.mod_lt t.nanos (by decide : 0 < Span.perSecond))
  have hzone : readZone (skipBlanks ['Z']) = some (0, []) := by decide
  have hchars : t.dateTimeChars ++ ['Z'] =
      yearChars t.date.year ++ '-' :: (Decimal.padded 2 t.date.month ++ '-' ::
        (Decimal.padded 2 t.date.day ++ 'T' :: (Decimal.padded 2 (t.secondOfDay / 3600) ++ ':' ::
          (Decimal.padded 2 (t.secondOfDay / 60 % 60) ++ ':' ::
            (Decimal.padded 2 (t.secondOfDay % 60 + t.nanos / Span.perSecond) ++
              (fractionChars (t.nanos % Span.perSecond) ++ ['Z'])))))) := by
    simp only [dateTimeChars, dateChars, timeChars, secondOfDay, List.append_assoc,
      List.cons_append]
  rw [hchars, readFields]
  refine Option.bind_eq_some_iff.2 ⟨_, readYear_yearChars _ (hyear _), ?_⟩
  refine Option.bind_eq_some_iff.2 ⟨_, readMark_cons (by decide) _, ?_⟩
  refine Option.bind_eq_some_iff.2 ⟨_, readField_padded hmonth _, ?_⟩
  refine Option.bind_eq_some_iff.2 ⟨_, readMark_cons (by decide) _, ?_⟩
  refine Option.bind_eq_some_iff.2 ⟨_, readField_padded hday _, ?_⟩
  refine Option.bind_eq_some_iff.2 ⟨((), _), rfl, ?_⟩
  refine Option.bind_eq_some_iff.2 ⟨_, readField_padded hh _, ?_⟩
  refine Option.bind_eq_some_iff.2 ⟨_, readMark_cons (by decide) _, ?_⟩
  refine Option.bind_eq_some_iff.2 ⟨_, readField_padded hm _, ?_⟩
  refine Option.bind_eq_some_iff.2 ⟨_, readMark_cons (by decide) _, ?_⟩
  refine Option.bind_eq_some_iff.2 ⟨_, readField_padded hsec _, ?_⟩
  refine Option.bind_eq_some_iff.2 ⟨_, hfrac, ?_⟩
  exact Option.bind_eq_some_iff.2 ⟨_, hzone, rfl⟩

/-- An instant is read back from its fields. -/
theorem ofFields?_fields (t : Timestamp) :
    ofFields?
      { date := t.date, hour := t.secondOfDay / 3600, minute := t.secondOfDay / 60 % 60
        second := t.secondOfDay % 60 + t.nanos / Span.perSecond
        nanos := t.nanos % Span.perSecond, offset := 0 } = some t := by
  have hsec : Span.perSecond = 1000000000 := rfl
  have hfirst := t.first_le
  have hlast := t.le_last
  have hnanos := t.nanos_lt
  have hs := t.secondOfDay_lt
  have hleap : t.nanos / 1000000000 = 0 ∨
      t.nanos / 1000000000 = 1 ∧ t.secondOfDay % 60 = 59 := by
    by_cases h : 1000000000 ≤ t.nanos
    · have := t.leap h
      unfold secondOfDay
      omega
    · omega
  have hday : t.date.dayNumber = t.seconds / 86400 := CalendarDate.dayNumber_ofDayNumber _
  have hyear : yearInRange t.date.year = true := by
    obtain ⟨hlo, hhi⟩ :=
      CalendarDate.year_ofDayNumber_mem (n := t.seconds / 86400) (by omega) (by omega)
    rw [yearInRange, Bool.and_eq_true]
    exact ⟨decide_eq_true hlo, decide_eq_true hhi⟩
  have hvalid : t.date.Valid := CalendarDate.valid_ofDayNumber _
  have hcond : t.date.Valid ∧ yearInRange t.date.year = true ∧ t.secondOfDay / 3600 < 24 ∧
      t.secondOfDay / 60 % 60 < 60 ∧ t.secondOfDay % 60 + t.nanos / 1000000000 ≤ 60 :=
    ⟨hvalid, hyear, by omega, by omega, by omega⟩
  -- the carried second is taken off again
  have hclock : ((t.secondOfDay / 3600 * 60 + t.secondOfDay / 60 % 60) * 60 +
      (t.secondOfDay % 60 + t.nanos / 1000000000 -
        (t.secondOfDay % 60 + t.nanos / 1000000000) / 60)) = t.secondOfDay := by
    omega
  have hcarried : t.nanos % 1000000000 +
      (t.secondOfDay % 60 + t.nanos / 1000000000) / 60 * 1000000000 = t.nanos := by
    omega
  have hwhole : t.seconds / 86400 * 86400 + (t.secondOfDay : Int) - 0 = t.seconds := by
    unfold secondOfDay
    omega
  have hparts : -8334601228800 ≤ t.seconds ∧ t.seconds ≤ 8210266876799 ∧ t.nanos < 2000000000 ∧
      (1000000000 ≤ t.nanos → t.seconds % 60 = 59) := ⟨hfirst, hlast, hnanos, t.leap⟩
  simp only [ofFields?, hsec, if_pos hcond, hclock, hcarried, hday, hwhole]
  rw [ofParts?, dif_pos hparts]

/-- The written form of an instant denotes that instant. -/
theorem ofString?_zulu (t : Timestamp) : ofString? t.zulu = some t := by
  rw [ofString?, zulu, String.toList_ofList, ofChars?, readFields_zulu, Option.bind_some,
    ofFields?_fields]

end Timestamp
end StockLedger
