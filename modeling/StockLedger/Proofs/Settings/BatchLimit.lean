import Mathlib.Tactic.Common
import StockLedger.Proofs.Text.Decimal
import StockLedger.Settings.Basic

/-!
# Batch limits that can be set

* `SettingNumber.ofChars_digits` : every number of 64 bits is read from its digits;
* `Settings.exists_batchLimit` : so every batch limit can be asked for.
-/

namespace StockLedger

/-! ## Blanks -/

theorem isBlank_of_isDigit {c : Char} (h : c.isDigit = true) : isBlank c = false := by
  have hrange : 48 ≤ c.toNat ∧ c.toNat ≤ 57 := by
    simpa [Char.isDigit, Char.le_def, UInt32.le_iff_toNat_le] using h
  simp only [isBlank, Bool.or_eq_false_iff, Bool.and_eq_false_iff, decide_eq_false_iff_not,
    beq_eq_false_iff_ne]
  omega

theorem dropWhile_isBlank {cs : List Char} (h : ∀ c ∈ cs, isBlank c = false) :
    cs.dropWhile isBlank = cs := by
  cases cs with
  | nil => rfl
  | cons c cs => rw [List.dropWhile_cons_of_neg (by simp [h c List.mem_cons_self])]

theorem trimBlanks_eq_self {cs : List Char} (h : ∀ c ∈ cs, isBlank c = false) :
    trimBlanks cs = cs := by
  have hreverse : ∀ c ∈ cs.reverse, isBlank c = false :=
    fun c hc => h c (List.mem_reverse.1 hc)
  rw [trimBlanks, skipBlanks, dropWhile_isBlank h, dropWhile_isBlank hreverse, List.reverse_reverse]

/-! ## Digits -/

namespace SettingNumber

theorem le_ofDigitChars (cs : List Char) (acc : Nat) : acc ≤ Nat.ofDigitChars 10 cs acc := by
  induction cs generalizing acc with
  | nil => exact Nat.le_refl acc
  | cons c cs ih =>
    rw [Nat.ofDigitChars_cons]
    have := ih (10 * acc + (c.toNat - '0'.toNat))
    omega

theorem readFrom_eq {cs : List Char} (hcs : ∀ c ∈ cs, c.isDigit = true) {acc : Nat}
    (h : Nat.ofDigitChars 10 cs acc ≤ maxWord) :
    readFrom acc cs = .ok (Nat.ofDigitChars 10 cs acc) := by
  induction cs generalizing acc with
  | nil => rw [readFrom, Nat.ofDigitChars_nil]
  | cons c cs ih =>
    have hzero : '0'.toNat = 48 := rfl
    have hnext : 10 * acc + (c.toNat - '0'.toNat) = acc * 10 + (c.toNat - 48) := by omega
    rw [Nat.ofDigitChars_cons, hnext] at h ⊢
    have hle := Nat.le_trans (le_ofDigitChars cs (acc * 10 + (c.toNat - 48))) h
    have hdigit : c.isDigit = true := hcs c List.mem_cons_self
    rw [readFrom, if_neg (by omega), if_pos hdigit]
    dsimp only
    rw [if_neg (by omega)]
    exact ih (fun d hd => hcs d (List.mem_cons_of_mem c hd)) h

/-- Every number of 64 bits is read from its digits. -/
theorem ofChars_digits {n : Nat} (h : n ≤ maxWord) : ofChars (Decimal.digits n) = .ok n := by
  have hdigits : ∀ c ∈ Decimal.digits n, c.isDigit = true :=
    fun c hc => Decimal.isDigit_of_mem_digits hc
  have hread : readFrom 0 (Decimal.digits n) = .ok n := by
    have hvalue : Nat.ofDigitChars 10 (Decimal.digits n) 0 = n := Decimal.value_digits n
    rw [readFrom_eq hdigits (by rw [hvalue]; exact h), hvalue]
  rw [ofChars, trimBlanks_eq_self fun c hc => isBlank_of_isDigit (hdigits c hc)]
  unfold ofTrimmed
  -- no numeral is empty or begins with a plus sign
  split
  · next hnil => exact absurd hnil (Decimal.digits_ne_nil n)
  · next hplus => cases hdigits '+' (by simp [hplus])
  · next hplus => cases hdigits '+' (by simp [hplus])
  · exact hread

end SettingNumber

namespace Settings

/-- An environment that asks for a batch limit and for nothing else. -/
def onlyBatchLimit (limit : UInt64) : Lookup := fun key =>
  if key = "SWEEP_BATCH_LIMIT" then some (Decimal.nat limit.toNat) else none

theorem numberOf_unset {env : Lookup} {key : String} (h : env key = none) :
    numberOf env key = .ok none := by
  rw [numberOf, textOf, h]
  rfl

theorem spanOf_unset {env : Lookup} {key : String} (h : env key = none) (default : Span) :
    spanOf env key default = .ok default := by
  rw [spanOf, secondsOf, numberOf_unset h]
  rfl

theorem numberOf_nat {env : Lookup} {key : String} {n : Nat} (h : env key = some (Decimal.nat n))
    (hn : n ≤ SettingNumber.maxWord) : numberOf env key = .ok (some n) := by
  have hdigits : ∀ c ∈ Decimal.digits n, isBlank c = false :=
    fun c hc => isBlank_of_isDigit (Decimal.isDigit_of_mem_digits hc)
  have hchars : (Decimal.nat n).toList = Decimal.digits n := String.toList_ofList
  have htext : textOf env key = some (Decimal.nat n) := by
    rw [textOf, h, Option.filter_some_pos]
    rw [hchars, trimBlanks_eq_self hdigits]
    simp [Decimal.digits_ne_nil]
  rw [numberOf, htext]
  dsimp only
  rw [hchars, SettingNumber.ofChars_digits hn]

/-- Every batch limit can be asked for. -/
theorem exists_batchLimit (limit : UInt64) :
    ∃ settings, ofLookup (onlyBatchLimit limit) = .ok settings ∧
      settings.sweep.batchLimit = limit := by
  have hunset {key : String} (hkey : key ≠ "SWEEP_BATCH_LIMIT") :
      onlyBatchLimit limit key = none := if_neg hkey
  have hword : limit.toNat ≤ SettingNumber.maxWord := by
    have hlt := limit.toNat_lt
    have hmax : SettingNumber.maxWord = 18446744073709551615 := rfl
    omega
  have hlimit : numberOf (onlyBatchLimit limit) "SWEEP_BATCH_LIMIT" = .ok (some limit.toNat) :=
    numberOf_nat (if_pos rfl) hword
  have hread : (ofLookup (onlyBatchLimit limit)).map (fun s => s.sweep.batchLimit) =
      .ok (UInt64.ofNat limit.toNat) := by
    rw [ofLookup, spanOf_unset (hunset (by decide)), spanOf_unset (hunset (by decide)), hlimit,
      spanOf_unset (hunset (by decide)), spanOf_unset (hunset (by decide)),
      spanOf_unset (hunset (by decide))]
    rfl
  rw [UInt64.ofNat_toNat] at hread
  cases hsettings : ofLookup (onlyBatchLimit limit) with
  | error f =>
    rw [hsettings] at hread
    cases hread
  | ok settings =>
    rw [hsettings] at hread
    exact ⟨settings, rfl, Except.ok.inj hread⟩

end Settings
end StockLedger
