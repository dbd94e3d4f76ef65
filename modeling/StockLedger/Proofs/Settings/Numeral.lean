import Mathlib.Data.List.TakeWhile
import Mathlib.Tactic.Common
import StockLedger.Proofs.Settings.BatchLimit

/-!
# The grammar of numbers in settings

* `SettingNumber.Numeral` : digits, perhaps after a plus sign, and the number that they denote;
* `SettingNumber.Denotes` : a numeral with blanks around it;
* `exists_trimBlanks`, `trimBlanks_append` : what is cut off is blank, and all that is blank is;
* `SettingNumber.ofChars_eq_ok_iff` : the texts that are read are those that denote a number of 64
  bits, and this number is read.
-/

namespace StockLedger

/-! ## Blanks -/

/-- Only blanks are cut off. -/
theorem exists_trimBlanks (cs : List Char) :
    ∃ front back, cs = front ++ trimBlanks cs ++ back ∧ (∀ c ∈ front, isBlank c = true) ∧
      ∀ c ∈ back, isBlank c = true := by
  have hfront : cs = cs.takeWhile isBlank ++ skipBlanks cs := List.takeWhile_append_dropWhile.symm
  have hback : skipBlanks cs =
      trimBlanks cs ++ ((skipBlanks cs).reverse.takeWhile isBlank).reverse := by
    rw [trimBlanks, ← List.reverse_append, List.takeWhile_append_dropWhile, List.reverse_reverse]
  refine ⟨cs.takeWhile isBlank, ((skipBlanks cs).reverse.takeWhile isBlank).reverse, ?_, ?_, ?_⟩
  · rw [List.append_assoc, ← hback]
    exact hfront
  · exact fun c hc => List.mem_takeWhile_imp hc
  · exact fun c hc => List.mem_takeWhile_imp (List.mem_reverse.1 hc)

theorem dropWhile_isBlank_append {front rest : List Char} (h : ∀ c ∈ front, isBlank c = true) :
    (front ++ rest).dropWhile isBlank = rest.dropWhile isBlank :=
  List.dropWhile_append_of_pos h

/-- All blanks around a text without any are cut off. -/
theorem trimBlanks_append {front core back : List Char} (hne : core ≠ [])
    (hfront : ∀ c ∈ front, isBlank c = true) (hcore : ∀ c ∈ core, isBlank c = false)
    (hback : ∀ c ∈ back, isBlank c = true) : trimBlanks (front ++ core ++ back) = core := by
  have hskip : skipBlanks (front ++ core ++ back) = core ++ back := by
    rw [skipBlanks, List.append_assoc, dropWhile_isBlank_append hfront]
    cases core with
    | nil => exact absurd rfl hne
    | cons c cs =>
      have hc : ¬ isBlank c = true := by simp [hcore c List.mem_cons_self]
      exact List.dropWhile_cons_of_neg hc
  have hreverse : ∀ c ∈ back.reverse, isBlank c = true :=
    fun c hc => hback c (List.mem_reverse.1 hc)
  have hkept : ∀ c ∈ core.reverse, isBlank c = false :=
    fun c hc => hcore c (List.mem_reverse.1 hc)
  rw [trimBlanks, hskip, List.reverse_append, dropWhile_isBlank_append hreverse,
    dropWhile_isBlank hkept, List.reverse_reverse]

namespace SettingNumber

variable {cs ds : List Char} {n : Nat}

/-! ## Numerals -/

/-- A numeral and the number that it denotes: digits, perhaps after a plus sign. -/
inductive Numeral : List Char → Nat → Prop
  | bare (ds : List Char) (hne : ds ≠ []) (hds : ∀ c ∈ ds, c.isDigit = true) :
      Numeral ds (Decimal.value ds)
  | plus (ds : List Char) (hne : ds ≠ []) (hds : ∀ c ∈ ds, c.isDigit = true) :
      Numeral ('+' :: ds) (Decimal.value ds)

/-- A text and the number that it denotes: a numeral with blanks around it. -/
def Denotes (text : List Char) (n : Nat) : Prop :=
  ∃ front numeral back, text = front ++ numeral ++ back ∧ Numeral numeral n ∧
    (∀ c ∈ front, isBlank c = true) ∧ ∀ c ∈ back, isBlank c = true

theorem Numeral.ne_nil (h : Numeral cs n) : cs ≠ [] := by
  cases h with
  | bare _ hne => exact hne
  | plus => exact List.cons_ne_nil _ _

theorem Numeral.not_isBlank (h : Numeral cs n) : ∀ c ∈ cs, isBlank c = false := by
  cases h with
  | bare _ _ hds => exact fun c hc => isBlank_of_isDigit (hds c hc)
  | plus ds _ hds =>
    intro c hc
    rcases List.mem_cons.1 hc with rfl | hc
    · decide
    · exact isBlank_of_isDigit (hds c hc)

/-! ## Readers -/

/-- What is read are digits only, and no number of more than 64 bits. -/
theorem of_readFrom {acc : Nat} (hacc : acc ≤ maxWord) (h : readFrom acc cs = .ok n) :
    (∀ c ∈ cs, c.isDigit = true) ∧ Nat.ofDigitChars 10 cs acc = n ∧ n ≤ maxWord := by
  induction cs generalizing acc with
  | nil =>
    cases h
    exact ⟨List.forall_mem_nil _, Nat.ofDigitChars_nil, hacc⟩
  | cons c cs ih =>
    rw [readFrom] at h
    split at h
    · cases h
    split at h
    · next hdigit =>
      dsimp only at h
      split at h
      · cases h
      · next hnext =>
        rcases ih (Nat.not_lt.1 hnext) h with ⟨hdigits, hvalue, hword⟩
        refine ⟨List.forall_mem_cons.2 ⟨hdigit, hdigits⟩, ?_, hword⟩
        have hzero : '0'.toNat = 48 := rfl
        rw [Nat.ofDigitChars_cons, hzero, Nat.mul_comm]
        exact hvalue
    · cases h

theorem readFrom_zero_eq_ok_iff :
    readFrom 0 ds = .ok n ↔
      (∀ c ∈ ds, c.isDigit = true) ∧ Decimal.value ds = n ∧ n ≤ maxWord := by
  constructor
  · exact of_readFrom (Nat.zero_le _)
  · rintro ⟨hds, rfl, hword⟩
    exact readFrom_eq hds hword

theorem ofTrimmed_eq_ok_iff : ofTrimmed cs = .ok n ↔ Numeral cs n ∧ n ≤ maxWord := by
  constructor
  · intro h
    unfold ofTrimmed at h
    split at h
    · cases h
    · cases h
    · next ds hne =>
      rcases readFrom_zero_eq_ok_iff.1 h with ⟨hds, rfl, hword⟩
      exact ⟨.plus ds hne hds, hword⟩
    · next hne _ _ =>
      rcases readFrom_zero_eq_ok_iff.1 h with ⟨hds, rfl, hword⟩
      exact ⟨.bare cs hne hds, hword⟩
  · rintro ⟨h, hword⟩
    cases h with
    | bare ds hne hds =>
      unfold ofTrimmed
      -- no digit is a plus sign
      split
      · exact absurd rfl hne
      · cases hds '+' List.mem_cons_self
      · cases hds '+' List.mem_cons_self
      · exact readFrom_zero_eq_ok_iff.2 ⟨hds, rfl, hword⟩
    | plus ds hne hds =>
      cases ds with
      | nil => exact absurd rfl hne
      | cons d ds => exact readFrom_zero_eq_ok_iff.2 ⟨hds, rfl, hword⟩

/-- The texts that are read, and what is read from them. -/
theorem ofChars_eq_ok_iff : ofChars cs = .ok n ↔ Denotes cs n ∧ n ≤ maxWord := by
  rw [ofChars, ofTrimmed_eq_ok_iff]
  refine and_congr_left fun _ => ⟨fun h => ?_, ?_⟩
  · rcases exists_trimBlanks cs with ⟨front, back, hcs, hfront, hback⟩
    exact ⟨front, trimBlanks cs, back, hcs, h, hfront, hback⟩
  · rintro ⟨front, numeral, back, rfl, h, hfront, hback⟩
    rw [trimBlanks_append h.ne_nil hfront h.not_isBlank hback]
    exact h

end SettingNumber
end StockLedger
