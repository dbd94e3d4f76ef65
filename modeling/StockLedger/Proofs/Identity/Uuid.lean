import Mathlib.Algebra.Order.Ring.Int
import Mathlib.Tactic.Common
import StockLedger.Identity.Basic
import StockLedger.Identity.Reader

/-!
# UUIDs read back

* `Uuid.ofChars?_chars` : the hyphenated form of a UUID denotes that UUID;
* `Uuid.text_injective` : different UUIDs are written differently.
-/

namespace StockLedger
namespace Uuid

/-! ## Digits -/

theorem length_hexDigits (count n : Nat) : (hexDigits count n).length = count := by
  induction count generalizing n with
  | zero => rfl
  | succ count ih => simp [hexDigits, ih]

theorem hexValue?_hexDigit (n : Nat) : hexValue? (hexDigit n) = some (n % 16) := by
  have hall : ∀ d < 16, hexValue? (Nat.digitChar d) = some d := by decide
  exact hall (n % 16) (Nat.mod_lt _ (by decide))

theorem hexNumber?_append (acc : Nat) (xs ys : List Char) :
    hexNumber? acc (xs ++ ys) = (hexNumber? acc xs).bind fun a => hexNumber? a ys := by
  induction xs generalizing acc with
  | nil => rfl
  | cons c cs ih =>
    simp only [List.cons_append, hexNumber?]
    cases hexValue? c with
    | none => rfl
    | some d => simpa using ih (acc * 16 + d)

theorem hexNumber?_hexDigits (count n : Nat) :
    hexNumber? 0 (hexDigits count n) = some (n % 16 ^ count) := by
  induction count generalizing n with
  | zero => simp [hexDigits, hexNumber?, Nat.mod_one]
  | succ count ih =>
    rw [hexDigits, hexNumber?_append, ih (n / 16)]
    simp only [Option.bind_some, hexNumber?, hexValue?_hexDigit, Option.some.injEq]
    rw [Nat.pow_succ', Nat.mod_mul]
    omega

theorem ofDigits?_hexDigits (u : Uuid) : ofDigits? (hexDigits 32 u.value) = some u := by
  have hsize : (16 : Nat) ^ 32 = size := by decide
  have hval : u.value % 16 ^ 32 = u.value := Nat.mod_eq_of_lt (hsize ▸ u.value_lt)
  have hofNat : ofNat u.value = u := by
    rcases u with ⟨value, hlt⟩
    simp only [ofNat, Nat.mod_eq_of_lt hlt]
  rw [ofDigits?, if_pos (length_hexDigits ..), hexNumber?_hexDigits, hval, Option.map_some, hofNat]

/-! ## Groups -/

/-- Five groups of the right lengths are taken apart at their hyphens. -/
theorem ungroup?_groups {a b c d e : List Char} (ha : a.length = 8) (hb : b.length = 4)
    (hc : c.length = 4) (hd : d.length = 4) (he : e.length = 12) :
    ungroup? (a ++ '-' :: b ++ '-' :: c ++ '-' :: d ++ '-' :: e) =
      some (a ++ b ++ c ++ d ++ e) := by
  have hlen : (a ++ '-' :: b ++ '-' :: c ++ '-' :: d ++ '-' :: e).length = 36 := by
    simp [ha, hb, hc, hd, he]
  simp only [ungroup?, hlen]
  simp [List.drop_append, List.drop_eq_nil_of_le, ha, hb, hc, hd, he]

theorem ungroup?_hyphenate {cs : List Char} (h : cs.length = 32) :
    ungroup? (hyphenate cs) = some cs := by
  rw [hyphenate, ungroup?_groups (by simp [h]) (by simp [h]) (by simp [h]) (by simp [h])
    (by simp [h])]
  have h16 : (cs.drop 16).take 4 ++ cs.drop 20 = cs.drop 16 := by
    simpa using List.take_append_drop 4 (cs.drop 16)
  have h12 : (cs.drop 12).take 4 ++ cs.drop 16 = cs.drop 12 := by
    simpa using List.take_append_drop 4 (cs.drop 12)
  have h8 : (cs.drop 8).take 4 ++ cs.drop 12 = cs.drop 8 := by
    simpa using List.take_append_drop 4 (cs.drop 8)
  simp only [List.append_assoc, h16, h12, h8, List.take_append_drop]

/-- The hyphenated form begins with a hexadecimal digit. -/
theorem head?_chars (u : Uuid) : ∃ d, d < 16 ∧ u.chars.head? = some (Nat.digitChar d) := by
  have hlen := length_hexDigits 32 u.value
  cases hcs : hexDigits 32 u.value with
  | nil => simp [hcs] at hlen
  | cons c cs =>
    have hmem : ∀ count n, ∀ x ∈ hexDigits count n, ∃ d, d < 16 ∧ x = Nat.digitChar d := by
      intro count
      induction count with
      | zero => intro n x hx; simp [hexDigits] at hx
      | succ count ih =>
        intro n x hx
        rcases List.mem_append.1 hx with hx | hx
        · exact ih _ x hx
        · exact ⟨n % 16, Nat.mod_lt _ (by decide), by simpa [hexDigit] using hx⟩
    obtain ⟨d, hd, rfl⟩ := hmem 32 u.value c (by simp [hcs])
    exact ⟨d, hd, by simp [chars, hyphenate, hcs]⟩

/-- The hyphenated form is neither in braces nor behind the mark of a resource name. -/
theorem unwrap?_chars (u : Uuid) : unwrap? u.chars = none := by
  obtain ⟨d, hd, hhead⟩ := head?_chars u
  have hfirst : ∀ d < 16, Nat.digitChar d ≠ '\x7b' ∧ (Nat.digitChar d).toLower ≠ 'u' := by
    decide
  obtain ⟨hbrace, hmark⟩ := hfirst d hd
  cases hcs : u.chars with
  | nil => simp [hcs] at hhead
  | cons c cs =>
    obtain rfl : c = Nat.digitChar d := by simpa [hcs] using hhead
    have : urnMark = 'u' :: "rn:uuid:".toList := rfl
    simp [unwrap?, hbrace, this, hmark]

/-! ## The written form -/

theorem length_chars (u : Uuid) : u.chars.length = 36 := by
  simp [chars, hyphenate, length_hexDigits]

/-- The hyphenated form of a UUID denotes that UUID. -/
theorem ofChars?_chars (u : Uuid) : ofChars? u.chars = some u := by
  have hplain : ofDigits? u.chars = none := by simp [ofDigits?, length_chars]
  rw [ofChars?, hplain, unwrap?_chars]
  simp only [Option.elim_none]
  rw [chars, ungroup?_hyphenate (length_hexDigits 32 u.value), Option.bind_some,
    ofDigits?_hexDigits]

theorem chars_injective {u v : Uuid} (h : u.chars = v.chars) : u = v := by
  have := ofChars?_chars u
  rw [h, ofChars?_chars] at this
  exact (Option.some.inj this).symm

/-- Different UUIDs are written differently. -/
theorem text_injective {u v : Uuid} (h : u.text = v.text) : u = v := by
  simp only [text] at h
  exact chars_injective (String.ofList_injective h)

end Uuid

theorem ItemId.text_injective {a b : ItemId} (h : a.text = b.text) : a = b := by
  cases a; cases b
  exact congrArg ItemId.mk (Uuid.text_injective h)

theorem ProductId.text_injective {a b : ProductId} (h : a.text = b.text) : a = b := by
  cases a; cases b
  exact congrArg ProductId.mk (Uuid.text_injective h)

end StockLedger
