import Mathlib.Tactic.Common
import StockLedger.Json.Printer
import StockLedger.Json.Token
import StockLedger.Proofs.Text.Decimal

/-!
# Tokens of written JSON

* `Json.Lexes` : the tokens of a text, one after another, with blanks between them;
* `Json.tokens?_of_lexes` : the reader finds these tokens;
* `Json.readToken_text`, `Json.readToken_integer` : a written string and a written number are single
  tokens.
-/

namespace StockLedger
namespace Json

/-! ## One token after another -/

/-- The tokens of a text, with blanks between them. -/
inductive Lexes : List Char → List Token → Prop
  | nil : Lexes [] []
  | blank {c : Char} {cs : List Char} {ts : List Token} :
      isSpace c = true → Lexes cs ts → Lexes (c :: cs) ts
  | cons {c : Char} {cs rest : List Char} {t : Token} {ts : List Token} :
      isSpace c = false → readToken (c :: cs) = some (t, rest) → rest.length ≤ cs.length →
      Lexes rest ts → Lexes (c :: cs) (t :: ts)

theorem tokensWithin_of_lexes {cs : List Char} {ts : List Token} (h : Lexes cs ts) :
    ∀ {fuel : Nat}, cs.length < fuel → tokensWithin fuel cs = some ts := by
  induction h with
  | nil =>
    intro fuel hfuel
    cases fuel with
    | zero => simp at hfuel
    | succ fuel => rfl
  | blank hc _ ih =>
    intro fuel hfuel
    cases fuel with
    | zero => simp at hfuel
    | succ fuel =>
      rw [tokensWithin, if_pos hc]
      exact ih (Nat.lt_of_succ_lt_succ hfuel)
  | cons hc htoken hlen _ ih =>
    intro fuel hfuel
    cases fuel with
    | zero => simp at hfuel
    | succ fuel =>
      have hrest := ih (Nat.lt_of_le_of_lt hlen (Nat.lt_of_succ_lt_succ hfuel))
      simp [tokensWithin, hc, htoken, hrest]

theorem tokens?_of_lexes {cs : List Char} {ts : List Token} (h : Lexes cs ts) :
    tokens? cs = some ts :=
  tokensWithin_of_lexes h (Nat.lt_succ_self _)

/-- A mark of punctuation is a token of its own. -/
theorem Lexes.mark {c : Char} {t : Token} {cs : List Char} {ts : List Token}
    (hc : isSpace c = false) (ht : readToken (c :: cs) = some (t, cs)) (h : Lexes cs ts) :
    Lexes (c :: cs) (t :: ts) :=
  .cons hc ht (Nat.le_refl _) h

/-! ## Strings -/

/-- How a character is found in a string again. -/
def pieceOf (c : Char) : Piece :=
  if c.toNat < 32 ∧ c ∉ ['\x08', '\x0c', '\n', '\r', '\t'] then .unit c.toNat else .char c

theorem hexValue?_digitChar {d : Nat} (h : d < 16) : hexValue? (Nat.digitChar d) = some d := by
  have hall : ∀ d < 16, hexValue? (Nat.digitChar d) = some d := by decide
  exact hall d h

theorem unit?_control {n : Nat} (h : n < 32) :
    unit? '0' '0' (Nat.digitChar (n / 16)) (Nat.digitChar (n % 16)) = some n := by
  have hzero : hexValue? '0' = some 0 := by decide
  simp only [unit?, hzero, hexValue?_digitChar (by omega : n / 16 < 16),
    hexValue?_digitChar (Nat.mod_lt n (by decide : 0 < 16)), Option.bind_eq_bind,
    Option.bind_some, Option.some.injEq]
  omega

/-- A character that needs no escape stands for itself. -/
theorem readText_plain {c : Char} (hquote : c ≠ '"') (hslash : c ≠ '\\') (hcontrol : ¬ c.toNat < 32)
    (tail : List Char) :
    readText (c :: tail) = (readText tail).map fun (ps, rest) => (.char c :: ps, rest) := by
  rw [readText.eq_def]
  split
  · next h => exact absurd h (by simp)
  · next h => exact absurd (List.cons.inj h).1 hquote
  · next h => exact absurd (List.cons.inj h).1 hslash
  · next h => exact absurd (List.cons.inj h).1 hslash
  · next h =>
      obtain ⟨rfl, rfl⟩ := List.cons.inj h
      simp [hcontrol, hslash]

/-- An escape of one letter. -/
theorem readText_letter {e c : Char} (he : e ≠ 'u') (h : escaped? e = some c) (tail : List Char) :
    readText ('\\' :: e :: tail) = (readText tail).map fun (ps, rest) => (.char c :: ps, rest) := by
  rw [readText.eq_def]
  split
  · next heq => exact absurd heq (by simp)
  · next heq => exact absurd (List.cons.inj heq).1 (by decide)
  · next heq => exact absurd (List.cons.inj (List.cons.inj heq).2).1 he
  · next heq =>
      obtain ⟨rfl, rfl⟩ := List.cons.inj (List.cons.inj heq).2
      rw [h]
      cases readText tail <;> rfl
  · next hno heq =>
      obtain ⟨rfl, rfl⟩ := List.cons.inj heq
      exact absurd rfl (hno e tail rfl)

/-- One character of a string is read back from its escaped form. -/
theorem readText_escape (c : Char) (tail : List Char) :
    readText (escape c ++ tail) =
      (readText tail).map fun (ps, rest) => (pieceOf c :: ps, rest) := by
  unfold escape
  split
  · next h => subst h; exact readText_letter (by decide) (by decide) tail
  split
  · next h => subst h; exact readText_letter (by decide) (by decide) tail
  split
  · next h => subst h; exact readText_letter (by decide) (by decide) tail
  split
  · next h => subst h; exact readText_letter (by decide) (by decide) tail
  split
  · next h => subst h; exact readText_letter (by decide) (by decide) tail
  split
  · next h => subst h; exact readText_letter (by decide) (by decide) tail
  split
  · next h => subst h; exact readText_letter (by decide) (by decide) tail
  split
  · next hb hf hn hr ht hcontrol =>
      have hpiece : pieceOf c = .unit c.toNat := by
        rw [pieceOf, if_pos]
        simp [hcontrol, hb, hf, hn, hr, ht]
      simp only [List.cons_append, List.nil_append, readText, unit?_control hcontrol, hpiece]
      cases readText tail <;> rfl
  · next hquote hslash hb hf hn hr ht hcontrol =>
      have hpiece : pieceOf c = .char c := by
        rw [pieceOf, if_neg]
        simp [hcontrol]
      rw [hpiece]
      exact readText_plain hquote hslash hcontrol tail

theorem readText_inner (cs tail : List Char) :
    readText (cs.flatMap escape ++ '"' :: tail) = some (cs.map pieceOf, tail) := by
  induction cs with
  | nil => simp [readText]
  | cons c cs ih =>
    rw [List.flatMap_cons, List.append_assoc, readText_escape, ih]
    rfl

/-- A code unit that is no half of a pair is a character of its own. -/
theorem joinPieces_unit {code : Nat} (hlow : isLow code = false) (hhigh : isHigh code = false)
    (ps : List Piece) :
    joinPieces (.unit code :: ps) = (joinPieces ps).map (Char.ofNat code :: ·) := by
  cases ps with
  | nil => simp [joinPieces, hlow, hhigh]
  | cons p ps =>
    cases p with
    | char d => simp only [joinPieces, hlow, hhigh, Bool.false_eq_true, or_self, if_false]
    | unit lo => simp only [joinPieces, hlow, hhigh, Bool.false_eq_true, if_false]

theorem joinPieces_map_pieceOf (cs : List Char) : joinPieces (cs.map pieceOf) = some cs := by
  induction cs with
  | nil => rfl
  | cons c cs ih =>
    rw [List.map_cons]
    by_cases h : c.toNat < 32 ∧ c ∉ ['\x08', '\x0c', '\n', '\r', '\t']
    · have hlow : isLow c.toNat = false := by simp [isLow]; omega
      have hhigh : isHigh c.toNat = false := by simp [isHigh]; omega
      rw [show pieceOf c = .unit c.toNat from if_pos h, joinPieces_unit hlow hhigh, ih]
      simp
    · rw [show pieceOf c = .char c from if_neg h, joinPieces, ih]
      rfl

/-- A written string is one token. -/
theorem readToken_text (s : String) (rest : List Char) :
    readToken ((Text.proper s).chars ++ rest) = some (.text (.proper s), rest) := by
  have hchars : (Text.proper s).chars ++ rest =
      '"' :: (s.toList.flatMap escape ++ '"' :: rest) := by
    simp [Text.chars, Text.inner]
  rw [hchars, readToken, readText_inner]
  simp [Text.ofPieces, joinPieces_map_pieceOf]

/-! ## Numbers -/

/-- What may follow a number: nothing that a number could go on with. -/
def Closed (rest : List Char) : Prop :=
  ∀ c ∈ rest.head?, c = ',' ∨ c = ']' ∨ c = '\x7d'

theorem closed_nil : Closed [] := by
  intro c hc
  simp at hc

theorem closed_cons {c : Char} (h : c = ',' ∨ c = ']' ∨ c = '\x7d') (cs : List Char) :
    Closed (c :: cs) := by
  intro d hd
  have : c = d := by simpa using hd
  simpa [← this] using h

theorem Closed.noDigitAhead {rest : List Char} (h : Closed rest) : NoDigitAhead rest := by
  intro c hc
  rcases h c hc with rfl | rfl | rfl <;> decide

theorem Closed.readFraction {rest : List Char} (h : Closed rest) :
    readFraction rest = some ([], rest) := by
  cases rest with
  | nil => rfl
  | cons c cs =>
    rcases h c (by simp) with rfl | rfl | rfl <;> rfl

theorem Closed.readExponent {rest : List Char} (h : Closed rest) :
    readExponent rest = some ([], rest) := by
  cases rest with
  | nil => rfl
  | cons c cs =>
    rcases h c (by simp) with rfl | rfl | rfl <;> rfl

theorem readWhole_digits (n : Nat) {rest : List Char} (h : NoDigitAhead rest) :
    readWhole (Decimal.digits n ++ rest) = some (Decimal.digits n, rest) := by
  have hspan : (Decimal.digits n ++ rest).span Char.isDigit = (Decimal.digits n, rest) :=
    span_isDigit_append (fun _ hd => Decimal.isDigit_of_mem_digits hd) h
  rw [readWhole, hspan]
  rcases Decimal.digits_eq_singleton_or n with hz | ⟨d, ds, hds, hd⟩
  · rw [hz]
    rfl
  · rw [hds]
    split
    · next h => simp at h
    · next h =>
        have : d = '0' := by simpa using (Prod.mk.inj h).1 |> List.cons.inj |>.1
        exact absurd this hd
    · next h =>
        obtain ⟨rfl, rfl⟩ := Prod.mk.inj h
        rfl

/-- A number without a fraction and an exponent, and without a signed zero, is a whole number. -/
theorem readUnsigned_digits (negative : Bool) {n : Nat} (hn : negative = false ∨ n ≠ 0)
    {rest : List Char} (h : Closed rest) :
    readUnsigned negative (Decimal.digits n ++ rest) =
      some (.integer (if negative then -(n : Int) else n), rest) := by
  simp only [readUnsigned, readWhole_digits n h.noDigitAhead, Option.bind_eq_bind,
    Option.bind_some, h.readFraction, h.readExponent, Decimal.value_digits]
  rw [if_pos ⟨trivial, trivial, hn⟩]

/-- What begins with a digit is a number. -/
theorem readToken_digit {d : Char} (hd : d.isDigit = true) (cs : List Char) :
    readToken (d :: cs) = readUnsigned false (d :: cs) := by
  have hne : ∀ c : Char, c.isDigit = false → d ≠ c := by
    rintro c hc rfl
    rw [hd] at hc
    cases hc
  rw [readToken.eq_def]
  split
  all_goals first
    | (next h => exact absurd (List.cons.inj h).1 (hne _ (by decide)))
    | skip
  rw [readNumber.eq_def]
  split
  · next h => exact absurd (List.cons.inj h).1 (hne _ (by decide))
  · rfl

/-- A written whole number is one token if nothing follows that it could go on with. -/
theorem readToken_integer (n : Int) {rest : List Char} (h : Closed rest) :
    readToken (Decimal.intChars n ++ rest) = some (.integer n, rest) := by
  cases n with
  | ofNat m =>
    have hread := readUnsigned_digits false (n := m) (.inl rfl) h
    cases hds : Decimal.digits m with
    | nil => exact absurd hds (Decimal.digits_ne_nil m)
    | cons d ds =>
      have hd : d.isDigit = true := Decimal.isDigit_of_mem_digits (n := m) (by simp [hds])
      simp only [Decimal.intChars, hds, List.cons_append] at hread ⊢
      rw [readToken_digit hd, hread]
      rfl
  | negSucc m =>
    have hread := readUnsigned_digits true (n := m + 1) (.inr (by omega)) h
    simp only [Decimal.intChars, List.cons_append]
    have htoken : readToken ('-' :: (Decimal.digits (m + 1) ++ rest)) =
        readUnsigned true (Decimal.digits (m + 1) ++ rest) := rfl
    rw [htoken, hread]
    rfl

end Json
end StockLedger
