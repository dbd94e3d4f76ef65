import Mathlib.Data.List.Forall2
import Mathlib.Tactic.Common
import StockLedger.Proofs.Json.RoundTrip

/-!
# JSON texts inside others

What is read from a text is read from it again when it stands inside another, in front of a comma
or a closing mark. Blanks, escapes and numbers with fractions are included.

* `Json.splices_readToken`, `Json.Lexes.append` : the tokens of a text stay the same when more
  follows;
* `Json.front` : a value, items or fields are read from the tokens at the front, whatever follows;
* `Json.spelled_of_ofChars?` : so every text that is read as a value spells it;
* `Json.ofString?_listed` : texts in brackets are read as the list of their values.
-/

namespace StockLedger
namespace Json

variable {cs rest us : List Char}

/-! ## What is read from the front -/

/-- What is read from the front of a text takes at least `n` characters, and is read from there too
when something follows that continues no number. -/
def Splices {α : Type} (n : Nat) (read : List Char → Option (α × List Char)) : Prop :=
  ∀ {cs : List Char} {a : α} {rest : List Char}, read cs = some (a, rest) →
    (∀ us, Closed us → read (cs ++ us) = some (a, rest ++ us)) ∧ rest.length + n ≤ cs.length

/-! ## Strings -/

theorem splices_readText : Splices 1 readText := by
  intro cs ps rest h
  fun_induction readText cs generalizing ps rest with
  | case1 => cases h
  | case2 rest' =>
    cases h
    exact ⟨fun us _ => rfl, Nat.le_refl _⟩
  | case3 a b c d tail ih =>
    simp only [Option.bind_eq_bind, Option.bind_eq_some_iff] at h
    obtain ⟨code, hcode, ⟨qs, left⟩, hread, heq⟩ := h
    cases heq
    obtain ⟨happend, hlength⟩ := ih hread
    refine ⟨fun us hus => ?_, ?_⟩
    · simp only [List.cons_append, readText, hcode, happend us hus, Option.bind_eq_bind,
        Option.bind_some]
    · simp only [List.length_cons]
      omega
  | case4 e tail hu ih =>
    simp only [Option.bind_eq_bind, Option.bind_eq_some_iff] at h
    obtain ⟨c, hc, ⟨qs, left⟩, hread, heq⟩ := h
    cases heq
    obtain ⟨happend, hlength⟩ := ih hread
    have he : e ≠ 'u' := by
      rintro rfl
      cases hc
    refine ⟨fun us hus => ?_, ?_⟩
    · rw [List.cons_append, List.cons_append, readText_letter he hc, happend us hus]
      rfl
    · simp only [List.length_cons]
      omega
  | case5 c tail hquote hu hslash hc => cases h
  | case6 c tail hquote hu hslash hc ih =>
    obtain ⟨⟨qs, left⟩, hread, heq⟩ := Option.map_eq_some_iff.1 h
    cases heq
    obtain ⟨happend, hlength⟩ := ih hread
    refine ⟨fun us hus => ?_, Nat.le_succ_of_le hlength⟩
    rw [List.cons_append, readText_plain hquote (not_or.1 hc).2 (not_or.1 hc).1, happend us hus]
    rfl

/-! ## Numbers -/

/-- A run of digits ends where it did when no digit is put after it. -/
theorem span_append (cs : List Char) (hus : NoDigitAhead us) :
    (cs ++ us).span Char.isDigit =
      ((cs.span Char.isDigit).1, (cs.span Char.isDigit).2 ++ us) := by
  induction cs with
  | nil =>
    have hnone : ∀ d ∈ ([] : List Char), d.isDigit = true := nofun
    simpa using span_isDigit_append hnone hus
  | cons c cs ih =>
    simp only [List.span_eq_takeWhile_dropWhile, List.cons_append, List.takeWhile_cons,
      List.dropWhile_cons] at ih ⊢
    cases c.isDigit
    · rfl
    · simp [Prod.mk.inj ih]

theorem length_span (cs : List Char) :
    (cs.span Char.isDigit).1.length + (cs.span Char.isDigit).2.length = cs.length := by
  rw [List.span_eq_takeWhile_dropWhile, ← List.length_append, List.takeWhile_append_dropWhile]

theorem splices_readWhole : Splices 1 readWhole := by
  intro cs ds rest h
  have hspan (us : List Char) (hus : Closed us) := span_append cs hus.noDigitAhead
  have hlength := length_span cs
  unfold readWhole at h ⊢
  generalize cs.span Char.isDigit = p at h hspan hlength
  obtain ⟨ds', left⟩ := p
  split at h
  · cases h
  · cases h
  · next hnil hzero heq =>
    cases heq
    cases h
    refine ⟨fun us hus => ?_, ?_⟩
    · rw [hspan us hus]
      split <;> simp_all
    · cases ds with
      | nil => exact (hnil rfl).elim
      | cons d ds =>
        simp only [List.length_cons] at hlength
        omega

theorem splices_readFraction : Splices 0 readFraction := by
  intro cs ds rest h
  unfold readFraction at h
  split at h
  · next tail =>
    have hspan (us : List Char) (hus : Closed us) := span_append tail hus.noDigitAhead
    have hlength := length_span tail
    generalize tail.span Char.isDigit = p at h hspan hlength
    obtain ⟨ds', left⟩ := p
    cases ds' with
    | nil => cases h
    | cons d ds' =>
      cases h
      refine ⟨fun us hus => ?_, ?_⟩
      · simp only [List.cons_append, readFraction, hspan us hus]
      · simp only [List.length_cons] at hlength ⊢
        omega
  · next hpoint =>
    cases h
    refine ⟨fun us hus => ?_, Nat.le_refl _⟩
    cases cs with
    | nil => exact hus.readFraction
    | cons c cs =>
      rw [List.cons_append, readFraction]
      rintro tail ⟨⟩
      exact hpoint cs rfl

/-- The sign of an exponent, if there is one, and what follows it. -/
def sign : List Char → List Char × List Char
  | '+' :: cs => (['+'], cs)
  | '-' :: cs => (['-'], cs)
  | cs => ([], cs)

theorem readExponent_cons (e : Char) (cs : List Char) :
    readExponent (e :: cs) =
      if e = 'e' ∨ e = 'E' then
        match (sign cs).2.span Char.isDigit with
        | ([], _) => none
        | (ds, rest) => some (e :: (sign cs).1 ++ ds, rest)
      else some ([], e :: cs) := rfl

theorem sign_append (c : Char) (cs us : List Char) :
    sign (c :: cs ++ us) = ((sign (c :: cs)).1, (sign (c :: cs)).2 ++ us) := by
  by_cases hplus : c = '+'
  · subst hplus
    rfl
  · by_cases hminus : c = '-'
    · subst hminus
      rfl
    · simp [sign, hplus, hminus]

theorem length_sign (cs : List Char) : (sign cs).2.length ≤ cs.length := by
  unfold sign
  split <;> simp

theorem splices_readExponent : Splices 0 readExponent := by
  intro cs ds rest h
  cases cs with
  | nil =>
    cases h
    exact ⟨fun us hus => hus.readExponent, Nat.le_refl _⟩
  | cons e cs =>
    rw [readExponent_cons] at h
    split at h
    · next he =>
      cases cs with
      | nil => cases h
      | cons c cs =>
        have hspan (us : List Char) (hus : Closed us) :=
          span_append (sign (c :: cs)).2 hus.noDigitAhead
        have hsign := length_sign (c :: cs)
        have hlength := length_span (sign (c :: cs)).2
        generalize (sign (c :: cs)).2.span Char.isDigit = p at h hspan hlength
        obtain ⟨ds', left⟩ := p
        cases ds' with
        | nil => cases h
        | cons d ds' =>
          cases h
          refine ⟨fun us hus => ?_, ?_⟩
          · rw [List.cons_append, readExponent_cons, if_pos he, sign_append, hspan us hus]
          · simp only [List.length_cons] at hsign hlength ⊢
            omega
    · next he =>
      cases h
      refine ⟨fun us hus => ?_, Nat.le_refl _⟩
      rw [List.cons_append, readExponent_cons, if_neg he]

theorem splices_readUnsigned (negative : Bool) : Splices 1 (readUnsigned negative) := by
  intro cs t rest h
  simp only [readUnsigned, Option.bind_eq_bind, Option.bind_eq_some_iff] at h
  obtain ⟨⟨ds, left⟩, hwhole, ⟨fraction, left'⟩, hfraction, ⟨exponent, left''⟩, hexponent, h⟩ := h
  obtain ⟨hwhole, hlength⟩ := splices_readWhole hwhole
  obtain ⟨hfraction, hlength'⟩ := splices_readFraction hfraction
  obtain ⟨hexponent, hlength''⟩ := splices_readExponent hexponent
  have hleft : left'' = rest := by
    split at h <;> cases h <;> rfl
  subst hleft
  have htaken : left''.length + 1 ≤ cs.length := by
    dsimp only at hlength' hlength''
    omega
  refine ⟨fun us hus => ?_, htaken⟩
  simp only [readUnsigned, hwhole us hus, hfraction us hus, hexponent us hus, Option.bind_eq_bind,
    Option.bind_some]
  split at h
  · next hinteger =>
    cases h
    rw [if_pos hinteger]
  · next hinteger =>
    cases h
    rw [if_neg hinteger]

/-- A number begins with a digit. -/
theorem head_of_readUnsigned {negative : Bool} {t : Token}
    (h : readUnsigned negative cs = some (t, rest)) :
    ∃ d tail, cs = d :: tail ∧ d.isDigit = true := by
  simp only [readUnsigned, Option.bind_eq_bind, Option.bind_eq_some_iff] at h
  obtain ⟨⟨ds, left⟩, hwhole, -⟩ := h
  cases cs with
  | nil => cases hwhole
  | cons d tail =>
    refine ⟨d, tail, rfl, ?_⟩
    by_contra hd
    rw [readWhole, List.span_eq_takeWhile_dropWhile, List.takeWhile_cons_of_neg hd] at hwhole
    cases hwhole

/-! ## Tokens -/

theorem ofPieces_append (ps : List Piece) (cs rest us : List Char) :
    Text.ofPieces ps (cs ++ us) (rest ++ us) = Text.ofPieces ps cs rest := by
  unfold Text.ofPieces
  rw [List.length_append, List.length_append, Nat.add_sub_add_right,
    List.take_append_of_le_length (by omega)]

theorem splices_readToken : Splices 1 readToken := by
  intro cs t rest h
  rw [readToken.eq_def] at h
  split at h
  -- marks and words stand for themselves
  iterate 9
    · cases h
      refine ⟨fun us _ => rfl, ?_⟩
      simp only [List.length_cons]
      omega
  · next tail =>
    obtain ⟨⟨ps, left⟩, hread, heq⟩ := Option.map_eq_some_iff.1 h
    cases heq
    obtain ⟨happend, hlength⟩ := splices_readText hread
    refine ⟨fun us hus => ?_, Nat.le_succ_of_le hlength⟩
    simp only [List.cons_append, readToken, happend us hus, Option.map_some, ofPieces_append]
  · rw [readNumber.eq_def] at h
    split at h
    · obtain ⟨happend, hlength⟩ := splices_readUnsigned true h
      exact ⟨happend, Nat.le_succ_of_le hlength⟩
    -- no mark and no word begins with a digit
    · obtain ⟨d, tail, rfl, hd⟩ := head_of_readUnsigned h
      obtain ⟨happend, hlength⟩ := splices_readUnsigned false h
      refine ⟨fun us hus => ?_, hlength⟩
      rw [List.cons_append, readToken_digit hd, ← List.cons_append]
      exact happend us hus

/-- What the reader finds are the tokens of the text. -/
theorem lexes_of_tokensWithin {fuel : Nat} {ts : List Token} (h : tokensWithin fuel cs = some ts) :
    Lexes cs ts := by
  induction fuel generalizing cs ts with
  | zero => cases h
  | succ fuel ih =>
    cases cs with
    | nil =>
      cases h
      exact .nil
    | cons c cs =>
      rw [tokensWithin] at h
      split at h
      · next hc => exact .blank hc (ih h)
      · next hc =>
        simp only [Option.bind_eq_bind, Option.bind_eq_some_iff, Option.some.injEq] at h
        obtain ⟨⟨t, left⟩, htoken, us, hus, rfl⟩ := h
        exact .cons (by simpa using hc) htoken
          (Nat.le_of_succ_le_succ (splices_readToken htoken).2) (ih hus)

/-- The tokens of one text in front of another come before the tokens of the other. -/
theorem Lexes.append {ds : List Char} {ts us : List Token} (h : Lexes cs ts) (hds : Closed ds)
    (hus : Lexes ds us) : Lexes (cs ++ ds) (ts ++ us) := by
  induction h with
  | nil => exact hus
  | blank hc _ ih => exact .blank hc ih
  | cons hc htoken hlength _ ih =>
    refine .cons hc ((splices_readToken htoken).1 _ hds) ?_ ih
    simp only [List.append_eq, List.length_append]
    omega

/-! ## Values -/

theorem readValue_items {ts : List Token} (h : ∀ us, ts ≠ .closeBracket :: us) (fuel : Nat) :
    readValue (fuel + 1) (.openBracket :: ts) =
      (readItems fuel ts).map fun (xs, rest) => (.array xs, rest) :=
  readValue.eq_8 fuel ts fun us hus => h us hus

theorem readValue_fields {ts : List Token} (h : ∀ us, ts ≠ .closeBrace :: us) (fuel : Nat) :
    readValue (fuel + 1) (.openBrace :: ts) =
      (readFields fuel ts).map fun (fs, rest) => (.object fs, rest) :=
  readValue.eq_10 fuel ts fun us hus => h us hus

/-- No closing mark begins a value. -/
theorem ne_closing {t u : Token} (ht : t.closes = false) (hu : u.closes = true)
    (ts us : List Token) : t :: ts ≠ u :: us := by
  rintro ⟨⟩
  rw [ht] at hu
  cases hu

/-- A thing is read from some tokens whatever follows them, with fuel for each, and the first of
them closes nothing. -/
def Used {α : Type} (read : Nat → List Token → Option (α × List Token)) (ts : List Token) (a : α)
    (rest : List Token) : Prop :=
  ∃ t used, ts = t :: (used ++ rest) ∧ t.closes = false ∧
    ∀ fuel us, used.length < fuel → read fuel (t :: (used ++ us)) = some (a, us)

/-- What is read from the front of some tokens is read from there whatever follows. -/
def Front {α : Type} (read : Nat → List Token → Option (α × List Token)) (fuel : Nat) : Prop :=
  ∀ {ts : List Token} {a : α} {rest : List Token}, read fuel ts = some (a, rest) →
    Used read ts a rest

theorem used_single {fuel : Nat} {t : Token} {j : Json} {ts rest : List Token} {a : Json}
    (ht : t.closes = false) (hread : ∀ fuel us, readValue (fuel + 1) (t :: us) = some (j, us))
    (h : readValue (fuel + 1) (t :: ts) = some (a, rest)) : Used readValue (t :: ts) a rest := by
  rw [hread] at h
  cases h
  refine ⟨t, [], rfl, ht, fun fuel' us hfuel => ?_⟩
  obtain ⟨f, rfl⟩ := Nat.exists_eq_add_one.2 (Nat.zero_lt_of_lt hfuel)
  exact hread f us

/-- Items in brackets and fields in braces are read alike. -/
theorem used_enclosed {α : Type} {read : Nat → List Token → Option (List α × List Token)}
    {wrap : List α → Json} {first last : Token} (hfirst : first.closes = false)
    (hlast : last.closes = true)
    (hnone : ∀ fuel us, readValue (fuel + 1) (first :: last :: us) = some (wrap [], us))
    (hsome : ∀ fuel ts, (∀ us, ts ≠ last :: us) →
      readValue (fuel + 1) (first :: ts) = (read fuel ts).map fun (xs, rest) => (wrap xs, rest))
    {fuel : Nat} (hfront : Front read fuel) {ts rest : List Token} {a : Json}
    (h : readValue (fuel + 1) (first :: ts) = some (a, rest)) :
    Used readValue (first :: ts) a rest := by
  by_cases hempty : ∃ us, ts = last :: us
  · obtain ⟨us, rfl⟩ := hempty
    rw [hnone] at h
    cases h
    refine ⟨first, [last], rfl, hfirst, fun fuel' us hfuel => ?_⟩
    obtain ⟨f, rfl⟩ := Nat.exists_eq_add_one.2 (Nat.zero_lt_of_lt hfuel)
    exact hnone f us
  · rw [hsome fuel ts (not_exists.1 hempty)] at h
    obtain ⟨⟨xs, left⟩, hread, heq⟩ := Option.map_eq_some_iff.1 h
    cases heq
    obtain ⟨t, used, rfl, ht, hall⟩ := hfront hread
    refine ⟨first, t :: used, rfl, hfirst, fun fuel' us hfuel => ?_⟩
    obtain ⟨f, rfl⟩ := Nat.exists_eq_add_one.2 (Nat.zero_lt_of_lt hfuel)
    rw [List.cons_append, hsome f _ (ne_closing ht hlast _), hall f us (by simpa using hfuel),
      Option.map_some]

theorem front_value {fuel : Nat} (hitems : Front readItems fuel)
    (hfields : Front readFields fuel) : Front readValue (fuel + 1) := by
  intro ts a rest h
  cases ts with
  | nil => cases h
  | cons t ts =>
    cases t with
    | null => exact used_single rfl (fun _ _ => rfl) h
    | bool b => exact used_single rfl (fun _ _ => rfl) h
    | integer n => exact used_single rfl (fun _ _ => rfl) h
    | decimal s => exact used_single rfl (fun _ _ => rfl) h
    | text s => exact used_single rfl (fun _ _ => rfl) h
    | closeBrace => cases h
    | closeBracket => cases h
    | colon => cases h
    | comma => cases h
    | openBracket =>
      exact used_enclosed rfl rfl (fun _ _ => rfl) (fun _ _ hts => readValue_items hts _) hitems h
    | openBrace =>
      exact used_enclosed rfl rfl (fun _ _ => rfl) (fun _ _ hts => readValue_fields hts _) hfields h

theorem front_items {fuel : Nat} (hvalue : Front readValue fuel)
    (hitems : Front readItems fuel) : Front readItems (fuel + 1) := by
  intro ts a rest h
  rw [readItems] at h
  split at h
  · next x left hread =>
    cases h
    obtain ⟨t, used, rfl, ht, hall⟩ := hvalue hread
    refine ⟨t, used ++ [.closeBracket], by simp, ht, fun fuel' us hfuel => ?_⟩
    rw [List.length_append, List.length_singleton] at hfuel
    obtain ⟨f, rfl⟩ := Nat.exists_eq_add_one.2 (Nat.zero_lt_of_lt hfuel)
    rw [List.append_assoc, List.singleton_append, readItems, hall f _ (by omega)]
  · next x left hread =>
    obtain ⟨⟨xs, left'⟩, hmore, heq⟩ := Option.map_eq_some_iff.1 h
    cases heq
    obtain ⟨t, used, rfl, ht, hall⟩ := hvalue hread
    obtain ⟨t', used', rfl, -, hall'⟩ := hitems hmore
    refine ⟨t, used ++ .comma :: t' :: used', by simp, ht, fun fuel' us hfuel => ?_⟩
    rw [List.length_append, List.length_cons, List.length_cons] at hfuel
    obtain ⟨f, rfl⟩ := Nat.exists_eq_add_one.2 (Nat.zero_lt_of_lt hfuel)
    rw [List.append_assoc, List.cons_append, List.cons_append, readItems, hall f _ (by omega)]
    dsimp only
    rw [hall' f us (by omega), Option.map_some]
  · cases h

theorem front_fields {fuel : Nat} (hvalue : Front readValue fuel)
    (hfields : Front readFields fuel) : Front readFields (fuel + 1) := by
  intro ts a rest h
  rw [readFields.eq_def] at h
  dsimp only at h
  split at h
  · next name tail =>
    split at h
    · next x left hread =>
      cases h
      obtain ⟨t, used, rfl, -, hall⟩ := hvalue hread
      refine ⟨.text name, .colon :: t :: (used ++ [.closeBrace]), by simp, rfl,
        fun fuel' us hfuel => ?_⟩
      simp only [List.length_cons, List.length_append, List.length_nil] at hfuel
      obtain ⟨f, rfl⟩ := Nat.exists_eq_add_one.2 (Nat.zero_lt_of_lt hfuel)
      rw [List.cons_append, List.cons_append, List.append_assoc, List.singleton_append, readFields,
        hall f _ (by omega)]
    · next x left hread =>
      obtain ⟨⟨fs, left'⟩, hmore, heq⟩ := Option.map_eq_some_iff.1 h
      cases heq
      obtain ⟨t, used, rfl, -, hall⟩ := hvalue hread
      obtain ⟨t', used', rfl, -, hall'⟩ := hfields hmore
      refine ⟨.text name, .colon :: t :: (used ++ .comma :: t' :: used'), by simp, rfl,
        fun fuel' us hfuel => ?_⟩
      simp only [List.length_cons, List.length_append] at hfuel
      obtain ⟨f, rfl⟩ := Nat.exists_eq_add_one.2 (Nat.zero_lt_of_lt hfuel)
      rw [List.cons_append, List.cons_append, List.append_assoc, List.cons_append,
        List.cons_append, readFields, hall f _ (by omega)]
      dsimp only
      rw [hall' f us (by omega), Option.map_some]
    · cases h
  · cases h

theorem front (fuel : Nat) :
    Front readValue fuel ∧ Front readItems fuel ∧ Front readFields fuel := by
  induction fuel with
  | zero => exact ⟨nofun, nofun, nofun⟩
  | succ fuel ih =>
    -- the three readers call each other with less fuel only
    obtain ⟨hvalue, hitems, hfields⟩ := ih
    exact ⟨front_value hitems hfields, front_items hvalue hitems, front_fields hvalue hfields⟩

/-- Every text that is read as a value spells it. -/
theorem spelled_of_ofChars? {j : Json} (h : ofChars? cs = some j) : ∃ ts, Spelled cs ts j := by
  obtain ⟨ts, htokens, hvalue⟩ := Option.bind_eq_some_iff.1 h
  rw [ofTokens?] at hvalue
  split at hvalue
  · next hread =>
    cases hvalue
    obtain ⟨t, used, hts, ht, hall⟩ := (front _).1 hread
    rw [List.append_nil] at hts
    refine ⟨ts, ⟨t, used, hts, ht⟩, fun hrest hus => ?_, fun fuel us hfuel => ?_⟩
    · exact (lexes_of_tokensWithin htokens).append hrest hus
    · rw [hts, List.cons_append]
      rw [hts, List.length_cons] at hfuel
      exact hall fuel us (by omega)
  · cases hvalue

/-! ## Lists of texts -/

theorem spelledItems_intercalate {css : List (List Char)} {xs : List Json}
    (h : List.Forall₂ (fun cs x => ofChars? cs = some x) css xs) (hne : css ≠ []) :
    ∃ ts, SpelledItems (List.intercalate [','] css) ts xs := by
  induction h with
  | nil => exact absurd rfl hne
  | @cons cs x css xs hx hxs ih =>
    obtain ⟨ts, hts⟩ := spelled_of_ofChars? hx
    cases hxs with
    | nil => exact ⟨ts, by simpa using spelledItems_single hts⟩
    | cons hy hys =>
      obtain ⟨ts', hts'⟩ := ih (List.cons_ne_nil _ _)
      rw [List.intercalate_cons_cons, List.append_assoc]
      exact ⟨_, spelledItems_cons hts hts'⟩

/-- Texts in brackets with commas between them are read as the list of their values. -/
theorem ofString?_listed {texts : List String} {xs : List Json}
    (h : List.Forall₂ (fun s x => ofString? s = some x) texts xs) :
    ofString? ("[" ++ ",".intercalate texts ++ "]") = some (.array xs) := by
  have hchars : List.Forall₂ (fun cs x => ofChars? cs = some x) (texts.map String.toList) xs := by
    rw [List.forall₂_map_left_iff]
    exact h
  have htext : ("[" ++ ",".intercalate texts ++ "]").toList =
      '[' :: List.intercalate [','] (texts.map String.toList) ++ [']'] := by
    simp [String.toList_intercalate]
  rw [ofString?, htext]
  cases h with
  | nil => exact ofChars?_of_spelled spelled_nil
  | cons hx hxs =>
    obtain ⟨ts, hts⟩ := spelledItems_intercalate hchars (List.cons_ne_nil _ _)
    exact ofChars?_of_spelled (spelled_items hts)

end Json
end StockLedger
