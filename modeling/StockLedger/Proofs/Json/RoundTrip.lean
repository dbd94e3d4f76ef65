import Mathlib.Tactic.Common
import StockLedger.Json.Reader
import StockLedger.Proofs.Json.Token

/-!
# JSON read back

* `Json.Plain` : values without numbers kept as they were spelled and without garbled strings;
* `Json.ofString?_print` : a plain value is read back from its text.

The proof follows the value: `Spelled` says that a list of tokens lies in a text and is read as a
value, in front of whatever may follow.
-/

namespace StockLedger
namespace Json

/-- A value in which all strings are proper and all numbers are whole. -/
inductive Plain : Json → Prop
  | null : Plain .null
  | bool (b : Bool) : Plain (.bool b)
  | integer (n : Int) : Plain (.integer n)
  | text (s : String) : Plain (.text (.proper s))
  | array {xs : List Json} : (∀ x ∈ xs, Plain x) → Plain (.array xs)
  | object {fs : List (String × Json)} :
      (∀ f ∈ fs, Plain f.2) → Plain (.object (fs.map fun (k, v) => (.proper k, v)))

/-! ## Texts, tokens and values -/

/-- A token with which no value begins. -/
def Token.closes : Token → Bool
  | .closeBrace | .closeBracket => true
  | _ => false

/-- The text has these tokens, and they are read as this value, whatever follows. -/
structure Spelled (cs : List Char) (ts : List Token) (j : Json) : Prop where
  opens : ∃ t us, ts = t :: us ∧ t.closes = false
  lexes : ∀ {rest us}, Closed rest → Lexes rest us → Lexes (cs ++ rest) (ts ++ us)
  reads : ∀ fuel us, ts.length ≤ fuel → readValue fuel (ts ++ us) = some (j, us)

/-- Items with commas between them, up to the closing bracket. -/
structure SpelledItems (cs : List Char) (ts : List Token) (xs : List Json) : Prop where
  opens : ∃ t us, ts = t :: us ∧ t.closes = false
  lexes : ∀ {rest us}, Closed rest → Lexes rest us → Lexes (cs ++ rest) (ts ++ us)
  reads : ∀ fuel us, ts.length < fuel →
    readItems fuel (ts ++ .closeBracket :: us) = some (xs, us)

/-- Fields with commas between them, up to the closing brace. -/
structure SpelledFields (cs : List Char) (ts : List Token) (fs : List (Text × Json)) : Prop where
  opens : ∃ t us, ts = t :: us ∧ t.closes = false
  lexes : ∀ {rest us}, Closed rest → Lexes rest us → Lexes (cs ++ rest) (ts ++ us)
  reads : ∀ fuel us, ts.length < fuel →
    readFields fuel (ts ++ .closeBrace :: us) = some (fs, us)

/-! ## Single tokens -/

theorem lexes_word {c : Char} {cs rest : List Char} {t : Token} {us : List Token}
    (hc : isSpace c = false) (ht : readToken (c :: cs ++ rest) = some (t, rest))
    (h : Lexes rest us) : Lexes (c :: cs ++ rest) (t :: us) :=
  .cons hc ht (by simp) h

theorem lexes_text (s : String) {rest : List Char} {us : List Token} (h : Lexes rest us) :
    Lexes ((Text.proper s).chars ++ rest) (.text (.proper s) :: us) :=
  lexes_word (by decide) (readToken_text s rest) h

theorem lexes_integer (n : Int) {rest : List Char} {us : List Token} (hrest : Closed rest)
    (h : Lexes rest us) : Lexes (Decimal.intChars n ++ rest) (.integer n :: us) := by
  have ht := readToken_integer n hrest
  have hspace : ∀ c ∈ (Decimal.intChars n).head?, isSpace c = false := by
    intro c hc
    cases n with
    | ofNat m =>
      have hd : c.isDigit = true := Decimal.isDigit_of_head?_digits (n := m) hc
      have hne : ∀ b : Char, b.isDigit = false → c ≠ b := by
        rintro b hb rfl
        rw [hd] at hb
        cases hb
      simp [isSpace, hne _ (by decide : ' '.isDigit = false),
        hne _ (by decide : '\n'.isDigit = false), hne _ (by decide : '\t'.isDigit = false),
        hne _ (by decide : '\r'.isDigit = false)]
    | negSucc m =>
      have : c = '-' := by simpa [Decimal.intChars, eq_comm] using hc
      subst this
      rfl
  cases hcs : Decimal.intChars n with
  | nil =>
    cases n with
    | ofNat m => exact absurd hcs (Decimal.digits_ne_nil m)
    | negSucc m => cases hcs
  | cons c cs =>
    rw [hcs] at ht hspace
    exact lexes_word (hspace c (by simp)) ht h

/-- A value of one token. -/
theorem spelled_single {cs : List Char} {t : Token} {j : Json} (hopen : t.closes = false)
    (hlex : ∀ {rest us}, Closed rest → Lexes rest us → Lexes (cs ++ rest) (t :: us))
    (hread : ∀ fuel us, readValue (fuel + 1) (t :: us) = some (j, us)) : Spelled cs [t] j where
  opens := ⟨t, [], rfl, hopen⟩
  lexes := hlex
  reads := by
    intro fuel us hfuel
    obtain ⟨fuel, rfl⟩ : ∃ f, fuel = f + 1 := ⟨fuel - 1, by simp at hfuel; omega⟩
    exact hread fuel us

/-! ## Items and fields -/

theorem spelledItems_single {cs : List Char} {x : Json} {ts : List Token}
    (h : Spelled cs ts x) : SpelledItems cs ts [x] where
  opens := h.opens
  lexes := h.lexes
  reads := by
    intro fuel us hfuel
    obtain ⟨fuel, rfl⟩ : ∃ f, fuel = f + 1 := ⟨fuel - 1, by omega⟩
    simp [readItems, h.reads fuel _ (by omega : ts.length ≤ fuel)]

theorem spelledItems_cons {cs cs' : List Char} {x : Json} {xs : List Json}
    {ts ts' : List Token} (h : Spelled cs ts x) (h' : SpelledItems cs' ts' xs) :
    SpelledItems (cs ++ ',' :: cs') (ts ++ .comma :: ts') (x :: xs) where
  opens := by
    obtain ⟨t, us, rfl, ht⟩ := h.opens
    exact ⟨t, us ++ .comma :: ts', rfl, ht⟩
  lexes := by
    intro rest us hrest hus
    have hcomma := Lexes.mark (c := ',') rfl rfl (h'.lexes hrest hus)
    simpa using h.lexes (closed_cons (.inl rfl) _) hcomma
  reads := by
    intro fuel us hfuel
    simp only [List.length_append, List.length_cons] at hfuel
    obtain ⟨fuel, rfl⟩ : ∃ f, fuel = f + 1 := ⟨fuel - 1, by omega⟩
    simp only [List.append_assoc, List.cons_append, readItems,
      h.reads fuel _ (by omega : ts.length ≤ fuel), h'.reads fuel _ (by omega : ts'.length < fuel)]
    rfl

theorem spelledItems_of_forall {x : Json} {xs : List Json}
    (h : ∀ y ∈ x :: xs, ∃ ts, Spelled y.chars ts y) :
    ∃ ts, SpelledItems (itemsChars (x :: xs)) ts (x :: xs) := by
  induction xs generalizing x with
  | nil =>
    obtain ⟨ts, hts⟩ := h x (by simp)
    exact ⟨ts, spelledItems_single hts⟩
  | cons y ys ih =>
    obtain ⟨ts, hts⟩ := h x (by simp)
    obtain ⟨ts', hts'⟩ := ih (x := y) fun z hz => h z (by simp [List.mem_cons.1 hz])
    exact ⟨_, spelledItems_cons hts hts'⟩

theorem lexes_field (name : String) {x : Json} {ts us : List Token} {rest : List Char}
    (h : Spelled x.chars ts x) (hrest : Closed rest) (hus : Lexes rest us) :
    Lexes (fieldChars (.proper name, x) ++ rest)
      (.text (.proper name) :: .colon :: (ts ++ us)) := by
  have hcolon := Lexes.mark (c := ':') rfl rfl (h.lexes hrest hus)
  simpa [fieldChars] using lexes_text name hcolon

theorem spelledFields_single {name : String} {x : Json} {ts : List Token}
    (h : Spelled x.chars ts x) :
    SpelledFields (fieldsChars [(.proper name, x)]) (.text (.proper name) :: .colon :: ts)
      [(.proper name, x)] where
  opens := ⟨_, _, rfl, rfl⟩
  lexes := by
    intro rest us hrest hus
    simpa [fieldsChars] using lexes_field name h hrest hus
  reads := by
    intro fuel us hfuel
    simp only [List.length_cons] at hfuel
    obtain ⟨fuel, rfl⟩ : ∃ f, fuel = f + 1 := ⟨fuel - 1, by omega⟩
    simp [readFields, h.reads fuel _ (by omega : ts.length ≤ fuel)]

theorem spelledFields_cons {name : String} {x : Json} {g : Text × Json} {fs : List (Text × Json)}
    {ts ts' : List Token} (h : Spelled x.chars ts x)
    (h' : SpelledFields (fieldsChars (g :: fs)) ts' (g :: fs)) :
    SpelledFields (fieldsChars ((.proper name, x) :: g :: fs))
      (.text (.proper name) :: .colon :: (ts ++ .comma :: ts')) ((.proper name, x) :: g :: fs) where
  opens := ⟨_, _, rfl, rfl⟩
  lexes := by
    intro rest us hrest hus
    have hcomma := Lexes.mark (c := ',') rfl rfl (h'.lexes hrest hus)
    have := lexes_field name h (closed_cons (.inl rfl) _) hcomma
    simpa [fieldsChars] using this
  reads := by
    intro fuel us hfuel
    simp only [List.length_append, List.length_cons] at hfuel
    obtain ⟨fuel, rfl⟩ : ∃ f, fuel = f + 1 := ⟨fuel - 1, by omega⟩
    simp only [List.append_assoc, List.cons_append, readFields,
      h.reads fuel _ (by omega : ts.length ≤ fuel), h'.reads fuel _ (by omega : ts'.length < fuel)]
    rfl

theorem spelledFields_of_forall {f : String × Json} {fs : List (String × Json)}
    (h : ∀ g ∈ f :: fs, ∃ ts, Spelled g.2.chars ts g.2) :
    ∃ ts, SpelledFields (fieldsChars ((f :: fs).map fun (k, v) => (.proper k, v))) ts
      ((f :: fs).map fun (k, v) => (.proper k, v)) := by
  induction fs generalizing f with
  | nil =>
    obtain ⟨ts, hts⟩ := h f (by simp)
    exact ⟨_, spelledFields_single hts⟩
  | cons g gs ih =>
    obtain ⟨ts, hts⟩ := h f (by simp)
    obtain ⟨ts', hts'⟩ := ih (f := g) fun z hz => h z (by simp [List.mem_cons.1 hz])
    exact ⟨_, spelledFields_cons hts hts'⟩

/-! ## Arrays and objects -/

theorem spelled_nil : Spelled ['[', ']'] [.openBracket, .closeBracket] (.array []) where
  opens := ⟨_, _, rfl, rfl⟩
  lexes := fun _ hus => Lexes.mark rfl rfl (Lexes.mark rfl rfl hus)
  reads := by
    intro fuel us hfuel
    obtain ⟨fuel, rfl⟩ : ∃ f, fuel = f + 1 := ⟨fuel - 1, by simp at hfuel; omega⟩
    rfl

theorem spelled_items {cs : List Char} {ts : List Token} {xs : List Json}
    (h : SpelledItems cs ts xs) :
    Spelled ('[' :: cs ++ [']']) (.openBracket :: ts ++ [.closeBracket]) (.array xs) where
  opens := ⟨_, _, rfl, rfl⟩
  lexes := by
    intro rest us _ hus
    have hclose := Lexes.mark (c := ']') rfl rfl hus
    have hitems := h.lexes (closed_cons (.inr (.inl rfl)) _) hclose
    simpa using Lexes.mark (c := '[') rfl rfl hitems
  reads := by
    intro fuel us hfuel
    obtain ⟨t, us', rfl, ht⟩ := h.opens
    simp only [List.length_append, List.length_cons, List.length_nil] at hfuel
    obtain ⟨fuel, rfl⟩ : ∃ f, fuel = f + 1 := ⟨fuel - 1, by omega⟩
    have hread := h.reads fuel us (by simp only [List.length_cons]; omega)
    simp only [List.cons_append, List.append_assoc, List.nil_append] at hread ⊢
    cases t with
    | closeBracket => cases ht
    | _ => simp only [readValue, hread, Option.map_some]

theorem spelled_array {xs : List Json} (h : ∀ x ∈ xs, ∃ ts, Spelled x.chars ts x) :
    ∃ ts, Spelled (Json.array xs).chars ts (.array xs) := by
  cases xs with
  | nil => exact ⟨_, spelled_nil⟩
  | cons x xs =>
    obtain ⟨ts, hts⟩ := spelledItems_of_forall h
    exact ⟨_, spelled_items hts⟩

theorem spelled_object {fs : List (String × Json)}
    (h : ∀ f ∈ fs, ∃ ts, Spelled f.2.chars ts f.2) :
    ∃ ts, Spelled (Json.object (fs.map fun (k, v) => (.proper k, v))).chars ts
      (.object (fs.map fun (k, v) => (.proper k, v))) := by
  cases fs with
  | nil =>
    refine ⟨[.openBrace, .closeBrace], ⟨_, _, rfl, rfl⟩, ?_, ?_⟩
    · intro rest us _ hus
      exact Lexes.mark rfl rfl (Lexes.mark rfl rfl hus)
    · intro fuel us hfuel
      obtain ⟨fuel, rfl⟩ : ∃ f, fuel = f + 1 := ⟨fuel - 1, by simp at hfuel; omega⟩
      rfl
  | cons f fs =>
    obtain ⟨ts, hts⟩ := spelledFields_of_forall h
    obtain ⟨t, us', rfl, ht⟩ := hts.opens
    refine ⟨.openBrace :: (t :: us') ++ [.closeBrace], ⟨_, _, rfl, rfl⟩, ?_, ?_⟩
    · intro rest us _ hus
      have hclose := Lexes.mark (c := '\x7d') rfl rfl hus
      have hfields := hts.lexes (closed_cons (.inr (.inr rfl)) _) hclose
      simpa [chars] using Lexes.mark (c := '\x7b') rfl rfl hfields
    · intro fuel us hfuel
      simp only [List.length_append, List.length_cons, List.length_nil] at hfuel
      obtain ⟨fuel, rfl⟩ : ∃ f, fuel = f + 1 := ⟨fuel - 1, by omega⟩
      have hread := hts.reads fuel us (by simp only [List.length_cons]; omega)
      simp only [List.cons_append, List.append_assoc, List.nil_append] at hread ⊢
      cases t with
      | closeBrace => cases ht
      | _ => simp only [readValue, hread, Option.map_some]

/-- A plain value is spelled by its text. -/
theorem Plain.spelled {j : Json} (h : j.Plain) : ∃ ts, Spelled j.chars ts j := by
  induction h with
  | null =>
    exact ⟨[.null], spelled_single rfl (fun _ h => lexes_word (by decide) rfl h) fun _ _ => rfl⟩
  | bool b =>
    refine ⟨[.bool b], spelled_single rfl (fun _ h => ?_) fun _ _ => rfl⟩
    cases b with
    | false => exact lexes_word (c := 'f') (by decide) rfl h
    | true => exact lexes_word (c := 't') (by decide) rfl h
  | integer n =>
    exact ⟨[.integer n], spelled_single rfl (fun hr h => lexes_integer n hr h) fun _ _ => rfl⟩
  | text s =>
    exact ⟨[.text (.proper s)], spelled_single rfl (fun _ h => lexes_text s h) fun _ _ => rfl⟩
  | array _ ih => exact spelled_array ih
  | object _ ih => exact spelled_object ih

/-- What a text spells is read from it. -/
theorem ofChars?_of_spelled {cs : List Char} {ts : List Token} {j : Json} (h : Spelled cs ts j) :
    ofChars? cs = some j := by
  have hlex : Lexes cs ts := by simpa using h.lexes closed_nil .nil
  have hread : readValue (ts.length + 1) ts = some (j, []) := by
    simpa using h.reads (ts.length + 1) [] (Nat.le_succ _)
  simp [ofChars?, tokens?_of_lexes hlex, ofTokens?, hread]

/-- A plain value is read back from its text. -/
theorem ofString?_print {j : Json} (h : j.Plain) : ofString? j.print = some j := by
  obtain ⟨ts, hts⟩ := h.spelled
  rw [ofString?, print, String.toList_ofList, ofChars?_of_spelled hts]

end Json
end StockLedger
