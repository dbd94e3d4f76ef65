import Mathlib.Tactic.Common
import StockLedger.Proofs.Text.Bytes
import StockLedger.Text.Glob

/-!
# What a pattern stands for

* `Glob.Fits` : a text comes from a pattern when each star is replaced by some text;
* `Glob.Spread` : a text holds the pieces after a star, in their order, and ends with the last;
* `Glob.placeRest_iff` : placing each piece as far to the left as it goes misses nothing;
* `Glob.isMatch_iff` : the matcher decides `Glob.Fits`;
* `Glob.scan?_bytes` : on bytes the matcher says the same, and never cuts inside a character.

A piece placed further to the left leaves more of the text for the pieces after it, and the first
of those stands after a star, so the longer rest still holds them.
-/

namespace StockLedger
namespace Glob

variable {pattern text piece rest : List Char} {ps : List (List Char)}

/-- The texts a pattern stands for. -/
inductive Fits : List Char → List Char → Prop
  | done : Fits [] []
  | gap (any : List Char) {pattern text : List Char} :
      Fits pattern text → Fits ('*' :: pattern) (any ++ text)
  | letter {c : Char} {pattern text : List Char} :
      c ≠ '*' → Fits pattern text → Fits (c :: pattern) (c :: text)

/-- The texts that hold pieces in their order, the last of them at the end. -/
inductive Spread : List (List Char) → List Char → Prop
  | done : Spread [] []
  | next (any piece : List Char) {ps : List (List Char)} {rest : List Char} :
      Spread ps rest → Spread (piece :: ps) (any ++ (piece ++ rest))

/-! ## Pieces of a pattern -/

theorem pieces_ne_nil (pattern : List Char) : pieces pattern ≠ [] := by
  cases pattern with
  | nil => exact List.cons_ne_nil _ _
  | cons c cs =>
    simp only [pieces]
    split <;> exact List.cons_ne_nil _ _

theorem pieces_star (pattern : List Char) : pieces ('*' :: pattern) = [] :: pieces pattern := rfl

theorem pieces_letter {c : Char} (hc : c ≠ '*') {first : List Char}
    (h : pieces pattern = first :: ps) : pieces (c :: pattern) = (c :: first) :: ps := by
  simp only [pieces, h]

/-- A text fits just if it begins with the first piece and holds the others after it. -/
theorem fits_iff {first : List Char} (h : pieces pattern = first :: ps) :
    Fits pattern text ↔ ∃ rest, text = first ++ rest ∧ Spread ps rest := by
  constructor
  -- on how the stars were replaced: a star ends the first piece, a letter is one more in it
  · intro hfits
    induction hfits generalizing first ps with
    | done =>
      cases h
      exact ⟨[], rfl, .done⟩
    | @gap any pattern text hfits ih =>
      obtain ⟨second, more, hmore⟩ := List.exists_cons_of_ne_nil (pieces_ne_nil pattern)
      rw [pieces_star, hmore, List.cons.injEq] at h
      obtain ⟨rfl, rfl⟩ := h
      obtain ⟨rest, rfl, hrest⟩ := ih hmore
      exact ⟨_, rfl, .next any second hrest⟩
    | @letter c pattern text hc hfits ih =>
      obtain ⟨first', more, hmore⟩ := List.exists_cons_of_ne_nil (pieces_ne_nil pattern)
      rw [pieces_letter hc hmore, List.cons.injEq] at h
      obtain ⟨rfl, rfl⟩ := h
      obtain ⟨rest, rfl, hrest⟩ := ih hmore
      exact ⟨rest, rfl, hrest⟩
  · rintro ⟨rest, rfl, hspread⟩
    induction pattern generalizing first ps rest with
    | nil =>
      cases h
      cases hspread
      exact .done
    | cons c cs ih =>
      obtain ⟨first', more, hmore⟩ := List.exists_cons_of_ne_nil (pieces_ne_nil cs)
      by_cases hc : c = '*'
      · subst hc
        rw [pieces_star, hmore, List.cons.injEq] at h
        obtain ⟨rfl, rfl⟩ := h
        cases hspread with
        | next any _ hrest => exact .gap any (ih hmore _ hrest)
      · rw [pieces_letter hc hmore, List.cons.injEq] at h
        obtain ⟨rfl, rfl⟩ := h
        exact .letter hc (ih hmore rest hspread)

/-! ## Placing the pieces -/

theorem dropFront?_append (front text : List Char) :
    dropFront? front (front ++ text) = some text := by
  induction front with
  | nil => rfl
  | cons c cs ih => simp [dropFront?, ih]

theorem dropFront?_eq_some_iff : dropFront? piece text = some rest ↔ text = piece ++ rest := by
  constructor
  · intro h
    induction piece generalizing text with
    | nil => simpa [dropFront?] using h
    | cons p ps ih =>
      cases text with
      | nil => cases h
      | cons c cs =>
        rw [dropFront?] at h
        split at h
        · next hpc => rw [hpc, ih h, List.cons_append]
        · cases h
  · rintro rfl
    exact dropFront?_append piece rest

theorem dropFront?_eq_none_iff : dropFront? piece text = none ↔ ¬ piece <+: text := by
  rw [Option.eq_none_iff_forall_not_mem]
  constructor
  · rintro h ⟨rest, hrest⟩
    exact h rest (dropFront?_eq_some_iff.2 hrest.symm)
  · intro h rest hrest
    exact h ⟨rest, (dropFront?_eq_some_iff.1 hrest).symm⟩

/-- What is found stands there. -/
theorem eq_of_findAfter? (h : findAfter? piece text = some rest) :
    ∃ any, text = any ++ (piece ++ rest) := by
  induction text with
  | nil =>
    rw [findAfter?] at h
    refine ⟨[], ?_⟩
    rw [List.nil_append, dropFront?_eq_some_iff.1 h]
  | cons c cs ih =>
    rw [findAfter?] at h
    split at h
    · next hdrop =>
      cases h
      refine ⟨[], ?_⟩
      rw [List.nil_append, dropFront?_eq_some_iff.1 hdrop]
    · obtain ⟨any, hany⟩ := ih h
      exact ⟨c :: any, by rw [hany, List.cons_append]⟩

/-- The first occurrence of a piece leaves at least as much as any other. -/
theorem findAfter?_append (any piece rest : List Char) :
    ∃ more, findAfter? piece (any ++ (piece ++ rest)) = some (more ++ rest) := by
  induction any with
  | nil =>
    refine ⟨[], ?_⟩
    rw [List.nil_append, List.nil_append]
    cases hcs : piece ++ rest with
    | nil => rw [findAfter?, ← hcs, dropFront?_append]
    | cons c cs => rw [findAfter?, ← hcs, dropFront?_append]
  | cons c cs ih =>
    rw [List.cons_append, findAfter?]
    split
    · next left hdrop =>
      -- the piece stands here already, so what is left is longer than the rest
      have heq := dropFront?_eq_some_iff.1 hdrop
      have hleft : rest <:+ left := by
        have hrest : rest <:+ piece ++ left := ⟨c :: (cs ++ piece), by simp [← heq]⟩
        refine List.suffix_of_suffix_length_le hrest (List.suffix_append piece left) ?_
        have hlength := congrArg List.length heq
        simp only [List.length_cons, List.length_append] at hlength
        omega
      obtain ⟨more, rfl⟩ := hleft
      exact ⟨more, rfl⟩
    · exact ih

/-- A text that holds some pieces still does with more in front. -/
theorem Spread.append (more : List Char) (hps : ps ≠ []) (h : Spread ps rest) :
    Spread ps (more ++ rest) := by
  cases h with
  | done => exact absurd rfl hps
  | next any piece hrest =>
    rw [← List.append_assoc]
    exact .next (more ++ any) piece hrest

/-- Placing each piece as far to the left as it goes finds a way whenever there is one. -/
theorem placeRest_iff : placeRest ps text = true ↔ Spread ps text := by
  induction ps generalizing text with
  | nil =>
    rw [placeRest, List.isEmpty_iff]
    constructor
    · rintro rfl
      exact .done
    · rintro ⟨⟩
      rfl
  | cons piece ps ih =>
    cases ps with
    | nil =>
      rw [placeRest, List.isSuffixOf_iff_suffix]
      constructor
      · rintro ⟨any, rfl⟩
        simpa using Spread.next any piece .done
      · rintro (_ | ⟨any, _, ⟨⟩⟩)
        exact ⟨any, by simp⟩
    | cons next more =>
      rw [placeRest.eq_3 _ _ _ (List.cons_ne_nil next more)]
      constructor
      · intro h
        split at h
        · next rest hfound =>
          obtain ⟨any, rfl⟩ := eq_of_findAfter? hfound
          exact .next any piece (ih.1 h)
        · cases h
      -- the piece may be found further to the left; the others still stand in what is left
      · rintro (_ | @⟨any, _, _, rest, hrest⟩)
        obtain ⟨before, hfound⟩ := findAfter?_append any piece rest
        rw [hfound]
        exact ih.2 (hrest.append before (List.cons_ne_nil next more))

/-- A pattern without a star is matched like any other. -/
theorem isMatch_eq {first : List Char} (h : pieces pattern = first :: ps) :
    isMatch pattern text = (dropFront? first text).any (placeRest ps) := by
  rw [isMatch, h]
  cases ps with
  | nil =>
    rw [Bool.eq_iff_iff, beq_iff_eq, Option.any_eq_true]
    constructor
    · rintro rfl
      exact ⟨[], dropFront?_eq_some_iff.2 (List.append_nil first).symm, rfl⟩
    · rintro ⟨rest, hdrop, hrest⟩
      rw [dropFront?_eq_some_iff.1 hdrop, List.isEmpty_iff.1 hrest, List.append_nil]
  | cons next more =>
    dsimp only
    cases dropFront? first text <;> rfl

/-- The matcher accepts exactly the texts a pattern stands for. -/
theorem isMatch_iff : isMatch pattern text = true ↔ Fits pattern text := by
  obtain ⟨first, more, hpieces⟩ := List.exists_cons_of_ne_nil (pieces_ne_nil pattern)
  rw [isMatch_eq hpieces, fits_iff hpieces, Option.any_eq_true]
  simp only [dropFront?_eq_some_iff, placeRest_iff]

/-! ## On bytes -/

theorem ofNat_eq_starByte {n : Nat} (hn : n < 256) : UInt8.ofNat n = starByte ↔ n = 42 := by
  rw [← UInt8.toNat_inj, UInt8.toNat_ofNat', Nat.mod_eq_of_lt hn]
  rfl

/-- The byte of a star belongs to no other character. -/
theorem starByte_notMem {c : Char} (hc : c ≠ '*') : starByte ∉ String.utf8EncodeChar c := by
  have hval : c.val.toNat ≠ 42 := fun h => hc (Char.ext (UInt32.toNat_inj.1 h))
  have hmax : c.val.toNat < 1114112 := by
    rcases c.valid with h | ⟨-, h⟩ <;> omega
  have hbyte {n : Nat} (hn : n < 256) (hstar : n ≠ 42) : starByte ≠ UInt8.ofNat n :=
    fun h => hstar ((ofNat_eq_starByte hn).1 h.symm)
  unfold String.utf8EncodeChar
  dsimp only
  split
  · simp only [List.mem_singleton]
    exact hbyte (by omega) hval
  · split
    · simp only [List.mem_cons, List.not_mem_nil, or_false, not_or]
      exact ⟨hbyte (by omega) (by omega), hbyte (by omega) (by omega)⟩
    · split
      · simp only [List.mem_cons, List.not_mem_nil, or_false, not_or]
        exact ⟨hbyte (by omega) (by omega), hbyte (by omega) (by omega),
          hbyte (by omega) (by omega)⟩
      · simp only [List.mem_cons, List.not_mem_nil, or_false, not_or]
        exact ⟨hbyte (by omega) (by omega), hbyte (by omega) (by omega),
          hbyte (by omega) (by omega), hbyte (by omega) (by omega)⟩

theorem byteParts_append {bs rest first : List UInt8} {ps : List (List UInt8)}
    (hbs : starByte ∉ bs) (h : byteParts rest = first :: ps) :
    byteParts (bs ++ rest) = (bs ++ first) :: ps := by
  induction bs with
  | nil => exact h
  | cons b bs ih =>
    rw [List.mem_cons, not_or] at hbs
    rw [List.cons_append, byteParts, if_neg (Ne.symm hbs.1), ih hbs.2, List.cons_append]

theorem byteParts_bytes (pattern : List Char) :
    byteParts (Text.bytes pattern) = (pieces pattern).map Text.bytes := by
  induction pattern with
  | nil => rfl
  | cons c cs ih =>
    obtain ⟨first, more, hpieces⟩ := List.exists_cons_of_ne_nil (pieces_ne_nil cs)
    rw [hpieces, List.map_cons] at ih
    by_cases hc : c = '*'
    · subst hc
      rw [pieces_star, hpieces, List.map_cons, List.map_cons, ← ih]
      rfl
    · rw [pieces_letter hc hpieces, Text.bytes_cons, byteParts_append (starByte_notMem hc) ih,
        List.map_cons, Text.bytes_cons]

/-- A piece that is not among the characters is not among the bytes. -/
theorem find?_bytes_of_none (h : findAfter? piece text = none) :
    Text.find? (Text.bytes piece) (Text.bytes text) = none := by
  induction text with
  | nil =>
    rw [findAfter?, dropFront?_eq_none_iff] at h
    rw [Text.bytes_nil, Text.find?, if_neg]
    rw [List.isEmpty_iff, Text.bytes_eq_nil]
    rintro rfl
    exact h List.nil_prefix
  | cons c cs ih =>
    rw [findAfter?] at h
    split at h
    · cases h
    · next hdrop =>
      rw [Text.find?_bytes_cons (dropFront?_eq_none_iff.1 hdrop), ih h, Option.map_none]

/-- A piece is found at the same place among the bytes as among the characters. -/
theorem find?_bytes_of_some (h : findAfter? piece text = some rest) :
    ∃ any, text = any ++ (piece ++ rest) ∧
      Text.find? (Text.bytes piece) (Text.bytes text) = some (Text.bytes any).length := by
  induction text with
  | nil =>
    rw [findAfter?, dropFront?_eq_some_iff] at h
    exact ⟨[], h, Text.find?_bytes_of_prefix ⟨rest, h.symm⟩⟩
  | cons c cs ih =>
    rw [findAfter?] at h
    split at h
    · next hdrop =>
      cases h
      have hfront := dropFront?_eq_some_iff.1 hdrop
      exact ⟨[], hfront, Text.find?_bytes_of_prefix ⟨rest, hfront.symm⟩⟩
    · next hdrop =>
      obtain ⟨any, rfl, hfound⟩ := ih h
      refine ⟨c :: any, rfl, ?_⟩
      rw [Text.find?_bytes_cons (dropFront?_eq_none_iff.1 hdrop), hfound, Option.map_some,
        Text.bytes_cons, List.length_append, Nat.add_comm]

theorem isSuffixOf_bytes (last text : List Char) :
    (Text.bytes last).isSuffixOf (Text.bytes text) = last.isSuffixOf text := by
  rw [Bool.eq_iff_iff, List.isSuffixOf_iff_suffix, List.isSuffixOf_iff_suffix,
    Text.bytes_suffix_iff]

theorem scanRest?_bytes (ps : List (List Char)) (text : List Char) :
    scanRest? (ps.map Text.bytes) (Text.bytes text) = some (placeRest ps text) := by
  induction ps generalizing text with
  | nil => cases text <;> simp [scanRest?, placeRest]
  | cons piece ps ih =>
    cases ps with
    | nil =>
      rw [placeRest, List.map_cons, List.map_nil, scanRest?, isSuffixOf_bytes]
    | cons next more =>
      rw [placeRest.eq_3 _ _ _ (List.cons_ne_nil next more), List.map_cons,
        scanRest?.eq_3 _ _ _ (by simp)]
      cases hfound : findAfter? piece text with
      | none => rw [find?_bytes_of_none hfound]
      | some rest =>
        obtain ⟨any, rfl, hplace⟩ := find?_bytes_of_some hfound
        have hcut := Text.cutAt?_bytes (any ++ piece) rest
        rw [Text.bytes_append, List.length_append, List.append_assoc] at hcut
        rw [hplace]
        dsimp only
        rw [hcut, Option.bind_some]
        exact ih rest

/-- On bytes the matcher says the same as on characters, and cuts only between characters. -/
theorem scan?_bytes (pattern text : List Char) :
    scan? (Text.bytes pattern) (Text.bytes text) = some (isMatch pattern text) := by
  obtain ⟨first, more, hpieces⟩ := List.exists_cons_of_ne_nil (pieces_ne_nil pattern)
  rw [scan?, byteParts_bytes, isMatch_eq hpieces, hpieces, List.map_cons]
  dsimp only
  cases hdrop : dropFront? first text with
  | none =>
    have hfront := dropFront?_eq_none_iff.1 hdrop
    rw [if_neg (by rwa [List.isPrefixOf_iff_prefix, Text.bytes_prefix_iff]), Option.any_none]
  | some rest =>
    obtain rfl := dropFront?_eq_some_iff.1 hdrop
    have hfront : (Text.bytes first).isPrefixOf (Text.bytes (first ++ rest)) = true := by
      rw [List.isPrefixOf_iff_prefix, Text.bytes_prefix_iff]
      exact List.prefix_append first rest
    rw [if_pos hfront, Text.cutAt?_bytes, Option.bind_some, scanRest?_bytes, Option.any_some]

end Glob
end StockLedger
