import Mathlib.Tactic.Common
import StockLedger.Text.Bytes

/-!
# Bytes and characters tell the same

* `Text.encoded` : a character is one byte that begins it and some that go on with it;
* `Text.bytes_prefix_iff`, `bytes_suffix_iff` : one text begins or ends with another just if its
  bytes do;
* `Text.cutAt?_bytes` : a place between two characters can be cut at;
* `Text.find?_bytes_cons` : a place that is found lies between two characters.

Bytes that go on with a character never begin a text, so what is found in the bytes is found among
the characters.
-/

namespace StockLedger
namespace Text

variable {c : Char} {cs ds front text piece : List Char} {u v tl : List UInt8}

/-! ## The bytes of one character -/

theorem isContinuation_ofNat {n : Nat} (low : 128 ≤ n) (high : n < 192) :
    isContinuation (UInt8.ofNat n) = true := by
  have hn : (UInt8.ofNat n).toNat = n := by
    rw [UInt8.toNat_ofNat']
    omega
  simp only [isContinuation, Bool.and_eq_true, decide_eq_true_eq, UInt8.le_iff_toNat_le,
    UInt8.lt_iff_toNat_lt, hn]
  exact ⟨low, high⟩

theorem isContinuation_ofNat_eq_false {n : Nat} (size : n < 256) (h : n < 128 ∨ 192 ≤ n) :
    isContinuation (UInt8.ofNat n) = false := by
  have hn : (UInt8.ofNat n).toNat = n := by
    rw [UInt8.toNat_ofNat']
    omega
  rw [← Bool.not_eq_true]
  simp only [isContinuation, Bool.and_eq_true, decide_eq_true_eq, UInt8.le_iff_toNat_le,
    UInt8.lt_iff_toNat_lt, hn]
  have : (128 : UInt8).toNat = 128 := rfl
  have : (192 : UInt8).toNat = 192 := rfl
  omega

/-- A character is one byte that begins it, and then bytes that go on with it. -/
theorem encoded (c : Char) : ∃ b tl, String.utf8EncodeChar c = b :: tl ∧
    isContinuation b = false ∧ ∀ x ∈ tl, isContinuation x = true := by
  have hc : c.val.toNat < 1114112 := by
    have := c.valid
    rcases this with h | ⟨-, h⟩ <;> omega
  unfold String.utf8EncodeChar
  dsimp only
  split
  · exact ⟨_, _, rfl, isContinuation_ofNat_eq_false (by omega) (by omega), by simp⟩
  · split
    · refine ⟨_, _, rfl, isContinuation_ofNat_eq_false (by omega) (by omega), ?_⟩
      simp only [List.mem_singleton, forall_eq]
      exact isContinuation_ofNat (by omega) (by omega)
    · split
      · refine ⟨_, _, rfl, isContinuation_ofNat_eq_false (by omega) (by omega), ?_⟩
        simp only [List.mem_cons, List.not_mem_nil, or_false, forall_eq_or_imp, forall_eq]
        exact ⟨isContinuation_ofNat (by omega) (by omega),
          isContinuation_ofNat (by omega) (by omega)⟩
      · refine ⟨_, _, rfl, isContinuation_ofNat_eq_false (by omega) (by omega), ?_⟩
        simp only [List.mem_cons, List.not_mem_nil, or_false, forall_eq_or_imp, forall_eq]
        exact ⟨isContinuation_ofNat (by omega) (by omega),
          isContinuation_ofNat (by omega) (by omega),
          isContinuation_ofNat (by omega) (by omega)⟩

/-! ## Where a text can be cut -/

@[simp] theorem bytes_nil : bytes [] = [] := rfl

@[simp] theorem bytes_cons (c : Char) (cs : List Char) :
    bytes (c :: cs) = String.utf8EncodeChar c ++ bytes cs := rfl

@[simp] theorem bytes_append (cs ds : List Char) : bytes (cs ++ ds) = bytes cs ++ bytes ds :=
  List.flatMap_append

@[simp] theorem bytes_eq_nil : bytes cs = [] ↔ cs = [] := by
  cases cs with
  | nil => simp
  | cons c cs =>
    obtain ⟨b, tl, hc, -⟩ := encoded c
    simp [hc]

/-- Bytes that begin with no byte that goes on with a character. -/
def Begins (bs : List UInt8) : Prop :=
  ∀ b ∈ bs.head?, isContinuation b = false

theorem begins_bytes (cs : List Char) : Begins (bytes cs) := by
  cases cs with
  | nil => simp [Begins]
  | cons c cs =>
    obtain ⟨b, tl, hc, hb, -⟩ := encoded c
    simpa [Begins, hc] using hb

/-- Bytes are cut into texts wherever no byte goes on with a character. -/
theorem bytes_eq_append (h : bytes cs = u ++ v) (hv : Begins v) :
    ∃ front rest, cs = front ++ rest ∧ u = bytes front ∧ v = bytes rest := by
  induction cs generalizing u with
  | nil =>
    obtain ⟨rfl, rfl⟩ := List.append_eq_nil_iff.1 h.symm
    exact ⟨[], [], rfl, rfl, rfl⟩
  | cons c cs ih =>
    rw [bytes_cons] at h
    rcases List.append_eq_append_iff.1 h with ⟨u', rfl, hrest⟩ | ⟨w, hc, rfl⟩
    · obtain ⟨front, rest, rfl, rfl, rfl⟩ := ih hrest
      exact ⟨c :: front, rest, rfl, rfl, rfl⟩
    -- the cut falls at or before the end of the first character
    · cases u with
      | nil => exact ⟨[], c :: cs, rfl, rfl, by rw [bytes_cons, hc, List.nil_append]⟩
      | cons b u =>
        cases w with
        | nil => exact ⟨[c], cs, rfl, by simpa using hc.symm, rfl⟩
        | cons x w =>
          obtain ⟨b', tl, hbytes, -, htl⟩ := encoded c
          rw [hbytes, List.cons_append, List.cons.injEq] at hc
          have hx : isContinuation x = true := htl x (by simp [hc.2])
          have hx' : isContinuation x = false := hv x rfl
          rw [hx] at hx'
          cases hx'

theorem bytes_prefix_iff : bytes cs <+: bytes ds ↔ cs <+: ds := by
  constructor
  · rintro ⟨v, hv⟩
    refine List.isPrefix_of_utf8Encode_append_eq_utf8Encode v.toByteArray ?_
    simp only [List.utf8Encode]
    rw [← List.toByteArray_append]
    exact congrArg List.toByteArray hv
  · rintro ⟨rest, rfl⟩
    exact ⟨bytes rest, (bytes_append cs rest).symm⟩

theorem bytes_injective (h : bytes cs = bytes ds) : cs = ds := by
  have hfirst : cs <+: ds := bytes_prefix_iff.1 (h ▸ List.prefix_rfl)
  have hlast : ds <+: cs := bytes_prefix_iff.1 (h ▸ List.prefix_rfl)
  exact hfirst.eq_of_length_le hlast.length_le

theorem bytes_suffix_iff : bytes cs <:+ bytes ds ↔ cs <:+ ds := by
  constructor
  · rintro ⟨u, hu⟩
    obtain ⟨front, rest, rfl, -, hrest⟩ := bytes_eq_append hu.symm (begins_bytes cs)
    exact ⟨front, by rw [bytes_injective hrest]⟩
  · rintro ⟨front, rfl⟩
    exact ⟨bytes front, (bytes_append front cs).symm⟩

theorem cutAt?_bytes (front rest : List Char) :
    cutAt? (bytes front).length (bytes (front ++ rest)) = some (bytes rest) := by
  have hplace : isBoundary (bytes front).length (bytes (front ++ rest)) = true := by
    rw [isBoundary, bytes_append, Bool.or_eq_true]
    right
    rw [List.getElem?_append_right (Nat.le_refl _), Nat.sub_self, ← List.head?_eq_getElem?]
    cases hrest : (bytes rest).head? with
    | none => simp [List.head?_eq_none_iff.1 hrest]
    | some b => simp [begins_bytes rest b hrest]
  rw [cutAt?, if_pos hplace, bytes_append, List.drop_left]

/-! ## The first place of a piece -/

theorem find?_nil (bs : List UInt8) : find? [] bs = some 0 := by
  cases bs <;> rfl

/-- No piece of characters stands at a byte that goes on with a character. -/
theorem find?_append (hpiece : piece ≠ []) (htl : ∀ b ∈ tl, isContinuation b = true) :
    find? (bytes piece) (tl ++ v) = (find? (bytes piece) v).map (· + tl.length) := by
  induction tl with
  | nil => simp
  | cons b tl ih =>
    have hb : ¬ (bytes piece).isPrefixOf (b :: (tl ++ v)) = true := by
      rw [List.isPrefixOf_iff_prefix]
      intro hpre
      cases hp : bytes piece with
      | nil => exact hpiece (bytes_eq_nil.1 hp)
      | cons x xs =>
        rw [hp, List.cons_prefix_cons] at hpre
        have hx : isContinuation x = false := begins_bytes piece x (by rw [hp]; rfl)
        rw [hpre.1, htl b List.mem_cons_self] at hx
        cases hx
    rw [List.cons_append, find?, if_neg hb, ih fun x hx => htl x (List.mem_cons_of_mem b hx),
      Option.map_map]
    rfl

/-- A piece that does not stand at the front of a text is looked for after its first character. -/
theorem find?_bytes_cons (h : ¬ piece <+: c :: cs) :
    find? (bytes piece) (bytes (c :: cs)) =
      (find? (bytes piece) (bytes cs)).map (· + (String.utf8EncodeChar c).length) := by
  have hpiece : piece ≠ [] := fun hnil => h (hnil ▸ List.nil_prefix)
  obtain ⟨b, tl, hc, -, htl⟩ := encoded c
  have hfront : ¬ (bytes piece).isPrefixOf (b :: (tl ++ bytes cs)) = true := by
    rw [List.isPrefixOf_iff_prefix, ← List.cons_append, ← hc, ← bytes_cons, bytes_prefix_iff]
    exact h
  rw [bytes_cons, hc, List.cons_append, find?, if_neg hfront, find?_append hpiece htl,
    Option.map_map]
  congr 1

/-- A piece at the front of a text is found there. -/
theorem find?_bytes_of_prefix (h : piece <+: cs) : find? (bytes piece) (bytes cs) = some 0 := by
  have hfront := bytes_prefix_iff.2 h
  cases hcs : bytes cs with
  | nil =>
    rw [hcs, List.prefix_nil] at hfront
    rw [hfront, find?_nil]
  | cons b bs =>
    rw [hcs] at hfront
    rw [find?, if_pos (List.isPrefixOf_iff_prefix.2 hfront)]

end Text
end StockLedger
