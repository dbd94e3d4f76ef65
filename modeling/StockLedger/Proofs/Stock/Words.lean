import Mathlib.Tactic.Common
import StockLedger.Proofs.Stock.Item
import StockLedger.Stock.Words

/-!
# Items in words are items

The counts of an item fit into words, and so does whatever a change computes from them: the
operations on words are those on items, and their arithmetic never lacks an answer.

* `Word.plus?_eq_some_iff`, `Word.minus?_eq_some_iff` : the arithmetic of words;
* `StockItem.words` : an item in words;
* `WordItem.Built`, `WordItem.built_iff` : the words that are made or read back are those of items;
* `StockItem.change?_words` : a change in words.
-/

namespace StockLedger

namespace Word

variable {n : Int} {a b c : Int64}

theorem ofInt?_eq_some_iff : ofInt? n = some c ↔ c.toInt = n := by
  have hmax : maxUnits = 9223372036854775807 := rfl
  unfold ofInt?
  constructor
  · intro h
    split at h
    · next hrange =>
      rw [← Option.some.inj h]
      exact Int64.toInt_ofInt_of_le (by omega) (by omega)
    · cases h
  · rintro rfl
    have hlow := c.le_toInt
    have hhigh := c.toInt_lt
    rw [if_pos (by omega), Int64.ofInt_toInt]

theorem plus?_eq_some_iff : plus? a b = some c ↔ c.toInt = a.toInt + b.toInt :=
  ofInt?_eq_some_iff

theorem minus?_eq_some_iff : minus? a b = some c ↔ c.toInt = a.toInt - b.toInt :=
  ofInt?_eq_some_iff

theorem toInt_le_maxUnits (a : Int64) : a.toInt ≤ maxUnits := by
  have hmax : maxUnits = 9223372036854775807 := rfl
  have hhigh := a.toInt_lt
  omega

theorem nonpos_iff (units : Int64) : units ≤ 0 ↔ ¬ 0 < units.toInt := by
  rw [Int64.le_iff_toInt_le, Int64.toInt_zero, Int.not_lt]

theorem lt_iff : a < b ↔ ¬ b.toInt ≤ a.toInt := by
  rw [Int64.lt_iff_toInt_lt, Int.not_le]

theorem neg_iff (a : Int64) : a < 0 ↔ ¬ 0 ≤ a.toInt := by
  rw [lt_iff, Int64.toInt_zero]

/-- The word for a count. -/
theorem toInt_ofInt_of_count (hlow : 0 ≤ n) (hhigh : n ≤ maxUnits) : (Int64.ofInt n).toInt = n := by
  have hmax : maxUnits = 9223372036854775807 := rfl
  exact Int64.toInt_ofInt_of_le (by omega) (by omega)

theorem plus?_of_count (hlow : 0 ≤ a.toInt + b.toInt) (hhigh : a.toInt + b.toInt ≤ maxUnits) :
    plus? a b = some (.ofInt (a.toInt + b.toInt)) :=
  plus?_eq_some_iff.2 (toInt_ofInt_of_count hlow hhigh)

theorem minus?_of_count (hlow : 0 ≤ a.toInt - b.toInt) (hhigh : a.toInt - b.toInt ≤ maxUnits) :
    minus? a b = some (.ofInt (a.toInt - b.toInt)) :=
  minus?_eq_some_iff.2 (toInt_ofInt_of_count hlow hhigh)

end Word

namespace StockItem

/-- An item in words. -/
def words (s : StockItem) : WordItem :=
  { id := s.id, productId := s.productId, quantity := .ofInt s.quantity
    reserved := .ofInt s.reserved, version := s.version, createdAt := s.createdAt
    updatedAt := s.updatedAt }

@[simp] theorem toInt_reserved_words (s : StockItem) : s.words.reserved.toInt = s.reserved :=
  Word.toInt_ofInt_of_count s.reserved_nonneg (Int.le_trans s.reserved_le s.quantity_le)

@[simp] theorem toInt_quantity_words (s : StockItem) : s.words.quantity.toInt = s.quantity :=
  Word.toInt_ofInt_of_count (Int.le_trans s.reserved_nonneg s.reserved_le) s.quantity_le

theorem available?_words (s : StockItem) :
    ∃ a, s.words.available? = some a ∧ a.toInt = s.available := by
  have hlow := s.reserved_nonneg
  have hle := s.reserved_le
  have hhigh := s.quantity_le
  have hword : (Int64.ofInt s.available).toInt = s.available :=
    Word.toInt_ofInt_of_count (by unfold available; omega) (by unfold available; omega)
  refine ⟨.ofInt s.available, ?_, hword⟩
  rw [WordItem.available?, Word.minus?_eq_some_iff, toInt_quantity_words, toInt_reserved_words,
    hword, available]

/-! ## Making items -/

theorem create_words (id : ItemId) (productId : ProductId) (quantity : Int64) (now : Timestamp) :
    WordItem.create id productId quantity now =
      (create id productId quantity.toInt now).map words := by
  have hmax := Word.toInt_le_maxUnits quantity
  unfold WordItem.create create
  by_cases hquantity : 0 ≤ quantity.toInt
  · rw [if_neg (by rwa [Word.neg_iff, not_not]), dif_pos ⟨hquantity, hmax⟩]
    simp only [Except.map, words, Int64.ofInt_toInt]
    rfl
  · rw [if_pos ((Word.neg_iff _).2 hquantity), dif_neg (fun h => hquantity h.1)]
    rfl

theorem restore_words (id : ItemId) (productId : ProductId) (quantity reserved : Int64)
    (version : UInt64) (createdAt updatedAt : Timestamp) :
    WordItem.restore id productId quantity reserved version createdAt updatedAt =
      (restore id productId quantity.toInt reserved.toInt version createdAt updatedAt).map
        words := by
  have hmax := Word.toInt_le_maxUnits quantity
  unfold WordItem.restore restore
  have hrefused : quantity < 0 ∨ reserved < 0 ∨ quantity < reserved ↔
      ¬ (0 ≤ reserved.toInt ∧ reserved.toInt ≤ quantity.toInt) := by
    rw [Word.neg_iff, Word.neg_iff, Word.lt_iff]
    omega
  by_cases hcounts : 0 ≤ reserved.toInt ∧ reserved.toInt ≤ quantity.toInt
  · rw [if_neg (fun h => hrefused.1 h hcounts), dif_pos ⟨hcounts.1, hcounts.2, hmax⟩]
    simp only [Except.map, words, Int64.ofInt_toInt]
  · rw [if_pos (hrefused.2 hcounts), dif_neg (fun h => hcounts ⟨h.1, h.2.1⟩)]
    rfl

theorem restore_self (s : StockItem) :
    restore s.id s.productId s.quantity s.reserved s.version s.createdAt s.updatedAt = .ok s :=
  dif_pos ⟨s.reserved_nonneg, s.reserved_le, s.quantity_le⟩

/-! ## Changes -/

/-- What a change answers, and the item as it leaves it: as it was, if the change is refused. -/
def outcome (s : StockItem) (change : Change) (units : Int) : Answer Unit × StockItem :=
  match s.apply change units with
  | .ok t => (.ok (), t)
  | .error f => (.error f, s)

/-- What a change in words comes to. -/
def wordsOutcome (s : StockItem) (change : Change) (units : Int) : WordItem.Outcome :=
  ((s.outcome change units).1, (s.outcome change units).2.words)

section

variable (s : StockItem) (units : Int64)

theorem short?_words :
    s.words.short? units = some (.error (.insufficientStock units.toInt s.available), s.words) := by
  rcases s.available?_words with ⟨a, ha, hvalue⟩
  rw [WordItem.short?, ha, Option.map_some, hvalue]

theorem reserve?_words : s.words.reserve? units = some (s.wordsOutcome .reserve units.toInt) := by
  rcases s.available?_words with ⟨a, ha, hvalue⟩
  have hlow := s.reserved_nonneg
  have hhigh := s.quantity_le
  unfold WordItem.reserve? wordsOutcome outcome apply reserve
  simp only [Word.nonpos_iff, ha, Option.bind_some, Word.lt_iff, hvalue]
  by_cases hpos : 0 < units.toInt
  · rw [if_neg (not_not.2 hpos), dif_pos hpos]
    by_cases hshort : units.toInt ≤ s.available
    · have hsum : s.reserved + units.toInt ≤ s.quantity := by
        unfold available at hshort
        omega
      rw [if_neg (not_not.2 hshort), dif_pos hshort,
        Word.plus?_of_count (by simp; omega) (by simp; omega), toInt_reserved_words]
      rfl
    · rw [if_pos hshort, dif_neg hshort, short?_words]
  · rw [if_pos hpos, dif_neg hpos]

theorem release?_words : s.words.release? units = some (s.wordsOutcome .release units.toInt) := by
  have hle := s.reserved_le
  have hhigh := s.quantity_le
  unfold WordItem.release? wordsOutcome outcome apply release
  simp only [Word.nonpos_iff, Word.lt_iff, toInt_reserved_words]
  by_cases hpos : 0 < units.toInt
  · rw [if_neg (not_not.2 hpos), dif_pos hpos]
    by_cases hshort : units.toInt ≤ s.reserved
    · rw [if_neg (not_not.2 hshort), dif_pos hshort,
        Word.minus?_of_count (by simp; omega) (by simp; omega), toInt_reserved_words]
      rfl
    · rw [if_pos hshort, dif_neg hshort]
  · rw [if_pos hpos, dif_neg hpos]

theorem confirm?_words : s.words.confirm? units = some (s.wordsOutcome .confirm units.toInt) := by
  have hle := s.reserved_le
  have hhigh := s.quantity_le
  unfold WordItem.confirm? wordsOutcome outcome apply confirm
  simp only [Word.nonpos_iff, Word.lt_iff, toInt_reserved_words, toInt_quantity_words]
  by_cases hpos : 0 < units.toInt
  · rw [if_neg (not_not.2 hpos), dif_pos hpos]
    by_cases hshort : units.toInt ≤ s.reserved
    -- What is reserved is owned, so that the second check never fails.
    · have howned : units.toInt ≤ s.quantity := Int.le_trans hshort hle
      rw [if_neg (not_not.2 hshort), dif_pos hshort, if_neg (not_not.2 howned), if_pos howned,
        Word.minus?_of_count (by simp; omega) (by simp; omega), Option.bind_some,
        Word.minus?_of_count (by simp; omega) (by simp; omega), toInt_reserved_words,
        toInt_quantity_words]
      rfl
    · rw [if_pos hshort, dif_neg hshort]
  · rw [if_pos hpos, dif_neg hpos]

theorem add?_words : s.words.add? units = some (s.wordsOutcome .add units.toInt) := by
  have hlow := s.reserved_nonneg
  have hle := s.reserved_le
  unfold WordItem.add? wordsOutcome outcome apply add
  simp only [Word.nonpos_iff]
  by_cases hpos : 0 < units.toInt
  · rw [if_neg (not_not.2 hpos), dif_pos hpos]
    by_cases hfits : s.quantity + units.toInt ≤ maxUnits
    · rw [dif_pos hfits, Word.plus?_of_count (by simp; omega) (by simp; omega),
        toInt_quantity_words]
      rfl
    -- This is the one sum that may leave the range, and then the change is refused.
    · have hnone : Word.plus? s.words.quantity units = none := by
        rw [Word.plus?, Word.ofInt?, toInt_quantity_words, if_neg (fun h => hfits h.2)]
      rw [dif_neg hfits, hnone]
  · rw [if_pos hpos, dif_neg hpos]

theorem decrement?_words :
    s.words.decrement? units = some (s.wordsOutcome .decrement units.toInt) := by
  rcases s.available?_words with ⟨a, ha, hvalue⟩
  have hlow := s.reserved_nonneg
  have hhigh := s.quantity_le
  unfold WordItem.decrement? wordsOutcome outcome apply decrement
  simp only [Word.nonpos_iff, ha, Option.bind_some, Word.lt_iff, hvalue]
  by_cases hpos : 0 < units.toInt
  · rw [if_neg (not_not.2 hpos), dif_pos hpos]
    by_cases hshort : units.toInt ≤ s.available
    · have hleft : s.reserved ≤ s.quantity - units.toInt := by
        unfold available at hshort
        omega
      rw [if_neg (not_not.2 hshort), dif_pos hshort,
        Word.minus?_of_count (by simp; omega) (by simp; omega), toInt_quantity_words]
      rfl
    · rw [if_pos hshort, dif_neg hshort, short?_words]
  · rw [if_pos hpos, dif_neg hpos]

/-- A change in words always has an answer: that of the change of the item. -/
theorem change?_words (change : Change) :
    s.words.change? change units = some (s.wordsOutcome change units.toInt) := by
  cases change with
  | reserve => exact s.reserve?_words units
  | release => exact s.release?_words units
  | confirm => exact s.confirm?_words units
  | add => exact s.add?_words units
  | decrement => exact s.decrement?_words units

end

end StockItem

namespace WordItem

/-- Words that were made as a new item, or read back from storage as one. -/
inductive Built : WordItem → Prop
  | create {id productId quantity now w} (h : create id productId quantity now = .ok w) : Built w
  | restore {id productId quantity reserved version createdAt updatedAt w}
      (h : restore id productId quantity reserved version createdAt updatedAt = .ok w) : Built w

theorem exists_words_of_map {a : Answer StockItem} {w : WordItem}
    (h : a.map StockItem.words = .ok w) : ∃ s : StockItem, s.words = w := by
  cases a with
  | ok s => exact ⟨s, Except.ok.inj h⟩
  | error f => cases h

/-- Whatever is built is an item in words, and every item in words can be. -/
theorem built_iff {w : WordItem} : w.Built ↔ ∃ s : StockItem, s.words = w := by
  constructor
  · rintro (h | h)
    · rw [StockItem.create_words] at h
      exact exists_words_of_map h
    · rw [StockItem.restore_words] at h
      exact exists_words_of_map h
  · rintro ⟨s, rfl⟩
    have hrestored : restore s.id s.productId s.words.quantity s.words.reserved s.version
        s.createdAt s.updatedAt = .ok s.words := by
      rw [StockItem.restore_words, StockItem.toInt_quantity_words, StockItem.toInt_reserved_words,
        StockItem.restore_self]
      rfl
    exact .restore hrestored

end WordItem

end StockLedger
