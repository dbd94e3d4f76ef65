import Mathlib.Tactic.Common
import StockLedger.Memory.Cache
import StockLedger.Proofs.Text.Glob

/-!
# Deleting a pattern

* `MemoryCache.perm_deletePattern` : the pairs of a cache are those a deletion takes and those it
  leaves;
* `MemoryCache.deletePattern_exact` : a deletion takes the texts whose keys the pattern stands for,
  leaves the others as they are, and says how many it took.

Whether a text is still alive makes no difference to a deletion.
-/

namespace StockLedger
namespace MemoryCache

variable {c : MemoryCache} {uptime : Nat} {pattern : String}

/-- Is a key one of those a pattern stands for? -/
abbrev Named (pattern key : String) : Prop :=
  Glob.Fits pattern.toList key.toList

theorem fits_iff {key : String} : fits pattern key = true ↔ Named pattern key :=
  Glob.isMatch_iff

instance (pattern key : String) : Decidable (Named pattern key) :=
  decidable_of_iff _ fits_iff

/-- The pairs that a deletion of a pattern takes. -/
def taken (c : MemoryCache) (pattern : String) : List (String × CacheEntry) :=
  c.entries.pairs.filter fun e => fits pattern e.1

theorem pairs_deletePattern (hc : c.online = true) :
    (c.apply uptime (.deletePattern pattern)).entries.pairs =
      c.entries.pairs.filter fun e => !fits pattern e.1 := by
  rw [apply, if_pos hc]
  rfl

theorem perm_deletePattern (hc : c.online = true) :
    c.entries.pairs.Perm
      (c.taken pattern ++ (c.apply uptime (.deletePattern pattern)).entries.pairs) := by
  rw [pairs_deletePattern hc, taken]
  exact (List.filter_append_perm (fun e : String × CacheEntry => fits pattern e.1) _).symm

theorem reply_deletePattern (hc : c.online = true) :
    c.reply uptime (.deletePattern pattern) = .ok (c.taken pattern).length := by
  rw [reply, if_pos hc, value, taken, ← List.countP_eq_length_filter, Table.keys, List.countP_map]
  rfl

/-- A pattern stands for exactly the texts its matcher accepts, on characters and on bytes alike,
and deleting it takes exactly the texts under such keys. -/
theorem deletePattern_exact (pattern : String) :
    (∀ key : String,
      (fits pattern key = true ↔ Named pattern key) ∧
      Glob.scan? (Text.bytes pattern.toList) (Text.bytes key.toList) =
        some (fits pattern key)) ∧
    ∀ (entries : Table String CacheEntry) (uptime : Nat),
      let before : MemoryCache := { entries, online := true }
      let after := before.apply uptime (.deletePattern pattern)
      ∃ gone,
        before.entries.pairs.Perm (gone ++ after.entries.pairs) ∧
        (∀ e ∈ gone, Named pattern e.1) ∧
        (∀ e ∈ after.entries.pairs, ¬ Named pattern e.1) ∧
        before.reply uptime (.deletePattern pattern) = .ok gone.length ∧
        after.online = true := by
  refine ⟨fun key => ⟨fits_iff, Glob.scan?_bytes _ _⟩, ?_⟩
  intro entries uptime before after
  have hbefore : before.online = true := rfl
  refine ⟨before.taken pattern, perm_deletePattern hbefore, ?_, ?_,
    reply_deletePattern hbefore, ?_⟩
  · intro e he
    exact fits_iff.1 (List.mem_filter.1 he).2
  · intro e he
    rw [pairs_deletePattern hbefore] at he
    have hkept := (List.mem_filter.1 he).2
    rw [← fits_iff, Bool.not_eq_true]
    simpa using hkept
  · show (before.apply uptime (.deletePattern pattern)).online = true
    rw [apply, if_pos hbefore]

example : Named "a*é*" "aéè-é!" := by decide

end MemoryCache
end StockLedger
