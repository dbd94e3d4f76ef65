import Mathlib.Tactic.Common
import StockLedger.Memory.Cache
import StockLedger.Proofs.Table.Changes

/-!
# What requests do to a cache in memory

* `MemoryCache.find?_apply` : after a request the cache holds what it held before, or what it was
  asked to hold;
* `MemoryCache.find?_of_reply_get` : what is looked up was there;
* `MemoryCache.find?_apply_delete`, `find?_apply_deletePattern` : what is dropped is gone.
-/

namespace StockLedger
namespace MemoryCache

variable {c : MemoryCache} {uptime : Nat}

theorem online_apply (c : MemoryCache) (uptime : Nat) (r : CacheCall) :
    (c.apply uptime r).online = c.online := by
  unfold apply
  split <;> rfl

theorem find?_change {r : CacheCall} {key : String} {e : CacheEntry}
    (h : (c.change uptime r).find? key = some e) :
    c.entries.find? key = some e ∨ ∃ ttl, r = .set key e.value ttl := by
  cases r with
  | get k =>
    simp only [change] at h
    split at h
    · exact .inl h
    · exact .inl (Table.below_erase _ _ key e h)
  | set k text ttl =>
    simp only [change, Table.find?_insert] at h
    split at h
    · next hk =>
      cases h
      exact .inr ⟨ttl, by rw [hk]⟩
    · exact .inl h
  | delete keys => exact .inl (Table.below_eraseIf _ _ key e h)
  | deletePattern pattern => exact .inl (Table.below_eraseIf _ _ key e h)

/-- A cache says nothing new unless it was asked to. -/
theorem find?_apply {r : CacheCall} {key : String} {e : CacheEntry}
    (h : (c.apply uptime r).entries.find? key = some e) :
    c.entries.find? key = some e ∨ ∃ ttl, r = .set key e.value ttl := by
  unfold apply at h
  split at h
  · exact find?_change h
  · exact .inl h

/-- A text that is found is there. -/
theorem find?_of_reply_get {key text : String}
    (h : c.reply uptime (.get key) = .ok (some text)) :
    ∃ e, c.entries.find? key = some e ∧ e.value = text := by
  unfold reply at h
  split at h
  · simp only [value, Except.ok.injEq, peek?, Option.map_eq_some_iff,
      Option.filter_eq_some_iff] at h
    rcases h with ⟨e, ⟨he, -⟩, htext⟩
    exact ⟨e, he, htext⟩
  · cases h

/-- What is dropped is not there any more. -/
theorem find?_apply_delete {keys : List String} {key : String} (hc : c.online = true)
    (hkey : key ∈ keys) : (c.apply uptime (.delete keys)).entries.find? key = none := by
  have hentries : (c.apply uptime (.delete keys)).entries =
      c.entries.eraseIf fun key _ => keys.contains key := by
    rw [apply, if_pos hc]
    rfl
  rw [hentries, Table.find?_eraseIf, Option.filter_eq_none_iff]
  simp [hkey]

theorem find?_apply_deletePattern {pattern key : String} (hc : c.online = true)
    (hkey : fits pattern key = true) :
    (c.apply uptime (.deletePattern pattern)).entries.find? key = none := by
  have hentries : (c.apply uptime (.deletePattern pattern)).entries =
      c.entries.eraseIf fun key _ => fits pattern key := by
    rw [apply, if_pos hc]
    rfl
  rw [hentries, Table.find?_eraseIf, Option.filter_eq_none_iff]
  simp [hkey]

end MemoryCache
end StockLedger
