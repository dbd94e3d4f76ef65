import Mathlib.Tactic.Common
import StockLedger.Proofs.Concurrent.World
import StockLedger.Proofs.Memory.Cache
import StockLedger.Proofs.ReadThrough.Keys
import StockLedger.Proofs.Wire.Item

/-!
# What a ledger has held

Versions only grow, and an identity whose item was removed is not used again. So a version tells
what its item was, and an old copy that still has the stored version is the stored item.

* `World.Held` : an item that the ledger holds or has held;
* `World.Faithful` : the cache has only copies of such items;
* `World.Sound` : what is more, versions grow along the history;
* `World.eq_of_version` : where versions grow, a version tells its item;
* `World.Spares` : a request that saves no item under an identity of the past;
* `World.Faithful.serves`, `World.Sound.serves` : what one request preserves.
-/

namespace StockLedger

/-! ## One ledger after another -/

/-- Each item of the older ledger is gone, unchanged, or there with a higher version. -/
def MemoryLedger.Outgrows (newer older : MemoryLedger) : Prop :=
  ∀ id s, older.items.find? id = some s →
    ∀ t, newer.items.find? id = some t → t = s ∨ s.version < t.version

/-- The version of every stored item survives in a signed number of 64 bits. -/
def MemoryLedger.Storable (l : MemoryLedger) : Prop :=
  ∀ id s, l.items.find? id = some s → s.Storable

instance (l : MemoryLedger) : Decidable l.Storable :=
  decidable_of_iff (∀ s ∈ l.items.values, s.Storable) <| by
    simp only [Table.mem_values_iff, forall_exists_index, MemoryLedger.Storable]
    exact forall_comm

theorem StockItem.Storable.toNat_advance {s u : StockItem} {now : Timestamp} (hs : s.Storable)
    (h : u.version = s.version) :
    (MemoryLedger.advance u now).version.toNat = s.version.toNat + 1 := by
  have hbit : signBit = 9223372036854775808 := rfl
  have hs : s.version.toNat < signBit := hs
  have hnext : (MemoryLedger.advance u now).version = s.version + 1 := by
    rw [← h]
    rfl
  rw [hnext, UInt64.toNat_add]
  simp only [UInt64.reduceToNat]
  omega

theorem StockItem.Storable.lt_advance {s u : StockItem} {now : Timestamp} (hs : s.Storable)
    (h : u.version = s.version) : s.version < (MemoryLedger.advance u now).version := by
  rw [UInt64.lt_iff_toNat_lt, hs.toNat_advance h]
  exact Nat.lt_succ_self _

namespace MemoryLedger

variable {l l' older : MemoryLedger} {now : Timestamp}

/-- Two ledgers have no two items of one identity and one version. -/
def Agrees (l m : MemoryLedger) : Prop :=
  ∀ id s t, l.items.find? id = some s → m.items.find? id = some t → t.version = s.version → t = s

theorem Outgrows.agrees (h : l'.Outgrows l) : l'.Agrees l := by
  intro id s t hs ht hversion
  rcases h id t ht s hs with heq | hlt
  · exact heq.symm
  · rw [hversion] at hlt
    exact absurd hlt (UInt64.lt_irrefl _)

theorem Outgrows.refl (l : MemoryLedger) : l.Outgrows l := by
  intro id s hs t ht
  rw [hs] at ht
  exact .inl (Option.some.inj ht).symm

theorem Outgrows.trans (h : l'.Outgrows l) (h' : l.Outgrows older)
    (hkept : ∀ id t s, l'.items.find? id = some t → older.items.find? id = some s →
      ∃ x, l.items.find? id = some x) : l'.Outgrows older := by
  intro id s hs t ht
  -- The ledger in between holds the item too, for what was removed does not come back.
  rcases hkept id t s ht hs with ⟨x, hx⟩
  rcases h' id s hs x hx with rfl | hlt
  · exact h id x hx t ht
  · rcases h id x hx t ht with rfl | hlt'
    · exact .inr hlt
    · exact .inr (UInt64.lt_trans hlt hlt')

/-- Whatever a request does, no version falls behind. -/
theorem Outcome.outgrows (hl : l.Storable) {c : LedgerCall} {r : c.Reply}
    (ho : Outcome l now c r l') : l'.Outgrows l := by
  intro id s hs t ht
  cases ho.row ht with
  | kept _ hold => exact Outgrows.refl l id s hs t hold
  | saved _ _ _ hnone =>
    rw [hnone] at hs
    cases hs
  | written u stored hold hversion =>
    rw [hold] at hs
    cases hs
    exact .inr ((hl id s hold).lt_advance hversion)

theorem Outcome.kept_or_saved {c : LedgerCall} {r : c.Reply} (ho : Outcome l now c r l')
    {id : ItemId} {t : StockItem} (ht : l'.items.find? id = some t) :
    (∃ x, l.items.find? id = some x) ∨
      ∃ s, c = .save s ∧ id = s.id ∧ l.items.find? id = none := by
  cases ho.row ht with
  | kept _ hold => exact .inl ⟨t, hold⟩
  | saved x hc hid hnone => exact .inr ⟨t, hc, hid, hnone⟩
  | written u stored hold => exact .inl ⟨stored, hold⟩

end MemoryLedger

namespace World

variable {w w' : World}

/-- The ledger holds the item, or has held it. -/
def Held (w : World) (s : StockItem) : Prop :=
  ∃ l ∈ w.history, l.items.find? s.id = some s

/-- Nothing of the history is lost. -/
def Extends (w' w : World) : Prop :=
  w.history <:+ w'.history

theorem Extends.refl (w : World) : w.Extends w :=
  List.suffix_refl _

theorem Extends.trans {w'' : World} (h : w''.Extends w') (h' : w'.Extends w) : w''.Extends w :=
  List.IsSuffix.trans h' h

theorem Held.mono {s : StockItem} (h : w'.Extends w) (hs : w.Held s) : w'.Held s := by
  rcases hs with ⟨l, hl, hs⟩
  exact ⟨l, h.subset hl, hs⟩

/-- What a cached text may be: a copy of an item that was held. -/
structure Copies (w : World) (key text : String) : Prop where
  item : ∀ id, key = CacheKey.item id → ∃ s, w.Held s ∧ s.id = id ∧ text = s.encode
  product : ∀ p, key = CacheKey.product p → ∃ s, w.Held s ∧ text = s.encode

theorem Copies.mono {key text : String} (h : w'.Extends w) (hc : w.Copies key text) :
    w'.Copies key text where
  item id hkey := by
    rcases hc.item id hkey with ⟨s, hs, hid, htext⟩
    exact ⟨s, hs.mono h, hid, htext⟩
  product p hkey := by
    rcases hc.product p hkey with ⟨s, hs, htext⟩
    exact ⟨s, hs.mono h, htext⟩

theorem copies_item {s : StockItem} (hs : w.Held s) : w.Copies (CacheKey.item s.id) s.encode where
  item _ hkey := ⟨s, hs, CacheKey.item_injective hkey, rfl⟩
  product _ hkey := absurd hkey (CacheKey.item_ne_product _ _)

theorem copies_product {s : StockItem} (p : ProductId) (hs : w.Held s) :
    w.Copies (CacheKey.product p) s.encode where
  item _ hkey := absurd hkey.symm (CacheKey.item_ne_product _ _)
  product _ _ := ⟨s, hs, rfl⟩

theorem copies_lowStock (t : Int) (n : UInt64) (text : String) :
    w.Copies (CacheKey.lowStock t n) text where
  item _ hkey := absurd hkey.symm (CacheKey.item_ne_lowStock _ _ _)
  product _ hkey := absurd hkey.symm (CacheKey.product_ne_lowStock _ _ _)

/-! ## The invariant -/

def CacheCopies (w : World) : Prop :=
  ∀ key e, w.cache.entries.find? key = some e → w.Copies key e.value

/-- Items are stored under their identities, and the cache has only copies. -/
structure Faithful (w : World) : Prop where
  keyed : ∀ l ∈ w.history, l.Keyed
  cache : w.CacheCopies

/-- What is more, versions grow along the history. -/
structure Sound (w : World) : Prop extends Faithful w where
  grows : w.history.Pairwise MemoryLedger.Outgrows
  storable : w.ledger.Storable

/-- Stores that are as they were found, with nothing in the cache. -/
theorem sound_opened {l : MemoryLedger} {m : MemoryReservations} (hkeyed : l.Keyed)
    (hstorable : l.Storable) : World.Sound { ledger := l, reservations := m } where
  keyed l hl := by
    rcases List.mem_singleton.1 hl with rfl
    exact hkeyed
  cache _ _ h := nomatch h
  grows := List.pairwise_singleton _ _
  storable := hstorable

theorem sound_empty : ({} : World).Sound :=
  sound_opened MemoryLedger.keyed_empty fun _ _ h => nomatch h

/-- An identity and a version tell the item. -/
theorem eq_of_version (hgrows : w.history.Pairwise MemoryLedger.Outgrows) {s t : StockItem}
    (hs : w.Held s) (ht : w.Held t) (hid : t.id = s.id) (hversion : t.version = s.version) :
    t = s := by
  rcases hs with ⟨l, hl, hs⟩
  rcases ht with ⟨m, hm, ht⟩
  rw [hid] at ht
  -- Of two ledgers one came after the other, and neither has another item of this version.
  have hself : ∀ l ∈ w.history, l.Agrees l := by
    intro l _ id s t hs ht _
    rw [hs] at ht
    exact (Option.some.inj ht).symm
  have hlater : w.history.Pairwise MemoryLedger.Agrees :=
    hgrows.imp MemoryLedger.Outgrows.agrees
  have hearlier : w.history.Pairwise (flip MemoryLedger.Agrees) := by
    refine hlater.imp fun hagrees id s t hs ht hversion => ?_
    exact (hagrees id t s ht hs hversion.symm).symm
  exact List.Pairwise.forall_of_forall_of_flip hself hlater hearlier hl hm s.id s t hs ht hversion

theorem held_of_find? {s : StockItem} {id : ItemId} (h : w.Faithful)
    (hs : w.ledger.items.find? id = some s) : w.Held s ∧ s.id = id := by
  rcases h.keyed w.ledger (List.mem_cons_self ..) id s hs with rfl
  exact ⟨⟨w.ledger, List.mem_cons_self .., hs⟩, rfl⟩

/-- A copy that has the version of the stored item is the stored item. -/
theorem eq_stored (h : w.Faithful) (hgrows : w.history.Pairwise MemoryLedger.Outgrows)
    {x stored : StockItem} (hstored : w.ledger.items.find? x.id = some stored) (hx : w.Held x)
    (hversion : stored.version = x.version) : stored = x := by
  rcases held_of_find? h hstored with ⟨hheld, hid⟩
  exact eq_of_version hgrows hx hheld hid hversion

/-! ## One request -/

/-- The request does not save an item under an identity that is of the past. -/
def Spares (w : World) : (c : Call) → Option c.Reply → Prop
  | .ledger (.save s), some (.ok _) => ∀ l ∈ w.past, l.items.find? s.id = none
  | _, _ => True

instance decidableSpares (w : World) :
    (c : Call) → (served : Option c.Reply) → Decidable (w.Spares c served)
  | .ledger (.save s), some (.ok _) =>
      inferInstanceAs (Decidable (∀ l ∈ w.past, l.items.find? s.id = none))
  | .ledger (.save _), some (.error _) | .ledger (.save _), none => .isTrue trivial
  | .ledger (.load _), _ | .ledger (.findByProduct _), _ | .ledger (.findMany _), _
  | .ledger (.findLowStock _ _), _ | .ledger .count, _ | .ledger (.hasProduct _), _
  | .ledger (.update _), _ | .ledger (.delete _), _ | .ledger (.bumpVersion _), _
  | .reservations _, _ | .cache _, _ | .publish _, _ | .now, _ | .uptime, _ | .freshUuid, _
  | .findExpiredWithin _ _ _, _ | .enterSweep, _ | .leaveSweep, _ | .recordSweep _, _
  | .recordSkip, _ | .log _, _ => .isTrue trivial

/-- The request writes nothing but copies to the cache. -/
def MayCache (w : World) : CacheCall → Prop
  | .set key text _ => w.Copies key text
  | _ => True

/-- The ledger after a request: as before, or a new ledger before the old one. -/
theorem afterLedger_cases (w : World) (now : Timestamp) (c : LedgerCall) :
    w.afterLedger now c = w ∧ c.changes (w.ledger.reply now c) = false ∨
      w.afterLedger now c = { w with ledger := w.ledger.apply now c, past := w.history } ∧
        c.changes (w.ledger.reply now c) = true := by
  have ho := w.ledger.outcome now c
  unfold afterLedger
  cases hchanges : c.changes (w.ledger.reply now c) with
  | true => exact .inr ⟨rfl, rfl⟩
  | false =>
    refine .inl ⟨?_, rfl⟩
    have hsame : w.ledger.apply now c = w.ledger := by
      generalize hr : w.ledger.reply now c = r at ho hchanges
      generalize w.ledger.apply now c = after at ho ⊢
      cases ho with
      | unchanged => rfl
      | saved | updated | deleted | bumped => cases hchanges
    rw [hsame]
    rfl

theorem mem_history_afterLedger {now : Timestamp} {c : LedgerCall} {l : MemoryLedger}
    (h : l ∈ (w.afterLedger now c).history) : l = w.ledger.apply now c ∨ l ∈ w.history := by
  rcases w.afterLedger_cases now c with ⟨hsame, -⟩ | ⟨hnew, -⟩
  · rw [hsame] at h
    exact .inr h
  · rw [hnew] at h
    exact List.mem_cons.1 h

theorem extends_afterLedger (w : World) (now : Timestamp) (c : LedgerCall) :
    (w.afterLedger now c).Extends w := by
  rcases w.afterLedger_cases now c with ⟨hsame, -⟩ | ⟨hnew, -⟩
  · rw [hsame]
    exact .refl w
  · rw [hnew]
    exact List.suffix_cons _ _

/-- Nothing that happens makes the ledger forget what it has held. -/
theorem Serves.extends {c : Call} {served : Option c.Reply} (h : w.Serves c served w') :
    w'.Extends w := by
  cases h with
  | ledger now c => exact w.extends_afterLedger now c
  | skipped | reservations | cache | now | uptime | freshUuid | publish | log => exact .refl w

theorem CacheCopies.apply {uptime : Nat} {c : CacheCall} (h : w.CacheCopies)
    (hc : w.MayCache c) : CacheCopies { w with cache := w.cache.apply uptime c } := by
  intro key e he
  have hcopies : w.Copies key e.value := by
    rcases MemoryCache.find?_apply he with hold | ⟨ttl, rfl⟩
    · exact h key e hold
    · exact hc
  exact ⟨hcopies.item, hcopies.product⟩

theorem CacheCopies.extend (h : w.CacheCopies) (hextends : w'.Extends w)
    (hcache : w'.cache = w.cache) : w'.CacheCopies := by
  intro key e he
  rw [hcache] at he
  exact (h key e he).mono hextends

theorem Faithful.serves {c : Call} {served : Option c.Reply} (h : w.Faithful)
    (hserves : w.Serves c served w') (hcache : ∀ r, c = .cache r → w.MayCache r) :
    w'.Faithful := by
  have hextends := hserves.extends
  cases hserves with
  | ledger now c =>
    refine ⟨fun l hl => ?_, h.cache.extend hextends rfl⟩
    rcases mem_history_afterLedger hl with rfl | hold
    · exact (h.keyed _ (List.mem_cons_self ..)).outcome (w.ledger.outcome now c)
    · exact h.keyed l hold
  | cache uptime c => exact ⟨h.keyed, h.cache.apply (hcache c rfl)⟩
  | reservations c => exact ⟨h.keyed, h.cache.extend hextends rfl⟩
  | skipped | now | uptime | freshUuid | publish | log => exact h

theorem grows_afterLedger {now : Timestamp} {c : LedgerCall}
    (hgrows : w.history.Pairwise MemoryLedger.Outgrows) (hstorable : w.ledger.Storable)
    (hspares : w.Spares (.ledger c) (some (w.ledger.reply now c))) :
    (w.afterLedger now c).history.Pairwise MemoryLedger.Outgrows := by
  rcases w.afterLedger_cases now c with ⟨hsame, -⟩ | ⟨hnew, hchanges⟩
  · rw [hsame]
    exact hgrows
  · have ho := w.ledger.outcome now c
    rw [hnew]
    refine List.pairwise_cons.2 ⟨fun older holder => ?_, hgrows⟩
    -- Both the new ledger and the older ones are compared with the one in between.
    have hnewer := ho.outgrows hstorable
    rcases List.mem_cons.1 holder with rfl | hpast
    · exact hnewer
    refine hnewer.trans ((List.pairwise_cons.1 hgrows).1 older hpast) ?_
    intro id t s ht hs
    rcases ho.kept_or_saved ht with hkept | ⟨x, rfl, rfl, -⟩
    · exact hkept
    · -- No older ledger holds what is saved under a fresh identity.
      have hfresh : older.items.find? x.id = none := by
        cases hr : w.ledger.reply now (.save x) with
        | ok u =>
          rw [hr] at hspares
          exact hspares older hpast
        | error f =>
          rw [hr] at hchanges
          cases hchanges
      rw [hfresh] at hs
      cases hs

/-- The conditions under which a request keeps the history and the cache in order. -/
structure Minds (w : World) (c : Call) (served : Option c.Reply) (w' : World) : Prop where
  spares : w.Spares c served
  cache : ∀ r, c = .cache r → w.MayCache r
  storable : w'.ledger.Storable

theorem Sound.serves {c : Call} {served : Option c.Reply} (h : w.Sound)
    (hserves : w.Serves c served w') (hminds : w.Minds c served w') : w'.Sound := by
  refine ⟨h.toFaithful.serves hserves hminds.cache, ?_, hminds.storable⟩
  cases hserves with
  | ledger now c => exact grows_afterLedger h.grows h.storable hminds.spares
  | skipped | reservations | cache | now | uptime | freshUuid | publish | log => exact h.grows

end World

theorem System.Step.extends {J : Job} {R : Rules J} {σ σ' : System J} (h : System.Step R σ σ') :
    σ'.world.Extends σ.world := by
  cases h with
  | start | abandon => exact .refl _
  | answer _ _ _ _ _ _ _ _ _ _ hserves => exact hserves.extends

end StockLedger
