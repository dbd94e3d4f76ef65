import Mathlib.Tactic.Common
import StockLedger.Proofs.Memory.Cache
import StockLedger.Proofs.Memory.Ledger
import StockLedger.Proofs.Program.Within
import StockLedger.Proofs.ReadThrough.Keys
import StockLedger.Proofs.Rehearsal.Refusals
import StockLedger.Proofs.Wire.Item

/-!
# Reading again after a write

A write through the cache drops the copies of its item if its answer shows that they may be
outdated: if it succeeded, or was refused as a conflict. After any other refusal they stay, also if
the item is gone by then or was written all the same.

* `MemoryCache.item?` : the item that a living text tells;
* `Rereading.Apart` : a stage after a program that only used the cache;
* `Rereading.safe_load`, `safe_findByProduct` : a living copy is trusted, and else the ledger is;
* `Rereading.safe_writeConditional` : which copies are dropped after a write;
* `reread_iff` : when a read after a write answers as the ledger would.
-/

namespace StockLedger

open ReadThrough

/-- The item that is told by the living text under a key. -/
def MemoryCache.item? (c : MemoryCache) (uptime : Nat) (key : String) : Option StockItem :=
  (c.peek? uptime key).bind StockItem.decode?

theorem MemoryCache.item?_of_find?_none {c : MemoryCache} {uptime : Nat} {key : String}
    (h : c.entries.find? key = none) : c.item? uptime key = none := by
  rw [item?, peek?, h]
  rfl

namespace Rereading

/-- Nothing interferes, but writes of items may be refused, before or after they are made. -/
abbrev Calm (s : Stage) : Prop :=
  s.RefusingOnly "ledger.update"

/-- Since then only the cache was used, or what was done was reported. -/
structure Apart (s s' : Stage) : Prop where
  cues : ∀ e ∈ s'.cues, e ∈ s.cues
  scenery : s'.scenery = { s.scenery with cache := s'.cache, log := s'.log }
  online : s'.cache.online = s.cache.online

namespace Apart

variable {s t u : Stage}

theorem refl (s : Stage) : Apart s s :=
  ⟨fun _ he => he, rfl, rfl⟩

theorem trans (h : Apart s t) (h' : Apart t u) : Apart s u where
  cues e he := h.cues e (h'.cues e he)
  scenery := by rw [h'.scenery, h.scenery]
  online := h'.online.trans h.online

theorem of_scenery (hcues : ∀ e ∈ t.cues, e ∈ s.cues) (h : t.scenery = s.scenery) : Apart s t := by
  have hcache : t.cache = s.cache := congrArg Scenery.cache h
  have hlog : t.log = s.log := congrArg Scenery.log h
  refine ⟨hcues, ?_, congrArg MemoryCache.online hcache⟩
  rw [h, hcache, hlog]
  rfl

theorem calm (h : Apart s t) (hs : Calm s) : Calm t :=
  fun e he => hs e (h.cues e he)

theorem ledger (h : Apart s t) : t.ledger = s.ledger :=
  congrArg Scenery.ledger h.scenery

theorem uptime (h : Apart s t) : t.uptime = s.uptime :=
  congrArg Scenery.uptime h.scenery

end Apart

variable {s t : Stage} {mayBreak : Prop} {lifetimes : CacheLifetimes} {key : String}

/-! ## The cache -/

/-- A call about the cache, and nothing else, leaves all but the cache and the log as it is. -/
theorem serve_ofCache (hs : Calm s) {c : Call} (hc : c.ofCache = true) :
    (s.serve c).1 = (s.perform c).1 ∧ (s.serve c).2.cache = (s.perform c).2.cache ∧
      Apart s (s.serve c).2 := by
  have hmethod : c.method? ≠ some "ledger.update" := by
    cases c with
    | cache c => cases c <;> simp [Call.method?, CacheCall.method]
    | log e => exact nofun
    | _ => cases hc
  rcases hs.refusing.serve_quiet (hs.cueOf hmethod) with ⟨hreply, hscenery⟩
  have hcache : (s.serve c).2.cache = _ := congrArg Scenery.cache hscenery
  have hlog : (s.serve c).2.log = _ := congrArg Scenery.log hscenery
  refine ⟨hreply, hcache, fun e he => hs.refusing.mem_cues he, ?_, ?_⟩
  · rw [hscenery, hcache, hlog]
    cases c with
    | cache c => rfl
    | log e => rfl
    | _ => cases hc
  · rw [hcache]
    cases c with
    | cache c => exact MemoryCache.online_apply ..
    | log e => rfl
    | _ => cases hc

/-- A program that only uses the cache comes to its end. -/
theorem safe_ofCache {α : Type} {p : Program α} (hp : p.OfCache) (hs : Calm s) :
    p.Safe (Stage.setting mayBreak) (fun _ s' => Apart s s') s := by
  induction p generalizing s with
  | done a => exact .refl s
  | abort => exact hp.elim
  | call c next ih =>
    rcases hp.head with ⟨hc, hnext⟩
    have hstep := (serve_ofCache hs hc).2.2
    rintro _ rfl
    refine ⟨rfl, ?_⟩
    rintro _ _ ⟨⟩
    exact (ih _ (hnext _) (hstep.calm hs)).mono fun _ _ h => hstep.trans h

theorem safe_cache (hs : Calm s) (c : CacheCall) :
    (cache c).Safe (Stage.setting mayBreak) (fun r s' => Apart s s' ∧
      r = s.cache.reply s.uptime c ∧ s'.cache = s.cache.apply s.uptime c) s := by
  rcases serve_ofCache hs (c := .cache c) rfl with ⟨hreply, hcache, hapart⟩
  exact Stage.safe_ask ⟨hapart, hreply, hcache⟩

/-! ## Reads -/

/-- A text that is no item is dropped and taken for none. -/
theorem safe_cachedItem (hs : Calm s) (honline : s.cache.online = true) :
    (cachedItem key).Safe (Stage.setting mayBreak)
      (fun a s' => Apart s s' ∧ a = s.cache.item? s.uptime key) s := by
  refine (safe_cache hs (.get key)).bind fun r s₁ hr => ?_
  rcases hr with ⟨hs₁, hr, -⟩
  have hreply : s.cache.reply s.uptime (.get key) = .ok (s.cache.peek? s.uptime key) :=
    if_pos honline
  rw [hreply] at hr
  rw [hr, MemoryCache.item?]
  cases s.cache.peek? s.uptime key with
  | none => exact ⟨hs₁, rfl⟩
  | some text =>
    cases hdecode : StockItem.decode? text with
    | some x =>
      simp only [hdecode]
      exact ⟨hs₁, hdecode.symm⟩
    | none =>
      -- The text is reported and dropped; what is answered was decided before that.
      simp only [hdecode]
      refine (safe_ofCache within_log (hs₁.calm hs)).bind fun _ s₂ hs₂ => ?_
      have hcalm := hs₂.calm (hs₁.calm hs)
      refine (safe_ofCache (within_forget [key]) hcalm).bind fun _ s₃ hs₃ => ?_
      exact ⟨(hs₁.trans hs₂).trans hs₃, hdecode.symm⟩

/-- A living copy is trusted, and without one the ledger is asked. -/
theorem safe_readItem {fetch : Program (Answer StockItem)} {a : Answer StockItem} (hs : Calm s)
    (honline : s.cache.online = true)
    (hfetch : ∀ t, Apart s t → fetch.Safe (Stage.setting mayBreak)
      (fun r t' => Apart s t' ∧ r = a) t) :
    (readItem lifetimes key fetch).Safe (Stage.setting mayBreak)
      (fun r s' => Apart s s' ∧ r = (s.cache.item? s.uptime key).elim a .ok) s := by
  refine (safe_cachedItem hs honline).bind fun b s₁ hb => ?_
  rcases hb with ⟨hs₁, rfl⟩
  cases s.cache.item? s.uptime key with
  | some x => exact ⟨hs₁, rfl⟩
  | none =>
    refine (hfetch s₁ hs₁).bind fun r s₂ hr => ?_
    rcases hr with ⟨hs₂, rfl⟩
    match r with
    | .ok x =>
      refine (safe_ofCache (within_populate x) (hs₂.calm hs)).bind fun _ s₃ hs₃ => ?_
      exact ⟨hs₂.trans hs₃, rfl⟩
    | .error f => exact ⟨hs₂, rfl⟩

/-- A request that leaves the ledger as it is. -/
theorem safe_direct (hs : Calm s) {c : LedgerCall} (hc : c.method ≠ "ledger.update")
    (hsame : s.ledger.apply s.clock.now c = s.ledger) (ht : Apart s t) :
    (LedgerAccess.direct c).Safe (Stage.setting mayBreak)
      (fun r t' => Apart s t' ∧ r = s.ledger.reply s.clock.now c) t := by
  have hcalm := ht.calm hs
  have hcue := hcalm.cueOf (c := .ledger c) fun h => hc (Option.some.inj h)
  rcases hcalm.refusing.serve_quiet hcue with ⟨hreply, hscenery⟩
  have hnow : t.clock.now = s.clock.now := congrArg Scenery.now ht.scenery
  have hafter : (t.perform (.ledger c)).2.scenery = t.scenery := by
    have hkept : t.ledger.apply t.clock.now c = t.ledger := by rw [ht.ledger, hnow, hsame]
    change { t.scenery with ledger := t.ledger.apply t.clock.now c } = _
    rw [hkept]
    rfl
  have hstep : Apart t (t.serve (.ledger c)).2 :=
    .of_scenery (fun e he => hcalm.refusing.mem_cues he) (hscenery.trans hafter)
  refine Stage.safe_ask ⟨ht.trans hstep, ?_⟩
  rw [hreply, ← ht.ledger, ← hnow]
  rfl

variable (mayBreak lifetimes) in
theorem safe_load (hs : Calm s) (honline : s.cache.online = true) (id : ItemId) :
    (LedgerAccess.cached lifetimes (.load id)).Safe (Stage.setting mayBreak)
      (fun r s' => Apart s s' ∧
        r = (s.cache.item? s.uptime (CacheKey.item id)).elim (s.ledger.load id) .ok) s :=
  safe_readItem hs honline fun _ ht =>
    safe_direct hs (c := .load id) (by simp [LedgerCall.method]) rfl ht

variable (mayBreak lifetimes) in
theorem safe_findByProduct (hs : Calm s) (honline : s.cache.online = true) (p : ProductId) :
    (LedgerAccess.cached lifetimes (.findByProduct p)).Safe (Stage.setting mayBreak)
      (fun r s' => Apart s s' ∧
        r = (s.cache.item? s.uptime (CacheKey.product p)).elim (s.ledger.findByProduct p) .ok) s :=
  safe_readItem hs honline fun _ ht =>
    safe_direct hs (c := .findByProduct p) (by simp [LedgerCall.method]) rfl ht

/-! ## Writes -/

/-- The cache is on, and has nothing under the keys of an item. -/
structure Forgets (id : ItemId) (p : ProductId) (c : MemoryCache) : Prop where
  online : c.online = true
  item : c.entries.find? (CacheKey.item id) = none
  product : c.entries.find? (CacheKey.product p) = none

theorem Forgets.deletePattern {id : ItemId} {p : ProductId} {c : MemoryCache} {uptime : Nat}
    {pattern : String} (h : Forgets id p c) :
    Forgets id p (c.apply uptime (.deletePattern pattern)) := by
  have hnone {key : String} (hkey : c.entries.find? key = none) :
      (c.apply uptime (.deletePattern pattern)).entries.find? key = none := by
    cases hfind : (c.apply uptime (.deletePattern pattern)).entries.find? key with
    | none => rfl
    | some e =>
      rcases MemoryCache.find?_apply hfind with hold | ⟨ttl, hset⟩
      · cases hkey.symm.trans hold
      · cases hset
  exact ⟨(MemoryCache.online_apply ..).trans h.online, hnone h.item, hnone h.product⟩

theorem forgets_delete {c : MemoryCache} {uptime : Nat} (honline : c.online = true) (id : ItemId)
    (p : ProductId) :
    Forgets id p (c.apply uptime (.delete [CacheKey.item id, CacheKey.product p])) where
  online := (MemoryCache.online_apply ..).trans honline
  item := MemoryCache.find?_apply_delete honline (List.mem_cons_self ..)
  product := MemoryCache.find?_apply_delete honline (List.mem_cons_of_mem _ (List.mem_cons_self ..))

theorem safe_log (hs : Calm s) {level : LogLevel} {message : String} :
    (Program.log level message).Safe (Stage.setting mayBreak)
      (fun _ s' => Apart s s' ∧ s'.cache = s.cache) s := by
  rcases serve_ofCache hs (c := .log ⟨level, message⟩) rfl with ⟨-, hcache, hapart⟩
  exact Stage.safe_ask ⟨hapart, hcache⟩

theorem safe_log_forgets {id : ItemId} {p : ProductId} (hs : Calm s) (ht : Apart s t)
    (h : Forgets id p t.cache) {level : LogLevel} {message : String} :
    (Program.log level message).Safe (Stage.setting mayBreak)
      (fun _ s' => Apart s s' ∧ Forgets id p s'.cache) t :=
  (safe_log (ht.calm hs)).mono fun _ _ hlogged => ⟨ht.trans hlogged.1, hlogged.2 ▸ h⟩

/-- Nothing about the item is in the cache any more. -/
theorem safe_invalidate (hs : Calm s) (honline : s.cache.online = true) (id : ItemId)
    (p : ProductId) : (invalidate id p).Safe (Stage.setting mayBreak)
      (fun _ s' => Apart s s' ∧ Forgets id p s'.cache) s := by
  have hforget : (forget [CacheKey.item id, CacheKey.product p]).Safe (Stage.setting mayBreak)
      (fun _ s' => Apart s s' ∧ Forgets id p s'.cache) s := by
    refine (safe_cache hs _).bind fun r s₁ hr => ?_
    rcases hr with ⟨hs₁, -, hcache⟩
    have hforgets := hcache ▸ forgets_delete honline id p
    match r with
    | .ok () => exact ⟨hs₁, hforgets⟩
    | .error _ => exact safe_log_forgets hs hs₁ hforgets
  refine hforget.bind fun _ s₁ hs₁ => ?_
  refine (safe_cache (hs₁.1.calm hs) _).bind fun r s₂ hr => ?_
  rcases hr with ⟨hs₂, -, hcache⟩
  have hapart := hs₁.1.trans hs₂
  have hforgets : Forgets id p s₂.cache := hcache ▸ hs₁.2.deletePattern
  match r with
  | .ok _ => exact safe_log_forgets hs hapart hforgets
  | .error _ => exact safe_log_forgets hs hapart hforgets

/-- What a write leaves in the cache. -/
structure Dropped (w : Written) (c c' : MemoryCache) : Prop where
  online : c'.online = true
  dropped : outdates w.outcome = true → Forgets w.item.id w.item.productId c'
  kept : outdates w.outcome = false → c' = c

/-- After a write only the cache is used, and only if the answer shows that it may be outdated. -/
theorem safe_writeConditional {store : Program Written} {P : Written → Stage → Prop}
    (hstore : store.Safe (Stage.setting mayBreak)
      (fun w t => P w t ∧ Calm t ∧ t.cache.online = true) s) :
    (writeConditional store).Safe (Stage.setting mayBreak)
      (fun w s' => ∃ t, P w t ∧ Apart t s' ∧ Dropped w t.cache s'.cache) s := by
  refine hstore.bind fun w t ht => ?_
  rcases ht with ⟨hP, hcalm, honline⟩
  split
  · next houtdates =>
    refine (safe_invalidate hcalm honline _ _).bind fun _ s' hs' => ?_
    exact ⟨t, hP, hs'.1, hs'.2.online, fun _ => hs'.2, fun h => nomatch houtdates.symm.trans h⟩
  · next hkeeps =>
    exact ⟨t, hP, .refl t, honline, fun h => absurd h hkeeps, fun _ => rfl⟩

/-- A write of an item tells of this item, and is not about the cache. -/
theorem serve_update (hs : Calm s) (x : StockItem) :
    let w : Written := (s.serve (.ledger (.update x))).1
    let t := (s.serve (.ledger (.update x))).2
    (w.item.id = x.id ∧ w.item.productId = x.productId) ∧
      t.cache = s.cache ∧ t.uptime = s.uptime ∧ Calm t := by
  intro w t
  refine ⟨?_, ?_⟩
  · have hreply : (s.ledger.reply s.clock.now (.update x)).item.id = x.id ∧
        (s.ledger.reply s.clock.now (.update x)).item.productId = x.productId := by
      rcases s.ledger.update_cases s.clock.now x with ⟨f, -, hreply, -⟩ | ⟨-, hreply⟩ <;>
        exact hreply ▸ ⟨rfl, rfl⟩
    cases hfail : (s.cueOf (.ledger (.update x))).fail with
    | some f =>
      have hw : w = ⟨.error f, x⟩ := (hs.refusing.serve_refused hfail rfl).1
      exact hw ▸ ⟨rfl, rfl⟩
    | none =>
      have hw : w = _ := (hs.refusing.serve_made hfail).1
      rw [hw]
      cases (s.cueOf (.ledger (.update x))).failAfter with
      | none => exact hreply
      | some f =>
        -- Only a success is reported as refused, and the item comes back in either case.
        rw [Option.elim_some, Stage.refuseAfter]
        split
        · exact hreply
        · exact hreply
  · have hscenery : t.scenery.cache = s.scenery.cache ∧ t.scenery.uptime = s.scenery.uptime := by
      cases hfail : (s.cueOf (.ledger (.update x))).fail with
      | some f => exact (hs.refusing.serve_refused hfail rfl).2 ▸ ⟨rfl, rfl⟩
      | none => exact (hs.refusing.serve_made hfail).2 ▸ ⟨rfl, rfl⟩
    exact ⟨hscenery.1, hscenery.2, hs.serve _⟩

/-- The copies that are left after a write. -/
theorem item?_of_dropped {w : Written} {c c' : MemoryCache} {uptime : Nat} (h : Dropped w c c')
    (hkey : key = CacheKey.item w.item.id ∨ key = CacheKey.product w.item.productId) :
    c'.item? uptime key = if outdates w.outcome then none else c.item? uptime key := by
  cases houtdates : outdates w.outcome with
  | true =>
    have hforgets := h.dropped houtdates
    rw [if_pos rfl]
    rcases hkey with rfl | rfl
    · exact MemoryCache.item?_of_find?_none hforgets.item
    · exact MemoryCache.item?_of_find?_none hforgets.product
  | false => rw [h.kept houtdates, if_neg Bool.false_ne_true]

/-- The ledger's answer is given again if no copy is left that says something else. -/
theorem elim_eq_iff {b : Bool} {x? : Option StockItem} {a : Answer StockItem} :
    (if b then none else x?).elim a .ok = a ↔ b = true ∨ ∀ y, x? = some y → a = .ok y := by
  cases b with
  | true => simp
  | false =>
    cases x? with
    | none => simp
    | some y => simp [eq_comm]

/-- How a write through the cache goes, and what a read after it comes to. -/
structure Leaves (lifetimes : CacheLifetimes) (s : Stage) (x : StockItem) (w : Written)
    (t s' : Stage) : Prop where
  direct : s.run none (LedgerAccess.direct (.update x)) = (.ended w, t)
  cached : s.run none (LedgerAccess.cached lifetimes (.update x)) = (.ended w, s')
  ledger : s'.ledger = t.ledger
  load : ∃ u, s'.run none (LedgerAccess.cached lifetimes (.load x.id)) =
    (.ended ((if outdates w.outcome then none
      else s.cache.item? s.uptime (CacheKey.item x.id)).elim (t.ledger.load x.id) .ok), u)
  find : ∃ u, s'.run none (LedgerAccess.cached lifetimes (.findByProduct x.productId)) =
    (.ended ((if outdates w.outcome then none
      else s.cache.item? s.uptime (CacheKey.product x.productId)).elim
        (t.ledger.findByProduct x.productId) .ok), u)

/-- A program that is known to answer something comes to an end with it. -/
theorem ended_of_safe {α : Type} {p : Program α} {a : α} (hs : Calm s)
    (h : p.Safe (Stage.setting False) (fun r s' => Apart s s' ∧ r = a) s) :
    ∃ u, s.run none p = (.ended a, u) := by
  rcases Stage.run_of_safe hs.refusing h with ⟨_, u, hrun, -, rfl⟩ | ⟨hbroken, -⟩
  · exact ⟨u, hrun⟩
  · exact hbroken.elim

theorem exists_leaves (lifetimes : CacheLifetimes) (hs : Calm s) (honline : s.cache.online = true)
    (x : StockItem) : ∃ w t s', Leaves lifetimes s x w t s' := by
  rcases serve_update hs x with ⟨hnames, hcache, huptime, hcalm⟩
  have hdirect : s.run none (LedgerAccess.direct (.update x)) =
      (.ended (s.serve (.ledger (.update x))).1, (s.serve (.ledger (.update x))).2) :=
    hs.refusing.run_call _
  have hstore : (LedgerAccess.direct (.update x)).Safe (Stage.setting False)
      (fun w t => (w = (s.serve (.ledger (.update x))).1 ∧
        t = (s.serve (.ledger (.update x))).2) ∧ Calm t ∧ t.cache.online = true) s :=
    Stage.safe_ask ⟨⟨rfl, rfl⟩, hcalm, hcache ▸ honline⟩
  have hsafe := safe_writeConditional hstore
  -- From now on it only matters what the write answered and what was there after it.
  generalize (s.serve (.ledger (.update x))).1 = w at hnames hdirect hsafe
  generalize (s.serve (.ledger (.update x))).2 = t at hcache huptime hcalm hdirect hsafe
  rcases Stage.run_of_safe hs.refusing hsafe with
    ⟨w, s', hcached, t, ⟨rfl, rfl⟩, hapart, hdropped⟩ | ⟨hbroken, -⟩
  · refine ⟨w, t, s', hdirect, hcached, hapart.ledger, ?_, ?_⟩
    · have hread := safe_load False lifetimes (hapart.calm hcalm) hdropped.online x.id
      rw [item?_of_dropped hdropped (.inl (congrArg _ hnames.1.symm)), hapart.uptime, hapart.ledger,
        hcache, huptime] at hread
      exact ended_of_safe (hapart.calm hcalm) hread
    · have hread := safe_findByProduct False lifetimes (hapart.calm hcalm) hdropped.online
        x.productId
      rw [item?_of_dropped hdropped (.inr (congrArg _ hnames.2.symm)), hapart.uptime, hapart.ledger,
        hcache, huptime] at hread
      exact ended_of_safe (hapart.calm hcalm) hread
  · exact hbroken.elim

end Rereading

namespace Rereading

/-- The cache has a copy of this item under a key. -/
def copied (key : String) (x : StockItem) : MemoryCache where
  entries := Table.insert ∅ key ⟨x.encode, 1⟩

theorem item?_copied (key : String) {x : StockItem} (hx : x.Storable) :
    (copied key x).item? 0 key = some x := by
  have hentry : (copied key x).entries.find? key = some ⟨x.encode, 1⟩ :=
    (Table.find?_insert ..).trans (if_pos rfl)
  have hpeek : (copied key x).peek? 0 key = some x.encode := by
    rw [MemoryCache.peek?, hentry]
    rfl
  rw [MemoryCache.item?, hpeek, Option.bind_some, StockItem.decode?_encode, if_pos hx]

/-- There is a copy of an item that the ledger does not have. -/
def ghost : Stage where
  cache := copied (CacheKey.item (StockItem.ten 1).id) (.ten 1)
  clock := { now := .epoch }
  ids := { millis := 0 }

/-- There is a copy of an item whose next write will be made and then reported as refused. -/
def garbled : Stage where
  ledger := MemoryLedger.empty.apply .epoch (.save (.ten 1))
  cache := copied (CacheKey.item (StockItem.ten 1).id) (.ten 1)
  clock := { now := .epoch }
  ids := { millis := 0 }
  cues := [("ledger.update", { failAfter := some (.storage "connection reset") })]

end Rereading
end StockLedger
