import Mathlib.Tactic.Common
import StockLedger.Proofs.Concurrent.Solo
import StockLedger.Proofs.Program.Within
import StockLedger.Proofs.ReadThrough.LostUpdates
import StockLedger.Proofs.ReadThrough.Transparency

/-!
# A cache at rest

Any number of requests to a ledger are made at the same time through one cache, and none fails. Who
changes the ledger goes on to drop what the change puts in doubt; so when nothing is under way any
more, a text can be outdated only if it was cached too late to be dropped. What was cached and has
been dropped since does not matter.

* `Program.Drops` : a program that will drop what is cached under a key;
* `Program.Tidy` : a program that, told of a change, drops what the change puts in doubt;
* `tidy_cached` : all requests through the cache are such programs;
* `Requesting.smooth`, `Requesting.steadfast`, `Requesting.punctual` : no request fails, no write
  moves an item to another product, and nothing is cached under a key too late;
* `Requesting.Covered` : each text under the key is true, or somebody is about to drop it;
* `Requesting.Founded.step`, `Requesting.Tended.step` : what any step keeps, and what it keeps if
  nothing is cached too late;
* `coherent_at_rest` : when all programs have ended, each living text under the key is read as what
  the ledger would now answer;
* `incoherent_at_rest` : three ways in which a text stays behind that is not.
-/

namespace StockLedger

open ReadThrough

/-! ## Programs that drop texts -/

/-- The request drops what is cached under the key. -/
def Call.Drops (key : String) : Call → Prop
  | .cache (.delete keys) => key ∈ keys
  | .cache (.deletePattern pattern) => MemoryCache.fits pattern key = true
  | _ => False

namespace Program

variable {α β : Type} {key : String}

/-- On each path to its end the program drops what is cached under the key. -/
def Drops (key : String) : Program α → Prop
  | done _ => False
  | call c next => c.Drops key ∨ ∀ r, Drops key (next r)
  | abort => True

theorem Drops.next {c : Call} {next : c.Reply → Program α} (h : (call c next).Drops key)
    (hc : ¬ c.Drops key) (r : c.Reply) : (next r).Drops key :=
  h.resolve_left hc r

theorem Drops.bind {p : Program α} {f : α → Program β} (h : p.Drops key) :
    (p >>= f).Drops key := by
  change (p.andThen f).Drops key
  induction p with
  | done a => exact h.elim
  | call c next ih => exact h.imp_right fun hnext r => ih r (hnext r)
  | abort => trivial

/-- What a program drops at its end it drops after any other. -/
theorem drops_bind {p : Program α} {f : α → Program β} (h : ∀ a, (f a).Drops key) :
    (p >>= f).Drops key := by
  change (p.andThen f).Drops key
  induction p with
  | done a => exact h a
  | call c next ih => exact .inr ih
  | abort => trivial

end Program

/-- Who is told of a change to the ledger goes on to drop what the change puts in doubt. -/
def Call.Mends {α : Type} : (c : Call) → (c.Reply → Program α) → Prop
  | .ledger c, next => ∀ (l l' : MemoryLedger) (now : Timestamp) (r : c.Reply), l.Indexed →
      l.KeepsProduct c → MemoryLedger.Outcome l now c r l' → ∀ key text, l.Vouches key text →
        (next r).Drops key ∨ l'.Vouches key text
  | _, _ => True

namespace Program

variable {α β : Type}

/-- Whenever the program is told of a change, it drops what the change puts in doubt. -/
def Tidy : Program α → Prop
  | call c next => c.Mends next ∧ ∀ r, Tidy (next r)
  | done _ | abort => True

theorem Tidy.bind {p : Program α} {f : α → Program β} (hp : p.Tidy) (hf : ∀ a, (f a).Tidy) :
    (p >>= f).Tidy := by
  change (p.andThen f).Tidy
  induction p with
  | done a => exact hf a
  | call c next ih =>
    refine ⟨?_, fun r => ih r (hp.2 r)⟩
    cases c with
    | ledger c =>
      intro l l' now r hl hc ho key text hv
      have hdrops : (next r).Drops key ∨ l'.Vouches key text := hp.1 l l' now r hl hc ho key text hv
      exact hdrops.imp_left Drops.bind
    | _ => trivial
  | abort => trivial

/-- Who only uses the cache is told of no change. -/
theorem Within.tidy {p : Program α} (hp : p.OfCache) : p.Tidy := by
  induction p with
  | done a => trivial
  | call c next ih =>
    refine ⟨?_, fun r => ih r (hp.head.2 r)⟩
    cases c with
    | ledger c => cases hp.head.1
    | _ => trivial
  | abort => trivial

end Program

/-! ## Requests through the cache -/

theorem find?_of_drops {cache : MemoryCache} {uptime : Nat} {c : CacheCall} {key : String}
    (honline : cache.online = true) (h : (Call.cache c).Drops key) :
    (cache.apply uptime c).entries.find? key = none := by
  cases c with
  | delete keys => exact MemoryCache.find?_apply_delete honline h
  | deletePattern pattern => exact MemoryCache.find?_apply_deletePattern honline h
  | get | set => exact h.elim

section

variable {lifetimes : CacheLifetimes} {key : String}

theorem drops_forgetLists {onSuccess : Program Unit}
    (h : MemoryCache.fits CacheKey.allLowStock key = true) : (forgetLists onSuccess).Drops key :=
  .inl h

theorem drops_invalidate {id : ItemId} {p : ProductId} (h : Touched id p key) :
    (invalidate id p).Drops key := by
  rcases h with rfl | rfl | hlist
  · exact .inl (List.mem_cons_self ..)
  · exact .inl (List.mem_cons_of_mem _ (List.mem_cons_self ..))
  · exact Program.drops_bind fun _ => drops_forgetLists hlist

/-- A request by which nothing changes puts nothing in doubt. -/
theorem tidy_direct {c : LedgerCall} (hc : c.writes = false) : (LedgerAccess.direct c).Tidy := by
  refine ⟨fun l l' now r _ _ ho key text hv => .inr ?_, fun _ => trivial⟩
  rw [ho.eq_of_reads hc]
  exact hv

/-- What comes after a request that may change the ledger drops what the change puts in doubt. -/
theorem tidy_change {α : Type} {c : LedgerCall} {f : c.Reply → Program α}
    (hf : ∀ r, (f r).Tidy)
    (hmends : ∀ {l l' : MemoryLedger} {now r key text}, l.Indexed → l.KeepsProduct c →
      MemoryLedger.Outcome l now c r l' → l.Vouches key text →
        (f r).Drops key ∨ l'.Vouches key text) :
    (LedgerAccess.direct c >>= f).Tidy :=
  ⟨fun _ _ _ _ hl hc ho _ _ hv => hmends hl hc ho hv, hf⟩

theorem tidy_readItem {fetch : Program (Answer StockItem)} (h : fetch.Tidy) :
    (readItem lifetimes key fetch).Tidy := by
  refine (within_cachedItem key).tidy.bind fun a => ?_
  match a with
  | some s => trivial
  | none =>
    refine h.bind fun r => ?_
    match r with
    | .ok s => exact (within_populate s).tidy.bind fun _ => trivial
    | .error f => trivial

theorem tidy_readLowStock {fetch : Program (Answer (List StockItem))} (h : fetch.Tidy) :
    (readLowStock lifetimes key fetch).Tidy := by
  refine (within_cachedItems key).tidy.bind fun a => ?_
  match a with
  | some xs => trivial
  | none =>
    refine h.bind fun r => ?_
    match r with
    | .ok xs => exact (within_keep _ _ _).tidy.bind fun _ => trivial
    | .error f => trivial

theorem tidy_readHasProduct {fetch : Program (Answer Bool)} (h : fetch.Tidy) :
    (readHasProduct key fetch).Tidy := by
  have hget : (cache (.get key)).OfCache := Program.within_ask rfl
  refine hget.tidy.bind fun r => ?_
  match r with
  | .ok (some text) => trivial
  | .ok none => exact h
  | .error _ => exact within_log.tidy.bind fun _ => h

/-- A new item puts only lists in doubt, and they are dropped last. -/
theorem tidy_writeNew (s : StockItem) :
    (writeNew lifetimes s (LedgerAccess.direct (.save s))).Tidy := by
  refine tidy_change (fun r => ?_) fun hl _ ho hv => ?_
  · match r with
    | .ok () =>
      have hlists : (forgetLists (return)).OfCache :=
        Program.KeepsNothing.ofCache (keepsNothing_forgetLists trivial)
      exact (within_populate s).tidy.bind fun _ => hlists.tidy.bind fun _ => trivial
    | .error f => trivial
  · cases ho with
    | unchanged => exact .inr hv
    | saved _ hid hproduct =>
      refine (hv.save hl hid hproduct).imp_left fun hlist => ?_
      exact Program.drops_bind fun _ => Program.Drops.bind (drops_forgetLists hlist)

theorem tidy_writeConditional (s : StockItem) :
    (writeConditional (LedgerAccess.direct (.update s))).Tidy := by
  refine tidy_change (fun w => ?_) fun {l _ now _ _ _} hl hc ho hv => ?_
  · split
    · exact (within_invalidate _ _).tidy.bind fun _ => trivial
    · trivial
  · cases ho with
    | unchanged => exact .inr hv
    | updated _ stored hid =>
      have hproduct : stored.productId = s.productId := (hc stored hid).symm
      have htouched := hv.insert (s := MemoryLedger.advance s now) hl hid
      rw [hproduct] at htouched
      exact htouched.imp_left fun h => Program.Drops.bind (drops_invalidate h)

theorem tidy_writeOver (r : Answer StockItem) : (writeOver (.done r)).Tidy := by
  match r with
  | .ok s => exact (within_invalidate _ _).tidy.bind fun _ => trivial
  | .error f => trivial

theorem drops_writeOver {r : Answer StockItem} (h : InDoubt r key) :
    (writeOver (.done r)).Drops key := by
  match r with
  | .ok s => exact (drops_invalidate h).bind (f := fun _ => .done (Except.ok s))
  | .error f => exact h.elim

/-- All requests through the cache are tidy. -/
theorem tidy_cached (c : LedgerCall) : (LedgerAccess.cached lifetimes c).Tidy := by
  cases c with
  | load | findByProduct => exact tidy_readItem (tidy_direct rfl)
  | findLowStock => exact tidy_readLowStock (tidy_direct rfl)
  | hasProduct => exact tidy_readHasProduct (tidy_direct rfl)
  | findMany | count => exact tidy_direct rfl
  | save s => exact tidy_writeNew s
  | update s => exact tidy_writeConditional s
  | delete id =>
    exact tidy_change tidy_writeOver
      fun hl _ ho hv => (vouches_delete hl ho hv).imp_left drops_writeOver
  | bumpVersion id =>
    exact tidy_change tidy_writeOver
      fun hl _ ho hv => (vouches_bumpVersion hl ho hv).imp_left drops_writeOver

end

/-! ## Programs at the same time -/

namespace Requesting

variable {lifetimes : CacheLifetimes} {key : String}

/-- No request fails. -/
def smooth (lifetimes : CacheLifetimes) : Rules (Requesting lifetimes) where
  starts _ _ := True
  serves _ _ _ served r _ := served = some r

/-- A write leaves the product of the stored item as it is. -/
def Steady (w : World) : Call → Prop
  | .ledger c => w.ledger.KeepsProduct c
  | _ => True

/-- No request fails, and no write moves an item to another product. -/
def steadfast (lifetimes : CacheLifetimes) : Rules (Requesting lifetimes) where
  starts _ _ := True
  serves w _ c served r _ := served = some r ∧ Steady w c

/-- What is cached under the key is true, or somebody else is about to drop it. -/
def InTime (key : String) (w : World) (others : List (Run (Requesting lifetimes))) : Call → Prop
  | .cache (.set k text _) =>
      k = key → w.ledger.Vouches key text ∨ ∃ other ∈ others, other.rest.Drops key
  | _ => True

/-- Besides, nothing is cached under the key that is outdated for good. -/
def punctual (lifetimes : CacheLifetimes) (key : String) : Rules (Requesting lifetimes) where
  starts _ _ := True
  serves w others c served r _ := (served = some r ∧ Steady w c) ∧ InTime key w others c

theorem steadfast_of_punctual {σ σ' : System (Requesting lifetimes)}
    (h : System.Step (punctual lifetimes key) σ σ') : System.Step (steadfast lifetimes) σ σ' := by
  refine h.mono (fun _ _ _ => trivial) ?_
  rintro _ _ _ _ _ _ ⟨hsteadfast, -⟩
  exact hsteadfast

/-- The cache is switched on, and whoever is told of a change drops what it puts in doubt. -/
structure Founded (σ : System (Requesting lifetimes)) : Prop where
  indexed : σ.world.ledger.Indexed
  online : σ.world.cache.online = true
  tidy : ∀ run ∈ σ.runs, run.rest.Tidy

theorem Founded.init {l : MemoryLedger} (hl : l.Indexed) :
    Founded (⟨{ ledger := l }, []⟩ : System (Requesting lifetimes)) :=
  ⟨hl, rfl, fun _ h => (nomatch h)⟩

theorem Founded.step {σ σ' : System (Requesting lifetimes)} (h : Founded σ)
    (hstep : System.Step (steadfast lifetimes) σ σ') : Founded σ' := by
  cases hstep with
  | start _ task =>
    refine ⟨h.indexed, h.online, fun run hrun => ?_⟩
    rcases List.mem_append.1 hrun with hold | hnew
    · exact h.tidy run hold
    · rcases List.mem_singleton.1 hnew with rfl
      exact tidy_cached task
  | abandon w before after run =>
    refine ⟨h.indexed, h.online, fun other hother => ?_⟩
    rcases Run.eq_or_mem_others hother with rfl | hothers
    · trivial
    · exact h.tidy other (Run.mem_of_others run hothers)
  | answer w w' before after run c next served r hrest hserves hreports hrules =>
    rcases hrules with ⟨rfl, hsteady⟩
    have hown : (Program.call c next).Tidy := hrest ▸ h.tidy run (Run.mem_self ..)
    have htidy : ∀ other ∈ before ++ run.resume (run.record.note c r (some r)) (next r) :: after,
        other.rest.Tidy := by
      intro other hother
      rcases Run.eq_or_mem_others hother with rfl | hothers
      · exact hown.2 r
      · exact h.tidy other (Run.mem_of_others run hothers)
    cases hserves with
    | ledger now c => exact ⟨h.indexed.outcome hsteady (w.ledger.outcome now c), h.online, htidy⟩
    | cache uptime c => exact ⟨h.indexed, (MemoryCache.online_apply ..).trans h.online, htidy⟩
    | reservations | now | uptime | freshUuid | publish | log => exact ⟨h.indexed, h.online, htidy⟩

theorem Founded.reaches {σ σ' : System (Requesting lifetimes)} (h : Founded σ)
    (hreaches : System.Reaches (steadfast lifetimes) σ σ') : Founded σ' := by
  induction hreaches with
  | refl => exact h
  | tail _ hstep ih => exact ih.step hstep

/-- Each text under the key is true, or somebody is about to drop it. -/
def Covered (key : String) (σ : System (Requesting lifetimes)) : Prop :=
  ∀ e, σ.world.cache.entries.find? key = some e →
    σ.world.ledger.Vouches key e.value ∨ ∃ run ∈ σ.runs, run.rest.Drops key

/-- Where nothing is cached under the key, as right after it was dropped, all is covered. -/
theorem covered_of_find? {σ : System (Requesting lifetimes)}
    (h : σ.world.cache.entries.find? key = none) : Covered key σ := by
  intro e he
  rw [h] at he
  cases he

/-- All is covered, and stays so as long as nothing is cached too late. -/
structure Tended (key : String) (σ : System (Requesting lifetimes)) : Prop extends Founded σ where
  covered : Covered key σ

/-- Whoever was about to drop the key still is, unless it was the one whose request drops it. -/
theorem exists_drops {before after : List (Run (Requesting lifetimes))}
    {run : Run (Requesting lifetimes)} {c : Call} {next : c.Reply → Program _} {k : Record}
    (hrest : run.rest = .call c next) (hc : ¬ c.Drops key) (r : c.Reply)
    (h : ∃ other ∈ before ++ run :: after, other.rest.Drops key) :
    ∃ other ∈ before ++ run.resume k (next r) :: after, other.rest.Drops key := by
  rcases h with ⟨other, hother, hdrops⟩
  rcases Run.eq_or_mem_others hother with rfl | hothers
  · rw [hrest] at hdrops
    exact ⟨_, Run.mem_self .., hdrops.next hc r⟩
  · exact ⟨other, Run.mem_of_others _ hothers, hdrops⟩

/-- A request to the cache: what is still there was there before, or was cached in time. -/
theorem texts_cache {w : World} {before after : List (Run (Requesting lifetimes))}
    {run : Run (Requesting lifetimes)} {c : CacheCall} {next : c.Reply → Program _} {k : Record}
    {uptime : Nat} {r : c.Reply} (h : Tended key ⟨w, before ++ run :: after⟩)
    (hrest : run.rest = .call (.cache c) next) (htime : InTime key w (before ++ after) (.cache c))
    {e : CacheEntry} (he : (w.cache.apply uptime c).entries.find? key = some e) :
    w.ledger.Vouches key e.value ∨
      ∃ other ∈ before ++ run.resume k (next r) :: after, other.rest.Drops key := by
  rcases MemoryCache.find?_apply he with hold | ⟨ttl, rfl⟩
  · by_cases hdrops : (Call.cache c).Drops key
    · -- What is dropped is not there any more.
      rw [find?_of_drops h.online hdrops] at he
      cases he
    · exact (h.covered e hold).imp_right (exists_drops hrest hdrops r)
  · refine (htime rfl).imp_right ?_
    rintro ⟨other, hother, hdrops⟩
    exact ⟨other, Run.mem_of_others _ hother, hdrops⟩

theorem Tended.step {σ σ' : System (Requesting lifetimes)} (h : Tended key σ)
    (hstep : System.Step (punctual lifetimes key) σ σ') : Tended key σ' := by
  refine ⟨h.toFounded.step (steadfast_of_punctual hstep), fun e he => ?_⟩
  cases hstep with
  | start _ task =>
    refine (h.covered e he).imp_right ?_
    rintro ⟨run, hrun, hdrops⟩
    exact ⟨run, List.mem_append_left _ hrun, hdrops⟩
  | abandon w before after run =>
    refine (h.covered e he).imp_right ?_
    -- Who has been given up while dropping the key stays under way for good.
    rintro ⟨other, hother, hdrops⟩
    rcases Run.eq_or_mem_others hother with rfl | hothers
    · exact ⟨_, Run.mem_self .., trivial⟩
    · exact ⟨other, Run.mem_of_others _ hothers, hdrops⟩
  | answer w w' before after run c next served r hrest hserves hreports hrules =>
    rcases hrules with ⟨⟨rfl, hsteady⟩, htime⟩
    cases hserves with
    | ledger now c =>
      rcases h.covered e he with htrue | hdrops
      · have hown : (Program.call (.ledger c) next).Tidy := hrest ▸ h.tidy run (Run.mem_self ..)
        -- What the change puts in doubt, whoever made it goes on to drop.
        rcases hown.1 _ _ now _ h.indexed hsteady (w.ledger.outcome now c) key e.value htrue with
          hnext | htrue'
        · exact .inr ⟨_, Run.mem_self .., hnext⟩
        · exact .inl htrue'
      · exact .inr (exists_drops hrest id _ hdrops)
    | cache uptime c => exact texts_cache h hrest htime he
    | reservations | now | uptime | freshUuid | publish | log =>
      exact (h.covered e he).imp_right (exists_drops hrest id _)

theorem Tended.reaches {σ σ' : System (Requesting lifetimes)} (h : Tended key σ)
    (hreaches : System.Reaches (punctual lifetimes key) σ σ') : Tended key σ' := by
  induction hreaches with
  | refl => exact h
  | tail _ hstep ih => exact ih.step hstep

/-- All programs have ended, and none was given up. -/
def AtRest (σ : System (Requesting lifetimes)) : Prop :=
  ∀ run ∈ σ.runs, ∃ a, run.rest = .done a

theorem atRest_nil {w : World} : AtRest (⟨w, []⟩ : System (Requesting lifetimes)) :=
  fun _ h => nomatch h

theorem AtRest.cons {w : World} {run : Run (Requesting lifetimes)}
    {runs : List (Run (Requesting lifetimes))} (hrun : ∃ a, run.rest = .done a)
    (h : AtRest ⟨w, runs⟩) : AtRest ⟨w, run :: runs⟩ := by
  intro other hother
  rcases List.mem_cons.1 hother with rfl | hothers
  · exact hrun
  · exact h other hothers

/-- When all programs have ended, nobody is about to drop anything. -/
theorem Tended.vouches {σ : System (Requesting lifetimes)} (h : Tended key σ) (hrest : AtRest σ)
    {uptime : Nat} {text : String} (hlive : σ.world.cache.peek? uptime key = some text) :
    σ.world.ledger.Vouches key text := by
  simp only [MemoryCache.peek?, Option.map_eq_some_iff, Option.filter_eq_some_iff] at hlive
  rcases hlive with ⟨e, ⟨he, -⟩, rfl⟩
  refine (h.covered e he).resolve_right ?_
  rintro ⟨run, hrun, hdrops⟩
  rcases hrest run hrun with ⟨a, ha⟩
  rw [ha] at hdrops
  exact hdrops

end Requesting

/-! ## What is read from a cache at rest -/

/-- A text under a key is read as what the ledger answers. -/
structure MemoryLedger.Matches (l : MemoryLedger) (key text : String) : Prop where
  item : ∀ id, key = CacheKey.item id →
    ∃ s, l.load id = .ok s ∧ StockItem.decode? text = some s
  product : ∀ p, key = CacheKey.product p →
    ∃ s, l.findByProduct p = .ok s ∧ StockItem.decode? text = some s
  lowStock : ∀ t n, key = CacheKey.lowStock t n →
    StockItem.decodeAll? text = some (l.lowStock t n)

theorem MemoryLedger.Vouches.matches {l : MemoryLedger} (hl : l.Storable) {key text : String}
    (h : l.Vouches key text) : l.Matches key text where
  item id hkey := by
    rcases h.item id hkey with ⟨s, hs, rfl⟩
    refine ⟨s, ?_, ?_⟩
    · rw [load, hs]
    · rw [StockItem.decode?_encode, if_pos (hl id s hs)]
  product p hkey := by
    rcases h.product p hkey with ⟨id, s, hp, hs, rfl⟩
    refine ⟨s, ?_, ?_⟩
    · rw [findByProduct, hp, Option.bind_some, hs]
    · rw [StockItem.decode?_encode, if_pos (hl id s hs)]
  lowStock t n hkey := by
    rw [h.lowStock t n hkey, StockItem.decodeAll?_encodeAll, if_pos]
    intro s hs
    rcases (Table.mem_values_iff ..).1 (mem_values_of_lowStock hs) with ⟨id, hid⟩
    exact hl id s hid

open Requesting in
/--
When all programs have ended, each living text under a key is read as what the ledger would now
answer, as long as there was a moment at which what was cached under this key was covered, as it is
when the key has just been dropped, and since then nothing was cached under it that was outdated for
good. No write gives an item another product, and the versions of what is stored are below the sign
bit.
-/
theorem coherent_at_rest (lifetimes : CacheLifetimes) {l : MemoryLedger} (hl : l.Indexed)
    {key : String} {σ₁ σ : System (Requesting lifetimes)}
    (hbefore : System.Reaches (steadfast lifetimes) ⟨{ ledger := l }, []⟩ σ₁)
    (hcovered : Covered key σ₁) (hreaches : System.Reaches (punctual lifetimes key) σ₁ σ)
    (hrest : AtRest σ) (hversions : σ.world.ledger.Storable) {uptime : Nat} {text : String}
    (hlive : σ.world.cache.peek? uptime key = some text) :
    σ.world.ledger.Matches key text := by
  -- Up to the moment only the ledger and the programs matter; from then on the key does as well.
  have hfounded : Founded σ₁ := (Founded.init hl).reaches hbefore
  have htended : Tended key σ := Tended.reaches ⟨hfounded, hcovered⟩ hreaches
  exact (htended.vouches hrest hlive).matches hversions

namespace Requesting

theorem peek?_filled_item (s : StockItem) :
    (filled s).peek? 0 (CacheKey.item s.id) = some s.encode := by
  have hne : CacheKey.item s.id ≠ CacheKey.product s.productId := CacheKey.item_ne_product _ _
  simp [filled, MemoryCache.apply, MemoryCache.change, MemoryCache.peek?, MemoryCache.empty,
    Table.find?_insert, hne]
  rfl

theorem indexed_stocked : stocked.ledger.Indexed :=
  MemoryLedger.indexed_empty.outcome (c := .save (.ten 1)) trivial (MemoryLedger.outcome _ .epoch _)

/-! A test of what the rules permit, where the key is that of an item. -/

instance (w : World) (c : Call) : Decidable (Steady w c) := by
  unfold Steady; split <;> infer_instance

def steadfastTest : (steadfast {}).Test where
  permits online w _ c _ _ := online && decide (Steady w c)
  sound hattend h := by
    rcases Bool.and_eq_true_iff.1 h with ⟨rfl, hsteady⟩
    exact ⟨World.attend_heard hattend, of_decide_eq_true hsteady⟩

/-- The next request of the program drops the key. -/
def dropsNext (key : String) (run : Run (Requesting {})) : Bool :=
  match run.rest with
  | .call (.cache (.delete keys)) _ => keys.contains key
  | _ => false

theorem drops_of_dropsNext {run : Run (Requesting {})} (h : dropsNext key run = true) :
    run.rest.Drops key := by
  unfold dropsNext at h
  split at h
  · next hrest =>
    rw [hrest]
    exact .inl (List.contains_iff_mem.1 h)
  · cases h

/-- The text is that of the stored item. -/
def upToDate (id : ItemId) (w : World) (text : String) : Bool :=
  match w.ledger.items.find? id with
  | some s => s.id == id && text == s.encode
  | none => false

theorem vouches_of_upToDate {id : ItemId} {w : World} {text : String}
    (h : upToDate id w text = true) : w.ledger.Vouches (CacheKey.item id) text := by
  unfold upToDate at h
  split at h
  · next s hs =>
    rcases Bool.and_eq_true_iff.1 h with ⟨hid, htext⟩
    rcases eq_of_beq hid with rfl
    rcases eq_of_beq htext with rfl
    exact MemoryLedger.vouches_item hs
  · cases h

/-- What is cached is the stored item, or the next request of another program drops it. -/
def inTime (id : ItemId) (w : World) (others : List (Run (Requesting {}))) : Call → Bool
  | .cache (.set k text _) =>
      k != CacheKey.item id || upToDate id w text || others.any (dropsNext (CacheKey.item id))
  | _ => true

theorem inTime_sound {id : ItemId} {w : World} {others : List (Run (Requesting {}))} {c : Call}
    (h : inTime id w others c = true) : InTime (CacheKey.item id) w others c := by
  cases c with
  | cache c =>
    cases c with
    | set k text ttl =>
      rintro rfl
      simp only [inTime, bne_self_eq_false, Bool.false_or, Bool.or_eq_true] at h
      rcases h with htext | hdrops
      · exact .inl (vouches_of_upToDate htext)
      · rcases List.any_eq_true.1 hdrops with ⟨other, hother, hnext⟩
        exact .inr ⟨other, hother, drops_of_dropsNext hnext⟩
    | get | delete | deletePattern => trivial
  | _ => trivial

def punctualTest (id : ItemId) : (punctual {} (CacheKey.item id)).Test where
  permits online w others c served w' :=
    steadfastTest.permits online w others c served w' && inTime id w others c
  sound hattend h := by
    rcases Bool.and_eq_true_iff.1 h with ⟨hsteadfast, htime⟩
    exact ⟨steadfastTest.sound hattend hsteadfast, inTime_sound htime⟩

/-- Three requests for an item, while its version is raised three times. -/
def readers : List LedgerCall :=
  let id := (StockItem.ten 1).id
  [.load id, .bumpVersion id, .bumpVersion id, .load id, .bumpVersion id, .load id]

/-- The first reader caches the item after the first writer has dropped it. -/
def outdated : System (Requesting {}) :=
  -- All readers miss; then one reads the ledger, a writer comes and goes, and the copy is cached.
  (System.turns steadfastTest .epoch ⟨{ ledger := stocked.ledger }, readers.map (Run.start _)⟩
    ([0, 3, 5, 0, 1, 1, 1, 1, 0, 0].map (·, true))).getD {}

/-- The second writer drops what the first reader has cached. -/
def dropped : System (Requesting {}) :=
  (System.turns steadfastTest .epoch outdated ([2, 2].map (·, true))).getD {}

/-- The item with its version raised so many times. -/
def raisedTo : Nat → StockItem
  | 0 => .ten 1
  | n + 1 => MemoryLedger.advance (raisedTo n) .epoch

/-- The item with its version raised so many times is what the ledger has. -/
def ledgerWith : Nat → MemoryLedger
  | 0 => stocked.ledger
  | n + 1 => (ledgerWith n).apply .epoch (.bumpVersion (StockItem.ten 1).id)

/--
The second reader has cached an item that the third writer was about to drop, and the third reader
has cached what is stored since then.
-/
def timelyCopy : System (Requesting {}) where
  world :=
    { ledger := ledgerWith 3
      cache := filled (raisedTo 3)
      past := [ledgerWith 2, ledgerWith 1, ledgerWith 0] }
  runs :=
    let id := (StockItem.ten 1).id
    [⟨.load id, {}, .done (Except.ok (raisedTo 0) : Answer StockItem)⟩,
      ⟨.bumpVersion id, {}, .done (Except.ok (raisedTo 1) : Answer StockItem)⟩,
      ⟨.bumpVersion id, {}, .done (Except.ok (raisedTo 2) : Answer StockItem)⟩,
      ⟨.load id, {}, .done (Except.ok (raisedTo 2) : Answer StockItem)⟩,
      ⟨.bumpVersion id, {}, .done (Except.ok (raisedTo 3) : Answer StockItem)⟩,
      ⟨.load id, {}, .done (Except.ok (raisedTo 3) : Answer StockItem)⟩]

theorem reaches_outdated :
    System.Reaches (steadfast {}) ⟨{ ledger := stocked.ledger }, []⟩ outdated := by
  have hstarts := System.Reaches.starts (R := steadfast {}) ⟨{ ledger := stocked.ledger }, []⟩
    readers fun _ _ _ => trivial
  refine hstarts.trans (System.Reaches.turns steadfastTest .epoch
    ([0, 3, 5, 0, 1, 1, 1, 1, 0, 0].map (·, true)) ?_)
  cbv

theorem reaches_dropped : System.Reaches (steadfast {}) outdated dropped := by
  refine System.Reaches.turns steadfastTest .epoch ([2, 2].map (·, true)) ?_
  cbv

theorem reaches_timelyCopy :
    System.Reaches (punctual {} (CacheKey.item (StockItem.ten 1).id)) dropped timelyCopy := by
  -- The second reader reads, the third writer writes, and only then the copy is cached; but that
  -- writer has yet to drop it. The last reader reads after that.
  refine System.Reaches.turns (punctualTest (StockItem.ten 1).id) .epoch
    ([3, 4, 3, 3, 2, 2, 4, 4, 4, 5, 5, 5].map (·, true)) ?_
  cbv

/--
What was cached too late has been dropped, and what is cached in the end is read as the item that
the ledger has.
-/
theorem coherent_at_rest_timelyCopy :
    (outdated.world.cache.peek? 0 (CacheKey.item (StockItem.ten 1).id) =
        some (raisedTo 0).encode ∧
      outdated.world.ledger.load (StockItem.ten 1).id = .ok (raisedTo 1)) ∧
    stocked.ledger.Indexed ∧
    System.Reaches (steadfast {}) ⟨{ ledger := stocked.ledger }, []⟩ dropped ∧
    Covered (CacheKey.item (StockItem.ten 1).id) dropped ∧
    System.Reaches (punctual {} (CacheKey.item (StockItem.ten 1).id)) dropped timelyCopy ∧
    AtRest timelyCopy ∧ timelyCopy.world.ledger.Storable ∧
    timelyCopy.world.cache.peek? 0 (CacheKey.item (StockItem.ten 1).id) =
      some (raisedTo 3).encode ∧
    timelyCopy.world.ledger.Matches (CacheKey.item (StockItem.ten 1).id) (raisedTo 3).encode := by
  have hbefore := reaches_outdated.trans reaches_dropped
  have hcovered : Covered (CacheKey.item (StockItem.ten 1).id) dropped :=
    covered_of_find? (by cbv)
  have hrest : AtRest timelyCopy :=
    (((((atRest_nil.cons ⟨_, rfl⟩).cons ⟨_, rfl⟩).cons ⟨_, rfl⟩).cons ⟨_, rfl⟩).cons ⟨_, rfl⟩).cons
      ⟨_, rfl⟩
  have hversions : timelyCopy.world.ledger.Storable := by decide
  have hlive := peek?_filled_item (raisedTo 3)
  have hcache : outdated.world.cache = filled (raisedTo 0) := by rfl
  refine ⟨⟨?_, by cbv⟩, indexed_stocked, hbefore, hcovered, reaches_timelyCopy, hrest, hversions,
    hlive, coherent_at_rest {} indexed_stocked hbefore hcovered reaches_timelyCopy hrest hversions
      hlive⟩
  rw [hcache]
  exact peek?_filled_item (raisedTo 0)

/-! ## Texts that stay behind -/

/-- From an empty cache over a ledger, without any failure, a text at rest that is outdated. -/
def Incoherent (l : MemoryLedger) (σ : System (Requesting {})) (key : String) : Prop :=
  System.Reaches (smooth {}) ⟨{ ledger := l }, []⟩ σ ∧ AtRest σ ∧
    ∃ text, σ.world.cache.peek? 0 key = some text ∧ ¬ σ.world.ledger.Matches key text

def smoothTest : (smooth {}).Test where
  permits online _ _ _ _ _ := online
  sound hattend h := by
    subst h
    exact World.attend_heard hattend

theorem reaches_turns {l : MemoryLedger} (tasks : List LedgerCall) (order : List Nat)
    {σ : System (Requesting {})}
    (h : System.turns smoothTest .epoch ⟨{ ledger := l }, tasks.map (Run.start _)⟩
      (order.map (·, true)) = some σ) :
    System.Reaches (smooth {}) ⟨{ ledger := l }, []⟩ σ :=
  (System.Reaches.starts (R := smooth {}) ⟨{ ledger := l }, []⟩ tasks fun _ _ _ => trivial).trans
    (System.Reaches.turns smoothTest .epoch (order.map (·, true)) h)

/-- The copy that was read before a version was raised is cached after the old one was dropped. -/
def lateCopy : System (Requesting {}) where
  world :=
    { ledger := stocked.ledger.apply .epoch (.bumpVersion (StockItem.ten 1).id)
      cache := filled (.ten 1)
      past := [stocked.ledger] }
  runs := [⟨.load (StockItem.ten 1).id, {}, .done (Except.ok (.ten 1) : Answer StockItem)⟩,
    ⟨.bumpVersion (StockItem.ten 1).id, {},
      .done (Except.ok (MemoryLedger.advance (.ten 1) .epoch) : Answer StockItem)⟩]

theorem incoherent_lateCopy :
    Incoherent stocked.ledger lateCopy (CacheKey.item (StockItem.ten 1).id) := by
  refine ⟨?_, ?_, _, peek?_filled_item (.ten 1), fun hmatches => ?_⟩
  · exact reaches_turns [.load (StockItem.ten 1).id, .bumpVersion (StockItem.ten 1).id]
      [0, 0, 1, 1, 1, 1, 0, 0] (by rfl)
  · exact (atRest_nil.cons ⟨_, rfl⟩).cons ⟨_, rfl⟩
  · rcases hmatches.item _ rfl with ⟨s, hs, hdecode⟩
    have hstored : lateCopy.world.ledger.load (StockItem.ten 1).id =
        .ok (MemoryLedger.advance (.ten 1) .epoch) := by rfl
    rw [hstored] at hs
    cases hs
    have hsame := StockItem.eq_of_decode?_encode hdecode
    exact absurd (congrArg StockItem.version hsame) (by decide)

/-- An item of the product 1 is written over with one of the product 2. -/
def moved : StockItem :=
  { StockItem.ten 1 with productId := ⟨.ofNat 2⟩ }

/-- What is cached under the product that the item had is not dropped. -/
def movedProduct : System (Requesting {}) where
  world :=
    { ledger := stocked.ledger.apply .epoch (.update moved)
      cache := ((filled (.ten 1)).apply 0
        (.delete [CacheKey.item moved.id, CacheKey.product moved.productId])).apply 0
          (.deletePattern CacheKey.allLowStock)
      past := [stocked.ledger] }
  runs := [⟨.findByProduct (StockItem.ten 1).productId, {},
      .done (Except.ok (.ten 1) : Answer StockItem)⟩,
    ⟨.update moved, { wrote := some moved.id },
      .done (⟨.ok (), MemoryLedger.advance moved .epoch⟩ : Written)⟩]

theorem incoherent_movedProduct :
    Incoherent stocked.ledger movedProduct (CacheKey.product (StockItem.ten 1).productId) := by
  have hproducts : (StockItem.ten 1).productId ≠ moved.productId := by decide
  have hproduct : CacheKey.product (StockItem.ten 1).productId ≠
      CacheKey.product moved.productId := fun h => hproducts (CacheKey.product_injective h)
  have hitem : CacheKey.product (StockItem.ten 1).productId ≠ CacheKey.item moved.id :=
    (CacheKey.item_ne_product _ _).symm
  refine ⟨?_, ?_, (StockItem.ten 1).encode, ?_, fun hmatches => ?_⟩
  · exact reaches_turns [.findByProduct (StockItem.ten 1).productId, .update moved]
      [0, 0, 0, 0, 1, 1, 1, 1] (by rfl)
  · exact (atRest_nil.cons ⟨_, rfl⟩).cons ⟨_, rfl⟩
  · simp [movedProduct, filled, MemoryCache.apply, MemoryCache.change, MemoryCache.peek?,
      MemoryCache.empty, Table.find?_insert, Table.find?_eraseIf, hproduct, hitem,
      CacheKey.not_fits_product]
    rfl
  · rcases hmatches.product _ rfl with ⟨s, hs, hdecode⟩
    have hstored : movedProduct.world.ledger.findByProduct (StockItem.ten 1).productId =
        .ok (MemoryLedger.advance moved .epoch) := by rfl
    rw [hstored] at hs
    cases hs
    have hsame := StockItem.eq_of_decode?_encode hdecode
    exact absurd (congrArg StockItem.version hsame) (by decide)

/-- Ten units with a version that has the sign bit. -/
def huge : StockItem :=
  { StockItem.ten 1 with version := 0x8000000000000000 }

/-- The text of an item whose version has the sign bit is read as none. -/
def hugeVersion : System (Requesting {}) where
  world :=
    { ledger := MemoryLedger.empty.apply .epoch (.save huge)
      cache := (filled huge).apply 0 (.deletePattern CacheKey.allLowStock)
      past := [.empty] }
  runs := [⟨.save huge, {}, .done (Except.ok () : Answer Unit)⟩]

theorem incoherent_hugeVersion :
    Incoherent .empty hugeVersion (CacheKey.item huge.id) := by
  have hne : CacheKey.item huge.id ≠ CacheKey.product huge.productId :=
    CacheKey.item_ne_product _ _
  refine ⟨?_, ?_, huge.encode, ?_, fun hmatches => ?_⟩
  · exact reaches_turns [.save huge] [0, 0, 0, 0] (by rfl)
  · exact atRest_nil.cons ⟨_, rfl⟩
  · simp [hugeVersion, filled, MemoryCache.apply, MemoryCache.change, MemoryCache.peek?,
      MemoryCache.empty, Table.find?_insert, Table.find?_eraseIf, hne, CacheKey.not_fits_item]
    rfl
  · rcases hmatches.item _ rfl with ⟨s, -, hdecode⟩
    have hstorable : ¬ huge.Storable := by decide
    rw [StockItem.decode?_encode, if_neg hstorable] at hdecode
    cases hdecode

/--
No request fails and nothing is under way, and yet a text under the identity of an item is
outdated; so is one under the product that an item had; and one with a version that has the sign bit
is not even read.
-/
theorem incoherent_at_rest :
    Incoherent stocked.ledger lateCopy (CacheKey.item (StockItem.ten 1).id) ∧
      Incoherent stocked.ledger movedProduct (CacheKey.product (StockItem.ten 1).productId) ∧
      Incoherent .empty hugeVersion (CacheKey.item huge.id) :=
  ⟨incoherent_lateCopy, incoherent_movedProduct, incoherent_hugeVersion⟩

end Requesting
end StockLedger
