import Mathlib.Tactic.Common
import StockLedger.Proofs.Program.Safe
import StockLedger.Proofs.ReadThrough.Keys
import StockLedger.Proofs.Stock.Reservation
import StockLedger.Service.Claim

/-!
# What a program asks for

Some programs make requests of certain kinds only, whatever they are answered.

* `Setting.asking` : nothing is known about the replies;
* `Program.Within`, `Request.Within` : all requests are of one kind, and no program breaks off;
* `Program.Within.attempt_of_runOn`, `Program.Within.attempt_leaves` : a program that is broken off
  by other requests only, and what all its requests leave alone;
* `Call.keepsNothing`, `Call.sparesLists`, `Call.ofCache`, `Call.ofStock`, `Call.Settles`,
  `Call.ofWorkflow` : the requests to the cache that store nothing, those that store no list, all
  requests to the cache, those about items, those of a settlement, and those of all workflows;
* `spares_populate` : what is cached of an item is no list;
* `within_cached`, `cached_write` : the requests by which a ledger is read through a cache, and
  those that follow a write;
* `within_invalidate`, `within_ledger`, `within_settle` : there are no others;
* `settle_transition` : a settlement ends the claim that it was given.
-/

namespace StockLedger

open ReadThrough

/-- Only requests of one kind may be made, and they may be answered in any way. -/
def Setting.asking (S : Call → Prop) : Setting Unit where
  drifts _ _ := True
  allows _ c := S c
  mayBreak := False
  answers _ _ _ _ := True

/-- All requests of the program are of one kind, whatever it is answered. -/
abbrev Program.Within {α : Type} (S : Call → Prop) (p : Program α) : Prop :=
  p.Safe (.asking S) (fun _ _ => True) ()

def Request.Within {α : Type} (S : Call → Prop) (x : Request α) : Prop :=
  Program.Within S x.run

section

variable {α β : Type} {S : Call → Prop}

theorem Program.Within.bind {p : Program α} {f : α → Program β} (hp : p.Within S)
    (hf : ∀ a, (f a).Within S) : (p >>= f).Within S :=
  Program.Safe.bind hp fun a _ _ => hf a

theorem Program.within_ask {c : Call} (hc : S c) : (Program.ask c).Within S := by
  intro _ _
  exact ⟨hc, fun _ _ _ => trivial⟩

theorem Program.Within.head {c : Call} {next : c.Reply → Program α}
    (h : (Program.call c next).Within S) : S c ∧ ∀ r, (next r).Within S := by
  rcases h () trivial with ⟨hc, hnext⟩
  exact ⟨hc, fun r => hnext r () trivial⟩

theorem Program.Within.weaken {S' : Call → Prop} (hS : ∀ c, S c → S' c) {p : Program α}
    (h : p.Within S) : p.Within S' := by
  induction p with
  | done => exact trivial
  | call c next ih => exact fun _ _ => ⟨hS c h.head.1, fun r _ _ => ih r (h.head.2 r)⟩
  | abort => exact h

/-- Who is answered whatever requests of one kind come to is not broken off by them. -/
theorem Program.Within.attempt_of_runOn {σ : Type}
    {tell : σ → (c : Call) → Option c.Reply × σ} {answer? : σ → (c : Call) → Option (c.Reply × σ)}
    (htell : ∀ {s c r t}, S c → answer? s c = some (r, t) → tell s c = (some r, t))
    {p : Program α} (hp : p.Within S) {s t : σ} {a : α} (h : p.runOn answer? s = some (a, t)) :
    p.attempt tell s = (some a, t) := by
  induction p generalizing s with
  | done b =>
    cases h
    rfl
  | call c next ih =>
    rcases hp.head with ⟨hc, hnext⟩
    rcases Option.bind_eq_some_iff.1 h with ⟨⟨r, u⟩, hanswer, hrest⟩
    rw [attempt, htell hc hanswer]
    exact ih r (hnext r) hrest
  | abort => cases h

/-- What each request of one kind leaves as it is, a program of such requests leaves as it is. -/
theorem Program.Within.attempt_leaves {σ τ : Type} {tell : σ → (c : Call) → Option c.Reply × σ}
    (view : σ → τ) (htell : ∀ s c, S c → view (tell s c).2 = view s) {p : Program α}
    (hp : p.Within S) (s : σ) : view (p.attempt tell s).2 = view s := by
  induction p generalizing s with
  | done a => rfl
  | call c next ih =>
    rcases hp.head with ⟨hc, hnext⟩
    have hstep := htell s c hc
    rw [attempt]
    split
    · next r t hr =>
      rw [hr] at hstep
      exact (ih r (hnext r) t).trans hstep
    · next t hr =>
      rw [hr] at hstep
      exact hstep
  | abort => rfl

theorem Request.Within.bind {x : Request α} {f : α → Request β} (hx : x.Within S)
    (hf : ∀ a, (f a).Within S) : (x >>= f).Within S := by
  refine Program.Within.bind (p := x.run) hx fun a => ?_
  cases a with
  | ok v => exact hf v
  | error e => exact trivial

theorem Request.Within.weaken {S' : Call → Prop} (hS : ∀ c, S c → S' c) {x : Request α}
    (h : x.Within S) : x.Within S' :=
  Program.Within.weaken hS h

theorem Request.Within.safe {x : Request α} (hx : x.Within S) :
    x.Safe (.asking S) (fun _ _ => True) () :=
  Program.Safe.mono (fun _ _ _ _ _ => trivial) hx

theorem Request.within_lift {p : Program α} (hp : p.Within S) : (Request.lift p).Within S :=
  Program.Within.bind (p := p) hp fun _ => trivial

end

/-! ## Kinds of requests -/

/-- The requests to a cache that store nothing. -/
def Call.keepsNothing : Call → Bool
  | .cache (.get _) | .cache (.delete _) | .cache (.deletePattern _) | .log _ => true
  | .cache (.set _ _ _) | .ledger _ | .reservations _ | .publish _ | .now | .uptime | .freshUuid
  | .findExpiredWithin _ _ _ | .enterSweep | .leaveSweep | .recordSweep _ | .recordSkip => false

/-- The requests to a cache that store no list. -/
def Call.sparesLists : Call → Bool
  | .cache (.set key _ _) => !MemoryCache.fits CacheKey.allLowStock key
  | .cache (.get _) | .cache (.delete _) | .cache (.deletePattern _) | .log _ => true
  | .ledger _ | .reservations _ | .publish _ | .now | .uptime | .freshUuid
  | .findExpiredWithin _ _ _ | .enterSweep | .leaveSweep | .recordSweep _ | .recordSkip => false

/-- Does the request change what a ledger keeps? -/
def LedgerCall.writes : LedgerCall → Bool
  | save _ | update _ | delete _ | bumpVersion _ => true
  | load _ | findByProduct _ | findMany _ | findLowStock _ _ | count | hasProduct _ => false

/-- The requests by which a cache is used. -/
def Call.ofCache : Call → Bool
  | .cache _ | .log _ => true
  | .ledger _ | .reservations _ | .publish _ | .now | .uptime | .freshUuid
  | .findExpiredWithin _ _ _ | .enterSweep | .leaveSweep | .recordSweep _ | .recordSkip => false

/-- The requests by which items are read and written. -/
def Call.ofStock : Call → Bool
  | .ledger _ | .cache _ | .now | .log _ => true
  | .reservations _ | .freshUuid | .publish _ | .uptime | .findExpiredWithin _ _ _ | .enterSweep
  | .leaveSweep | .recordSweep _ | .recordSkip => false

/-- The requests by which a claim is settled: no other claim is concerned. -/
def Call.Settles (r : Reservation) (c : Call) : Prop :=
  c.ofStock = true ∨ ∃ r', c = .reservations (.update r') ∧ r'.id = r.id

/-- The requests of which workflows consist: nothing is announced, and no sweep is concerned. -/
def Call.ofWorkflow : Call → Bool
  | .ledger _ | .reservations _ | .cache _ | .now | .freshUuid | .log _ => true
  | .publish _ | .uptime | .findExpiredWithin _ _ _ | .enterSweep | .leaveSweep | .recordSweep _
  | .recordSkip => false

abbrev Program.KeepsNothing {α : Type} (p : Program α) : Prop :=
  p.Within fun c => c.keepsNothing = true

abbrev Program.SparesLists {α : Type} (p : Program α) : Prop :=
  p.Within fun c => c.sparesLists = true

abbrev Program.OfCache {α : Type} (p : Program α) : Prop :=
  p.Within fun c => c.ofCache = true

abbrev Program.OfWorkflow {α : Type} (p : Program α) : Prop :=
  p.Within fun c => c.ofWorkflow = true

abbrev Request.OfWorkflow {α : Type} (x : Request α) : Prop :=
  x.Within fun c => c.ofWorkflow = true

abbrev Program.OfStock {α : Type} (p : Program α) : Prop :=
  p.Within fun c => c.ofStock = true

abbrev Request.OfStock {α : Type} (x : Request α) : Prop :=
  x.Within fun c => c.ofStock = true

theorem Call.Settles.ofWorkflow {r : Reservation} {c : Call} (h : c.Settles r) :
    c.ofWorkflow = true := by
  rcases h with hstock | ⟨r', rfl, -⟩
  · cases c <;> first | rfl | cases hstock
  · rfl

theorem Call.sparesLists_of_keepsNothing (c : Call) (hc : c.keepsNothing = true) :
    c.sparesLists = true := by
  cases c with
  | cache c => cases c <;> first | rfl | cases hc
  | _ => first | rfl | cases hc

theorem Call.ofCache_of_keepsNothing (c : Call) (hc : c.keepsNothing = true) :
    c.ofCache = true := by
  cases c <;> first | rfl | cases hc

theorem Program.KeepsNothing.spares {α : Type} {p : Program α} (h : p.KeepsNothing) :
    p.SparesLists :=
  h.weaken Call.sparesLists_of_keepsNothing

theorem Program.SparesLists.ofCache {α : Type} {p : Program α} (h : p.SparesLists) :
    p.OfCache := by
  refine h.weaken fun c hc => ?_
  cases c <;> first | rfl | cases hc

theorem Program.KeepsNothing.ofCache {α : Type} {p : Program α} (h : p.KeepsNothing) :
    p.OfCache :=
  h.spares.ofCache

theorem Program.OfCache.ofStock {α : Type} {p : Program α} (h : p.OfCache) : p.OfStock := by
  refine h.weaken fun c hc => ?_
  cases c <;> first | rfl | cases hc

theorem Request.OfStock.settles {α : Type} {x : Request α} (h : x.OfStock) (r : Reservation) :
    x.Within (Call.Settles r) :=
  h.weaken fun _ => .inl

theorem Request.OfStock.ofWorkflow {α : Type} {x : Request α} (h : x.OfStock) : x.OfWorkflow := by
  refine h.weaken fun c hc => ?_
  cases c <;> first | rfl | cases hc

/-! ## The cache -/

theorem keepsNothing_log {level : LogLevel} {message : String} :
    (Program.log level message).KeepsNothing :=
  Program.within_ask rfl

theorem keepsNothing_forget (keys : List String) : (forget keys).KeepsNothing := by
  refine Program.Within.bind (Program.within_ask rfl) fun r => ?_
  match r with
  | .ok () => exact trivial
  | .error _ => exact keepsNothing_log

theorem keepsNothing_cachedItem (key : String) : (cachedItem key).KeepsNothing := by
  refine Program.Within.bind (Program.within_ask rfl) fun r => ?_
  match r with
  | .ok none => exact trivial
  | .ok (some text) =>
    cases hdecode : StockItem.decode? text with
    | some s =>
      simp only [hdecode]
      exact trivial
    | none =>
      -- A text that is no item is dropped.
      simp only [hdecode]
      refine keepsNothing_log.bind fun _ => ?_
      exact (keepsNothing_forget [key]).bind fun _ => trivial
  | .error _ => exact keepsNothing_log.bind fun _ => trivial

theorem keepsNothing_cachedItems (key : String) : (cachedItems key).KeepsNothing := by
  refine Program.Within.bind (Program.within_ask rfl) fun r => ?_
  match r with
  | .ok none => exact trivial
  | .ok (some text) =>
    cases hdecode : StockItem.decodeAll? text with
    | some xs =>
      simp only [hdecode]
      exact trivial
    | none =>
      simp only [hdecode]
      exact keepsNothing_log.bind fun _ => trivial
  | .error _ => exact keepsNothing_log.bind fun _ => trivial

theorem keepsNothing_forgetLists {onSuccess : Program Unit} (h : onSuccess.KeepsNothing) :
    (forgetLists onSuccess).KeepsNothing := by
  refine Program.Within.bind (Program.within_ask rfl) fun r => ?_
  match r with
  | .ok _ => exact h
  | .error _ => exact keepsNothing_log

theorem keepsNothing_invalidate (id : ItemId) (p : ProductId) : (invalidate id p).KeepsNothing :=
  (keepsNothing_forget _).bind fun _ => keepsNothing_forgetLists keepsNothing_log

/-! ## Items through the cache -/

section

variable {S : Call → Prop} {lifetimes : CacheLifetimes}

/-- Requests of a kind by which items can be cached, each for as long as items live. -/
structure Call.CachesItems (lifetimes : CacheLifetimes) (S : Call → Prop) : Prop where
  plain : ∀ c, c.keepsNothing = true → S c
  item : ∀ {key}, MemoryCache.fits CacheKey.allLowStock key = false →
    ∀ text, S (.cache (.set key text lifetimes.item))

theorem within_keeping (hplain : ∀ c, c.keepsNothing = true → S c) {key text : String} {ttl : Span}
    (hset : S (.cache (.set key text ttl))) : (keep key text ttl).Within S := by
  refine Program.Within.bind (Program.within_ask hset) fun r => ?_
  match r with
  | .ok () => exact trivial
  | .error _ => exact keepsNothing_log.weaken hplain

/-- What is cached of an item is no list. -/
theorem within_populating (hS : Call.CachesItems lifetimes S) (s : StockItem) :
    (populate lifetimes s).Within S :=
  (within_keeping hS.plain (hS.item (CacheKey.not_fits_item s.id) _)).bind fun _ =>
    within_keeping hS.plain (hS.item (CacheKey.not_fits_product s.productId) _)

theorem within_readItem (hS : Call.CachesItems lifetimes S) {key : String}
    {fetch : Program (Answer StockItem)} (h : fetch.Within S) :
    (readItem lifetimes key fetch).Within S := by
  have hcached : (cachedItem key).Within S := (keepsNothing_cachedItem key).weaken hS.plain
  refine hcached.bind fun a => ?_
  match a with
  | some s => exact trivial
  | none =>
    refine h.bind fun r => ?_
    match r with
    | .ok s => exact (within_populating hS s).bind fun _ => trivial
    | .error f => exact trivial

theorem within_readLowStock (hplain : ∀ c, c.keepsNothing = true → S c)
    (hlist : ∀ key text, S (.cache (.set key text lifetimes.lowStock))) {key : String}
    {fetch : Program (Answer (List StockItem))} (h : fetch.Within S) :
    (readLowStock lifetimes key fetch).Within S := by
  have hcached : (cachedItems key).Within S := (keepsNothing_cachedItems key).weaken hplain
  refine hcached.bind fun a => ?_
  match a with
  | some xs => exact trivial
  | none =>
    refine h.bind fun r => ?_
    match r with
    | .ok xs => exact (within_keeping hplain (hlist _ _)).bind fun _ => trivial
    | .error f => exact trivial

theorem within_readHasProduct (hplain : ∀ c, c.keepsNothing = true → S c) {key : String}
    {fetch : Program (Answer Bool)} (h : fetch.Within S) : (readHasProduct key fetch).Within S := by
  have hlog : (Program.log .warn "cache read failed; falling back to store").Within S :=
    keepsNothing_log.weaken hplain
  refine Program.Within.bind (Program.within_ask (hplain _ rfl)) fun r => ?_
  match r with
  | .ok (some _) => exact trivial
  | .ok none => exact h
  | .error _ => exact hlog.bind fun _ => h

theorem within_writeNew (hS : Call.CachesItems lifetimes S) {s : StockItem}
    {store : Program (Answer Unit)} (h : store.Within S) :
    (writeNew lifetimes s store).Within S := by
  refine h.bind fun r => ?_
  match r with
  | .ok () =>
    have hlists : (forgetLists (return)).KeepsNothing := keepsNothing_forgetLists trivial
    refine (within_populating hS s).bind fun _ => ?_
    exact Program.Within.bind (hlists.weaken hS.plain) fun _ => trivial
  | .error f => exact trivial

theorem within_writeConditional (hplain : ∀ c, c.keepsNothing = true → S c)
    {store : Program Written} (h : store.Within S) : (writeConditional store).Within S := by
  refine h.bind fun w => ?_
  have hinvalidate : (invalidate w.item.id w.item.productId).Within S :=
    (keepsNothing_invalidate _ _).weaken hplain
  -- Only a write that shows that the cached copy is outdated is followed by more requests.
  split
  · exact hinvalidate.bind fun _ => trivial
  · exact trivial

theorem within_writeOver (hplain : ∀ c, c.keepsNothing = true → S c)
    {store : Program (Answer StockItem)} (h : store.Within S) : (writeOver store).Within S := by
  refine h.bind fun r => ?_
  match r with
  | .ok s =>
    have hinvalidate : (invalidate s.id s.productId).Within S :=
      (keepsNothing_invalidate _ _).weaken hplain
    exact hinvalidate.bind fun _ => trivial
  | .error f => exact trivial

/-- The requests by which one request to a ledger is made through a cache. -/
theorem within_cached (hS : Call.CachesItems lifetimes S)
    (hlist : ∀ key text, S (.cache (.set key text lifetimes.lowStock))) {c : LedgerCall}
    (hc : S (.ledger c)) : (LedgerAccess.cached lifetimes c).Within S := by
  have hdirect : (LedgerAccess.direct c).Within S := Program.within_ask hc
  cases c with
  | load | findByProduct => exact within_readItem hS hdirect
  | findMany | count => exact hdirect
  | findLowStock => exact within_readLowStock hS.plain hlist hdirect
  | hasProduct => exact within_readHasProduct hS.plain hdirect
  | save => exact within_writeNew hS hdirect
  | update => exact within_writeConditional hS.plain hdirect
  | delete | bumpVersion => exact within_writeOver hS.plain hdirect

end

/-! ## Kinds of requests to the cache -/

theorem Call.cachesItems_spares (lifetimes : CacheLifetimes) :
    Call.CachesItems lifetimes fun c => c.sparesLists = true where
  plain := Call.sparesLists_of_keepsNothing
  item hkey text := by
    rw [Call.sparesLists, hkey]
    rfl

theorem Call.cachesItems_ofCache (lifetimes : CacheLifetimes) :
    Call.CachesItems lifetimes fun c => c.ofCache = true where
  plain := Call.ofCache_of_keepsNothing
  item _ _ := rfl

theorem Call.cachesItems_ofStock (lifetimes : CacheLifetimes) :
    Call.CachesItems lifetimes fun c => c.ofStock = true where
  plain c hc := by cases c <;> first | rfl | cases hc
  item _ _ := rfl

section

variable {lifetimes : CacheLifetimes}

theorem spares_log {level : LogLevel} {message : String} :
    (Program.log level message).SparesLists :=
  keepsNothing_log.spares

theorem within_log {level : LogLevel} {message : String} :
    (Program.log level message).OfCache :=
  keepsNothing_log.ofCache

theorem spares_forget (keys : List String) : (forget keys).SparesLists :=
  (keepsNothing_forget keys).spares

theorem within_forget (keys : List String) : (forget keys).OfCache :=
  (keepsNothing_forget keys).ofCache

theorem within_cachedItem (key : String) : (cachedItem key).OfCache :=
  (keepsNothing_cachedItem key).ofCache

theorem within_cachedItems (key : String) : (cachedItems key).OfCache :=
  (keepsNothing_cachedItems key).ofCache

theorem within_keep (key text : String) (ttl : Span) : (keep key text ttl).OfCache :=
  within_keeping Call.ofCache_of_keepsNothing rfl

theorem spares_populate (s : StockItem) : (populate lifetimes s).SparesLists :=
  within_populating (Call.cachesItems_spares lifetimes) s

theorem within_populate (s : StockItem) : (populate lifetimes s).OfCache :=
  (spares_populate s).ofCache

theorem within_invalidate (id : ItemId) (p : ProductId) : (invalidate id p).OfCache :=
  (keepsNothing_invalidate id p).ofCache

/-- A write asks the ledger at once, and all that follows is asked of the cache. -/
theorem cached_write (lifetimes : CacheLifetimes) {c : LedgerCall} (hc : c.writes = true) :
    ∃ next, LedgerAccess.cached lifetimes c = .call (.ledger c) next ∧ ∀ r, (next r).OfCache := by
  have hcache := Call.cachesItems_ofCache lifetimes
  cases c with
  | save s =>
    exact ⟨fun r => writeNew lifetimes s (.done r), rfl, fun r => within_writeNew hcache trivial⟩
  | update s =>
    exact ⟨fun w => writeConditional (.done w), rfl,
      fun w => within_writeConditional hcache.plain trivial⟩
  | delete id | bumpVersion id =>
    exact ⟨fun r => writeOver (.done r), rfl, fun r => within_writeOver hcache.plain trivial⟩
  | load | findByProduct | findMany | findLowStock | count | hasProduct => cases hc

theorem within_direct (c : LedgerCall) : (LedgerAccess.direct c).OfStock :=
  Program.within_ask rfl

theorem within_ledger (stack : Stack) (c : LedgerCall) : (stack.ledger c).OfStock := by
  cases stack with
  | plain => exact within_direct c
  | cached lifetimes =>
    exact within_cached (Call.cachesItems_ofStock lifetimes) (fun _ _ => rfl) rfl

end

/-! ## Claims -/

theorem within_now : Service.now.OfStock := by
  have hask : (Program.ask .now).OfStock := Program.within_ask rfl
  exact Request.within_lift hask

theorem within_report {level : LogLevel} {message : String} :
    (Service.log level message).OfStock :=
  Request.within_lift within_log.ofStock

theorem within_item {v : Service} {stack : Stack} (hv : v.ledger = stack.ledger) (id : ItemId) :
    (v.item id).OfStock := by
  have hload := within_ledger stack (.load id)
  rw [← hv] at hload
  exact hload

theorem within_write {v : Service} {stack : Stack} (hv : v.ledger = stack.ledger) (u : StockItem) :
    (v.write u).OfStock := by
  have hupdate := within_ledger stack (.update u)
  rw [← hv] at hupdate
  exact hupdate.bind fun _ => trivial

theorem within_reservations (c : ReservationCall) : (Service.reservations c).OfWorkflow :=
  Program.within_ask rfl

/-- The last request of a settlement writes the claim that was settled. -/
theorem within_overwrite {message : String} {r r' : Reservation} (hid : r'.id = r.id) :
    (Service.reporting message (Service.reservations (.update r'))).Within (Call.Settles r) := by
  have hask : (Program.ask (.reservations (.update r'))).Within (Call.Settles r) :=
    Program.within_ask (.inr ⟨r', rfl, hid⟩)
  refine hask.bind fun a => ?_
  match a with
  | .ok v => exact trivial
  | .error f =>
    refine Program.Within.bind (Program.within_ask (.inl rfl)) fun _ => ?_
    exact trivial

section

variable {v : Service} {stack : Stack}

/-- A settlement ends the claim that it was given. -/
theorem settle_transition (hv : v.ledger = stack.ledger) (k : Settlement) (r : Reservation) :
    (v.settle k r).Safe (.asking (Call.Settles r)) (fun p _ => ∃ t, k.transition r t = .ok p.1)
      () := by
  refine (within_now.settles r).safe.bind fun t _ _ => ?_
  refine Request.safe_ofAnswer_bind fun _ _ => ?_
  refine ((within_item hv _).settles r).safe.bind fun s _ _ => ?_
  refine Request.safe_ofAnswer_bind fun u _ => ?_
  refine Request.safe_ofAnswer_bind fun r' hr' => ?_
  refine ((within_write hv u).settles r).safe.bind fun s' _ _ => ?_
  refine (within_overwrite (k.transition_ok hr').1.id).safe.bind fun _ _ _ => ?_
  refine (within_report.settles r).safe.bind fun _ _ _ => ?_
  exact Request.safe_pure ⟨t, hr'⟩

theorem within_settle (hv : v.ledger = stack.ledger) (k : Settlement) (r : Reservation) :
    (v.settle k r).Within (Call.Settles r) :=
  Program.Safe.mono (fun _ _ _ => trivial) (settle_transition hv k r)

theorem within_release (hv : v.ledger = stack.ledger) (id : ReservationId) :
    (v.release id).OfWorkflow := by
  refine (within_reservations _).bind fun r => ?_
  have hsettle : (v.settle .release r).OfWorkflow :=
    (within_settle hv .release r).weaken fun _ => Call.Settles.ofWorkflow
  exact hsettle.bind fun _ => trivial

end
end StockLedger
