import Mathlib.Tactic.Common
import StockLedger.Proofs.Rehearsal.Twins
import StockLedger.Proofs.Service.Workflows

/-!
# Trying again after a lost race

A workflow that works on a copy from the cache may find that the copy is outdated only when it
writes. It then ends in a conflict, and the copy is dropped; when it is tried again it reads what
the ledger has.

* `Workflow.rewrites`, `Workflow.key?` : the workflows that write an item which they have read, and
  the key under which they look for it in the cache;
* `MemoryCache.Labelled` : copies are kept under their own identity and product;
* `Retrying.agree_workflow` : without a copy a workflow does the same through the cache and
  without it;
* `Retrying.blames_workflow` : a conflict is the fault of a copy, which is gone then;
* `retry_sees_the_ledger` : what a workflow comes to when it is tried again after a conflict.
-/

namespace StockLedger

/-! ## Workflows and copies -/

/-- Does the workflow write an item which it has read? -/
def Workflow.rewrites : Workflow → Bool
  | addStock _ _ | removeStock _ _ | reserve _ _ _ _ | confirm _ | release _ | expire _ => true
  | createItem _ _ | extend _ _ | deleteItem _ | bumpItem _ => false

/-- The key under which such a workflow looks for its item. -/
def Workflow.key? (m : MemoryReservations) : Workflow → Option String
  | addStock p _ | removeStock p _ | reserve p _ _ _ => some (CacheKey.product p)
  | confirm id | release id => (m.rows.find? id).map fun r => CacheKey.item r.itemId
  | expire r => some (CacheKey.item r.itemId)
  | createItem _ _ | extend _ _ | deleteItem _ | bumpItem _ => none

/-- Living copies are kept under their own identity and under their own product. -/
structure MemoryCache.Labelled (c : MemoryCache) (uptime : Nat) : Prop where
  item : ∀ id x, c.item? uptime (CacheKey.item id) = some x → x.id = id
  product : ∀ p x, c.item? uptime (CacheKey.product p) = some x → x.productId = p

namespace Retrying

open ReadThrough Rereading

variable {α β : Type} {s t s₁ : Stage} {lifetimes : CacheLifetimes} {ttl : Span}
  {key? : Option String}

/-! ## With the cache and without it -/

/-- The service that asks the ledger through the cache, or without it. -/
abbrev service (stack : Stack) (ttl : Span) : Service :=
  { ledger := stack.ledger, defaultTtl := ttl }

theorem mirrors_write (u : StockItem) :
    ((service (.cached lifetimes) ttl).write u).Mirrors Answering Answering
      ((service .plain ttl).write u) :=
  Program.Mirrors.bind (p := LedgerAccess.cached lifetimes (.update u)) (mirrors_update u)
    fun _ => Program.mirrors_done (fun _ h => h) _

theorem mirrors_changeStock {change : StockItem.Change} {message : String} {p : ProductId}
    {units : Int} (hkey : key? = some (CacheKey.product p)) :
    ((service (.cached lifetimes) ttl).changeStock change message p units).Mirrors (Lacking key?)
      Answering ((service .plain ttl).changeStock change message p units) := by
  have hitem : ((service (.cached lifetimes) ttl).itemOf p).Mirrors (Lacking key?) Answering
      ((service .plain ttl).itemOf p) := mirrors_findByProduct hkey
  refine hitem.bind (fun _ h => h) fun x => ?_
  refine (Request.mirrors_ofAnswer _).bind (fun _ h => h) fun u => ?_
  refine (mirrors_write u).bind (fun _ h => h) fun y => ?_
  exact mirrors_report.bind (fun _ h => h) fun _ => Request.mirrors_pure y

theorem mirrors_reserve {p : ProductId} {order : OrderId} {units : Int} {span : Option Span}
    (hkey : key? = some (CacheKey.product p)) :
    ((service (.cached lifetimes) ttl).reserve p order units span).Mirrors (Lacking key?)
      Answering ((service .plain ttl).reserve p order units span) := by
  have hlacking (c : MemoryCache) (h : Lacking key? c) : c.online = true := h.1
  unfold Service.reserve
  split
  · exact Program.mirrors_done hlacking _
  have hunclaimed : (Service.ensureUnclaimed order).Mirrors (Lacking key?) (Lacking key?)
      (Service.ensureUnclaimed order) := by
    refine (mirrors_reservations (.findByOrder order)).bind (fun _ h => h) fun found => ?_
    cases found with
    | some r => exact Request.mirrors_ofAnswer (.error _)
    | none => exact Request.mirrors_pure ()
  have hitem : ((service (.cached lifetimes) ttl).itemOf p).Mirrors (Lacking key?) Answering
      ((service .plain ttl).itemOf p) := mirrors_findByProduct hkey
  refine hunclaimed.bind hlacking fun _ => ?_
  refine hitem.bind (fun _ h => h) fun x => ?_
  refine (Request.mirrors_ofAnswer _).bind (fun _ h => h) fun u => ?_
  refine mirrors_now.bind (fun _ h => h) fun now => ?_
  refine mirrors_freshUuid.bind (fun _ h => h) fun id => ?_
  refine (mirrors_inRange _).bind (fun _ h => h) fun r => ?_
  refine (mirrors_write u).bind (fun _ h => h) fun y => ?_
  refine (mirrors_reporting (mirrors_reservations _)).bind (fun _ h => h) fun _ => ?_
  exact mirrors_report.bind (fun _ h => h) fun _ => Request.mirrors_pure _

theorem mirrors_settle {k : Settlement} {r : Reservation}
    (hkey : key? = some (CacheKey.item r.itemId)) :
    ((service (.cached lifetimes) ttl).settle k r).Mirrors (Lacking key?) Answering
      ((service .plain ttl).settle k r) := by
  have hlacking (c : MemoryCache) (h : Lacking key? c) : c.online = true := h.1
  have hitem : ((service (.cached lifetimes) ttl).item r.itemId).Mirrors (Lacking key?) Answering
      ((service .plain ttl).item r.itemId) := mirrors_load hkey
  refine mirrors_now.bind hlacking fun now => ?_
  refine (Request.mirrors_ofAnswer _).bind hlacking fun _ => ?_
  refine hitem.bind (fun _ h => h) fun x => ?_
  refine (Request.mirrors_ofAnswer _).bind (fun _ h => h) fun u => ?_
  refine (Request.mirrors_ofAnswer _).bind (fun _ h => h) fun r' => ?_
  refine (mirrors_write u).bind (fun _ h => h) fun y => ?_
  refine (mirrors_reporting (mirrors_reservations _)).bind (fun _ h => h) fun _ => ?_
  exact mirrors_report.bind (fun _ h => h) fun _ => Request.mirrors_pure _

variable (lifetimes ttl) in
/-- Without a copy of its item a workflow does the same through the cache and without it. -/
theorem agree_workflow {w : Workflow} (hw : w.rewrites = true)
    (hst : Twins (Lacking (w.key? s.reservations)) s t) :
    Program.Agree Answering (w.request (service (.cached lifetimes) ttl)).run
      (w.request (service .plain ttl)).run s t := by
  have looked_up (k : Settlement) (id : ReservationId)
      (hst : Twins (Lacking ((s.reservations.rows.find? id).map fun r => CacheKey.item r.itemId))
        s t) :
      Program.Agree Answering
        (Service.reservations (.load id) >>= fun r =>
          (service (.cached lifetimes) ttl).settle k r >>= fun p => pure p.1).run
        (Service.reservations (.load id) >>= fun r =>
          (service .plain ttl).settle k r >>= fun p => pure p.1).run s t := by
    refine hst.load_bind (fun _ h => h.1) fun r hr => ?_
    have hkey := congrArg (Option.map fun r => CacheKey.item r.itemId)
      (MemoryReservations.find?_of_load hr)
    exact (mirrors_settle hkey).bind (fun _ h => h) fun _ => Request.mirrors_pure _
  cases w with
  | addStock p units => exact mirrors_changeStock rfl s t hst
  | removeStock p units => exact mirrors_changeStock rfl s t hst
  | reserve p order units span => exact mirrors_reserve rfl s t hst
  | confirm id => exact looked_up .confirm id hst
  | release id => exact looked_up .release id hst
  | expire r => exact mirrors_settle rfl s t hst
  | createItem | extend | deleteItem | bumpItem => cases hw

/-! ## Refusals that are no conflict -/

/-- Nothing is refused because of a lost race. -/
def Harmless (a : Answer α) : Prop :=
  ∀ f, a = .error f → f.code ≠ .versionConflict

theorem harmless_ok (v : α) : Harmless (.ok v : Answer α) :=
  nofun

theorem harmless_error {f : Fault} (h : f.code ≠ .versionConflict) :
    Harmless (.error f : Answer α) := by
  rintro _ ⟨⟩
  exact h

theorem Harmless.map {a : Answer α} (h : Harmless a) (f : α → β) : Harmless (a.map f) := by
  cases a with
  | ok v => exact harmless_ok _
  | error e => exact harmless_error (h e rfl)

theorem harmless_dite {p : Prop} [Decidable p] {a : p → Answer α} {b : ¬ p → Answer α}
    (ha : ∀ h, Harmless (a h)) (hb : ∀ h, Harmless (b h)) :
    Harmless (if h : p then a h else b h) := by
  split
  · exact ha _
  · exact hb _

theorem harmless_apply (x : StockItem) (change : StockItem.Change) (units : Int) :
    Harmless (x.apply change units) := by
  cases change with
  | reserve | release | add | decrement =>
    refine harmless_dite (fun _ => harmless_dite (fun _ => harmless_ok _) fun _ => ?_) fun _ => ?_
    · exact harmless_error nofun
    · exact harmless_error nofun
  | confirm =>
    refine harmless_dite (fun _ => harmless_dite (fun _ => ?_) fun _ => ?_) fun _ => ?_
    · exact harmless_dite (fun _ => harmless_ok _) fun _ => harmless_error nofun
    · exact harmless_error nofun
    · exact harmless_error nofun

theorem harmless_ensure (k : Settlement) (r : Reservation) (now : Timestamp) :
    Harmless (k.ensure r now) := by
  cases k with
  | confirm =>
    refine harmless_dite (fun _ => harmless_error nofun) fun _ => ?_
    exact harmless_dite (fun _ => harmless_error nofun) fun _ => harmless_ok _
  | release => exact harmless_dite (fun _ => harmless_ok _) fun _ => harmless_error nofun
  | expire =>
    refine harmless_dite (fun _ => harmless_error nofun) fun _ => ?_
    exact harmless_dite (fun _ => harmless_ok _) fun _ => harmless_error nofun

theorem harmless_guard (k : Settlement) (r : Reservation) (now : Timestamp) :
    Harmless (k.guard r now) := by
  cases k with
  | confirm => exact harmless_ensure .confirm r now
  | release => exact harmless_ensure .release r now
  | expire => exact harmless_ok ()

theorem harmless_open {id : ReservationId} {i : ItemId} {o : OrderId} {units : Int} {span : Span}
    {now : Timestamp} {a : Answer Reservation}
    (h : Reservation.open? id i o units span now = some a) : Harmless a := by
  unfold Reservation.open? at h
  split at h
  · split at h
    · rcases Option.map_eq_some_iff.1 h with ⟨_, -, rfl⟩
      exact harmless_ok _
    · cases h
      exact harmless_error (by rintro ⟨⟩)
  · cases h
    exact harmless_error (by rintro ⟨⟩)

theorem harmless_reservations (m : MemoryReservations) (c : ReservationCall) :
    Harmless (m.reply c) := by
  cases c with
  | load id =>
    change Harmless (m.load id)
    unfold MemoryReservations.load
    split
    · exact harmless_ok _
    · exact harmless_error nofun
  | save r =>
    have hsave : Harmless (m.save r) :=
      harmless_dite (fun _ => harmless_error nofun) fun _ => harmless_ok _
    exact hsave.map _
  | update r =>
    have hupdate : Harmless (m.update r) :=
      harmless_dite (fun _ => harmless_ok _) fun _ => harmless_error nofun
    exact hupdate.map _
  | findByOrder | findExpired | findByItem | count => exact harmless_ok _

theorem harmless_load (l : MemoryLedger) (id : ItemId) : Harmless (l.load id) := by
  unfold MemoryLedger.load
  split
  · exact harmless_ok _
  · exact harmless_error nofun

theorem harmless_findByProduct (l : MemoryLedger) (p : ProductId) :
    Harmless (l.findByProduct p) := by
  unfold MemoryLedger.findByProduct
  split
  · exact harmless_ok _
  · exact harmless_error nofun

/-! ## Where a conflict comes from -/

/-- Since then identities were drawn, the cache was used and things were reported, but no more. -/
structure Still (s s' : Stage) : Prop where
  cues : s'.cues = []
  scenery : s'.scenery = { s.scenery with ids := s'.ids, cache := s'.cache, log := s'.log }
  online : s'.cache.online = s.cache.online

theorem Still.apart (h : Still s s₁) (h' : Apart s₁ t) : Still s t where
  cues := h'.cues_nil h.cues
  scenery := by
    have hids : t.ids = s₁.ids := congrArg Scenery.ids h'.scenery
    rw [h'.scenery, h.scenery, hids]
  online := h'.online.trans h.online

/-- What is more, the cache was not used. -/
structure Unread (s s' : Stage) : Prop extends Still s s' where
  cache : s'.cache = s.cache

/--
A conflict is the fault of a copy from the cache, the rows are as they were, and there is no copy
under the key any more.
-/
def Blames (stack : Stack) (key? : Option String) (s : Stage) (a : Answer α) (s' : Stage) : Prop :=
  ∀ f, a = .error f → f.code = .versionConflict →
    (∃ lifetimes, stack = .cached lifetimes) ∧ Still s s' ∧ Lacking key? s'.cache

/-- The ledger is in order, and so is the cache if it is used. -/
structure Orderly (stack : Stack) (s : Stage) : Prop where
  keyed : s.ledger.Keyed
  online : ∀ lifetimes, stack = .cached lifetimes → s.cache.online = true
  labels : ∀ lifetimes, stack = .cached lifetimes → s.cache.Labelled s.uptime

/-- A request that is not refused as a conflict, with a promise about its success. -/
structure Clear (P : α → Stage → Prop) (a : Answer α) (s : Stage) : Prop where
  ok : ∀ v, a = .ok v → P v s
  harmless : Harmless a

variable {stack : Stack}

/-- A request that meets no conflict does not decide who is to blame. -/
theorem blames_bind {P : α → Stage → Prop} {x : Request α} {f : α → Request β}
    (hx : x.run.Safe (Stage.setting True) (Clear P) s₁)
    (hf : ∀ v s₂, P v s₂ → (f v).run.Safe (Stage.setting True) (Blames stack key? s) s₂) :
    (x >>= f).run.Safe (Stage.setting True) (Blames stack key? s) s₁ := by
  refine Request.safe_run_bind hx (fun v s₂ hv => hf v s₂ (hv.ok v rfl)) fun e s₂ he => ?_
  intro f hf hcode
  cases hf
  exact absurd hcode (he.harmless e rfl)

/-- No conflict is met, and no cue waits. -/
def Mild (a : Answer α) (s : Stage) : Prop :=
  Harmless a ∧ s.cues = []

/-- Whoever is to blame for a request is to blame also if nothing after it meets a conflict. -/
theorem blames_then {x : Request α} {f : α → Request β}
    (hx : x.run.Safe (Stage.setting True)
      (fun a s₂ => Blames stack key? s a s₂ ∧ s₂.cues = []) s₁)
    (hf : ∀ v s₂, s₂.cues = [] → (f v).run.Safe (Stage.setting True) Mild s₂) :
    (x >>= f).run.Safe (Stage.setting True) (Blames stack key? s) s₁ := by
  refine Request.safe_run_bind hx (fun v s₂ hs₂ => ?_) fun e s₂ he => ?_
  · exact (hf v s₂ hs₂.2).mono fun a s' ha f hf hcode => absurd hcode (ha.1 f hf)
  · rintro f ⟨⟩ hcode
    exact he.1 e rfl hcode

theorem mild_then {x : Request α} {f : α → Request β} (hx : x.run.Safe (Stage.setting True) Mild s₁)
    (hf : ∀ v s₂, s₂.cues = [] → (f v).run.Safe (Stage.setting True) Mild s₂) :
    (x >>= f).run.Safe (Stage.setting True) Mild s₁ :=
  Request.safe_run_bind hx (fun v s₂ hs₂ => hf v s₂ hs₂.2) fun e _ he =>
    ⟨harmless_error (he.1 e rfl), he.2⟩

/-- What is made of the outcome in the end does not matter. -/
theorem blames_map {x : Request α} (f : α → β)
    (hx : x.run.Safe (Stage.setting True) (Blames stack key? s) s₁) :
    (x >>= fun v => pure (f v)).run.Safe (Stage.setting True) (Blames stack key? s) s₁ := by
  refine Request.safe_run_bind hx (fun v s₂ _ => ?_) fun e s₂ he => ?_
  · exact fun _ h => nomatch h
  · rintro f ⟨⟩ hcode
    exact he e rfl hcode

/-! ## Requests before the write -/

theorem Still.refl (hcues : s.cues = []) : Still s s :=
  ⟨hcues, rfl, rfl⟩

theorem Unread.refl (hcues : s.cues = []) : Unread s s :=
  ⟨.refl hcues, rfl⟩

theorem Unread.later (h : Unread s s₁) (ht : Still s t ∧ t.cache = s₁.cache) : Unread s t :=
  ⟨ht.1, ht.2.trans h.cache⟩

/-- A request that neither changes a store nor uses the cache. -/
theorem safe_ask_still {c : Call} (hs : Still s s₁)
    (hc : ∃ ids log, (s₁.perform c).2.scenery = { s₁.scenery with ids, log }) :
    (Program.ask c).Safe (Stage.setting True)
      (fun r s₂ => r = (s₁.perform c).1 ∧ Still s s₂ ∧ s₂.cache = s₁.cache) s₁ := by
  rcases s₁.serve_of_cues_nil hs.cues c with ⟨hreply, hscenery, hcues⟩
  rcases hc with ⟨ids, log, hafter⟩
  have hsame := hscenery.trans hafter
  have hids : (s₁.serve c).2.ids = ids := congrArg Scenery.ids hsame
  have hlog : (s₁.serve c).2.log = log := congrArg Scenery.log hsame
  have hcache : (s₁.serve c).2.cache = s₁.cache := congrArg Scenery.cache hsame
  have hstill : Still s (s₁.serve c).2 := by
    refine ⟨hcues, ?_, (congrArg MemoryCache.online hcache).trans hs.online⟩
    rw [hsame, hs.scenery, hids, hlog, hcache]
  exact Stage.safe_ask ⟨hreply, hstill, hcache⟩

theorem clear_now (hs : Still s s₁) :
    Service.now.run.Safe (Stage.setting True)
      (Clear fun _ s₂ => Still s s₂ ∧ s₂.cache = s₁.cache) s₁ := by
  refine (safe_ask_still (c := .now) hs ⟨_, _, rfl⟩).bind fun t s₂ hs₂ => ?_
  exact ⟨fun _ _ => hs₂.2, harmless_ok t⟩

theorem clear_freshUuid (hs : Still s s₁) :
    Service.freshUuid.run.Safe (Stage.setting True)
      (Clear fun _ s₂ => Still s s₂ ∧ s₂.cache = s₁.cache) s₁ := by
  refine (safe_ask_still (c := .freshUuid) hs ⟨_, _, rfl⟩).bind fun id s₂ hs₂ => ?_
  exact ⟨fun _ _ => hs₂.2, harmless_ok id⟩

theorem clear_load_claim (hs : Unread s s₁) (id : ReservationId) :
    (Service.reservations (.load id)).run.Safe (Stage.setting True)
      (Clear fun r s₂ => s.reservations.load id = .ok r ∧ Unread s s₂) s₁ := by
  refine (safe_ask_still (c := .reservations (.load id)) hs.toStill ⟨_, _, rfl⟩).mono ?_
  rintro a s₂ ⟨ha, hs₂⟩
  have hclaims : s₁.reservations = s.reservations := congrArg Scenery.reservations hs.scenery
  have hreply : a = s.reservations.load id := ha.trans (congrArg (·.load id) hclaims)
  exact ⟨fun v hv => ⟨hreply.symm.trans hv, hs.later hs₂⟩,
    hreply ▸ harmless_reservations s.reservations (.load id)⟩

theorem clear_unclaimed (hs : Unread s s₁) (order : OrderId) :
    (Service.ensureUnclaimed order).run.Safe (Stage.setting True)
      (Clear fun _ s₂ => Unread s s₂) s₁ := by
  refine Program.Safe.bind (safe_ask_still (c := .reservations (.findByOrder order)) hs.toStill
    ⟨_, _, rfl⟩) ?_
  rintro a s₂ ⟨rfl, hs₂⟩
  change Program.Safe _ _ (ExceptT.bindCont _ (.ok (s₁.reservations.findByOrder order))) s₂
  cases s₁.reservations.findByOrder order with
  | some r => exact ⟨nofun, harmless_error nofun⟩
  | none => exact ⟨fun _ _ => hs.later hs₂, harmless_ok ()⟩

theorem clear_ofAnswer {P : Stage → Prop} {a : Answer α} (ha : Harmless a) (hs : P s₁) :
    (Request.ofAnswer a).run.Safe (Stage.setting True)
      (Clear fun v s₂ => a = .ok v ∧ P s₂) s₁ :=
  ⟨fun _ hv => ⟨hv, hs⟩, ha⟩

theorem clear_inRange {P : Stage → Prop} {a? : Option (Answer α)}
    (ha : ∀ a, a? = some a → Harmless a) (hs : P s₁) :
    (Service.inRange a?).run.Safe (Stage.setting True) (Clear fun _ s₂ => P s₂) s₁ := by
  cases a? with
  | some a => exact ⟨fun _ _ => hs, ha a rfl⟩
  | none => exact trivial

/-! ## The item that is read -/

/-- The ledger has this item, or the cache had it under the key. -/
def Source (stack : Stack) (key? : Option String) (s : Stage) (x : StockItem) : Prop :=
  s.ledger.items.find? x.id = some x ∨
    (∃ lifetimes, stack = .cached lifetimes) ∧
      ∀ key, key? = some key → key = CacheKey.item x.id ∨ key = CacheKey.product x.productId

/-- What is read through a stack, if the ledger and the copies are in order. -/
theorem safe_read (access : LedgerAccess → Program (Answer StockItem)) {key : String}
    {a : Answer StockItem}
    (hplain : (access LedgerAccess.direct).Safe (Stage.setting True)
      (fun r s₂ => Apart s₁ s₂ ∧ r = a) s₁)
    (hcached : ∀ lifetimes, stack = .cached lifetimes →
      (access (LedgerAccess.cached lifetimes)).Safe (Stage.setting True)
        (fun r s₂ => Apart s₁ s₂ ∧ r = (s₁.cache.item? s₁.uptime key).elim a .ok) s₁)
    (hs : Still s s₁) (ha : Harmless a)
    (hstored : ∀ x, a = .ok x → s.ledger.items.find? x.id = some x)
    (hlabel : ∀ lifetimes, stack = .cached lifetimes →
      ∀ x, s₁.cache.item? s₁.uptime key = some x →
        key = CacheKey.item x.id ∨ key = CacheKey.product x.productId) :
    (access stack.ledger).Safe (Stage.setting True)
      (Clear fun x s₂ => Source stack (some key) s x ∧ Still s s₂) s₁ := by
  have hasked (s₂ : Stage) (hs₂ : Apart s₁ s₂) :
      Clear (fun x s₂ => Source stack (some key) s x ∧ Still s s₂) a s₂ :=
    ⟨fun x hx => ⟨.inl (hstored x hx), hs.apart hs₂⟩, ha⟩
  cases stack with
  | plain =>
    refine hplain.mono fun r s₂ hr => ?_
    rw [hr.2]
    exact hasked s₂ hr.1
  | cached lifetimes =>
    refine (hcached lifetimes rfl).mono fun r s₂ hr => ?_
    rw [hr.2]
    cases hcopy : s₁.cache.item? s₁.uptime key with
    | none => exact hasked s₂ hr.1
    | some x =>
      -- Nothing is known of a copy but where it was found, and that is what will be dropped.
      refine ⟨?_, harmless_ok x⟩
      rintro _ ⟨⟩
      refine ⟨.inr ⟨⟨lifetimes, rfl⟩, ?_⟩, hs.apart hr.1⟩
      rintro _ ⟨⟩
      exact hlabel lifetimes rfl x hcopy

section

variable (horder : Orderly stack s) (hs : Unread s s₁)

include horder hs

theorem clear_item (id : ItemId) :
    ((service stack ttl).item id).run.Safe (Stage.setting True)
      (Clear fun x s₂ => Source stack (some (CacheKey.item id)) s x ∧ Still s s₂) s₁ := by
  have hledger : s₁.ledger = s.ledger := congrArg Scenery.ledger hs.scenery
  have huptime : s₁.uptime = s.uptime := congrArg Scenery.uptime hs.scenery
  have hcalm := calm_of_cues_nil hs.cues
  refine safe_read (fun ask => ask (.load id)) (a := s.ledger.load id)
    ?_ (fun lifetimes hstack => ?_) hs.toStill (harmless_load _ _) (fun x hx => ?_)
    fun lifetimes hstack x hx => .inl ?_
  · rw [← hledger]
    exact Rereading.safe_direct hcalm (c := .load id) (by simp [LedgerCall.method]) rfl (.refl s₁)
  · rw [← hledger]
    exact Rereading.safe_load _ _ hcalm (hs.online.trans (horder.online lifetimes hstack)) id
  · exact (horder.keyed.find?_of_load hx).1
  · rw [hs.cache, huptime] at hx
    rw [(horder.labels lifetimes hstack).item id x hx]

theorem clear_itemOf (p : ProductId) :
    ((service stack ttl).itemOf p).run.Safe (Stage.setting True)
      (Clear fun x s₂ => Source stack (some (CacheKey.product p)) s x ∧ Still s s₂) s₁ := by
  have hledger : s₁.ledger = s.ledger := congrArg Scenery.ledger hs.scenery
  have huptime : s₁.uptime = s.uptime := congrArg Scenery.uptime hs.scenery
  have hcalm := calm_of_cues_nil hs.cues
  refine safe_read (fun ask => ask (.findByProduct p)) (a := s.ledger.findByProduct p)
    ?_ (fun lifetimes hstack => ?_) hs.toStill (harmless_findByProduct _ _) (fun x hx => ?_)
    fun lifetimes hstack x hx => .inr ?_
  · rw [← hledger]
    exact Rereading.safe_direct hcalm (c := .findByProduct p) (by simp [LedgerCall.method]) rfl
      (.refl s₁)
  · rw [← hledger]
    exact Rereading.safe_findByProduct _ _ hcalm
      (hs.online.trans (horder.online lifetimes hstack)) p
  · exact horder.keyed.find?_of_findByProduct hx
  · rw [hs.cache, huptime] at hx
    rw [(horder.labels lifetimes hstack).product p x hx]

end

/-! ## The write -/

/-- A ledger that refuses a write is as it was, and the caller keeps the item. -/
theorem refused_of_outcome {l : MemoryLedger} {now : Timestamp} {u : StockItem} {f : Fault}
    (h : (l.reply now (.update u)).outcome = .error f) :
    l.reply now (.update u) = ⟨.error f, u⟩ ∧ l.apply now (.update u) = l := by
  rcases l.update_cases now u with ⟨g, -, hreply, happly⟩ | ⟨-, hreply⟩
  · rw [hreply] at h
    cases h
    exact ⟨hreply, happly⟩
  · rw [hreply] at h
    cases h

/-- The written item is the one that was read, with other counts. -/
structure Descends (x u : StockItem) : Prop where
  id : u.id = x.id
  productId : u.productId = x.productId
  version : u.version = x.version

/-- The ledger was asked to write an item, and nothing else happened. -/
structure Asked (u : StockItem) (s₁ : Stage) (w : Written) (t : Stage) : Prop where
  answer : w = s₁.ledger.reply s₁.clock.now (.update u)
  cues : t.cues = []
  scenery : t.scenery = (s₁.perform (.ledger (.update u))).2.scenery

theorem safe_asked {mayBreak : Prop} (hs : Still s s₁) (u : StockItem) :
    (LedgerAccess.direct (.update u)).Safe (Stage.setting mayBreak)
      (fun w t => Asked u s₁ w t ∧ t.cache.online = s.cache.online) s₁ := by
  rcases s₁.serve_of_cues_nil hs.cues (.ledger (.update u)) with ⟨hreply, hscenery, hcues⟩
  have honline : (s₁.serve (.ledger (.update u))).2.cache.online = s₁.cache.online :=
    congrArg (fun g => g.cache.online) hscenery
  exact Stage.safe_ask ⟨⟨hreply, hcues, hscenery⟩, honline.trans hs.online⟩

/-- Through the cache nothing else happens to the stores either. -/
theorem safe_asked_cached {mayBreak : Prop} (lifetimes : CacheLifetimes) (hs : Still s s₁)
    (honline : s.cache.online = true) (u : StockItem) :
    (LedgerAccess.cached lifetimes (.update u)).Safe (Stage.setting mayBreak)
      (fun w s' => ∃ t, Asked u s₁ w t ∧ Apart t s' ∧ Dropped w t.cache s'.cache) s₁ :=
  safe_writeConditional ((safe_asked hs u).mono fun _ _ h =>
    ⟨h.1, calm_of_cues_nil h.1.cues, h.2.trans honline⟩)

/-- A write that is refused leaves everything as it is. -/
theorem Asked.apart {u : StockItem} {w : Written} {f : Fault} (h : Asked u s₁ w t)
    (hf : w.outcome = .error f) : w = ⟨.error f, u⟩ ∧ Apart s₁ t := by
  have hrefused := h.answer ▸ hf
  rcases refused_of_outcome hrefused with ⟨hreply, happly⟩
  refine ⟨h.answer.trans hreply, .of_scenery (fun e he => ?_) (h.scenery.trans ?_)⟩
  · rw [h.cues] at he
    cases he
  · change { s₁.scenery with ledger := s₁.ledger.apply s₁.clock.now (.update u) } = _
    rw [happly]
    rfl

/-- What the ledger has is written. -/
theorem blames_write_stored {x u : StockItem} (horder : Orderly stack s)
    (hstored : s.ledger.items.find? x.id = some x) (hs : Still s s₁) (hu : Descends x u) :
    ((service stack ttl).write u).run.Safe (Stage.setting True)
      (fun a s₂ => Blames stack key? s a s₂ ∧ s₂.cues = []) s₁ := by
  have hledger : s₁.ledger = s.ledger := congrArg Scenery.ledger hs.scenery
  have hfound : s₁.ledger.items.find? u.id = some x := by
    rw [hledger, hu.id]
    exact hstored
  have hanswer (w : Written) (t s' : Stage) (hw : Asked u s₁ w t) :
      Blames stack key? s w.answer s' := by
    rw [hw.answer, MemoryLedger.reply_update hfound hu.version.symm]
    exact fun _ h => nomatch h
  cases stack with
  | plain =>
    refine (safe_asked hs u).bind fun w t hw => ?_
    exact ⟨hanswer w t t hw.1, hw.1.cues⟩
  | cached lifetimes =>
    refine (safe_asked_cached lifetimes hs (horder.online lifetimes rfl) u).bind fun w s' hw => ?_
    rcases hw with ⟨t, hasked, hapart, -⟩
    exact ⟨hanswer w t s' hasked, hapart.cues_nil hasked.cues⟩

/-- A copy whose write meets a conflict is dropped. -/
theorem blames_write_copied {x u : StockItem}
    (honline : s.cache.online = true)
    (hkeys : ∀ key, key? = some key → key = CacheKey.item x.id ∨ key = CacheKey.product x.productId)
    (hs : Still s s₁) (hu : Descends x u) :
    ((service (.cached lifetimes) ttl).write u).run.Safe (Stage.setting True)
      (fun a s₂ => Blames (.cached lifetimes) key? s a s₂ ∧ s₂.cues = []) s₁ := by
  refine (safe_asked_cached lifetimes hs honline u).bind fun w s' hw => ?_
  rcases hw with ⟨t, hasked, hapart, hdropped⟩
  refine ⟨fun f hf hcode => ?_, hapart.cues_nil hasked.cues⟩
  cases houtcome : w.outcome with
  | ok v =>
    rw [Written.answer, houtcome] at hf
    cases hf
  | error g =>
    rw [Written.answer, houtcome] at hf
    cases hf
    -- The refused write has changed nothing, and its conflict shows that the copy is outdated.
    rcases hasked.apart houtcome with ⟨rfl, hsame⟩
    have houtdates : outdates (.error f) = true := by
      rw [outdates, Fault.category, hcode]
      rfl
    have hforgets : Forgets u.id u.productId s'.cache := hdropped.dropped houtdates
    rw [hu.id, hu.productId] at hforgets
    refine ⟨⟨lifetimes, rfl⟩, (hs.apart hsame).apart hapart, hdropped.online, fun key hkey => ?_⟩
    rcases hkeys key hkey with rfl | rfl
    · exact hforgets.item
    · exact hforgets.product

theorem blames_write {x u : StockItem} (horder : Orderly stack s)
    (hsource : Source stack key? s x) (hs : Still s s₁) (hu : Descends x u) :
    ((service stack ttl).write u).run.Safe (Stage.setting True)
      (fun a s₂ => Blames stack key? s a s₂ ∧ s₂.cues = []) s₁ := by
  rcases hsource with hstored | ⟨⟨lifetimes, rfl⟩, hkeys⟩
  · exact blames_write_stored horder hstored hs hu
  · exact blames_write_copied (horder.online lifetimes rfl) hkeys hs hu

/-! ## Workflows -/

theorem descends_of_apply {x u : StockItem} {change : StockItem.Change} {units : Int}
    (h : x.apply change units = .ok u) : Descends x u := by
  have hchanged := StockItem.apply_ok h
  exact ⟨hchanged.id, hchanged.productId, hchanged.version⟩

theorem mild_report (hs : s₁.cues = []) {level : LogLevel} {message : String} :
    (Service.log level message).run.Safe (Stage.setting True) Mild s₁ := by
  refine Program.Safe.bind (p := Program.log level message) (P := fun _ s₂ => s₂.cues = [])
    (Stage.safe_ask (s₁.serve_of_cues_nil hs _).2.2) fun _ _ hs₂ => ?_
  exact ⟨harmless_ok (), hs₂⟩

/-- The claim is written after the item; its refusal is reported and passed on. -/
theorem mild_reporting (hs : s₁.cues = []) {message : String} (c : ReservationCall) :
    (Service.reporting message (Service.reservations c)).run.Safe (Stage.setting True) Mild s₁ := by
  rcases s₁.serve_of_cues_nil hs (.reservations c) with ⟨hreply, -, hcues⟩
  have hask : (Service.reservations c).run.Safe (Stage.setting True) Mild s₁ :=
    Stage.safe_ask ⟨hreply ▸ harmless_reservations s₁.reservations c, hcues⟩
  refine Program.Safe.bind hask fun a s₂ ha => ?_
  match a with
  | .ok v => exact ha
  | .error f =>
    refine Program.Safe.bind (p := Program.log .error message) (P := fun _ s₃ => s₃.cues = [])
      (Stage.safe_ask (s₂.serve_of_cues_nil ha.2 _).2.2) fun _ _ hs₃ => ?_
    exact ⟨ha.1, hs₃⟩

section

variable (horder : Orderly stack s) (hs : Unread s s₁)

include horder hs

theorem blames_changeStock {change : StockItem.Change} {message : String} {p : ProductId}
    {units : Int} :
    ((service stack ttl).changeStock change message p units).run.Safe (Stage.setting True)
      (Blames stack (some (CacheKey.product p)) s) s₁ := by
  refine blames_bind (clear_itemOf horder hs p) ?_
  rintro x s₂ ⟨hsource, hs₂⟩
  refine blames_bind (clear_ofAnswer (harmless_apply x change units) hs₂) ?_
  rintro u s₃ ⟨hu, hs₃⟩
  refine blames_then (blames_write horder hsource hs₃ (descends_of_apply hu)) fun y s₄ hs₄ => ?_
  exact mild_then (mild_report hs₄) fun _ _ hs₅ => ⟨harmless_ok y, hs₅⟩

theorem blames_reserve {p : ProductId} {order : OrderId} {units : Int} {span : Option Span} :
    ((service stack ttl).reserve p order units span).run.Safe (Stage.setting True)
      (Blames stack (some (CacheKey.product p)) s) s₁ := by
  unfold Service.reserve
  split
  · rintro f ⟨⟩ hcode
    cases hcode
  refine blames_bind (clear_unclaimed hs order) fun _ s₂ hs₂ => ?_
  refine blames_bind (clear_itemOf horder hs₂ p) ?_
  rintro x s₃ ⟨hsource, hs₃⟩
  refine blames_bind (clear_ofAnswer (harmless_apply x .reserve units) hs₃) ?_
  rintro u s₄ ⟨hu, hs₄⟩
  have hchange : x.apply .reserve units = .ok u := hu
  refine blames_bind (clear_now hs₄) fun now s₅ hs₅ => ?_
  refine blames_bind (clear_freshUuid hs₅.1) fun id s₆ hs₆ => ?_
  refine blames_bind (clear_inRange (fun _ => harmless_open) hs₆.1) fun r s₇ hs₇ => ?_
  have hu := descends_of_apply hchange
  refine blames_then (blames_write horder hsource hs₇ hu) fun y s₈ hs₈ => ?_
  refine mild_then (mild_reporting hs₈ _) fun _ s₉ hs₉ => ?_
  exact mild_then (mild_report hs₉) fun _ _ hs₁₀ => ⟨harmless_ok _, hs₁₀⟩

theorem blames_settle {k : Settlement} {r : Reservation} :
    ((service stack ttl).settle k r).run.Safe (Stage.setting True)
      (Blames stack (some (CacheKey.item r.itemId)) s) s₁ := by
  refine blames_bind (clear_now hs.toStill) fun now s₂ hs₂ => ?_
  refine blames_bind (clear_ofAnswer (harmless_guard k r now) (hs.later hs₂)) fun _ s₃ hs₃ => ?_
  refine blames_bind (clear_item horder hs₃.2 r.itemId) ?_
  rintro x s₄ ⟨hsource, hs₄⟩
  refine blames_bind (clear_ofAnswer (harmless_apply x k.change r.quantity) hs₄) ?_
  rintro u s₅ ⟨hu, hs₅⟩
  have htransition : Harmless (k.transition r now) := by
    rw [Settlement.transition_eq]
    exact (harmless_ensure k r now).map _
  refine blames_bind (clear_ofAnswer htransition hs₅) ?_
  rintro r' s₆ ⟨-, hs₆⟩
  refine blames_then (blames_write horder hsource hs₆ (descends_of_apply hu)) fun y s₇ hs₇ => ?_
  refine mild_then (mild_reporting hs₇ _) fun _ s₈ hs₈ => ?_
  exact mild_then (mild_report hs₈) fun _ _ hs₉ => ⟨harmless_ok _, hs₉⟩

variable (ttl) in
/-- A conflict of a workflow is the fault of a copy, which is gone then. -/
theorem blames_workflow {w : Workflow} (hw : w.rewrites = true) :
    (w.request (service stack ttl)).run.Safe (Stage.setting True)
      (Blames stack (w.key? s.reservations) s) s₁ := by
  have looked_up (k : Settlement) (id : ReservationId) :
      (Service.reservations (.load id) >>= fun r =>
        (service stack ttl).settle k r >>= fun p => pure p.1 : Request Reservation).run.Safe
        (Stage.setting True)
        (Blames stack ((s.reservations.rows.find? id).map fun r => CacheKey.item r.itemId) s)
        s₁ := by
    refine blames_bind (clear_load_claim hs id) ?_
    rintro r s₂ ⟨hload, hs₂⟩
    rw [MemoryReservations.find?_of_load hload]
    exact blames_map Prod.fst (blames_settle horder hs₂)
  cases w with
  | addStock p units => exact blames_changeStock horder hs
  | removeStock p units => exact blames_changeStock horder hs
  | reserve p order units span => exact blames_reserve horder hs
  | confirm id => exact looked_up .confirm id
  | release id => exact looked_up .release id
  | expire r => exact blames_settle horder hs
  | createItem | extend | deleteItem | bumpItem => cases hw

end

/-- Without the cache there is no conflict. -/
theorem harmless_plain {w : Workflow} (horder : Orderly .plain s) (hcues : s.cues = [])
    (hw : w.rewrites = true) {a : Answer w.Value} {s' : Stage}
    (hrun : s.run none (w.request (service .plain ttl)).run = (.ended a, s')) : Harmless a := by
  have hsafe := blames_workflow ttl horder (.refl hcues) hw
  rcases Stage.run_of_safe (calm_of_cues_nil hcues).refusing hsafe with
    ⟨b, s₂, hended, hblames⟩ | ⟨-, s₂, hbroken⟩
  · cases hrun.symm.trans hended
    intro f hf hcode
    rcases hblames f hf hcode with ⟨⟨lifetimes, hstack⟩, -⟩
    cases hstack
  · cases hrun.symm.trans hbroken

end Retrying

namespace Retrying

open Rereading (copied item?_copied)

/-- The ledger has raised the version of an item, and the cache has a copy from before. -/
def outrun : Stage where
  ledger := (MemoryLedger.empty.apply .epoch (.save (.ten 1))).apply .epoch
    (.bumpVersion (StockItem.ten 1).id)
  cache := copied (CacheKey.product (StockItem.ten 1).productId) (.ten 1)
  clock := { now := .epoch }
  ids := { millis := 0 }

theorem labelled_outrun : outrun.cache.Labelled outrun.uptime := by
  have hfind {key : String} {x : StockItem} (hx : outrun.cache.item? outrun.uptime key = some x) :
      CacheKey.product (StockItem.ten 1).productId = key ∧ StockItem.ten 1 = x := by
    rcases Option.bind_eq_some_iff.1 hx with ⟨text, htext, hdecode⟩
    rcases Option.map_eq_some_iff.1 htext with ⟨e, he, rfl⟩
    have hentry : (Table.insert (∅ : Table String CacheEntry)
        (CacheKey.product (StockItem.ten 1).productId) ⟨(StockItem.ten 1).encode, 1⟩).find? key =
          some e := (Option.filter_eq_some_iff.1 he).1
    rcases Table.of_find?_insert hentry with ⟨rfl, rfl⟩ | ⟨-, hold⟩
    · exact ⟨rfl, (StockItem.eq_of_decode?_encode hdecode).symm⟩
    · cases hold
  refine ⟨fun id x hx => ?_, fun p x hx => ?_⟩
  · exact absurd (hfind hx).1.symm (CacheKey.item_ne_product _ _)
  · rw [← (hfind hx).2, CacheKey.product_injective (hfind hx).1]

/-- Five units are added to the copy, and the write is refused. -/
theorem conflict_outrun : ∃ f s₁,
    outrun.run none ((service (.cached {}) Reservation.defaultTtl).addStock
      (StockItem.ten 1).productId 5).run = (.ended (.error f), s₁) ∧ f.code = .versionConflict := by
  have hcalm := calm_of_cues_nil (s := outrun) rfl
  have hcopy : outrun.cache.item? outrun.uptime (CacheKey.product (StockItem.ten 1).productId) =
      some (.ten 1) := item?_copied _ (by decide)
  have hread := Rereading.safe_findByProduct False {} hcalm rfl (StockItem.ten 1).productId
  rw [hcopy] at hread
  have hsafe : ((service (.cached {}) Reservation.defaultTtl).addStock
      (StockItem.ten 1).productId 5).run.Safe (Stage.setting False)
        (fun a _ => ∃ f, a = .error f ∧ f.code = .versionConflict) outrun := by
    refine Request.safe_run_bind hread ?_ fun e s₁ he => nomatch he.2
    rintro x s₁ ⟨hs₁, ⟨⟩⟩
    obtain ⟨u, hu⟩ : ∃ u, (StockItem.ten 1).apply .add 5 = .ok u := ⟨_, rfl⟩
    refine Request.safe_run_bind (P := fun a s₂ => a = .ok u ∧ s₂ = s₁) ⟨hu, rfl⟩ ?_
      fun e _ he => nomatch he.1
    rintro _ s₂ ⟨⟨⟩, rfl⟩
    have hwrite : ((service (.cached {}) Reservation.defaultTtl).write u).run.Safe
        (Stage.setting False) (fun a _ => ∃ f, a = .error f ∧ f.code = .versionConflict) s₂ := by
      have hstored : s₂.ledger.items.find? u.id = some (MemoryLedger.advance (.ten 1) .epoch) := by
        rw [hs₁.ledger, (descends_of_apply hu).id]
        rfl
      have hversion : (MemoryLedger.advance (.ten 1) .epoch).version ≠ u.version := by
        rw [(descends_of_apply hu).version]
        decide
      have hstill : Still outrun s₂ := (Still.refl rfl).apart hs₁
      refine (safe_asked_cached {} hstill rfl u).bind fun w s₃ hw => ?_
      rcases hw with ⟨t, hasked, -⟩
      rw [hasked.answer, MemoryLedger.reply_update_of_ne hstored hversion]
      exact ⟨_, rfl, rfl⟩
    refine Request.safe_run_bind hwrite (fun y _ hy => ?_) fun e _ he => ?_
    · rcases hy with ⟨f, hf, -⟩
      cases hf
    · rcases he with ⟨f, hf, hcode⟩
      cases hf
      exact ⟨e, rfl, hcode⟩
  rcases Stage.run_of_safe hcalm.refusing hsafe with ⟨_, s₁, hrun, f, rfl, hf⟩ | ⟨hbroken, -⟩
  · exact ⟨f, s₁, hrun, hf⟩
  · exact hbroken.elim

end Retrying
end StockLedger
