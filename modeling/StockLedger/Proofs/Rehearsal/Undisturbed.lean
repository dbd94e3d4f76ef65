import Mathlib.Tactic.Common
import StockLedger.Proofs.Memory.Cache
import StockLedger.Proofs.Memory.Ledger
import StockLedger.Proofs.Memory.Reservations
import StockLedger.Proofs.Program.Safe
import StockLedger.Proofs.ReadThrough.Keys
import StockLedger.Proofs.Stock.Reservation
import StockLedger.Proofs.Wire.Item
import StockLedger.Rehearsal.Stage
import StockLedger.Service.Claim

/-!
# Undisturbed rehearsals

Nothing interferes with a program, no request fails, and the clock stands still. Only the machine
keeps running, so that cached texts may die. Then what a program does can be computed from the
stores alone, with a cache or without one.

* `Rehearsal`, `Rehearsal.answer?` : a stage, and requests that are carried out one after another;
* `Scene`, `Scene.settle` : what matters of a stage, and what becomes of it when a claim is settled;
* `Stack.Trusts` : as long as a cached text about an item lives, it says what the ledger holds;
* `Rehearsal.Shows`, `Request.ComesTo` : a stage with a given scene, and a program that ends with a
  given answer and a given scene;
* `comesTo_item`, `comesTo_write`, `comesTo_settle` : items are read and written, and claims settled,
  as if the cache were not there.
-/

namespace StockLedger

open ReadThrough

/-! ## Rehearsals -/

/-- A stage, and how many requests were made on it. -/
structure Rehearsal where
  stage : Stage
  asked : Nat := 0

namespace Rehearsal

/-- Each request is carried out, at the uptime at which it comes. -/
def perform (uptimes : Nat → Nat) (s : Rehearsal) (c : Call) : c.Reply × Rehearsal :=
  let (r, stage) := { s.stage with uptime := uptimes s.asked }.perform c
  (r, { stage, asked := s.asked + 1 })

def answer? (uptimes : Nat → Nat) (s : Rehearsal) (c : Call) : Option (c.Reply × Rehearsal) :=
  some (s.perform uptimes c)

/-- Nobody but the stage is there. -/
abbrev setting (uptimes : Nat → Nat) : Setting Rehearsal :=
  .alone (answer? uptimes)

end Rehearsal

theorem safe_ask_alone {uptimes : Nat → Nat} {s : Rehearsal} {c : Call}
    {Q : c.Reply → Rehearsal → Prop}
    (h : Q (s.perform uptimes c).1 (s.perform uptimes c).2) :
    (Program.ask c).Safe (Rehearsal.setting uptimes) Q s := by
  rintro _ rfl
  refine ⟨rfl, fun r s' hr => ?_⟩
  cases hr
  exact h

/-! ## Scenes -/

/-- What matters of a stage, apart from its cache. -/
structure Scene where
  now : Timestamp
  sweeping : Bool := false
  ledger : MemoryLedger
  reservations : MemoryReservations

namespace Scene

/-- The scene after a program that is told of a refusal only if it has changed nothing. -/
def after {α : Type} (m : Scene) : Answer (α × Scene) → Scene
  | .ok (_, m') => m'
  | .error _ => m

/-- Writes an item over the one with the same identity and version. -/
def write (m : Scene) (u : StockItem) : Answer (StockItem × Scene) :=
  (m.ledger.update u m.now).map fun (s, ledger) => (s, { m with ledger })

/-- Writes a claim over the one with the same identity. -/
def overwrite (m : Scene) (r : Reservation) : Answer (Unit × Scene) :=
  (m.reservations.update r).map fun reservations => ((), { m with reservations })

/-- Ends a claim. -/
def settle (m : Scene) (k : Settlement) (r : Reservation) :
    Answer ((Reservation × StockItem) × Scene) := do
  k.guard r m.now
  let s ← m.ledger.load r.itemId
  let u ← s.apply k.change r.quantity
  let r' ← k.transition r m.now
  let (s', m) ← m.write u
  let (_, m) ← m.overwrite r'
  return ((r', s'), m)

/-- The scene with another item under the identity of this one. -/
def putItem (m : Scene) (s : StockItem) : Scene :=
  { m with ledger := ⟨m.ledger.items.insert s.id s, m.ledger.byProduct⟩ }

/-- The scene with another claim under the identity of this one. -/
def putClaim (m : Scene) (r : Reservation) : Scene :=
  { m with reservations := ⟨m.reservations.rows.insert r.id r, m.reservations.byOrder⟩ }

theorem write_eq {m : Scene} {u stored : StockItem} (h : m.ledger.items.find? u.id = some stored)
    (hversion : stored.version = u.version) :
    m.write u = .ok (MemoryLedger.advance u m.now, m.putItem (MemoryLedger.advance u m.now)) := by
  rw [write, MemoryLedger.update, h]
  simp only [if_pos hversion]
  rfl

theorem overwrite_eq {m : Scene} {r c : Reservation} (h : m.reservations.rows.find? r.id = some c) :
    m.overwrite r = .ok ((), m.putClaim r) := by
  have hcontains : m.reservations.rows.contains r.id = true :=
    (Table.contains_eq_true_iff ..).2 ⟨c, h⟩
  rw [overwrite, MemoryReservations.update, if_pos hcontains]
  rfl

/-- A claim that is stored is settled if nothing about it and its item is refused. -/
theorem settle_eq {m : Scene} {k : Settlement} {r r' c : Reservation} {s u : StockItem}
    (hguard : k.guard r m.now = .ok ()) (hs : m.ledger.items.find? r.itemId = some s)
    (hid : s.id = r.itemId) (hu : s.apply k.change r.quantity = .ok u)
    (hr' : k.transition r m.now = .ok r') (hc : m.reservations.rows.find? r.id = some c) :
    m.settle k r = .ok ((r', MemoryLedger.advance u m.now),
      (m.putItem (MemoryLedger.advance u m.now)).putClaim r') := by
  have hchanged := StockItem.apply_ok hu
  have hload : m.ledger.load r.itemId = .ok s := by rw [MemoryLedger.load, hs]
  have huid : u.id = r.itemId := hchanged.id.trans hid
  have hwrite : m.write u = _ := write_eq (huid.symm ▸ hs) hchanged.version.symm
  have hoverwrite : (m.putItem (MemoryLedger.advance u m.now)).overwrite r' = _ :=
    overwrite_eq (c := c) ((k.transition_ok hr').1.id.symm ▸ hc)
  calc
    m.settle k r = (do
        let (s', m) ← m.write u
        let (_, m) ← m.overwrite r'
        return ((r', s'), m)) := by
      rw [settle, hguard, hload]
      simp only [bind, Except.bind, hu, hr']
    _ = (do
        let (_, m') ← (m.putItem (MemoryLedger.advance u m.now)).overwrite r'
        return ((r', MemoryLedger.advance u m.now), m')) := by
      rw [hwrite]
      rfl
    _ = _ := by
      rw [hoverwrite]
      rfl

end Scene

/-! ## What a cache is trusted with -/

/-- As long as a text about an item lives, it says what the ledger holds, unless this is in doubt. -/
def MemoryCache.Reflects (c : MemoryCache) (since : Nat) (l : MemoryLedger)
    (doubt : ItemId → Prop) : Prop :=
  ∀ id e, c.entries.find? (CacheKey.item id) = some e → alive since e = true →
    doubt id ∨ ∃ s, l.items.find? id = some s ∧ e.value = s.encode

/-- From this uptime on the cache, if there is one, works and misleads nobody. -/
def Stack.Trusts (since : Nat) (l : MemoryLedger) (doubt : ItemId → Prop) (c : MemoryCache) :
    Stack → Prop
  | .plain => True
  | .cached _ => c.online = true ∧ c.Reflects since l doubt

theorem MemoryCache.alive_of_le {since uptime : Nat} {e : CacheEntry} (h : since ≤ uptime)
    (he : alive uptime e = true) : alive since e = true := by
  have hbefore : (uptime : Int) < e.deadline := of_decide_eq_true he
  refine decide_eq_true ?_
  omega

theorem MemoryCache.Reflects.mono {c : MemoryCache} {since : Nat} {l : MemoryLedger}
    {doubt doubt' : ItemId → Prop} (h : c.Reflects since l doubt) (hd : ∀ id, doubt id → doubt' id) :
    c.Reflects since l doubt' :=
  fun id e he halive => (h id e he halive).imp_left (hd id)

/-- A cache says nothing new unless it was asked to. -/
theorem MemoryCache.Reflects.apply {c : MemoryCache} {since uptime : Nat} {l : MemoryLedger}
    {doubt : ItemId → Prop} (h : c.Reflects since l doubt) {q : CacheCall}
    (hset : ∀ id text ttl, q = .set (CacheKey.item id) text ttl →
      ∃ s, l.items.find? id = some s ∧ text = s.encode) :
    (c.apply uptime q).Reflects since l doubt := by
  intro id e he halive
  rcases MemoryCache.find?_apply he with hold | ⟨ttl, hq⟩
  · exact h id e hold halive
  · exact .inr (hset id e.value ttl hq)

/-- What is dropped is no longer in doubt. -/
theorem MemoryCache.Reflects.delete {c : MemoryCache} {since uptime : Nat} {l : MemoryLedger}
    {keys : List String} (honline : c.online = true)
    (h : c.Reflects since l fun id => CacheKey.item id ∈ keys) :
    (c.apply uptime (.delete keys)).Reflects since l fun _ => False := by
  intro id e he halive
  rw [MemoryCache.apply, if_pos honline] at he
  simp only [MemoryCache.change, Table.find?_eraseIf, Option.filter_eq_some_iff] at he
  rcases he with ⟨hold, hkey⟩
  have hkey : CacheKey.item id ∉ keys := by simpa using hkey
  exact .inr ((h id e hold halive).resolve_left hkey)

/-! ## Programs that come to an end -/

/-- The scene of a stage. -/
def Stage.scene (s : Stage) : Scene :=
  { now := s.clock.now, sweeping := s.sweeping, ledger := s.ledger, reservations := s.reservations }

/-- A rehearsal with a given scene, whose cache is trusted except where it is in doubt. -/
structure Rehearsal.Shows (stack : Stack) (since : Nat) (m : Scene) (doubt : ItemId → Prop)
    (s : Rehearsal) : Prop where
  scene : s.stage.scene = m
  cache : stack.Trusts since m.ledger doubt s.stage.cache

abbrev Rehearsal.Stands (stack : Stack) (since : Nat) (m : Scene) (s : Rehearsal) : Prop :=
  s.Shows stack since m fun _ => False

theorem Rehearsal.Shows.mono {stack : Stack} {since : Nat} {m : Scene} {doubt doubt' : ItemId → Prop}
    {s : Rehearsal} (hs : s.Shows stack since m doubt) (hd : ∀ id, doubt id → doubt' id) :
    s.Shows stack since m doubt' where
  scene := hs.scene
  cache := by
    cases stack with
    | plain => exact trivial
    | cached lifetimes => exact ⟨hs.cache.1, hs.cache.2.mono hd⟩

/-- Wherever the scene is shown, the program ends with this answer and the scene that goes with it. -/
def Request.ComesTo {α : Type} (stack : Stack) (since : Nat) (uptimes : Nat → Nat) (m : Scene)
    (x : Request α) (a : Answer (α × Scene)) : Prop :=
  ∀ s, Rehearsal.Stands stack since m s → x.run.Safe (Rehearsal.setting uptimes)
    (fun r s' => r = a.map Prod.fst ∧ Rehearsal.Stands stack since (m.after a) s') s

section

variable {stack : Stack} {since : Nat} {uptimes : Nat → Nat} {m : Scene} {doubt : ItemId → Prop}
  {s : Rehearsal} {lifetimes : CacheLifetimes}

namespace Request

variable {α β : Type}

/-- After a change no refusal may follow. -/
theorem ComesTo.bind {x : Request α} {f : α → Request β} {a : Answer (α × Scene)}
    {b : α × Scene → Answer (β × Scene)} (hx : x.ComesTo stack since uptimes m a)
    (hf : ∀ v m', a = .ok (v, m') → (f v).ComesTo stack since uptimes m' (b (v, m')))
    (hkept : ∀ v m' e, a = .ok (v, m') → b (v, m') = .error e → m' = m) :
    (x >>= f).ComesTo stack since uptimes m (a >>= b) := by
  intro s hs
  refine Program.Safe.bind (p := x.run) (hx s hs) fun r s' hr => ?_
  rcases hr with ⟨rfl, hs'⟩
  match a with
  | .error e => exact ⟨rfl, hs'⟩
  | .ok (v, m') =>
    refine (hf v m' rfl s' hs').mono fun r' s'' h => ⟨h.1, ?_⟩
    have hlast := h.2
    change s''.Stands stack since (m.after (b (v, m')))
    cases hb : b (v, m') with
    | ok p =>
      rw [hb] at hlast
      exact hlast
    | error e =>
      rw [hb, hkept v m' e rfl hb] at hlast
      exact hlast

/-- What is only read leaves the scene as it is. -/
theorem ComesTo.read {x : Request α} {f : α → Request β} {a : Answer α}
    {b : α → Answer (β × Scene)}
    (hx : x.ComesTo stack since uptimes m (a.map fun v => (v, m)))
    (hf : ∀ v, a = .ok v → (f v).ComesTo stack since uptimes m (b v)) :
    (x >>= f).ComesTo stack since uptimes m (a >>= b) := by
  cases a with
  | error e => exact hx.bind (b := fun p => b p.1) (fun _ _ h => nomatch h) fun _ _ _ h => nomatch h
  | ok v =>
    refine hx.bind (b := fun p => b p.1) ?_ ?_
    · rintro _ _ ⟨⟩
      exact hf v rfl
    · rintro _ _ _ ⟨⟩ _
      rfl

theorem comesTo_ofAnswer (a : Answer α) :
    (Request.ofAnswer a).ComesTo stack since uptimes m (a.map fun v => (v, m)) := by
  intro s hs
  cases a with
  | ok v => exact ⟨rfl, hs⟩
  | error e => exact ⟨rfl, hs⟩

theorem comesTo_pure (v : α) :
    (pure v : Request α).ComesTo stack since uptimes m (.ok (v, m)) :=
  fun _ hs => ⟨rfl, hs⟩

end Request

/-! ## Requests to the cache -/

theorem shows_log {level : LogLevel} {message : String} (hs : s.Shows stack since m doubt) :
    (Program.log level message).Safe (Rehearsal.setting uptimes)
      (fun _ s' => s'.Shows stack since m doubt) s :=
  safe_ask_alone ⟨hs.scene, hs.cache⟩

theorem shows_cache {c : CacheCall} (hs : s.Shows (.cached lifetimes) since m doubt)
    (hset : ∀ id text ttl, c = .set (CacheKey.item id) text ttl →
      ∃ x, m.ledger.items.find? id = some x ∧ text = x.encode) :
    (cache c).Safe (Rehearsal.setting uptimes)
      (fun r s' => s'.Shows (.cached lifetimes) since m doubt ∧
        r = s.stage.cache.reply (uptimes s.asked) c) s := by
  have honline := (MemoryCache.online_apply s.stage.cache (uptimes s.asked) c).trans hs.cache.1
  refine safe_ask_alone ⟨⟨hs.scene, honline, ?_⟩, rfl⟩
  exact hs.cache.2.apply hset

theorem shows_forget {keys : List String}
    (hs : s.Shows (.cached lifetimes) since m fun id => CacheKey.item id ∈ keys) :
    (forget keys).Safe (Rehearsal.setting uptimes)
      (fun _ s' => s'.Stands (.cached lifetimes) since m) s := by
  have hdelete : (cache (.delete keys)).Safe (Rehearsal.setting uptimes)
      (fun _ s' => s'.Stands (.cached lifetimes) since m) s := by
    have honline :=
      (MemoryCache.online_apply s.stage.cache (uptimes s.asked) (.delete keys)).trans hs.cache.1
    refine safe_ask_alone ⟨hs.scene, honline, ?_⟩
    exact hs.cache.2.delete hs.cache.1
  refine hdelete.bind fun r s' hs' => ?_
  match r with
  | .ok () => exact hs'
  | .error _ => exact shows_log hs'

/-- A living text is trusted; one that is no item is dropped. -/
theorem shows_cachedItem {id : ItemId} (hu : ∀ n, since ≤ uptimes n)
    (hs : s.Stands (.cached lifetimes) since m) :
    (cachedItem (CacheKey.item id)).Safe (Rehearsal.setting uptimes)
      (fun a s' => s'.Stands (.cached lifetimes) since m ∧
        ∀ x, a = some x → m.ledger.items.find? id = some x) s := by
  have hreflects := hs.cache.2
  refine (shows_cache (c := .get _) hs fun _ _ _ h => nomatch h).bind fun r s' hr => ?_
  rcases hr with ⟨hs', hr⟩
  match r with
  | .ok none => exact ⟨hs', fun _ h => nomatch h⟩
  | .ok (some text) =>
    have htrue : ∃ x, m.ledger.items.find? id = some x ∧ text = x.encode := by
      have hpeek : s.stage.cache.reply (uptimes s.asked) (.get (CacheKey.item id)) =
          .ok (s.stage.cache.peek? (uptimes s.asked) (CacheKey.item id)) :=
        if_pos hs.cache.1
      rw [hpeek] at hr
      rcases Option.map_eq_some_iff.1 (Except.ok.inj hr).symm with ⟨e, he, rfl⟩
      rcases Option.filter_eq_some_iff.1 he with ⟨hentry, halive⟩
      exact (hreflects id e hentry (MemoryCache.alive_of_le (hu _) halive)).resolve_left False.elim
    cases hdecode : StockItem.decode? text with
    | some y =>
      simp only [hdecode]
      refine ⟨hs', ?_⟩
      rintro _ ⟨⟩
      rcases htrue with ⟨x, hx, rfl⟩
      rw [StockItem.eq_of_decode?_encode hdecode]
      exact hx
    | none =>
      simp only [hdecode]
      refine (shows_log hs').bind fun _ s₂ hs₂ => ?_
      have hdoubt : s₂.Shows (.cached lifetimes) since m
          fun j => CacheKey.item j ∈ [CacheKey.item id] := hs₂.mono fun _ h => h.elim
      refine (shows_forget hdoubt).bind fun _ s₃ hs₃ => ?_
      exact ⟨hs₃, fun _ h => nomatch h⟩
  | .error _ => exact (shows_log hs').bind fun _ s₂ hs₂ => ⟨hs₂, fun _ h => nomatch h⟩

theorem shows_keep {key text : String} {ttl : Span} (hs : s.Stands (.cached lifetimes) since m)
    (h : ∀ id, key = CacheKey.item id → ∃ x, m.ledger.items.find? id = some x ∧ text = x.encode) :
    (keep key text ttl).Safe (Rehearsal.setting uptimes)
      (fun _ s' => s'.Stands (.cached lifetimes) since m) s := by
  refine (shows_cache hs ?_).bind fun r s' hr => ?_
  · rintro id _ _ ⟨⟩
    exact h id rfl
  · match r with
    | .ok () => exact hr.1
    | .error _ => exact shows_log hr.1

theorem shows_populate {x : StockItem} (hs : s.Stands (.cached lifetimes) since m)
    (hx : m.ledger.items.find? x.id = some x) :
    (populate lifetimes x).Safe (Rehearsal.setting uptimes)
      (fun _ s' => s'.Stands (.cached lifetimes) since m) s := by
  refine (shows_keep hs ?_).bind fun _ s' hs' => shows_keep hs' ?_
  · intro id hkey
    exact ⟨x, CacheKey.item_injective hkey ▸ hx, rfl⟩
  · intro id hkey
    exact absurd hkey.symm (CacheKey.item_ne_product _ _)

theorem shows_invalidate {id : ItemId} {p : ProductId}
    (hs : s.Shows (.cached lifetimes) since m fun j => j = id) :
    (invalidate id p).Safe (Rehearsal.setting uptimes)
      (fun _ s' => s'.Stands (.cached lifetimes) since m) s := by
  have hdoubt : s.Shows (.cached lifetimes) since m
      fun j => CacheKey.item j ∈ [CacheKey.item id, CacheKey.product p] := by
    refine hs.mono ?_
    rintro _ rfl
    exact List.mem_cons_self ..
  refine (shows_forget hdoubt).bind fun _ s' hs' => ?_
  refine (shows_cache (c := .deletePattern _) hs' fun _ _ _ h => nomatch h).bind fun r s₂ hr => ?_
  match r with
  | .ok _ => exact shows_log hr.1
  | .error _ => exact shows_log hr.1

/-! ## Requests of a settlement -/

theorem comesTo_now : Service.now.ComesTo stack since uptimes m (.ok (m.now, m)) := by
  intro s hs
  have hask : (Program.ask .now).Safe (Rehearsal.setting uptimes)
      (fun t s' => t = m.now ∧ s'.Stands stack since m) s :=
    safe_ask_alone ⟨congrArg Scene.now hs.scene, hs.scene, hs.cache⟩
  refine Program.Safe.bind (p := Program.ask .now) hask fun t s' ht => ?_
  exact ⟨congrArg Except.ok ht.1, ht.2⟩

theorem comesTo_report {level : LogLevel} {message : String} :
    (Service.log level message).ComesTo stack since uptimes m (.ok ((), m)) := by
  intro s hs
  exact Program.Safe.bind (p := Program.log level message) (shows_log hs) fun _ _ hs' => ⟨rfl, hs'⟩

theorem shows_direct_load {id : ItemId} (hs : s.Stands stack since m) :
    (LedgerAccess.direct (.load id)).Safe (Rehearsal.setting uptimes)
      (fun r s' => r = m.ledger.load id ∧ s'.Stands stack since m) s := by
  rcases hs with ⟨rfl, hcache⟩
  exact safe_ask_alone ⟨rfl, rfl, hcache⟩

theorem shows_load {id : ItemId} (hu : ∀ n, since ≤ uptimes n) (hkeyed : m.ledger.Keyed)
    (hs : s.Stands stack since m) :
    (stack.ledger (.load id)).Safe (Rehearsal.setting uptimes)
      (fun r s' => r = m.ledger.load id ∧ s'.Stands stack since m) s := by
  cases stack with
  | plain => exact shows_direct_load hs
  | cached lifetimes =>
    refine (shows_cachedItem hu hs).bind fun a s' ha => ?_
    rcases ha with ⟨hs', hcached⟩
    match a with
    | some x =>
      -- A living text says what the ledger would have said.
      refine ⟨?_, hs'⟩
      rw [MemoryLedger.load, hcached x rfl]
    | none =>
      refine (shows_direct_load hs').bind fun r s₂ hr => ?_
      rcases hr with ⟨hr, hs₂⟩
      match r with
      | .ok x =>
        have hx : m.ledger.items.find? x.id = some x := (hkeyed.find?_of_load hr.symm).1
        exact (shows_populate hs₂ hx).bind fun _ s₃ hs₃ => ⟨hr, hs₃⟩
      | .error f => exact ⟨hr, hs₂⟩

theorem shows_direct_update {u : StockItem} (hs : s.Stands stack since m)
    (hcache : stack.Trusts since (m.ledger.apply m.now (.update u)) doubt s.stage.cache) :
    (LedgerAccess.direct (.update u)).Safe (Rehearsal.setting uptimes)
      (fun w s' => w = m.ledger.reply m.now (.update u) ∧
        s'.Shows stack since { m with ledger := m.ledger.apply m.now (.update u) } doubt) s := by
  rcases hs with ⟨rfl, -⟩
  exact safe_ask_alone ⟨rfl, rfl, hcache⟩

/-- A write puts in doubt what is cached about its item, which is then dropped. -/
theorem shows_update {u : StockItem} (hs : s.Stands stack since m) :
    (stack.ledger (.update u)).Safe (Rehearsal.setting uptimes)
      (fun w s' => w = m.ledger.reply m.now (.update u) ∧
        s'.Stands stack since { m with ledger := m.ledger.apply m.now (.update u) }) s := by
  cases stack with
  | plain => exact shows_direct_update hs trivial
  | cached lifetimes =>
    rcases MemoryLedger.update_cases m.ledger m.now u with ⟨f, -, hreply, hsame⟩ | ⟨-, hreply⟩
    · -- A write that is refused puts nothing in doubt, whether or not something is dropped then.
      refine (shows_direct_update hs (hsame.symm ▸ hs.cache)).bind fun w s' hw => ?_
      rcases hw with ⟨hw, hs'⟩
      rw [hreply] at hw
      cases hw
      split
      · have hdoubt := hs'.mono fun j h => (h.elim : j = u.id)
        exact (shows_invalidate hdoubt).bind fun _ s₂ hs₂ => ⟨hreply.symm, hs₂⟩
      · exact ⟨hreply.symm, hs'⟩
    · have hcache : (Stack.cached lifetimes).Trusts since (m.ledger.apply m.now (.update u))
          (fun j => j = u.id) s.stage.cache := by
        refine ⟨hs.cache.1, fun id e he halive => ?_⟩
        by_cases hid : id = u.id
        · exact .inl hid
        · rcases (hs.cache.2 id e he halive).resolve_left False.elim with ⟨x, hx, htext⟩
          exact .inr ⟨x, (MemoryLedger.find?_update_of_ne hid).trans hx, htext⟩
      refine (shows_direct_update hs hcache).bind fun w s' hw => ?_
      rcases hw with ⟨hw, hs'⟩
      rw [hreply] at hw
      cases hw
      exact (shows_invalidate hs').bind fun _ s₂ hs₂ => ⟨hreply.symm, hs₂⟩

variable {v : Service}

theorem comesTo_item (hv : v.ledger = stack.ledger) (hu : ∀ n, since ≤ uptimes n)
    (hkeyed : m.ledger.Keyed) {id : ItemId} :
    (v.item id).ComesTo stack since uptimes m ((m.ledger.load id).map fun x => (x, m)) := by
  intro s hs
  have hload : (stack.ledger (.load id)).Safe (Rehearsal.setting uptimes) _ s :=
    shows_load hu hkeyed hs
  rw [← hv] at hload
  refine hload.mono fun r s' hr => ?_
  rcases hr with ⟨rfl, hs'⟩
  cases hx : m.ledger.load id with
  | ok x => exact ⟨rfl, hs'⟩
  | error f => exact ⟨rfl, hs'⟩

theorem comesTo_write (hv : v.ledger = stack.ledger) {u : StockItem} :
    (v.write u).ComesTo stack since uptimes m (m.write u) := by
  intro s hs
  have hupdate : (stack.ledger (.update u)).Safe (Rehearsal.setting uptimes) _ s :=
    shows_update hs
  rw [← hv] at hupdate
  refine hupdate.bind fun w s' hw => ?_
  rcases hw with ⟨rfl, hs'⟩
  rcases MemoryLedger.update_cases m.ledger m.now u with ⟨f, hf, hreply, hsame⟩ | ⟨hok, hreply⟩
  · rw [hsame] at hs'
    rw [hreply, Scene.write, hf]
    exact ⟨rfl, hs'⟩
  · rw [hreply, Scene.write, hok]
    exact ⟨rfl, hs'⟩

theorem comesTo_reservations (c : ReservationCall) :
    (Service.reservations c).ComesTo stack since uptimes m
      ((m.reservations.reply c).map fun v =>
        (v, { m with reservations := m.reservations.apply c })) := by
  intro s hs
  rcases hs with ⟨rfl, hcache⟩
  have hask : (Program.ask (.reservations c)).Safe (Rehearsal.setting uptimes)
      (fun a s' => a = s.stage.reservations.reply c ∧ s'.Stands stack since
        { s.stage.scene with reservations := s.stage.reservations.apply c }) s :=
    safe_ask_alone ⟨rfl, rfl, hcache⟩
  refine hask.mono fun a s' ha => ?_
  rcases ha with ⟨rfl, hs'⟩
  have hreply : s.stage.scene.reservations.reply c = s.stage.reservations.reply c := rfl
  rw [hreply]
  cases hr : s.stage.reservations.reply c with
  | ok v => exact ⟨rfl, hs'⟩
  | error f =>
    rw [MemoryReservations.apply_of_refused hr] at hs'
    exact ⟨rfl, hs'⟩

theorem comesTo_overwrite (r : Reservation) :
    (Service.reservations (.update r)).ComesTo stack since uptimes m (m.overwrite r) := by
  have hsame : m.overwrite r = (m.reservations.reply (.update r)).map fun v =>
      (v, { m with reservations := m.reservations.apply (.update r) }) := by
    cases h : m.reservations.update r with
    | ok l =>
      simp [Scene.overwrite, MemoryReservations.reply, MemoryReservations.apply, h, Except.map,
        Except.toOption]
    | error f => simp [Scene.overwrite, MemoryReservations.reply, h, Except.map]
  rw [hsame]
  exact comesTo_reservations _

theorem comesTo_reporting {α : Type} {message : String} {x : Request α} {a : Answer (α × Scene)}
    (hx : x.ComesTo stack since uptimes m a) :
    (Service.reporting message x).ComesTo stack since uptimes m a := by
  intro s hs
  refine Program.Safe.bind (p := x.run) (hx s hs) fun r s' hr => ?_
  rcases hr with ⟨rfl, hs'⟩
  match a with
  | .ok p => exact ⟨rfl, hs'⟩
  | .error f => exact (shows_log hs').bind fun _ s₂ hs₂ => ⟨rfl, hs₂⟩

/-- A claim that is stored is settled as if the cache were not there. -/
theorem comesTo_settle (hv : v.ledger = stack.ledger) (hu : ∀ n, since ≤ uptimes n)
    (hkeyed : m.ledger.Keyed) {k : Settlement} {r c : Reservation}
    (hc : m.reservations.rows.find? r.id = some c) :
    (v.settle k r).ComesTo stack since uptimes m (m.settle k r) := by
  refine comesTo_now.read (a := .ok m.now) (b := fun _ => m.settle k r) fun t ht => ?_
  cases ht
  refine (Request.comesTo_ofAnswer _).read fun _ _ => ?_
  refine (comesTo_item hv hu hkeyed).read fun s hs => ?_
  refine (Request.comesTo_ofAnswer _).read fun u hchange => ?_
  refine (Request.comesTo_ofAnswer _).read fun r' hr' => ?_
  have hid : r'.id = r.id := (k.transition_ok hr').1.id
  -- Once the item is written, nothing is refused any more.
  have hlast (s' : StockItem) (m' : Scene) (hwrite : m.write u = .ok (s', m')) :
      m'.overwrite r' = .ok ((), m'.putClaim r') := by
    have hsame : m'.reservations = m.reservations := by
      rcases Answer.of_map_ok hwrite with ⟨p, -, hp⟩
      cases hp
      rfl
    refine Scene.overwrite_eq (c := c) ?_
    rw [hsame, hid]
    exact hc
  refine (comesTo_write hv).bind (fun s' m' _ => ?_) fun s' m' f hwrite hf => ?_
  · refine (comesTo_reporting (comesTo_overwrite r')).bind (fun _ m'' _ => ?_)
      fun _ _ _ _ hf => nomatch hf
    refine comesTo_report.read (a := .ok ()) (b := fun _ => .ok ((r', s'), m'')) fun _ _ => ?_
    exact Request.comesTo_pure _
  · have hf : (m'.overwrite r' >>= fun p => .ok ((r', s'), p.2)) = .error f := hf
    rw [hlast s' m' hwrite] at hf
    cases hf

theorem comesTo_load {r : Reservation} (hr : m.reservations.rows.find? r.id = some r) :
    (Service.reservations (.load r.id)).ComesTo stack since uptimes m (.ok (r, m)) := by
  have hread : m.reservations.reply (.load r.id) = .ok r := by
    simp [MemoryReservations.reply, MemoryReservations.load, hr]
  have hask : (Service.reservations (.load r.id)).ComesTo stack since uptimes m _ :=
    comesTo_reservations (.load r.id)
  rw [hread] at hask
  exact hask

/-- Only the claim is answered. -/
theorem comesTo_settled (hv : v.ledger = stack.ledger) (hu : ∀ n, since ≤ uptimes n)
    (hkeyed : m.ledger.Keyed) {k : Settlement} {r c : Reservation}
    (hc : m.reservations.rows.find? r.id = some c) :
    (do let (r, _) ← v.settle k r; return r : Request Reservation).ComesTo stack since uptimes m
      (m.settle k r >>= fun p => .ok (p.1.1, p.2)) := by
  refine (comesTo_settle hv hu hkeyed hc).bind (fun p m' _ => ?_) fun _ _ _ _ hf => nomatch hf
  exact Request.comesTo_pure p.1

/-- A claim is looked up by its id and settled. -/
theorem comesTo_loadSettle (hv : v.ledger = stack.ledger) (hu : ∀ n, since ≤ uptimes n)
    (hkeyed : m.ledger.Keyed) {k : Settlement} {r : Reservation}
    (hr : m.reservations.rows.find? r.id = some r) :
    (do let r ← Service.reservations (.load r.id); let (r, _) ← v.settle k r; return r :
      Request Reservation).ComesTo stack since uptimes m
      (m.settle k r >>= fun p => .ok (p.1.1, p.2)) := by
  refine (comesTo_load hr).read (a := .ok r)
    (b := fun r => m.settle k r >>= fun p => .ok (p.1.1, p.2)) ?_
  rintro _ ⟨⟩
  exact comesTo_settled hv hu hkeyed hr

end
end StockLedger
