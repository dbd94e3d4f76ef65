import Mathlib.Tactic.Common
import StockLedger.Proofs.ReadThrough.Rereads
import StockLedger.Proofs.Rehearsal.Calm

/-!
# Rehearsals side by side

Two stages show the same rows, the same time and the same identities. On the one a program is run
through the cache, and on the other without it. As long as nothing is read from the cache, both come
equally far and show the same again.

* `Twins`, `Program.Mirrors`, `Request.Mirrors` : such stages, and such programs;
* `Request.Mirrors.bind` : one request after another;
* `mirrors_ask` : requests that are not about the cache;
* `mirrors_load`, `mirrors_findByProduct` : reads of what the cache does not have;
* `mirrors_update` : writes.
-/

namespace StockLedger

open ReadThrough Rereading

/-- What is shown apart from the cache and from what was reported. -/
def Scenery.tableau (g : Scenery) : Tableau :=
  { now := g.now, ids := g.ids, ledger := g.ledger, reservations := g.reservations }

theorem tableau_eq {s t : Stage} (h : s.scenery = t.scenery) : s.tableau = t.tableau :=
  congrArg Scenery.tableau h

/-- No cue waits, both stages show the same, and the cache of the first is like this. -/
structure Twins (P : MemoryCache → Prop) (s t : Stage) : Prop where
  cues : s.cues = []
  cues' : t.cues = []
  tableau : s.tableau = t.tableau
  cache : P s.cache

/-- Both programs come equally far, and leave twins if they come to an end. -/
def Program.Agree {α : Type} (P' : MemoryCache → Prop) (p q : Program α) (s t : Stage) : Prop :=
  (∃ a s' t', s.run none p = (.ended a, s') ∧ t.run none q = (.ended a, t') ∧ Twins P' s' t') ∨
    ∃ s' t', s.run none p = (.broken, s') ∧ t.run none q = (.broken, t') ∧
      s'.tableau = t'.tableau

/-- The programs agree wherever they start from twins. -/
def Program.Mirrors {α : Type} (P P' : MemoryCache → Prop) (p q : Program α) : Prop :=
  ∀ s t, Twins P s t → p.Agree P' q s t

abbrev Request.Mirrors {α : Type} (P P' : MemoryCache → Prop) (x y : Request α) : Prop :=
  Program.Mirrors P P' x.run y.run

variable {α β : Type} {P P' P'' : MemoryCache → Prop} {s t : Stage}

theorem Twins.weaken (hP : ∀ c, P c → P' c) (h : Twins P s t) : Twins P' s t :=
  ⟨h.cues, h.cues', h.tableau, hP _ h.cache⟩

/-! ## One program after another -/

/-- What comes after equal answers decides. -/
theorem Program.Agree.after {p q : Program α} {f g : α → Program β} {a : α} {s' t' : Stage}
    (h : (f a).Agree P (g a) s' t') (hp : s.run none p = (.ended a, s'))
    (hq : t.run none q = (.ended a, t')) : (p >>= f).Agree P (q >>= g) s t := by
  rcases h with ⟨b, s'', t'', hp', hq', hst''⟩ | ⟨s'', t'', hp', hq', htableau⟩
  · exact .inl ⟨b, s'', t'', (Stage.run_andThen_of_ended hp).trans hp',
      (Stage.run_andThen_of_ended hq).trans hq', hst''⟩
  · exact .inr ⟨s'', t'', (Stage.run_andThen_of_ended hp).trans hp',
      (Stage.run_andThen_of_ended hq).trans hq', htableau⟩

theorem Program.Mirrors.bind {p q : Program α} {f g : α → Program β} (h : p.Mirrors P P' q)
    (hf : ∀ a, (f a).Mirrors P' P'' (g a)) : (p >>= f).Mirrors P P'' (q >>= g) := by
  intro s t hst
  rcases h s t hst with ⟨a, s', t', hp, hq, hst'⟩ | ⟨s', t', hp, hq, htableau⟩
  · exact (hf a s' t' hst').after hp hq
  · exact .inr ⟨s', t', Stage.run_andThen_of_broken hp, Stage.run_andThen_of_broken hq, htableau⟩

theorem Program.mirrors_done (hP : ∀ c, P c → P' c) (a : α) :
    (Program.done a).Mirrors P P' (.done a) :=
  fun s t hst => .inl ⟨a, s, t, rfl, rfl, hst.weaken hP⟩

theorem Request.Mirrors.bind {x y : Request α} {f g : α → Request β} (h : x.Mirrors P P' y)
    (hP : ∀ c, P' c → P'' c) (hf : ∀ a, (f a).Mirrors P' P'' (g a)) :
    (x >>= f).Mirrors P P'' (y >>= g) := by
  refine Program.Mirrors.bind (p := x.run) (q := y.run) h fun a => ?_
  cases a with
  | ok v => exact hf v
  | error e => exact Program.mirrors_done hP (Except.error e)

theorem Request.mirrors_pure (a : α) : (pure a : Request α).Mirrors P P (pure a) :=
  Program.mirrors_done (fun _ h => h) _

/-- An answer that is known already. -/
theorem Request.mirrors_ofAnswer (a : Answer α) :
    (Request.ofAnswer a).Mirrors P P (.ofAnswer a) :=
  Program.mirrors_done (fun _ h => h) a

theorem mirrors_inRange (a : Option (Answer α)) :
    (Service.inRange a).Mirrors P P (Service.inRange a) := by
  cases a with
  | some a => exact Program.mirrors_done (fun _ h => h) a
  | none => exact fun s t hst => .inr ⟨s, t, rfl, rfl, hst.tableau⟩

/-! ## Single requests -/

/-- A request that is not about the cache. -/
theorem Program.mirrors_ask {c : Call}
    (h : ∀ s t : Stage, s.tableau = t.tableau → (s.perform c).1 = (t.perform c).1 ∧
      (s.perform c).2.tableau = (t.perform c).2.tableau ∧ (s.perform c).2.cache = s.cache) :
    (ask c).Mirrors P P (ask c) := by
  intro s t hst
  rcases h s t hst.tableau with ⟨hreply, htableau, hcache⟩
  rcases s.run_ask_of_cues_nil hst.cues c with ⟨s', hs, hsceneryₛ, hcuesₛ⟩
  rcases t.run_ask_of_cues_nil hst.cues' c with ⟨t', ht, hsceneryₜ, hcuesₜ⟩
  rw [← hreply] at ht
  have hcache' : s'.cache = s.cache := (congrArg Scenery.cache hsceneryₛ).trans hcache
  refine .inl ⟨_, s', t', hs, ht, hcuesₛ, hcuesₜ, ?_, hcache'.symm ▸ hst.cache⟩
  rw [tableau_eq hsceneryₛ, tableau_eq hsceneryₜ, htableau]

theorem mirrors_now : Service.now.Mirrors P P Service.now := by
  refine Program.Mirrors.bind (Program.mirrors_ask fun s t h => ?_) fun a =>
    Program.mirrors_done (fun _ h => h) _
  exact ⟨congrArg Tableau.now h, h, rfl⟩

theorem mirrors_freshUuid : Service.freshUuid.Mirrors P P Service.freshUuid := by
  refine Program.Mirrors.bind (Program.mirrors_ask fun s t h => ?_) fun a =>
    Program.mirrors_done (fun _ h => h) _
  have hids : s.ids.next = t.ids.next := congrArg (fun d => d.ids.next) h
  have hreply : s.ids.next.1 = t.ids.next.1 := congrArg Prod.fst hids
  refine ⟨hreply, ?_, rfl⟩
  have hafter : { s.tableau with ids := s.ids.next.2 } =
      { t.tableau with ids := t.ids.next.2 } := by rw [h, hids]
  exact hafter

theorem mirrors_log {level : LogLevel} {message : String} :
    (Program.log level message).Mirrors P P (Program.log level message) :=
  Program.mirrors_ask fun _ _ h => ⟨rfl, h, rfl⟩

theorem mirrors_report {level : LogLevel} {message : String} :
    (Service.log level message).Mirrors P P (Service.log level message) :=
  Program.Mirrors.bind mirrors_log fun _ => Program.mirrors_done (fun _ h => h) _

theorem mirrors_reservations (c : ReservationCall) :
    (Service.reservations c).Mirrors P P (Service.reservations c) := by
  refine Program.mirrors_ask fun s t h => ?_
  have hclaims : s.reservations = t.reservations := congrArg Tableau.reservations h
  refine ⟨congrArg (fun m => m.reply c) hclaims, ?_, rfl⟩
  have hafter : { s.tableau with reservations := s.reservations.apply c } =
      { t.tableau with reservations := t.reservations.apply c } := by rw [h, hclaims]
  exact hafter

/-- Both are told the same of a claim, and go on from there. -/
theorem Twins.load_bind {f g : Reservation → Request β} {id : ReservationId} (h : Twins P s t)
    (hP : ∀ c, P c → P' c)
    (hf : ∀ r, s.reservations.load id = .ok r → (f r).Mirrors P P' (g r)) :
    Program.Agree P' (Service.reservations (.load id) >>= f).run
      (Service.reservations (.load id) >>= g).run s t := by
  rcases s.run_ask_of_cues_nil h.cues (.reservations (.load id)) with ⟨s', hs, -, -⟩
  rcases mirrors_reservations (.load id) s t h with ⟨a, s', t', hp, hq, hst⟩ | ⟨s', t', hp, -⟩
  · cases hs.symm.trans hp
    refine Program.Agree.after (p := Program.ask (.reservations (.load id)))
      (q := Program.ask (.reservations (.load id))) ?_ hp hq
    change Program.Agree P' (ExceptT.bindCont f (s.reservations.load id))
      (ExceptT.bindCont g (s.reservations.load id)) s' t'
    cases hload : s.reservations.load id with
    | ok r => exact hf r hload s' t' hst
    | error e => exact Program.mirrors_done hP (Except.error e) s' t' hst
  · cases hs.symm.trans hp

theorem mirrors_reporting {message : String} {x y : Request α} (h : x.Mirrors P P y) :
    (Service.reporting message x).Mirrors P P (Service.reporting message y) := by
  refine Program.Mirrors.bind (p := x.run) (q := y.run) h fun a => ?_
  match a with
  | .ok v => exact Program.mirrors_done (fun _ h => h) (Except.ok v)
  | .error f => exact mirrors_log.bind fun _ => Program.mirrors_done (fun _ h => h) _

/-! ## The ledger, through the cache and without it -/

/-- The cache answers. -/
abbrev Answering (c : MemoryCache) : Prop :=
  c.online = true

/-- The cache answers, and it has nothing under a key. -/
def Lacking (key? : Option String) (c : MemoryCache) : Prop :=
  c.online = true ∧ ∀ key, key? = some key → c.entries.find? key = none

theorem Rereading.Apart.tableau (h : Apart s t) : t.tableau = s.tableau :=
  congrArg Scenery.tableau h.scenery

theorem Rereading.Apart.cues_nil (h : Apart s t) (hs : s.cues = []) : t.cues = [] := by
  refine List.eq_nil_iff_forall_not_mem.2 fun e he => ?_
  have hmem := h.cues e he
  rw [hs] at hmem
  cases hmem

variable {lifetimes : CacheLifetimes} {key? : Option String} {key : String}

theorem calm_of_cues_nil (h : s.cues = []) : Calm s :=
  s.refusingOnly_of_cues_nil h _

/-- Without a copy a read through the cache is answered by the ledger. -/
theorem mirrors_read {c : LedgerCall} {p : Program c.Reply}
    (hsame : ∀ (l : MemoryLedger) now, l.apply now c = l)
    (h : ∀ s : Stage, s.cues = [] → P s.cache → p.Safe (Stage.setting False)
      (fun r s' => Apart s s' ∧ r = s.ledger.reply s.clock.now c) s)
    (hP : ∀ c, P c → c.online = true) : p.Mirrors P Answering (LedgerAccess.direct c) := by
  intro s t hst
  rcases Stage.run_of_safe (calm_of_cues_nil hst.cues).refusing (h s hst.cues hst.cache) with
    ⟨_, s', hp, hapart, rfl⟩ | ⟨hbroken, -⟩
  · -- Without the cache the same ledger is asked at the same time.
    rcases t.run_ask_of_cues_nil hst.cues' (.ledger c) with ⟨t', hq, hscenery, hcues⟩
    have hledger : s.ledger = t.ledger := congrArg Tableau.ledger hst.tableau
    have hnow : s.clock.now = t.clock.now := congrArg Tableau.now hst.tableau
    have hafter : (t.perform (.ledger c)).2.tableau = t.tableau := by
      change { t.tableau with ledger := t.ledger.apply t.clock.now c } = _
      rw [hsame]
      rfl
    have hanswer : t.run none (LedgerAccess.direct c) =
        (.ended (s.ledger.reply s.clock.now c), t') := by
      rw [hledger, hnow]
      exact hq
    refine .inl ⟨_, s', t', hp, hanswer, hapart.cues_nil hst.cues, hcues, ?_, ?_⟩
    · calc
        s'.tableau = s.tableau := hapart.tableau
        _ = t.tableau := hst.tableau
        _ = (t.perform (.ledger c)).2.tableau := hafter.symm
        _ = t'.tableau := (tableau_eq hscenery).symm
    · exact hapart.online.trans (hP _ hst.cache)
  · exact hbroken.elim

theorem elim_of_lacking {c : MemoryCache} {uptime : Nat} {a : Answer StockItem}
    (h : Lacking key? c) (hkey : key? = some key) : (c.item? uptime key).elim a .ok = a := by
  rw [MemoryCache.item?_of_find?_none (h.2 key hkey)]
  rfl

theorem mirrors_load {id : ItemId} (hkey : key? = some (CacheKey.item id)) :
    (LedgerAccess.cached lifetimes (.load id)).Mirrors (Lacking key?) Answering
      (LedgerAccess.direct (.load id)) := by
  refine mirrors_read (fun _ _ => rfl) (fun s hs hlacks => ?_) fun _ h => h.1
  have hread := Rereading.safe_load False lifetimes (calm_of_cues_nil hs) hlacks.1 id
  rw [elim_of_lacking hlacks hkey] at hread
  exact hread

theorem mirrors_findByProduct {p : ProductId} (hkey : key? = some (CacheKey.product p)) :
    (LedgerAccess.cached lifetimes (.findByProduct p)).Mirrors (Lacking key?) Answering
      (LedgerAccess.direct (.findByProduct p)) := by
  refine mirrors_read (fun _ _ => rfl) (fun s hs hlacks => ?_) fun _ h => h.1
  have hread := Rereading.safe_findByProduct False lifetimes (calm_of_cues_nil hs) hlacks.1 p
  rw [elim_of_lacking hlacks hkey] at hread
  exact hread

/-- What is dropped from the cache after a write makes no difference to the write. -/
theorem mirrors_update (u : StockItem) :
    (LedgerAccess.cached lifetimes (.update u)).Mirrors Answering Answering
      (LedgerAccess.direct (.update u)) := by
  intro s t hst
  have hs := calm_of_cues_nil hst.cues
  rcases s.serve_of_cues_nil hst.cues (.ledger (.update u)) with ⟨hreply, hscenery, hcues⟩
  have hcache : (s.serve (.ledger (.update u))).2.cache = s.cache :=
    congrArg Scenery.cache hscenery
  have hstore : (LedgerAccess.direct (.update u)).Safe (Stage.setting False)
      (fun w s₁ => (w = s.ledger.reply s.clock.now (.update u) ∧ s₁.cues = [] ∧
        s₁.tableau = (s.perform (.ledger (.update u))).2.tableau) ∧
        Calm s₁ ∧ s₁.cache.online = true) s :=
    Stage.safe_ask ⟨⟨hreply, hcues, tableau_eq hscenery⟩, calm_of_cues_nil hcues,
      hcache ▸ hst.cache⟩
  have hsafe := safe_writeConditional hstore
  rcases Stage.run_of_safe hs.refusing hsafe with
    ⟨_, s', hp, s₁, ⟨rfl, hcues₁, htableau₁⟩, hapart, hdropped⟩ | ⟨hbroken, -⟩
  · rcases t.run_ask_of_cues_nil hst.cues' (.ledger (.update u)) with ⟨t', hq, hscenery', hcues'⟩
    have hledger : s.ledger = t.ledger := congrArg Tableau.ledger hst.tableau
    have hnow : s.clock.now = t.clock.now := congrArg Tableau.now hst.tableau
    have hafter : (s.perform (.ledger (.update u))).2.tableau =
        (t.perform (.ledger (.update u))).2.tableau := by
      change { s.tableau with ledger := s.ledger.apply s.clock.now (.update u) } =
        { t.tableau with ledger := t.ledger.apply t.clock.now (.update u) }
      rw [hst.tableau, hledger, hnow]
    have hanswer : t.run none (LedgerAccess.direct (.update u)) =
        (.ended (s.ledger.reply s.clock.now (.update u)), t') := by
      rw [hledger, hnow]
      exact hq
    -- What is dropped afterwards is dropped from the cache only.
    refine .inl ⟨_, s', t', hp, hanswer, hapart.cues_nil hcues₁, hcues', ?_, hdropped.online⟩
    calc
      s'.tableau = s₁.tableau := hapart.tableau
      _ = (s.perform (.ledger (.update u))).2.tableau := htableau₁
      _ = (t.perform (.ledger (.update u))).2.tableau := hafter
      _ = t'.tableau := (tableau_eq hscenery').symm
  · exact hbroken.elim

end StockLedger
