import Mathlib.Tactic.Common
import StockLedger.Memory.Cache
import StockLedger.Proofs.Memory.Cache
import StockLedger.Proofs.Memory.Ledger
import StockLedger.Proofs.Program.Safe
import StockLedger.Proofs.ReadThrough.Keys
import StockLedger.Proofs.Wire.Item
import StockLedger.ReadThrough.Ledger

/-!
# A cache that tells the truth

Requests to a ledger are made one after another through a cache that may lose texts and refuse
requests.

* `Mishap` : what befalls one request to the cache;
* `Desk`, `Desk.answer?` : a ledger and a cache with nobody else around, and how they answer;
* `Desk.overruns`, `Desk.tell` : what breaks off whoever asks, and how they answer otherwise;
* `MemoryLedger.Vouches` : what a text under a key must say;
* `Watched` : every cached text says what it must, except under keys in doubt;
* `watched_get`, `watched_set`, `watched_delete`, `watched_deletePattern` : what a request to the
  cache does to the keys in doubt.
-/

namespace StockLedger

/-! ## The desk -/

/-- What befalls one request to a cache. -/
structure Mishap where
  /-- The keys whose texts get lost before the request. -/
  lost : List String
  uptime : Nat
  /-- The failure that is reported. -/
  refusal : CacheCall → Option CacheFault
  /-- Does a request take effect that is reported as failed? -/
  carriedOut : Bool

/-- What is dropped from the cache is dropped when that is asked for. -/
def Mishap.Obliging (m : Mishap) : Prop :=
  (∀ keys, m.refusal (.delete keys) = none) ∧ ∀ pattern, m.refusal (.deletePattern pattern) = none

/-- The cache without the texts that get lost. -/
def Mishap.before (m : Mishap) (c : MemoryCache) : MemoryCache :=
  { c with entries := c.entries.eraseIf fun key _ => m.lost.contains key }

/-- How a request is answered, and the cache after it. -/
def Mishap.answer (m : Mishap) (c : MemoryCache) (r : CacheCall) : r.Reply × MemoryCache :=
  match m.refusal r with
  | none => ((m.before c).reply m.uptime r, (m.before c).apply m.uptime r)
  | some f => (.error f, if m.carriedOut then (m.before c).apply m.uptime r else m.before c)

/-- The cache works, at this uptime. -/
def Mishap.none (uptime : Nat) : Mishap :=
  { lost := [], uptime, refusal := fun _ => .none, carriedOut := true }

theorem Mishap.none_before (uptime : Nat) (c : MemoryCache) :
    (Mishap.none uptime).before c = c := by
  rcases c with ⟨⟨pairs, _⟩, online⟩
  simp [before, none, Table.eraseIf]

theorem Mishap.none_answer (uptime : Nat) (c : MemoryCache) (r : CacheCall) :
    (Mishap.none uptime).answer c r = (c.reply uptime r, c.apply uptime r) := by
  rw [answer, none_before]
  rfl

/--
Does a request break off whoever makes it? It does if it reaches the cache and its text would
outlive the clock, whatever else would have been made of it.
-/
def Mishap.overruns (m : Mishap) (r : CacheCall) : Bool :=
  ((m.refusal r).isNone || m.carriedOut) && !MemoryCache.countable m.uptime r

/-- A ledger, a cache, and how many requests were made to the cache. -/
structure Desk where
  ledger : MemoryLedger
  cache : MemoryCache := .empty
  asked : Nat := 0

/--
The answer to a request of whoever reads a ledger through a cache. The clock of the machine does not
end here, as in a rehearsal; `Desk.tell` is the answer by a clock that does.
-/
def Desk.answer? (mishaps : Nat → Mishap) (now : Timestamp) (d : Desk) :
    (c : Call) → Option (c.Reply × Desk)
  | .ledger c => some (d.ledger.reply now c, { d with ledger := d.ledger.apply now c })
  | .cache c =>
      let (r, cache) := (mishaps d.asked).answer d.cache c
      some (r, { d with cache, asked := d.asked + 1 })
  | .log _ => some ((), d)
  | _ => none

/-- Does a request break off whoever makes it? -/
def Desk.overruns (mishaps : Nat → Mishap) (d : Desk) : Call → Bool
  | .cache c => (mishaps d.asked).overruns c
  | _ => false

/-- The answer to a request, unless it breaks off whoever makes it, and the desk that is left. -/
def Desk.tell (mishaps : Nat → Mishap) (now : Timestamp) (d : Desk) (c : Call) :
    Option c.Reply × Desk :=
  if d.overruns mishaps c then
    (none, { d with cache := (mishaps d.asked).before d.cache, asked := d.asked + 1 })
  else
    match d.answer? mishaps now c with
    | some (r, d) => (some r, d)
    | none => (none, d)

section

variable {mishaps : Nat → Mishap} {now : Timestamp} {d d' : Desk} {c : Call} {r : c.Reply}

theorem Desk.answer?_of_tell (h : d.tell mishaps now c = (some r, d')) :
    d.answer? mishaps now c = some (r, d') := by
  unfold tell at h
  split at h
  · cases h
  · split at h
    · next hanswer =>
      cases h
      exact hanswer
    · cases h

theorem Desk.tell_of_answer? (hc : d.overruns mishaps c = false)
    (h : d.answer? mishaps now c = some (r, d')) : d.tell mishaps now c = (some r, d') := by
  rw [tell, if_neg (Bool.eq_false_iff.1 hc), h]

/-- Only the ledger itself is asked to change the ledger. -/
theorem Desk.ledger_tell (mishaps : Nat → Mishap) (now : Timestamp) (d : Desk) (c : Call)
    (hc : ∀ q, c = .ledger q → d.ledger.apply now q = d.ledger) :
    (d.tell mishaps now c).2.ledger = d.ledger := by
  unfold tell
  split
  · rfl
  · cases c with
    | ledger q => exact hc q rfl
    | _ => rfl

end

/-! ## The truth -/

/-- What a text under a key must say of the ledger. -/
structure MemoryLedger.Vouches (l : MemoryLedger) (key text : String) : Prop where
  item : ∀ id, key = CacheKey.item id → ∃ s, l.items.find? id = some s ∧ text = s.encode
  product : ∀ p, key = CacheKey.product p →
    ∃ id s, l.byProduct.find? p = some id ∧ l.items.find? id = some s ∧ text = s.encode
  lowStock : ∀ t n, key = CacheKey.lowStock t n → text = StockItem.encodeAll (l.lowStock t n)

/-- The cache is switched on, and each text is true of the ledger or under a key in doubt. -/
structure Watched (l : MemoryLedger) (doubt : String → Prop) (d : Desk) : Prop where
  ledger : d.ledger = l
  online : d.cache.online = true
  truth : ∀ key e, d.cache.entries.find? key = some e → doubt key ∨ l.Vouches key e.value

section Requests

variable {l : MemoryLedger} {doubt doubt' : String → Prop} {d : Desk} {mishaps : Nat → Mishap}
  {now : Timestamp}

theorem Watched.mono (h : ∀ key, doubt key → doubt' key) (hd : Watched l doubt d) :
    Watched l doubt' d :=
  ⟨hd.ledger, hd.online, fun key e he => (hd.truth key e he).imp_left (h key)⟩

theorem Watched.before (m : Mishap) (hd : Watched l doubt d) :
    Watched l doubt { d with cache := m.before d.cache } :=
  ⟨hd.ledger, hd.online, fun key e he => hd.truth key e (Table.below_eraseIf _ _ key e he)⟩

/-- Nothing but a list of texts to store can make a cache say something new. -/
theorem Watched.apply {m : Mishap} {c : CacheCall} (hd : Watched l doubt d)
    (hset : ∀ key text ttl, c = .set key text ttl → doubt key ∨ l.Vouches key text) :
    Watched l doubt { d with cache := (m.before d.cache).apply m.uptime c } := by
  have hb := hd.before m
  refine ⟨hd.ledger, (MemoryCache.online_apply ..).trans hb.online, fun key e he => ?_⟩
  rcases MemoryCache.find?_apply he with hold | ⟨ttl, hc⟩
  · exact hb.truth key e hold
  · exact hset key e.value ttl hc

/-- Whatever is made of a request, the cache says nothing new unless it was asked to. -/
theorem Watched.answer {m : Mishap} {c : CacheCall} {n : Nat} (hd : Watched l doubt d)
    (hset : ∀ key text ttl, c = .set key text ttl → doubt key ∨ l.Vouches key text) :
    Watched l doubt { d with cache := (m.answer d.cache c).2, asked := n } := by
  have hbefore := hd.before m
  have happly := hd.apply (m := m) hset
  unfold Mishap.answer
  split
  · exact ⟨happly.ledger, happly.online, happly.truth⟩
  · split
    · exact ⟨happly.ledger, happly.online, happly.truth⟩
    · exact ⟨hbefore.ledger, hbefore.online, hbefore.truth⟩

/-! ## Single requests -/

/-- Nobody but the cache and the ledger is there. -/
abbrev Desk.setting (mishaps : Nat → Mishap) (now : Timestamp) : Setting Desk :=
  .alone (Desk.answer? mishaps now)

theorem safe_cache {c : CacheCall} {Q : c.Reply → Desk → Prop}
    (h : Q ((mishaps d.asked).answer d.cache c).1
      { d with cache := ((mishaps d.asked).answer d.cache c).2, asked := d.asked + 1 }) :
    (ReadThrough.cache c).Safe (Desk.setting mishaps now) Q d := by
  rintro _ rfl
  refine ⟨rfl, fun r d' hr => ?_⟩
  cases hr
  exact h

theorem safe_direct {c : LedgerCall} {Q : c.Reply → Desk → Prop}
    (h : Q (d.ledger.reply now c) { d with ledger := d.ledger.apply now c }) :
    (LedgerAccess.direct c).Safe (Desk.setting mishaps now) Q d := by
  rintro _ rfl
  refine ⟨rfl, fun r d' hr => ?_⟩
  cases hr
  exact h

theorem safe_log {level : LogLevel} {message : String} {Q : Unit → Desk → Prop} (h : Q () d) :
    (Program.log level message).Safe (Desk.setting mishaps now) Q d := by
  rintro _ rfl
  refine ⟨rfl, fun r d' hr => ?_⟩
  cases hr
  exact h

/-- A text that is found is true, unless its key is in doubt. -/
theorem watched_get {key : String} (hd : Watched l doubt d) :
    (ReadThrough.cache (.get key)).Safe (Desk.setting mishaps now)
      (fun r d' => Watched l doubt d' ∧
        ∀ text, r = .ok (some text) → doubt key ∨ l.Vouches key text) d := by
  refine safe_cache ⟨hd.answer fun _ _ _ h => (nomatch h), fun text hr => ?_⟩
  have hb := hd.before (mishaps d.asked)
  unfold Mishap.answer at hr
  split at hr
  · rcases MemoryCache.find?_of_reply_get hr with ⟨e, he, rfl⟩
    exact hb.truth key e he
  · cases hr

theorem watched_set {key text : String} {ttl : Span} (hd : Watched l doubt d)
    (h : doubt key ∨ l.Vouches key text) :
    (ReadThrough.cache (.set key text ttl)).Safe (Desk.setting mishaps now)
      (fun _ d' => Watched l doubt d') d := by
  refine safe_cache (hd.answer ?_)
  rintro _ _ _ ⟨⟩
  exact h

/-- Keys that are dropped are no longer in doubt. -/
theorem watched_delete {keys : List String} (hm : ∀ n, (mishaps n).Obliging)
    (hd : Watched l doubt d) :
    (ReadThrough.cache (.delete keys)).Safe (Desk.setting mishaps now)
      (fun r d' => r = .ok () ∧ Watched l (fun key => doubt key ∧ key ∉ keys) d') d := by
  have hb := hd.before (mishaps d.asked)
  have honline : ((mishaps d.asked).before d.cache).online = true := hb.online
  refine safe_cache ?_
  simp only [Mishap.answer, (hm d.asked).1, MemoryCache.reply, MemoryCache.apply, if_pos honline]
  refine ⟨trivial, hd.ledger, honline, fun key e he => ?_⟩
  simp only [MemoryCache.change, Table.find?_eraseIf, Option.filter_eq_some_iff] at he
  rcases he with ⟨he, hkey⟩
  have hkey : key ∉ keys := by simpa using hkey
  exact (hb.truth key e he).imp_left fun h => ⟨h, hkey⟩

theorem watched_deletePattern {pattern : String} (hm : ∀ n, (mishaps n).Obliging)
    (hd : Watched l doubt d) :
    (ReadThrough.cache (.deletePattern pattern)).Safe (Desk.setting mishaps now)
      (fun r d' => (∃ n, r = .ok n) ∧
        Watched l (fun key => doubt key ∧ MemoryCache.fits pattern key = false) d') d := by
  have hb := hd.before (mishaps d.asked)
  have honline : ((mishaps d.asked).before d.cache).online = true := hb.online
  refine safe_cache ?_
  simp only [Mishap.answer, (hm d.asked).2, MemoryCache.reply, MemoryCache.apply, if_pos honline]
  refine ⟨⟨_, rfl⟩, hd.ledger, honline, fun key e he => ?_⟩
  simp only [MemoryCache.change, Table.find?_eraseIf, Option.filter_eq_some_iff] at he
  rcases he with ⟨he, hkey⟩
  have hkey : MemoryCache.fits pattern key = false := by simpa using hkey
  exact (hb.truth key e he).imp_left fun h => ⟨h, hkey⟩

end Requests
end StockLedger
