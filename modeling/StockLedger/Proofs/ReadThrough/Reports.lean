import Mathlib.Tactic.Common
import StockLedger.Proofs.Memory.Scarcity
import StockLedger.Proofs.Program.Within
import StockLedger.Proofs.ReadThrough.Transparency

/-!
# Reports of scarce stock through a cache

A cached list is true as long as every change to the ledger drops all cached lists. What is cached
of single items may be outdated, and the index from products to items may be wrong: neither matters
to a report.

* `Listed` : every cached list is true;
* `Call.Looks`, `Watched.looks` : requests that change neither a ledger nor a cached list;
* `listed_cached` : one request through the cache, whichever it is;
* `Desk.Reached`, `Stack.lists_of_reached` : requests one after another;
* `lowStock_reported` : what is reported then.
-/

namespace StockLedger

open ReadThrough

/-- Every cached list is true. -/
abbrev Listed (l : MemoryLedger) (d : Desk) : Prop :=
  Watched l (fun key => MemoryCache.fits CacheKey.allLowStock key = false) d

/-- No cached text can be relied on. -/
abbrev Doubted (l : MemoryLedger) (d : Desk) : Prop :=
  Watched l (fun _ => True) d

/-- The requests that change neither a ledger nor a cached list. -/
def Call.Looks (c : Call) : Prop :=
  c.sparesLists = true ∨
    ∃ q, c = .ledger q ∧ ∀ (l : MemoryLedger) (now : Timestamp), l.apply now q = l

section

variable {l : MemoryLedger} {doubt : String → Prop} {d : Desk} {mishaps : Nat → Mishap}
  {now : Timestamp} {lifetimes : CacheLifetimes}

/-! ## Nothing changes -/

/-- A request that only looks leaves every list as true as it was. -/
theorem Watched.look (hdoubt : ∀ key, MemoryCache.fits CacheKey.allLowStock key = false → doubt key)
    {c : Call} (hc : c.Looks) (hd : Watched l doubt d) :
    (Program.ask c).Safe (Desk.setting mishaps now) (fun _ d' => Watched l doubt d') d := by
  rcases hc with hspares | ⟨q, rfl, hsame⟩
  · cases c with
    | log e => exact safe_log hd
    | cache q =>
      refine safe_cache (hd.answer ?_)
      rintro key text ttl rfl
      -- What is stored under the key of no list is in doubt anyway.
      have hkey : (!MemoryCache.fits CacheKey.allLowStock key) = true := hspares
      rw [Bool.not_eq_true'] at hkey
      exact .inl (hdoubt key hkey)
    | ledger | reservations | publish | now | uptime | freshUuid | findExpiredWithin | enterSweep
    | leaveSweep | recordSweep | recordSkip => cases hspares
  · have hread : (LedgerAccess.direct q).Safe (Desk.setting mishaps now)
        (fun r d' => r = l.reply now q ∧ Watched l doubt d') d := watched_read (hsame l now) hd
    exact hread.mono fun _ _ h => h.2

/-- So does a program of such requests. -/
theorem Watched.looks {α : Type} {p : Program α}
    (hdoubt : ∀ key, MemoryCache.fits CacheKey.allLowStock key = false → doubt key)
    (hp : p.Within Call.Looks) (hd : Watched l doubt d) :
    p.Safe (Desk.setting mishaps now) (fun _ d' => Watched l doubt d') d := by
  induction p generalizing d with
  | done a => exact hd
  | call c next ih =>
    obtain ⟨hc, hnext⟩ := hp.head
    have hrun : (Program.ask c >>= next).Safe (Desk.setting mishaps now)
        (fun _ d' => Watched l doubt d') d :=
      (hd.look hdoubt hc).bind fun r d' hd' => ih r (hnext r) hd'
    exact hrun
  | abort => exact hp.elim

theorem looks_direct {q : LedgerCall}
    (hsame : ∀ (l : MemoryLedger) (now : Timestamp), l.apply now q = l) :
    (LedgerAccess.direct q).Within Call.Looks :=
  Program.within_ask (.inr ⟨q, rfl, hsame⟩)

theorem Call.cachesItems_looks (lifetimes : CacheLifetimes) :
    Call.CachesItems lifetimes Call.Looks where
  plain c hc := .inl (Call.sparesLists_of_keepsNothing c hc)
  item hkey text := .inl ((Call.cachesItems_spares lifetimes).item hkey text)

theorem Program.SparesLists.looks {α : Type} {p : Program α} (hp : p.SparesLists) :
    p.Within Call.Looks :=
  hp.weaken fun _ => .inl

/-! ## Changes -/

/-- Lists that may be outdated are dropped. -/
theorem listed_forgetLists {onSuccess : Program Unit} (hm : ∀ n, (mishaps n).Obliging)
    (hsuccess : onSuccess.SparesLists) (hd : Doubted l d) :
    (forgetLists onSuccess).Safe (Desk.setting mishaps now) (fun _ d' => Listed l d') d := by
  refine (watched_deletePattern hm hd).bind fun r d' hr => ?_
  obtain ⟨⟨n, rfl⟩, hd'⟩ := hr
  have hlisted : Listed l d' := hd'.mono fun key hkey => hkey.2
  exact hlisted.looks (fun _ hkey => hkey) hsuccess.looks

theorem listed_invalidate {id : ItemId} {p : ProductId} (hm : ∀ n, (mishaps n).Obliging)
    (hd : Doubted l d) :
    (invalidate id p).Safe (Desk.setting mishaps now) (fun _ d' => Listed l d') d := by
  have hforget : (forget [CacheKey.item id, CacheKey.product p]).Safe (Desk.setting mishaps now)
      (fun _ d' => Doubted l d') d :=
    hd.looks (fun _ _ => trivial) (spares_forget _).looks
  exact hforget.bind fun _ d' hd' => listed_forgetLists hm spares_log hd'

/-- The lists are true after a request that changed nothing, and may be outdated after any other. -/
theorem listed_direct (c : LedgerCall) (hd : Listed l d) :
    (LedgerAccess.direct c).Safe (Desk.setting mishaps now)
      (fun r d' => Doubted (l.apply now c) d' ∧
        (c.changes r = false → Listed (l.apply now c) d')) d := by
  have ho := l.outcome now c
  rcases hd with ⟨rfl, honline, htruth⟩
  refine safe_direct ⟨⟨rfl, honline, fun _ _ _ => .inl trivial⟩, ?_⟩
  intro hchanges
  have hsame : d.ledger.apply now c = d.ledger := by
    generalize d.ledger.reply now c = r at ho hchanges
    generalize d.ledger.apply now c = l' at ho
    cases ho with
    | unchanged => rfl
    | saved | updated | deleted | bumped => cases hchanges
  exact ⟨rfl, honline, fun key e he => hsame.symm ▸ htruth key e he⟩

theorem listed_writeNew {s : StockItem} (hm : ∀ n, (mishaps n).Obliging) (hd : Listed l d) :
    (LedgerAccess.cached lifetimes (.save s)).Safe (Desk.setting mishaps now)
      (fun _ d' => Listed (l.apply now (.save s)) d') d := by
  refine (listed_direct (.save s) hd).bind fun r d' hr => ?_
  obtain ⟨hdoubted, hunchanged⟩ := hr
  match r with
  | .ok () =>
    have hpopulate : (populate lifetimes s).Safe (Desk.setting mishaps now)
        (fun _ d₂ => Doubted (l.apply now (.save s)) d₂) d' :=
      hdoubted.looks (fun _ _ => trivial) (spares_populate s).looks
    refine hpopulate.bind fun _ d₂ hd₂ => ?_
    have hlists : (forgetLists (return)).Safe (Desk.setting mishaps now)
        (fun _ d₃ => Listed (l.apply now (.save s)) d₃) d₂ :=
      listed_forgetLists hm trivial hd₂
    exact hlists.bind fun _ d₃ hd₃ => hd₃
  | .error f => exact hunchanged rfl

theorem listed_writeConditional {s : StockItem} (hm : ∀ n, (mishaps n).Obliging)
    (hd : Listed l d) :
    (LedgerAccess.cached lifetimes (.update s)).Safe (Desk.setting mishaps now)
      (fun _ d' => Listed (l.apply now (.update s)) d') d := by
  refine (listed_direct (.update s) hd).bind fun w d' hr => ?_
  obtain ⟨hdoubted, hunchanged⟩ := hr
  split
  · exact (listed_invalidate hm hdoubted).bind fun _ d₂ hd₂ => hd₂
  · next hkept =>
    -- What does not outdate the cache has not changed the ledger.
    refine hunchanged ?_
    match w with
    | ⟨.ok (), _⟩ => exact absurd rfl hkept
    | ⟨.error _, _⟩ => rfl

theorem listed_writeOver {c : LedgerCall} {store : Program (Answer StockItem)}
    (hm : ∀ n, (mishaps n).Obliging)
    (hstore : store.Safe (Desk.setting mishaps now)
      (fun r d' => Doubted (l.apply now c) d' ∧
        ((∃ f, r = .error f) → Listed (l.apply now c) d')) d) :
    (writeOver store).Safe (Desk.setting mishaps now)
      (fun _ d' => Listed (l.apply now c) d') d := by
  refine hstore.bind fun r d' hr => ?_
  obtain ⟨hdoubted, hunchanged⟩ := hr
  match r with
  | .ok s => exact (listed_invalidate hm hdoubted).bind fun _ d₂ hd₂ => hd₂
  | .error f => exact hunchanged ⟨f, rfl⟩

/-! ## Every request -/

/-- What is found is what the ledger finds, from a cached list or not. -/
theorem listed_lowStock (threshold : Int) (limit : UInt64) (hd : Listed l d) :
    (LedgerAccess.cached lifetimes (.findLowStock threshold limit)).Safe (Desk.setting mishaps now)
      (fun r d' => r = .ok (l.lowStock threshold limit) ∧ Listed l d') d := by
  have hkey : ¬ MemoryCache.fits CacheKey.allLowStock (CacheKey.lowStock threshold limit) =
      false := by
    rw [CacheKey.fits_lowStock]
    exact Bool.noConfusion
  exact watched_readLowStock hkey hd

/-- One request through the cache leaves every cached list true. -/
theorem listed_cached (c : LedgerCall) (hm : ∀ n, (mishaps n).Obliging) (hd : Listed l d) :
    (LedgerAccess.cached lifetimes c).Safe (Desk.setting mishaps now)
      (fun _ d' => Listed (l.apply now c) d') d := by
  have hlooks {p : Program c.Reply} (hp : p.Within Call.Looks) (hsame : l.apply now c = l) :
      p.Safe (Desk.setting mishaps now) (fun _ d' => Listed (l.apply now c) d') d := by
    rw [hsame]
    exact hd.looks (fun _ hkey => hkey) hp
  cases c with
  | load id | findByProduct p =>
    have hcaches := Call.cachesItems_looks lifetimes
    exact hlooks (within_readItem hcaches (looks_direct fun _ _ => rfl)) rfl
  | hasProduct p =>
    have hplain := (Call.cachesItems_looks lifetimes).plain
    exact hlooks (within_readHasProduct hplain (looks_direct fun _ _ => rfl)) rfl
  | findMany ids | count => exact hlooks (looks_direct fun _ _ => rfl) rfl
  | findLowStock threshold limit => exact (listed_lowStock threshold limit hd).mono fun _ _ h => h.2
  | save s => exact listed_writeNew hm hd
  | update s => exact listed_writeConditional hm hd
  | delete id | bumpVersion id =>
    refine listed_writeOver hm ((listed_direct _ hd).mono fun r d' hr => ⟨hr.1, ?_⟩)
    rintro ⟨f, rfl⟩
    exact hr.2 rfl

end

/-! ## Requests one after another -/

/-- The desks to which requests lead that are made one after another. -/
inductive Desk.Reached (stack : Stack) (mishaps : Nat → Mishap) (start : Desk) : Desk → Prop
  | start : Reached stack mishaps start start
  | step {d d' : Desk} {c : LedgerCall} {r : c.Reply} (now : Timestamp)
      (hbefore : Reached stack mishaps start d)
      (hrun : (stack.ledger c).runOn (Desk.answer? mishaps now) d = some (r, d')) :
      Reached stack mishaps start d'

/-- The ledger of a desk; if there is a cache before it, every cached list is true. -/
def Stack.Lists : Stack → MemoryLedger → Desk → Prop
  | .plain, l, d => d.ledger = l
  | .cached _, l, d => Listed l d

namespace Stack

variable {stack : Stack} {l : MemoryLedger} {d d' start : Desk} {mishaps : Nat → Mishap}
  {now : Timestamp}

theorem Lists.ledger (hd : stack.Lists l d) : d.ledger = l := by
  cases stack with
  | plain => exact hd
  | cached lifetimes => exact Watched.ledger hd

theorem lists_ledger (c : LedgerCall) (hm : ∀ n, (mishaps n).Obliging) (hd : stack.Lists l d) :
    (stack.ledger c).Safe (Desk.setting mishaps now)
      (fun _ d' => stack.Lists (l.apply now c) d') d := by
  cases stack with
  | plain =>
    have hd : d.ledger = l := hd
    refine safe_direct ?_
    rw [hd]
    exact rfl
  | cached lifetimes => exact listed_cached c hm hd

theorem lists_lowStock (threshold : Int) (limit : UInt64) (hd : stack.Lists l d) :
    (stack.ledger (.findLowStock threshold limit)).Safe (Desk.setting mishaps now)
      (fun r d' => r = .ok (l.lowStock threshold limit) ∧ stack.Lists l d') d := by
  cases stack with
  | plain =>
    have hd : d.ledger = l := hd
    refine safe_direct ?_
    rw [hd]
    exact ⟨rfl, rfl⟩
  | cached lifetimes => exact listed_lowStock threshold limit hd

/-- However many requests were made, every cached list is true of the ledger as it is now. -/
theorem lists_of_reached (hm : ∀ n, (mishaps n).Obliging) (hl : start.ledger.Keyed)
    (hstart : stack.Lists start.ledger start) (hd : Desk.Reached stack mishaps start d) :
    d.ledger.Keyed ∧ stack.Lists d.ledger d := by
  induction hd with
  | start => exact ⟨hl, hstart⟩
  | @step d d' c r now _ hrun ih =>
    obtain ⟨hkeyed, hlists⟩ := ih
    have hsafe : (stack.ledger c).Safe (Desk.setting mishaps now)
        (fun _ d₂ => stack.Lists (d.ledger.apply now c) d₂) d := lists_ledger c hm hlists
    obtain ⟨r', t, hrun', hlists'⟩ := hsafe.runOn
    cases hrun.symm.trans hrun'
    rw [hlists'.ledger]
    exact ⟨hkeyed.outcome (d.ledger.outcome now c), hlists'⟩

/-- Whatever is asked for, the desk gets through it, and its ledger is changed as if asked itself. -/
theorem reaches (hm : ∀ n, (mishaps n).Obliging) (hl : start.ledger.Keyed)
    (hstart : stack.Lists start.ledger start) (hd : Desk.Reached stack mishaps start d)
    (requests : List (Timestamp × LedgerCall)) :
    ∃ d', Desk.Reached stack mishaps start d' ∧ d'.ledger = (d.ledger.serve requests).2 := by
  induction requests generalizing d with
  | nil => exact ⟨d, hd, rfl⟩
  | cons request rest ih =>
    rcases request with ⟨now, c⟩
    have hlists : stack.Lists d.ledger d := (lists_of_reached hm hl hstart hd).2
    have hsafe : (stack.ledger c).Safe (Desk.setting mishaps now)
        (fun _ d₂ => stack.Lists (d.ledger.apply now c) d₂) d := lists_ledger c hm hlists
    obtain ⟨r, t, hrun, hlists'⟩ := hsafe.runOn
    obtain ⟨d', hreached, hledger⟩ := ih (hd.step now hrun)
    refine ⟨d', hreached, ?_⟩
    rw [hledger, hlists'.ledger]
    rfl

theorem lists_start (stack : Stack) (l : MemoryLedger) : stack.Lists l { ledger := l } := by
  cases stack with
  | plain => exact rfl
  | cached lifetimes => exact ⟨rfl, rfl, fun _ _ he => nomatch he⟩

/-- A report is asked for, and is the report of the ledger. -/
theorem runs_lowStock (mishaps : Nat → Mishap) (now : Timestamp) (ttl : Span) (threshold : Int)
    (limit : UInt64) (hd : stack.Lists d.ledger d) :
    ∃ r d', (stack.ledger (.findLowStock threshold limit)).runOn (Desk.answer? mishaps now) d =
        some (r, d') ∧
      (Service.lowStock ⟨stack.ledger, ttl⟩ threshold limit).run.runOn (Desk.answer? mishaps now)
        d = some (.ok (d.ledger.report threshold limit), d') ∧
      stack.Lists d.ledger d' := by
  have hsafe : (stack.ledger (.findLowStock threshold limit)).Safe (Desk.setting mishaps now)
      (fun r d' => r = .ok (d.ledger.lowStock threshold limit) ∧ stack.Lists d.ledger d') d :=
    lists_lowStock threshold limit hd
  obtain ⟨r, d', hrun, rfl, hlists⟩ := hsafe.runOn
  have hfound : (Request.ofProgram (stack.ledger (.findLowStock threshold limit))).Runs
      (Desk.answer? mishaps now) d (d.ledger.lowStock threshold limit) d' := hrun
  exact ⟨_, d', hrun, hfound.bind rfl, hlists⟩

end Stack

namespace Reporting

/-- A cache that works. -/
def fine : Mishap where
  lost := []
  uptime := 0
  refusal _ := none
  carriedOut := true

theorem obliging_fine : fine.Obliging :=
  ⟨fun _ => rfl, fun _ => rfl⟩

/-- A ledger with one item. -/
def shop : MemoryLedger :=
  MemoryLedger.empty.apply .epoch (.save (.ten 2))

def desk : Desk :=
  { ledger := shop }

/-- The scarcest item is asked for, and then an equally scarce one is stored that comes before. -/
def requests : List (Timestamp × LedgerCall) :=
  [(.epoch, .findLowStock 10 1), (.epoch, .save (.ten 1))]

theorem keyed_shop : shop.Keyed :=
  MemoryLedger.keyed_empty.outcome (MemoryLedger.outcome _ .epoch (.save (.ten 2)))

theorem shortage_shop : (shop.serve requests).2.Shortage 10 [.ofItem (.ten 1), .ofItem (.ten 2)] where
  mem_iff := by
    intro a
    have hitems : (shop.serve requests).2.items =
        ((∅ : Table ItemId StockItem).insert (StockItem.ten 2).id (.ten 2)).insert
          (StockItem.ten 1).id (.ten 1) := rfl
    rw [List.mem_pair, hitems]
    constructor
    · rintro (rfl | rfl)
      · exact ⟨.ten 1, rfl, by decide, rfl⟩
      · exact ⟨.ten 2, rfl, by decide, rfl⟩
    · rintro ⟨s, hs, -, rfl⟩
      rcases Table.of_find?_insert hs with ⟨-, rfl⟩ | ⟨-, hs⟩
      · exact .inl rfl
      · rcases Table.of_find?_insert hs with ⟨-, rfl⟩ | ⟨-, hs⟩
        · exact .inr rfl
        · cases hs
  sorted := List.pairwise_pair.2 (.inr ⟨rfl, by decide⟩)

end Reporting
end StockLedger
