import Mathlib.Tactic.Common
import StockLedger.Proofs.Concurrent.Conduct
import StockLedger.ReadThrough.Ledger

/-!
# Reading through a cache while others write

Whether it asks the ledger or the cache, a program gets items that the ledger holds or has held.
What it writes to the cache are copies of such items, however late it writes them.

* `safe_direct_load`, `safe_direct_findByProduct`, `safe_direct_update` : the ledger itself;
* `safe_readItem`, `safe_populate`, `safe_invalidate` : the cache around it;
* `safe_load`, `safe_findByProduct`, `safe_update`, `safe_save`, `safe_delete`, `safe_bumpVersion` :
  requests to either stack.
-/

namespace StockLedger

open ReadThrough Conduct

section

variable {J : Job} {C : Conduct J} {inv : World → Prop} {t : J.Task} {s : Record × World}
  {lifetimes : CacheLifetimes}

/-! ## Single requests -/

/-- A request that touches no store. -/
theorem safe_ask_quiet {c : Call} (hc : ∀ s' : Record × World, C.allows t s'.1 s'.2 c)
    (hnote : ∀ k r served, Record.note k c r served = k) :
    (Program.ask c).Safe (C.setting inv t) (fun _ s' => Later inv s s') s := by
  intro s' hs'
  refine ⟨hc s', fun r s'' hr => ?_⟩
  rcases hr with ⟨served, hserves, -, hrecord, horder⟩
  exact hs'.trans ⟨hrecord.trans (hnote ..), hserves.extends, horder⟩

theorem safe_log_among {level : LogLevel} {message : String} :
    (Program.log level message).Safe (C.setting inv t) (fun _ s' => Later inv s s') s :=
  safe_ask_quiet (fun _ => trivial) fun _ _ _ => rfl

theorem safe_cache_among {c : CacheCall} {Q : c.Reply → Record × World → Prop}
    (hc : ∀ s', Later inv s s' → s'.2.MayCache c)
    (hQ : ∀ r s' s'', Later inv s s' → Later inv s' s'' →
      (∀ x, r = .ok x → ∃ uptime, r = s'.2.cache.reply uptime c) → Q r s'') :
    (cache c).Safe (C.setting inv t) Q s := by
  intro s' hs'
  refine ⟨hc s' hs', fun r s'' hr => ?_⟩
  rcases hr with ⟨served, hserves, hreports, hrecord, horder⟩
  refine hQ r s' s'' hs' ⟨hrecord, hserves.extends, horder⟩ fun x hx => ?_
  rcases hreports with hserved | ⟨f, hf⟩
  · exact hserves.cache_eq hserved
  · rw [hf] at hx
    cases hx

theorem safe_cacheGet (hinv : ∀ w, inv w → w.Faithful) {key : String} :
    (cache (.get key)).Safe (C.setting inv t)
      (fun r s' => Later inv s s' ∧ ∀ text, r = .ok (some text) → s'.2.Copies key text) s := by
  refine safe_cache_among (fun _ _ => trivial) fun r s' s'' hs' hs'' hreply => ?_
  refine ⟨hs'.trans hs'', fun text hr => ?_⟩
  rcases hreply _ hr with ⟨uptime, hfound⟩
  rw [hr] at hfound
  rcases MemoryCache.find?_of_reply_get hfound.symm with ⟨e, he, rfl⟩
  exact ((hinv s'.2 hs'.order).cache key e he).mono hs''.world

theorem safe_keep {key text : String} {ttl : Span} (h : s.2.Copies key text) :
    (keep key text ttl).Safe (C.setting inv t) (fun _ s' => Later inv s s') s := by
  have hset : (cache (.set key text ttl)).Safe (C.setting inv t) (fun _ s' => Later inv s s') s :=
    safe_cache_among (fun _ hs' => h.mono hs'.world) fun _ _ _ hs' hs'' _ => hs'.trans hs''
  refine hset.bind fun r s' hs' => ?_
  match r with
  | .ok () => exact hs'
  | .error _ => exact safe_log_among.mono fun _ _ hs'' => hs'.trans hs''

/-- A copy may be written late: what it is a copy of stays in the past. -/
theorem safe_populate {x : StockItem} (hx : s.2.Held x) :
    (populate lifetimes x).Safe (C.setting inv t) (fun _ s' => Later inv s s') s := by
  refine (safe_keep (World.copies_item hx)).bind fun _ s' hs' => ?_
  refine (safe_keep (World.copies_product _ (hx.mono hs'.world))).mono fun _ s'' hs'' => ?_
  exact hs'.trans hs''

theorem safe_forget {keys : List String} :
    (forget keys).Safe (C.setting inv t) (fun _ s' => Later inv s s') s := by
  have hdelete : (cache (.delete keys)).Safe (C.setting inv t) (fun _ s' => Later inv s s') s :=
    safe_cache_among (fun _ _ => trivial) fun _ _ _ hs' hs'' _ => hs'.trans hs''
  refine hdelete.bind fun r s' hs' => ?_
  match r with
  | .ok () => exact hs'
  | .error _ => exact safe_log_among.mono fun _ _ hs'' => hs'.trans hs''

theorem safe_forgetLists {onSuccess : Program Unit}
    (hok : ∀ s', inv s'.2 →
      onSuccess.Safe (C.setting inv t) (fun _ s'' => Later inv s' s'') s') :
    (forgetLists onSuccess).Safe (C.setting inv t) (fun _ s' => Later inv s s') s := by
  have hdelete : (cache (.deletePattern CacheKey.allLowStock)).Safe (C.setting inv t)
      (fun _ s' => Later inv s s') s :=
    safe_cache_among (fun _ _ => trivial) fun _ _ _ hs' hs'' _ => hs'.trans hs''
  refine hdelete.bind fun r s' hs' => ?_
  match r with
  | .ok _ => exact (hok s' hs'.order).mono fun _ _ hs'' => hs'.trans hs''
  | .error _ => exact safe_log_among.mono fun _ _ hs'' => hs'.trans hs''

theorem safe_invalidate {id : ItemId} {p : ProductId} :
    (invalidate id p).Safe (C.setting inv t) (fun _ s' => Later inv s s') s := by
  refine safe_forget.bind fun _ s' hs' => ?_
  exact (safe_forgetLists fun _ _ => safe_log_among).mono fun _ _ hs'' => hs'.trans hs''

/-! ## Reads through the cache -/

theorem safe_cachedItem (hinv : ∀ w, inv w → w.Faithful) {key : String} :
    (cachedItem key).Safe (C.setting inv t)
      (fun a s' => Later inv s s' ∧ ∀ x, a = some x →
        ∃ text, s'.2.Copies key text ∧ StockItem.decode? text = some x) s := by
  refine (safe_cacheGet hinv).bind fun r s' hr => ?_
  rcases hr with ⟨hs', hcopies⟩
  match r with
  | .ok none => exact ⟨hs', fun _ h => (nomatch h)⟩
  | .ok (some text) =>
    cases hdecode : StockItem.decode? text with
    | some x =>
      simp only [hdecode]
      refine ⟨hs', fun y hy => ⟨text, hcopies text rfl, ?_⟩⟩
      cases hy
      exact hdecode
    | none =>
      simp only [hdecode]
      refine Program.Safe.bind safe_log_among fun _ s₂ hs₂ => ?_
      refine safe_forget.bind fun _ s₃ hs₃ => ?_
      exact ⟨(hs'.trans hs₂).trans hs₃, fun _ h => (nomatch h)⟩
  | .error _ =>
    refine Program.Safe.bind safe_log_among fun _ s₂ hs₂ => ?_
    exact ⟨hs'.trans hs₂, fun _ h => (nomatch h)⟩

theorem safe_cachedItems (hinv : ∀ w, inv w → w.Faithful) {key : String} :
    (cachedItems key).Safe (C.setting inv t) (fun _ s' => Later inv s s') s := by
  refine (safe_cacheGet hinv).bind fun r s' hr => ?_
  rcases hr with ⟨hs', -⟩
  match r with
  | .ok none => exact hs'
  | .ok (some text) =>
    cases hdecode : StockItem.decodeAll? text with
    | some xs =>
      simp only [hdecode]
      exact hs'
    | none =>
      simp only [hdecode]
      refine Program.Safe.bind safe_log_among fun _ s₂ hs₂ => ?_
      exact hs'.trans hs₂
  | .error _ =>
    refine Program.Safe.bind safe_log_among fun _ s₂ hs₂ => ?_
    exact hs'.trans hs₂

/-- An item from the cache or from the ledger, whichever of the two `P` is known of. -/
theorem safe_readItem (hinv : ∀ w, inv w → w.Faithful) {key : String}
    {fetch : Program (Answer StockItem)} {P : StockItem → Prop}
    (hcached : ∀ (w : World) text x, w.Copies key text → StockItem.decode? text = some x →
      w.Held x ∧ P x)
    (hfetch : ∀ s', Later inv s s' → fetch.Safe (C.setting inv t)
      (fun r s'' => Later inv s' s'' ∧ ∀ x, r = .ok x → s''.2.Held x ∧ P x) s') :
    (readItem lifetimes key fetch).Safe (C.setting inv t)
      (fun r s' => Later inv s s' ∧ ∀ x, r = .ok x → s'.2.Held x ∧ P x) s := by
  refine (safe_cachedItem hinv).bind fun a s' ha => ?_
  rcases ha with ⟨hs', hfound⟩
  match a with
  | some x =>
    rcases hfound x rfl with ⟨text, hcopies, hdecode⟩
    refine ⟨hs', fun y hy => ?_⟩
    cases hy
    exact hcached s'.2 text x hcopies hdecode
  -- What the ledger answers is put into the cache before it is returned.
  | none =>
    refine (hfetch s' hs').bind fun r s₂ hr => ?_
    rcases hr with ⟨hs₂, hread⟩
    match r with
    | .ok x =>
      rcases hread x rfl with ⟨hheld, hP⟩
      refine (safe_populate hheld).bind fun _ s₃ hs₃ => ?_
      refine ⟨(hs'.trans hs₂).trans hs₃, fun y hy => ?_⟩
      cases hy
      exact ⟨hheld.mono hs₃.world, hP⟩
    | .error f => exact ⟨hs'.trans hs₂, fun _ h => (nomatch h)⟩

/-! ## Requests to the ledger -/

theorem safe_ledger_among {c : LedgerCall} {Q : c.Reply → Record × World → Prop}
    (hc : ∀ s', Later inv s s' → C.ledger t s'.1 s'.2 c)
    (hQ : ∀ s' s'' served r, Later inv s s' → s'.2.Serves (.ledger c) served s''.2 →
      Call.Reports (.ledger c) served r → s''.1 = s'.1.note (.ledger c) r served →
      inv s''.2 → Q r s'') :
    (LedgerAccess.direct c).Safe (C.setting inv t) Q s := by
  intro s' hs'
  refine ⟨hc s' hs', fun r s'' hr => ?_⟩
  rcases hr with ⟨served, hserves, hreports, hrecord, horder⟩
  exact hQ s' s'' served r hs' hserves hreports hrecord horder

theorem safe_ledger_quiet {c : LedgerCall}
    (hnote : ∀ k r served, Record.note k (.ledger c) r served = k)
    (hc : ∀ s', Later inv s s' → C.ledger t s'.1 s'.2 c) :
    (LedgerAccess.direct c).Safe (C.setting inv t) (fun _ s' => Later inv s s') s := by
  refine safe_ledger_among hc fun s' s'' served r hs' hserves _ hrecord horder => ?_
  exact hs'.trans ⟨hrecord.trans (hnote ..), hserves.extends, horder⟩

theorem safe_direct_load (hinv : ∀ w, inv w → w.Faithful) {id : ItemId}
    (hc : ∀ s', Later inv s s' → C.ledger t s'.1 s'.2 (.load id)) :
    (LedgerAccess.direct (.load id)).Safe (C.setting inv t)
      (fun r s' => Later inv s s' ∧ ∀ x, r = .ok x → s'.2.Held x ∧ x.id = id) s := by
  refine safe_ledger_among hc fun s' s'' served r hs' hserves hreports hrecord horder => ?_
  have hs'' : Later inv s' s'' := ⟨hrecord, hserves.extends, horder⟩
  refine ⟨hs'.trans hs'', fun x hx => ?_⟩
  subst hx
  rcases hreports with hserved | ⟨f, hf⟩
  · rcases hserves.ledger_eq hserved with ⟨now, hreply, -⟩
    have hkeyed := (hinv s'.2 hs'.order).keyed _ (List.mem_cons_self ..)
    rcases hkeyed.find?_of_load hreply.symm with ⟨hfind, hid⟩
    exact ⟨World.Held.mono hs''.world ⟨_, List.mem_cons_self .., hfind⟩, hid⟩
  · cases served <;> cases hf

theorem safe_direct_findByProduct (hinv : ∀ w, inv w → w.Faithful) {p : ProductId}
    (hc : ∀ s', Later inv s s' → C.ledger t s'.1 s'.2 (.findByProduct p)) :
    (LedgerAccess.direct (.findByProduct p)).Safe (C.setting inv t)
      (fun r s' => Later inv s s' ∧ ∀ x, r = .ok x → s'.2.Held x ∧ True) s := by
  refine safe_ledger_among hc fun s' s'' served r hs' hserves hreports hrecord horder => ?_
  have hs'' : Later inv s' s'' := ⟨hrecord, hserves.extends, horder⟩
  refine ⟨hs'.trans hs'', fun x hx => ⟨?_, trivial⟩⟩
  subst hx
  rcases hreports with hserved | ⟨f, hf⟩
  · rcases hserves.ledger_eq hserved with ⟨now, hreply, -⟩
    have hkeyed := (hinv s'.2 hs'.order).keyed _ (List.mem_cons_self ..)
    exact World.Held.mono hs''.world
      ⟨_, List.mem_cons_self .., hkeyed.find?_of_findByProduct hreply.symm⟩
  · cases served <;> cases hf

/-- What a program knows after a conditional write. -/
structure Wrote (inv : World → Prop) (u : StockItem) (s s' : Record × World) (r : Written) :
    Prop where
  record : s'.1 = s.1 ∨ s'.1 = { s.1 with wrote := some u.id }
  world : s'.2.Extends s.2
  order : inv s'.2
  success : r.outcome = .ok () → s'.1 = { s.1 with wrote := some u.id }

theorem safe_direct_update {u : StockItem}
    (hc : ∀ s', Later inv s s' → C.ledger t s'.1 s'.2 (.update u)) :
    (LedgerAccess.direct (.update u)).Safe (C.setting inv t)
      (fun r s' => Wrote inv u s s' r) s := by
  refine safe_ledger_among hc fun s' s'' served r hs' hserves hreports hrecord horder => ?_
  have hworld := hserves.extends.trans hs'.world
  rw [hs'.record] at hrecord
  -- A write that was carried out may be reported as failed, but not the other way round.
  match served with
  | none =>
    refine ⟨.inl hrecord, hworld, horder, fun hr => ?_⟩
    rcases hreports with hserved | ⟨f, rfl⟩
    · cases hserved
    · cases hr
  | some ⟨.ok (), _⟩ => exact ⟨.inr hrecord, hworld, horder, fun _ => hrecord⟩
  | some ⟨.error g, _⟩ =>
    refine ⟨.inl hrecord, hworld, horder, fun hr => ?_⟩
    rcases hreports with hserved | ⟨f, rfl⟩
    · cases hserved
      cases hr
    · cases hr

theorem safe_direct_save {x : StockItem}
    (hc : ∀ s', Later inv s s' → C.ledger t s'.1 s'.2 (.save x)) :
    (LedgerAccess.direct (.save x)).Safe (C.setting inv t)
      (fun r s' => Later inv s s' ∧ (r = .ok () → s'.2.Held x)) s := by
  refine safe_ledger_among hc fun s' s'' served r hs' hserves hreports hrecord horder => ?_
  refine ⟨hs'.trans ⟨hrecord, hserves.extends, horder⟩, fun hr => ?_⟩
  subst hr
  rcases hreports with hserved | ⟨f, hf⟩
  · rcases hserves.ledger_eq hserved with ⟨now, hreply, hworld⟩
    have hfind := MemoryLedger.find?_of_save (l := s'.2.ledger) (x := x) hreply.symm
    refine ⟨_, List.mem_cons_self .., ?_⟩
    rw [hworld]
    exact hfind
  · cases served <;> cases hf

/-! ## Requests to either stack -/

theorem safe_load (stack : Stack) (hinv : ∀ w, inv w → w.Faithful) {id : ItemId}
    (hc : ∀ s', Later inv s s' → C.ledger t s'.1 s'.2 (.load id)) :
    (stack.ledger (.load id)).Safe (C.setting inv t)
      (fun r s' => Later inv s s' ∧ ∀ x, r = .ok x → s'.2.Held x ∧ x.id = id) s := by
  cases stack with
  | plain => exact safe_direct_load hinv hc
  | cached lifetimes =>
    refine safe_readItem hinv (fun w text x hcopies hdecode => ?_)
      fun s' hs' => safe_direct_load hinv fun s'' hs'' => hc s'' (hs'.trans hs'')
    rcases hcopies.item id rfl with ⟨y, hheld, hid, rfl⟩
    rw [StockItem.eq_of_decode?_encode hdecode]
    exact ⟨hheld, hid⟩

theorem safe_findByProduct (stack : Stack) (hinv : ∀ w, inv w → w.Faithful) {p : ProductId}
    (hc : ∀ s', Later inv s s' → C.ledger t s'.1 s'.2 (.findByProduct p)) :
    (stack.ledger (.findByProduct p)).Safe (C.setting inv t)
      (fun r s' => Later inv s s' ∧ ∀ x, r = .ok x → s'.2.Held x ∧ True) s := by
  cases stack with
  | plain => exact safe_direct_findByProduct hinv hc
  | cached lifetimes =>
    refine safe_readItem hinv (fun w text x hcopies hdecode => ?_)
      fun s' hs' => safe_direct_findByProduct hinv fun s'' hs'' => hc s'' (hs'.trans hs'')
    rcases hcopies.product p rfl with ⟨y, hheld, rfl⟩
    rw [StockItem.eq_of_decode?_encode hdecode]
    exact ⟨hheld, trivial⟩

theorem Wrote.later {u : StockItem} {s' s'' : Record × World} {r : Written}
    (h : Wrote inv u s s' r) (hs'' : Later inv s' s'') : Wrote inv u s s'' r where
  record := by
    rw [hs''.record]
    exact h.record
  world := hs''.world.trans h.world
  order := hs''.order
  success hr := hs''.record.trans (h.success hr)

theorem safe_update (stack : Stack) {u : StockItem}
    (hc : ∀ s', Later inv s s' → C.ledger t s'.1 s'.2 (.update u)) :
    (stack.ledger (.update u)).Safe (C.setting inv t) (fun r s' => Wrote inv u s s' r) s := by
  cases stack with
  | plain => exact safe_direct_update hc
  | cached lifetimes =>
    refine (safe_direct_update hc).bind fun r s' hs' => ?_
    split
    · refine safe_invalidate.bind fun _ s'' hs'' => ?_
      exact hs'.later hs''
    · exact hs'

theorem safe_save (stack : Stack) {x : StockItem}
    (hc : ∀ s', Later inv s s' → C.ledger t s'.1 s'.2 (.save x)) :
    (stack.ledger (.save x)).Safe (C.setting inv t) (fun _ s' => Later inv s s') s := by
  cases stack with
  | plain => exact (safe_direct_save hc).mono fun _ _ h => h.1
  | cached lifetimes =>
    refine (safe_direct_save hc).bind fun r s' hs' => ?_
    rcases hs' with ⟨hs', hheld⟩
    match r with
    | .ok () =>
      refine (safe_populate (hheld rfl)).bind fun _ s₂ hs₂ => ?_
      refine (safe_forgetLists fun _ h => Program.safe_pure.2 (.refl h)).bind fun _ s₃ hs₃ => ?_
      exact (hs'.trans hs₂).trans hs₃
    | .error f => exact hs'

theorem safe_writeOver {store : Program (Answer StockItem)}
    (hstore : store.Safe (C.setting inv t) (fun _ s' => Later inv s s') s) :
    (writeOver store).Safe (C.setting inv t) (fun _ s' => Later inv s s') s := by
  refine hstore.bind fun r s' hs' => ?_
  match r with
  | .ok x =>
    refine safe_invalidate.bind fun _ s'' hs'' => ?_
    exact hs'.trans hs''
  | .error f => exact hs'

theorem safe_delete (stack : Stack) {id : ItemId}
    (hc : ∀ s', Later inv s s' → C.ledger t s'.1 s'.2 (.delete id)) :
    (stack.ledger (.delete id)).Safe (C.setting inv t) (fun _ s' => Later inv s s') s := by
  cases stack with
  | plain => exact safe_ledger_quiet (fun _ _ _ => rfl) hc
  | cached lifetimes => exact safe_writeOver (safe_ledger_quiet (fun _ _ _ => rfl) hc)

theorem safe_bumpVersion (stack : Stack) {id : ItemId}
    (hc : ∀ s', Later inv s s' → C.ledger t s'.1 s'.2 (.bumpVersion id)) :
    (stack.ledger (.bumpVersion id)).Safe (C.setting inv t) (fun _ s' => Later inv s s') s := by
  cases stack with
  | plain => exact safe_ledger_quiet (fun _ _ _ => rfl) hc
  | cached lifetimes => exact safe_writeOver (safe_ledger_quiet (fun _ _ _ => rfl) hc)

theorem safe_findLowStock {n : Int} {limit : UInt64} (hinv : ∀ w, inv w → w.Faithful)
    (hc : ∀ s', Later inv s s' → C.ledger t s'.1 s'.2 (.findLowStock n limit)) :
    (LedgerAccess.cached lifetimes (.findLowStock n limit)).Safe (C.setting inv t)
      (fun _ s' => Later inv s s') s := by
  refine (safe_cachedItems hinv).bind fun a s' hs' => ?_
  match a with
  | some xs => exact hs'
  | none =>
    have hdirect : (LedgerAccess.direct (.findLowStock n limit)).Safe (C.setting inv t)
        (fun _ s'' => Later inv s' s'') s' :=
      safe_ledger_quiet (fun _ _ _ => rfl) fun s'' hs'' => hc s'' (hs'.trans hs'')
    refine hdirect.bind fun r s₂ hs₂ => ?_
    match r with
    | .ok xs =>
      refine (safe_keep (World.copies_lowStock ..)).bind fun _ s₃ hs₃ => ?_
      exact (hs'.trans hs₂).trans hs₃
    | .error f => exact hs'.trans hs₂

theorem safe_hasProduct (lifetimes : CacheLifetimes) (p : ProductId)
    (hinv : ∀ w, inv w → w.Faithful)
    (hc : ∀ s', Later inv s s' → C.ledger t s'.1 s'.2 (.hasProduct p)) :
    (LedgerAccess.cached lifetimes (.hasProduct p)).Safe (C.setting inv t)
      (fun _ s' => Later inv s s') s := by
  refine (safe_cacheGet hinv).bind fun r s' hr => ?_
  rcases hr with ⟨hs', -⟩
  have hdirect (s₂ : Record × World) (hs₂ : Later inv s s₂) :
      (LedgerAccess.direct (.hasProduct p)).Safe (C.setting inv t)
        (fun _ s₃ => Later inv s s₃) s₂ :=
    (safe_ledger_quiet (fun _ _ _ => rfl) fun s₃ hs₃ => hc s₃ (hs₂.trans hs₃)).mono
      fun _ _ hs₃ => hs₂.trans hs₃
  match r with
  | .ok (some text) => exact hs'
  | .ok none => exact hdirect s' hs'
  | .error _ =>
    refine Program.Safe.bind safe_log_among fun _ s₂ hs₂ => ?_
    exact hdirect s₂ (hs'.trans hs₂)

end
end StockLedger
