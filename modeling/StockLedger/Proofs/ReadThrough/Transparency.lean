import Mathlib.Tactic.Common
import StockLedger.Proofs.Program.Within
import StockLedger.Proofs.ReadThrough.Coherence

/-!
# The cache does not show

Requests that are made one after another through a cache are answered as if it were not there, as
long as nothing that is dropped from the cache stays in it and no text is to outlive the clock.

* `Touched` : the keys of what is cached about an item, and of every list;
* `MemoryLedger.Vouches.agree` : a change to one item puts nothing in doubt but such keys;
* `safe_cached` : one request through the cache;
* `Desk.serve`, `MemoryLedger.serve` : requests one after another, through the cache and without;
* `ledger_attempt`, `attempt_cached` : one request that may be broken off;
* `serve_cached` : both leave the same rows, and give the same answers until one is broken off;
* `Serving.serve_longest` : an answer after that may be outdated.
-/

namespace StockLedger

open ReadThrough

/-- The keys of what is cached about an item of a product, and the keys of lists. -/
def Touched (id : ItemId) (p : ProductId) (key : String) : Prop :=
  key = CacheKey.item id ∨ key = CacheKey.product p ∨
    MemoryCache.fits CacheKey.allLowStock key = true

/-- Every text in the cache is true. -/
abbrev Settled (l : MemoryLedger) (d : Desk) : Prop :=
  Watched l (fun _ => False) d

/-! ## What a text vouches for -/

namespace MemoryLedger

variable {l l' : MemoryLedger}

theorem vouches_item {s : StockItem} (hs : l.items.find? s.id = some s) :
    l.Vouches (CacheKey.item s.id) s.encode where
  item _ hkey := ⟨s, CacheKey.item_injective hkey ▸ hs, rfl⟩
  product _ hkey := absurd hkey (CacheKey.item_ne_product _ _)
  lowStock _ _ hkey := absurd hkey (CacheKey.item_ne_lowStock _ _ _)

theorem vouches_product {s : StockItem} (hs : l.items.find? s.id = some s)
    (hp : l.byProduct.find? s.productId = some s.id) :
    l.Vouches (CacheKey.product s.productId) s.encode where
  item _ hkey := absurd hkey.symm (CacheKey.item_ne_product _ _)
  product _ hkey := ⟨s.id, s, CacheKey.product_injective hkey ▸ hp, hs, rfl⟩
  lowStock _ _ hkey := absurd hkey (CacheKey.product_ne_lowStock _ _ _)

theorem vouches_lowStock (t : Int) (n : UInt64) :
    l.Vouches (CacheKey.lowStock t n) (StockItem.encodeAll (l.lowStock t n)) where
  item _ hkey := absurd hkey.symm (CacheKey.item_ne_lowStock _ _ _)
  product _ hkey := absurd hkey.symm (CacheKey.product_ne_lowStock _ _ _)
  lowStock _ _ hkey := by
    rcases CacheKey.lowStock_injective hkey with ⟨rfl, rfl⟩
    rfl

/-- What is said about other items and products stays true when one item changes. -/
theorem Vouches.agree {id : ItemId} {p : ProductId} {key text : String}
    (hitem : ∀ j, j ≠ id → l'.items.find? j = l.items.find? j)
    (hproduct : ∀ q, q ≠ p → l'.byProduct.find? q = l.byProduct.find? q)
    (hlead : ∀ q, l.byProduct.find? q = some id → q = p) (h : l.Vouches key text) :
    Touched id p key ∨ l'.Vouches key text := by
  by_cases htouched : Touched id p key
  · exact .inl htouched
  · refine .inr ⟨fun j hkey => ?_, fun q hkey => ?_, fun t n hkey => ?_⟩
    · rcases h.item j hkey with ⟨s, hs, htext⟩
      have hj : j ≠ id := by
        rintro rfl
        exact htouched (.inl hkey)
      exact ⟨s, (hitem j hj).trans hs, htext⟩
    · rcases h.product q hkey with ⟨j, s, hj, hs, htext⟩
      have hq : q ≠ p := by
        rintro rfl
        exact htouched (.inr (.inl hkey))
      have hne : j ≠ id := by
        rintro rfl
        exact hq (hlead q hj)
      exact ⟨j, s, (hproduct q hq).trans hj, (hitem j hne).trans hs, htext⟩
    · exact absurd (.inr (.inr (hkey ▸ CacheKey.fits_lowStock t n))) htouched

/-- Nothing but lists is put in doubt by a new item. -/
theorem Vouches.save (hl : l.Indexed) {s : StockItem} {key text : String}
    (hid : l.items.find? s.id = none) (hproduct : l.byProduct.find? s.productId = none)
    (h : l.Vouches key text) :
    MemoryCache.fits CacheKey.allLowStock key = true ∨
      Vouches ⟨l.items.insert s.id s, l.byProduct.insert s.productId s.id⟩ key text := by
  have hlead (q : ProductId) (hq : l.byProduct.find? q = some s.id) : q = s.productId := by
    rcases hl.tells q s.id hq with ⟨x, hx, -⟩
    rw [hid] at hx
    cases hx
  have hagree : Touched s.id s.productId key ∨
      Vouches ⟨l.items.insert s.id s, l.byProduct.insert s.productId s.id⟩ key text :=
    h.agree (fun j hj => by rw [Table.find?_insert, if_neg hj])
      (fun q hq => by rw [Table.find?_insert, if_neg hq]) hlead
  rcases hagree with htouched | h'
  · rcases htouched with hkey | hkey | hkey
    · rcases h.item s.id hkey with ⟨x, hx, -⟩
      rw [hid] at hx
      cases hx
    · rcases h.product s.productId hkey with ⟨j, x, hj, -, -⟩
      rw [hproduct] at hj
      cases hj
    · exact .inl hkey
  · exact .inr h'

/-- A new version of an item puts in doubt what is cached about it, and lists. -/
theorem Vouches.insert (hl : l.Indexed) {id : ItemId} {s stored : StockItem} {key text : String}
    (hstored : l.items.find? id = some stored) (h : l.Vouches key text) :
    Touched id stored.productId key ∨
      Vouches ⟨l.items.insert id s, l.byProduct⟩ key text := by
  refine Vouches.agree (l := l) (fun j hj => by rw [Table.find?_insert, if_neg hj])
    (fun _ _ => rfl) ?_ h
  intro q hq
  rcases hl.tells q id hq with ⟨x, hx, hxq⟩
  rw [hstored] at hx
  cases hx
  exact hxq.symm

theorem Vouches.delete (hl : l.Indexed) {id : ItemId} {s : StockItem} {key text : String}
    (hid : l.items.find? id = some s) (h : l.Vouches key text) :
    Touched id s.productId key ∨
      Vouches ⟨l.items.erase id, l.byProduct.erase s.productId⟩ key text := by
  refine h.agree (fun j hj => by rw [Table.find?_erase, if_neg hj])
    (fun q hq => by rw [Table.find?_erase, if_neg hq]) ?_
  intro q hq
  rcases hl.tells q id hq with ⟨x, hx, hxq⟩
  rw [hid] at hx
  cases hx
  exact hxq.symm

end MemoryLedger

/-! ## Steps of a request -/

section Steps

variable {l l' : MemoryLedger} {doubt : String → Prop} {d : Desk} {mishaps : Nat → Mishap}
  {now : Timestamp} {lifetimes : CacheLifetimes}

/-- The ledger itself answers; what may be untrue of it afterwards is in doubt. -/
theorem watched_direct {c : LedgerCall} {r : c.Reply} (hreply : l.reply now c = r)
    (happly : l.apply now c = l') (hd : Settled l d)
    (h : ∀ key text, l.Vouches key text → doubt key ∨ l'.Vouches key text) :
    (LedgerAccess.direct c).Safe (Desk.setting mishaps now)
      (fun r' d' => r' = r ∧ Watched l' doubt d') d := by
  rcases hd with ⟨rfl, honline, htruth⟩
  subst hreply happly
  refine safe_direct ⟨rfl, rfl, honline, fun key e he => ?_⟩
  rcases htruth key e he with hfalse | hv
  · exact hfalse.elim
  · exact h key e.value hv

theorem watched_log {level : LogLevel} {message : String} (hd : Watched l doubt d) :
    (Program.log level message).Safe (Desk.setting mishaps now)
      (fun _ d' => Watched l doubt d') d :=
  safe_log hd

theorem watched_forget {keys : List String} (hm : ∀ n, (mishaps n).Obliging)
    (hd : Watched l doubt d) :
    (forget keys).Safe (Desk.setting mishaps now)
      (fun _ d' => Watched l (fun key => doubt key ∧ key ∉ keys) d') d := by
  refine (watched_delete hm hd).bind fun r d' hr => ?_
  rcases hr with ⟨rfl, hd'⟩
  exact hd'

theorem settled_cachedItem {key : String} (hm : ∀ n, (mishaps n).Obliging) (hd : Settled l d) :
    (cachedItem key).Safe (Desk.setting mishaps now)
      (fun a d' => Settled l d' ∧ ∀ s, a = some s →
        ∃ text, l.Vouches key text ∧ StockItem.decode? text = some s) d := by
  refine (watched_get hd).bind fun r d' hr => ?_
  rcases hr with ⟨hd', htrue⟩
  match r with
  | .ok none => exact ⟨hd', fun _ h => (nomatch h)⟩
  | .ok (some text) =>
    cases hdecode : StockItem.decode? text with
    | some s =>
      simp only [hdecode]
      refine ⟨hd', fun x hx => ⟨text, (htrue text rfl).resolve_left id, ?_⟩⟩
      cases hx
      exact hdecode
    | none =>
      simp only [hdecode]
      refine (watched_log hd').bind fun _ d₂ hd₂ => ?_
      refine (watched_forget hm hd₂).bind fun _ d₃ hd₃ => ?_
      exact ⟨hd₃.mono fun _ h => h.1, fun _ h => (nomatch h)⟩
  | .error _ =>
    exact (watched_log hd').bind fun _ d₂ hd₂ => ⟨hd₂, fun _ h => (nomatch h)⟩

theorem watched_cachedItems {key : String} (hkey : ¬ doubt key) (hd : Watched l doubt d) :
    (cachedItems key).Safe (Desk.setting mishaps now)
      (fun a d' => Watched l doubt d' ∧ ∀ xs, a = some xs →
        ∃ text, l.Vouches key text ∧ StockItem.decodeAll? text = some xs) d := by
  refine (watched_get hd).bind fun r d' hr => ?_
  rcases hr with ⟨hd', htrue⟩
  match r with
  | .ok none => exact ⟨hd', fun _ h => (nomatch h)⟩
  | .ok (some text) =>
    cases hdecode : StockItem.decodeAll? text with
    | some xs =>
      simp only [hdecode]
      refine ⟨hd', fun x hx => ⟨text, (htrue text rfl).resolve_left hkey, ?_⟩⟩
      cases hx
      exact hdecode
    | none =>
      simp only [hdecode]
      exact (watched_log hd').bind fun _ d₂ hd₂ => ⟨hd₂, fun _ h => (nomatch h)⟩
  | .error _ =>
    exact (watched_log hd').bind fun _ d₂ hd₂ => ⟨hd₂, fun _ h => (nomatch h)⟩

theorem watched_keep {key text : String} {ttl : Span} (hd : Watched l doubt d)
    (h : l.Vouches key text) :
    (keep key text ttl).Safe (Desk.setting mishaps now) (fun _ d' => Watched l doubt d') d := by
  refine (watched_set hd (.inr h)).bind fun r d' hd' => ?_
  match r with
  | .ok () => exact hd'
  | .error _ => exact watched_log hd'

/-- An item is cached where it will be looked for. -/
theorem watched_populate {s : StockItem} (hd : Watched l doubt d)
    (hs : l.items.find? s.id = some s) (hp : l.byProduct.find? s.productId = some s.id) :
    (populate lifetimes s).Safe (Desk.setting mishaps now) (fun _ d' => Watched l doubt d') d := by
  refine (watched_keep hd (MemoryLedger.vouches_item hs)).bind fun _ d' hd' => ?_
  exact watched_keep hd' (MemoryLedger.vouches_product hs hp)

/-- Lists that are dropped are no longer in doubt. -/
theorem watched_forgetLists {onSuccess : Program Unit} (hm : ∀ n, (mishaps n).Obliging)
    (hok : ∀ d', Settled l d' →
      onSuccess.Safe (Desk.setting mishaps now) (fun _ d₂ => Settled l d₂) d')
    (hd : Watched l (fun key => MemoryCache.fits CacheKey.allLowStock key = true) d) :
    (forgetLists onSuccess).Safe (Desk.setting mishaps now) (fun _ d' => Settled l d') d := by
  refine (watched_deletePattern hm hd).bind fun r d' hr => ?_
  rcases hr with ⟨⟨n, rfl⟩, hd'⟩
  refine hok d' (hd'.mono fun key hkey => ?_)
  rw [hkey.1] at hkey
  exact absurd hkey.2 Bool.noConfusion

/-- What a change to an item put in doubt is dropped. -/
theorem watched_invalidate {id : ItemId} {p : ProductId} (hm : ∀ n, (mishaps n).Obliging)
    (hd : Watched l (Touched id p) d) :
    (invalidate id p).Safe (Desk.setting mishaps now) (fun _ d' => Settled l d') d := by
  refine (watched_forget hm hd).bind fun _ d' hd' => ?_
  refine watched_forgetLists hm (fun d₂ hd₂ => watched_log hd₂) (hd'.mono fun key hkey => ?_)
  rcases hkey with ⟨htouched, hkept⟩
  rw [List.mem_cons, List.mem_singleton, not_or] at hkept
  exact (htouched.resolve_left hkept.1).resolve_left hkept.2

/-! ## Reads -/

/-- A request that changes nothing puts nothing in doubt. -/
theorem watched_read {c : LedgerCall} (hc : l.apply now c = l) (hd : Watched l doubt d) :
    (LedgerAccess.direct c).Safe (Desk.setting mishaps now)
      (fun r d' => r = l.reply now c ∧ Watched l doubt d') d := by
  rcases hd with ⟨rfl, honline, htruth⟩
  exact safe_direct ⟨rfl, hc, honline, htruth⟩

theorem settled_readItem {key : String} {fetch : Program (Answer StockItem)}
    {answer : Answer StockItem} (hm : ∀ n, (mishaps n).Obliging) (hd : Settled l d)
    (hhit : ∀ text s, l.Vouches key text → StockItem.decode? text = some s → answer = .ok s)
    (hfetch : ∀ d', Settled l d' →
      fetch.Safe (Desk.setting mishaps now) (fun r d₂ => r = answer ∧ Settled l d₂) d')
    (hrow : ∀ s, answer = .ok s →
      l.items.find? s.id = some s ∧ l.byProduct.find? s.productId = some s.id) :
    (readItem lifetimes key fetch).Safe (Desk.setting mishaps now)
      (fun r d' => r = answer ∧ Settled l d') d := by
  refine (settled_cachedItem hm hd).bind fun a d' ha => ?_
  rcases ha with ⟨hd', hcached⟩
  match a with
  | some s =>
    rcases hcached s rfl with ⟨text, hv, hdecode⟩
    exact ⟨(hhit text s hv hdecode).symm, hd'⟩
  | none =>
    refine (hfetch d' hd').bind fun r d₂ hr => ?_
    rcases hr with ⟨rfl, hd₂⟩
    match r with
    | .ok s =>
      rcases hrow s rfl with ⟨hs, hp⟩
      refine (watched_populate hd₂ hs hp).bind fun _ d₃ hd₃ => ?_
      exact ⟨rfl, hd₃⟩
    | .error f => exact ⟨rfl, hd₂⟩

theorem settled_load {id : ItemId} (hm : ∀ n, (mishaps n).Obliging) (hl : l.Indexed)
    (hd : Settled l d) :
    (LedgerAccess.cached lifetimes (.load id)).Safe (Desk.setting mishaps now)
      (fun r d' => r = l.load id ∧ Settled l d') d := by
  refine settled_readItem hm hd ?_ (fun d' hd' => watched_read rfl hd') ?_
  · intro text s hv hdecode
    rcases hv.item id rfl with ⟨x, hx, rfl⟩
    rw [StockItem.eq_of_decode?_encode hdecode]
    simp [MemoryLedger.load, hx]
  · intro s hs
    cases hx : l.items.find? id with
    | none => simp [MemoryLedger.load, hx] at hs
    | some x =>
      simp only [MemoryLedger.load, hx, Except.ok.injEq] at hs
      subst hs
      rcases hl.keyed id x hx with rfl
      exact ⟨hx, hl.leads _ x hx⟩

theorem settled_findByProduct {p : ProductId} (hm : ∀ n, (mishaps n).Obliging) (hl : l.Indexed)
    (hd : Settled l d) :
    (LedgerAccess.cached lifetimes (.findByProduct p)).Safe (Desk.setting mishaps now)
      (fun r d' => r = l.findByProduct p ∧ Settled l d') d := by
  refine settled_readItem hm hd ?_ (fun d' hd' => watched_read rfl hd') ?_
  · intro text s hv hdecode
    rcases hv.product p rfl with ⟨id, x, hid, hx, rfl⟩
    rw [StockItem.eq_of_decode?_encode hdecode]
    simp [MemoryLedger.findByProduct, hid, hx]
  · intro s hs
    cases hx : (l.byProduct.find? p).bind l.items.find? with
    | none => simp [MemoryLedger.findByProduct, hx] at hs
    | some x =>
      simp only [MemoryLedger.findByProduct, hx, Except.ok.injEq] at hs
      subst hs
      rcases Option.bind_eq_some_iff.1 hx with ⟨id, -, hid⟩
      rcases hl.keyed id x hid with rfl
      exact ⟨hid, hl.leads _ x hid⟩

/-- A list whose key is not in doubt is the list that the ledger would give. -/
theorem watched_readLowStock {t : Int} {n : UInt64} (hkey : ¬ doubt (CacheKey.lowStock t n))
    (hd : Watched l doubt d) :
    (LedgerAccess.cached lifetimes (.findLowStock t n)).Safe (Desk.setting mishaps now)
      (fun r d' => r = .ok (l.lowStock t n) ∧ Watched l doubt d') d := by
  refine (watched_cachedItems hkey hd).bind fun a d' ha => ?_
  rcases ha with ⟨hd', hcached⟩
  match a with
  | some xs =>
    rcases hcached xs rfl with ⟨text, hv, hdecode⟩
    rw [hv.lowStock t n rfl] at hdecode
    exact ⟨by rw [StockItem.eq_of_decodeAll?_encodeAll hdecode], hd'⟩
  | none =>
    refine (watched_read rfl hd').bind fun r d₂ hr => ?_
    rcases hr with ⟨rfl, hd₂⟩
    refine (watched_keep hd₂ (MemoryLedger.vouches_lowStock t n)).bind fun _ d₃ hd₃ => ?_
    exact ⟨rfl, hd₃⟩

theorem settled_readHasProduct {p : ProductId} (hd : Settled l d) :
    (LedgerAccess.cached lifetimes (.hasProduct p)).Safe (Desk.setting mishaps now)
      (fun r d' => r = .ok (l.byProduct.contains p) ∧ Settled l d') d := by
  refine (watched_get hd).bind fun r d' hr => ?_
  rcases hr with ⟨hd', htrue⟩
  match r with
  | .ok (some text) =>
    rcases ((htrue text rfl).resolve_left fun h => h).product p rfl with ⟨id, s, hid, -, -⟩
    have hcontains : l.byProduct.contains p = true :=
      (Table.contains_eq_true_iff _ _).2 ⟨id, hid⟩
    exact ⟨by rw [hcontains], hd'⟩
  | .ok none => exact watched_read rfl hd'
  | .error _ =>
    refine (watched_log hd').bind fun _ d₂ hd₂ => ?_
    exact watched_read rfl hd₂

/-! ## Writes -/

theorem settled_writeNew {s : StockItem} {r : Answer Unit} (hm : ∀ n, (mishaps n).Obliging)
    (hl : l.Indexed) (hreply : l.reply now (.save s) = r) (happly : l.apply now (.save s) = l')
    (ho : MemoryLedger.Outcome l now (.save s) r l') (hd : Settled l d) :
    (LedgerAccess.cached lifetimes (.save s)).Safe (Desk.setting mishaps now)
      (fun r' d' => r' = r ∧ Settled l' d') d := by
  cases ho with
  | unchanged _ hchanges =>
    refine (watched_read happly hd).bind fun r d' hr => ?_
    rcases hr with ⟨rfl, hd'⟩
    match hr : l.reply now (.save s) with
    | .ok () => rw [hr] at hchanges; cases hchanges
    | .error f => exact ⟨rfl, hd'⟩
  | saved _ hid hproduct =>
    refine (watched_direct hreply happly hd fun _ _ hv => hv.save hl hid hproduct).bind
      fun r d' hr => ?_
    rcases hr with ⟨rfl, hd'⟩
    refine (watched_populate hd' (by rw [Table.find?_insert, if_pos rfl])
      (by rw [Table.find?_insert, if_pos rfl])).bind fun _ d₂ hd₂ => ?_
    refine (watched_forgetLists hm (fun _ h => Program.safe_pure.2 h) hd₂).bind
      fun _ d₃ hd₃ => ?_
    exact ⟨rfl, hd₃⟩

theorem settled_writeConditional {s : StockItem} {r : Written} (hm : ∀ n, (mishaps n).Obliging)
    (hl : l.Indexed) (hs : l.KeepsProduct (.update s)) (hreply : l.reply now (.update s) = r)
    (happly : l.apply now (.update s) = l')
    (ho : MemoryLedger.Outcome l now (.update s) r l') (hd : Settled l d) :
    (LedgerAccess.cached lifetimes (.update s)).Safe (Desk.setting mishaps now)
      (fun r' d' => r' = r ∧ Settled l' d') d := by
  cases ho with
  | unchanged _ hchanges =>
    refine (watched_read happly hd).bind fun r d' hr => ?_
    rcases hr with ⟨rfl, hd'⟩
    -- A refusal may still show that the cached copy is outdated; dropping it does no harm.
    split
    · refine (watched_invalidate hm (hd'.mono fun _ h => h.elim)).bind fun _ d₂ hd₂ => ?_
      exact ⟨rfl, hd₂⟩
    · exact ⟨rfl, hd'⟩
  | updated _ stored hid hversion =>
    have hproduct : stored.productId = s.productId := (hs stored hid).symm
    refine (watched_direct hreply happly hd fun _ _ hv => hproduct ▸ hv.insert hl hid).bind
      fun r d' hr => ?_
    rcases hr with ⟨rfl, hd'⟩
    refine (watched_invalidate hm hd').bind fun _ d₂ hd₂ => ?_
    exact ⟨rfl, hd₂⟩

/-- What is in doubt after a write that answers with the item. -/
def InDoubt : Answer StockItem → String → Prop
  | .ok s => Touched s.id s.productId
  | .error _ => fun _ => False

theorem settled_writeOver {r : Answer StockItem} {store : Program (Answer StockItem)}
    (hm : ∀ n, (mishaps n).Obliging)
    (hstore : store.Safe (Desk.setting mishaps now)
      (fun r' d' => r' = r ∧ Watched l' (InDoubt r) d') d) :
    (writeOver store).Safe (Desk.setting mishaps now)
      (fun r' d' => r' = r ∧ Settled l' d') d := by
  refine hstore.bind fun r' d' hr => ?_
  rcases hr with ⟨rfl, hd'⟩
  match r' with
  | .ok s =>
    refine (watched_invalidate hm hd').bind fun _ d₂ hd₂ => ?_
    exact ⟨rfl, hd₂⟩
  | .error f => exact ⟨rfl, hd'⟩

theorem vouches_delete {id : ItemId} {r : Answer StockItem} {key text : String} (hl : l.Indexed)
    (ho : MemoryLedger.Outcome l now (.delete id) r l') (hv : l.Vouches key text) :
    InDoubt r key ∨ l'.Vouches key text := by
  cases ho with
  | unchanged => exact .inr hv
  | deleted _ s hid =>
    rcases hl.keyed id s hid with rfl
    exact hv.delete hl hid

theorem vouches_bumpVersion {id : ItemId} {r : Answer StockItem} {key text : String}
    (hl : l.Indexed) (ho : MemoryLedger.Outcome l now (.bumpVersion id) r l')
    (hv : l.Vouches key text) : InDoubt r key ∨ l'.Vouches key text := by
  cases ho with
  | unchanged => exact .inr hv
  | bumped _ s hid =>
    rcases hl.keyed id s hid with rfl
    have h := hv.insert (s := MemoryLedger.advance s now) hl hid
    exact h

/-! ## Every request -/

/-- One request through the cache: the answer of the ledger, and a cache that is still true. -/
theorem safe_cached {c : LedgerCall} (hm : ∀ n, (mishaps n).Obliging) (hl : l.Indexed)
    (hc : l.KeepsProduct c) (hd : Settled l d) :
    (LedgerAccess.cached lifetimes c).Safe (Desk.setting mishaps now)
      (fun r d' => r = l.reply now c ∧ Settled (l.apply now c) d') d := by
  have ho := l.outcome now c
  cases c with
  | load id => exact settled_load hm hl hd
  | findByProduct p => exact settled_findByProduct hm hl hd
  | findMany ids => exact watched_read rfl hd
  | findLowStock t n => exact watched_readLowStock id hd
  | count => exact watched_read rfl hd
  | hasProduct p => exact settled_readHasProduct hd
  | save s => exact settled_writeNew hm hl rfl rfl ho hd
  | update s => exact settled_writeConditional hm hl hc rfl rfl ho hd
  | delete id =>
    exact settled_writeOver hm (watched_direct rfl rfl hd fun _ _ hv => vouches_delete hl ho hv)
  | bumpVersion id =>
    exact settled_writeOver hm
      (watched_direct rfl rfl hd fun _ _ hv => vouches_bumpVersion hl ho hv)

end Steps

/-! ## Requests one after another -/

/--
Requests, each made at an instant, through a cache. One that is broken off has no answer, and the
next one is made all the same.
-/
def Desk.serve (mishaps : Nat → Mishap) (lifetimes : CacheLifetimes) (d : Desk) :
    List (Timestamp × LedgerCall) → List (Option Exchange) × Desk
  | [] => ([], d)
  | (now, c) :: rest =>
      let (r?, d) := (LedgerAccess.cached lifetimes c).attempt (Desk.tell mishaps now) d
      let (exchanges, d) := d.serve mishaps lifetimes rest
      (r?.map (Sigma.mk c) :: exchanges, d)

/-- Each write, when it is made, leaves the product of the stored item as it is. -/
def MemoryLedger.KeepsProducts (l : MemoryLedger) : List (Timestamp × LedgerCall) → Prop
  | [] => True
  | (now, c) :: rest => l.KeepsProduct c ∧ (l.apply now c).KeepsProducts rest

instance MemoryLedger.decidableKeepsProducts (l : MemoryLedger) :
    (requests : List (Timestamp × LedgerCall)) → Decidable (l.KeepsProducts requests)
  | [] => .isTrue trivial
  | (now, c) :: rest =>
      have := (l.apply now c).decidableKeepsProducts rest
      inferInstanceAs (Decidable (l.KeepsProduct c ∧ (l.apply now c).KeepsProducts rest))

/-- What is cached at this uptime dies before the clock ends. -/
def CacheLifetimes.EndInTime (lifetimes : CacheLifetimes) (uptime : Nat) : Prop :=
  MemoryCache.endsInTime uptime lifetimes.item = true ∧
    MemoryCache.endsInTime uptime lifetimes.lowStock = true

instance (lifetimes : CacheLifetimes) (uptime : Nat) : Decidable (lifetimes.EndInTime uptime) := by
  unfold CacheLifetimes.EndInTime; infer_instance

/-- A request that writes nothing leaves the ledger as it is. -/
theorem MemoryLedger.Outcome.eq_of_reads {l l' : MemoryLedger} {now : Timestamp} {c : LedgerCall}
    {r : c.Reply} (ho : MemoryLedger.Outcome l now c r l') (hc : c.writes = false) : l' = l := by
  cases ho with
  | unchanged => rfl
  | saved | updated | deleted | bumped => cases hc

section Attempts

variable {mishaps : Nat → Mishap} {lifetimes : CacheLifetimes} {now : Timestamp} {l : MemoryLedger}
  {d : Desk}

/-- Whether or not a request is broken off, the ledger is changed as if it had been asked itself. -/
theorem ledger_attempt (mishaps : Nat → Mishap) (lifetimes : CacheLifetimes) (now : Timestamp)
    (c : LedgerCall) (d : Desk) :
    ((LedgerAccess.cached lifetimes c).attempt (Desk.tell mishaps now) d).2.ledger =
      d.ledger.apply now c := by
  cases hwrites : c.writes with
  | true =>
    obtain ⟨next, hcached, hcache⟩ := cached_write lifetimes hwrites
    have hleaves (s : Desk) (q : Call) (hq : q.ofCache = true) :
        (Desk.tell mishaps now s q).2.ledger = s.ledger := by
      refine Desk.ledger_tell mishaps now s q ?_
      rintro p rfl
      cases hq
    -- The ledger has answered before anything is asked of the cache.
    rw [hcached]
    exact (hcache _).attempt_leaves Desk.ledger hleaves
      { d with ledger := d.ledger.apply now c }
  | false =>
    have hsame (m : MemoryLedger) : m.apply now c = m := (m.outcome now c).eq_of_reads hwrites
    have hreads : (LedgerAccess.cached lifetimes c).Within
        fun q => ∀ p, q = .ledger p → ∀ m : MemoryLedger, m.apply now p = m := by
      refine within_cached ⟨fun q hq p hp => ?_, fun _ _ _ h => (nomatch h)⟩
        (fun _ _ _ h => (nomatch h)) ?_
      · subst hp
        cases hq
      · rintro p ⟨⟩
        exact hsame
    rw [hsame]
    exact hreads.attempt_leaves Desk.ledger
      (fun s q hq => Desk.ledger_tell mishaps now s q fun p hp => hq p hp s.ledger) d

/-- Where texts die in time no request overruns the clock. -/
theorem within_inTime (hends : ∀ n, lifetimes.EndInTime (mishaps n).uptime) (c : LedgerCall) :
    (LedgerAccess.cached lifetimes c).Within fun q => ∀ d : Desk, d.overruns mishaps q = false := by
  have hset (key text : String) (ttl : Span)
      (httl : ∀ n, MemoryCache.endsInTime (mishaps n).uptime ttl = true) (d : Desk) :
      d.overruns mishaps (.cache (.set key text ttl)) = false := by
    rw [Desk.overruns, Mishap.overruns, MemoryCache.countable, httl d.asked, Bool.not_true,
      Bool.and_false]
  refine within_cached ⟨fun q hq d => ?_, fun _ text => ?_⟩ (fun key text => ?_) fun _ => rfl
  · cases q with
    | cache q =>
      cases q with
      | set => cases hq
      | get | delete | deletePattern => exact Bool.and_false _
    | _ => rfl
  · exact hset _ text lifetimes.item fun n => (hends n).1
  · exact hset key text lifetimes.lowStock fun n => (hends n).2

/-- One request: if it is not broken off, its answer is that of the ledger. -/
theorem attempt_cached (lifetimes : CacheLifetimes) (now : Timestamp) {c : LedgerCall}
    (hm : ∀ n, (mishaps n).Obliging) (hl : l.Indexed) (hc : l.KeepsProduct c) (hd : Settled l d) :
    let out := (LedgerAccess.cached lifetimes c).attempt (Desk.tell mishaps now) d
    (∀ r, out.1 = some r → r = l.reply now c ∧ Settled (l.apply now c) out.2) ∧
      ((∀ n, lifetimes.EndInTime (mishaps n).uptime) → out.1 = some (l.reply now c)) := by
  intro out
  have hsafe : (LedgerAccess.cached lifetimes c).Safe (Desk.setting mishaps now)
      (fun r d' => r = l.reply now c ∧ Settled (l.apply now c) d') d := safe_cached hm hl hc hd
  obtain ⟨r, d', hrun, rfl, hd'⟩ := hsafe.runOn
  -- If every request has an answer, the program ends as it does when nobody breaks it off.
  refine ⟨fun r hr => ?_, fun hends => ?_⟩
  · have hout : out = (some r, out.2) := Prod.ext hr rfl
    have hrun' := Program.runOn_of_attempt Desk.answer?_of_tell hout
    cases hrun.symm.trans hrun'
    exact ⟨rfl, hd'⟩
  · have hout : out = (some (l.reply now c), d') :=
      (within_inTime hends c).attempt_of_runOn (fun hq => Desk.tell_of_answer? (hq _)) hrun
    exact congrArg Prod.fst hout

/-- The rows are those that the requests would have left without a cache, whatever befalls it. -/
theorem Desk.ledger_serve (mishaps : Nat → Mishap) (lifetimes : CacheLifetimes)
    (requests : List (Timestamp × LedgerCall)) (d : Desk) :
    (d.serve mishaps lifetimes requests).2.ledger = (d.ledger.serve requests).2 := by
  induction requests generalizing d with
  | nil => rfl
  | cons request rest ih =>
    rcases request with ⟨now, c⟩
    have hrest := ih ((LedgerAccess.cached lifetimes c).attempt (Desk.tell mishaps now) d).2
    rw [ledger_attempt] at hrest
    exact hrest

/-- As long as no request has been broken off, the answers are those of the ledger. -/
theorem serve_of_settled (hm : ∀ n, (mishaps n).Obliging)
    (requests : List (Timestamp × LedgerCall)) (hl : l.Indexed) (hkeeps : l.KeepsProducts requests)
    (hd : Settled l d) :
    let told := d.serve mishaps lifetimes requests
    (∀ n, none ∉ told.1.take n → told.1.take n = ((l.serve requests).1.take n).map some) ∧
      ((∀ n, lifetimes.EndInTime (mishaps n).uptime) → told.1 = (l.serve requests).1.map some) := by
  -- What carries the induction is that the cache is true, and that is so only as long as no
  -- request has been broken off; so the answers after the first such request are left open.
  induction requests generalizing l d with
  | nil => exact ⟨fun _ _ => by simp [Desk.serve, MemoryLedger.serve], fun _ => rfl⟩
  | cons request rest ih =>
    rcases request with ⟨now, c⟩
    let out := (LedgerAccess.cached lifetimes c).attempt (Desk.tell mishaps now) d
    obtain ⟨hanswers, hends⟩ := attempt_cached lifetimes now hm hl hkeeps.1 hd
    have hrest (hout : Settled (l.apply now c) out.2) :=
      ih (hl.outcome hkeeps.1 (l.outcome now c)) hkeeps.2 hout
    refine ⟨fun n hnone => ?_, fun hall => ?_⟩
    · cases n with
      | zero => rfl
      | succ n =>
        have htake : ((d.serve mishaps lifetimes ((now, c) :: rest)).1).take (n + 1) =
            out.1.map (Sigma.mk c) ::
              (out.2.serve mishaps lifetimes rest).1.take n := rfl
        rw [htake, List.mem_cons, not_or] at hnone
        obtain ⟨hfirst, hlater⟩ := hnone
        have hsome : out.1 ≠ none := fun h => hfirst (congrArg (Option.map (Sigma.mk c)) h).symm
        obtain ⟨r, hr⟩ := Option.ne_none_iff_exists'.1 hsome
        obtain ⟨rfl, hout⟩ := hanswers r hr
        rw [htake, hr, (hrest hout).1 n hlater]
        rfl
    · have hr := hends hall
      rw [MemoryLedger.serve, List.map_cons, ← (hrest (hanswers _ hr).2).2 hall]
      exact congrArg (· :: _) (congrArg (Option.map (Sigma.mk c)) hr)

end Attempts

theorem MemoryLedger.KeepsProducts.of_append {l : MemoryLedger}
    {before requests : List (Timestamp × LedgerCall)} (hl : l.Indexed)
    (h : l.KeepsProducts (before ++ requests)) :
    (l.serve before).2.Indexed ∧ (l.serve before).2.KeepsProducts requests := by
  induction before generalizing l with
  | nil => exact ⟨hl, h⟩
  | cons request rest ih =>
    rcases request with ⟨now, c⟩
    exact ih (hl.outcome h.1 (l.outcome now c)) h.2

/--
Requests one after another through a cache leave the rows that they leave without it, and as long
as none has been broken off they are answered exactly as without it: whatever the cache loses,
whichever of its reads and writes fail, as long as what is dropped from it is gone. If every text
that is cached dies before the clock ends, none is broken off. The cache starts out empty, over a
ledger that may have been used before.
-/
theorem serve_cached (lifetimes : CacheLifetimes) (mishaps : Nat → Mishap)
    (hm : ∀ n, (mishaps n).Obliging) (before requests : List (Timestamp × LedgerCall))
    (hkeeps : MemoryLedger.empty.KeepsProducts (before ++ requests)) :
    let l := (MemoryLedger.empty.serve before).2
    let plain := l.serve requests
    let told := Desk.serve mishaps lifetimes { ledger := l } requests
    told.2.ledger = plain.2 ∧
      (∀ n, none ∉ told.1.take n → told.1.take n = (plain.1.take n).map some) ∧
      ((∀ n, lifetimes.EndInTime (mishaps n).uptime) → told.1 = plain.1.map some) := by
  intro l plain told
  obtain ⟨hl, hrequests⟩ := hkeeps.of_append MemoryLedger.indexed_empty
  have hd : Settled l { ledger := l } := ⟨rfl, rfl, fun _ _ he => nomatch he⟩
  exact ⟨Desk.ledger_serve mishaps lifetimes requests { ledger := l },
    serve_of_settled hm requests hl hrequests hd⟩

/-- A cache whose reads fail, and whose writes seem to. -/
def Mishap.deaf : Mishap where
  lost := []
  uptime := 0
  refusal
    | .get _ | .set _ _ _ => some (.unavailable "connection reset")
    | .delete _ | .deletePattern _ => .none
  carriedOut := true

namespace Serving

/-- An item with ten units was stored. -/
def stocked : MemoryLedger :=
  (MemoryLedger.empty.serve [(.epoch, .save (.ten 1))]).2

/-- Two writers with the same copy of the item. -/
def rivals : List (Timestamp × LedgerCall) :=
  [(.epoch, .load (StockItem.ten 1).id), (.epoch, .update (.ten 1)), (.epoch, .update (.ten 1)),
    (.epoch, .findByProduct (StockItem.ten 1).productId)]

/-- A deaf cache before the ledger: the first writer wins, and the second one is told so. -/
theorem serve_cached_deaf :
    (∀ n : Nat, ((fun _ => Mishap.deaf) n).Obliging) ∧
    MemoryLedger.empty.KeepsProducts ([(.epoch, .save (.ten 1))] ++ rivals) ∧
    (∀ n : Nat, ({} : CacheLifetimes).EndInTime ((fun _ => Mishap.deaf) n).uptime) ∧
    (Desk.serve (fun _ => Mishap.deaf) {} { ledger := stocked } rivals).1 =
      [some ⟨.load (StockItem.ten 1).id, .ok (.ten 1)⟩,
        some ⟨.update (.ten 1), ⟨.ok (), MemoryLedger.advance (.ten 1) .epoch⟩⟩,
        some ⟨.update (.ten 1), ⟨.error (MemoryLedger.stale (.ten 1)
          (MemoryLedger.advance (.ten 1) .epoch)), .ten 1⟩⟩,
        some ⟨.findByProduct (StockItem.ten 1).productId,
          .ok (MemoryLedger.advance (.ten 1) .epoch)⟩] := by
  have hm : ∀ n : Nat, ((fun _ => Mishap.deaf) n).Obliging :=
    fun _ => ⟨fun _ => rfl, fun _ => rfl⟩
  have hkeeps : MemoryLedger.empty.KeepsProducts ([(.epoch, .save (.ten 1))] ++ rivals) := by decide
  have hends : ({} : CacheLifetimes).EndInTime Mishap.deaf.uptime := by decide
  have hserved := serve_cached {} (fun _ => Mishap.deaf) hm [(.epoch, .save (.ten 1))] rivals hkeeps
  exact ⟨hm, hkeeps, fun _ => hends, (hserved.2.2 fun _ => hends).trans rfl⟩

/-! ### Texts that would outlive the clock -/

/-- Texts of items are to live for as long as a length of time can be. -/
def longest : CacheLifetimes :=
  { item := ⟨18446744073709551615999999999⟩ }

/-- The scarcest items are asked for, one is stored, and they are asked for again. -/
def reports : List (Timestamp × LedgerCall) :=
  [(.epoch, .findLowStock 10 0), (.epoch, .save (.ten 1)), (.epoch, .findLowStock 10 0)]

/-- The cache has a list and nothing else. -/
def listed (key : String) (xs : List StockItem) : MemoryCache :=
  MemoryCache.empty.apply 0 (.set key (StockItem.encodeAll xs) longest.lowStock)

section

variable {d : Desk}

/-- A cache that works. -/
abbrev tell : Desk → (c : Call) → Option c.Reply × Desk :=
  Desk.tell (fun _ => .none 0) .epoch

theorem tell_cache {c : CacheCall} (hc : MemoryCache.countable 0 c = true) :
    tell d (.cache c) =
      (some (d.cache.reply 0 c), { d with cache := d.cache.apply 0 c, asked := d.asked + 1 }) := by
  have hfine : d.overruns (fun _ => .none 0) (.cache c) = false := by
    change (true && !MemoryCache.countable 0 c) = false
    rw [hc]
    rfl
  refine Desk.tell_of_answer? hfine ?_
  rw [Desk.answer?, Mishap.none_answer]

theorem attempt_cache {c : CacheCall} (hc : MemoryCache.countable 0 c = true) :
    (ReadThrough.cache c).attempt tell d =
      (some (d.cache.reply 0 c), { d with cache := d.cache.apply 0 c, asked := d.asked + 1 }) := by
  rw [ReadThrough.cache, Program.ask, Program.attempt, tell_cache hc]
  rfl

/-- Who stores a text that outlives the clock is broken off, and the cache stays as it is. -/
theorem attempt_keep_overrun {key text : String} {ttl : Span}
    (httl : MemoryCache.endsInTime 0 ttl = false) :
    (keep key text ttl).attempt tell d = (none, { d with asked := d.asked + 1 }) := by
  have hoverruns : d.overruns (fun _ => .none 0) (.cache (.set key text ttl)) = true := by
    change (true && !MemoryCache.endsInTime 0 ttl) = true
    rw [httl]
    rfl
  have htell : tell d (.cache (.set key text ttl)) = (none, { d with asked := d.asked + 1 }) := by
    rw [tell, Desk.tell, if_pos hoverruns, Mishap.none_before]
  rw [keep, Program.attempt_andThen, ReadThrough.cache, Program.ask, Program.attempt, htell]

theorem attempt_writeNew_overrun {s : StockItem} {store : Program (Answer Unit)} {d' : Desk}
    (hstore : store.attempt tell d = (some (.ok ()), d'))
    (hends : MemoryCache.endsInTime 0 longest.item = false) :
    (writeNew longest s store).attempt tell d = (none, { d' with asked := d'.asked + 1 }) := by
  rw [writeNew, Program.attempt_andThen, hstore]
  simp only [Program.attempt_andThen, populate, attempt_keep_overrun hends]

/-- A list that was not cached is cached. -/
theorem attempt_lowStock_miss {l : MemoryLedger} {t : Int} {n : UInt64} {xs : List StockItem}
    (hxs : l.lowStock t n = xs) (hends : MemoryCache.endsInTime 0 longest.lowStock = true) :
    (LedgerAccess.cached longest (.findLowStock t n)).attempt tell { ledger := l } =
      (some (.ok xs), { ledger := l, cache := listed (CacheKey.lowStock t n) xs, asked := 2 }) := by
  subst hxs
  have hget : (cachedItems (CacheKey.lowStock t n)).attempt tell { ledger := l } =
      (some none, { ledger := l, asked := 1 }) := by
    rw [cachedItems, Program.attempt_andThen, attempt_cache rfl]
    rfl
  have hfetch : (LedgerAccess.direct (.findLowStock t n)).attempt tell { ledger := l, asked := 1 } =
      (some (.ok (l.lowStock t n)), { ledger := l, asked := 1 }) := rfl
  have hset : (ReadThrough.cache (.set (CacheKey.lowStock t n)
      (StockItem.encodeAll (l.lowStock t n)) longest.lowStock)).attempt tell
        { ledger := l, asked := 1 } =
      (some (.ok ()),
        { ledger := l, cache := listed (CacheKey.lowStock t n) (l.lowStock t n), asked := 2 }) :=
    attempt_cache hends
  rw [LedgerAccess.cached, readLowStock, Program.attempt_andThen, hget]
  simp only [Program.attempt_andThen, hfetch, keep, hset]
  rfl

/-- A list that is cached is believed. -/
theorem attempt_lowStock_hit {l : MemoryLedger} {t : Int} {n : UInt64} {xs : List StockItem}
    {asked : Nat} (hxs : ∀ x ∈ xs, x.Storable) :
    ((LedgerAccess.cached longest (.findLowStock t n)).attempt tell
      { ledger := l, cache := listed (CacheKey.lowStock t n) xs, asked }).1 = some (.ok xs) := by
  have hreply : (listed (CacheKey.lowStock t n) xs).reply 0 (.get (CacheKey.lowStock t n)) =
      .ok (some (StockItem.encodeAll xs)) := by
    have halive : (0 : Int) < longest.lowStock.nanos := by decide
    simp [listed, MemoryCache.reply, MemoryCache.value, MemoryCache.apply, MemoryCache.change,
      MemoryCache.peek?, MemoryCache.alive, MemoryCache.empty, Table.find?_insert, halive]
  have hdecode : StockItem.decodeAll? (StockItem.encodeAll xs) = some xs := by
    rw [StockItem.decodeAll?_encodeAll, if_pos hxs]
  rw [LedgerAccess.cached, readLowStock, Program.attempt_andThen, cachedItems,
    Program.attempt_andThen, attempt_cache rfl, hreply]
  simp only [hdecode]
  rfl

end

/--
Storing the item breaks off because its text would outlive the clock. The item is in the ledger, but
the empty list that is cached is not dropped, and it is what is answered.
-/
theorem serve_longest :
    (∀ n : Nat, ((fun _ => Mishap.none 0) n).Obliging) ∧
    MemoryLedger.empty.KeepsProducts reports ∧
    (Desk.serve (fun _ => .none 0) longest { ledger := .empty } reports).1 =
      [some ⟨.findLowStock 10 0, .ok []⟩, none, some ⟨.findLowStock 10 0, .ok []⟩] ∧
    (MemoryLedger.empty.serve reports).1 =
      [⟨.findLowStock 10 0, .ok []⟩, ⟨.save (.ten 1), .ok ()⟩,
        ⟨.findLowStock 10 0, .ok [.ten 1]⟩] := by
  have hlowStock : MemoryCache.endsInTime 0 longest.lowStock = true := by decide
  have hitem : MemoryCache.endsInTime 0 longest.item = false := by decide
  have hnone : MemoryLedger.empty.lowStock 10 0 = [] := by
    have hvalues : MemoryLedger.empty.items.values = [] := rfl
    rw [MemoryLedger.lowStock, hvalues, List.filter_nil, List.mergeSort_nil]
    rfl
  have hone : stocked.lowStock 10 0 = [.ten 1] := by
    have hvalues : stocked.items.values.filter (fun s => s.available ≤ 10) = [.ten 1] := rfl
    rw [MemoryLedger.lowStock, hvalues, List.mergeSort_singleton]
    rfl
  refine ⟨fun _ => ⟨fun _ => rfl, fun _ => rfl⟩, by decide, ?_, ?_⟩
  · let key := CacheKey.lowStock 10 0
    have hfind : (LedgerAccess.cached longest (.findLowStock 10 0)).attempt tell
        { ledger := .empty } =
          (some (.ok []), { ledger := .empty, cache := listed key [], asked := 2 }) :=
      attempt_lowStock_miss hnone hlowStock
    -- Saving asks the ledger first, then caches the item, and would drop the lists last.
    have hstore : (LedgerAccess.direct (.save (.ten 1))).attempt tell
        { ledger := .empty, cache := listed key [], asked := 2 } =
          (some (.ok ()), { ledger := stocked, cache := listed key [], asked := 2 }) := rfl
    have hsave : (LedgerAccess.cached longest (.save (.ten 1))).attempt tell
        { ledger := .empty, cache := listed key [], asked := 2 } =
          (none, { ledger := stocked, cache := listed key [], asked := 3 }) :=
      attempt_writeNew_overrun hstore hitem
    have hagain : ((LedgerAccess.cached longest (.findLowStock 10 0)).attempt tell
        { ledger := stocked, cache := listed key [], asked := 3 }).1 = some (.ok []) :=
      attempt_lowStock_hit fun _ h => nomatch h
    simp only [reports, Desk.serve, hfind, hsave, hagain]
    rfl
  · change [(⟨.findLowStock 10 0, .ok (MemoryLedger.empty.lowStock 10 0)⟩ : Exchange),
      ⟨.save (.ten 1), .ok ()⟩, ⟨.findLowStock 10 0, .ok (stocked.lowStock 10 0)⟩] = _
    rw [hnone, hone]

end Serving

end StockLedger
