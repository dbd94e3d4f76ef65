import Mathlib
import StockLedger.Proofs.Concurrent.Solo
import StockLedger.Proofs.ReadThrough.Copies
import StockLedger.Proofs.Stock.Item

/-!
# No update is lost

Any number of requests to a ledger are made at the same time through one cache, which may fail. A
copy from the cache may be old, but a write that goes through was made from the stored item.

* `Requesting` : requests through the cache, as programs;
* `Requesting.rules` : no identity is used again, and versions stay below the sign bit;
* `Requesting.Returned` : a read that has ended, and the item with which it did;
* `RowStep`, `MemoryLedger.Succeeds` : what may happen to an item from one ledger to the next;
* `Requesting.kept` : every read ends with an item that was held;
* `no_update_is_lost` : a write that goes through was made from the stored item, so that each item
  has a history in which every version was made from the one before.
-/

namespace StockLedger

/-! ## Requests as programs -/

/-- Requests to a ledger through a cache. -/
abbrev Requesting (lifetimes : CacheLifetimes) : Job where
  Task := LedgerCall
  Outcome := LedgerCall.Reply
  program := LedgerAccess.cached lifetimes

namespace Requesting

variable {lifetimes : CacheLifetimes}

/-- No item is saved under an identity of the past, and versions stay below the sign bit. -/
def rules (lifetimes : CacheLifetimes) : Rules (Requesting lifetimes) where
  starts _ _ := True
  serves w _ c served _ w' := w.Spares c served ∧ w'.ledger.Storable

/-- A read has ended with an item. -/
inductive Returned : Run (Requesting lifetimes) → StockItem → Prop
  | load (id : ItemId) (k : Record) (x : StockItem) :
      Returned ⟨.load id, k, .done (Except.ok x : Answer StockItem)⟩ x
  | findByProduct (p : ProductId) (k : Record) (x : StockItem) :
      Returned ⟨.findByProduct p, k, .done (Except.ok x : Answer StockItem)⟩ x

/-! ## Reads -/

/-- A request writes conditionally only what it is; a read ends with an item that was held. -/
def conduct (lifetimes : CacheLifetimes) : Conduct (Requesting lifetimes) where
  ledger t _ _ c := ∀ u, c = .update u → t = .update u
  reservations _ _ _ := True
  promise
    | .load id, a, _, w => ∀ x, a = .ok x → w.Held x ∧ x.id = id
    | .findByProduct _, a, _, w => ∀ x, a = .ok x → w.Held x
    | _, _, _, _ => True

theorem upheld : (conduct lifetimes).Upheld World.Sound (rules lifetimes) where
  starts {σ t} _ _ := by
    have hown (s' : Record × World) (_ : Conduct.Later World.Sound ({}, σ.world) s') :
        (conduct lifetimes).ledger t s'.1 s'.2 t := fun _ h => h
    have hinv : ∀ w, World.Sound w → w.Faithful := fun _ h => h.toFaithful
    cases t with
    | load id => exact (safe_load (.cached lifetimes) hinv hown).mono fun _ _ h => h.2
    | findByProduct p =>
      exact (safe_findByProduct (.cached lifetimes) hinv hown).mono fun _ _ h x hx => (h.2 x hx).1
    | findMany ids => exact (safe_ledger_quiet (fun _ _ _ => rfl) hown).mono fun _ _ _ => trivial
    | findLowStock n limit =>
      exact (safe_findLowStock hinv hown).mono fun _ _ _ => trivial
    | count => exact (safe_ledger_quiet (fun _ _ _ => rfl) hown).mono fun _ _ _ => trivial
    | hasProduct p => exact (safe_hasProduct lifetimes p hinv hown).mono fun _ _ _ => trivial
    | save x => exact (safe_save (.cached lifetimes) hown).mono fun _ _ _ => trivial
    | update u => exact (safe_update (.cached lifetimes) hown).mono fun _ _ _ => trivial
    | delete id => exact (safe_delete (.cached lifetimes) hown).mono fun _ _ _ => trivial
    | bumpVersion id => exact (safe_bumpVersion (.cached lifetimes) hown).mono fun _ _ _ => trivial
  serves {w w' others t k c served r} hw hallows hserves _ hrules := by
    refine hw.serves hserves ⟨hrules.1, ?_, hrules.2⟩
    rintro r rfl
    exact hallows
  lasts {t a k w w'} hextends hp := by
    cases t with
    | load id => exact fun x hx => ⟨(hp x hx).1.mono hextends, (hp x hx).2⟩
    | findByProduct p => exact fun x hx => (hp x hx).mono hextends
    | _ => trivial

theorem kept_empty : (conduct lifetimes).Kept World.Sound {} :=
  ⟨World.sound_empty, fun _ h => nomatch h⟩

theorem held_of_returned {σ : System (Requesting lifetimes)}
    (h : (conduct lifetimes).Kept World.Sound σ) {run : Run (Requesting lifetimes)}
    (hrun : run ∈ σ.runs) {x : StockItem} (hx : Returned run x) :
    σ.world.Held x ∧ ∀ id, run.task = .load id → x.id = id := by
  have hpromise := h.runs run hrun
  cases hx with
  | load id k =>
    rcases hpromise x rfl with ⟨hheld, hid⟩
    refine ⟨hheld, fun j hj => ?_⟩
    cases hj
    exact hid
  | findByProduct p k => exact ⟨hpromise x rfl, fun _ h => (nomatch h)⟩

end Requesting

/-! ## Rows from one ledger to the next -/

/-- What may happen to an item: it stays, comes, goes, or is written over. -/
inductive RowStep (revised : StockItem → StockItem → Prop) :
    Option StockItem → Option StockItem → Prop
  | same (o : Option StockItem) : RowStep revised o o
  | saved (x : StockItem) : RowStep revised none (some x)
  | deleted (x : StockItem) : RowStep revised (some x) none
  | written (x u : StockItem) (now : Timestamp) (h : revised x u)
      (hversion : (MemoryLedger.advance u now).version.toNat = x.version.toNat + 1) :
      RowStep revised (some x) (some (MemoryLedger.advance u now))

theorem RowStep.mono {revised revised' : StockItem → StockItem → Prop}
    (h : ∀ x u, revised x u → revised' x u) {o o' : Option StockItem}
    (hstep : RowStep revised o o') : RowStep revised' o o' := by
  cases hstep with
  | same => exact .same o
  | saved x => exact .saved x
  | deleted x => exact .deleted x
  | written x u now hx hversion => exact .written x u now (h x u hx) hversion

/-- Each row of a ledger comes from the same row of the one before it. -/
def MemoryLedger.Succeeds (revised : StockItem → StockItem → Prop)
    (newer older : MemoryLedger) : Prop :=
  ∀ id, RowStep revised (older.items.find? id) (newer.items.find? id)

/-- One request takes a ledger one step further; only a conditional write brings new content. -/
theorem MemoryLedger.Outcome.succeeds {l l' : MemoryLedger} {now : Timestamp} {c : LedgerCall}
    {r : c.Reply} (hkeyed : l.Keyed) (hl : l.Storable) (ho : Outcome l now c r l') :
    l'.Succeeds (fun x u => l.items.find? x.id = some x ∧
      (u = x ∨ u.id = x.id ∧ u.version = x.version ∧ c = .update u)) l := by
  intro id
  cases ho with
  | unchanged => exact .same _
  | saved x hid =>
    rw [Table.find?_insert]
    split
    · next hx =>
      rw [hx, hid]
      exact .saved x
    · exact .same _
  | updated u stored hid hversion =>
    rw [Table.find?_insert]
    split
    · next hx =>
      rcases hkeyed u.id stored hid with hstored
      rw [hx, hid]
      exact .written stored u now ⟨hstored ▸ hid, .inr ⟨hstored.symm, hversion.symm, rfl⟩⟩
        ((hl u.id stored hid).toNat_advance hversion.symm)
    · exact .same _
  | deleted j x hid =>
    rw [Table.find?_erase]
    split
    · next hj =>
      rw [hj, hid]
      exact .deleted x
    · exact .same _
  | bumped j x hid =>
    rw [Table.find?_insert]
    split
    · next hj =>
      -- A bump writes the item over itself.
      rcases hkeyed j x hid with hx
      rw [hj, hid]
      exact .written x x now ⟨hx ▸ hid, .inl rfl⟩ ((hl j x hid).toNat_advance rfl)
    · exact .same _

namespace Requesting

variable {lifetimes : CacheLifetimes}

/-! ## The history of each item -/

/-- What was written over an item: the item itself, or what a request offered for its version. -/
def Offered (σ : System (Requesting lifetimes)) (x u : StockItem) : Prop :=
  σ.world.Held x ∧
    (u = x ∨ u.id = x.id ∧ u.version = x.version ∧ ∃ run ∈ σ.runs, run.task = .update u)

theorem Offered.mono {σ σ' : System (Requesting lifetimes)}
    (hstep : System.Step (rules lifetimes) σ σ') {x u : StockItem} (h : Offered σ x u) :
    Offered σ' x u := by
  rcases h with ⟨hheld, rfl | ⟨hid, hversion, run, hrun, htask⟩⟩
  · exact ⟨hheld.mono hstep.extends, .inl rfl⟩
  · rcases hstep.task_mem hrun with ⟨run', hrun', htask'⟩
    exact ⟨hheld.mono hstep.extends, .inr ⟨hid, hversion, run', hrun', htask'.trans htask⟩⟩

theorem chain_step {σ σ' : System (Requesting lifetimes)}
    (hkept : (conduct lifetimes).Kept World.Sound σ)
    (hstep : System.Step (rules lifetimes) σ σ')
    (h : σ.world.history.IsChain (MemoryLedger.Succeeds (Offered σ))) :
    σ'.world.history.IsChain (MemoryLedger.Succeeds (Offered σ')) := by
  have hold : σ.world.history.IsChain (MemoryLedger.Succeeds (Offered σ')) :=
    h.imp fun _ _ hrows id => (hrows id).mono fun _ _ => Offered.mono hstep
  cases hstep with
  | start | abandon => exact hold
  | answer w w' before after run c next served r hrest hserves hreports hrules =>
    have hmem : run ∈ before ++ run :: after := Run.mem_self ..
    have hallows := hkept.allows hmem hrest
    cases hserves with
    | ledger now c =>
      rcases w.afterLedger_cases now c with ⟨hsame, -⟩ | ⟨hnew, -⟩
      · rw [hsame] at hold ⊢
        exact hold
      · have hrows := (w.ledger.outcome now c).succeeds
          (hkept.world.keyed _ (List.mem_cons_self ..)) hkept.world.storable
        have hextends := w.extends_afterLedger now c
        simp only [hnew] at hold hextends ⊢
        -- Only the newest link of the chain is new.
        refine List.isChain_cons_cons.2 ⟨fun id => (hrows id).mono fun x u hu => ?_, hold⟩
        rcases hu with ⟨hfind, hu⟩
        have hheld : w.Held x := ⟨_, List.mem_cons_self .., hfind⟩
        refine ⟨hheld.mono hextends, hu.imp_right fun hu => ?_⟩
        rcases hu with ⟨hid, hversion, rfl⟩
        exact ⟨hid, hversion, _, Run.mem_self .., hallows u rfl⟩
    | skipped | reservations | cache | now | uptime | freshUuid | publish | log => exact hold

end Requesting

open Requesting in
/--
However old the copies in the cache are, a read ends with an item that was held, and a write of an
item that was changed from such a read goes through only if the stored item is the one that was
read. So if nothing else is offered, each version of an item was made from the one before it.
-/
theorem no_update_is_lost (lifetimes : CacheLifetimes) {σ : System (Requesting lifetimes)}
    (hreaches : System.Reaches (rules lifetimes) {} σ) :
    (∀ run ∈ σ.runs, ∀ x, Returned run x →
      σ.world.Held x ∧ ∀ id, run.task = .load id → x.id = id) ∧
    (∀ run ∈ σ.runs, ∀ x u, Returned run x → x.Edited u → ∀ now next l,
      σ.world.ledger.update u now = .ok (next, l) →
        σ.world.ledger.items.find? u.id = some x) ∧
    ((∀ run ∈ σ.runs, ∀ u, run.task = .update u →
        ∃ read ∈ σ.runs, ∃ x, Returned read x ∧ x.Edited u) →
      σ.world.history.IsChain (MemoryLedger.Succeeds StockItem.Edited)) := by
  have hkept : (conduct lifetimes).Kept World.Sound σ := kept_empty.reaches upheld hreaches
  refine ⟨fun run hrun x hx => held_of_returned hkept hrun hx, ?_, fun hoffers => ?_⟩
  · intro run hrun x u hx hedited now next l hupdate
    have hheld := (held_of_returned hkept hrun hx).1
    cases hfind : σ.world.ledger.items.find? u.id with
    | none =>
      rw [MemoryLedger.update, hfind] at hupdate
      cases hupdate
    | some stored =>
      have hversion : stored.version = u.version := by
        by_contra hne
        simp [MemoryLedger.update, hfind, hne] at hupdate
      -- A copy of the stored version is the stored item, from wherever it was read.
      rw [hedited.id] at hfind
      rw [World.eq_stored hkept.world.toFaithful hkept.world.grows hfind hheld
        (hversion.trans hedited.version)]
  · have hchain : σ.world.history.IsChain (MemoryLedger.Succeeds (Offered σ)) :=
      kept_empty.invariant upheld hreaches (.singleton _)
        fun hkept hstep h => chain_step hkept hstep h
    refine hchain.imp fun _ _ hrows id => (hrows id).mono fun x u hu => ?_
    rcases hu with ⟨hheld, rfl | ⟨hid, hversion, run, hrun, htask⟩⟩
    · exact .refl
    · -- What was read to make `u` has the identity and the version of `x`, so it is `x`.
      rcases hoffers run hrun u htask with ⟨read, hread, y, hy, hedited⟩
      have hyheld := (held_of_returned hkept hread hy).1
      have hsame : x = y := World.eq_of_version hkept.world.grows hyheld hheld
        (hid.symm.trans hedited.id) (hversion.symm.trans hedited.version)
      rw [hsame]
      exact hedited

namespace Requesting

/-! ## A copy that is outdated -/

def rulesTest : (rules {}).Test where
  permits _ w _ c served w' := decide (w.Spares c served) && decide w'.ledger.Storable
  sound _ h := by
    rw [Bool.and_eq_true] at h
    exact ⟨of_decide_eq_true h.1, of_decide_eq_true h.2⟩

def stocked : World :=
  ({} : World).afterLedger .epoch (.save (.ten 1))

/-- The cache with the texts that a read of an item leaves in it. -/
def filled (s : StockItem) : MemoryCache :=
  let ttl := ({} : CacheLifetimes).item
  (MemoryCache.empty.apply 0 (.set (CacheKey.item s.id) s.encode ttl)).apply 0
    (.set (CacheKey.product s.productId) s.encode ttl)

/-- What is left of it when the lists are dropped. -/
def unlisted (s : StockItem) : MemoryCache :=
  (filled s).apply 0 (.deletePattern CacheKey.allLowStock)

theorem peek?_unlisted_item (s : StockItem) :
    (unlisted s).peek? 0 (CacheKey.item s.id) = some s.encode := by
  have hne : CacheKey.item s.id ≠ CacheKey.product s.productId := CacheKey.item_ne_product _ _
  simp [unlisted, filled, MemoryCache.apply, MemoryCache.change, MemoryCache.peek?,
    MemoryCache.empty, Table.find?_insert, Table.find?_eraseIf, hne, CacheKey.not_fits_item]
  rfl

/-- Whoever asks for an item that is cached is given the copy. -/
theorem step_hit {R : Rules (Requesting lifetimes)} {w : World}
    (before after : List (Run (Requesting lifetimes))) {x : StockItem}
    (hcached : w.cache.peek? 0 (CacheKey.item x.id) = some x.encode)
    (honline : w.cache.online = true) (hx : x.Storable) {w' : World}
    (hw' : w' = { w with cache := w.cache.apply 0 (.get (CacheKey.item x.id)) })
    (hR : R.serves w (before ++ after) (.cache (.get (CacheKey.item x.id)))
      (some (.ok (some x.encode))) (.ok (some x.encode)) w') :
    System.Step R ⟨w, before ++ .start _ (.load x.id) :: after⟩
      ⟨w', before ++ ⟨.load x.id, {}, .done (Except.ok x : Answer StockItem)⟩ :: after⟩ := by
  subst hw'
  have hreply : w.cache.reply 0 (.get (CacheKey.item x.id)) = .ok (some x.encode) := by
    rw [MemoryCache.reply, if_pos honline, MemoryCache.value, hcached]
  have hdecode : StockItem.decode? x.encode = some x := by
    rw [StockItem.decode?_encode, if_pos hx]
  obtain ⟨next, hcall, hnext⟩ : ∃ next,
      LedgerAccess.cached lifetimes (.load x.id) = .call (.cache (.get (CacheKey.item x.id))) next ∧
        next (.ok (some x.encode)) = .done (Except.ok x : Answer StockItem) := by
    refine ⟨_, rfl, ?_⟩
    simp only [Program.andThen, hdecode]
    rfl
  have hserves := World.Serves.cache (w := w) 0 (.get (CacheKey.item x.id))
  rw [hreply] at hserves
  have hstep := System.Step.answer (R := R) w _ before after (.start _ (.load x.id)) _ next _ _
    hcall hserves (.inl rfl) hR
  rw [hnext] at hstep
  exact hstep

/-- The item after its version was raised. -/
def raised : StockItem :=
  MemoryLedger.advance (.ten 1) .epoch

/-- Four units are reserved, of the item as it was before that. -/
def outdatedEdit : StockItem :=
  .tenWith 4

/-- Four units are reserved, of the item as it is. -/
def edit : StockItem :=
  { raised with reserved := 4, reserved_nonneg := by decide, reserved_le := by decide }

/-- An item is saved, its version is raised, and it is read, written over and read again. -/
def tasks : List LedgerCall :=
  [.save (.ten 1), .bumpVersion (StockItem.ten 1).id, .load (StockItem.ten 1).id,
    .update outdatedEdit, .load (StockItem.ten 1).id]

/-- The cache has the item as it was before its version was raised. -/
def behind : World :=
  { stocked.afterLedger .epoch (.bumpVersion (StockItem.ten 1).id) with
    cache := unlisted (.ten 1) }

/-- The copy has been read and written; and then the item has been read, past the cache. -/
def rejected : System (Requesting {}) where
  world :=
    { behind with cache := (unlisted (.ten 1)).apply 0 (.get (CacheKey.item (StockItem.ten 1).id)) }
  runs := [⟨.save (.ten 1), {}, .done (Except.ok () : Answer Unit)⟩,
    ⟨.bumpVersion (StockItem.ten 1).id, {}, .done (Except.ok raised : Answer StockItem)⟩,
    ⟨.load (StockItem.ten 1).id, {}, .done (Except.ok (.ten 1) : Answer StockItem)⟩,
    ⟨.update outdatedEdit, {},
      .done (⟨.error (MemoryLedger.stale outdatedEdit raised), outdatedEdit⟩ : Written)⟩,
    ⟨.load (StockItem.ten 1).id, {}, .done (Except.ok raised : Answer StockItem)⟩]

/-- The cache takes the new item in and is then out of reach. -/
theorem reaches_behind :
    System.Reaches (rules {}) {} ⟨behind,
      [⟨.save (.ten 1), {}, .done (Except.ok () : Answer Unit)⟩,
        ⟨.bumpVersion (StockItem.ten 1).id, {}, .done (Except.ok raised : Answer StockItem)⟩,
        .start _ (.load (StockItem.ten 1).id), .start _ (.update outdatedEdit),
        .start _ (.load (StockItem.ten 1).id)]⟩ := by
  have hstarts := System.Reaches.starts (R := rules {}) {} tasks fun _ _ _ => trivial
  exact hstarts.trans (System.Reaches.turns rulesTest .epoch
    ([0, 0, 0, 0].map (·, true) ++ [1, 1, 1, 1, 1].map (·, false)) (by cbv))

theorem reaches_rejected : System.Reaches (rules {}) {} rejected := by
  let ended : List (Run (Requesting {})) :=
    [⟨.save (.ten 1), {}, .done (Except.ok () : Answer Unit)⟩,
      ⟨.bumpVersion (StockItem.ten 1).id, {}, .done (Except.ok raised : Answer StockItem)⟩]
  let waiting : List (Run (Requesting {})) :=
    [.start _ (.update outdatedEdit), .start _ (.load (StockItem.ten 1).id)]
  have hcached : behind.cache.peek? 0 (CacheKey.item (StockItem.ten 1).id) =
      some (StockItem.ten 1).encode := peek?_unlisted_item (.ten 1)
  have hread : System.Step (rules {})
      ⟨behind, ended ++ .start _ (.load (StockItem.ten 1).id) :: waiting⟩
      ⟨rejected.world, ended ++
        ⟨.load (StockItem.ten 1).id, {}, .done (Except.ok (.ten 1) : Answer StockItem)⟩ ::
          waiting⟩ :=
    step_hit ended waiting hcached rfl (by decide) rfl ⟨trivial, by decide⟩
  -- For the write and the read that are left the cache is out of reach.
  exact reaches_behind.trans (.head hread (System.Reaches.turns rulesTest .epoch
    ([3, 3, 3, 3, 3, 4, 4, 4, 4, 4, 4, 4].map (·, false)) (by cbv)))

/--
The copy that was read first is outdated, so what was made from it has been refused; whoever changes
what was read second writes over the item that was read; and each version was made from the one
before.
-/
theorem no_update_is_lost_rejected :
    System.Reaches (rules {}) {} rejected ∧
      rejected.world.Held (.ten 1) ∧ (StockItem.ten 1).Edited outdatedEdit ∧
      MemoryLedger.update rejected.world.ledger outdatedEdit .epoch =
        .error (MemoryLedger.stale outdatedEdit raised) ∧
      raised.Edited edit ∧
      (MemoryLedger.update rejected.world.ledger edit .epoch).toOption.isSome = true ∧
      rejected.world.ledger.items.find? edit.id = some raised ∧
      rejected.world.history.IsChain (MemoryLedger.Succeeds StockItem.Edited) := by
  let read : Run (Requesting {}) :=
    ⟨.load (StockItem.ten 1).id, {}, .done (Except.ok (.ten 1) : Answer StockItem)⟩
  let reread : Run (Requesting {}) :=
    ⟨.load (StockItem.ten 1).id, {}, .done (Except.ok raised : Answer StockItem)⟩
  have hread : read ∈ rejected.runs := by simp [rejected, read]
  have hreread : reread ∈ rejected.runs := by simp [rejected, reread]
  have hold : (StockItem.ten 1).Edited outdatedEdit := .change .refl .reserve 4 rfl
  have hnew : raised.Edited edit := .change .refl .reserve 4 rfl
  have hmain := no_update_is_lost {} reaches_rejected
  refine ⟨reaches_rejected, (hmain.1 _ hread _ (.load _ _ _)).1, hold, by rfl, hnew, by rfl,
    hmain.2.1 _ hreread _ _ (.load _ _ _) hnew .epoch _ _ (by rfl), hmain.2.2 ?_⟩
  -- The only write that was asked for was made from the copy.
  intro run hrun u hu
  have hupdate : u = outdatedEdit := by
    simp only [rejected, List.mem_cons, List.not_mem_nil, or_false] at hrun
    rcases hrun with rfl | rfl | rfl | rfl | rfl <;> cases hu
    rfl
  exact ⟨read, hread, .ten 1, .load _ _ _, hupdate ▸ hold⟩

end Requesting
end StockLedger
