import Mathlib.Tactic.Common
import StockLedger.Proofs.Service.Orders
import StockLedger.Proofs.Service.Workflows

/-!
# One item for each product

Items are written over from copies that may be old, and may be removed in between. Still an
identity stands for one product all along, so that the index of products stays in order.

* `World.Labelled` : whatever was held under an identity is of one product;
* `World.Shelved`, `World.Shelved.serves` : what is more, the index is in order, and what one request
  preserves;
* `Shelving.rules`, `Shelving.shelved` : any workflows at the same time, as long as no identity is
  used twice;
* `Shelving.indexed` : both indices are in order in whatever state such workflows reach.
-/

namespace StockLedger

open Conduct

namespace World

variable {w w' : World}

/-- Whatever the ledger holds or has held under one identity is of one product. -/
def Labelled (w : World) : Prop :=
  ∀ s t, w.Held s → w.Held t → s.id = t.id → s.productId = t.productId

/-- The cache has only copies, the index is in order, and identities stand for products. -/
structure Shelved (w : World) : Prop extends Faithful w where
  indexed : w.ledger.Indexed
  labelled : w.Labelled

theorem shelved_empty : ({} : World).Shelved where
  toFaithful := sound_empty.toFaithful
  indexed := MemoryLedger.indexed_empty
  labelled := by
    rintro s t ⟨l, hl, hs⟩ -
    rcases List.mem_singleton.1 hl with rfl
    cases hs

/-- There is an item of this identity and this product, or was one. -/
def Knows (w : World) (s : StockItem) : Prop :=
  ∃ x, w.Held x ∧ x.id = s.id ∧ x.productId = s.productId

theorem Held.knows {s : StockItem} (h : w.Held s) : w.Knows s :=
  ⟨s, h, rfl, rfl⟩

theorem Labelled.of_knows (h : w.Labelled) {s t : StockItem} (hs : w.Knows s) (ht : w.Knows t)
    (hid : s.id = t.id) : s.productId = t.productId := by
  rcases hs with ⟨x, hx, hxid, hxproduct⟩
  rcases ht with ⟨y, hy, hyid, hyproduct⟩
  rw [← hxproduct, ← hyproduct]
  exact h x y hx hy (hxid.trans (hid.trans hyid.symm))

/-- What is written over an item is an item of its product. -/
def Relabels (w : World) : LedgerCall → Prop
  | .update u => w.Knows u
  | _ => True

theorem Shelved.keepsProduct (h : w.Shelved) {c : LedgerCall} (hc : w.Relabels c) :
    w.ledger.KeepsProduct c := by
  cases c with
  | update u =>
    intro stored hstored
    rcases held_of_find? h.toFaithful hstored with ⟨hheld, hid⟩
    exact h.labelled.of_knows hc hheld.knows hid.symm
  | load | findByProduct | findMany | findLowStock | count | hasProduct | save | delete
  | bumpVersion => exact trivial

/-- An item of the ledger after a request is known, or is a new one whose identity is not. -/
theorem Shelved.knows_after (h : w.Shelved) {now : Timestamp} {c : LedgerCall}
    (hc : w.Relabels c) (hspares : w.Spares (.ledger c) (some (w.ledger.reply now c)))
    {s : StockItem} (hs : (w.ledger.apply now c).items.find? s.id = some s) :
    w.Knows s ∨ c = .save s ∧ ∀ x, w.Held x → x.id ≠ s.id := by
  have known {id : ItemId} {x : StockItem} (hx : w.ledger.items.find? id = some x) : w.Knows x :=
    (held_of_find? h.toFaithful hx).1.knows
  have ho := w.ledger.outcome now c
  generalize hr : w.ledger.reply now c = r at ho hspares
  generalize w.ledger.apply now c = after at ho hs
  cases ho with
  | unchanged => exact .inl (known hs)
  | saved x hnone =>
    rcases Table.of_find?_insert hs with ⟨-, rfl⟩ | ⟨-, hold⟩
    · refine .inr ⟨rfl, ?_⟩
      rintro x ⟨l, hl, hx⟩ hid
      rw [hid] at hx
      rcases List.mem_cons.1 hl with rfl | hpast
      · rw [hnone] at hx
        cases hx
      · rw [hspares l hpast] at hx
        cases hx
    · exact .inl (known hold)
  | updated u stored =>
    rcases Table.of_find?_insert hs with ⟨-, rfl⟩ | ⟨-, hold⟩
    · exact .inl hc
    · exact .inl (known hold)
  | deleted id x => exact .inl (known (Table.below_erase _ _ _ s hs))
  | bumped id x hx =>
    rcases Table.of_find?_insert hs with ⟨-, rfl⟩ | ⟨-, hold⟩
    · have hknown : w.Knows x := known hx
      exact .inl hknown
    · exact .inl (known hold)

theorem Shelved.labelled_afterLedger (h : w.Shelved) {now : Timestamp} {c : LedgerCall}
    (hc : w.Relabels c) (hspares : w.Spares (.ledger c) (some (w.ledger.reply now c))) :
    (w.afterLedger now c).Labelled := by
  have origin {s : StockItem} (hs : (w.afterLedger now c).Held s) :
      w.Knows s ∨ c = .save s ∧ ∀ x, w.Held x → x.id ≠ s.id := by
    rcases hs with ⟨l, hl, hs⟩
    rcases mem_history_afterLedger hl with rfl | hold
    · exact h.knows_after hc hspares hs
    · exact .inl (Held.knows ⟨l, hold, hs⟩)
  intro s t hs ht hid
  rcases origin hs with hs | ⟨hsave, hnew⟩
  · rcases origin ht with ht | ⟨-, hnew⟩
    · exact h.labelled.of_knows hs ht hid
    · rcases hs with ⟨x, hx, hxid, -⟩
      exact absurd (hxid.trans hid) (hnew x hx)
  · rcases origin ht with ⟨x, hx, hxid, -⟩ | ⟨hsave', -⟩
    · exact absurd (hxid.trans hid.symm) (hnew x hx)
    · rw [hsave] at hsave'
      cases hsave'
      rfl

theorem Shelved.serves {c : Call} {served : Option c.Reply} (h : w.Shelved)
    (hserves : w.Serves c served w') (hcache : ∀ r, c = .cache r → w.MayCache r)
    (hledger : ∀ r, c = .ledger r → w.Relabels r) (hspares : w.Spares c served) : w'.Shelved := by
  have hfaithful := h.toFaithful.serves hserves hcache
  cases hserves with
  | ledger now c =>
    refine ⟨hfaithful, ?_, h.labelled_afterLedger (hledger c rfl) hspares⟩
    exact h.indexed.outcome (h.keepsProduct (hledger c rfl)) (w.ledger.outcome now c)
  | skipped | reservations | cache | now | uptime | freshUuid | publish | log =>
    exact ⟨hfaithful, h.indexed, h.labelled⟩

end World

namespace Shelving

variable {stack : Stack} {ttl : Span}

/--
Any workflows, and any request may fail. No identity of the past is given to a new item, and whoever
expires a claim has read it.
-/
def rules (stack : Stack) (ttl : Span) : Rules (Working stack ttl) where
  starts := (Filing.rules stack ttl).starts
  serves w _ c served _ _ := w.Spares c served

theorem upheld : (Workflow.conduct stack ttl).Upheld World.Shelved (rules stack ttl) := by
  refine Workflow.upheld (fun _ h => h.toFaithful) ?_
  intro w w' others t k c served r hw hallows hserves _ hspares
  refine hw.serves hserves ?_ ?_ hspares
  · rintro c rfl
    exact hallows
  · rintro c rfl
    cases c with
    | update u =>
      rcases (hallows : t.Offers k w u).copy with ⟨x, hheld, hchanged⟩
      exact ⟨x, hheld, hchanged.id.symm, hchanged.productId.symm⟩
    | load | findByProduct | findMany | findLowStock | count | hasProduct | save | delete
    | bumpVersion => exact trivial

/-- Items are shelved in every state that workflows reach. -/
theorem shelved {σ : System (Working stack ttl)}
    (hreaches : System.Reaches (rules stack ttl) {} σ) : σ.world.Shelved := by
  have hopened : (Workflow.conduct stack ttl).Kept World.Shelved
      ({} : System (Working stack ttl)) := ⟨World.shelved_empty, fun _ h => nomatch h⟩
  exact (hopened.reaches upheld hreaches).world

/-- Both indices are in order in every state that workflows reach. -/
theorem indexed {σ : System (Working stack ttl)}
    (hreaches : System.Reaches (rules stack ttl) {} σ) :
    σ.world.ledger.Indexed ∧ σ.world.reservations.Indexed := by
  have hfiling : System.Reaches (Filing.rules stack ttl) {} σ := by
    refine hreaches.mono ?_ ?_
    · exact fun _ _ h => h
    · exact fun _ _ _ _ _ _ _ => trivial
  exact ⟨(shelved hreaches).indexed, (Filing.filed MemoryLedger.keyed_empty
    MemoryReservations.indexed_empty hfiling).indexed⟩

end Shelving
end StockLedger
