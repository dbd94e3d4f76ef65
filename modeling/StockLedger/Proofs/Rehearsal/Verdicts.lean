import Mathlib.Algebra.BigOperators.Group.List.Basic
import Mathlib.Tactic.Common
import StockLedger.Proofs.Rehearsal.Undisturbed
import StockLedger.Proofs.Stock.Lifecycle

/-!
# Claims that are settled one after another

Nothing interferes while claims are settled, each in its own way. What is stored afterwards is a
matter of sums, so that the order does not show.

* `owed`, `claimsOn` : the units that claims hold of an item, and the number of these claims;
* `Verdict` : a claim and how it is to end;
* `StockItem.Relieved` : an item after units of some claims were given back or taken out;
* `Scene.Ready`, `Scene.Ready.settle` : claims that can all be settled, and the first of them;
* `Scene.Judged` : what is stored after some claims were settled, and all else is as it was;
* `Judged.items_eq`, `Judged.rows_eq` : the order in which they were settled does not matter.
-/

namespace StockLedger

/-! ## What claims hold -/

/-- The units of an item that the claims hold. -/
def owed (rs : List Reservation) (id : ItemId) : Int :=
  ((rs.filter fun r => r.itemId = id).map Reservation.quantity).sum

/-- The number of claims on an item. -/
def claimsOn (rs : List Reservation) (id : ItemId) : Nat :=
  rs.countP fun r => r.itemId = id

section

variable {rs rs' : List Reservation} {r : Reservation} {id : ItemId}

theorem owed_append (as bs : List Reservation) (id : ItemId) :
    owed (as ++ bs) id = owed as id + owed bs id := by
  simp [owed]

theorem claimsOn_append (as bs : List Reservation) (id : ItemId) :
    claimsOn (as ++ bs) id = claimsOn as id + claimsOn bs id :=
  List.countP_append ..

theorem owed_self (r : Reservation) : owed [r] r.itemId = r.quantity := by
  simp [owed]

theorem owed_of_ne (h : r.itemId ≠ id) : owed [r] id = 0 := by
  simp [owed, h]

theorem claimsOn_self (r : Reservation) : claimsOn [r] r.itemId = 1 := by
  simp [claimsOn]

theorem claimsOn_of_ne (h : r.itemId ≠ id) : claimsOn [r] id = 0 := by
  simp [claimsOn, h]

theorem owed_nonneg (rs : List Reservation) (id : ItemId) : 0 ≤ owed rs id := by
  induction rs with
  | nil => exact le_refl 0
  | cons r rest ih =>
    have hsplit : owed (r :: rest) id = owed [r] id + owed rest id := owed_append [r] rest id
    by_cases h : r.itemId = id
    · have hpos := r.quantity_range.1
      rw [hsplit, ← h, owed_self]
      rw [← h] at ih
      omega
    · rw [hsplit, owed_of_ne h]
      omega

theorem owed_perm (h : rs.Perm rs') (id : ItemId) : owed rs id = owed rs' id :=
  ((h.filter _).map _).sum_eq

theorem claimsOn_perm (h : rs.Perm rs') (id : ItemId) : claimsOn rs id = claimsOn rs' id :=
  h.countP_eq _

end

/-! ## Verdicts -/

/-- A claim, and how it is to end. -/
structure Verdict where
  claim : Reservation
  way : Settlement
deriving DecidableEq

namespace Verdict

/-- The claim when it has ended. -/
def ended (d : Verdict) (now : Timestamp) : Reservation :=
  d.claim.moveTo d.way.status now

/-- The units that leave the stock: those of a claim that is confirmed. -/
def leaving (d : Verdict) : Int :=
  match d.way with
  | .confirm => d.claim.quantity
  | .release | .expire => 0

end Verdict

/-- The units of an item that leave the stock. -/
def leavingOf (ds : List Verdict) (id : ItemId) : Int :=
  ((ds.filter fun d => d.claim.itemId = id).map Verdict.leaving).sum

/-- The claims that are to end. -/
abbrev claimsOf (ds : List Verdict) : List Reservation :=
  ds.map Verdict.claim

section

variable {ds ds' : List Verdict} {d : Verdict} {id : ItemId}

theorem leavingOf_append (as bs : List Verdict) (id : ItemId) :
    leavingOf (as ++ bs) id = leavingOf as id + leavingOf bs id := by
  simp [leavingOf]

theorem leavingOf_self (d : Verdict) : leavingOf [d] d.claim.itemId = d.leaving := by
  simp [leavingOf]

theorem leavingOf_of_ne (h : d.claim.itemId ≠ id) : leavingOf [d] id = 0 := by
  simp [leavingOf, h]

theorem leavingOf_perm (h : ds.Perm ds') (id : ItemId) : leavingOf ds id = leavingOf ds' id :=
  ((h.filter _).map _).sum_eq

end

/-! ## Items -/

/--
An item after so many units, of so many claims, are no longer reserved, and some of them have left
the stock. Each claim counts as a version.
-/
structure StockItem.Relieved (x y : StockItem) (out units : Int) (claims : Nat)
    (now : Timestamp) : Prop where
  id : y.id = x.id
  productId : y.productId = x.productId
  quantity : y.quantity = x.quantity - out
  reserved : y.reserved = x.reserved - units
  version : y.version.toNat = (x.version.toNat + claims) % UInt64.size
  createdAt : y.createdAt = x.createdAt
  updatedAt : y.updatedAt = if claims = 0 then x.updatedAt else now

section

variable {x y z : StockItem} {out out' units units' : Int} {claims claims' : Nat}
  {now : Timestamp}

theorem StockItem.Relieved.refl (x : StockItem) (now : Timestamp) : x.Relieved x 0 0 0 now where
  id := rfl
  productId := rfl
  quantity := (Int.sub_zero _).symm
  reserved := (Int.sub_zero _).symm
  version := (Nat.mod_eq_of_lt x.version.toNat_lt).symm
  createdAt := rfl
  updatedAt := rfl

theorem StockItem.Relieved.trans (h : x.Relieved y out units claims now)
    (h' : y.Relieved z out' units' claims' now) :
    x.Relieved z (out + out') (units + units') (claims + claims') now where
  id := h'.id.trans h.id
  productId := h'.productId.trans h.productId
  quantity := by
    rw [h'.quantity, h.quantity]
    omega
  reserved := by
    rw [h'.reserved, h.reserved]
    omega
  version := by
    rw [h'.version, h.version, Nat.mod_add_mod, Nat.add_assoc]
  createdAt := h'.createdAt.trans h.createdAt
  updatedAt := by
    rw [h'.updatedAt, h.updatedAt]
    by_cases hclaims' : claims' = 0
    · simp [hclaims']
    · simp [hclaims']

/-- What becomes of an item is determined by the sums. -/
theorem StockItem.Relieved.unique (h : x.Relieved y out units claims now)
    (h' : x.Relieved z out units claims now) : y = z := by
  have hid := h.id.trans h'.id.symm
  have hproduct := h.productId.trans h'.productId.symm
  have hquantity := h.quantity.trans h'.quantity.symm
  have hreserved := h.reserved.trans h'.reserved.symm
  have hversion := UInt64.toNat_inj.1 (h.version.trans h'.version.symm)
  have hcreated := h.createdAt.trans h'.createdAt.symm
  have hupdated := h.updatedAt.trans h'.updatedAt.symm
  cases y
  cases z
  congr

end

/-- Units that are reserved can be taken out of the stock. -/
theorem StockItem.confirm_of_le {s : StockItem} {units : Int} (hunits : 0 < units)
    (hreserved : units ≤ s.reserved) :
    ∃ u, s.confirm units = .ok u ∧ u.quantity = s.quantity - units ∧ u.createdAt = s.createdAt := by
  have hquantity : units ≤ s.quantity := le_trans hreserved s.reserved_le
  rw [confirm, dif_pos hunits, dif_pos hreserved, if_pos hquantity]
  exact ⟨_, rfl, rfl, rfl⟩

/-- The item of a claim whose units are reserved can take the change. -/
theorem Settlement.relieved (k : Settlement) {r : Reservation} {x : StockItem}
    (hreserved : r.quantity ≤ x.reserved) (now : Timestamp) :
    ∃ u, x.apply k.change r.quantity = .ok u ∧
      x.Relieved (MemoryLedger.advance u now) (Verdict.leaving ⟨r, k⟩) r.quantity 1 now := by
  have hunits := r.quantity_range.1
  have hversion : (x.version + 1).toNat = (x.version.toNat + 1) % UInt64.size :=
    UInt64.toNat_add x.version 1
  cases k with
  | confirm =>
    obtain ⟨u, hu, hquantity, hcreated⟩ := StockItem.confirm_of_le hunits hreserved
    have hu : x.apply .confirm r.quantity = .ok u := hu
    have hchanged := StockItem.apply_ok hu
    refine ⟨u, hu, hchanged.id, hchanged.productId, hquantity, ?_, ?_, hcreated, rfl⟩
    · exact hchanged.reserved.trans Int.sub_eq_add_neg.symm
    · rw [← hversion, ← hchanged.version]
      rfl
  | release | expire =>
    refine ⟨_, StockItem.release_of_le hunits hreserved, rfl, rfl, ?_, rfl, hversion, rfl, rfl⟩
    exact (Int.sub_zero _).symm

namespace Scene

/-! ## Claims that can be settled -/

/--
Different claims that may end now: they are pending, and the clock allows it. The units of all of
them are reserved.
-/
structure Ready (m : Scene) (ds : List Verdict) : Prop where
  ledger : m.ledger.Keyed
  distinct : ds.Pairwise fun a b => a.claim.id ≠ b.claim.id
  stored : ∀ d ∈ ds, m.reservations.rows.find? d.claim.id = some d.claim
  permitted : ∀ d ∈ ds, (Reservation.Act.settle d.way m.now).Permitted d.claim
  covered : ∀ d ∈ ds, ∃ x, m.ledger.items.find? d.claim.itemId = some x ∧
    owed (claimsOf ds) d.claim.itemId ≤ x.reserved

/-- The scene after a claim was settled, which leaves this item. -/
def judge (m : Scene) (d : Verdict) (y : StockItem) : Scene :=
  (m.putItem y).putClaim (d.ended m.now)

variable {m m' m'' : Scene} {d : Verdict} {ds ds' rest : List Verdict} {x y : StockItem}

/-- The order of the claims does not matter. -/
theorem Ready.perm (h : m.Ready ds) (hperm : ds'.Perm ds) : m.Ready ds' where
  ledger := h.ledger
  distinct := hperm.symm.pairwise h.distinct fun hne => hne.symm
  stored := fun d hd => h.stored d (hperm.subset hd)
  permitted := fun d hd => h.permitted d (hperm.subset hd)
  covered := by
    intro d hd
    rw [owed_perm (hperm.map Verdict.claim)]
    exact h.covered d (hperm.subset hd)

/-- One claim can be settled if its units are reserved. -/
theorem Ready.single {r : Reservation} {k : Settlement} (hledger : m.ledger.Keyed)
    (hrow : m.reservations.rows.find? r.id = some r)
    (hpermitted : (Reservation.Act.settle k m.now).Permitted r)
    (hx : m.ledger.items.find? r.itemId = some x) (hreserved : r.quantity ≤ x.reserved) :
    m.Ready [⟨r, k⟩] where
  ledger := hledger
  distinct := List.pairwise_singleton ..
  stored := List.forall_mem_singleton.2 hrow
  permitted := List.forall_mem_singleton.2 hpermitted
  covered := by
    refine List.forall_mem_singleton.2 ⟨x, hx, ?_⟩
    rw [claimsOf, List.map_singleton, owed_self]
    exact hreserved

/-- The first claim is settled: its units are reserved, because those of all claims are. -/
theorem Ready.settle (h : m.Ready (d :: rest)) :
    ∃ x y, m.ledger.items.find? d.claim.itemId = some x ∧
      x.Relieved y d.leaving d.claim.quantity 1 m.now ∧
      m.settle d.way d.claim = .ok ((d.ended m.now, y), m.judge d y) := by
  have hmem : d ∈ d :: rest := List.mem_cons_self ..
  obtain ⟨x, hx, hcovered⟩ := h.covered d hmem
  -- The units of this claim are among those of all claims.
  have hreserved : d.claim.quantity ≤ x.reserved := by
    have hsplit : owed (claimsOf (d :: rest)) d.claim.itemId =
        owed [d.claim] d.claim.itemId + owed (claimsOf rest) d.claim.itemId :=
      owed_append [d.claim] (claimsOf rest) _
    have hothers := owed_nonneg (claimsOf rest) d.claim.itemId
    rw [owed_self] at hsplit
    omega
  obtain ⟨u, hchange, hrelieved⟩ := d.way.relieved hreserved m.now
  have hensure := Reservation.ensure_of_permitted (h.permitted d hmem)
  obtain ⟨hguard, htransition⟩ := Settlement.of_ensure hensure
  exact ⟨x, _, hx, hrelieved,
    settle_eq hguard hx (h.ledger _ _ hx) hchange htransition (h.stored d hmem)⟩

/-! ## What is stored afterwards -/

/-- These claims have ended, each in its way, and nothing else has changed. -/
structure Judged (m m' : Scene) (ds : List Verdict) : Prop where
  now : m'.now = m.now
  byProduct : m'.ledger.byProduct = m.ledger.byProduct
  byOrder : m'.reservations.byOrder = m.reservations.byOrder
  items : ∀ id x, m.ledger.items.find? id = some x → ∃ y, m'.ledger.items.find? id = some y ∧
    x.Relieved y (leavingOf ds id) (owed (claimsOf ds) id) (claimsOn (claimsOf ds) id) m.now
  noItems : ∀ id, m.ledger.items.find? id = none → m'.ledger.items.find? id = none
  ended : ∀ d ∈ ds, m'.reservations.rows.find? d.claim.id = some (d.ended m.now)
  others : ∀ id, (∀ d ∈ ds, d.claim.id ≠ id) →
    m'.reservations.rows.find? id = m.reservations.rows.find? id

theorem Judged.refl (m : Scene) : m.Judged m [] where
  now := rfl
  byProduct := rfl
  byOrder := rfl
  items := fun _ x hx => ⟨x, hx, .refl x m.now⟩
  noItems := fun _ h => h
  ended := fun _ h => (nomatch h)
  others := fun _ _ => rfl

theorem Judged.trans (h : m.Judged m' ds) (h' : m'.Judged m'' ds')
    (hapart : ∀ d ∈ ds, ∀ d' ∈ ds', d'.claim.id ≠ d.claim.id) : m.Judged m'' (ds ++ ds') where
  now := h'.now.trans h.now
  byProduct := h'.byProduct.trans h.byProduct
  byOrder := h'.byOrder.trans h.byOrder
  items := by
    intro id x hx
    obtain ⟨y, hy, hrelieved⟩ := h.items id x hx
    obtain ⟨z, hz, hrelieved'⟩ := h'.items id y hy
    rw [h.now] at hrelieved'
    rw [leavingOf_append, claimsOf, List.map_append, owed_append, claimsOn_append]
    exact ⟨z, hz, hrelieved.trans hrelieved'⟩
  noItems := fun id hid => h'.noItems id (h.noItems id hid)
  ended := by
    intro d hd
    rcases List.mem_append.1 hd with hfirst | hlast
    · exact (h'.others d.claim.id (hapart d hfirst)).trans (h.ended d hfirst)
    · rw [← h.now]
      exact h'.ended d hlast
  others := by
    intro id hid
    have hfirst : ∀ d ∈ ds, d.claim.id ≠ id := fun d hd => hid d (List.mem_append_left ds' hd)
    have hlast : ∀ d ∈ ds', d.claim.id ≠ id := fun d hd => hid d (List.mem_append_right ds hd)
    exact (h'.others id hlast).trans (h.others id hfirst)

/-- One claim is settled. -/
theorem judged_judge (hkeyed : m.ledger.Keyed) (hx : m.ledger.items.find? d.claim.itemId = some x)
    (hy : x.Relieved y d.leaving d.claim.quantity 1 m.now) : m.Judged (m.judge d y) [d] := by
  have hid : y.id = d.claim.itemId := hy.id.trans (hkeyed _ _ hx)
  have hitems (id : ItemId) : (m.judge d y).ledger.items.find? id =
      if id = d.claim.itemId then some y else m.ledger.items.find? id := by
    rw [← hid]
    exact Table.find?_insert ..
  have hrows (id : ReservationId) : (m.judge d y).reservations.rows.find? id =
      if id = d.claim.id then some (d.ended m.now) else m.reservations.rows.find? id :=
    Table.find?_insert ..
  refine ⟨rfl, rfl, rfl, ?_, ?_, ?_, ?_⟩
  · intro id z hz
    by_cases h : id = d.claim.itemId
    · -- This is the item that was written.
      subst h
      rw [hx] at hz
      cases hz
      refine ⟨y, (hitems _).trans (if_pos rfl), ?_⟩
      rw [leavingOf_self, claimsOf, List.map_singleton, owed_self, claimsOn_self]
      exact hy
    · refine ⟨z, (hitems id).trans ((if_neg h).trans hz), ?_⟩
      rw [leavingOf_of_ne (Ne.symm h), claimsOf, List.map_singleton, owed_of_ne (Ne.symm h),
        claimsOn_of_ne (Ne.symm h)]
      exact .refl z m.now
  · intro id hnone
    have h : id ≠ d.claim.itemId := by
      rintro rfl
      rw [hx] at hnone
      cases hnone
    exact (hitems id).trans ((if_neg h).trans hnone)
  · intro a ha
    rcases List.mem_singleton.1 ha with rfl
    exact (hrows _).trans (if_pos rfl)
  · intro id hid
    have h : id ≠ d.claim.id := (hid d (List.mem_singleton_self d)).symm
    exact (hrows id).trans (if_neg h)

/-- The other claims can still be settled. -/
theorem Ready.judge (h : m.Ready (d :: rest)) (hx : m.ledger.items.find? d.claim.itemId = some x)
    (hy : x.Relieved y d.leaving d.claim.quantity 1 m.now) : (m.judge d y).Ready rest := by
  have hjudged := judged_judge h.ledger hx hy
  obtain ⟨hfirst, hdistinct⟩ := List.pairwise_cons.1 h.distinct
  refine ⟨?_, hdistinct, ?_, ?_, ?_⟩
  · intro id z hz
    rcases Table.of_find?_insert hz with ⟨rfl, rfl⟩ | ⟨-, hold⟩
    · rfl
    · exact h.ledger id z hold
  · -- The row of another claim has not been written.
    intro a ha
    have hapart : ∀ b ∈ [d], b.claim.id ≠ a.claim.id := by
      intro b hb
      rw [List.mem_singleton.1 hb]
      exact hfirst a ha
    exact (hjudged.others a.claim.id hapart).trans (h.stored a (List.mem_cons_of_mem d ha))
  · exact fun a ha => h.permitted a (List.mem_cons_of_mem d ha)
  · intro a ha
    obtain ⟨z, hz, hcovered⟩ := h.covered a (List.mem_cons_of_mem d ha)
    obtain ⟨z', hz', hrelieved⟩ := hjudged.items _ z hz
    have hsplit : owed (claimsOf (d :: rest)) a.claim.itemId =
        owed [d.claim] a.claim.itemId + owed (claimsOf rest) a.claim.itemId :=
      owed_append [d.claim] (claimsOf rest) _
    have hreserved : z'.reserved = z.reserved - owed [d.claim] a.claim.itemId := hrelieved.reserved
    -- The item has lost as many reserved units as the claims have lost.
    refine ⟨z', hz', ?_⟩
    omega

/-! ## In any order -/

/-- Whatever the order was, the same items are stored. -/
theorem Judged.items_eq (h : m.Judged m' ds) (h' : m.Judged m'' ds') (hperm : ds.Perm ds')
    (id : ItemId) : m'.ledger.items.find? id = m''.ledger.items.find? id := by
  cases hx : m.ledger.items.find? id with
  | none => rw [h.noItems id hx, h'.noItems id hx]
  | some x =>
    obtain ⟨y, hy, hrelieved⟩ := h.items id x hx
    obtain ⟨z, hz, hrelieved'⟩ := h'.items id x hx
    have hclaims : (claimsOf ds).Perm (claimsOf ds') := hperm.map Verdict.claim
    rw [leavingOf_perm hperm, owed_perm hclaims, claimsOn_perm hclaims] at hrelieved
    rw [hy, hz, hrelieved.unique hrelieved']

/-- Whatever the order was, the same claims are stored. -/
theorem Judged.rows_eq (h : m.Judged m' ds) (h' : m.Judged m'' ds') (hperm : ds.Perm ds')
    (id : ReservationId) :
    m'.reservations.rows.find? id = m''.reservations.rows.find? id := by
  by_cases hid : ∃ d ∈ ds, d.claim.id = id
  · obtain ⟨d, hd, rfl⟩ := hid
    rw [h.ended d hd, h'.ended d (hperm.subset hd)]
  · have hothers : ∀ d ∈ ds, d.claim.id ≠ id := fun d hd heq => hid ⟨d, hd, heq⟩
    have hothers' : ∀ d ∈ ds', d.claim.id ≠ id := fun d hd => hothers d (hperm.symm.subset hd)
    rw [h.others id hothers, h'.others id hothers']

end Scene
end StockLedger
