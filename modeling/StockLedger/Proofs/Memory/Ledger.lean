import Mathlib.Tactic.Common
import StockLedger.Memory.Ledger
import StockLedger.Proofs.Table.Changes

/-!
# What requests do to a ledger in memory

* `LedgerCall.changes` : does a reply report that the request changed the ledger?
* `MemoryLedger.Outcome`, `MemoryLedger.outcome` : all that a request can do;
* `MemoryLedger.Row`, `MemoryLedger.Outcome.row` : where an item comes from;
* `MemoryLedger.Indexed` : items are stored under their identity, and the index leads from each
  product that has an item to this item and nowhere else;
* `MemoryLedger.serve` : requests one after another.
-/

namespace StockLedger

/-- Does the reply report that the request was carried out and changed the ledger? -/
def LedgerCall.changes : (c : LedgerCall) → c.Reply → Bool
  | save _, .ok _ | delete _, .ok _ | bumpVersion _, .ok _ => true
  | update _, ⟨.ok _, _⟩ => true
  | _, _ => false

namespace MemoryLedger

variable {l : MemoryLedger} {now : Timestamp}

/-! ## All that a request can do -/

/-- The replies to a request together with the ledgers after it. -/
inductive Outcome (l : MemoryLedger) (now : Timestamp) :
    (c : LedgerCall) → c.Reply → MemoryLedger → Prop
  | unchanged (c : LedgerCall) (h : c.changes (l.reply now c) = false) :
      Outcome l now c (l.reply now c) l
  | saved (s : StockItem) (hid : l.items.find? s.id = none)
      (hproduct : l.byProduct.find? s.productId = none) :
      Outcome l now (.save s) (.ok ())
        { items := l.items.insert s.id s, byProduct := l.byProduct.insert s.productId s.id }
  | updated (s stored : StockItem) (hid : l.items.find? s.id = some stored)
      (hversion : stored.version = s.version) :
      Outcome l now (.update s) ⟨.ok (), advance s now⟩
        { l with items := l.items.insert s.id (advance s now) }
  | deleted (id : ItemId) (s : StockItem) (hid : l.items.find? id = some s) :
      Outcome l now (.delete id) (.ok s)
        { items := l.items.erase id, byProduct := l.byProduct.erase s.productId }
  | bumped (id : ItemId) (s : StockItem) (hid : l.items.find? id = some s) :
      Outcome l now (.bumpVersion id) (.ok (advance s now))
        { l with items := l.items.insert id (advance s now) }

/-- An item is stored, unless its identity or its product is taken. -/
theorem save_cases (l : MemoryLedger) (now : Timestamp) (s : StockItem) :
    ((l.items.contains s.id || l.byProduct.contains s.productId) = true ∧
        l.reply now (.save s) = .error (duplicate s) ∧ l.apply now (.save s) = l) ∨
      ((l.items.contains s.id || l.byProduct.contains s.productId) = false ∧
        l.reply now (.save s) = .ok () ∧ l.apply now (.save s) =
          { items := l.items.insert s.id s, byProduct := l.byProduct.insert s.productId s.id }) := by
  cases hclash : l.items.contains s.id || l.byProduct.contains s.productId with
  | true =>
    have hsave : l.save s = .error (duplicate s) := if_pos hclash
    exact .inl ⟨rfl, by rw [reply, hsave]; rfl, by rw [apply, hsave]; rfl⟩
  | false =>
    have hsave : l.save s =
        .ok { items := l.items.insert s.id s
              byProduct := l.byProduct.insert s.productId s.id } :=
      if_neg (Bool.not_eq_true _ ▸ hclash)
    exact .inr ⟨rfl, by rw [reply, hsave]; rfl, by rw [apply, hsave]; rfl⟩

/-- An item is removed, unless there is none. -/
theorem delete_cases (l : MemoryLedger) (now : Timestamp) (id : ItemId) :
    (l.items.find? id = none ∧ l.reply now (.delete id) = .error (.itemNotFound (aboutItem id)) ∧
        l.apply now (.delete id) = l) ∨
      ∃ s, l.items.find? id = some s ∧ l.reply now (.delete id) = .ok s ∧
        l.apply now (.delete id) =
          { items := l.items.erase id, byProduct := l.byProduct.erase s.productId } := by
  cases hid : l.items.find? id with
  | none =>
    have hdelete : l.delete id = .error (.itemNotFound (aboutItem id)) := by rw [delete, hid]
    exact .inl ⟨rfl, by rw [reply, hdelete]; rfl, by rw [apply, hdelete]; rfl⟩
  | some s =>
    have hdelete : l.delete id =
        .ok (s, { items := l.items.erase id, byProduct := l.byProduct.erase s.productId }) := by
      rw [delete, hid]
    exact .inr ⟨s, rfl, by rw [reply, hdelete]; rfl, by rw [apply, hdelete]; rfl⟩

/-- The version of an item is raised, unless there is none. -/
theorem bumpVersion_cases (l : MemoryLedger) (now : Timestamp) (id : ItemId) :
    (l.items.find? id = none ∧
        l.reply now (.bumpVersion id) = .error (.itemNotFound (aboutItem id)) ∧
        l.apply now (.bumpVersion id) = l) ∨
      ∃ s, l.items.find? id = some s ∧ l.reply now (.bumpVersion id) = .ok (advance s now) ∧
        l.apply now (.bumpVersion id) =
          { l with items := l.items.insert id (advance s now) } := by
  cases hid : l.items.find? id with
  | none =>
    have hbump : l.bumpVersion id now = .error (.itemNotFound (aboutItem id)) := by
      rw [bumpVersion, hid]
    exact .inl ⟨rfl, by rw [reply, hbump]; rfl, by rw [apply, hbump]; rfl⟩
  | some s =>
    have hbump : l.bumpVersion id now =
        .ok (advance s now, { l with items := l.items.insert id (advance s now) }) := by
      rw [bumpVersion, hid]
    exact .inr ⟨s, rfl, by rw [reply, hbump]; rfl, by rw [apply, hbump]; rfl⟩

theorem outcome_save (s : StockItem) :
    Outcome l now (.save s) (l.reply now (.save s)) (l.apply now (.save s)) := by
  rcases l.save_cases now s with ⟨-, hreply, happly⟩ | ⟨hfree, hreply, happly⟩
  · rw [happly]
    exact .unchanged _ (by rw [hreply]; rfl)
  · rw [Bool.or_eq_false_iff] at hfree
    rw [hreply, happly]
    exact .saved s ((Table.contains_eq_false_iff ..).1 hfree.1)
      ((Table.contains_eq_false_iff ..).1 hfree.2)

theorem outcome_update (s : StockItem) :
    Outcome l now (.update s) (l.reply now (.update s)) (l.apply now (.update s)) := by
  have refused (f : Fault) (h : l.update s now = .error f) :
      Outcome l now (.update s) (l.reply now (.update s)) (l.apply now (.update s)) := by
    have happly : l.apply now (.update s) = l := by simp [apply, h, Except.toOption]
    rw [happly]
    exact .unchanged _ (by simp [reply, h, LedgerCall.changes])
  cases hid : l.items.find? s.id with
  | none => exact refused _ (by rw [update, hid])
  | some stored =>
    by_cases hversion : stored.version = s.version
    · have hupdate : l.update s now =
          .ok (advance s now, { l with items := l.items.insert s.id (advance s now) }) := by
        simp [update, hid, hversion]
      have ho : Outcome l now (.update s) ⟨.ok (), advance s now⟩
          { l with items := l.items.insert s.id (advance s now) } := .updated s stored hid hversion
      simpa [reply, apply, hupdate, Except.toOption] using ho
    · exact refused (stale s stored) (by simp [update, hid, hversion])

theorem outcome_delete (id : ItemId) :
    Outcome l now (.delete id) (l.reply now (.delete id)) (l.apply now (.delete id)) := by
  rcases l.delete_cases now id with ⟨-, hreply, happly⟩ | ⟨s, hid, hreply, happly⟩
  · rw [happly]
    exact .unchanged _ (by rw [hreply]; rfl)
  · rw [hreply, happly]
    exact .deleted id s hid

theorem outcome_bumpVersion (id : ItemId) :
    Outcome l now (.bumpVersion id) (l.reply now (.bumpVersion id))
      (l.apply now (.bumpVersion id)) := by
  rcases l.bumpVersion_cases now id with ⟨-, hreply, happly⟩ | ⟨s, hid, hreply, happly⟩
  · rw [happly]
    exact .unchanged _ (by rw [hreply]; rfl)
  · rw [hreply, happly]
    exact .bumped id s hid

theorem outcome (l : MemoryLedger) (now : Timestamp) (c : LedgerCall) :
    Outcome l now c (l.reply now c) (l.apply now c) := by
  cases c with
  | save s => exact outcome_save s
  | update s => exact outcome_update s
  | delete id => exact outcome_delete id
  | bumpVersion id => exact outcome_bumpVersion id
  | load id => exact .unchanged _ rfl
  | findByProduct p => exact .unchanged _ rfl
  | findMany ids => exact .unchanged _ rfl
  | findLowStock t n => exact .unchanged _ rfl
  | count => exact .unchanged _ rfl
  | hasProduct p => exact .unchanged _ rfl

/-- Where an item of the ledger after a request comes from. -/
inductive Row (l : MemoryLedger) (now : Timestamp) (c : LedgerCall) (id : ItemId) :
    StockItem → Prop
  | kept (t : StockItem) (h : l.items.find? id = some t) : Row l now c id t
  | saved (x : StockItem) (hc : c = .save x) (hid : id = x.id) (h : l.items.find? id = none) :
      Row l now c id x
  | written (u stored : StockItem) (h : l.items.find? id = some stored)
      (hversion : u.version = stored.version) (hid : u.id = id ∨ u = stored) :
      Row l now c id (advance u now)

/-- Every item was there before, or was saved, or was written over the one that was there. -/
theorem Outcome.row {c : LedgerCall} {r : c.Reply} {l' : MemoryLedger} (ho : Outcome l now c r l')
    {id : ItemId} {t : StockItem} (ht : l'.items.find? id = some t) : Row l now c id t := by
  cases ho with
  | unchanged => exact .kept t ht
  | saved x hid =>
    rcases Table.of_find?_insert ht with ⟨rfl, rfl⟩ | ⟨-, hold⟩
    · exact .saved x rfl rfl hid
    · exact .kept t hold
  | updated u stored hid hversion =>
    rcases Table.of_find?_insert ht with ⟨rfl, rfl⟩ | ⟨-, hold⟩
    · exact .written u stored hid hversion.symm (.inl rfl)
    · exact .kept t hold
  | deleted j stored => exact .kept t (Table.below_erase _ _ id t ht)
  | bumped j stored hid =>
    rcases Table.of_find?_insert ht with ⟨rfl, rfl⟩ | ⟨-, hold⟩
    · exact .written stored stored hid rfl (.inr rfl)
    · exact .kept t hold

/-! ## Identities and the index -/

/-- Each item is stored under its identity. -/
def Keyed (l : MemoryLedger) : Prop :=
  ∀ id s, l.items.find? id = some s → s.id = id

theorem keyed_empty : empty.Keyed :=
  fun _ _ h => nomatch h

theorem Keyed.outcome {c : LedgerCall} {r : c.Reply} {l' : MemoryLedger} (h : l.Keyed)
    (ho : Outcome l now c r l') : l'.Keyed := by
  intro id s hs
  cases ho.row hs with
  | kept _ hold => exact h id s hold
  | saved _ _ hid => exact hid.symm
  | written u stored hold _ hid =>
    rcases hid with hid | rfl
    · exact hid
    · exact h id u hold

theorem Keyed.find?_of_load (h : l.Keyed) {id : ItemId} {s : StockItem}
    (hs : l.load id = .ok s) : l.items.find? s.id = some s ∧ s.id = id := by
  unfold load at hs
  cases hfind : l.items.find? id with
  | none => rw [hfind] at hs; cases hs
  | some x =>
    rw [hfind] at hs
    cases hs
    rcases h id s hfind with rfl
    exact ⟨hfind, rfl⟩

theorem Keyed.find?_of_findByProduct (h : l.Keyed) {p : ProductId} {s : StockItem}
    (hs : l.findByProduct p = .ok s) : l.items.find? s.id = some s := by
  unfold findByProduct at hs
  cases hfind : (l.byProduct.find? p).bind l.items.find? with
  | none => rw [hfind] at hs; cases hs
  | some x =>
    rw [hfind] at hs
    cases hs
    rcases Option.bind_eq_some_iff.1 hfind with ⟨id, -, hid⟩
    rcases h id s hid with rfl
    exact hid

theorem find?_of_save {x : StockItem} (h : l.reply now (.save x) = .ok ()) :
    (l.apply now (.save x)).items.find? x.id = some x := by
  have ho : Outcome l now (.save x) (l.reply now (.save x)) (l.apply now (.save x)) :=
    outcome_save x
  generalize hr : l.reply now (.save x) = r at ho h
  generalize l.apply now (.save x) = after at ho ⊢
  cases ho with
  | unchanged _ hchanges =>
    rw [h] at hchanges
    cases hchanges
  | saved => exact (Table.find?_insert ..).trans (if_pos rfl)

/-- A conditional write over an item of this version is carried out. -/
theorem update_eq {u stored : StockItem} (h : l.items.find? u.id = some stored)
    (hversion : stored.version = u.version) :
    l.update u now =
      .ok (advance u now, { l with items := l.items.insert u.id (advance u now) }) := by
  simp [update, h, hversion]

theorem reply_update {u stored : StockItem} (h : l.items.find? u.id = some stored)
    (hversion : stored.version = u.version) :
    l.reply now (.update u) = ⟨.ok (), advance u now⟩ := by
  simp [reply, update_eq h hversion]

theorem apply_update {u stored : StockItem} (h : l.items.find? u.id = some stored)
    (hversion : stored.version = u.version) :
    l.apply now (.update u) = { l with items := l.items.insert u.id (advance u now) } := by
  simp [apply, update_eq h hversion, Except.toOption]

/-- A conditional write over an item of another version is refused. -/
theorem reply_update_of_ne {u stored : StockItem} (h : l.items.find? u.id = some stored)
    (hversion : stored.version ≠ u.version) :
    l.reply now (.update u) = ⟨.error (stale u stored), u⟩ := by
  simp [reply, update, h, hversion]

theorem find?_of_update {u stored : StockItem} (h : l.items.find? u.id = some stored)
    (hversion : stored.version = u.version) :
    (l.apply now (.update u)).items.find? u.id = some (advance u now) := by
  rw [apply_update h hversion, Table.find?_insert, if_pos rfl]

/-- What a conditional write gives back is stored, unless it is refused. -/
theorem find?_of_written {u : StockItem} (h : (l.reply now (.update u)).outcome = .ok ()) :
    (l.apply now (.update u)).items.find? u.id = some (l.reply now (.update u)).item := by
  have ho : Outcome l now (.update u) (l.reply now (.update u)) (l.apply now (.update u)) :=
    outcome_update u
  generalize l.reply now (.update u) = w at ho h ⊢
  generalize l.apply now (.update u) = after at ho ⊢
  cases ho with
  | unchanged _ hchanges =>
    generalize l.reply now (.update u) = w at h hchanges
    match w with
    | ⟨.ok (), _⟩ => cases hchanges
    | ⟨.error f, _⟩ => cases h
  | updated => exact (Table.find?_insert ..).trans (if_pos rfl)

/-- A conditional write concerns no item but its own. -/
theorem find?_update_of_ne {u : StockItem} {id : ItemId} (hid : id ≠ u.id) :
    (l.apply now (.update u)).items.find? id = l.items.find? id := by
  have ho : Outcome l now (.update u) (l.reply now (.update u)) (l.apply now (.update u)) :=
    outcome_update u
  generalize l.reply now (.update u) = r at ho
  generalize l.apply now (.update u) = after at ho ⊢
  cases ho with
  | unchanged => rfl
  | updated => exact (Table.find?_insert ..).trans (if_neg hid)

/-- A conditional write is refused and changes nothing, or gives back the item as it is stored. -/
theorem update_cases (l : MemoryLedger) (now : Timestamp) (u : StockItem) :
    (∃ f, l.update u now = .error f ∧ l.reply now (.update u) = ⟨.error f, u⟩ ∧
        l.apply now (.update u) = l) ∨
      l.update u now = .ok (advance u now, l.apply now (.update u)) ∧
        l.reply now (.update u) = ⟨.ok (), advance u now⟩ := by
  cases h : l.update u now with
  | error f => exact .inl ⟨f, rfl, by simp [reply, h], by simp [apply, h, Except.toOption]⟩
  | ok p =>
    have hp : p.1 = advance u now := by
      unfold update at h
      split at h
      · cases h
      · split at h
        · cases h
          rfl
        · cases h
    refine .inr ⟨?_, ?_⟩
    · simp [apply, h, ← hp, Except.toOption]
    · simp [reply, h, ← hp]

/-- A conditional write depends on the item that it is made over, and on nothing else. -/
theorem update_congr {l' : MemoryLedger} {u : StockItem}
    (h : l.items.find? u.id = l'.items.find? u.id) (now : Timestamp) :
    l.reply now (.update u) = l'.reply now (.update u) ∧
      (l.apply now (.update u) = l ∧ l'.apply now (.update u) = l' ∨
        ∃ x, l.apply now (.update u) = { l with items := l.items.insert u.id x } ∧
          l'.apply now (.update u) = { l' with items := l'.items.insert u.id x }) := by
  simp only [reply, apply, update, ← h]
  cases l.items.find? u.id with
  | none => exact ⟨rfl, .inl ⟨rfl, rfl⟩⟩
  | some stored =>
    dsimp only
    by_cases hversion : stored.version = u.version
    · simp only [if_pos hversion]
      exact ⟨trivial, .inr ⟨_, rfl, rfl⟩⟩
    · simp only [if_neg hversion]
      exact ⟨trivial, .inl ⟨rfl, rfl⟩⟩

/-- The index leads from each product that has an item to this item, and nowhere else. -/
structure Indexed (l : MemoryLedger) : Prop where
  keyed : l.Keyed
  leads : ∀ id s, l.items.find? id = some s → l.byProduct.find? s.productId = some id
  tells : ∀ p id, l.byProduct.find? p = some id →
    ∃ s, l.items.find? id = some s ∧ s.productId = p

theorem indexed_empty : empty.Indexed :=
  ⟨keyed_empty, fun _ _ h => (nomatch h), fun _ _ h => (nomatch h)⟩

/-- Writing an item of the same product over a stored one keeps the index in order. -/
theorem Indexed.insert (h : l.Indexed) {id : ItemId} {s stored : StockItem} (hid : s.id = id)
    (hstored : l.items.find? id = some stored) (hproduct : s.productId = stored.productId) :
    Indexed { l with items := l.items.insert id s } where
  keyed := by
    intro j x hx
    rcases Table.of_find?_insert hx with ⟨rfl, rfl⟩ | ⟨-, hold⟩
    · exact hid
    · exact h.keyed j x hold
  leads := by
    intro j x hx
    rcases Table.of_find?_insert hx with ⟨rfl, rfl⟩ | ⟨-, hold⟩
    · rw [hproduct]
      exact h.leads j stored hstored
    · exact h.leads j x hold
  tells := by
    intro p j hp
    rcases h.tells p j hp with ⟨x, hx, hxp⟩
    by_cases hj : j = id
    · subst hj
      rw [hstored] at hx
      cases hx
      exact ⟨s, by rw [Table.find?_insert, if_pos rfl], hproduct.trans hxp⟩
    · exact ⟨x, by rw [Table.find?_insert, if_neg hj, hx], hxp⟩

theorem Indexed.save (h : l.Indexed) {s : StockItem} (hid : l.items.find? s.id = none)
    (hproduct : l.byProduct.find? s.productId = none) :
    Indexed { items := l.items.insert s.id s
              byProduct := l.byProduct.insert s.productId s.id } where
  keyed := h.keyed.outcome (Outcome.saved s hid hproduct : Outcome l .epoch _ _ _)
  leads := by
    intro j x hx
    rw [Table.find?_insert] at hx ⊢
    split at hx
    · next hj => cases hx; rw [if_pos rfl, hj]
    · have hne : x.productId ≠ s.productId := by
        intro he
        have hleads := h.leads j x hx
        rw [he, hproduct] at hleads
        cases hleads
      rw [if_neg hne, h.leads j x hx]
  tells := by
    intro p j hp
    rcases Table.of_find?_insert hp with ⟨rfl, rfl⟩ | ⟨-, hold⟩
    · exact ⟨s, by rw [Table.find?_insert, if_pos rfl], rfl⟩
    · rcases h.tells p j hold with ⟨x, hx, hxp⟩
      have hne : j ≠ s.id := by
        rintro rfl
        rw [hid] at hx
        cases hx
      exact ⟨x, by rw [Table.find?_insert, if_neg hne, hx], hxp⟩

theorem Indexed.delete (h : l.Indexed) {id : ItemId} {s : StockItem}
    (hid : l.items.find? id = some s) :
    Indexed { items := l.items.erase id, byProduct := l.byProduct.erase s.productId } where
  keyed := h.keyed.outcome (Outcome.deleted id s hid : Outcome l .epoch _ _ _)
  leads := by
    intro j x hx
    rw [Table.find?_erase] at hx ⊢
    split at hx
    · cases hx
    · next hj =>
      -- Two items of one product would be found at the same place of the index.
      have hne : x.productId ≠ s.productId := by
        intro he
        have hleads := h.leads j x hx
        rw [he, h.leads id s hid] at hleads
        exact hj (Option.some.inj hleads).symm
      rw [if_neg hne, h.leads j x hx]
  tells := by
    intro p j hp
    rw [Table.find?_erase] at hp
    split at hp
    · cases hp
    · next hne =>
      rcases h.tells p j hp with ⟨x, hx, hxp⟩
      have hj : j ≠ id := by
        rintro rfl
        rw [hid] at hx
        cases hx
        exact hne hxp.symm
      exact ⟨x, by rw [Table.find?_erase, if_neg hj, hx], hxp⟩

/-- The request, if it is a write, leaves the product of the stored item as it is. -/
def KeepsProduct (l : MemoryLedger) : LedgerCall → Prop
  | .update s => ∀ stored ∈ l.items.find? s.id, s.productId = stored.productId
  | _ => True

instance (l : MemoryLedger) (c : LedgerCall) : Decidable (l.KeepsProduct c) :=
  match c with
  | .update s =>
      inferInstanceAs (Decidable (∀ stored ∈ l.items.find? s.id, s.productId = stored.productId))
  | .load _ | .findByProduct _ | .findMany _ | .findLowStock _ _ | .count | .hasProduct _
  | .save _ | .delete _ | .bumpVersion _ => .isTrue trivial

theorem Indexed.outcome (h : l.Indexed) {c : LedgerCall} {r : c.Reply} {l' : MemoryLedger}
    (hc : l.KeepsProduct c) (ho : Outcome l now c r l') : l'.Indexed := by
  cases ho with
  | unchanged => exact h
  | saved s hid hproduct => exact h.save hid hproduct
  | updated s stored hid => exact h.insert (s := advance s now) rfl hid (hc stored hid)
  | deleted id s hid => exact h.delete hid
  | bumped id s hid =>
    exact h.insert (s := advance s now) (h.keyed id s hid) hid rfl

theorem mem_values_of_lowStock {t : Int} {n : UInt64} {s : StockItem}
    (h : s ∈ l.lowStock t n) : s ∈ l.items.values := by
  have hmem : s ∈ (l.items.values.filter fun s => s.available ≤ t).mergeSort scarcer := by
    unfold lowStock takeLimit at h
    split at h
    · exact h
    · exact List.mem_of_mem_take h
  exact (List.mem_filter.1 ((List.mergeSort_perm ..).mem_iff.1 hmem)).1

end MemoryLedger

/-! ## Requests one after another -/

/-- A request to a ledger with what it is answered. -/
abbrev Exchange : Type :=
  (c : LedgerCall) × c.Reply

/-- Requests, each made at an instant, answered by the ledger itself. -/
def MemoryLedger.serve (l : MemoryLedger) :
    List (Timestamp × LedgerCall) → List Exchange × MemoryLedger
  | [] => ([], l)
  | (now, c) :: rest =>
      let (exchanges, after) := (l.apply now c).serve rest
      (⟨c, l.reply now c⟩ :: exchanges, after)

/-! ## Items to look at -/

/-- Ten units of which nothing is reserved, as a new ledger stores them. -/
def StockItem.ten (n : Nat) : StockItem :=
  (StockItem.create ⟨.ofNat n⟩ ⟨.ofNat n⟩ 10 .epoch).toOption.get rfl

/-- Ten units of which so many are reserved, or all of them. -/
def StockItem.tenWith (units : Nat) : StockItem :=
  { StockItem.ten 1 with
    reserved := ((min units 10 : Nat) : Int)
    reserved_nonneg := Int.natCast_nonneg _
    reserved_le := Int.ofNat_le.2 (Nat.min_le_right ..) }

end StockLedger
