import Mathlib.Tactic.Common
import StockLedger.Proofs.Database.Dialogues
import StockLedger.Proofs.Database.Statements

/-!
# A request to a ledger in a database

One request is answered from the rows of a database as it is by a ledger in memory that holds the
same items.

* `LedgerCall.Agree` : replies with the same value, or refusals with the same code;
* `Mirrors` : the rows of a database are the items of a ledger in memory;
* `MemoryLedger.Young`, `MemoryLedger.Fair` : what is asked of the ledger and of a request;
* `Database.always_fetchItem`, `always_fetchItems` : items that are read back from the rows;
* `Mirrors.load` to `Mirrors.bumpVersion` : the requests.
-/

namespace StockLedger

open Database

/-! ## Replies that agree -/

/-- The same value up to a relation, or two refusals with one code. -/
def Answer.Agree {α : Type} (R : α → α → Prop) : Answer α → Answer α → Prop
  | .ok a, .ok b => R a b
  | .error f, .error g => f.code = g.code
  | _, _ => False

/-- Replies that agree; what was asked for by a list of identities may come in any order. -/
def LedgerCall.Agree : (c : LedgerCall) → c.Reply → c.Reply → Prop
  | load _ | findByProduct _ | delete _ | bumpVersion _ => Answer.Agree Eq
  | findMany _ => Answer.Agree List.Perm
  | findLowStock _ _ => Answer.Agree Eq
  | count => Answer.Agree Eq
  | hasProduct _ => Answer.Agree Eq
  | save _ => Answer.Agree Eq
  | update _ => fun w w' => Answer.Agree Eq w.outcome w'.outcome ∧ w.item = w'.item

/-! ## The same rows -/

/-- A database holds exactly the items of a ledger in memory. -/
structure Mirrors (S : Server) (rows : List Row) (l : MemoryLedger) : Prop where
  indexed : l.Indexed
  rows : rows.Perm (l.items.values.map StockItem.row)
  holds : ∀ s ∈ l.items.values, S.Holds s.createdAt ∧ S.Holds s.updatedAt

/-- No version is the last one of 63 bits, or beyond it. -/
def MemoryLedger.Young (l : MemoryLedger) : Prop :=
  ∀ s ∈ l.items.values, s.version.toNat < signBit - 1

/-- What a request must respect. -/
def MemoryLedger.Fair (S : Server) (l : MemoryLedger) : LedgerCall → Prop
  | .findMany ids => ids.Nodup
  | .findLowStock _ limit => limit.toNat < signBit
  | .save s => S.Holds s.createdAt ∧ S.Holds s.updatedAt
  | .update s => ∀ stored ∈ l.items.find? s.id,
      s.productId = stored.productId ∧ s.createdAt = stored.createdAt
  | _ => True

/-- The reply agrees with that of the ledger in memory, and so do the rows after it. -/
def MemoryLedger.Alike (l : MemoryLedger) (now : Timestamp) (c : LedgerCall) (r : c.Reply)
    (after : List Database.Row) : Prop :=
  c.Agree r (l.reply now c) ∧ after.Perm ((l.apply now c).items.values.map StockItem.row)

theorem MemoryLedger.Alike.of_eq {l l' : MemoryLedger} {now : Timestamp} {c : LedgerCall}
    {r r' : c.Reply} {after : List Database.Row} (hreply : l.reply now c = r')
    (happly : l.apply now c = l') (hr : c.Agree r r')
    (hafter : after.Perm (l'.items.values.map StockItem.row)) :
    l.Alike now c r after := by
  subst hreply happly
  exact ⟨hr, hafter⟩

/-! ## Items that are read back -/

namespace Database

section Fetch

variable {keeps : Int → Bool} {now : Timestamp} {params : List Value} {rows : List Row}
  {vs : List StockItem} {operation : String} {q : Statement}
  (hrows : rows.Perm (vs.map StockItem.row))

include hrows

theorem always_fetchItem {key : Uuid} {missing : Fault} {Q : Answer StockItem → List Row → Prop}
    (h : ∀ xs : List StockItem, xs.Perm vs → ∃ (o : Option StockItem) (result : Result)
      (after : List Row),
      (Server.ledger keeps).execute now (xs.map StockItem.row) ⟨q, [.uuid key]⟩ =
        (.ok result, after) ∧
      result.rows = o.toList.map StockItem.row ∧
      (∀ s, o = some s → s.Legible (Server.ledger keeps)) ∧
      Q (o.elim (.error missing) .ok) after) :
    (DatabaseLedger.fetchItem operation q key missing).Always (Server.ledger keeps) now Q rows := by
  refine (always_fetchOptional (Q := fun r after => ∃ o : Option StockItem,
    r = .ok (o.map StockItem.row) ∧ (∀ s, o = some s → s.Legible (Server.ledger keeps)) ∧
      Q (o.elim (.error missing) .ok) after) hrows fun xs hxs => ?_).bind fun r after hr => ?_
  · rcases h xs hxs with ⟨o, result, after, he, hresult, hlegible, hq⟩
    refine ⟨result, after, he, o, ?_, hlegible, hq⟩
    rw [hresult]
    cases o <;> rfl
  · rcases hr with ⟨o, rfl, hlegible, hq⟩
    cases o with
    | none => exact hq
    | some s =>
      show Q (readItem s.row) after
      rw [readItem_row (hlegible s rfl)]
      exact hq

theorem always_fetchItems {Q : Answer (List StockItem) → List Row → Prop}
    (h : ∀ xs : List StockItem, xs.Perm vs → ∃ (ys : List StockItem) (result : Result)
      (after : List Row),
      (Server.ledger keeps).execute now (xs.map StockItem.row) ⟨q, params⟩ =
        (.ok result, after) ∧
      result.rows = ys.map StockItem.row ∧
      (∀ s ∈ ys, s.Legible (Server.ledger keeps)) ∧ Q (.ok ys) after) :
    (DatabaseLedger.fetchItems operation q params).Always (Server.ledger keeps) now Q rows := by
  refine always_fetchRead hrows fun xs hxs => ?_
  rcases h xs hxs with ⟨ys, result, after, he, hresult, hlegible, hq⟩
  exact ⟨ys, result, after, he, hresult, fun s hs => readItem_row (hlegible s hs), hq⟩

end Fetch

end Database

section Steps

variable {keeps : Int → Bool} {now : Timestamp} {l : MemoryLedger} {rows : List Row}
  (h : Mirrors (Server.ledger keeps) rows l) (hyoung : l.Young)

include h

theorem Mirrors.legible (hyoung : l.Young) {s : StockItem} (hs : s ∈ l.items.values) :
    s.Legible (Server.ledger keeps) where
  version := Nat.lt_of_lt_of_le (hyoung s hs) (Nat.sub_le ..)
  createdAt := (h.holds s hs).1
  updatedAt := (h.holds s hs).2

theorem Mirrors.legible_of_find? (hyoung : l.Young) {id : ItemId} {s : StockItem}
    (hs : l.items.find? id = some s) : s.Legible (Server.ledger keeps) :=
  h.legible hyoung (Table.mem_values_of_find? hs)

/-- A write over a legible item leaves a legible one. -/
theorem Mirrors.legible_advance (hyoung : l.Young) (hnow : (Server.ledger keeps).Holds now)
    {id : ItemId} {s stored : StockItem} (hstored : l.items.find? id = some stored)
    (hversion : stored.version = s.version) (hcreated : s.createdAt = stored.createdAt) :
    (MemoryLedger.advance s now).Legible (Server.ledger keeps) where
  version := by
    -- The stored version is not the last one of 63 bits, so that the next one has 63 bits too.
    have hfits := hyoung stored (Table.mem_values_of_find? hstored)
    have hnext : (s.version + 1).toNat < signBit := by
      rw [hversion] at hfits
      rw [UInt64.toNat_add, UInt64.toNat_one]
      have hbit : signBit = 9223372036854775808 := rfl
      omega
    exact hnext
  createdAt := by
    have hholds := (h.legible_of_find? hyoung hstored).createdAt
    rw [← hcreated] at hholds
    exact hholds
  updatedAt := hnow

/-! ## Reads -/

include hyoung

theorem Mirrors.load (id : ItemId) :
    (DatabaseLedger.dialogue (.load id)).Always (Server.ledger keeps) now
      (l.Alike now (.load id)) rows := by
  refine always_fetchItem h.rows fun xs hxs =>
    ⟨l.items.find? id, _, _, execute_select rfl fun s _ => value_id s id, ?_,
      fun s hs => h.legible_of_find? hyoung hs, ?_, hxs.map _⟩
  · rw [h.indexed.keyed.filter_id hxs id]
  · show Answer.Agree Eq _ (l.load id)
    unfold MemoryLedger.load
    cases l.items.find? id <;> rfl

theorem Mirrors.findByProduct (p : ProductId) :
    (DatabaseLedger.dialogue (.findByProduct p)).Always (Server.ledger keeps) now
      (l.Alike now (.findByProduct p)) rows := by
  refine always_fetchItem h.rows fun xs hxs =>
    ⟨(l.byProduct.find? p).bind l.items.find?, _, _,
      execute_select rfl fun s _ => value_product s p, ?_, fun s hs => ?_, ?_, hxs.map _⟩
  · rw [h.indexed.filter_product hxs p]
  · exact h.legible_of_find? hyoung ((h.indexed.find?_product_iff p).1 hs).1
  · show Answer.Agree Eq _ (l.findByProduct p)
    unfold MemoryLedger.findByProduct
    cases (l.byProduct.find? p).bind l.items.find? <;> rfl

theorem Mirrors.findMany {ids : List ItemId} (hids : ids.Nodup) :
    (DatabaseLedger.dialogue (.findMany ids)).Always (Server.ledger keeps) now
      (l.Alike now (.findMany ids)) rows := by
  cases ids with
  | nil => exact ⟨.refl [], h.rows⟩
  | cons id ids =>
    refine always_fetchItems h.rows fun xs hxs =>
      ⟨_, _, _, execute_select rfl fun s _ => value_among s (id :: ids), rfl, fun s hs => ?_, ?_,
        hxs.map _⟩
    · exact h.legible hyoung (hxs.subset (List.mem_of_mem_filter hs))
    · exact h.indexed.keyed.filter_ids hxs hids

theorem Mirrors.findLowStock (threshold : Int) {limit : UInt64} (hlimit : limit.toNat < signBit) :
    (DatabaseLedger.dialogue (.findLowStock threshold limit)).Always (Server.ledger keeps) now
      (l.Alike now (.findLowStock threshold limit)) rows := by
  refine always_fetchItems h.rows fun xs hxs =>
    ⟨_, _, _, by rw [execute_lowStock, if_pos hlimit], rfl, fun s hs => ?_, ?_, hxs.map _⟩
  · rw [h.indexed.keyed.sort_low hxs] at hs
    exact h.legible hyoung (MemoryLedger.mem_values_of_lowStock hs)
  · exact h.indexed.keyed.sort_low hxs threshold limit

omit hyoung

theorem Mirrors.count :
    (DatabaseLedger.dialogue .count).Always (Server.ledger keeps) now (l.Alike now .count)
      rows := by
  refine (always_fetchValue (Q := fun r after => r = .ok (l.items.values.length : Int) ∧
    after.Perm (l.items.values.map StockItem.row)) h.rows fun xs hxs =>
      ⟨_, _, _, _, execute_count, rfl, ?_, hxs.map _⟩).bind fun r after hr => ?_
  · rw [hxs.length_eq]
  · rcases hr with ⟨rfl, hafter⟩
    refine ⟨?_, hafter⟩
    show totalOf (l.items.values.length : Int) = .ofNat l.items.size
    rw [totalOf, Int.toNat_natCast, Table.values, List.length_map, Table.size]

theorem Mirrors.hasProduct (p : ProductId) :
    (DatabaseLedger.dialogue (.hasProduct p)).Always (Server.ledger keeps) now
      (l.Alike now (.hasProduct p)) rows := by
  refine always_fetchValue h.rows fun xs hxs =>
    ⟨_, _, _, _, execute_present rfl fun s _ => value_product s p, rfl, ?_, hxs.map _⟩
  show _ = l.byProduct.contains p
  rw [h.indexed.filter_product hxs, ← h.indexed.isSome_product]
  cases (l.byProduct.find? p).bind l.items.find? <;> rfl

/-! ## Writes -/

omit h in
/-- A write that is missed is refused with the code that the second statement leads to. -/
theorem MemoryLedger.update_of_missed (l : MemoryLedger) (now : Timestamp) {s : StockItem}
    (hmissed : (l.items.find? s.id).filter (fun t => decide (t.version = s.version)) = none) :
    ∃ f, (DatabaseLedger.explainMiss s (.ok (l.items.contains s.id))).code = f.code ∧
      l.reply now (.update s) = ⟨.error f, s⟩ ∧ l.apply now (.update s) = l := by
  have refused (f : Fault) (hf : l.update s now = .error f) :
      l.reply now (.update s) = ⟨.error f, s⟩ ∧ l.apply now (.update s) = l :=
    ⟨by rw [reply, hf], by rw [apply, hf]; rfl⟩
  cases hid : l.items.find? s.id with
  | none =>
    have hf : l.update s now = .error (.itemNotFound (aboutItem s.id)) := by rw [update, hid]
    refine ⟨_, ?_, refused _ hf⟩
    rw [Table.contains, hid]
    exact (rfl : _ = Fault.Code.itemNotFound)
  | some stored =>
    have hversion : ¬ stored.version = s.version := by
      rw [hid, Option.filter_eq_none_iff] at hmissed
      exact fun heq => hmissed stored rfl (decide_eq_true heq)
    have hf : l.update s now = .error (stale s stored) := by
      rw [update, hid]
      exact if_neg hversion
    refine ⟨_, ?_, refused _ hf⟩
    rw [Table.contains, hid]
    calc (DatabaseLedger.explainMiss s (.ok true)).code
        = .versionConflict := rfl
      _ = (stale s stored).code := rfl

theorem Mirrors.save {s : StockItem} (hcreated : (Server.ledger keeps).Holds s.createdAt)
    (hupdated : (Server.ledger keeps).Holds s.updatedAt) :
    (DatabaseLedger.dialogue (.save s)).Always (Server.ledger keeps) now
      (l.Alike now (.save s)) rows := by
  rcases l.save_cases now s with ⟨hclash, hreply, happly⟩ | ⟨hfree, hreply, happly⟩
  · refine (always_execute (Q := fun r after => r = .error (MemoryLedger.duplicate s) ∧
      after.Perm (l.items.values.map StockItem.row)) h.rows fun xs hxs =>
        ⟨_, _, (execute_insert hcreated hupdated).trans (if_pos ?_), rfl, hxs.map _⟩).bind
          fun r after hr => ?_
    · rw [h.indexed.any_clashes hxs, hclash]
    · rcases hr with ⟨rfl, hafter⟩
      exact MemoryLedger.Alike.of_eq hreply happly rfl hafter
  · have hid : l.items.find? s.id = none :=
      (Table.contains_eq_false_iff ..).1 (Bool.or_eq_false_iff.1 hfree).1
    refine (always_execute (Q := fun r after => r = .ok 1 ∧
      after.Perm ((l.items.insert s.id s).values.map StockItem.row)) h.rows fun xs hxs =>
        ⟨_, _, (execute_insert hcreated hupdated).trans (if_neg ?_), rfl, ?_⟩).bind
          fun r after hr => ?_
    · rw [h.indexed.any_clashes hxs, hfree]
      exact Bool.false_ne_true
    -- No stored item has the identity, so that nothing is written over.
    · have hperm := h.indexed.keyed.perm_insert hxs s.id s
      rw [filter_not_of_eq_nil ((h.indexed.keyed.filter_id hxs s.id).trans
        (congrArg Option.toList hid))] at hperm
      exact hperm.map _
    · rcases hr with ⟨rfl, hafter⟩
      exact MemoryLedger.Alike.of_eq hreply happly rfl hafter

include hyoung

theorem Mirrors.delete (id : ItemId) :
    (DatabaseLedger.dialogue (.delete id)).Always (Server.ledger keeps) now
      (l.Alike now (.delete id)) rows := by
  refine always_fetchItem h.rows fun xs hxs =>
    ⟨l.items.find? id, _, _, execute_delete rfl fun s _ => value_id s id, ?_,
      fun s hs => h.legible_of_find? hyoung hs, ?_⟩
  · rw [h.indexed.keyed.filter_id hxs id]
  -- Where no item has the identity, the others are all that there are.
  · have hpicked := h.indexed.keyed.filter_id hxs id
    rcases l.delete_cases now id with ⟨hid, hreply, happly⟩ | ⟨s, hid, hreply, happly⟩
    · rw [hid] at hpicked ⊢
      rw [filter_not_of_eq_nil hpicked]
      exact MemoryLedger.Alike.of_eq hreply happly rfl (hxs.map _)
    · rw [hid]
      exact MemoryLedger.Alike.of_eq hreply happly rfl ((h.indexed.keyed.perm_erase hxs id).map _)

theorem Mirrors.bumpVersion (hnow : (Server.ledger keeps).Holds now) (id : ItemId) :
    (DatabaseLedger.dialogue (.bumpVersion id)).Always (Server.ledger keeps) now
      (l.Alike now (.bumpVersion id)) rows := by
  refine always_fetchItem h.rows fun xs hxs => ?_
  have hpicked := h.indexed.keyed.filter_id hxs id
  rcases l.bumpVersion_cases now id with ⟨hid, hreply, happly⟩ | ⟨s, hid, hreply, happly⟩
  · rw [hid] at hpicked
    refine ⟨none, _, _, execute_update_none rfl (fun s _ => value_id s id) rfl hpicked, rfl,
      fun s hs => absurd hs (Option.some_ne_none s).symm, .of_eq hreply happly rfl ?_⟩
    rw [filter_not_of_eq_nil hpicked]
    exact hxs.map _
  · rw [hid] at hpicked
    rcases h.indexed.keyed id s hid with rfl
    have hfits := hyoung s (Table.mem_values_of_find? hid)
    refine ⟨some (MemoryLedger.advance s now), _, _,
      execute_update rfl (fun t _ => value_id t s.id) rfl hpicked (revise_bumpItem _ hfits)
        (h.indexed.not_any_clashes (s := MemoryLedger.advance s now) hxs hid rfl) rfl, rfl,
      fun t ht => ?_, .of_eq hreply happly rfl ((h.indexed.keyed.perm_insert hxs s.id _).map _)⟩
    cases ht
    exact h.legible_advance hyoung hnow hid rfl rfl

/-- A conditional write over the stored item. -/
theorem Mirrors.update_written (hnow : (Server.ledger keeps).Holds now) {s stored : StockItem}
    (hstored : l.items.find? s.id = some stored) (hversion : stored.version = s.version)
    (hproduct : s.productId = stored.productId) (hcreated : s.createdAt = stored.createdAt) :
    (DatabaseLedger.dialogue (.update s)).Always (Server.ledger keeps) now
      (l.Alike now (.update s)) rows := by
  have hfits := hyoung stored (Table.mem_values_of_find? hstored)
  have hid : s.id = stored.id := (h.indexed.keyed s.id stored hstored).symm
  have hlegible := h.legible_advance hyoung hnow hstored hversion hcreated
  refine (always_fetchOptional (Q := fun r after =>
    r = .ok (some [("version", .int8 (signed64 (MemoryLedger.advance s now).version)),
      ("updated_at", .ofInstant (MemoryLedger.advance s now).updatedAt)]) ∧
    after.Perm ((l.items.insert s.id (MemoryLedger.advance s now)).values.map StockItem.row))
    h.rows fun xs hxs => ?_).bind fun r after hr => ?_
  · have hpicked : (xs.filter fun t => decide (t.id = s.id) && decide (t.version = s.version)) =
        [stored] := by
      rw [h.indexed.keyed.filter_version hxs, hstored, Option.filter_some_pos]
      · rfl
      · exact decide_eq_true hversion
    -- No other item has the identity, whatever its version, and none has the product.
    have hothers := h.indexed.keyed.filter_not_version hxs hstored hversion
    have hclash := h.indexed.not_any_clashes (s := MemoryLedger.advance s now) hxs hstored hproduct
    refine ⟨_, _, execute_update rfl (fun t _ => value_version t s.id s.version) rfl hpicked
      (revise_updateItem now hfits hid hversion hproduct hcreated) (hothers ▸ hclash) rfl, rfl, ?_⟩
    rw [hothers]
    exact (h.indexed.keyed.perm_insert hxs s.id _).map _
  · rcases hr with ⟨rfl, hafter⟩
    have hstamp := readStamp_row hlegible.version hlegible.updatedAt
    simp only [hstamp]
    exact MemoryLedger.Alike.of_eq (MemoryLedger.reply_update hstored hversion)
      (MemoryLedger.apply_update hstored hversion) ⟨rfl, rfl⟩ hafter

omit hyoung in
/-- A conditional write that finds no item of this identity and version. -/
theorem Mirrors.update_missed {s : StockItem}
    (hmissed : (l.items.find? s.id).filter (fun t => decide (t.version = s.version)) = none) :
    (DatabaseLedger.dialogue (.update s)).Always (Server.ledger keeps) now
      (l.Alike now (.update s)) rows := by
  refine (always_fetchOptional (Q := fun r after => r = .ok none ∧
    after.Perm (l.items.values.map StockItem.row)) h.rows fun xs hxs => ?_).bind
      fun r after hr => ?_
  · have hpicked := (h.indexed.keyed.filter_version hxs s.id s.version).trans
      (congrArg Option.toList hmissed)
    refine ⟨_, _, execute_update_none rfl (fun t _ => value_version t s.id s.version) rfl hpicked,
      rfl, ?_⟩
    rw [filter_not_of_eq_nil hpicked]
    exact hxs.map _
  · rcases hr with ⟨rfl, hafter⟩
    -- The second statement finds the same items, wherever their rows have moved since.
    refine (always_fetchValue (Q := fun r after => r = .ok (l.items.contains s.id) ∧
      after.Perm (l.items.values.map StockItem.row)) hafter fun xs hxs =>
        ⟨_, _, _, _, execute_present rfl fun t _ => value_id t s.id, rfl, ?_, hxs.map _⟩).bind
          fun r after hr => ?_
    · rw [h.indexed.keyed.filter_id hxs, Table.contains]
      cases l.items.find? s.id <;> rfl
    · rcases hr with ⟨rfl, hafter⟩
      rcases l.update_of_missed now hmissed with ⟨f, hcode, hreply, happly⟩
      exact MemoryLedger.Alike.of_eq hreply happly ⟨hcode, rfl⟩ hafter

end Steps

end StockLedger
