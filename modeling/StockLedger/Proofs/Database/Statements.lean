import Mathlib.Tactic.Common
import StockLedger.Proofs.Database.Items
import StockLedger.Proofs.Database.Limits

/-!
# The statements of the ledger on rows of items

* `Database.Server.ledger` : the server that keeps the table of items;
* `Database.execute_select`, `execute_lowStock`, `execute_count`, `execute_present` : the reads;
* `Database.execute_insert`, `execute_update`, `execute_delete` : the writes.

In each of them the stored rows are those of a list of items, in any order.
-/

namespace StockLedger
namespace Database

/-- The server that keeps the table of items; it is open how far its instants reach. -/
def Server.ledger (keeps : Int → Bool) : Server where
  table := stockItems
  keeps := keeps

@[simp] theorem Server.table_ledger (keeps : Int → Bool) :
    (Server.ledger keeps).table = stockItems := rfl

variable {keeps : Int → Bool} {now : Timestamp} {params : List Value} {xs : List StockItem}
  {rows after : List Row}

/-! ## Reads -/

theorem mapM_project (xs : List StockItem) :
    (xs.map StockItem.row).mapM (project DatabaseLedger.columns) = .ok (xs.map StockItem.row) :=
  mapM_map fun s _ => project_row s

/-- Without an order the rows come as they are stored. -/
theorem sortRows_nil (x : Scope) (xs : List StockItem) :
    sortRows x [] (xs.map StockItem.row) = .ok (xs.map StockItem.row) := by
  have hall : xs.Pairwise fun _ _ => keysAtMost [] [] = true :=
    List.pairwise_of_forall fun _ _ => rfl
  rw [sortRows_map (k := fun _ => []) fun _ _ => rfl, List.mergeSort_of_pairwise hall]

theorem execute_select {c : Condition} {p : StockItem → Bool}
    (hparams : (params.any fun v => !(Server.ledger keeps).receives v) = false)
    (hc : ∀ s ∈ xs, c.value ⟨now, params⟩ s.row = .ok (some (p s))) :
    (Server.ledger keeps).execute now (xs.map StockItem.row)
        ⟨DatabaseLedger.selectItems c, params⟩ =
      (.ok ⟨(xs.filter p).map StockItem.row, ((xs.filter p).map StockItem.row).length⟩,
        xs.map StockItem.row) := by
  refine execute_of_ok rfl hparams ?_
  simp only [Server.carryOut, DatabaseLedger.selectItems, divide_map hc, bind, Except.bind,
    sortRows_nil, cut, mapM_project, pure, Except.pure]

/-- All items of which few units are left, the scarcest first. -/
theorem execute_allLowStock (threshold : Int) :
    (Server.ledger keeps).execute now (xs.map StockItem.row)
        ⟨DatabaseLedger.selectLowStock, [.int8 threshold, .null]⟩ =
      (.ok ⟨((xs.filter fun s => s.available ≤ threshold).mergeSort
            MemoryLedger.scarcer).map StockItem.row,
          (((xs.filter fun s => s.available ≤ threshold).mergeSort
            MemoryLedger.scarcer).map StockItem.row).length⟩,
        xs.map StockItem.row) := by
  have hkeys : (fun s t : StockItem => keysAtMost [.int8 s.available, .uuid s.id.uuid]
      [.int8 t.available, .uuid t.id.uuid]) = MemoryLedger.scarcer :=
    funext fun s => funext fun t => keysAtMost_row s t
  rw [← hkeys]
  exact execute_search rfl rfl rfl (fun s _ => value_low s threshold) (fun s => value_order _ s)
    project_row

theorem execute_lowStock (threshold : Int) (limit : UInt64) :
    (Server.ledger keeps).execute now (xs.map StockItem.row)
        ⟨DatabaseLedger.selectLowStock, [.int8 threshold, limitValue limit]⟩ =
      (if limit.toNat < signBit then
          .ok ⟨(takeLimit limit ((xs.filter fun s => s.available ≤ threshold).mergeSort
              MemoryLedger.scarcer)).map StockItem.row,
            ((takeLimit limit ((xs.filter fun s => s.available ≤ threshold).mergeSort
              MemoryLedger.scarcer)).map StockItem.row).length⟩
        else .error negativeLimit,
        xs.map StockItem.row) := by
  rw [execute_lowStock_limited (congrArg Prod.fst (execute_allLowStock threshold)) limit,
    takeLimit_map]

theorem execute_count :
    (Server.ledger keeps).execute now (xs.map StockItem.row) ⟨.count DatabaseLedger.table none, []⟩ =
      (.ok (.single "total" (.int8 xs.length)), xs.map StockItem.row) := by
  rw [execute_of_ok rfl rfl rfl, List.length_map]

theorem execute_present {c : Condition} {p : StockItem → Bool}
    (hparams : (params.any fun v => !(Server.ledger keeps).receives v) = false)
    (hc : ∀ s ∈ xs, c.value ⟨now, params⟩ s.row = .ok (some (p s))) :
    (Server.ledger keeps).execute now (xs.map StockItem.row)
        ⟨.present DatabaseLedger.table c, params⟩ =
      (.ok (.single "present" (.bool !(xs.filter p).isEmpty)), xs.map StockItem.row) := by
  refine execute_of_ok rfl hparams ?_
  simp only [Server.carryOut, divide_map hc, bind, Except.bind, List.isEmpty_map, pure, Except.pure]

/-! ## Writes -/

section Insert

variable {s : StockItem} (hcreated : (Server.ledger keeps).Holds s.createdAt)
  (hupdated : (Server.ledger keeps).Holds s.updatedAt)

include hcreated hupdated

theorem receives_itemValues :
    ((itemValues s).any fun v => !(Server.ledger keeps).receives v) = false := by
  simp [itemValues, ItemRow.ofItem, Server.receives, Value.ofInstant, hcreated.kept, hupdated.kept]

/-- An item is stored, unless its identity or its product is taken. -/
theorem execute_insert :
    (Server.ledger keeps).execute now (xs.map StockItem.row)
        ⟨.insert DatabaseLedger.table DatabaseLedger.columns, itemValues s⟩ =
      if xs.any s.clashes then (.error repeatedValue, xs.map StockItem.row)
      else (.ok ⟨[], 1⟩, s.row :: xs.map StockItem.row) := by
  have hparams := receives_itemValues hcreated hupdated
  have hexpect : stockItems.expect DatabaseLedger.columns = .ok () := rfl
  have hvet := vet_row ⟨now, itemValues s⟩ s xs
  split at hvet
  · next hclash =>
    rw [if_pos hclash]
    refine execute_of_error rfl hparams ?_
    simp only [Server.carryOut, Server.table_ledger, hexpect, compose_row, hvet, bind, Except.bind]
  · next hclash =>
    rw [if_neg hclash]
    refine execute_of_ok rfl hparams ?_
    simp only [Server.carryOut, Server.table_ledger, hexpect, compose_row, hvet, bind, Except.bind,
      pure, Except.pure]

end Insert

section Change

variable {c : Condition} {p : StockItem → Bool} {sets : List (String × Term)}
  {returning : List String}
  (hparams : (params.any fun v => !(Server.ledger keeps).receives v) = false)
  (hc : ∀ s ∈ xs, c.value ⟨now, params⟩ s.row = .ok (some (p s)))

include hparams hc

theorem execute_delete :
    (Server.ledger keeps).execute now (xs.map StockItem.row)
        ⟨.delete DatabaseLedger.table c DatabaseLedger.columns, params⟩ =
      (.ok ⟨(xs.filter p).map StockItem.row, ((xs.filter p).map StockItem.row).length⟩,
        (xs.filter fun s => !p s).map StockItem.row) := by
  have hreturned (rows : List Row) : returned DatabaseLedger.columns rows =
      rows.mapM (project DatabaseLedger.columns) := rfl
  refine execute_of_ok rfl hparams ?_
  simp only [Server.carryOut, divide_map hc, hreturned, mapM_project, bind, Except.bind, pure,
    Except.pure]

/-- An update that picks nothing changes nothing. -/
theorem execute_update_none (hsets : stockItems.expect (sets.map Prod.fst) = .ok ())
    (hpicked : xs.filter p = []) :
    (Server.ledger keeps).execute now (xs.map StockItem.row)
        ⟨.update DatabaseLedger.table sets c returning, params⟩ =
      (.ok ⟨[], 0⟩, (xs.filter fun s => !p s).map StockItem.row) := by
  have hreturned : returned returning [] = .ok [] := by
    unfold returned
    split <;> rfl
  refine execute_of_ok rfl hparams ?_
  simp only [Server.carryOut, Server.table_ledger, hsets, divide_map hc, hpicked, List.map_nil,
    TableDef.overwrite, hreturned, bind, Except.bind, pure, Except.pure]
  rfl

/-- An update of one item, which must not get in the way of the others. -/
theorem execute_update {s t : StockItem} {r : Row}
    (hsets : stockItems.expect (sets.map Prod.fst) = .ok ()) (hpicked : xs.filter p = [s])
    (hrevise : revise ⟨now, params⟩ sets s.row = .ok t.row)
    (hclash : (xs.filter fun s => !p s).any t.clashes = false)
    (hreturned : returned returning [t.row] = .ok [r]) :
    (Server.ledger keeps).execute now (xs.map StockItem.row)
        ⟨.update DatabaseLedger.table sets c returning, params⟩ =
      (.ok ⟨[r], 1⟩, (t :: xs.filter fun s => !p s).map StockItem.row) := by
  have hvet : stockItems.vet ⟨now, params⟩ ((xs.filter fun s => !p s).map StockItem.row) t.row =
      .ok () := by
    rw [vet_row, hclash]
    rfl
  refine execute_of_ok rfl hparams ?_
  simp only [Server.carryOut, Server.table_ledger, hsets, divide_map hc, hpicked, List.map_cons,
    List.map_nil, TableDef.overwrite, hrevise, List.append_nil, hvet, hreturned, bind, Except.bind,
    pure, Except.pure]
  rfl

end Change

end Database
end StockLedger
