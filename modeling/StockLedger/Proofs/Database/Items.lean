import Mathlib.Tactic.Common
import StockLedger.Database.Ledger
import StockLedger.Database.Server
import StockLedger.Proofs.Database.Server
import StockLedger.Proofs.Memory.Items
import StockLedger.Proofs.Time.Order
import StockLedger.Proofs.Wire.Item

/-!
# Items as rows

* `Database.Server.Holds`, `Database.Server.holds_iff` : an instant that a column holds as it is;
  these are the ones that a whole count of microseconds stands for;
* `StockItem.row`, `StockItem.Legible` : the row of an item, and the items that can be read back;
* `Database.readItem_row` : they are;
* `Database.vet_row` : the row of an item is refused beside others exactly if its identity or its
  product is taken;
* `Database.revise_updateItem`, `Database.revise_bumpItem` : what the two updates write.
-/

namespace StockLedger

open Database

/-! ## Instants -/

namespace Database

/--
A column holds this instant as it is: it is a whole number of microseconds, and not too far away.

A column has no other instants (`Server.holds_iff`). It counts microseconds and knows of no leap
second, so the counts inside one are those of the second after it, which is what is read back.
-/
structure Server.Holds (S : Server) (t : Timestamp) : Prop where
  micros : t.nanos % 1000 = 0
  ordinary : t.nanos < Span.perSecond
  kept : S.keeps (microsOf t) = true

instance (S : Server) (t : Timestamp) : Decidable (S.Holds t) :=
  decidable_of_iff
    (t.nanos % 1000 = 0 ∧ t.nanos < Span.perSecond ∧ S.keeps (microsOf t) = true)
    ⟨fun h => ⟨h.1, h.2.1, h.2.2⟩, fun h => ⟨h.micros, h.ordinary, h.kept⟩⟩

/-- Nothing is lost in the division, neither before nor after the start of 2000. -/
theorem Server.Holds.whole {S : Server} {t : Timestamp} (h : S.Holds t) :
    epochNanos + microsOf t * 1000 = t.sinceEpoch := by
  have hmicros := h.micros
  have hsince : t.sinceEpoch = t.seconds * 1000000000 + t.nanos := rfl
  have hepoch : epochNanos = 946684800000000000 := rfl
  have hdvd : (1000 : Int) ∣ t.sinceEpoch - epochNanos := by omega
  rw [microsOf, Int.tdiv_mul_cancel hdvd]
  omega

/-- Such an instant is read back from its count of microseconds. -/
theorem Server.Holds.instantOf? {S : Server} {t : Timestamp} (h : S.Holds t) :
    Database.instantOf? (microsOf t) = some t := by
  have hordinary : t.nanos < 1000000000 := h.ordinary
  have hsince : t.sinceEpoch = t.seconds * 1000000000 + t.nanos := rfl
  have hsecond : (Span.perSecond : Int) = 1000000000 := rfl
  have hseconds : t.sinceEpoch / Span.perSecond = t.seconds := by
    rw [hsecond]
    omega
  have hnanos : (t.sinceEpoch % Span.perSecond).toNat = t.nanos := by
    rw [hsecond]
    omega
  rw [Database.instantOf?, h.whole, Timestamp.ofNanos?, hseconds, hnanos, Timestamp.ofParts?,
    dif_pos ⟨t.first_le, t.le_last, t.nanos_lt, t.leap⟩]

/-- What columns hold as it is are the instants that their counts of microseconds stand for. -/
theorem Server.holds_iff {S : Server} {t : Timestamp} :
    S.Holds t ↔ ∃ micros, S.keeps micros = true ∧ Database.instantOf? micros = some t := by
  refine ⟨fun h => ⟨microsOf t, h.kept, h.instantOf?⟩, ?_⟩
  rintro ⟨micros, hkept, hinstant⟩
  rcases Timestamp.of_ofNanos? hinstant with ⟨hnanos, hordinary⟩
  have hsince : t.sinceEpoch = t.seconds * 1000000000 + t.nanos := rfl
  have hepoch : epochNanos = 946684800000000000 := rfl
  have hmicros : microsOf t = micros := by
    have hdiff : t.sinceEpoch - epochNanos = micros * 1000 := by omega
    rw [microsOf, hdiff]
    exact Int.mul_tdiv_cancel micros (by decide)
  exact ⟨by omega, hordinary, hmicros.symm ▸ hkept⟩

/-- Such instants are in the order of their counts of microseconds. -/
theorem Server.Holds.microsOf_lt_iff {S : Server} {s t : Timestamp} (hs : S.Holds s)
    (ht : S.Holds t) : microsOf s < microsOf t ↔ s < t := by
  have hwhole := hs.whole
  have hwhole' := ht.whole
  have hsince (u : Timestamp) : u.sinceEpoch = u.seconds * 1000000000 + u.nanos := rfl
  have hordinary : s.nanos < 1000000000 := hs.ordinary
  have hordinary' : t.nanos < 1000000000 := ht.ordinary
  rw [hsince] at hwhole hwhole'
  rw [Timestamp.lt_iff]
  omega

theorem Server.Holds.microsOf_eq_iff {S : Server} {s t : Timestamp} (hs : S.Holds s)
    (ht : S.Holds t) : microsOf s = microsOf t ↔ s = t := by
  refine ⟨fun h => ?_, congrArg microsOf⟩
  have hread := hs.instantOf?
  rw [h, ht.instantOf?] at hread
  exact (Option.some.inj hread).symm

end Database

/-! ## Rows -/

namespace StockItem

/-- The row of an item. -/
def row (s : StockItem) : Row :=
  DatabaseLedger.columns.zip (itemValues s)

/-- A server can hold the item, and the item can be read back. -/
structure Legible (S : Server) (s : StockItem) : Prop where
  version : s.Storable
  createdAt : S.Holds s.createdAt
  updatedAt : S.Holds s.updatedAt

end StockItem

namespace Database

variable {S : Server} {s t : StockItem} {x : Scope}

theorem row_eq (s : StockItem) : s.row =
    [("id", .uuid s.id.uuid), ("product_id", .uuid s.productId.uuid), ("quantity", .int8 s.quantity),
      ("reserved", .int8 s.reserved), ("version", .int8 (signed64 s.version)),
      ("created_at", .ofInstant s.createdAt), ("updated_at", .ofInstant s.updatedAt)] := rfl

theorem column_id (s : StockItem) : s.row.column "id" = .ok (.uuid s.id.uuid) := rfl

theorem column_product (s : StockItem) :
    s.row.column "product_id" = .ok (.uuid s.productId.uuid) := rfl

theorem column_version (s : StockItem) :
    s.row.column "version" = .ok (.int8 (signed64 s.version)) := rfl

theorem project_row (s : StockItem) : project DatabaseLedger.columns s.row = .ok s.row := rfl

theorem read_instant {r : Row} {name : String} {t : Timestamp} (h : S.Holds t)
    (hr : r.lookup name = some (.ofInstant t)) : r.instant name = .ok t := by
  simp only [Row.instant, Row.read, Row.value, hr, Value.ofInstant, bind, Except.bind,
    h.instantOf?]

/-- An item that a server holds is read back from its row. -/
theorem readItem_row (h : s.Legible S) : readItem s.row = .ok s := by
  have hrow : itemRow s.row = .ok (.ofItem s) := by
    have hcreated : s.row.instant "created_at" = .ok s.createdAt := read_instant h.createdAt rfl
    have hupdated : s.row.instant "updated_at" = .ok s.updatedAt := read_instant h.updatedAt rfl
    rw [itemRow, hcreated, hupdated]
    rfl
  rw [readItem, hrow]
  exact ItemRow.toItem_ofItem h.version

/-- The stamp of an item is read back from what an update gives. -/
theorem readStamp_row (hversion : s.Storable) (hupdated : S.Holds s.updatedAt) :
    readStamp [("version", .int8 (signed64 s.version)), ("updated_at", .ofInstant s.updatedAt)] =
      .ok (s.version, s.updatedAt) := by
  have hneg : ¬ signed64 s.version < 0 := fun hlt => (signed64_neg_iff s.version).1 hlt hversion
  have hversion : UInt64.ofNat (signed64 s.version).toNat = s.version :=
    ofNat_toNat_signed64 hversion
  rw [readStamp, read_instant hupdated rfl]
  simp only [Row.int, Row.read, Row.value, List.lookup_cons, beq_self_eq_true, bind, Except.bind,
    Except.mapError, if_neg hneg, hversion]
  rfl

/-! ## New rows -/

theorem enforce_of_true {r : Row} {c : Condition} (h : c.value x r = .ok (some true)) :
    enforce x r c = .ok () := by
  rw [enforce, h]
  rfl

theorem int8?_of_mem {n : Int} (hlo : -9223372036854775808 ≤ n) (hhi : n < 9223372036854775808) :
    int8? n = .ok (.int8 n) :=
  if_pos ⟨hlo, hhi⟩

theorem repeats_row (s t : StockItem) : stockItems.repeats s.row t.row = s.clashes t := by
  -- An identity is never null, and null is all that could be stored twice.
  rcases s with ⟨⟨u⟩, ⟨p⟩⟩
  rcases t with ⟨⟨v⟩, ⟨q⟩⟩
  have huuid (u v : Uuid) :
      (some (Value.uuid u) != some Value.null && Value.uuid u == Value.uuid v) =
        decide (u = v) := by
    rw [Bool.eq_iff_iff]
    simp
  simp [TableDef.repeats, stockItems, ColumnDef.repeats, row_eq, List.lookup_cons, StockItem.clashes,
    huuid]

theorem columns_row (s : StockItem) :
    (stockItems.columns.forM fun c => do c.vet (← s.row.column c.name)) = .ok () := rfl

/-- The counts of an item pass all checks. -/
theorem conditions_row (x : Scope) (s : StockItem) :
    stockItems.conditions.forM (enforce x s.row) = .ok () := by
  have hquantity : (atLeast "quantity" 0).value x s.row = .ok (some (decide (0 ≤ s.quantity))) :=
    Comparison.test_ge_int8 s.quantity 0
  have hreserved : (atLeast "reserved" 0).value x s.row = .ok (some (decide (0 ≤ s.reserved))) :=
    Comparison.test_ge_int8 s.reserved 0
  have hwithin : (Condition.compare .le (.column "reserved") (.column "quantity")).value x s.row =
      .ok (some (decide (s.reserved ≤ s.quantity))) :=
    Comparison.test_le_int8 s.reserved s.quantity
  rw [decide_eq_true (s.reserved_nonneg.trans s.reserved_le)] at hquantity
  rw [decide_eq_true s.reserved_nonneg] at hreserved
  rw [decide_eq_true s.reserved_le] at hwithin
  have hconditions : stockItems.conditions = [atLeast "quantity" 0, atLeast "reserved" 0,
      .compare .le (.column "reserved") (.column "quantity")] := rfl
  rw [hconditions]
  simp only [List.forM_eq_forM, List.forM_cons, List.forM_nil, enforce_of_true hquantity,
    enforce_of_true hreserved, enforce_of_true hwithin]
  rfl

theorem vet_row (x : Scope) (s : StockItem) (xs : List StockItem) :
    stockItems.vet x (xs.map StockItem.row) s.row =
      if xs.any s.clashes then .error repeatedValue else .ok () := by
  have hrepeats : stockItems.repeats s.row ∘ StockItem.row = s.clashes := funext (repeats_row s)
  rw [TableDef.vet, columns_row, conditions_row, List.any_map, hrepeats]
  rfl

theorem compose_row (now : Timestamp) (s : StockItem) :
    stockItems.compose ⟨now, itemValues s⟩ DatabaseLedger.columns = .ok s.row := rfl

/-! ## New values -/

theorem signed64_add_one {v : UInt64} (h : v.toNat < signBit - 1) :
    signed64 (v + 1) = signed64 v + 1 := by
  have hbit : signBit = 9223372036854775808 := rfl
  have hnext : (v + 1).toNat = v.toNat + 1 := by
    rw [UInt64.toNat_add, UInt64.toNat_one]
    omega
  rw [signed64_of_lt (by omega), signed64_of_lt (by omega), hnext]
  rfl

/-- The next version of a stored item. -/
theorem value_nextVersion (x : Scope) (h : s.version.toNat < signBit - 1) :
    (Term.plus (.column "version") (.number 1)).value x s.row =
      .ok (.int8 (signed64 (s.version + 1))) := by
  have hbit : signBit = 9223372036854775808 := rfl
  have hversion : signed64 s.version = s.version.toNat := signed64_of_lt (by omega)
  have hsum : (Term.plus (.column "version") (.number 1)).value x s.row =
      int8? (signed64 s.version + 1) := rfl
  rw [hsum, int8?_of_mem (by omega) (by omega), signed64_add_one h]

theorem revise_bumpItem (x : Scope) (h : s.version.toNat < signBit - 1) :
    revise x DatabaseLedger.stampSets s.row = .ok (MemoryLedger.advance s x.now).row :=
  -- Column by column, of which only the version could leave its range.
  mapM_of_forall₂ <| .cons rfl <| .cons rfl <| .cons rfl <| .cons rfl <|
    .cons (congrArg (Except.map fun w => ("version", w)) (value_nextVersion x h)) <|
    .cons rfl <| .cons rfl .nil

theorem revise_updateItem (now : Timestamp) (h : s.version.toNat < signBit - 1)
    (hid : t.id = s.id) (hversion : s.version = t.version) (hproduct : t.productId = s.productId)
    (hcreated : t.createdAt = s.createdAt) :
    revise ⟨now, [.uuid t.id.uuid, .int8 (signed64 t.version), .int8 t.quantity, .int8 t.reserved]⟩
        ([("quantity", .param 3), ("reserved", .param 4)] ++ DatabaseLedger.stampSets) s.row =
      .ok (MemoryLedger.advance t now).row := by
  have hrow : (MemoryLedger.advance t now).row =
      [("id", .uuid s.id.uuid), ("product_id", .uuid s.productId.uuid),
        ("quantity", .int8 t.quantity), ("reserved", .int8 t.reserved),
        ("version", .int8 (signed64 (s.version + 1))), ("created_at", .ofInstant s.createdAt),
        ("updated_at", .ofInstant now)] := by
    rw [← hid, ← hproduct, ← hcreated, hversion]
    rfl
  rw [hrow]
  exact mapM_of_forall₂ <| .cons rfl <| .cons rfl <| .cons rfl <| .cons rfl <|
    .cons (congrArg (Except.map fun w => ("version", w)) (value_nextVersion _ h)) <|
    .cons rfl <| .cons rfl .nil

/-! ## Conditions -/

theorem both_some (a b : Bool) : both (some a) (some b) = some (a && b) := by
  cases a <;> cases b <;> rfl

variable {now : Timestamp} {params : List Value}

theorem value_id (s : StockItem) (id : ItemId) :
    (Condition.is "id" 1).value ⟨now, .uuid id.uuid :: params⟩ s.row =
      .ok (some (decide (s.id = id))) := by
  have hid : s.id.uuid = id.uuid ↔ s.id = id := ⟨fun h => congrArg ItemId.mk h, congrArg _⟩
  rw [Condition.value_is (column_id s) rfl, Comparison.test_eq_uuid, decide_eq_decide.2 hid]

theorem value_product (s : StockItem) (p : ProductId) :
    (Condition.is "product_id" 1).value ⟨now, .uuid p.uuid :: params⟩ s.row =
      .ok (some (decide (s.productId = p))) := by
  have hp : s.productId.uuid = p.uuid ↔ s.productId = p :=
    ⟨fun h => congrArg ProductId.mk h, congrArg _⟩
  rw [Condition.value_is (column_product s) rfl, Comparison.test_eq_uuid, decide_eq_decide.2 hp]

theorem value_version (s : StockItem) (id : ItemId) (v : UInt64) :
    (Condition.and (.is "id" 1) (.is "version" 2)).value
        ⟨now, .uuid id.uuid :: .int8 (signed64 v) :: params⟩ s.row =
      .ok (some (decide (s.id = id) && decide (s.version = v))) := by
  have hversion : (Condition.is "version" 2).value
      ⟨now, .uuid id.uuid :: .int8 (signed64 v) :: params⟩ s.row =
        .ok (some (decide (s.version = v))) := by
    rw [Condition.value_is (column_version s) rfl, Comparison.test_eq_int8,
      decide_eq_decide.2 signed64_inj]
  rw [Condition.value, value_id, hversion, ← both_some]
  rfl

theorem value_among (s : StockItem) (ids : List ItemId) :
    (Condition.among (.column "id") 1).value ⟨now, [.uuids (ids.map ItemId.uuid)]⟩ s.row =
      .ok (some (ids.contains s.id)) := by
  have hids : (ids.map ItemId.uuid).contains s.id.uuid = ids.contains s.id := by
    rw [Bool.eq_iff_iff, List.contains_iff_mem, List.contains_iff_mem, List.mem_map]
    constructor
    · rintro ⟨id, hid, heq⟩
      have heq : id = s.id := congrArg ItemId.mk heq
      exact heq ▸ hid
    · exact fun h => ⟨s.id, h, rfl⟩
  rw [← hids]
  rfl

theorem value_available (x : Scope) (s : StockItem) :
    DatabaseLedger.availableTerm.value x s.row = .ok (.int8 s.available) := by
  have hreserved := s.reserved_nonneg
  have hle := s.reserved_le
  have hquantity : s.quantity ≤ 9223372036854775807 := s.quantity_le
  have hterm : DatabaseLedger.availableTerm.value x s.row = int8? s.available := rfl
  have havailable : s.available = s.quantity - s.reserved := rfl
  rw [hterm, int8?_of_mem (by omega) (by omega)]

theorem value_low (s : StockItem) (threshold : Int) :
    (Condition.compare .le DatabaseLedger.availableTerm (.param 1)).value
        ⟨now, .int8 threshold :: params⟩ s.row =
      .ok (some (decide (s.available ≤ threshold))) := by
  rw [Condition.value, value_available, ← Comparison.test_le_int8]
  rfl

/-! ## Order -/

/-- What items are ordered by. -/
theorem value_order (x : Scope) (s : StockItem) :
    [DatabaseLedger.availableTerm, .column "id"].mapM (Term.value x s.row) =
      .ok [.int8 s.available, .uuid s.id.uuid] :=
  mapM_of_forall₂ (.cons (value_available x s) (.cons rfl .nil))

theorem keysAtMost_row (s t : StockItem) :
    keysAtMost [.int8 s.available, .uuid s.id.uuid] [.int8 t.available, .uuid t.id.uuid] =
      MemoryLedger.scarcer s t := by
  have hkeys : keysAtMost [.int8 s.available, .uuid s.id.uuid] [.int8 t.available, .uuid t.id.uuid] =
      ((compare s.available t.available).isLT || ((compare s.available t.available).isEq &&
        ((compare s.id.uuid.value t.id.uuid.value).isLT ||
          ((compare s.id.uuid.value t.id.uuid.value).isEq && true)))) := rfl
  rw [hkeys, Bool.eq_iff_iff]
  simp only [Bool.or_eq_true, Bool.and_eq_true, Ordering.isLT_iff_eq_lt, Ordering.isEq_iff_eq_eq,
    compare_lt_iff_lt, compare_eq_iff_eq, and_true, MemoryLedger.scarcer, decide_eq_true_iff,
    beq_iff_eq, Nat.le_iff_lt_or_eq]

end Database
end StockLedger
