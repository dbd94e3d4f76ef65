import Mathlib.Tactic.Common
import StockLedger.Proofs.Json.RoundTrip
import StockLedger.Proofs.Wire.Leaf
import StockLedger.Wire.Fault
import StockLedger.Wire.Release

/-!
# Faults and notices read back

* `Fault.decode?_encode` : every fault is read back from its text;
* `Fault.valuesOf_json` : the fields of that text, with the detail only when there is one;
* `StockRelease.decode?_encode` : a notice is read back from its text exactly if its quantity fits
  64 bits with a sign;
* `StockRelease.word64_of_decode?` : and every notice that is read has such a quantity;
* `messages_survive` : faults and notices keep everything on their way through JSON.
-/

namespace StockLedger

/-! ## Faults -/

namespace Fault

theorem plain_json (f : Fault) : f.json.Plain := by
  refine .object fun field hfield => ?_
  simp only [List.cons_append, List.nil_append, List.mem_cons, Option.mem_toList,
    Option.map_eq_some_iff] at hfield
  rcases hfield with rfl | rfl | ⟨d, -, rfl⟩
  · exact .text _
  · exact .text _
  · exact .text _

theorem ofString?_encode (f : Fault) : Json.ofString? f.encode = some f.json :=
  Json.ofString?_print f.plain_json

/-- A fault writes its code by its word, its message as it is, and a detail when it has one. -/
theorem valuesOf_json (f : Fault) : ∃ fields, f.json = .object fields ∧
    Json.valuesOf "code" fields = [.str f.code.word] ∧
    Json.valuesOf "message" fields = [.str f.message] ∧
    Json.valuesOf "detail" fields = (f.detail.map Json.str).toList := by
  obtain ⟨code, message, detail⟩ := f
  rw [← Code.spelling_eq]
  refine ⟨_, rfl, ?_⟩
  cases detail <;> exact ⟨rfl, rfl, rfl⟩

/-- A fault is read back from its JSON. -/
theorem ofJson?_json (f : Fault) : ofJson? f.json = some f := by
  obtain ⟨code, message, detail⟩ := f
  have hrecord : (json ⟨code, message, detail⟩).record? names =
      some [code.json, .str message, Json.optional Json.str detail] := by
    cases detail <;> rfl
  have hdetail : (Json.optional Json.str detail).optionalString? = some detail := by
    cases detail <;> rfl
  have hmessage : (Json.str message).string? = some message := rfl
  rw [ofJson?, hrecord]
  simp only [Code.ofJson?_json, hmessage, hdetail, Option.bind_eq_bind, Option.bind_some]

/-- Every fault is read back from its text. -/
theorem decode?_encode (f : Fault) : decode? f.encode = some f := by
  rw [decode?, ofString?_encode, Option.bind_some, ofJson?_json]

end Fault

/-! ## Notices -/

namespace StockRelease

theorem plain_json (n : StockRelease) : n.json.Plain := by
  refine .object fun field hfield => ?_
  simp only [List.mem_cons, List.not_mem_nil, or_false] at hfield
  rcases hfield with rfl | rfl | rfl | rfl | rfl | rfl | rfl
  · exact .text _
  · exact .text _
  · exact .text _
  · exact .text _
  · exact .integer _
  · exact .text _
  · exact .text _

theorem recordOf?_json (n : StockRelease) :
    n.json.recordOf? names = some [n.reservationId.uuid.json, n.itemId.uuid.json,
      n.productId.uuid.json, n.orderId.uuid.json, .integer n.quantity, n.reason.json,
      n.occurredAt.json] := by
  rfl

/-- A notice is read back from its JSON exactly if its quantity fits. -/
theorem ofJson?_json (n : StockRelease) :
    ofJson? n.json = if Json.Word64 n.quantity then some n else none := by
  have hquantity : (Json.integer n.quantity).int64? =
      if Json.Word64 n.quantity then some n.quantity else none := rfl
  rw [ofJson?, recordOf?_json]
  simp only [Uuid.ofJson?_json, hquantity, Reason.ofJson?_json, Timestamp.ofJson?_json,
    Option.bind_eq_bind, Option.bind_some]
  split <;> rfl

theorem decode?_encode (n : StockRelease) :
    decode? n.encode = if Json.Word64 n.quantity then some n else none := by
  rw [decode?, encode, Json.ofString?_print n.plain_json, Option.bind_some, ofJson?_json]

theorem word64_of_ofJson? {j : Json} {n : StockRelease} (h : ofJson? j = some n) :
    Json.Word64 n.quantity := by
  unfold ofJson? at h
  split at h
  · simp only [Option.bind_eq_bind, Option.bind_eq_some_iff, Option.some.injEq] at h
    obtain ⟨_, -, _, -, _, -, _, -, q, hq, _, -, _, -, rfl⟩ := h
    exact Json.word64_of_int64? hq
  · cases h

/-- Every notice that is read has a quantity that fits. -/
theorem word64_of_decode? {text : String} {n : StockRelease} (h : decode? text = some n) :
    Json.Word64 n.quantity := by
  obtain ⟨j, -, hj⟩ := Option.bind_eq_some_iff.1 h
  exact word64_of_ofJson? hj

end StockRelease

/-! ## Both -/

/-- Faults and notices are read back from their texts as they were, and what is read from any text
at all is read again from the text that is written for it. -/
theorem messages_survive :
    (∀ f : Fault, ∃ fields g,
      Json.ofString? f.encode = some (.object fields) ∧
      Json.valuesOf "code" fields = [.str f.code.word] ∧
      Fault.Code.ofWord? f.code.word = .ok f.code ∧
      Json.valuesOf "message" fields = [.str f.message] ∧
      Json.valuesOf "detail" fields = (f.detail.map Json.str).toList ∧
      Fault.decode? f.encode = some g ∧ g = f ∧ g.category = f.category) ∧
    (∀ text, (Fault.decode? text).bind (fun f => Fault.decode? f.encode) = Fault.decode? text) ∧
    (∀ n : StockRelease,
      StockRelease.decode? n.encode = if Json.Word64 n.quantity then some n else none) ∧
    ∀ text, (StockRelease.decode? text).bind (fun n => StockRelease.decode? n.encode) =
      StockRelease.decode? text := by
  refine ⟨?_, ?_, StockRelease.decode?_encode, ?_⟩
  · intro f
    obtain ⟨fields, hjson, hcode, hmessage, hdetail⟩ := f.valuesOf_json
    refine ⟨fields, f, ?_, hcode, f.code.ofWord?_word, hmessage, hdetail, f.decode?_encode, rfl,
      rfl⟩
    rw [f.ofString?_encode, hjson]
  · intro text
    cases h : Fault.decode? text with
    | none => rw [Option.bind_none]
    | some f => rw [Option.bind_some, f.decode?_encode]
  · intro text
    cases h : StockRelease.decode? text with
    | none => rw [Option.bind_none]
    | some n =>
      rw [Option.bind_some, n.decode?_encode, if_pos (StockRelease.word64_of_decode? h)]

end StockLedger
