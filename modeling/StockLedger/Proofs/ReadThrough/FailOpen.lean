import Mathlib.Tactic.Common
import StockLedger.Proofs.Program.Transcript
import StockLedger.Proofs.Wire.Item

/-!
# A cache that cannot be trusted

Whatever a cache says, and whatever it refuses, the ledger behind it is asked as if it stood alone.

* `Keeper`, `Rumor`, `Keeper.beside` : a ledger that answers as it likes, next to a cache that says
  anything;
* `Asked`, `Believed` : the two ways in which a request can end;
* `safe_cached_beside` : every request ends in one of them;
* `cached_fails_open` : no answer of the cache makes a request fail or reaches the ledger.
-/

namespace StockLedger

open ReadThrough

/-! ## A ledger and a cache -/

/-- A ledger that answers as it likes and keeps what it likes. -/
abbrev Keeper (ι : Type) : Type :=
  ι → (c : LedgerCall) → c.Reply × ι

/-- A cache that says anything: each answer may depend on all that has been said before. -/
abbrev Rumor : Type :=
  List Event → (c : CacheCall) → c.Reply

/-- A program asks the ledger and the cache, and all that is said is remembered. -/
def Keeper.beside {ι : Type} (K : Keeper ι) (R : Rumor) :
    ι × List Event → (c : Call) → Option (c.Reply × (ι × List Event))
  | (i, past), .ledger c =>
      let (r, j) := K i c
      some (r, (j, past ++ [⟨.ledger c, r⟩]))
  | (i, past), .cache c => some (R past c, (i, past ++ [⟨.cache c, R past c⟩]))
  | (i, past), .log e => some ((), (i, past ++ [⟨.log e, ()⟩]))
  | _, _ => none

/-- What the ledger was asked, and what it answered. -/
def consulted (es : List Event) : List Event :=
  es.filter fun
    | ⟨.ledger _, _⟩ => true
    | _ => false

theorem consulted_append (es es' : List Event) :
    consulted (es ++ es') = consulted es ++ consulted es' :=
  List.filter_append ..

/-- The items that a read returns. -/
def LedgerCall.found : (c : LedgerCall) → c.Reply → List StockItem
  | load _, .ok s | findByProduct _, .ok s => [s]
  | findMany _, .ok xs | findLowStock _ _, .ok xs => xs
  | _, _ => []

/-! ## How a request ends -/

section

variable {ι : Type}

/-- The ledger was asked this once and nothing else, and its answer is the answer. -/
def Asked (K : Keeper ι) (i : ι) (c : LedgerCall) (r : c.Reply) (t : ι × List Event) : Prop :=
  (r, t.1) = K i c ∧ consulted t.2 = [⟨.ledger c, r⟩]

/-- A text from the cache was taken for the answer. -/
inductive Believed (es : List Event) : (c : LedgerCall) → c.Reply → Prop
  | load (id : ItemId) (text : String) (s : StockItem)
      (hget : ⟨.cache (.get (CacheKey.item id)), .ok (some text)⟩ ∈ es)
      (hdecode : StockItem.decode? text = some s) : Believed es (.load id) (.ok s)
  | findByProduct (p : ProductId) (text : String) (s : StockItem)
      (hget : ⟨.cache (.get (CacheKey.product p)), .ok (some text)⟩ ∈ es)
      (hdecode : StockItem.decode? text = some s) : Believed es (.findByProduct p) (.ok s)
  | findLowStock (t : Int) (n : UInt64) (text : String) (xs : List StockItem)
      (hget : ⟨.cache (.get (CacheKey.lowStock t n)), .ok (some text)⟩ ∈ es)
      (hdecode : StockItem.decodeAll? text = some xs) : Believed es (.findLowStock t n) (.ok xs)
  | hasProduct (p : ProductId) (text : String)
      (hget : ⟨.cache (.get (CacheKey.product p)), .ok (some text)⟩ ∈ es) :
      Believed es (.hasProduct p) (.ok true)

/-- The ledger was asked, or it was left alone and the cache was believed. -/
def FailsOpen (K : Keeper ι) (i : ι) (c : LedgerCall) (r : c.Reply) (t : ι × List Event) : Prop :=
  Asked K i c r t ∨ consulted t.2 = [] ∧ t.1 = i ∧ Believed t.2 c r

/-! ## Steps without the ledger -/

/-- Since then the ledger was not asked. -/
structure Unasked (s t : ι × List Event) : Prop where
  ledger : t.1 = s.1
  consulted : consulted t.2 = consulted s.2

theorem Unasked.refl (s : ι × List Event) : Unasked s s :=
  ⟨rfl, rfl⟩

theorem Unasked.trans {s t u : ι × List Event} (h : Unasked s t) (h' : Unasked t u) :
    Unasked s u :=
  ⟨h'.ledger.trans h.ledger, h'.consulted.trans h.consulted⟩

theorem Asked.later {K : Keeper ι} {i : ι} {c : LedgerCall} {r : c.Reply} {t u : ι × List Event}
    (h : Asked K i c r t) (hu : Unasked t u) : Asked K i c r u := by
  rcases h with ⟨hr, ht⟩
  exact ⟨hu.ledger ▸ hr, hu.consulted.trans ht⟩

variable {K : Keeper ι} {R : Rumor} {lifetimes : CacheLifetimes} {s t : ι × List Event}

/-- A program that only uses the cache leaves the ledger alone, and comes to its end. -/
theorem Program.Within.unasked {α : Type} {p : Program α} (hp : p.OfCache)
    (s : ι × List Event) : p.Safe (.alone (K.beside R)) (fun _ t => Unasked s t) s := by
  induction p generalizing s with
  | done a => exact Unasked.refl s
  | call c next ih =>
    rcases hp.head with ⟨hc, hnext⟩
    rintro s rfl
    -- Only requests to the cache and reports are left.
    cases c with
    | cache c =>
      refine ⟨rfl, ?_⟩
      rintro _ _ ⟨⟩
      refine Program.Safe.mono (fun _ u hu => ?_) (ih _ (hnext _) _)
      have hstep : Unasked s (s.1, s.2 ++ [⟨.cache c, R s.2 c⟩]) := ⟨rfl, by simp [consulted]⟩
      exact hstep.trans hu
    | log e =>
      refine ⟨rfl, ?_⟩
      rintro _ _ ⟨⟩
      refine Program.Safe.mono (fun _ u hu => ?_) (ih _ (hnext _) _)
      have hstep : Unasked s (s.1, s.2 ++ [⟨.log e, ()⟩]) := ⟨rfl, by simp [consulted]⟩
      exact hstep.trans hu
    | _ => cases hc
  | abort => exact hp.elim

/-- What the cache answered has been said, and the ledger was left alone. -/
theorem safe_hear (c : CacheCall) (s : ι × List Event) :
    (cache c).Safe (.alone (K.beside R))
      (fun r t => Unasked s t ∧ ⟨.cache c, r⟩ ∈ t.2) s := by
  rintro s rfl
  refine ⟨rfl, ?_⟩
  rintro _ _ ⟨⟩
  exact ⟨⟨rfl, by simp [consulted]⟩, List.mem_append_right _ List.mem_cons_self⟩

/-- The ledger is asked once. -/
theorem safe_ask_ledger {i : ι} (hi : s.1 = i) (hs : consulted s.2 = []) (c : LedgerCall) :
    (LedgerAccess.direct c).Safe (.alone (K.beside R)) (fun r t => Asked K i c r t) s := by
  subst hi
  rintro s rfl
  refine ⟨rfl, ?_⟩
  rintro _ _ ⟨⟩
  refine ⟨rfl, ?_⟩
  have hlast : consulted [⟨.ledger c, (K s.1 c).1⟩] = [⟨.ledger c, (K s.1 c).1⟩] := rfl
  calc
    consulted (s.2 ++ [⟨.ledger c, (K s.1 c).1⟩])
      = consulted s.2 ++ consulted [⟨.ledger c, (K s.1 c).1⟩] := consulted_append _ _
    _ = [⟨.ledger c, (K s.1 c).1⟩] := by rw [hs, hlast, List.nil_append]

/-! ## Reads -/

/-- An item that the cache seems to have was spelled by a text from it. -/
theorem safe_cachedItem_beside (key : String) (s : ι × List Event) :
    (cachedItem key).Safe (.alone (K.beside R))
      (fun a t => Unasked s t ∧ ∀ x, a = some x → ∃ text,
        ⟨.cache (.get key), .ok (some text)⟩ ∈ t.2 ∧ StockItem.decode? text = some x) s := by
  refine (safe_hear (.get key) s).bind fun r t ht => ?_
  rcases ht with ⟨ht, hmem⟩
  match r with
  | .ok none => exact ⟨ht, fun _ hx => nomatch hx⟩
  | .ok (some text) =>
    cases hdecode : StockItem.decode? text with
    | some x =>
      simp only [hdecode]
      refine ⟨ht, ?_⟩
      rintro _ ⟨⟩
      exact ⟨text, hmem, hdecode⟩
    | none =>
      -- What is done about a text that is no item does not matter.
      simp only [hdecode]
      refine (within_log.unasked t).bind fun _ u hu => ?_
      refine ((within_forget [key]).unasked u).bind fun _ v hv => ?_
      exact ⟨(ht.trans hu).trans hv, fun _ hx => nomatch hx⟩
  | .error _ =>
    refine (within_log.unasked t).bind fun _ u hu => ?_
    exact ⟨ht.trans hu, fun _ hx => nomatch hx⟩

/-- A list that the cache seems to have was spelled by a text from it. -/
theorem safe_cachedItems_beside (key : String) (s : ι × List Event) :
    (cachedItems key).Safe (.alone (K.beside R))
      (fun a t => Unasked s t ∧ ∀ xs, a = some xs → ∃ text,
        ⟨.cache (.get key), .ok (some text)⟩ ∈ t.2 ∧ StockItem.decodeAll? text = some xs) s := by
  refine (safe_hear (.get key) s).bind fun r t ht => ?_
  rcases ht with ⟨ht, hmem⟩
  match r with
  | .ok none => exact ⟨ht, fun _ hxs => nomatch hxs⟩
  | .ok (some text) =>
    cases hdecode : StockItem.decodeAll? text with
    | some xs =>
      simp only [hdecode]
      refine ⟨ht, ?_⟩
      rintro _ ⟨⟩
      exact ⟨text, hmem, hdecode⟩
    | none =>
      simp only [hdecode]
      refine (within_log.unasked t).bind fun _ u hu => ?_
      exact ⟨ht.trans hu, fun _ hxs => nomatch hxs⟩
  | .error _ =>
    refine (within_log.unasked t).bind fun _ u hu => ?_
    exact ⟨ht.trans hu, fun _ hxs => nomatch hxs⟩

/-- A read of an item: what the ledger answers is passed on, and what is cached is only warmed. -/
theorem safe_readItem_beside {P : Answer StockItem → ι × List Event → Prop} {key : String}
    {fetch : Program (Answer StockItem)}
    (hfetch : ∀ t, Unasked s t → fetch.Safe (.alone (K.beside R)) P t)
    (hP : ∀ r t u, P r t → Unasked t u → P r u) :
    (readItem lifetimes key fetch).Safe (.alone (K.beside R))
      (fun r t => P r t ∨ Unasked s t ∧ ∃ text x, r = .ok x ∧
        ⟨.cache (.get key), .ok (some text)⟩ ∈ t.2 ∧ StockItem.decode? text = some x) s := by
  refine (safe_cachedItem_beside key s).bind fun a t ht => ?_
  rcases ht with ⟨ht, hitem⟩
  match a with
  | some x =>
    rcases hitem x rfl with ⟨text, hmem, hdecode⟩
    exact .inr ⟨ht, text, x, rfl, hmem, hdecode⟩
  | none =>
    refine (hfetch t ht).bind fun r u hr => ?_
    match r with
    | .ok x =>
      refine ((within_populate x).unasked u).bind fun _ v hv => ?_
      exact .inl (hP _ u v hr hv)
    | .error f => exact .inl hr

theorem safe_readLowStock_beside {P : Answer (List StockItem) → ι × List Event → Prop}
    {key : String} {fetch : Program (Answer (List StockItem))}
    (hfetch : ∀ t, Unasked s t → fetch.Safe (.alone (K.beside R)) P t)
    (hP : ∀ r t u, P r t → Unasked t u → P r u) :
    (readLowStock lifetimes key fetch).Safe (.alone (K.beside R))
      (fun r t => P r t ∨ Unasked s t ∧ ∃ text xs, r = .ok xs ∧
        ⟨.cache (.get key), .ok (some text)⟩ ∈ t.2 ∧ StockItem.decodeAll? text = some xs) s := by
  refine (safe_cachedItems_beside key s).bind fun a t ht => ?_
  rcases ht with ⟨ht, hlist⟩
  match a with
  | some xs =>
    rcases hlist xs rfl with ⟨text, hmem, hdecode⟩
    exact .inr ⟨ht, text, xs, rfl, hmem, hdecode⟩
  | none =>
    refine (hfetch t ht).bind fun r u hr => ?_
    match r with
    | .ok xs =>
      refine ((within_keep _ _ _).unasked u).bind fun _ v hv => ?_
      exact .inl (hP _ u v hr hv)
    | .error f => exact .inl hr

theorem safe_readHasProduct_beside {P : Answer Bool → ι × List Event → Prop} {key : String}
    {fetch : Program (Answer Bool)}
    (hfetch : ∀ t, Unasked s t → fetch.Safe (.alone (K.beside R)) P t) :
    (readHasProduct key fetch).Safe (.alone (K.beside R))
      (fun r t => P r t ∨ Unasked s t ∧ r = .ok true ∧ ∃ text,
        ⟨.cache (.get key), .ok (some text)⟩ ∈ t.2) s := by
  refine (safe_hear (.get key) s).bind fun r t ht => ?_
  rcases ht with ⟨ht, hmem⟩
  match r with
  | .ok (some text) => exact .inr ⟨ht, rfl, text, hmem⟩
  | .ok none => exact Program.Safe.mono (fun _ _ h => .inl h) (hfetch t ht)
  | .error _ =>
    refine (within_log.unasked t).bind fun _ u hu => ?_
    exact Program.Safe.mono (fun _ _ h => .inl h) (hfetch u (ht.trans hu))

/-! ## Writes -/

/-- What follows a write does not change how it ended. -/
theorem safe_writeNew_beside {P : Answer Unit → ι × List Event → Prop} {x : StockItem}
    {store : Program (Answer Unit)} (hstore : store.Safe (.alone (K.beside R)) P s)
    (hP : ∀ r t u, P r t → Unasked t u → P r u) :
    (writeNew lifetimes x store).Safe (.alone (K.beside R)) P s := by
  refine hstore.bind fun r t hr => ?_
  match r with
  | .ok () =>
    refine ((within_populate x).unasked t).bind fun _ u hu => ?_
    have hlists : (forgetLists (return)).OfCache :=
      Program.KeepsNothing.ofCache (keepsNothing_forgetLists trivial)
    refine (hlists.unasked u).bind fun _ v hv => ?_
    exact hP _ t v hr (hu.trans hv)
  | .error f => exact hr

theorem safe_writeConditional_beside {P : Written → ι × List Event → Prop}
    {store : Program Written} (hstore : store.Safe (.alone (K.beside R)) P s)
    (hP : ∀ r t u, P r t → Unasked t u → P r u) :
    (writeConditional store).Safe (.alone (K.beside R)) P s := by
  refine hstore.bind fun w t hw => ?_
  split
  · refine ((within_invalidate _ _).unasked t).bind fun _ u hu => ?_
    exact hP _ t u hw hu
  · exact hw

theorem safe_writeOver_beside {P : Answer StockItem → ι × List Event → Prop}
    {store : Program (Answer StockItem)} (hstore : store.Safe (.alone (K.beside R)) P s)
    (hP : ∀ r t u, P r t → Unasked t u → P r u) :
    (writeOver store).Safe (.alone (K.beside R)) P s := by
  refine hstore.bind fun r t hr => ?_
  match r with
  | .ok x =>
    refine ((within_invalidate _ _).unasked t).bind fun _ u hu => ?_
    exact hP _ t u hr hu
  | .error f => exact hr

/-! ## Every request -/

/-- A request ends because the ledger was asked once, or because the cache was believed. -/
theorem safe_cached_beside {i : ι} (hi : s.1 = i) (hs : consulted s.2 = []) (c : LedgerCall) :
    (LedgerAccess.cached lifetimes c).Safe (.alone (K.beside R)) (fun r t => FailsOpen K i c r t)
      s := by
  have hdirect : ∀ t, Unasked s t →
      (LedgerAccess.direct c).Safe (.alone (K.beside R)) (Asked K i c) t :=
    fun t ht => safe_ask_ledger (ht.ledger.trans hi) (ht.consulted.trans hs) c
  have hlater : ∀ r t u, Asked K i c r t → Unasked t u → Asked K i c r u :=
    fun _ _ _ => Asked.later
  have hnow := hdirect s (.refl s)
  cases c with
  | load id =>
    refine Program.Safe.mono (fun r t h => ?_) (safe_readItem_beside hdirect hlater)
    refine h.imp_right ?_
    rintro ⟨ht, text, x, rfl, hmem, hdecode⟩
    exact ⟨ht.consulted.trans hs, ht.ledger.trans hi, .load id text x hmem hdecode⟩
  | findByProduct p =>
    refine Program.Safe.mono (fun r t h => ?_) (safe_readItem_beside hdirect hlater)
    refine h.imp_right ?_
    rintro ⟨ht, text, x, rfl, hmem, hdecode⟩
    exact ⟨ht.consulted.trans hs, ht.ledger.trans hi, .findByProduct p text x hmem hdecode⟩
  | findLowStock t n =>
    refine Program.Safe.mono (fun r t' h => ?_) (safe_readLowStock_beside hdirect hlater)
    refine h.imp_right ?_
    rintro ⟨ht, text, xs, rfl, hmem, hdecode⟩
    exact ⟨ht.consulted.trans hs, ht.ledger.trans hi, .findLowStock t n text xs hmem hdecode⟩
  | hasProduct p =>
    refine Program.Safe.mono (fun r t h => ?_) (safe_readHasProduct_beside hdirect)
    refine h.imp_right ?_
    rintro ⟨ht, rfl, text, hmem⟩
    exact ⟨ht.consulted.trans hs, ht.ledger.trans hi, .hasProduct p text hmem⟩
  | findMany | count => exact Program.Safe.mono (fun _ _ => .inl) hnow
  | save x => exact Program.Safe.mono (fun _ _ => .inl) (safe_writeNew_beside hnow hlater)
  | update x =>
    exact Program.Safe.mono (fun _ _ => .inl) (safe_writeConditional_beside hnow hlater)
  | delete | bumpVersion =>
    exact Program.Safe.mono (fun _ _ => .inl) (safe_writeOver_beside hnow hlater)

/-! ## What may be believed -/

/-- A text spells a row, alone or in a list. -/
def Spells (text : String) (row : ItemRow) : Prop :=
  ItemRow.ofString? text = some row ∨
    ∃ js, Json.ofString? text = some (.array js) ∧ some row ∈ js.map ItemRow.ofJson?

theorem Believed.writes {es : List Event} {c : LedgerCall} {r : c.Reply}
    (h : Believed es c r) : c.writes = false := by
  cases h <;> rfl

theorem Believed.fault? {es : List Event} {c : LedgerCall} {r : c.Reply}
    (h : Believed es c r) : c.fault? r = none := by
  cases h <;> rfl

/-- An item that was believed is spelled by a text from the cache. -/
theorem Believed.spelled {es : List Event} {c : LedgerCall} {r : c.Reply} {x : StockItem}
    (h : Believed es c r) (hx : x ∈ c.found r) :
    ∃ key text, ⟨.cache (.get key), .ok (some text)⟩ ∈ es ∧ Spells text (.ofItem x) := by
  cases h with
  | load id text s hmem hdecode =>
    rcases List.mem_singleton.1 hx with rfl
    exact ⟨_, text, hmem, .inl (StockItem.ofString?_of_decode? hdecode)⟩
  | findByProduct p text s hmem hdecode =>
    rcases List.mem_singleton.1 hx with rfl
    exact ⟨_, text, hmem, .inl (StockItem.ofString?_of_decode? hdecode)⟩
  | findLowStock t n text xs hmem hdecode =>
    rcases StockItem.ofString?_of_decodeAll? hdecode with ⟨js, hjs, hrows⟩
    refine ⟨_, text, hmem, .inr ⟨js, hjs, ?_⟩⟩
    rw [hrows]
    exact List.mem_map_of_mem hx
  | hasProduct => cases hx

/--
Whatever the cache answers, each time it is asked, a request comes to its end, and either the ledger
was asked it once and its answer is the answer, or the ledger was left alone and a text from the
cache was believed. Writes always ask the ledger, only the ledger refuses a request, and an item
that the ledger did not return is one that a text spelled with counts that an item can have.
-/
theorem cached_fails_open (lifetimes : CacheLifetimes) (K : Keeper ι) (R : Rumor) (i : ι)
    (c : LedgerCall) :
    ∃ r t, (LedgerAccess.cached lifetimes c).runOn (K.beside R) (i, []) = some (r, t) ∧
      FailsOpen K i c r t ∧
      (c.writes = true → Asked K i c r t) ∧
      (∀ f, c.fault? r = some f → Asked K i c r t) ∧
      ∀ x ∈ c.found r, Asked K i c r t ∨ ∃ key text row,
        ⟨.cache (.get key), .ok (some text)⟩ ∈ t.2 ∧ Spells text row ∧ row = .ofItem x ∧
          0 ≤ row.reserved ∧ row.reserved ≤ row.quantity := by
  have hsafe : (LedgerAccess.cached lifetimes c).Safe (.alone (K.beside R))
      (FailsOpen K i c) (i, []) := safe_cached_beside (s := (i, [])) rfl rfl c
  rcases hsafe.runOn with ⟨r, t, hrun, houtcome⟩
  refine ⟨r, t, hrun, houtcome, ?_⟩
  rcases houtcome with hasked | ⟨-, -, hbelieved⟩
  · exact ⟨fun _ => hasked, fun _ _ => hasked, fun _ _ => .inl hasked⟩
  · refine ⟨fun hwrites => ?_, fun f hf => ?_, fun x hx => .inr ?_⟩
    · rw [hbelieved.writes] at hwrites
      cases hwrites
    · rw [hbelieved.fault?] at hf
      cases hf
    · rcases hbelieved.spelled hx with ⟨key, text, hmem, hspells⟩
      exact ⟨key, text, .ofItem x, hmem, hspells, rfl, x.reserved_nonneg, x.reserved_le⟩

end
end StockLedger
