import Mathlib.Tactic.Common
import StockLedger.Proofs.Concurrent.History
import StockLedger.Proofs.Program.Safe

/-!
# One program while the others wait

* `World.attend` : each request is carried out, with the cache in reach or not;
* `Rules.Test`, `Rules.attend` : the same as far as a test lets requests through;
* `System.Reaches.runOn`, `System.Reaches.solo` : if the others wait, a program gets as far as it
  would alone;
* `System.turn` : a request of the program whose turn it is;
* `System.Reaches.starts`, `System.Reaches.turns` : programs that take turns.
-/

namespace StockLedger

/--
Each request is carried out, at one instant and at one uptime, and the reply arrives; only the cache
may be out of reach.
-/
def World.attend (now : Timestamp) (fresh : Uuid) (online : Bool) (w : World) :
    (c : Call) → Option (Option c.Reply × c.Reply × World)
  | .ledger c =>
      let r := w.ledger.reply now c
      some (some r, r, w.afterLedger now c)
  | .reservations c =>
      let r := w.reservations.reply c
      some (some r, r, { w with reservations := w.reservations.apply c })
  | .cache c =>
      match online with
      | true =>
          let r := w.cache.reply 0 c
          some (some r, r, { w with cache := w.cache.apply 0 c })
      | false => some (none, .error MemoryCache.offline, w)
  | .now => some (some now, now, w)
  | .uptime => some (some (0 : Nat), (0 : Nat), w)
  | .freshUuid => some (some fresh, fresh, w)
  | .log _ => some (some (), (), w)
  | _ => none

section

variable {now : Timestamp} {fresh : Uuid} {online : Bool} {w w' : World} {c : Call}
  {served : Option c.Reply} {r : c.Reply}

theorem World.attend_serves (h : w.attend now fresh online c = some (served, r, w')) :
    w.Serves c served w' ∧ c.Reports served r := by
  cases c with
  | ledger c =>
    cases h
    exact ⟨.ledger now c, .inl rfl⟩
  | reservations c =>
    cases h
    exact ⟨.reservations c, .inl rfl⟩
  | cache c =>
    cases online with
    | true =>
      cases h
      exact ⟨.cache 0 c, .inl rfl⟩
    | false =>
      cases h
      exact ⟨.skipped _, .inr ⟨_, rfl⟩⟩
  | now =>
    cases h
    exact ⟨.now now, rfl⟩
  | uptime =>
    cases h
    exact ⟨.uptime 0, rfl⟩
  | freshUuid =>
    cases h
    exact ⟨.freshUuid fresh, rfl⟩
  | log e =>
    cases h
    exact ⟨.log e, rfl⟩
  | publish | findExpiredWithin | enterSweep | leaveSweep | recordSweep | recordSkip => cases h

/-- While the cache is in reach, nothing fails. -/
theorem World.attend_heard (h : w.attend now fresh true c = some (served, r, w')) :
    served = some r := by
  cases c with
  | publish | findExpiredWithin | enterSweep | leaveSweep | recordSweep | recordSkip => cases h
  | _ =>
    cases h
    rfl

end

/-- The reply together with the record and the world after it. -/
def World.answer (now : Timestamp) (fresh : Uuid) (s : Record × World) (c : Call) :
    Option (c.Reply × (Record × World)) :=
  (s.2.attend now fresh false c).map fun (served, r, w') => (r, (s.1.note c r served, w'))

variable {J : Job}

/-- A test that lets requests through which the rules permit, though perhaps not all of them. -/
structure Rules.Test (R : Rules J) where
  permits : Bool → World → List (Run J) → (c : Call) → Option c.Reply → World → Bool
  sound : ∀ {now fresh online w others c served r w'},
    w.attend now fresh online c = some (served, r, w') →
      permits online w others c served w' = true → R.serves w others c served r w'

/-- Requests are carried out as long as the test lets them through. -/
def Rules.attend {R : Rules J} (test : R.Test) (now : Timestamp) (fresh : Uuid) (online : Bool)
    (others : List (Run J)) (s : Record × World) (c : Call) :
    Option (c.Reply × (Record × World)) :=
  (s.2.attend now fresh online c).bind fun (served, r, w') =>
    if test.permits online s.2 others c served w' then some (r, (s.1.note c r served, w')) else none

theorem Rules.attend_serves {R : Rules J} {test : R.Test} {now : Timestamp} {fresh : Uuid}
    {online : Bool} {others : List (Run J)} {s s' : Record × World} {c : Call} {r : c.Reply}
    (h : Rules.attend test now fresh online others s c = some (r, s')) :
    ∃ served, s.2.Serves c served s'.2 ∧ c.Reports served r ∧ s'.1 = s.1.note c r served ∧
      R.serves s.2 others c served r s'.2 := by
  rcases Option.bind_eq_some_iff.1 h with ⟨⟨served, r', w₁⟩, hattend, hcheck⟩
  rcases World.attend_serves hattend with ⟨hserves, hreports⟩
  rcases Option.ite_none_right_eq_some.1 hcheck with ⟨htest, heq⟩
  cases heq
  exact ⟨served, hserves, hreports, rfl, test.sound hattend htest⟩

/--
If the others wait, a program goes on as whoever answers its requests alone lets it, up to any
point at which a part of it has ended.
-/
theorem System.Reaches.runOn {R : Rules J}
    {answer? : Record × World → (c : Call) → Option (c.Reply × (Record × World))}
    (before after : List (Run J)) (task : J.Task)
    (hanswers : ∀ {s c r s'}, answer? s c = some (r, s') → ∃ served, s.2.Serves c served s'.2 ∧
      c.Reports served r ∧ s'.1 = s.1.note c r served ∧
      R.serves s.2 (before ++ after) c served r s'.2)
    {α : Type} {p : Program α} {f : α → Program (J.Outcome task)}
    {s s' : Record × World} {a : α} (hrun : p.runOn answer? s = some (a, s')) :
    Reaches R ⟨s.2, before ++ ⟨task, s.1, p.andThen f⟩ :: after⟩
      ⟨s'.2, before ++ ⟨task, s'.1, f a⟩ :: after⟩ := by
  induction p generalizing s with
  | done b =>
    cases hrun
    exact .refl
  | call c next ih =>
    rcases Option.bind_eq_some_iff.1 hrun with ⟨⟨r, t⟩, hanswer, hrest⟩
    rcases hanswers hanswer with ⟨served, hserves, hreports, hrecord, hrules⟩
    -- One request is one step; what is left of the program is alone with the same world.
    have hstep := Step.answer (R := R) s.2 t.2 before after
      ⟨task, s.1, .call c fun r => (next r).andThen f⟩ c _ served r rfl hserves hreports hrules
    have hsteps := ih r hrest
    rw [hrecord] at hsteps
    exact .head hstep hsteps
  | abort => cases hrun

theorem System.Reaches.solo {R : Rules J} (test : R.Test) (now : Timestamp) (fresh : Uuid)
    (before after : List (Run J)) {task : J.Task} {p : Program (J.Outcome task)}
    {k k' : Record} {w w' : World} {a : J.Outcome task}
    (hrun : p.runOn (Rules.attend test now fresh false (before ++ after)) (k, w) =
      some (a, (k', w'))) :
    Reaches R ⟨w, before ++ ⟨task, k, p⟩ :: after⟩
      ⟨w', before ++ ⟨task, k', .done a⟩ :: after⟩ := by
  have hsteps := System.Reaches.runOn (R := R) (f := .done) before after task Rules.attend_serves
    hrun
  rw [Program.andThen_done] at hsteps
  exact hsteps

/-! ## Programs that take turns -/

/-- Programs that may be started at any time may be started one after another. -/
theorem System.Reaches.starts {R : Rules J} (σ : System J) (tasks : List J.Task)
    (hR : ∀ t ∈ tasks, ∀ σ, R.starts σ t) :
    Reaches R σ { σ with runs := σ.runs ++ tasks.map (Run.start J) } := by
  induction tasks generalizing σ with
  | nil =>
    rw [List.map_nil, List.append_nil]
  | cons t tasks ih =>
    have hrest := ih { σ with runs := σ.runs ++ [.start J t] } fun t ht =>
      hR t (List.mem_cons_of_mem _ ht)
    rw [List.append_assoc] at hrest
    exact .head (.start σ t (hR t (List.mem_cons_self ..) σ)) hrest

/--
The next request of the program whose turn it is, if the test lets it through. Each program draws
identities of its own.
-/
def System.turn {R : Rules J} (test : R.Test) (now : Timestamp) (σ : System J)
    (i : Nat) (online : Bool) : Option (System J) :=
  σ.runs[i]?.bind fun run =>
    let before := σ.runs.take i
    let after := σ.runs.drop (i + 1)
    match run.rest with
    | .call c next =>
        (Rules.attend test now (.ofNat (i + 1)) online (before ++ after)
          (run.record, σ.world) c).map fun (r, k, w) =>
            ⟨w, before ++ run.resume k (next r) :: after⟩
    | _ => none

/-- Programs take turns, each time with the cache in reach or not. -/
def System.turns {R : Rules J} (test : R.Test) (now : Timestamp) (σ : System J) :
    List (Nat × Bool) → Option (System J)
  | [] => some σ
  | (i, online) :: order => (σ.turn test now i online).bind fun σ' => turns test now σ' order

theorem System.Step.turn {R : Rules J} {test : R.Test} {now : Timestamp} {σ σ' : System J}
    {i : Nat} {online : Bool} (h : σ.turn test now i online = some σ') : Step R σ σ' := by
  rcases σ with ⟨w, runs⟩
  rcases Option.bind_eq_some_iff.1 h with ⟨run, hrun, h⟩
  have hi : i < runs.length := (List.getElem?_eq_some_iff.1 hrun).1
  have hsplit : runs = runs.take i ++ run :: runs.drop (i + 1) := by
    rw [← (List.getElem?_eq_some_iff.1 hrun).2, List.cons_getElem_drop_succ,
      List.take_append_drop]
  dsimp only at h
  split at h
  · next c next hrest =>
    rcases Option.map_eq_some_iff.1 h with ⟨⟨r, k, w'⟩, hattend, rfl⟩
    rcases Rules.attend_serves hattend with ⟨served, hserves, hreports, rfl, hrules⟩
    have hstep := Step.answer (R := R) w w' (runs.take i) (runs.drop (i + 1)) run c next served r
      hrest hserves hreports hrules
    rw [← hsplit] at hstep
    exact hstep
  · cases h

/-- What programs do that take turns is possible. -/
theorem System.Reaches.turns {R : Rules J} (test : R.Test) (now : Timestamp)
    (order : List (Nat × Bool)) {σ σ' : System J} (h : σ.turns test now order = some σ') :
    Reaches R σ σ' := by
  induction order generalizing σ with
  | nil =>
    cases h
    exact .refl
  | cons turn order ih =>
    rcases Option.bind_eq_some_iff.1 h with ⟨σ₁, hturn, hrest⟩
    exact .head (.turn hturn) (ih hrest)

end StockLedger
