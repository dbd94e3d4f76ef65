import Mathlib.Tactic.Common
import StockLedger.Program.Basic

/-!
# Programs among others

Between two requests of a program others may change what the replies depend on. A `Setting` says
what they may do, what a request may be, and what it may be answered with; a program is safe if it
keeps to that whatever happens.

* `Setting` : a state with its drift, the requests that may be made and the replies;
* `Program.Safe` : every request that a program makes is allowed, and it ends as promised;
* `Program.Safe.mono`, `Program.Safe.drift`, `Program.Safe.bind` : the rules;
* `Request.Safe`, `Request.Safe.bind` : the same for programs that may be refused, with a promise
  only about success;
* `Program.runOn`, `Program.Safe.runOn`, `Request.Runs` : a program that is alone with whoever
  answers it;
* `Program.attempt` : how far a program comes, and what it leaves behind if it is broken off.
-/

namespace StockLedger

/-- What surrounds a program. -/
structure Setting (σ : Type) where
  /-- What others may do between two requests. -/
  drifts : σ → σ → Prop
  /-- May this request be made? -/
  allows : σ → Call → Prop
  /-- May a program break off? -/
  mayBreak : Prop
  /-- May the request be answered like this, and what holds then? -/
  answers : (c : Call) → σ → c.Reply → σ → Prop

/-- A promise that no drift breaks. -/
def Setting.Stable {σ : Type} (E : Setting σ) (P : σ → Prop) : Prop :=
  ∀ {s t}, E.drifts s t → P s → P t

namespace Program

variable {σ α β : Type} {E : Setting σ}

/-- Whatever happens, each request is allowed when it is made, and in the end `Q` holds. -/
def Safe (E : Setting σ) (Q : α → σ → Prop) : Program α → σ → Prop
  | done a, s => Q a s
  | call c next, s => ∀ s', E.drifts s s' →
      E.allows s' c ∧ ∀ r s'', E.answers c s' r s'' → Safe E Q (next r) s''
  | abort, _ => E.mayBreak

theorem Safe.mono {Q Q' : α → σ → Prop} (hQ : ∀ a s, Q a s → Q' a s) {p : Program α} {s : σ}
    (h : p.Safe E Q s) : p.Safe E Q' s := by
  induction p generalizing s with
  | done a => exact hQ a s h
  | call c next ih =>
    intro s' hs
    rcases h s' hs with ⟨hallows, hnext⟩
    exact ⟨hallows, fun r s'' hr => ih r (hnext r s'' hr)⟩
  | abort => exact h

/-- A drift does no harm to a promise that no drift breaks. -/
theorem Safe.drift (htrans : ∀ {s t u}, E.drifts s t → E.drifts t u → E.drifts s u)
    {Q : α → σ → Prop} (hQ : ∀ a, E.Stable (Q a)) {p : Program α} {s t : σ}
    (hst : E.drifts s t) (h : p.Safe E Q s) : p.Safe E Q t := by
  cases p with
  | done a => exact hQ a hst h
  | call c next => exact fun t' ht => h t' (htrans hst ht)
  | abort => exact h

/-- One program after another. -/
theorem Safe.bind {P : α → σ → Prop} {Q : β → σ → Prop} {p : Program α} {f : α → Program β}
    {s : σ} (hp : p.Safe E P s) (hf : ∀ a s', P a s' → (f a).Safe E Q s') :
    (p >>= f).Safe E Q s := by
  change (p.andThen f).Safe E Q s
  induction p generalizing s with
  | done a => exact hf a s hp
  | call c next ih =>
    intro s' hs
    rcases hp s' hs with ⟨hallows, hnext⟩
    exact ⟨hallows, fun r s'' hr => ih r (hnext r s'' hr)⟩
  | abort => exact hp

theorem safe_pure {Q : α → σ → Prop} {a : α} {s : σ} :
    (pure a : Program α).Safe E Q s ↔ Q a s :=
  Iff.rfl

end Program

/-! ## Programs alone -/

/-- Nobody interferes, each request has at most one answer, and no program may break off. -/
def Setting.alone {σ : Type} (answer? : σ → (c : Call) → Option (c.Reply × σ)) : Setting σ where
  drifts s t := t = s
  allows s c := (answer? s c).isSome
  mayBreak := False
  answers c s r t := answer? s c = some (r, t)

/-- The value in which a program ends, unless it breaks off or a request has no answer. -/
def Program.runOn {σ α : Type} (answer? : σ → (c : Call) → Option (c.Reply × σ)) :
    Program α → σ → Option (α × σ)
  | .done a, s => some (a, s)
  | .call c next, s => (answer? s c).bind fun (r, t) => runOn answer? (next r) t
  | .abort, _ => none

/-- A program that is safe when alone ends, and ends as promised. -/
theorem Program.Safe.runOn {σ α : Type} {answer? : σ → (c : Call) → Option (c.Reply × σ)}
    {Q : α → σ → Prop} {p : Program α} {s : σ} (h : p.Safe (.alone answer?) Q s) :
    ∃ a t, p.runOn answer? s = some (a, t) ∧ Q a t := by
  induction p generalizing s with
  | done a => exact ⟨a, s, rfl, h⟩
  | call c next ih =>
    rcases h s rfl with ⟨hallows, hnext⟩
    rcases Option.isSome_iff_exists.1 hallows with ⟨⟨r, t⟩, hr⟩
    rcases ih r (hnext r t hr) with ⟨a, u, hrun, hQ⟩
    refine ⟨a, u, ?_, hQ⟩
    rw [Program.runOn, hr, Option.bind_some]
    exact hrun
  | abort => exact h.elim

/-- One program after another. -/
theorem Program.runOn_andThen {σ α β : Type} {answer? : σ → (c : Call) → Option (c.Reply × σ)}
    (p : Program α) (f : α → Program β) (s : σ) :
    (p >>= f).runOn answer? s = (p.runOn answer? s).bind fun (a, t) => (f a).runOn answer? t := by
  change (p.andThen f).runOn answer? s = _
  induction p generalizing s with
  | done a => rfl
  | call c next ih =>
    rw [Program.andThen, Program.runOn, Program.runOn, Option.bind_assoc]
    exact congrArg _ (funext fun a => ih a.1 a.2)
  | abort => rfl

theorem Program.runOn_bind {σ α β : Type} {answer? : σ → (c : Call) → Option (c.Reply × σ)}
    {p : Program α} {f : α → Program β} {s t : σ} {a : α} (h : p.runOn answer? s = some (a, t)) :
    (p >>= f).runOn answer? s = (f a).runOn answer? t := by
  rw [runOn_andThen, h, Option.bind_some]

/-! ## Programs that are broken off -/

/-- The value in which a program ends, if it gets so far, and the state that it leaves behind. -/
def Program.attempt {σ α : Type} (tell : σ → (c : Call) → Option c.Reply × σ) :
    Program α → σ → Option α × σ
  | .done a, s => (some a, s)
  | .call c next, s =>
      match tell s c with
      | (some r, t) => attempt tell (next r) t
      | (none, t) => (none, t)
  | .abort, s => (none, s)

/-- One program after another, unless the first one is broken off. -/
theorem Program.attempt_andThen {σ α β : Type} {tell : σ → (c : Call) → Option c.Reply × σ}
    (p : Program α) (f : α → Program β) (s : σ) :
    (p >>= f).attempt tell s =
      match p.attempt tell s with
      | (some a, t) => (f a).attempt tell t
      | (none, t) => (none, t) := by
  change (p.andThen f).attempt tell s = _
  induction p generalizing s with
  | done a => rfl
  | call c next ih =>
    rw [andThen, attempt, attempt]
    rcases tell s c with ⟨_ | r, t⟩
    · rfl
    · exact ih r t
  | abort => rfl

/-- Whoever comes to an end comes to the same end with someone who answers more. -/
theorem Program.runOn_of_attempt {σ α : Type} {tell : σ → (c : Call) → Option c.Reply × σ}
    {answer? : σ → (c : Call) → Option (c.Reply × σ)}
    (htell : ∀ {s c r t}, tell s c = (some r, t) → answer? s c = some (r, t)) {p : Program α}
    {s t : σ} {a : α} (h : p.attempt tell s = (some a, t)) : p.runOn answer? s = some (a, t) := by
  induction p generalizing s with
  | done b =>
    cases h
    rfl
  | call c next ih =>
    rw [attempt] at h
    split at h
    · next r u hr =>
      rw [runOn, htell hr]
      exact ih r h
    · cases h
  | abort => cases h

/-! ## Programs that may be refused -/

namespace Request

variable {σ α β : Type} {E : Setting σ}

/-- Each request is allowed when it is made, and if the program succeeds then `Q` holds. -/
def Safe (E : Setting σ) (Q : α → σ → Prop) (x : Request α) (s : σ) : Prop :=
  Program.Safe E (fun a s => ∀ v, a = .ok v → Q v s) x.run s

theorem Safe.bind {P : α → σ → Prop} {Q : β → σ → Prop} {x : Request α} {f : α → Request β}
    {s : σ} (hx : x.Safe E P s) (hf : ∀ a s', P a s' → (f a).Safe E Q s') :
    (x >>= f).Safe E Q s := by
  refine Program.Safe.bind (p := x.run) hx fun a s' ha => ?_
  cases a with
  | ok v => exact hf v s' (ha v rfl)
  | error e => exact fun v hv => nomatch hv

theorem safe_pure {Q : α → σ → Prop} {a : α} {s : σ} (h : Q a s) :
    (pure a : Request α).Safe E Q s := by
  rintro v ⟨⟩
  exact h

theorem safe_throw {Q : α → σ → Prop} {f : Fault} {s : σ} :
    (throw f : Request α).Safe E Q s :=
  fun _ hv => nomatch hv

/-- An answer that is known already decides how a program goes on. -/
theorem safe_ofAnswer_bind {Q : β → σ → Prop} {a : Answer α} {f : α → Request β} {s : σ}
    (h : ∀ v, a = .ok v → (f v).Safe E Q s) : (ofAnswer a >>= f).Safe E Q s := by
  cases a with
  | ok v => exact h v rfl
  | error e => exact fun v hv => nomatch hv

theorem safe_lift {Q : α → σ → Prop} {p : Program α} {s : σ} (h : p.Safe E Q s) :
    (lift p).Safe E Q s := by
  refine Program.Safe.bind (p := p) h fun a s' ha => ?_
  rintro v ⟨⟩
  exact ha

/-- One program after another, where something is promised also about a refusal. -/
theorem safe_run_bind {P : Answer α → σ → Prop} {Q : Answer β → σ → Prop} {x : Request α}
    {f : α → Request β} {s : σ} (hx : Program.Safe E P x.run s)
    (hok : ∀ v s', P (.ok v) s' → Program.Safe E Q (f v).run s')
    (herror : ∀ e s', P (.error e) s' → Q (.error e) s') :
    Program.Safe E Q (x >>= f).run s := by
  refine Program.Safe.bind (p := x.run) hx fun a s' ha => ?_
  match a with
  | .ok v => exact hok v s' ha
  | .error e => exact herror e s' ha

/-- A program that succeeds if it is alone with whoever answers it. -/
def Runs (answer? : σ → (c : Call) → Option (c.Reply × σ)) (x : Request α) (s : σ) (v : α)
    (t : σ) : Prop :=
  x.run.runOn answer? s = some (.ok v, t)

theorem Runs.bind {answer? : σ → (c : Call) → Option (c.Reply × σ)} {x : Request α}
    {f : α → Request β} {s t u : σ} {v : α} {b : β} (hx : x.Runs answer? s v t)
    (hf : (f v).Runs answer? t b u) : (x >>= f).Runs answer? s b u :=
  (Program.runOn_bind (p := x.run) hx).trans hf

end Request
end StockLedger
