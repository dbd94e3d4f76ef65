import Mathlib.Data.List.Basic
import Mathlib.Tactic.Common
import StockLedger.Proofs.Program.Within

/-!
# Transcripts

What a program asks and what it is answered, from its first request to its end.

* `Event`, `Program.Makes` : a request with its reply, and the transcript of a whole run;
* `Program.makes_bind` : the transcript of one program after another;
* `Respondent`, `Program.Within.makes` : whoever answers, a program that does not break off has a
  whole run;
* `audible` : a transcript without reports and looks at the uptime.
-/

namespace StockLedger

/-- A request and what it was answered with. -/
abbrev Event : Type :=
  (c : Call) × c.Reply

/-- A whole run: the program makes these requests, is answered like this, and ends in this value. -/
inductive Program.Makes {α : Type} : Program α → List Event → α → Prop
  | done (a : α) : Makes (.done a) [] a
  | call (c : Call) (next : c.Reply → Program α) (r : c.Reply) (es : List Event) (a : α)
      (h : Makes (next r) es a) : Makes (.call c next) (⟨c, r⟩ :: es) a

namespace Program

variable {α β : Type}

/-- The transcript of two programs falls into those of both. -/
theorem makes_bind {p : Program α} {f : α → Program β} {es : List Event} {b : β}
    (h : (p >>= f).Makes es b) :
    ∃ a es₁ es₂, es = es₁ ++ es₂ ∧ p.Makes es₁ a ∧ (f a).Makes es₂ b := by
  change (p.andThen f).Makes es b at h
  induction p generalizing es with
  | done a => exact ⟨a, [], es, rfl, .done a, h⟩
  | call c next ih =>
    cases h with
    | call _ _ r es _ hrest =>
      rcases ih r hrest with ⟨a, es₁, es₂, rfl, hfirst, hlast⟩
      exact ⟨a, ⟨c, r⟩ :: es₁, es₂, rfl, .call c next r es₁ a hfirst, hlast⟩
  | abort => cases h

theorem makes_ask {c : Call} {es : List Event} {r : c.Reply} (h : (ask c).Makes es r) :
    es = [⟨c, r⟩] := by
  cases h with
  | call _ _ _ _ _ hrest =>
    cases hrest
    rfl

theorem makes_pure {a b : α} {es : List Event} (h : (pure a : Program α).Makes es b) :
    es = [] ∧ b = a := by
  cases h
  exact ⟨rfl, rfl⟩

/-- What is true of each end of a program is true of the end of a run. -/
theorem Makes.promise {S : Call → Prop} {Q : α → Unit → Prop} {p : Program α} {es : List Event}
    {a : α} (hp : p.Safe (.asking S) Q ()) (h : p.Makes es a) : Q a () := by
  induction h with
  | done a => exact hp
  | call c next r es a _ ih => exact ih ((hp () trivial).2 r () trivial)

/-- A program that makes requests of one kind has made no others. -/
theorem Makes.requests {S : Call → Prop} {p : Program α} {es : List Event} {a : α}
    (hp : p.Within S) (h : p.Makes es a) : ∀ e ∈ es, S e.1 := by
  induction h with
  | done a => exact fun _ he => nomatch he
  | call c next r es a _ ih =>
    intro e he
    rcases List.mem_cons.1 he with rfl | hlater
    · exact hp.head.1
    · exact ih (hp.head.2 r) e hlater

end Program

/-! ## Whoever answers -/

/-- Whoever answers the requests of a program, and remembers all that has been asked. -/
abbrev Respondent : Type :=
  List Event → (c : Call) → c.Reply

def Respondent.answer? (R : Respondent) (past : List Event) (c : Call) :
    Option (c.Reply × List Event) :=
  some (R past c, past ++ [⟨c, R past c⟩])

/-- A program that does not break off has a whole run. -/
theorem Program.Within.makes {α : Type} {S : Call → Prop} {p : Program α} (hp : p.Within S)
    (R : Respondent) (past : List Event) :
    ∃ a es, p.runOn R.answer? past = some (a, past ++ es) ∧ p.Makes es a := by
  induction p generalizing past with
  | done a => exact ⟨a, [], by simp [runOn], .done a⟩
  | call c next ih =>
    rcases ih (R past c) (hp.head.2 _) (past ++ [⟨c, R past c⟩]) with ⟨a, es, hrun, hmakes⟩
    refine ⟨a, ⟨c, R past c⟩ :: es, ?_, .call c next _ es a hmakes⟩
    calc
      (Program.call c next).runOn R.answer? past
        = (next (R past c)).runOn R.answer? (past ++ [⟨c, R past c⟩]) := rfl
      _ = some (a, past ++ ⟨c, R past c⟩ :: es) := by
        simpa using hrun
  | abort => exact hp.elim

/-! ## What is heard of a program -/

/-- Nobody acts on a report, or on a look at the uptime. -/
def Call.quiet : Call → Bool
  | .uptime | .log _ => true
  | _ => false

/-- A transcript without reports and looks at the uptime. -/
def audible (es : List Event) : List Event :=
  es.filter fun e => !e.1.quiet

theorem audible_append (es es' : List Event) : audible (es ++ es') = audible es ++ audible es' :=
  List.filter_append ..

theorem audible_log {level : LogLevel} {message : String} {es : List Event}
    (h : (Program.log level message).Makes es ()) : audible es = [] := by
  rw [Program.makes_ask h]
  rfl

end StockLedger
