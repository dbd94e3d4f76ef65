import StockLedger.Fault.Basic
import StockLedger.Identity.Basic
import StockLedger.Identity.Reader
import StockLedger.Json.Shape
import StockLedger.Stock.Release
import StockLedger.Text.Case
import StockLedger.Time.Reader
import StockLedger.Time.Written

/-!
# Single values in JSON

Identities, instants and words as JSON strings.

* `Uuid.json`, `Uuid.ofJson?` : the hyphenated form; any accepted form is read;
* `Timestamp.json`, `Timestamp.ofJson?` : the form with the mark `Z`;
* `Fault.Code`, `Fault.Category`, `Reservation.Status`, `StockRelease.Reason` : their words, each
  spelled after the name of the value.
-/

namespace StockLedger

/-! ## Identities and instants -/

def Uuid.ofString? (s : String) : Option Uuid :=
  Uuid.ofChars? s.toList

def Uuid.json (u : Uuid) : Json :=
  .str u.text

def Uuid.ofJson? (j : Json) : Option Uuid :=
  j.string?.bind Uuid.ofString?

def Timestamp.json (t : Timestamp) : Json :=
  .str t.zulu

def Timestamp.ofJson? (j : Json) : Option Timestamp :=
  j.string?.bind Timestamp.ofString?

/--
The UUID that a text denotes, or the reason why it denotes none; `kind` names what was looked for.
-/
def Uuid.ofStringFor (kind s : String) : Answer Uuid :=
  match Uuid.ofString? s with
  | some u => .ok u
  | none => .error (.corruptRecord (kind ++ ": " ++ (Uuid.diagnose s.toList).message))

/-! ## Words -/

/-- The name of a code. -/
def Fault.Code.title : Fault.Code → String
  | .invalidQuantity => "InvalidQuantity"
  | .invalidDuration => "InvalidDuration"
  | .itemNotFound => "ItemNotFound"
  | .productNotFound => "ProductNotFound"
  | .reservationNotFound => "ReservationNotFound"
  | .versionConflict => "VersionConflict"
  | .itemAlreadyExists => "ItemAlreadyExists"
  | .reservationAlreadyExists => "ReservationAlreadyExists"
  | .insufficientStock => "InsufficientStock"
  | .invalidRelease => "InvalidRelease"
  | .invalidConfirm => "InvalidConfirm"
  | .reservationNotPending => "ReservationNotPending"
  | .reservationExpired => "ReservationExpired"
  | .reservationNotExpired => "ReservationNotExpired"
  | .sweepInProgress => "SweepInProgress"
  | .sweepTimedOut => "SweepTimedOut"
  | .storageFailure => "StorageFailure"
  | .corruptRecord => "CorruptRecord"

/-- The name of a category. -/
def Fault.Category.title : Fault.Category → String
  | .validation => "Validation"
  | .notFound => "NotFound"
  | .conflict => "Conflict"
  | .businessRule => "BusinessRule"
  | .expired => "Expired"
  | .internal => "Internal"

/-- The name of a status. -/
def Reservation.Status.title : Reservation.Status → String
  | .pending => "Pending"
  | .confirmed => "Confirmed"
  | .released => "Released"
  | .expired => "Expired"

/-- The name of a reason. -/
def StockRelease.Reason.title : StockRelease.Reason → String
  | .reservationExpired => "ReservationExpired"

/-- The value that a word in JSON stands for, out of all those there are. -/
def Json.oneOf? (all : List α) (spelling : α → String) (j : Json) : Option α :=
  j.word?.bind fun w => all.find? fun a => spelling a == w

def Fault.Code.spelling (c : Fault.Code) : String :=
  Text.screamingSnakeCase c.title

def Fault.Code.json (c : Fault.Code) : Json :=
  .str c.spelling

def Fault.Code.ofJson? (j : Json) : Option Fault.Code :=
  j.oneOf? Fault.Code.all Fault.Code.spelling

def Fault.Category.spelling (c : Fault.Category) : String :=
  Text.snakeCase c.title

def Fault.Category.json (c : Fault.Category) : Json :=
  .str c.spelling

def Fault.Category.ofJson? (j : Json) : Option Fault.Category :=
  j.oneOf? Fault.Category.all Fault.Category.spelling

def Reservation.Status.spelling (s : Reservation.Status) : String :=
  Text.snakeCase s.title

def Reservation.Status.json (s : Reservation.Status) : Json :=
  .str s.spelling

def Reservation.Status.ofJson? (j : Json) : Option Reservation.Status :=
  j.oneOf? Reservation.Status.all Reservation.Status.spelling

def StockRelease.Reason.spelling (r : StockRelease.Reason) : String :=
  Text.snakeCase r.title

def StockRelease.Reason.json (r : StockRelease.Reason) : Json :=
  .str r.spelling

def StockRelease.Reason.ofJson? (j : Json) : Option StockRelease.Reason :=
  j.oneOf? [.reservationExpired] StockRelease.Reason.spelling

end StockLedger
