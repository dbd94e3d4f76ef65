/-!
# Faults

Every refusal of the ledger carries a code, a message and perhaps a detail. The category of a
fault follows from its code alone.

* `Fault.Code` : the eighteen codes, with their words;
* `Fault.Category` : the six categories, with their words;
* `Fault.Code.category` : the category of a code;
* `Fault` : code, message and detail.
-/

namespace StockLedger

namespace Fault

/-! ## Codes -/

/-- The stable name of a fault. -/
inductive Code
  | invalidQuantity
  | invalidDuration
  | itemNotFound
  | productNotFound
  | reservationNotFound
  | versionConflict
  | itemAlreadyExists
  | reservationAlreadyExists
  | insufficientStock
  | invalidRelease
  | invalidConfirm
  | reservationNotPending
  | reservationExpired
  | reservationNotExpired
  | sweepInProgress
  | sweepTimedOut
  | storageFailure
  | corruptRecord
deriving DecidableEq, Repr

/-- All codes, in the order in which they are listed. -/
def Code.all : List Code :=
  [.invalidQuantity, .invalidDuration, .itemNotFound, .productNotFound, .reservationNotFound,
    .versionConflict, .itemAlreadyExists, .reservationAlreadyExists, .insufficientStock,
    .invalidRelease, .invalidConfirm, .reservationNotPending, .reservationExpired,
    .reservationNotExpired, .sweepInProgress, .sweepTimedOut, .storageFailure, .corruptRecord]

/-- The word for a code. -/
def Code.word : Code → String
  | .invalidQuantity => "INVALID_QUANTITY"
  | .invalidDuration => "INVALID_DURATION"
  | .itemNotFound => "ITEM_NOT_FOUND"
  | .productNotFound => "PRODUCT_NOT_FOUND"
  | .reservationNotFound => "RESERVATION_NOT_FOUND"
  | .versionConflict => "VERSION_CONFLICT"
  | .itemAlreadyExists => "ITEM_ALREADY_EXISTS"
  | .reservationAlreadyExists => "RESERVATION_ALREADY_EXISTS"
  | .insufficientStock => "INSUFFICIENT_STOCK"
  | .invalidRelease => "INVALID_RELEASE"
  | .invalidConfirm => "INVALID_CONFIRM"
  | .reservationNotPending => "RESERVATION_NOT_PENDING"
  | .reservationExpired => "RESERVATION_EXPIRED"
  | .reservationNotExpired => "RESERVATION_NOT_EXPIRED"
  | .sweepInProgress => "SWEEP_IN_PROGRESS"
  | .sweepTimedOut => "SWEEP_TIMED_OUT"
  | .storageFailure => "STORAGE_FAILURE"
  | .corruptRecord => "CORRUPT_RECORD"

/-! ## Categories -/

/-- What kind of refusal a fault is. -/
inductive Category
  /-- Malformed input. -/
  | validation
  /-- No such item, product or reservation. -/
  | notFound
  /-- A lost race or a broken uniqueness rule. -/
  | conflict
  /-- Well-formed, but forbidden by the present state. -/
  | businessRule
  /-- Too late, or too early. -/
  | expired
  /-- Storage and records that cannot be trusted. -/
  | internal
deriving DecidableEq, Repr

/-- All categories, in the order in which they are listed. -/
def Category.all : List Category :=
  [.validation, .notFound, .conflict, .businessRule, .expired, .internal]

/-- The word for a category. -/
def Category.word : Category → String
  | .validation => "validation"
  | .notFound => "not_found"
  | .conflict => "conflict"
  | .businessRule => "business_rule"
  | .expired => "expired"
  | .internal => "internal"

/-- The category of a code. -/
def Code.category : Code → Category
  | .invalidQuantity | .invalidDuration => .validation
  | .itemNotFound | .productNotFound | .reservationNotFound => .notFound
  | .versionConflict | .itemAlreadyExists | .reservationAlreadyExists | .sweepInProgress =>
      .conflict
  | .insufficientStock | .invalidRelease | .invalidConfirm | .reservationNotPending =>
      .businessRule
  | .reservationExpired | .reservationNotExpired => .expired
  | .sweepTimedOut | .storageFailure | .corruptRecord => .internal

end Fault

/-! ## Faults -/

/-- A refusal: its code, what it says, and perhaps which values it is about. -/
structure Fault where
  code : Fault.Code
  message : String
  detail : Option String := none
deriving DecidableEq, Repr

namespace Fault

/-- The same refusal about other values. -/
def withDetail (f : Fault) (detail : String) : Fault :=
  { f with detail := some detail }

def category (f : Fault) : Category :=
  f.code.category

/-- The fault in one line. -/
def text (f : Fault) : String :=
  f.code.word ++ ": " ++ f.message

/-- A record that no ledger can have written. -/
def corruptRecord (message : String) : Fault :=
  { code := .corruptRecord, message }

/-- The code for a word. -/
def Code.ofWord? (word : String) : Except Fault Code :=
  match Code.all.find? fun c => c.word == word with
  | some c => .ok c
  | none => .error (.corruptRecord ("unknown error code '" ++ word ++ "'"))

/-- The category for a word. -/
def Category.ofWord? (word : String) : Option Category :=
  Category.all.find? fun c => c.word == word

end Fault

/-- What a request to the ledger answers: a value or a refusal. -/
abbrev Answer (α : Type) := Except Fault α

end StockLedger
