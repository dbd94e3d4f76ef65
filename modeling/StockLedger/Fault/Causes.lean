import StockLedger.Fault.Basic
import StockLedger.Text.Decimal

/-!
# Causes of faults

One constructor for each way in which a request is refused, with the wording of its message and of
its detail.
-/

namespace StockLedger
namespace Fault

/-- One part of a detail: a name and a value. -/
def entry (name value : String) : String :=
  name ++ "=" ++ value

/-- A detail of two parts. -/
def entries (a b : String) : String :=
  a ++ " " ++ b

/-! ## Malformed requests -/

/-- A quantity that may not be asked for. -/
def invalidQuantity (quantity : Int) : Fault :=
  { code := .invalidQuantity, message := "quantity must be positive"
    detail := entry "quantity" (Decimal.int quantity) }

def invalidDuration (message : String) : Fault :=
  { code := .invalidDuration, message }

/-! ## Absence -/

def itemNotFound (detail : String) : Fault :=
  { code := .itemNotFound, message := "stock item not found", detail }

def productNotFound (detail : String) : Fault :=
  { code := .productNotFound, message := "no stock item for product", detail }

def reservationNotFound (detail : String) : Fault :=
  { code := .reservationNotFound, message := "reservation not found", detail }

/-! ## Conflicts -/

def versionConflict (detail : String) : Fault :=
  { code := .versionConflict, message := "optimistic concurrency check failed", detail }

def itemAlreadyExists (detail : String) : Fault :=
  { code := .itemAlreadyExists, message := "stock item already exists for product", detail }

def reservationAlreadyExists (detail : String) : Fault :=
  { code := .reservationAlreadyExists, message := "reservation already exists for order", detail }

def sweepInProgress (sweeper : String) : Fault :=
  { code := .sweepInProgress, message := "a sweep is already running"
    detail := entry "sweeper" sweeper }

/-! ## Rules of the stock -/

/-- A refusal that compares what was asked for with what there is. -/
def shortfall (code : Code) (message : String) (requested : Int) (name : String) (have_ : Int) :
    Fault :=
  { code, message
    detail := entries (entry "requested" (Decimal.int requested)) (entry name (Decimal.int have_)) }

def insufficientStock (requested available : Int) : Fault :=
  shortfall .insufficientStock "insufficient stock" requested "available" available

def invalidRelease (requested reserved : Int) : Fault :=
  shortfall .invalidRelease "cannot release more than reserved" requested "reserved" reserved

def invalidConfirm (requested reserved : Int) : Fault :=
  shortfall .invalidConfirm "cannot confirm more than reserved" requested "reserved" reserved

def reservationNotPending (status : String) : Fault :=
  { code := .reservationNotPending, message := "reservation is not pending"
    detail := entry "status" status }

/-! ## Time -/

def reservationExpired (detail : String) : Fault :=
  { code := .reservationExpired, message := "reservation has expired", detail }

def reservationNotExpired (detail : String) : Fault :=
  { code := .reservationNotExpired, message := "reservation has not expired yet", detail }

/-! ## The machinery -/

/-- A sweep whose query took longer than it may. -/
def sweepTimedOut (millis : Nat) : Fault :=
  { code := .sweepTimedOut, message := "sweep exceeded its tick timeout"
    detail := entry "timeout_ms" (Decimal.nat millis) }

def storage (message : String) : Fault :=
  { code := .storageFailure, message }

end Fault
end StockLedger
