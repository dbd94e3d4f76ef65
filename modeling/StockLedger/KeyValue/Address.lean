import StockLedger.KeyValue.Numeral
import StockLedger.Locator.Basic
import StockLedger.Locator.Percent

/-!
# Addresses of key-value servers

A server is on a host under some number, or at a file of this machine, and keeps numbered
databases.

* `KeyValue.Address` : where a server is, and which of its databases is meant;
* `KeyValue.AddressFault` : why a text is no address, with its wording;
* `KeyValue.Address.ofString` : the address that a text denotes.
-/

namespace StockLedger
namespace KeyValue

/-- Where a server is. -/
inductive Place
  | network (host : String) (number : Nat)
  | file (path : String)
deriving DecidableEq, Repr

/-- Where a server is, and which of its databases is meant. -/
structure Address where
  place : Place
  database : Int
deriving DecidableEq, Repr

/-- Why a text is no address. -/
inductive AddressFault
  /-- The text is no locator, or its scheme is not one of a server. -/
  | malformed
  | noHost
  /-- Only connections that are not encrypted can be made. -/
  | encrypted
  | badDatabase
  | badUser
  | badPassword
  | noPath
deriving DecidableEq, Repr

/-- The wording of a fault. -/
def AddressFault.message : AddressFault → String
  | .malformed => "Redis URL did not parse"
  | .noHost => "Missing hostname"
  | .encrypted => "can't connect with TLS, the feature is not enabled"
  | .badDatabase => "Invalid database number"
  | .badUser => "Username is not valid UTF-8 string"
  | .badPassword => "Password is not valid UTF-8 string"
  | .noPath => "Missing path"

namespace Address

/-- The number of servers on their hosts unless said otherwise. -/
def usualNumber : Nat := 6379

/-- A text without the slashes at both ends. -/
def trimSlashes (cs : List Char) : List Char :=
  ((cs.dropWhile (· = '/')).reverse.dropWhile (· = '/')).reverse

/-- The database that a text names; the empty text names the first one. -/
def databaseNumber (cs : List Char) : Except AddressFault Int :=
  if cs = [] then .ok 0 else (word? cs).elim (.error .badDatabase) .ok

/-- The address on a host, where the path names the database. -/
def onNetwork (encrypted : Bool) (l : Locator) : Except AddressFault Address :=
  let a := l.authority
  if a.host = [] then .error .noHost
  else if encrypted then .error .encrypted
  else do
    let database ← databaseNumber (trimSlashes l.path)
    if !Percent.isText a.user then .error .badUser
    else if !Percent.isText (a.password.getD []) then .error .badPassword
    else .ok ⟨.network (String.ofList a.host) (a.number.getD usualNumber), database⟩

/-- The last value that a query gives to `db`. -/
def databaseField? (query : List Char) : Option (List Char) :=
  let fields := (Percent.pairs query).filter fun (name, _) => name = Percent.decode "db".toList
  fields.getLast?.map fun (_, value) => value.map fun b => Char.ofNat b.toNat

/-- The address at a file of this machine, where the query names the database. -/
def onFile (l : Locator) : Except AddressFault Address :=
  let here := l.authority.host = [] ∨ l.authority.host = "localhost".toList
  if here ∧ l.path.head? = some '/' then
    match databaseField? l.query with
    | some cs =>
        (word? cs).elim (.error .badDatabase) fun n => .ok ⟨.file (String.ofList l.path), n⟩
    | none => .ok ⟨.file (String.ofList l.path), 0⟩
  else
    .error .noPath

/-- The address that a text denotes. -/
def ofString (s : String) : Except AddressFault Address :=
  match Locator.ofString? s with
  | none => .error .malformed
  | some l =>
      match l.scheme with
      | "redis" => onNetwork false l
      | "rediss" => onNetwork true l
      | "redis+unix" | "unix" => onFile l
      | _ => .error .malformed

end Address
end KeyValue
end StockLedger
