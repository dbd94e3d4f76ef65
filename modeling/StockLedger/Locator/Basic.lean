import StockLedger.Locator.Host

/-!
# Locators

A locator says where something is. It begins with a scheme and a colon, and goes on with an
authority behind two slashes, a path, and a query behind a question mark, each of which may be
missing. An authority is a user and a password before an `@`, a host, and behind a colon the number
that says which of the services of the host is meant.

* `Locator` : the parts of a locator;
* `Locator.readAuthority` : the part that names a host;
* `Locator.settlePath` : a path free of steps that stay or go back;
* `Locator.ofString?` : the locator that a text denotes.

The parts are as written: percent signs are left alone.
-/

namespace StockLedger

/-- Who asks whom. An empty user or host is none. -/
structure Authority where
  user : List Char := []
  password : Option (List Char) := none
  host : List Char := []
  number : Option Nat := none
deriving DecidableEq, Repr

/-- The parts of a locator. -/
structure Locator where
  scheme : String
  authority : Authority := {}
  path : List Char
  query : List Char
deriving DecidableEq, Repr

namespace Locator

/-! ## Schemes -/

/--
A text without the characters that do not count: control characters and spaces at its ends, and
tabs and ends of lines anywhere.
-/
def tidy (cs : List Char) : List Char :=
  let cs := ((cs.dropWhile (· ≤ ' ')).reverse.dropWhile (· ≤ ' ')).reverse
  cs.filter fun c => c != '\t' && c != '\n' && c != '\r'

/-- Can a character stand in a scheme, other than as its first? -/
def inScheme (c : Char) : Bool :=
  c.isAlphanum || c == '+' || c == '-' || c == '.'

/-- A scheme in lower case, and what follows its colon. -/
def readScheme : List Char → Option (String × List Char)
  | [] => none
  | c :: cs =>
      match (c :: cs).span inScheme with
      | (name, ':' :: rest) =>
          if c.isAlpha then some (String.ofList (name.map Char.toLower), rest) else none
      | _ => none

/-! ## Authorities -/

/-- Does a character end an authority? -/
def endsAuthority (c : Char) : Bool :=
  c == '/' || c == '?' || c == '#'

/-- What stands before the last `@` of a text, and what after it. -/
def splitUser (cs : List Char) : Option (List Char) × List Char :=
  match cs.reverse.span (· != '@') with
  | (after, []) => (none, after.reverse)
  | (after, _ :: before) => (some before.reverse, after.reverse)

/-- A user and a password, which count only if they are not empty. -/
def readUser (cs : List Char) : Authority :=
  match cs.span (· != ':') with
  | (user, _ :: c :: password) => { user, password := some (c :: password) }
  | (user, _) => { user }

/-- A number after its colon, and what follows it: nothing, or something behind a backslash. -/
def readNumber (cs : List Char) : Option (Option Nat × List Char) :=
  let (digits, rest) := cs.span Char.isDigit
  if (rest = [] ∨ rest.head? = some '\\') ∧ Decimal.value digits ≤ 65535 then
    some (if digits = [] then none else some (Decimal.value digits), rest)
  else
    none

/-- A host and a number for a user, and what follows them. Without a host there is neither. -/
def readHost (who : Authority) (cs : List Char) : Option (Authority × List Char) :=
  let (host, rest) := Host.span false cs
  if !Host.isValid host then none
  else if host = [] ∧ (rest ≠ [] ∨ who.user ≠ [] ∨ who.password.isSome) then none
  else
    match rest with
    | [] => some ({ who with host }, [])
    | _ :: cs => (readNumber cs).map fun (number, rest) => ({ who with host, number }, rest)

/-- An authority after its two slashes, and what follows it. -/
def readAuthority (cs : List Char) : Option (Authority × List Char) :=
  let (front, behind) := cs.span fun c => !endsAuthority c
  match splitUser front with
  | (some [], []) => if behind = [] then some ({}, []) else none
  | (user, place) =>
      (readHost (user.elim {} readUser) place).map fun (a, rest) => (a, rest ++ behind)

/-! ## Paths -/

/-- A segment with every dot that is written as a byte made plain. -/
def plainDots : List Char → List Char
  | '%' :: '2' :: 'e' :: cs | '%' :: '2' :: 'E' :: cs => '.' :: plainDots cs
  | c :: cs => c :: plainDots cs
  | [] => []

/-- Is a segment the letter of a drive? No step goes back past one. -/
def isDrive : List Char → Bool
  | a :: b :: rest =>
      a.isAlpha && (b == ':' || b == '|') && (rest.isEmpty || rest.head? == some '\\')
  | _ => false

/-- The segments before a step back, the last one first, without the one that the step leaves. -/
def stepBack : List (List Char) → List (List Char)
  | [] => []
  | top :: before => if isDrive top then top :: before else before

/-- The segments of a path with its steps carried out; `done` are those before, last one first. -/
def settle (done : List (List Char)) : List (List Char) → List (List Char)
  | [] => done.reverse
  | segment :: rest =>
      let atEnd := if rest.isEmpty then [[]] else []
      if plainDots segment = ['.'] then settle (atEnd ++ done) rest
      else if plainDots segment = ['.', '.'] then settle (atEnd ++ stepBack done) rest
      else settle (segment :: done) rest

/-- A path from the root, with its steps carried out; the empty path stays as it is. -/
def settlePath : List Char → List Char
  | [] => []
  | c :: cs =>
      let segments := (if c = '/' then cs else c :: cs).splitOn '/'
      '/' :: ['/'].intercalate (settle [] segments)

/-! ## Locators -/

/-- A path and the query behind it. What comes after `#` does not count. -/
def splitQuery (cs : List Char) : List Char × List Char :=
  let (path, query) := (cs.takeWhile (· != '#')).span (· != '?')
  (path, query.drop 1)

/-- The locator that a text denotes. A path without a slash in front is left alone. -/
def ofString? (s : String) : Option Locator := do
  let (scheme, rest) ← readScheme (tidy s.toList)
  match rest with
  | '/' :: '/' :: rest =>
      let (authority, rest) ← readAuthority rest
      let (path, query) := splitQuery rest
      some { scheme, authority, path := settlePath path, query }
  | rest =>
      let (path, query) := splitQuery rest
      some { scheme, path := if path.head? = some '/' then settlePath path else path, query }

end Locator
end StockLedger
