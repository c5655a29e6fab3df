import CanvasScript.Toml.Scan

/-!
# TOML documents

A document is a table of values by keys. Its lines give values to dotted keys, or open a table
`[key]` or a further table `[[key]]` of a list, to which the keys that follow belong. A table or a
list that was written as a value is closed for good, no table is opened twice, and no key is given a
value twice.

Model of the reader of settings files.

* `Toml.read` is the table of a document.

Out of scope: a bound on the depth of values, and where in a document an error is.
-/

namespace CanvasScript.Toml

open Text

/-- The parts of a dotted key. -/
abbrev Key := List String

/-- Whether the character may stand in a key without quotes. -/
def isBare (c : Char) : Bool := c.isAlphanum || c == '-' || c == '_'

/-- One part of a key. -/
def keyPart (s : List Char) : Step String :=
  match lineText? s with
  | some step => step.map fun (t, rest) => (String.ofList t, rest)
  | none =>
    if (s.head?.map isBare).getD false then
      .ok (String.ofList (s.takeWhile isBare), s.dropWhile isBare)
    else .error .malformed

/-- The parts of a key, with the blanks behind it taken off. -/
def key : (fuel : Nat) → List Char → Step Key
  | 0, _ => .error .malformed
  | fuel + 1, s =>
    match keyPart s with
    | .error e => .error e
    | .ok (part, rest) =>
      match skip rest with
      | '.' :: rest => (key fuel (skip rest)).map fun (parts, rest) => (part :: parts, rest)
      | rest => .ok ([part], rest)

section

variable {α : Type}

/-- Changes the table behind a key, making it where it is missing. In a list that is open the last
table counts. There is none behind a key that has another value. -/
def within (inLists : Bool) :
    (path : Key) → (Fields α → Option (Fields α)) → Fields α → Option (Fields α)
  | [], change, fields => change fields
  | name :: path, change, fields =>
    match fields.get? name with
    | none => (within inLists path change []).map fun inner => fields.put name (.object inner)
    | some (.object inner) =>
      (within inLists path change inner).map fun inner => fields.put name (.object inner)
    | some (.array items) =>
      match inLists, items.getLast? with
      | true, some (.object inner) =>
        (within inLists path change inner).map fun inner =>
          fields.put name (.array (items.dropLast ++ [.object inner]))
      | _, _ => none
    | some _ => none

/-- Gives a value to a name that has none. -/
def define (name : String) (value : Value α) (fields : Fields α) : Option (Fields α) :=
  match fields.get? name with
  | some _ => none
  | none => some (fields.put name value)

/-- Adds a table to the list of a name, making it where it is missing. -/
def extend (name : String) (fields : Fields α) : Option (Fields α) :=
  match fields.get? name with
  | none => some (fields.put name (.array [.object []]))
  | some (.array items) => some (fields.put name (.array (items ++ [.object []])))
  | some _ => none

/-- Whether the value holds others. -/
def isContainer : Value α → Bool
  | .array _ => true
  | .object _ => true
  | _ => false

/-- Whether a key is or lies behind one of some keys. -/
def isBehind (keys : List Key) (k : Key) : Bool := keys.any (·.isPrefixOf k)

/-- The keys before the last part and that part. -/
def splitLast (k : Key) : Key × String := (k.dropLast, k.getLastD "")

end

section

variable {α : Type} [Written α]

mutual

/-- A value at the start. -/
def value : (fuel : Nat) → List Char → Step (Value α)
  | 0, _ => .error .malformed
  | fuel + 1, s =>
    match text? s with
    | some step => step.map fun (t, rest) => (.text (String.ofList t), rest)
    | none =>
      match s with
      | '[' :: rest =>
        match skipLines (rest.length + 1) rest with
        | .error e => .error e
        | .ok (']' :: rest) => .ok (.array [], rest)
        | .ok rest => (items fuel [] rest).map fun (vs, rest) => (.array vs, rest)
      | '\x7b' :: rest =>
        match skip rest with
        | '\x7d' :: rest => .ok (.object [], rest)
        | rest => (entries fuel [] [] rest).map fun (fields, rest) => (.object fields, rest)
      | 't' :: 'r' :: 'u' :: 'e' :: rest => .ok (.flag true, rest)
      | 'f' :: 'a' :: 'l' :: 's' :: 'e' :: rest => .ok (.flag false, rest)
      | _ => (((date? s).orElse fun _ => number? s).orElse fun _ => signedSpecial? s).getD
          (.error .malformed)

/-- The items of an array up to its end, where `done` holds reversed those before. -/
def items : (fuel : Nat) → (done : List (Value α)) → List Char → Step (List (Value α))
  | 0, _, _ => .error .malformed
  | fuel + 1, done, s =>
    match value fuel s with
    | .error e => .error e
    | .ok (v, rest) =>
      match skipLines (rest.length + 1) rest with
      | .error e => .error e
      | .ok (']' :: rest) => .ok ((v :: done).reverse, rest)
      | .ok (',' :: rest) =>
        match skipLines (rest.length + 1) rest with
        | .error e => .error e
        | .ok (']' :: rest) => .ok ((v :: done).reverse, rest)
        | .ok rest => items fuel (v :: done) rest
      | .ok _ => .error .malformed

/-- The entries of a table in braces up to its end, added to those before. The keys whose values
hold others are closed. -/
def entries : (fuel : Nat) → (closed : List Key) → (done : Fields α) → List Char → Step (Fields α)
  | 0, _, _, _ => .error .malformed
  | fuel + 1, closed, done, s =>
    match key (s.length + 1) s with
    | .error e => .error e
    | .ok (k, '=' :: rest) =>
      match value fuel (skip rest) with
      | .error e => .error e
      | .ok (v, rest) =>
        let (path, name) := splitLast k
        if isBehind closed k then .error .malformed
        else
          match within false path (define name v) done with
          | none => .error .malformed
          | some done =>
            match skip rest with
            | '\x7d' :: rest => .ok (done, rest)
            | ',' :: rest =>
              entries fuel (if isContainer v then k :: closed else closed) done (skip rest)
            | _ => .error .malformed
    | .ok _ => .error .malformed

end

/-- A document that has been read in part. -/
structure Document (α : Type) where
  fields : Fields α
  /-- The tables that may not be opened any more. -/
  opened : List Key
  /-- The tables that may not be opened once the table in use ends. -/
  pending : List Key
  /-- The keys whose values are closed. -/
  closed : List Key
  /-- The table in use. -/
  header : Key

namespace Document

/-- A document without entries. -/
def empty : Document α := ⟨[], [], [], [], []⟩

/-- The document with the table in use ended. -/
def settle (doc : Document α) : Document α :=
  { doc with opened := doc.pending ++ doc.opened, pending := [] }

/-- The document with a table opened. -/
def openTable (doc : Document α) (k : Key) : Option (Document α) := do
  if doc.opened.contains k || isBehind doc.closed k then none
  let fields ← within true k some doc.fields
  return { doc with fields, opened := k :: doc.opened, header := k }

/-- The document with a further table of a list opened. -/
def openItem (doc : Document α) (k : Key) : Option (Document α) := do
  if isBehind doc.closed k then none
  let (path, name) := splitLast k
  let fields ← within true path (extend name) doc.fields
  return { doc with
    fields
    opened := k :: doc.opened.filter fun other => !k.isPrefixOf other
    closed := doc.closed.filter fun other => !k.isPrefixOf other
    header := k }

/-- The keys of the tables that a dotted key passes through. -/
def passed (header k : Key) : List Key :=
  (List.range (k.length - 1)).map fun i => header ++ k.take (i + 1)

/-- The document with a value given to a key of the table in use. -/
def assign (doc : Document α) (k : Key) (v : Value α) : Option (Document α) := do
  let through := passed doc.header k
  if through.any doc.opened.contains then none
  let (path, name) := splitLast k
  if isBehind doc.closed (doc.header ++ path) then none
  let fields ← within true (doc.header ++ path) (define name v) doc.fields
  return { doc with
    fields
    pending := through ++ doc.pending
    closed := if isContainer v then (doc.header ++ k) :: doc.closed else doc.closed }

end Document

/-- What a change makes of a document, if it is allowed. -/
def allowed (doc : Option (Document α)) (rest : List Char) :
    Except ReadError (Document α × List Char) :=
  match doc with
  | some doc => .ok (doc, rest)
  | none => .error .malformed

/-- A statement at the start, which is not blank. -/
def statement (doc : Document α) (s : List Char) :
    Except ReadError (Document α × List Char) :=
  match s with
  | '[' :: '[' :: rest => do
    let (k, rest) ← key (rest.length + 1) (skip rest)
    match rest with
    | ']' :: ']' :: rest => allowed (doc.settle.openItem k) rest
    | _ => .error .malformed
  | '[' :: rest => do
    let (k, rest) ← key (rest.length + 1) (skip rest)
    match rest with
    | ']' :: rest => allowed (doc.settle.openTable k) rest
    | _ => .error .malformed
  | '#' :: _ => .ok (doc, s)
  | _ => do
    let (k, rest) ← key (s.length + 1) s
    match rest with
    | '=' :: rest => do
      let (v, rest) ← value (rest.length + 1) (skip rest)
      allowed (doc.assign k v) rest
    | _ => .error .malformed

/-- The document with the statements of all lines that follow. -/
def statements : (fuel : Nat) → Document α → List Char → Except ReadError (Document α)
  | 0, _, _ => .error .malformed
  | fuel + 1, doc, s =>
    match skip s with
    | [] => .ok doc
    | '\n' :: rest => statements fuel doc rest
    | s => do
      let (doc, rest) ← statement doc s
      match ← skipComment (skip rest) with
      | [] => .ok doc
      | '\n' :: rest => statements fuel doc rest
      | _ => .error .malformed

/-- The characters with every return before a line feed taken away. -/
def dropReturns : List Char → List Char
  | '\r' :: '\n' :: rest => '\n' :: dropReturns rest
  | c :: rest => c :: dropReturns rest
  | [] => []

/-- The table of a document. -/
def read (s : String) : Except ReadError (Fields α) := do
  let s := dropReturns s.toList
  return (← statements (s.length + 1) Document.empty s).fields

end

end CanvasScript.Toml
