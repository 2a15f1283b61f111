import Offside.Toml.Item

/-!
# TOML documents

A document is a sequence of lines: headers, and keys with values for the table of the last header.
`read?` gives the entries of the document, or nothing if it is not well formed.
-/

namespace Offside

namespace Toml

/-! ## Values -/

def keyword? (word : List Char) (s : Scalar) (text : List Char) : Option (Item × List Char) :=
  if text.take word.length = word then some (.leaf s, text.drop word.length) else none

def number? (text : List Char) : Option (Item × List Char) :=
  match dateTime? text with
  | some (date, r) => some (.date date, r)
  | none =>
    match float? text with
    | some (x, r) => some (.leaf (.float x), r)
    | none => (integer? text).map fun (n, r) => (.leaf (.int n), r)

/-- The items of an array up to its closing bracket, in at most `n` rounds. -/
def items? (value? : List Char → Option (Item × List Char)) :
    Nat → List Char → Option (List Item × List Char)
  | 0, _ => none
  | n + 1, text =>
    match skipLines text.length text with
    | ']' :: r => some ([], r)
    | text => do
      let (x, r) ← value? text
      match skipLines r.length r with
      | ',' :: r =>
        let (xs, r) ← items? value? n r
        return (x :: xs, r)
      | ']' :: r => return ([x], r)
      | _ => none

def pair? (value? : List Char → Option (Item × List Char)) (text : List Char) :
    Option ((List String × Item) × List Char) := do
  let (keys, r) ← key? text
  let r ← expect '=' r
  let (x, r) ← value? (skipBlanks r)
  return ((keys, x), r)

/-- The pairs of an inline table up to its closing brace, in at most `n` rounds. -/
def pairs? (value? : List Char → Option (Item × List Char)) :
    Nat → List Char → Option (List (List String × Item) × List Char)
  | 0, _ => none
  | n + 1, text => do
    let (p, r) ← pair? value? text
    match skipBlanks r with
    | ',' :: r =>
      let (ps, r) ← pairs? value? n r
      return (p :: ps, r)
    | '\x7d' :: r => return ([p], r)
    | _ => none

/-- A value in which arrays and tables are nested at most `depth` deep. -/
def value? : Nat → List Char → Option (Item × List Char)
  | depth, text =>
    match text with
    | '[' :: r =>
      match depth with
      | 0 => none
      | depth + 1 => (items? (value? depth) (r.length + 1) r).map fun (xs, r) => (.array xs, r)
    | '\x7b' :: r =>
      match depth with
      | 0 => none
      | depth + 1 =>
        match skipBlanks r with
        | '\x7d' :: r => some (.table .inline [], r)
        | _ => do
          let (ps, r) ← pairs? (value? depth) (r.length + 1) r
          let x ← Item.ofPairs? ps
          return (x, r)
    | '\x22' :: _ | '\x27' :: _ => (string? text).map fun (s, r) => (.leaf (.text (String.ofList s)), r)
    | 't' :: _ => keyword? ['t', 'r', 'u', 'e'] (.bool true) text
    | 'f' :: _ => keyword? ['f', 'a', 'l', 's', 'e'] (.bool false) text
    | _ => number? text

/-! ## Lines -/

structure Draft where
  entries : List (String × Item) := []
  table : List String := []

namespace Draft

def change (path : List String) (f : Item.Change) (d : Draft) : Option Draft :=
  (Item.descend .byPath f path .byHeader d.entries).map fun entries => { d with entries }

def define (path : List String) (x : Item) (d : Draft) : Option Draft :=
  path.getLast?.bind fun key => d.change d.table (Item.defineAt path.dropLast key x)

def openTable (path : List String) (d : Draft) : Option Draft :=
  path.getLast?.bind fun key =>
    (d.change path.dropLast (Item.openTable key)).map fun d => { d with table := path }

def openElement (path : List String) (d : Draft) : Option Draft :=
  path.getLast?.bind fun key =>
    (d.change path.dropLast (Item.openElement key)).map fun d => { d with table := path }

end Draft

def line? (d : Draft) (text : List Char) : Option (Draft × List Char) :=
  match skipBlanks text with
  | '[' :: '[' :: r => do
    let (path, r) ← key? r
    let r ← expect ']' r
    let r ← expect ']' r
    return (← d.openElement path, ← lineEnd? r)
  | '[' :: r => do
    let (path, r) ← key? r
    let r ← expect ']' r
    return (← d.openTable path, ← lineEnd? r)
  | text =>
    match lineEnd? text with
    | some r => some (d, r)
    | none => do
      let ((path, x), r) ← pair? (value? (depthLimit - 1)) text
      return (← d.define path x, ← lineEnd? r)

def lines? : Nat → Draft → List Char → Option Draft
  | _, d, [] => some d
  | 0, _, _ => none
  | n + 1, d, text => (line? d text).bind fun (d, r) => lines? n d r

/-- The entries of a document, which may start with a byte order mark. -/
def read? (text : List Char) : Option (List (String × Item)) :=
  let text := match text with
    | '\ufeff' :: r => r
    | r => r
  (lines? text.length {} text).map Draft.entries

end Toml

end Offside
