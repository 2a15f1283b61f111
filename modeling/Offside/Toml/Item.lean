import Offside.Settings.Value
import Offside.Toml.Date

/-!
# Tables of a TOML document

A table is defined once: by a header, by keys with dots, or by an inline table. A header may go
through tables that it defines on the way, and a later header may still define those. `descend`
follows a path of keys and changes what is there.
-/

namespace Offside

namespace Toml

inductive Defined where
  | byHeader
  /-- On the way to a header. -/
  | byPath
  /-- By keys with dots. -/
  | byKeys
  /-- As a value. -/
  | inline
deriving DecidableEq, Repr

inductive Item where
  | leaf (s : Scalar)
  /-- A date or a time, in normal form. -/
  | date (text : String)
  | array (items : List Item)
  | table (how : Defined) (entries : List (String × Item))
  /-- A list of tables, each defined by a header of its own. -/
  | tables (elements : List (List (String × Item)))

namespace Item

def replace (key : String) (x : Item) : List (String × Item) → List (String × Item)
  | [] => [(key, x)]
  | (k, y) :: r => if k == key then (k, x) :: r else (k, y) :: replace key x r

abbrev Change := Defined → List (String × Item) → Option (List (String × Item))

/-- Changes the table at the end of a path of keys. Missing tables on the way are made, marked
`new`. Keys with dots do not go through tables that a header or a value defined. -/
def descend (new : Defined) (change : Change) : List String → Change
  | [], how, es => change how es
  | key :: path, _, es =>
    match es.lookup key with
    | none => (descend new change path new []).map fun sub => replace key (table new sub) es
    | some (table how sub) =>
      if how = .inline ∨ (new = .byKeys ∧ how = .byHeader) then none
      else (descend new change path how sub).map fun sub => replace key (table how sub) es
    | some (tables elements) =>
      match elements.getLast? with
      | none => none
      | some last =>
        (descend new change path .byHeader last).map fun last =>
          replace key (tables (elements.dropLast ++ [last])) es
    | some _ => none

/-- Puts a value at a key that has none yet, in a table that `dotted` keys led to or not. -/
def define (dotted : Bool) (key : String) (x : Item) : Change := fun how es =>
  if dotted != (how == .byKeys) then none
  else
    match es.lookup key with
    | some _ => none
    | none => some (es ++ [(key, x)])

def defineAt (path : List String) (key : String) (x : Item) : Change :=
  descend .byKeys (define (!path.isEmpty) key x) path

/-- A header for the table at a key. It moves a table that is there to the end. -/
def openTable (key : String) : Change := fun _ es =>
  match es.lookup key with
  | none => some (es ++ [(key, table .byHeader [])])
  | some (table .byPath sub) => some (es.filter (·.1 != key) ++ [(key, table .byHeader sub)])
  | some _ => none

def openElement (key : String) : Change := fun _ es =>
  match es.lookup key with
  | none => some (es ++ [(key, tables [[]])])
  | some (tables elements) => some (replace key (tables (elements ++ [[]])) es)
  | some _ => none

def ofPairs? (pairs : List (List String × Item)) : Option Item :=
  (pairs.foldlM add []).map (table .inline)
where
  add (es : List (String × Item)) (p : List String × Item) : Option (List (String × Item)) :=
    p.1.getLast?.bind fun key => defineAt p.1.dropLast key p.2 .inline es

/-! ## Values -/

/-- A table with this key in front stands for a date. -/
def dateKey : String := "$__toml_private_datetime"

def dateOf? : Item → Option String
  | leaf (.text s) => dateOfText? s.toList
  | _ => none

mutual
def toValue? (origin : Option String) : Item → Option Value
  | leaf s => some (.scalar origin s)
  | date text => some (.scalar origin (.text text))
  | array items => (toValues? origin items).map (.list origin)
  | table _ es => tableValue? origin es
  | tables elements => (toTables? origin elements).map (.list origin)
/-- The value of a table. What stands behind a date in it does not count. -/
def tableValue? (origin : Option String) : List (String × Item) → Option Value
  | [] => some (.table origin [])
  | (key, x) :: r =>
    if key = dateKey then (dateOf? x).map fun text => .scalar origin (.text text)
    else do
      let v ← toValue? origin x
      let es ← toEntries? origin r
      return .table origin ((key, v) :: es)
def toValues? (origin : Option String) : List Item → Option (List Value)
  | [] => some []
  | x :: r => do
    let v ← toValue? origin x
    return v :: (← toValues? origin r)
def toEntries? (origin : Option String) : List (String × Item) → Option (List (String × Value))
  | [] => some []
  | (key, x) :: r => do
    let v ← toValue? origin x
    return (key, v) :: (← toEntries? origin r)
def toTables? (origin : Option String) : List (List (String × Item)) → Option (List Value)
  | [] => some []
  | es :: r => do
    let v ← tableValue? origin es
    return v :: (← toTables? origin r)
end

end Item

end Toml

end Offside
