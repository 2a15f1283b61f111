import Offside.Decimal.Notation
import Offside.Text.Quoted

/-!
# Values of settings

Settings are trees of tables, lists and scalars, read from files and set one by one. A value knows
the file it was written in; a table that was put together from several places has none.
-/

namespace Offside

inductive Scalar where
  | null
  | bool (b : Bool)
  | int (n : Int)
  | float (x : Float)
  | text (s : String)
deriving Inhabited

inductive Value where
  | scalar (origin : Option String) (s : Scalar)
  | list (origin : Option String) (items : List Value)
  | table (origin : Option String) (entries : List (String × Value))
deriving Inhabited

/-- No count is greater. -/
def maxCount : Nat := 0xffffffffffffffff

structure Wording where
  null : String
  float : DecimalStyle

/-- Documents name their null and write large numbers with an exponent. -/
def Wording.document : Wording := ⟨"null", .scientific⟩

/-- Settings call a missing value a unit and write all digits of a number. -/
def Wording.setting : Wording := ⟨"unit value", .positional⟩

def quoteString (s : String) : String := String.ofList (quote s.toList)

namespace Scalar

def noun (w : Wording) : Scalar → String
  | null => w.null
  | bool b => s!"boolean `{b}`"
  | int n => s!"integer `{n}`"
  | float x => "floating point `" ++ w.float.text x ++ "`"
  | text s => "string " ++ quoteString s

end Scalar

namespace Value

def ofScalar (s : Scalar) : Value := scalar none s

def null : Value := ofScalar .null

def emptyTable : Value := table none []

def origin : Value → Option String
  | scalar o _ | list o _ | table o _ => o

def noun (w : Wording) : Value → String
  | scalar _ s => s.noun w
  | list _ _ => "sequence"
  | table _ _ => "map"

/-! ## Tables -/

def insert (key : String) (v : Value) : List (String × Value) → List (String × Value)
  | [] => [(key, v)]
  | (k, w) :: r => if k == key then (k, v) :: r else (k, w) :: insert key v r

/-- The value as a table; anything else gives way to an empty one. -/
def asTable : Value → Option String × List (String × Value)
  | table o es => (o, es)
  | _ => (none, [])

/-- The value as a list; anything else gives way to an empty one. -/
def asList : Value → Option String × List Value
  | list o vs => (o, vs)
  | _ => (none, [])

def modifyEntry (key : String) (start : Value) (f : Value → Value) (v : Value) : Value :=
  let (o, es) := v.asTable
  table o (insert key (f ((es.lookup key).getD start)) es)

def modifyEntry? (key : String) (start : Value) (f : Value → Option Value) (v : Value) :
    Option Value :=
  let (o, es) := v.asTable
  (f ((es.lookup key).getD start)).map fun w => table o (insert key w es)

end Value

end Offside
