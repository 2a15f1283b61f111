import Offside.Settings.KeyPath
import Offside.Settings.Value
import Offside.Text.Lowercase

/-!
# Setting values in a tree

A value is put into a tree at a path. What lies on the way is turned into tables and lists as the
path needs them. A table put onto a table is merged into it entry by entry, so an empty one changes
nothing; anything else replaces what was there. Keys do not distinguish case. The only paths that
cannot be followed are those to places of lists that are before the start or too far behind the end.
-/

namespace Offside

def lowercaseString (s : String) : String := String.ofList (lowercase s.toList)

namespace Value

mutual
def put (key : String) (v root : Value) : Value :=
  match v with
  | table _ entries => modifyEntry (lowercaseString key) emptyTable (putAll entries) root
  | v => modifyEntry (lowercaseString key) null (fun _ => v) root
termination_by structural v
def putAll : List (String × Value) → Value → Value
  | [], root => root
  | (k, v) :: r, root => putAll r (put k v root)
termination_by structural entries => entries
end

def maxPlace : Nat := 0xffffff

/-- The place in a list of the given length. A negative one counts from the end and has to be there
already. -/
def placeOf? (place : Int) (length : Nat) : Option Nat :=
  if 0 ≤ place then if place.toNat ≤ maxPlace then some place.toNat else none
  else if place.natAbs ≤ length then some (length - place.natAbs)
  else none

def modifyPlace? (place : Int) (f : Value → Option Value) (v : Value) : Option Value := do
  let (o, vs) := v.asList
  let i ← placeOf? place vs.length
  let w ← f (vs.getD i null)
  return list o ((vs ++ List.replicate (i + 1 - vs.length) null).set i w)

def setAt? (v : Value) : List (String ⊕ Int) → Value → Option Value
  | [], _ => some v
  | [.inl key], root => some (put key v root)
  | .inl key :: r, root => modifyEntry? (lowercaseString key) null (setAt? v r) root
  | .inr place :: r, root => modifyPlace? place (setAt? v r) root

def set? (path : KeyPath) (v root : Value) : Option Value :=
  setAt? v (.inl path.key :: path.steps) root

/-- Puts an entry of a file. A key that reads as a path is one. -/
def layerEntry? (root : Value) (entry : String × Value) : Option Value :=
  match KeyPath.ofString? entry.1 with
  | .ok path => set? path entry.2 root
  | .error _ => some (put entry.1 entry.2 root)

def layer? (entries : List (String × Value)) (root : Value) : Option Value :=
  entries.foldlM layerEntry? root

end Value

end Offside
