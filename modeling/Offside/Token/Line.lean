import Offside.Text.Point
import Offside.Token.Lexeme

/-!
# The body of one line

`tokenizeLine` takes content tokens one after the other and stops before the first line terminator,
which is a line feed or a carriage return and a line feed.
-/

namespace Offside

def startsTerminator : List Char → Bool
  | '\n' :: _ => true
  | '\r' :: '\n' :: _ => true
  | _ => false

def tokenizeLine (base : Nat) (line : List Char) : List Lexeme :=
  if startsTerminator line then []
  else
    match _h : Content.lexOne line with
    | none => []
    | some t =>
      let stop := base + byteLength t.lexeme
      ⟨.content t.kind, base, stop⟩ :: tokenizeLine stop t.rest
termination_by line.length
decreasing_by exact Content.lexOne_length_lt ‹_›

end Offside
