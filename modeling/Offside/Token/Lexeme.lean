import Offside.Token.Content
import Offside.Token.Kind

/-!
# Tokens and where they stand

A token is a structural kind or a content kind. A lexeme is a token with the byte range it covers.
-/

namespace Offside

inductive Token where
  | scanned (kind : Kind)
  | content (kind : Content)
deriving DecidableEq, Repr

namespace Token

def kind? : Token → Option Kind
  | scanned k => some k
  | content _ => none

def isLineBreak (t : Token) : Bool := t == scanned .lineBreak

def isTrivia : Token → Bool
  | scanned _ => false
  | content c => c.isTrivia

def name : Token → String
  | scanned k => k.name
  | content c => c.name

def ofName? (s : String) : Option Token :=
  ((Kind.ofName? s).map scanned).or ((Content.ofName? s).map content)

end Token

/-- The bytes from `start` up to and without `stop`. -/
structure Span where
  start : Nat
  stop : Nat
deriving DecidableEq, Repr

namespace Span

def isEmpty (s : Span) : Bool := s.stop ≤ s.start

def shift (move : Nat → Nat) (s : Span) : Span := ⟨move s.start, move s.stop⟩

end Span

structure Lexeme where
  token : Token
  span : Span
deriving DecidableEq, Repr

namespace Lexeme

def shift (move : Nat → Nat) (l : Lexeme) : Lexeme := ⟨l.token, l.span.shift move⟩

end Lexeme

def structureOf (tokens : List Lexeme) : List Kind := tokens.filterMap (·.token.kind?)

end Offside
