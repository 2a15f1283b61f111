import Offside.Text.Pattern

/-!
# Content tokens

The words of a line body, each kind with the pattern that describes it. `lexOne` takes the longest
text from the front that any pattern matches; between patterns that match equally much, the one
declared first wins, so `unknown`, declared last, gives way to every other. No pattern matches a
line feed, so no content token goes over the end of its line.
-/

namespace Offside

inductive Content where
  | componentName
  | bindBoth
  | bindLeft
  | bindRight
  | caret
  | atSign
  | slash
  | star
  | dash
  | rawString
  | number
  | identifier
  | whitespace
  | unknown
deriving DecidableEq, Repr

namespace Content

def all : List Content :=
  [componentName, bindBoth, bindLeft, bindRight, caret, atSign, slash, star, dash, rawString,
    number, identifier, whitespace, unknown]

def name : Content → String
  | componentName => "ComponentName"
  | bindBoth => "BindBoth"
  | bindLeft => "BindLeft"
  | bindRight => "BindRight"
  | caret => "Caret"
  | atSign => "At"
  | slash => "Slash"
  | star => "Star"
  | dash => "Dash"
  | rawString => "RawString"
  | number => "Number"
  | identifier => "Identifier"
  | whitespace => "Whitespace"
  | unknown => "Unknown"

def ofName? (s : String) : Option Content := all.find? (·.name == s)

def isTrivia (t : Content) : Bool := t == whitespace

/-! ## Patterns -/

section
open Pattern

/-- ASCII letters and `_`. -/
def isWordStart (c : Char) : Bool := c.isAlpha || c == '_'

def isWord (c : Char) : Bool := isWordStart c || c.isDigit

def isSuffix (c : Char) : Bool := c == '?' || c == '!' || c == '*'

def digits : Pattern := some1 (.one Char.isDigit)

def sign : Pattern := optional (.one fun c => c == '+' || c == '-')

def word : Pattern := .seq (.one isWordStart) (.many (.one isWord))

def mantissa : Pattern :=
  .alt (.seq digits (optional (.seq (char '.') (.many (.one Char.isDigit))))) (.seq (char '.') digits)

def exponent : Pattern := .seq (.one fun c => c == 'e' || c == 'E') (.seq sign digits)

def pattern : Content → Pattern
  | componentName => .seq (char '$') word
  | bindBoth => text ['<', '=', '>']
  | bindLeft => text ['<', '=']
  | bindRight => text ['=', '>']
  | caret => char '^'
  | atSign => char '@'
  | slash => char '/'
  | star => char '*'
  | dash => char '-'
  | rawString => .seq (char '\x5c') (.many (.one fun c => c != '\r' && c != '\n'))
  | number => .seq sign (.seq mantissa (optional exponent))
  | identifier => .seq word (optional (.seq (some1 (.one isSuffix)) (.many (.one isWord))))
  | whitespace => some1 (.one fun c => c == ' ' || c == '\t')
  | unknown => .one fun c => c != ' ' && c != '\t' && c != '\n'

end

/-! ## Longest match -/

def best : List (Content × Nat) → Option (Content × Nat)
  | [] => none
  | (t, n) :: r =>
    match best r with
    | some (u, m) => if n < m then some (u, m) else some (t, n)
    | none => some (t, n)

def candidates (c : Char) (r : List Char) : List (Content × Nat) :=
  all.filterMap fun t => ((t.pattern.deriv c).longest r).map (t, ·)

structure Taken where
  kind : Content
  lexeme : List Char
  rest : List Char
deriving DecidableEq, Repr

/-- The first content token of a text. A character that no pattern takes is `unknown` by itself. -/
def lexOne : List Char → Option Taken
  | [] => none
  | c :: r =>
    match best (candidates c r) with
    | some (t, n) => some ⟨t, c :: r.take n, r.drop n⟩
    | none => some ⟨unknown, [c], r⟩

theorem lexOne_append {text : List Char} {t : Taken} (h : lexOne text = some t) :
    text = t.lexeme ++ t.rest := by
  cases text with
  | nil => cases h
  | cons c r =>
    simp only [lexOne] at h
    split at h <;> cases h <;> simp

theorem lexOne_length_lt {text : List Char} {t : Taken} (h : lexOne text = some t) :
    t.rest.length < text.length := by
  cases text with
  | nil => cases h
  | cons c r =>
    simp only [lexOne] at h
    split at h <;> cases h
    · exact Nat.lt_succ_of_le (List.drop_sublist _ _).length_le
    · exact Nat.lt_succ_self _

theorem lexOne_eq_none_iff {text : List Char} : lexOne text = none ↔ text = [] := by
  cases text with
  | nil => simp [lexOne]
  | cons c r => simp only [lexOne]; split <;> simp

end Content

end Offside
