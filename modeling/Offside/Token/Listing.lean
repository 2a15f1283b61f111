import Offside.Text.Point
import Offside.Text.Quoted
import Offside.Token.Lexeme

/-!
# Listings of tokens

Token streams as text: one token a line for readers, the structural kinds alone, and JSON and YAML
for programs. A content token is listed with its text, which is empty if its range is none of the
source.
-/

namespace Offside

namespace Listing

def number (n : Nat) : List Char := Nat.toDigits 10 n

def shown (source : List Char) (s : Span) : List Char := (slice? source s.start s.stop).getD []

def simpleLine (source : List Char) (l : Lexeme) : List Char :=
  number l.span.start ++ ['.', '.'] ++ number l.span.stop ++ [' '] ++ l.token.name.toList ++
    (match l.token with
      | .scanned _ => []
      | .content _ => ' ' :: quote (shown source l.span)) ++ ['\n']

def simple (source : List Char) (tokens : List Lexeme) : List Char :=
  tokens.flatMap (simpleLine source)

def kinds (tokens : List Lexeme) : String :=
  " ".intercalate ((structureOf tokens).map Kind.name)

def sort : Token → String
  | .scanned _ => "Scanned"
  | .content _ => "Content"

def compactEntry (l : Lexeme) : String :=
  "[\x7b\"" ++ sort l.token ++ "\":\"" ++ l.token.name ++ "\"\x7d,\x7b\"start\":" ++
    toString l.span.start ++ ",\"end\":" ++ toString l.span.stop ++ "\x7d]"

def compactJson (tokens : List Lexeme) : String :=
  "[" ++ ",".intercalate (tokens.map compactEntry) ++ "]"

def indentedEntry (l : Lexeme) : String :=
  "  [\n    \x7b\n      \"" ++ sort l.token ++ "\": \"" ++ l.token.name ++
    "\"\n    \x7d,\n    \x7b\n      \"start\": " ++ toString l.span.start ++
    ",\n      \"end\": " ++ toString l.span.stop ++ "\n    \x7d\n  ]"

def indentedJson (tokens : List Lexeme) : String :=
  if tokens.isEmpty then "[]"
  else "[\n" ++ ",\n".intercalate (tokens.map indentedEntry) ++ "\n]"

def yamlEntry (l : Lexeme) : String :=
  "- - !" ++ sort l.token ++ " " ++ l.token.name ++ "\n  - start: " ++ toString l.span.start ++
    "\n    end: " ++ toString l.span.stop ++ "\n"

def yaml (tokens : List Lexeme) : String :=
  if tokens.isEmpty then "[]\n" else String.join (tokens.map yamlEntry)

end Listing

end Offside
