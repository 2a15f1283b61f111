/-!
# Characters, strings and keys of TOML

Each reader takes what it reads from the front of a text and gives it with the text after it, or
nothing if the text starts otherwise. Readers that go over several escapes or lines carry a bound on
their rounds, which callers set to the length of the text.
-/

namespace Offside

namespace Toml

def expect (c : Char) : List Char → Option (List Char)
  | d :: r => if d = c then some r else none
  | [] => none

def isBlank (c : Char) : Bool := c == ' ' || c == '\t'

def skipBlanks (text : List Char) : List Char := text.dropWhile isBlank

def newline? : List Char → Option (List Char)
  | '\n' :: r => some r
  | '\r' :: '\n' :: r => some r
  | _ => none

def isVisible (c : Char) : Bool := c == '\t' || (' ' ≤ c && c != '\x7f')

def skipComment : List Char → List Char
  | '#' :: r => r.dropWhile isVisible
  | r => r

def lineEnd? (text : List Char) : Option (List Char) :=
  match skipComment (skipBlanks text) with
  | [] => some []
  | r => newline? r

def skipLines : Nat → List Char → List Char
  | 0, text => text
  | n + 1, text =>
    let text := skipBlanks text
    match newline? (skipComment text) with
    | some r => skipLines n r
    | none => text

/-! ## Strings -/

def hexDigit? (c : Char) : Option Nat :=
  if c.isDigit then some (c.toNat - 48)
  else if 'a' ≤ c && c ≤ 'f' then some (c.toNat - 87)
  else if 'A' ≤ c && c ≤ 'F' then some (c.toNat - 55)
  else none

def hexNumber? : Nat → Nat → List Char → Option (Nat × List Char)
  | 0, value, r => some (value, r)
  | n + 1, value, c :: r => (hexDigit? c).bind fun d => hexNumber? n (16 * value + d) r
  | _ + 1, _, [] => none

def codePoint? (digits : Nat) (text : List Char) : Option (Char × List Char) :=
  (hexNumber? digits 0 text).bind fun (n, r) =>
    if n.isValidChar then some (Char.ofNat n, r) else none

def escape? : List Char → Option (Char × List Char)
  | 'b' :: r => some ('\x08', r)
  | 't' :: r => some ('\t', r)
  | 'n' :: r => some ('\n', r)
  | 'f' :: r => some ('\x0c', r)
  | 'r' :: r => some ('\r', r)
  | '\x22' :: r => some ('\x22', r)
  | '\x5c' :: r => some ('\x5c', r)
  | 'u' :: r => codePoint? 4 r
  | 'U' :: r => codePoint? 8 r
  | _ => none

def basic? : Nat → List Char → Option (List Char × List Char)
  | 0, _ => none
  | n + 1, text =>
    match text with
    | '\x22' :: r => some ([], r)
    | '\x5c' :: r => do
      let (c, r) ← escape? r
      let (s, r) ← basic? n r
      return (c :: s, r)
    | c :: r =>
      if isVisible c then (basic? n r).map fun (s, r) => (c :: s, r) else none
    | [] => none

def literal? : List Char → Option (List Char × List Char)
  | [] => none
  | c :: r =>
    if c = '\x27' then some ([], r)
    else if isVisible c then (literal? r).map fun (s, r) => (c :: s, r)
    else none

/-- The quotes at the end of a string of several lines: up to two belong to the string, and three
close it. -/
def closing? (quote : Char) (text : List Char) : Option (List Char × List Char) :=
  let quotes := (text.takeWhile (· == quote)).length
  if quotes < 3 then none
  else
    let own := min 2 (quotes - 3)
    some (List.replicate own quote, text.drop (own + 3))

def skipEmptyLines : List Char → List Char
  | ' ' :: r | '\t' :: r | '\n' :: r => skipEmptyLines r
  | '\r' :: '\n' :: r => skipEmptyLines r
  | r => r

/-- What follows a line end that a backslash takes away, with the blanks and lines after it. -/
def continuation? (text : List Char) : Option (List Char) :=
  (newline? (skipBlanks text)).map skipEmptyLines

def longBasic? : Nat → List Char → Option (List Char × List Char)
  | 0, _ => none
  | n + 1, text =>
    match closing? '\x22' text with
    | some (s, r) => some (s, r)
    | none =>
      match newline? text with
      | some r => (longBasic? n r).map fun (s, r) => ('\n' :: s, r)
      | none =>
        match text with
        | '\x5c' :: r =>
          match continuation? r with
          | some r => longBasic? n r
          | none => do
            let (c, r) ← escape? r
            let (s, r) ← longBasic? n r
            return (c :: s, r)
        | c :: r => if isVisible c then (longBasic? n r).map fun (s, r) => (c :: s, r) else none
        | [] => none

def longLiteral? : Nat → List Char → Option (List Char × List Char)
  | 0, _ => none
  | n + 1, text =>
    match closing? '\x27' text with
    | some (s, r) => some (s, r)
    | none =>
      match newline? text with
      | some r => (longLiteral? n r).map fun (s, r) => ('\n' :: s, r)
      | none =>
        match text with
        | c :: r => if isVisible c then (longLiteral? n r).map fun (s, r) => (c :: s, r) else none
        | [] => none

/-- Behind the opening quotes of a string of several lines: a line end there does not count. -/
def skipFirstLineEnd (text : List Char) : List Char := (newline? text).getD text

def string? : List Char → Option (List Char × List Char)
  | '\x22' :: '\x22' :: '\x22' :: r => longBasic? (r.length + 1) (skipFirstLineEnd r)
  | '\x27' :: '\x27' :: '\x27' :: r => longLiteral? (r.length + 1) (skipFirstLineEnd r)
  | '\x22' :: r => basic? (r.length + 1) r
  | '\x27' :: r => literal? r
  | _ => none

/-! ## Keys -/

def isBare (c : Char) : Bool := c.isAlphanum || c == '_' || c == '-'

def simpleKey? (text : List Char) : Option (List Char × List Char) :=
  match text with
  | '\x22' :: r => basic? (r.length + 1) r
  | '\x27' :: r => literal? r
  | _ =>
    let key := text.takeWhile isBare
    if key.isEmpty then none else some (key, text.dropWhile isBare)

def dottedKey? : Nat → List Char → Option (List String × List Char)
  | 0, _ => none
  | n + 1, text => do
    let (key, r) ← simpleKey? (skipBlanks text)
    match skipBlanks r with
    | '.' :: r =>
      let (keys, r) ← dottedKey? n r
      return (String.ofList key :: keys, r)
    | r => return ([String.ofList key], r)

/-- The depth of nesting, and the number of keys in a row, that a document stays below. -/
def depthLimit : Nat := 80

def key? (text : List Char) : Option (List String × List Char) :=
  (dottedKey? (text.length + 1) text).bind fun (keys, r) =>
    if keys.length < depthLimit then some (keys, r) else none

end Toml

end Offside
