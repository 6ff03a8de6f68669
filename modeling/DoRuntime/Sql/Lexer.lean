import DoRuntime.Js.Text

namespace DoRuntime.Sql

open DoRuntime.Js

inductive TokenKind
  | space
  | comment
  | string
  | quoted
  | bare
  | blob
  | variable
  | number
  | punctuation
  | illegal
deriving DecidableEq

/-- A unit that continues a bare identifier. -/
def isIdUnit (c : Nat) : Bool := isLetter c || isDigit c || c == 95 || c == 36 || 128 ≤ c

def isSqlSpace (c : Nat) : Bool := (9 ≤ c && c ≤ 13) || c == 32

def isHexDigit (c : Nat) : Bool := isDigit c || (65 ≤ c && c ≤ 70) || (97 ≤ c && c ≤ 102)

def punctuationUnits : JsString := js "!%&()*+,.;<=>|~"

/-- A digit of a number, the separator included. -/
def isNumberUnit (c : Nat) : Bool := isDigit c || c == 95

def spanLength (accepts : CodeUnit → Bool) (s : JsString) : Nat := (s.takeWhile accepts).length

/-- The length of what is left before the end of the input, which a NUL marks too. -/
def untilEnd (s : JsString) : Nat := spanLength (· != 0) s

/-- Units through the closing delimiter, a doubled delimiter standing for itself. -/
def closeDoubled (delimiter : CodeUnit) : JsString → Option Nat
  | [] => none
  | c :: rest =>
    if c = 0 then none
    else if c = delimiter then
      match rest with
      | [] => some 1
      | d :: after =>
        if d = delimiter then (closeDoubled delimiter after).map (· + 2) else some 1
    else (closeDoubled delimiter rest).map (· + 1)

/-- Units through the first closing delimiter. -/
def closePlain (delimiter : CodeUnit) : JsString → Option Nat
  | [] => none
  | c :: rest =>
    if c = 0 then none
    else if c = delimiter then some 1
    else (closePlain delimiter rest).map (· + 1)

/-- Units through the end of a block comment. -/
def closeBlock : JsString → Option Nat
  | [] => none
  | [_] => none
  | c :: d :: rest =>
    if c = 0 then none
    else if c = 42 ∧ d = 47 then some 2
    else (closeBlock (d :: rest)).map (· + 1)

/-- A token closed by a delimiter, or one the end of the input cuts off. -/
def closed (kind : TokenKind) (opened : Nat) (rest : JsString) : Option Nat → TokenKind × Nat
  | some length => (kind, opened + length)
  | none => (.illegal, opened + untilEnd rest)

/-- The units of a number at the start of a text. -/
def numberLength (s : JsString) : Nat :=
  let whole := spanLength isNumberUnit s
  let fraction := match s.drop whole with
    | 46 :: rest => 1 + spanLength isNumberUnit rest
    | _ => 0
  let exponent := match s.drop (whole + fraction) with
    | e :: d :: rest =>
      if e = 69 ∨ e = 101 then
        if isDigit d then 2 + spanLength isNumberUnit rest
        else if (d = 43 ∨ d = 45) ∧ rest.head?.any isDigit then 2 + spanLength isNumberUnit rest
        else 0
      else 0
    | _ => 0
  let length := whole + fraction + exponent
  length + spanLength isIdUnit (s.drop length)

/-- The units of a `$name`, `@name`, `:name` or `#name` variable after its sigil, given how many
    name units came before. -/
def variableTail (named : Bool) : JsString → TokenKind × Nat
  | [] => (if named then .variable else .illegal, 0)
  | c :: rest =>
    if isIdUnit c then
      let (kind, length) := variableTail true rest
      (kind, length + 1)
    else if c = 40 ∧ named then
      let inside := spanLength (fun d => d != 0 && !isSqlSpace d && d != 41) rest
      if (rest.drop inside).head? = some 41 then (.variable, inside + 2) else (.illegal, inside + 1)
    else
      match rest with
      | d :: after =>
        if c = 58 ∧ d = 58 then
          let (kind, length) := variableTail named after
          (kind, length + 2)
        else (if named then .variable else .illegal, 0)
      | [] => (if named then .variable else .illegal, 0)

def later (first : Nat) (token : TokenKind × Nat) : TokenKind × Nat := (token.1, first + token.2)

/-- The token a text starts with, as SQLite's tokenizer reads it: its kind and its length. Operators
    come out one unit at a time. -/
def tokenFrom (c : CodeUnit) (rest : JsString) : Option (TokenKind × Nat) :=
  if c = 0 then none
  else if isSqlSpace c ∧ c ≠ 11 then some (.space, 1 + spanLength isSqlSpace rest)
  else if c = 65279 then some (.space, 1)
  else if c = 45 then
    match rest with
    | 45 :: line => some (.comment, 2 + spanLength (fun d => d != 0 && d != 10) line)
    | _ => some (.punctuation, 1)
  else if c = 47 then
    match rest with
    | 42 :: d :: after =>
      if d = 0 then some (.punctuation, 1)
      else
        match closeBlock (d :: after) with
        | some length => some (.comment, 2 + length)
        | none => some (.comment, 2 + untilEnd (d :: after))
    | _ => some (.punctuation, 1)
  else if c = 39 then some (closed .string 1 rest (closeDoubled 39 rest))
  else if c = 34 ∨ c = 96 then some (closed .quoted 1 rest (closeDoubled c rest))
  else if c = 91 then some (closed .quoted 1 rest (closePlain 93 rest))
  else if isDigit c ∨ (c = 46 ∧ rest.head?.any isDigit) then some (.number, numberLength (c :: rest))
  else if c = 63 then some (.variable, 1 + spanLength isDigit rest)
  else if c = 36 ∨ c = 64 ∨ c = 58 ∨ c = 35 then some (later 1 (variableTail false rest))
  else if (c = 88 ∨ c = 120) ∧ rest.head? = some 39 then
    let body := rest.drop 1
    let hex := (body.takeWhile isHexDigit)
    let legal := (body.drop hex.length).head? = some 39 ∧ hex.length % 2 = 0
    some (closed (if legal then .blob else .illegal) 2 body (closePlain 39 body))
  else if isIdUnit c then some (.bare, 1 + spanLength isIdUnit rest)
  else if c ∈ punctuationUnits then some (.punctuation, 1)
  else some (.illegal, 1)

def nextToken : JsString → Option (TokenKind × Nat)
  | [] => none
  | c :: rest => tokenFrom c rest

structure Token where
  kind : TokenKind
  text : JsString
deriving DecidableEq

def tokenize : Nat → JsString → List Token
  | 0, _ => []
  | fuel + 1, s =>
    match nextToken s with
    | none => []
    | some (kind, length) => { kind, text := s.take length } :: tokenize fuel (s.drop length)

/-- The tokens of a query, up to its end or its first NUL. -/
def tokens (query : JsString) : List Token := tokenize query.length query

/-- The name an identifier token stands for, up to the escapes inside it. -/
def Token.name (t : Token) : Option JsString :=
  match t.kind with
  | .bare => some t.text
  | .quoted => some ((t.text.drop 1).dropLast)
  | _ => none

end DoRuntime.Sql
