import DoRuntime.Lib.Regex

namespace DoRuntime.Js

/-- A UTF-16 code unit. -/
abbrev CodeUnit := Nat

abbrev JsString := List CodeUnit

instance : LawfulBEq JsString := inferInstanceAs (LawfulBEq (List Nat))

def js (text : String) : JsString := text.toList.map Char.toNat

def isUpper (c : Nat) : Bool := 65 ≤ c && c ≤ 90
def isLower (c : Nat) : Bool := 97 ≤ c && c ≤ 122
def isDigit (c : Nat) : Bool := 48 ≤ c && c ≤ 57
def isLetter (c : Nat) : Bool := isUpper c || isLower c

/-- `\w`. -/
def isWordUnit (c : Nat) : Bool := isLetter c || isDigit c || c == 95

/-- `\s`, which is also what `trim` removes. -/
def isJsSpace (c : Nat) : Bool :=
  (9 ≤ c && c ≤ 13) || c == 32 || c == 160 || c == 5760 || (8192 ≤ c && c ≤ 8202) ||
    c == 8232 || c == 8233 || c == 8239 || c == 8287 || c == 12288 || c == 65279

/-- `toLowerCase` as far as a comparison with an ASCII text can tell. -/
def lowerUnit (c : Nat) : Nat := if isUpper c then c + 32 else c

def toLowerCase (s : JsString) : JsString := s.map lowerUnit

def trim (s : JsString) : JsString :=
  ((s.dropWhile isJsSpace).reverse.dropWhile isJsSpace).reverse

end DoRuntime.Js

namespace DoRuntime.Js.Re

open Pattern

abbrev RegExp := Pattern CodeUnit

def unit (c : CodeUnit) : RegExp := one (· == c)

/-- A text matched as it is. -/
def text (s : String) : RegExp := seqAll ((js s).map unit)

/-- A text matched under the `i` flag. -/
def word (s : String) : RegExp := seqAll ((js s).map fun c => one (lowerUnit · == lowerUnit c))

def anyOf (options : List RegExp) : RegExp :=
  match options with
  | [] => one fun _ => false
  | first :: rest => rest.foldl alt first

def words (options : List String) : RegExp := anyOf (options.map word)

def anyUnit : RegExp := one fun _ => true
def space : RegExp := one isJsSpace
def spaces : RegExp := star true space
def spaces1 : RegExp := plus true space
def wordBoundary : RegExp := boundary isWordUnit

end DoRuntime.Js.Re
