import DoRuntime.Js.Utf8

namespace DoRuntime.Js

/-- A hexadecimal digit, in lower case. -/
def hexDigit (d : Nat) : CodeUnit := if d < 10 then 48 + d else 87 + d

/-- `\uXXXX` -/
def escapeUnit (u : CodeUnit) : JsString :=
  js "\\u" ++ [hexDigit (u / 0x1000 % 16), hexDigit (u / 0x100 % 16), hexDigit (u / 0x10 % 16), hexDigit (u % 16)]

/-- What `JSON.stringify` writes for one unit of a string. -/
def quoteUnit (u : CodeUnit) : JsString :=
  if u = 8 then js "\\b"
  else if u = 9 then js "\\t"
  else if u = 10 then js "\\n"
  else if u = 12 then js "\\f"
  else if u = 13 then js "\\r"
  else if u = 34 then js "\\\""
  else if u = 92 then js "\\\\"
  else if u < 32 then escapeUnit u
  else [u]

/-- A lone surrogate is escaped, a pair is not. -/
def quoteUnits : JsString → JsString
  | [] => []
  | [u] => if isSurrogate u then escapeUnit u else quoteUnit u
  | u :: v :: rest =>
    if isLead u && isTrail v then u :: v :: quoteUnits rest
    else (if isSurrogate u then escapeUnit u else quoteUnit u) ++ quoteUnits (v :: rest)

/-- `JSON.stringify` of a string. -/
def quote (s : JsString) : JsString := [34] ++ quoteUnits s ++ [34]

end DoRuntime.Js
