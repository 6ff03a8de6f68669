import Mathlib.Data.Rat.Defs
import DoRuntime.Js.Json

namespace DoRuntime.Js

def hexValue (c : CodeUnit) : Option Nat :=
  if isDigit c then some (c - 48)
  else if 97 ≤ c && c ≤ 102 then some (c - 87)
  else if 65 ≤ c && c ≤ 70 then some (c - 55)
  else none

/-- The unit that a one-letter escape stands for. -/
def escapedUnit (c : CodeUnit) : Option CodeUnit :=
  if c = 34 ∨ c = 47 ∨ c = 92 then some c
  else if c = 98 then some 8
  else if c = 116 then some 9
  else if c = 110 then some 10
  else if c = 102 then some 12
  else if c = 114 then some 13
  else none

/-- The text of a string behind its opening quote. -/
def unquoteUnits : JsString → Option JsString
  | [] => none
  | u :: rest =>
    if u = 34 then if rest = [] then some [] else none
    else if u = 92 then
      match rest with
      | [] => none
      | e :: rest =>
        if e = 117 then
          match rest with
          | a :: b :: c :: d :: rest => do
            let unit := (((← hexValue a) * 16 + (← hexValue b)) * 16 + (← hexValue c)) * 16 + (← hexValue d)
            return unit :: (← unquoteUnits rest)
          | _ => none
        else do return (← escapedUnit e) :: (← unquoteUnits rest)
    else if u < 32 then none
    else do return u :: (← unquoteUnits rest)

/-- `JSON.parse` of a text that is one string. -/
def unquote : JsString → Option JsString
  | 34 :: rest => unquoteUnits rest
  | _ => none

/-- The finite doubles are among the numbers; `0` and `-0` are one of them, as `===` has it. -/
inductive JsonValue where
  | null
  | boolean (value : Bool)
  | number (value : ℚ)
  | string (value : JsString)
  | array (items : List JsonValue)
  | object (members : List (JsString × JsonValue))

mutual

/-- `JSON.parse(JSON.stringify(value))`; the text of a finite number reads back as the number. -/
def jsonImage : JsonValue → Option JsonValue
  | .null => some .null
  | .boolean value => some (.boolean value)
  | .number value => some (.number value)
  | .string value => (unquote (quote value)).map .string
  | .array items => (jsonItems items).map .array
  | .object members => (jsonMembers members).map .object

def jsonItems : List JsonValue → Option (List JsonValue)
  | [] => some []
  | item :: rest => do return (← jsonImage item) :: (← jsonItems rest)

def jsonMembers : List (JsString × JsonValue) → Option (List (JsString × JsonValue))
  | [] => some []
  | (key, value) :: rest => do return (← unquote (quote key), ← jsonImage value) :: (← jsonMembers rest)

end

def memberOf (members : List (JsString × JsonValue)) (key : JsString) : Option JsonValue :=
  (members.find? (·.1 == key)).map (·.2)

/-- The same value, the members of an object in whatever order. -/
inductive Alike : JsonValue → JsonValue → Prop where
  | same (value : JsonValue) : Alike value value
  | array {left right : List JsonValue} (items : List.Forall₂ Alike left right) : Alike (.array left) (.array right)
  | object {left right : List (JsString × JsonValue)} (count : left.length = right.length)
      (members : ∀ key, Option.Rel Alike (memberOf left key) (memberOf right key)) :
      Alike (.object left) (.object right)

theorem hexValue_hexDigit : ∀ d < 16, hexValue (hexDigit d) = some d := by decide

theorem unquoteUnits_escapeUnit {u : Nat} (bounded : u < 0x10000) (rest : JsString) :
    unquoteUnits (escapeUnit u ++ rest) = (unquoteUnits rest).map (u :: ·) := by
  have recombined : ((u / 0x1000 % 16 * 16 + u / 0x100 % 16) * 16 + u / 0x10 % 16) * 16 + u % 16 = u := by omega
  have text : escapeUnit u ++ rest = 92 :: 117 :: hexDigit (u / 0x1000 % 16) :: hexDigit (u / 0x100 % 16) ::
      hexDigit (u / 0x10 % 16) :: hexDigit (u % 16) :: rest := rfl
  rw [text, unquoteUnits]
  simp only [hexValue_hexDigit _ (Nat.mod_lt _ (by decide : 0 < 16)), Option.bind_eq_bind, Option.bind_some, recombined]
  cases unquoteUnits rest <;> rfl

theorem unquoteUnits_letter {u e : Nat} (letter : e ≠ 117) (known : escapedUnit e = some u) (rest : JsString) :
    unquoteUnits (92 :: e :: rest) = (unquoteUnits rest).map (u :: ·) := by
  rw [unquoteUnits.eq_def]
  simp only [if_neg letter, known]
  cases unquoteUnits rest <;> rfl

theorem unquoteUnits_plain {u : Nat} (mark : u ≠ 34) (escape : u ≠ 92) (visible : ¬ u < 32) (rest : JsString) :
    unquoteUnits (u :: rest) = (unquoteUnits rest).map (u :: ·) := by
  rw [unquoteUnits.eq_def]
  simp only [if_neg mark, if_neg escape, if_neg visible]
  cases unquoteUnits rest <;> rfl

theorem unquoteUnits_quoteUnit (u : Nat) (rest : JsString) :
    unquoteUnits (quoteUnit u ++ rest) = (unquoteUnits rest).map (u :: ·) := by
  unfold quoteUnit
  split
  next same => rw [same]; exact unquoteUnits_letter (by decide) rfl rest
  split
  next same => rw [same]; exact unquoteUnits_letter (by decide) rfl rest
  split
  next same => rw [same]; exact unquoteUnits_letter (by decide) rfl rest
  split
  next same => rw [same]; exact unquoteUnits_letter (by decide) rfl rest
  split
  next same => rw [same]; exact unquoteUnits_letter (by decide) rfl rest
  split
  next same => rw [same]; exact unquoteUnits_letter (by decide) rfl rest
  split
  next same => rw [same]; exact unquoteUnits_letter (by decide) rfl rest
  split
  next control => exact unquoteUnits_escapeUnit (Nat.lt_trans control (by decide)) rest
  next mark escape visible => exact unquoteUnits_plain mark escape visible rest

theorem surrogate_bounded {u : Nat} (surrogate : isSurrogate u = true) : 0xD800 ≤ u ∧ u < 0xE000 := by
  simp only [isSurrogate, isLead, isTrail, Bool.or_eq_true, Bool.and_eq_true, decide_eq_true_eq] at surrogate
  omega

theorem unquoteUnits_unit (u : Nat) (rest : JsString) :
    unquoteUnits ((if isSurrogate u then escapeUnit u else quoteUnit u) ++ rest) =
      (unquoteUnits rest).map (u :: ·) := by
  split
  next surrogate =>
    have bounds := surrogate_bounded surrogate
    exact unquoteUnits_escapeUnit (by omega) rest
  next => exact unquoteUnits_quoteUnit u rest

theorem unquoteUnits_pair {u v : Nat} (pair : (isLead u && isTrail v) = true) (rest : JsString) :
    unquoteUnits (u :: v :: rest) = (unquoteUnits rest).map (u :: v :: ·) := by
  simp only [isLead, isTrail, Bool.and_eq_true, decide_eq_true_eq] at pair
  rw [unquoteUnits_plain (by omega) (by omega) (by omega), unquoteUnits_plain (by omega) (by omega) (by omega),
    Option.map_map]
  rfl

theorem unquoteUnits_quoteUnits (s : JsString) : unquoteUnits (quoteUnits s ++ [34]) = some s := by
  induction s using quoteUnits.induct with
  | case1 => rfl
  | case2 u surrogate => rw [quoteUnits, unquoteUnits_unit]; rfl
  | case3 u ordinary => rw [quoteUnits, unquoteUnits_unit]; rfl
  | case4 u v rest pair ih =>
    rw [quoteUnits, if_pos pair, List.cons_append, List.cons_append, unquoteUnits_pair pair, ih]
    rfl
  | case5 u v rest lone ih =>
    rw [quoteUnits, if_neg lone, List.append_assoc, unquoteUnits_unit, ih]
    rfl

/-- Every string reads back as it was, lone surrogates and control characters included. -/
theorem unquote_quote (s : JsString) : unquote (quote s) = some s := unquoteUnits_quoteUnits s

mutual

theorem jsonImage_self : ∀ value, jsonImage value = some value
  | .null => rfl
  | .boolean _ => rfl
  | .number _ => rfl
  | .string value => by rw [jsonImage, unquote_quote]; rfl
  | .array items => by rw [jsonImage, jsonItems_self items]; rfl
  | .object members => by rw [jsonImage, jsonMembers_self members]; rfl

theorem jsonItems_self : ∀ items, jsonItems items = some items
  | [] => rfl
  | item :: rest => by rw [jsonItems, jsonImage_self item, jsonItems_self rest]; rfl

theorem jsonMembers_self : ∀ members, jsonMembers members = some members
  | [] => rfl
  | (key, value) :: rest => by
    rw [jsonMembers, unquote_quote, jsonImage_self value, jsonMembers_self rest]
    rfl

end

end DoRuntime.Js
