import DoRuntime.Js.Json
import DoRuntime.Lib.Weave

namespace DoRuntime.Vite

open Js Weave

/-- A syntax tree with its text. What the transform does not look at is text, or parts that are
    joined; the words and brackets that its nodes cannot be without are theirs. -/
inductive Node
  | text (source : JsString)
  | join (left right : Node)
  | paren (before : JsString) (inner : Node) (after : JsString)
  /-- A call of an identifier, with its first argument and what follows it. -/
  | call (callee gap before : JsString) (first rest : Node)
  | awaitUsing (declarations : Node)
  | await_ (gap : JsString) (argument : Node)
  | forAwait (head : Node) (gap : JsString) (right : Node) (after : JsString) (body : Node)

namespace Node

def render : Node → JsString
  | text source => source
  | join left right => left.render ++ right.render
  | paren before inner after => js "(" ++ before ++ inner.render ++ after ++ js ")"
  | call callee gap before first rest =>
    callee ++ gap ++ js "(" ++ before ++ first.render ++ rest.render ++ js ")"
  | awaitUsing declarations => js "await" ++ declarations.render
  | await_ gap argument => js "await" ++ gap ++ argument.render
  | forAwait head gap right after body =>
    js "for" ++ head.render ++ js "of" ++ gap ++ right.render ++ after ++ js ")" ++ body.render

def size (node : Node) : Nat := node.render.length

def startsWithAwait : Node → Bool
  | join left right => left.startsWithAwait || (left.render.isEmpty && right.startsWithAwait)
  | await_ _ _ => true
  | _ => false

def endsWithAwait : Node → Bool
  | join left right => right.endsWithAwait || (right.render.isEmpty && left.endsWithAwait)
  | awaitUsing declarations => declarations.endsWithAwait
  | await_ _ _ => true
  | forAwait _ _ _ _ body => body.endsWithAwait
  | _ => false

/-- In a module that can be parsed two awaits never touch, and what is awaited or called is something. -/
def Valid : Node → Prop
  | text _ => True
  | join left right => left.Valid ∧ right.Valid ∧ ¬ (left.endsWithAwait ∧ right.startsWithAwait)
  | paren _ inner _ => inner.Valid
  | call callee _ _ first rest =>
    callee ≠ [] ∧ first.Valid ∧ rest.Valid ∧ ¬ (first.endsWithAwait ∧ rest.startsWithAwait)
  | awaitUsing declarations => declarations.Valid ∧ declarations.startsWithAwait = false
  | await_ _ argument => argument.Valid ∧ argument.render ≠ []
  | forAwait head _ right _ body =>
    head.Valid ∧ right.Valid ∧ right.render ≠ [] ∧ body.Valid ∧ js "await" <:+: head.render

def hasAwait : Node → Bool
  | text _ => false
  | join left right => left.hasAwait || right.hasAwait
  | paren _ inner _ => inner.hasAwait
  | call _ _ _ first rest => first.hasAwait || rest.hasAwait
  | awaitUsing declarations => declarations.hasAwait
  | await_ _ _ => true
  | forAwait _ _ _ _ _ => true

end Node

/-- `MagicString`: the text that was inserted to the left and to the right of each offset. -/
structure MagicString where
  original : JsString
  left : Nat → JsString
  right : Nat → JsString

namespace MagicString

def ofText (original : JsString) : MagicString := { original, left := fun _ => [], right := fun _ => [] }

def prependLeft (s : MagicString) (i : Nat) (content : JsString) : MagicString :=
  { s with left := Function.update s.left i (content ++ s.left i) }

def appendLeft (s : MagicString) (i : Nat) (content : JsString) : MagicString :=
  { s with left := Function.update s.left i (s.left i ++ content) }

def appendRight (s : MagicString) (i : Nat) (content : JsString) : MagicString :=
  { s with right := Function.update s.right i (s.right i ++ content) }

def toText (s : MagicString) : JsString := weave (fun i => s.left i ++ s.right i) 0 s.original

end MagicString

def marker : JsString := js "/* @do-runtime-gated */"

def importLine : JsString :=
  js "import \x7b __gateAsyncIterable, __gateAwait, __resumeAwait \x7d from \"@mcp-b/do-runtime/gate\";"

def header : JsString := marker ++ [10] ++ importLine ++ [10]

section Visit

variable (development : Bool) (id : JsString)

def gateOpener : JsString := js "__gateAwait(("
def resumeOpener : JsString := js "__resumeAwait(("
def iterableOpener : JsString := js "__gateAsyncIterable(("
def closer : JsString := js "))"

def gateCloser : JsString := if development then js "), " ++ quote id ++ js ")" else closer

/-- The visitor comes to a node before it comes to its children. -/
def visit (offset : Nat) (source : MagicString) : Node → MagicString
  | .text _ => source
  | .join left right => visit (offset + left.size) (visit offset source left) right
  | .paren before inner _ => visit (offset + 1 + before.length) source inner
  | .call callee gap before first rest =>
    let start := offset + callee.length + gap.length + 1 + before.length
    visit (start + first.size) (visit start source first) rest
  | .awaitUsing declarations => visit (offset + 5) source declarations
  | .await_ gap argument =>
    let start := offset + 5 + gap.length
    let stop := start + argument.size
    let source := source.prependLeft offset resumeOpener
    let source := source.prependLeft start gateOpener
    let source := source.appendRight stop (gateCloser development id)
    let source := source.appendRight stop closer
    visit start source argument
  | .forAwait head gap right after body =>
    let start := offset + 3 + head.size + 2 + gap.length
    let stop := start + right.size
    let source := source.prependLeft start iterableOpener
    let source := source.appendRight stop closer
    let source := visit (offset + 3) source head
    let source := visit start source right
    visit (stop + after.length + 1) source body

end Visit

/-- A module, with the line that begins with `#!`, if it has one, and what ends that line. -/
structure Module where
  hashbang : Option (JsString × JsString)
  body : Node

namespace Module

def opening (m : Module) : JsString :=
  match m.hashbang with
  | some (line, terminator) => line ++ terminator
  | none => []

def text (m : Module) : JsString := m.opening ++ m.body.render

def terminators : List JsString := [[10], [13], [13, 10], [0x2028], [0x2029]]

structure Valid (m : Module) : Prop where
  body : m.body.Valid
  line : ∀ line terminator, m.hashbang = some (line, terminator) → js "#!" <+: line ∧
    (∀ u ∈ line, u ≠ 10 ∧ u ≠ 13 ∧ u ≠ 0x2028 ∧ u ≠ 0x2029) ∧ terminator ∈ terminators ∧
    (terminator = [13] → m.body.render.head? ≠ some 10)
  plain : m.hashbang = none → ¬ js "#!" <+: m.body.render

end Module

def includes (code part : JsString) : Bool := decide (part <:+: code)

def insertionPoint (code : JsString) : Nat :=
  if (js "#!").isPrefixOf code then
    match code.findIdx? (· == 10) with
    | some i => i + 1
    | none => 0
  else 0

/-- `transform`, with `asyncContext` off. -/
def transform (filter : JsString → Bool) (development : Bool) (id : JsString) (m : Module)
    : Option JsString :=
  if !includes m.text (js "await") || includes m.text marker || !filter id then none
  else if !m.body.hasAwait then none
  else
    let source := visit development id m.opening.length (.ofText m.text) m.body
    some (source.appendLeft (insertionPoint m.text) header).toText

/-- The tree in which every await passes its gate. -/
def lower (development : Bool) (id : JsString) : Node → Node
  | .text source => .text source
  | .join left right => .join (lower development id left) (lower development id right)
  | .paren before inner after => .paren before (lower development id inner) after
  | .call callee gap before first rest =>
    .call callee gap before (lower development id first) (lower development id rest)
  | .awaitUsing declarations => .awaitUsing (lower development id declarations)
  | .await_ gap argument =>
    let gated := Node.call (js "__gateAwait") [] [] (.paren [] (lower development id argument) [])
      (.text (if development then js ", " ++ quote id else []))
    .call (js "__resumeAwait") [] [] (.paren [] (.await_ gap gated) []) (.text [])
  | .forAwait head gap right after body =>
    .forAwait (lower development id head) gap
      (.call (js "__gateAsyncIterable") [] [] (.paren [] (lower development id right) []) (.text []))
      after (lower development id body)

/-- The header, and the tree with its awaits wrapped. -/
def wrapped (development : Bool) (id : JsString) (m : Module) : JsString :=
  m.opening ++ header ++ (lower development id m.body).render

structure AwaitCoverage where
  total : Nat
  transformed : Nat
deriving DecidableEq

def AwaitCoverage.plus (a b : AwaitCoverage) : AwaitCoverage :=
  { total := a.total + b.total, transformed := a.transformed + b.transformed }

def unparenthesized : Node → Node
  | .paren _ inner _ => unparenthesized inner
  | node => node

def directCallName (node : Node) : Option JsString :=
  match unparenthesized node with
  | .call callee _ _ _ _ => some callee
  | _ => none

/-- The argument of a gated await. -/
def isGated (node : Node) : Bool :=
  match unparenthesized node with
  | .await_ _ argument => directCallName argument == some (js "__gateAwait")
  | _ => false

def countAwaitCoverage : Node → AwaitCoverage
  | .text _ => { total := 0, transformed := 0 }
  | .join left right => (countAwaitCoverage left).plus (countAwaitCoverage right)
  | .paren _ inner _ => countAwaitCoverage inner
  | .call callee _ _ first rest =>
    let own := if callee = js "__resumeAwait" ∧ isGated first then 1 else 0
    (AwaitCoverage.mk 0 own).plus ((countAwaitCoverage first).plus (countAwaitCoverage rest))
  | .awaitUsing declarations => (AwaitCoverage.mk 1 0).plus (countAwaitCoverage declarations)
  | .await_ _ argument => (AwaitCoverage.mk 1 0).plus (countAwaitCoverage argument)
  | .forAwait head _ right _ body =>
    let own := if directCallName right = some (js "__gateAsyncIterable") then 1 else 0
    (AwaitCoverage.mk 1 own).plus
      ((countAwaitCoverage head).plus ((countAwaitCoverage right).plus (countAwaitCoverage body)))

def Node.usesAwaitUsing : Node → Bool
  | .text _ => false
  | .join left right => left.usesAwaitUsing || right.usesAwaitUsing
  | .paren _ inner _ => inner.usesAwaitUsing
  | .call _ _ _ first rest => first.usesAwaitUsing || rest.usesAwaitUsing
  | .awaitUsing _ => true
  | .await_ _ argument => argument.usesAwaitUsing
  | .forAwait head _ right _ body => head.usesAwaitUsing || right.usesAwaitUsing || body.usesAwaitUsing

end DoRuntime.Vite
