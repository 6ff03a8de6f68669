import DoRuntime.Js.Text

namespace DoRuntime.Js

abbrev Bytes := List Nat

/-- A string of 16-bit units. -/
structure Utf16 where
  units : JsString
  bounded : ∀ u ∈ units, u < 0x10000

def isLead (u : Nat) : Bool := 0xD800 ≤ u && u < 0xDC00

def isTrail (u : Nat) : Bool := 0xDC00 ≤ u && u < 0xE000

def isSurrogate (u : Nat) : Bool := isLead u || isTrail u

/-- The scalar values of a string, where a lone surrogate stands for U+FFFD. -/
def scalars : JsString → List Nat
  | [] => []
  | [u] => [if isSurrogate u then 0xFFFD else u]
  | u :: v :: rest =>
    if isLead u && isTrail v then (0x10000 + (u - 0xD800) * 0x400 + (v - 0xDC00)) :: scalars rest
    else (if isSurrogate u then 0xFFFD else u) :: scalars (v :: rest)

def encodeScalar (c : Nat) : Bytes :=
  if c < 0x80 then [c]
  else if c < 0x800 then [0xC0 + c / 0x40, 0x80 + c % 0x40]
  else if c < 0x10000 then [0xE0 + c / 0x1000, 0x80 + c / 0x40 % 0x40, 0x80 + c % 0x40]
  else [0xF0 + c / 0x40000, 0x80 + c / 0x1000 % 0x40, 0x80 + c / 0x40 % 0x40, 0x80 + c % 0x40]

def encodeScalars (cs : List Nat) : Bytes := cs.flatMap encodeScalar

/-- `TextEncoder.encode` -/
def encode (s : JsString) : Bytes := encodeScalars (scalars s)

/-- A sequence that the decoder is in the middle of. -/
structure Pending where
  needed : Nat
  point : Nat
  lower : Nat
  upper : Nat

/-- The decoder on a byte that begins a sequence. -/
def beginSequence (b : Nat) : List Nat × Option Pending :=
  if b < 0x80 then ([b], none)
  else if 0xC2 ≤ b ∧ b ≤ 0xDF then ([], some { needed := 1, point := b - 0xC0, lower := 0x80, upper := 0xBF })
  else if 0xE0 ≤ b ∧ b ≤ 0xEF then
    ([], some { needed := 2, point := b - 0xE0, lower := if b = 0xE0 then 0xA0 else 0x80, upper := if b = 0xED then 0x9F else 0xBF })
  else if 0xF0 ≤ b ∧ b ≤ 0xF4 then
    ([], some { needed := 3, point := b - 0xF0, lower := if b = 0xF0 then 0x90 else 0x80, upper := if b = 0xF4 then 0x8F else 0xBF })
  else ([0xFFFD], none)

def decodeFrom : Option Pending → Bytes → List Nat
  | none, [] => []
  | some _, [] => [0xFFFD]
  | none, b :: rest => (beginSequence b).1 ++ decodeFrom (beginSequence b).2 rest
  | some p, b :: rest =>
    if p.lower ≤ b ∧ b ≤ p.upper then
      if p.needed = 1 then (p.point * 0x40 + b % 0x40) :: decodeFrom none rest
      else
        decodeFrom (some { needed := p.needed - 1, point := p.point * 0x40 + b % 0x40, lower := 0x80, upper := 0xBF }) rest
    else 0xFFFD :: ((beginSequence b).1 ++ decodeFrom (beginSequence b).2 rest)

def unitsOf (c : Nat) : JsString :=
  if c < 0x10000 then [c] else [0xD800 + (c - 0x10000) / 0x400, 0xDC00 + (c - 0x10000) % 0x400]

/-- The byte order mark is not part of the text. -/
def dropMark : List Nat → List Nat
  | 0xFEFF :: rest => rest
  | cs => cs

/-- `TextDecoder.decode`, as a decoder does that is not told to ignore the byte order mark. -/
def decode (bytes : Bytes) : JsString := (dropMark (decodeFrom none bytes)).flatMap unitsOf

def IsScalar (c : Nat) : Prop := c < 0xD800 ∨ (0xE000 ≤ c ∧ c < 0x110000)

/-- The bytes begin with an encoded byte order mark. -/
def Marked (bytes : Bytes) : Prop := [0xEF, 0xBB, 0xBF] <+: bytes

section RoundTrip

variable {c : Nat} {cs : List Nat} {s : JsString}

theorem scalar_of_unit {u : Nat} (bounded : u < 0x10000) : IsScalar (if isSurrogate u then 0xFFFD else u) := by
  split
  case isTrue => exact .inr (by decide)
  case isFalse plain =>
    simp only [isSurrogate, isLead, isTrail, Bool.or_eq_true, Bool.and_eq_true, decide_eq_true_eq] at plain
    unfold IsScalar
    omega

theorem scalars_valid (bounded : ∀ u ∈ s, u < 0x10000) : ∀ c ∈ scalars s, IsScalar c := by
  induction s using scalars.induct with
  | case1 => exact nofun
  | case2 u =>
    intro c member
    rw [scalars, List.mem_singleton] at member
    rw [member]
    exact scalar_of_unit (bounded u List.mem_cons_self)
  | case3 u v rest pair ih =>
    intro c member
    rw [scalars, if_pos pair, List.mem_cons] at member
    rcases member with same | later
    · simp only [isLead, isTrail, Bool.and_eq_true, decide_eq_true_eq] at pair
      unfold IsScalar
      omega
    · exact ih (fun u member => bounded u (List.mem_cons_of_mem _ (List.mem_cons_of_mem _ member))) c later
  | case4 u v rest apart ih =>
    intro c member
    rw [scalars, if_neg apart, List.mem_cons] at member
    rcases member with rfl | later
    · exact scalar_of_unit (bounded u List.mem_cons_self)
    · exact ih (fun u member => bounded u (List.mem_cons_of_mem _ member)) c later

theorem beginSequence_two {k : Nat} (low : 2 ≤ k) (high : k ≤ 31) : beginSequence (0xC0 + k) =
    ([], some { needed := 1, point := k, lower := 0x80, upper := 0xBF }) := by
  unfold beginSequence
  rw [if_neg (by omega), if_pos (by omega), Nat.add_sub_cancel_left]

theorem beginSequence_three {k : Nat} (high : k ≤ 15) : beginSequence (0xE0 + k) =
    ([], some { needed := 2, point := k, lower := if k = 0 then 0xA0 else 0x80, upper := if k = 13 then 0x9F else 0xBF }) := by
  have least : 0xE0 + k = 0xE0 ↔ k = 0 := by omega
  have surrogates : 0xE0 + k = 0xED ↔ k = 13 := by omega
  unfold beginSequence
  rw [if_neg (by omega), if_neg (by omega), if_pos (by omega), Nat.add_sub_cancel_left]
  simp only [least, surrogates]

theorem beginSequence_four {k : Nat} (high : k ≤ 4) : beginSequence (0xF0 + k) =
    ([], some { needed := 3, point := k, lower := if k = 0 then 0x90 else 0x80, upper := if k = 4 then 0x8F else 0xBF }) := by
  have least : 0xF0 + k = 0xF0 ↔ k = 0 := by omega
  have last : 0xF0 + k = 0xF4 ↔ k = 4 := by omega
  unfold beginSequence
  rw [if_neg (by omega), if_neg (by omega), if_neg (by omega), if_pos (by omega), Nat.add_sub_cancel_left]
  simp only [least, last]

theorem decodeFrom_encodeScalar (valid : IsScalar c) (rest : Bytes) :
    decodeFrom none (encodeScalar c ++ rest) = c :: decodeFrom none rest := by
  unfold IsScalar at valid
  unfold encodeScalar
  by_cases one : c < 0x80
  · simp [one, decodeFrom, beginSequence]
  by_cases two : c < 0x800
  · have first := beginSequence_two (k := c / 0x40) (by omega) (by omega)
    have point : c / 0x40 * 0x40 + (0x80 + c % 0x40) % 0x40 = c := by omega
    simp only [one, two, if_false, if_true, List.cons_append, List.nil_append, decodeFrom, first]
    rw [if_pos (by omega), point]
  by_cases three : c < 0x10000
  · have first := beginSequence_three (k := c / 0x1000) (by omega)
    have range : (if c / 0x1000 = 0 then 0xA0 else 0x80) ≤ 0x80 + c / 0x40 % 0x40 ∧
        0x80 + c / 0x40 % 0x40 ≤ if c / 0x1000 = 13 then 0x9F else 0xBF := by
      split <;> split <;> omega
    have point : (c / 0x1000 * 0x40 + (0x80 + c / 0x40 % 0x40) % 0x40) * 0x40 + (0x80 + c % 0x40) % 0x40 = c := by omega
    simp only [one, two, three, if_false, if_true, List.cons_append, List.nil_append, decodeFrom, first]
    rw [if_pos range, if_neg (by decide), if_pos (by omega), point]
  · have first := beginSequence_four (k := c / 0x40000) (by omega)
    have range : (if c / 0x40000 = 0 then 0x90 else 0x80) ≤ 0x80 + c / 0x1000 % 0x40 ∧
        0x80 + c / 0x1000 % 0x40 ≤ if c / 0x40000 = 4 then 0x8F else 0xBF := by
      split <;> split <;> omega
    have point : ((c / 0x40000 * 0x40 + (0x80 + c / 0x1000 % 0x40) % 0x40) * 0x40 + (0x80 + c / 0x40 % 0x40) % 0x40) * 0x40 +
        (0x80 + c % 0x40) % 0x40 = c := by omega
    simp only [one, two, three, if_false, List.cons_append, List.nil_append, decodeFrom, first]
    rw [if_pos range, if_neg (by decide), if_pos (by omega), if_neg (by decide), if_pos (by omega), point,
      if_pos trivial]

theorem decodeFrom_encodeScalars (valid : ∀ c ∈ cs, IsScalar c) : decodeFrom none (encodeScalars cs) = cs := by
  induction cs with
  | nil => rfl
  | cons c rest ih =>
    change decodeFrom none (encodeScalar c ++ encodeScalars rest) = c :: rest
    rw [decodeFrom_encodeScalar (valid c List.mem_cons_self), ih fun d member => valid d (List.mem_cons_of_mem _ member)]

theorem scalars_unitsOf (valid : IsScalar c) (rest : JsString) : scalars (unitsOf c ++ rest) = c :: scalars rest := by
  unfold IsScalar at valid
  unfold unitsOf
  by_cases basic : c < 0x10000
  · have plain : isSurrogate c = false := by
      simp [isSurrogate, isLead, isTrail]
      omega
    have notLead : isLead c = false := by
      simp [isLead]
      omega
    rw [if_pos basic]
    cases rest with
    | nil => simp [scalars, plain]
    | cons v rest => simp [scalars, plain, notLead]
  · have pair : (isLead (0xD800 + (c - 0x10000) / 0x400) && isTrail (0xDC00 + (c - 0x10000) % 0x400)) = true := by
      simp only [isLead, isTrail, Bool.and_eq_true, decide_eq_true_eq]
      omega
    have point : 0x10000 + (0xD800 + (c - 0x10000) / 0x400 - 0xD800) * 0x400 + (0xDC00 + (c - 0x10000) % 0x400 - 0xDC00) = c := by
      omega
    rw [if_neg basic, List.cons_append, List.cons_append, List.nil_append, scalars, if_pos pair, point]

theorem scalars_flatMap (valid : ∀ c ∈ cs, IsScalar c) : scalars (cs.flatMap unitsOf) = cs := by
  induction cs with
  | nil => rfl
  | cons c rest ih =>
    rw [List.flatMap_cons, scalars_unitsOf (valid c List.mem_cons_self),
      ih fun d member => valid d (List.mem_cons_of_mem _ member)]

theorem dropMark_valid (valid : ∀ c ∈ cs, IsScalar c) : ∀ c ∈ dropMark cs, IsScalar c := by
  intro c member
  unfold dropMark at member
  split at member
  · exact valid c (List.mem_cons_of_mem _ member)
  · exact valid c member

theorem encode_decode_encode (bounded : ∀ u ∈ s, u < 0x10000) :
    encode (decode (encode s)) = encodeScalars (dropMark (scalars s)) := by
  have valid := scalars_valid bounded
  unfold encode decode
  rw [decodeFrom_encodeScalars valid, scalars_flatMap (dropMark_valid valid)]

/-- What a name comes back as is the name itself but for a byte order mark. -/
theorem encode_decode_iff (bounded : ∀ u ∈ s, u < 0x10000) :
    encode (decode (encode s)) = encode s ↔ ¬ Marked (encode s) := by
  rw [encode_decode_encode bounded]
  have mark : encodeScalar 0xFEFF = [0xEF, 0xBB, 0xBF] := rfl
  unfold encode
  constructor
  · intro same marked
    obtain ⟨tail, split⟩ := marked
    have decoded := decodeFrom_encodeScalar (c := 0xFEFF) (.inr (by decide)) tail
    rw [mark, split] at decoded
    have starts := (decodeFrom_encodeScalars (scalars_valid bounded)).symm.trans decoded
    rw [starts] at same
    have lengths := congrArg List.length same
    simp [dropMark, encodeScalars, mark] at lengths
    omega
  · intro unmarked
    congr 1
    unfold dropMark
    split
    case h_1 rest starts =>
      rw [starts] at unmarked
      exact absurd ⟨encodeScalars rest, rfl⟩ unmarked
    case h_2 => rfl

end RoundTrip

end DoRuntime.Js
