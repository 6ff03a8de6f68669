import DoRuntime.Js.Number

namespace DoRuntime.Sql

open DoRuntime.Js

inductive Affinity
  | integer
  | blob
deriving DecidableEq

def fitsInt64 (x : Float) : Bool :=
  match integralValue x with
  | some n => -2 ^ 63 < n ∧ n < 2 ^ 63
  | none => false

/-- A stored cell by its storage class. An INTEGER keeps the integral double it was bound as,
    which is what lets a binding round-trip exactly. -/
inductive Cell
  | null
  | integer (value : Float) (integral : fitsInt64 value = true)
  | real (value : Float)

/-- Binding a number or null into a column: SQLite turns NaN into NULL, and INTEGER affinity
    turns an integral double into an INTEGER. -/
def bindNumber (affinity : Affinity) : Option Float → Cell
  | none => .null
  | some x =>
    if isNaN x then .null
    else match affinity with
      | .blob => .real x
      | .integer => if integral : fitsInt64 x = true then .integer x integral else .real x

/-- What the driver hands back for a cell. -/
inductive ColumnValue
  | null
  | number (value : Float)
  | bigint (value : Int)

def Cell.read : Cell → ColumnValue
  | .null => .null
  | .real x => .number x
  | .integer x _ => if isSafeInteger x then .number x else .bigint ((integralValue x).getD 0)

inductive StorageError
  | expectedSafeInteger (column : Nat) (value : ColumnValue)
  | unsupportedMetadataKey (key : Int)
  | alarmOutOfRange (column : String) (actorId : String) (value : Float) (max : Nat)
  | alarmTimeNotPositive

def isNull : ColumnValue → Bool
  | .null => true
  | _ => false

def getInt64 (column : Nat) : ColumnValue → Except StorageError Float
  | .number x =>
    if isSafeInteger x then .ok x else .error (.expectedSafeInteger column (.number x))
  | .bigint n =>
    let narrowed := Float.ofInt n
    if isSafeInteger narrowed ∧ integralValue narrowed = some n then .ok narrowed
    else .error (.expectedSafeInteger column (.bigint n))
  | .null => .error (.expectedSafeInteger column .null)

theorem getInt64_number_ok (column : Nat) {x : Float} (safe : isSafeInteger x = true) :
    getInt64 column (.number x) = .ok x := by
  simp [getInt64, safe]

theorem getInt64_ok_safe {column : Nat} {value : ColumnValue} {result : Float}
    (read : getInt64 column value = .ok result) : isSafeInteger result = true := by
  cases value with
  | null => cases read
  | number x =>
    simp only [getInt64] at read
    split at read
    · cases read
      assumption
    · contradiction
  | bigint n =>
    simp only [getInt64] at read
    split at read
    · rename_i narrow
      cases read
      exact narrow.1
    · contradiction

theorem getInt64_unsafe_bigint (column : Nat) {n : Int} (big : maxSafeInteger < n.natAbs) :
    getInt64 column (.bigint n) = .error (.expectedSafeInteger column (.bigint n)) := by
  have refused : ¬ (isSafeInteger (Float.ofInt n) ∧ integralValue (Float.ofInt n) = some n) := by
    rintro ⟨safe, value⟩
    obtain ⟨m, same, bound⟩ := (isSafeInteger_iff _).mp safe
    rw [value] at same
    cases same
    omega
  simp only [getInt64, refused, if_false]

/-- A bound number reads back as itself where it is a safe integer, and is refused where it is not. -/
theorem getInt64_bound (affinity : Affinity) (column : Nat) {x : Float} (number : isNaN x = false) :
    (isSafeInteger x = true → getInt64 column (bindNumber affinity (some x)).read = .ok x) ∧
    (isSafeInteger x = false →
      ∃ value, getInt64 column (bindNumber affinity (some x)).read =
        .error (.expectedSafeInteger column value)) := by
  have real : (bindNumber affinity (some x)).read = .number x ∨
      ∃ n, integralValue x = some n ∧ isSafeInteger x = false ∧
        (bindNumber affinity (some x)).read = .bigint n := by
    cases affinity with
    | blob => exact .inl (by simp [bindNumber, number, Cell.read])
    | integer =>
      by_cases integral : fitsInt64 x = true
      · cases safe : isSafeInteger x
        · have present : ∃ n, integralValue x = some n := by
            unfold fitsInt64 at integral
            split at integral
            · exact ⟨_, by assumption⟩
            · contradiction
          obtain ⟨n, value⟩ := present
          exact .inr ⟨n, value, rfl, by simp [bindNumber, number, integral, Cell.read, safe, value]⟩
        · exact .inl (by simp [bindNumber, number, integral, Cell.read, safe])
      · exact .inl (by simp [bindNumber, number, integral, Cell.read])
  rcases real with read | ⟨n, value, notSafe, read⟩
  · rw [read]
    refine ⟨getInt64_number_ok column, fun safe => ⟨.number x, ?_⟩⟩
    simp [getInt64, safe]
  · rw [read]
    refine ⟨fun safe => by simp [notSafe] at safe, fun _ => ⟨.bigint n, ?_⟩⟩
    apply getInt64_unsafe_bigint
    simp only [isSafeInteger, value, decide_eq_false_iff_not] at notSafe
    omega

theorem bindNumber_not_null (affinity : Affinity) {x : Float} (number : isNaN x = false) :
    isNull (bindNumber affinity (some x)).read = false := by
  cases affinity with
  | blob => simp [bindNumber, number, Cell.read, isNull]
  | integer =>
    by_cases integral : fitsInt64 x = true <;> cases safe : isSafeInteger x <;>
      simp [bindNumber, number, integral, Cell.read, isNull, safe]

@[simp] theorem bindNumber_none (affinity : Affinity) : bindNumber affinity none = .null := rfl

@[simp] theorem null_read : Cell.null.read = .null := rfl

end DoRuntime.Sql
