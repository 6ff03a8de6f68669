import Mathlib.Data.List.Basic
import Mathlib.Tactic.Ring

namespace DoRuntime.Bits

/-- The lowest bits of a number, the highest of them first. -/
def ofNat : Nat → Nat → List Bool
  | 0, _ => []
  | width + 1, n => decide (n / 2 ^ width % 2 = 1) :: ofNat width n

def value : List Bool → Nat
  | [] => 0
  | bit :: rest => bit.toNat * 2 ^ rest.length + value rest

/-- The bits of a byte string, each byte's highest bit first. -/
def ofBytes (bytes : List UInt8) : List Bool := bytes.flatMap fun byte => ofNat 8 byte.toNat

def toBytes (bits : List Bool) : List UInt8 :=
  (List.range (bits.length / 8)).map fun i => UInt8.ofNat (value ((bits.drop (8 * i)).take 8))

variable {bits more : List Bool} {bytes : List UInt8}

@[simp]
theorem ofNat_length (width n : Nat) : (ofNat width n).length = width := by
  induction width with
  | zero => rfl
  | succ width ih => rw [ofNat, List.length_cons, ih]

theorem value_append (bits more : List Bool) : value (bits ++ more) = value bits * 2 ^ more.length + value more := by
  induction bits with
  | nil => simp [value]
  | cons bit rest ih =>
    rw [List.cons_append, value, value, ih, List.length_append, Nat.pow_add]
    ring

theorem value_ofNat (width n : Nat) : value (ofNat width n) = n % 2 ^ width := by
  induction width with
  | zero => rw [ofNat, value, Nat.pow_zero, Nat.mod_one]
  | succ width ih =>
    rw [ofNat, value, ih, ofNat_length, Nat.pow_succ, Nat.mod_mul]
    have bit : (decide (n / 2 ^ width % 2 = 1)).toNat = n / 2 ^ width % 2 := by
      rcases Nat.mod_two_eq_zero_or_one (n / 2 ^ width) with even | odd
      · rw [even]
        rfl
      · rw [odd]
        rfl
    rw [bit]
    ring

theorem ofNat_mod (width n : Nat) {larger : Nat} (within : width ≤ larger) :
    ofNat width (n % 2 ^ larger) = ofNat width n := by
  induction width with
  | zero => rfl
  | succ width ih =>
    have split : 2 ^ larger = 2 ^ width * (2 * 2 ^ (larger - width - 1)) := by
      rw [← Nat.mul_assoc, ← Nat.pow_succ, ← Nat.pow_add]
      congr 1
      omega
    rw [ofNat, ofNat, ih (by omega), split, Nat.mod_mul_right_div_self, Nat.mod_mul_right_mod]

theorem ofNat_add (high low n : Nat) : ofNat (high + low) n = ofNat high (n / 2 ^ low) ++ ofNat low n := by
  induction high with
  | zero => rw [Nat.zero_add, ofNat, List.nil_append]
  | succ high ih =>
    rw [Nat.add_right_comm, ofNat, ih, ofNat, List.cons_append, Nat.div_div_eq_div_mul, ← Nat.pow_add, Nat.add_comm low]

@[simp]
theorem ofBytes_length (bytes : List UInt8) : (ofBytes bytes).length = 8 * bytes.length := by
  induction bytes with
  | nil => rfl
  | cons byte rest ih =>
    rw [ofBytes, List.flatMap_cons, List.length_append, ofNat_length, List.length_cons]
    rw [ofBytes] at ih
    omega

@[simp]
theorem ofBytes_append (bytes rest : List UInt8) : ofBytes (bytes ++ rest) = ofBytes bytes ++ ofBytes rest :=
  List.flatMap_append

theorem drop_ofBytes (bytes : List UInt8) (n : Nat) : (ofBytes bytes).drop (8 * n) = ofBytes (bytes.drop n) := by
  induction n generalizing bytes with
  | zero => rfl
  | succ n ih =>
    cases bytes with
    | nil => rw [List.drop_nil, ofBytes, List.flatMap_nil, List.drop_nil]
    | cons byte rest =>
      rw [List.drop_succ_cons, ← ih rest, ofBytes, List.flatMap_cons, Nat.mul_succ, Nat.add_comm, ← List.drop_drop,
        List.drop_left' (ofNat_length 8 _)]
      rfl

theorem take_ofBytes (bytes : List UInt8) (n : Nat) : (ofBytes bytes).take (8 * n) = ofBytes (bytes.take n) := by
  induction n generalizing bytes with
  | zero => rfl
  | succ n ih =>
    cases bytes with
    | nil => rw [List.take_nil, ofBytes, List.flatMap_nil, List.take_nil]
    | cons byte rest =>
      rw [List.take_succ_cons, ofBytes, List.flatMap_cons, ofBytes, List.flatMap_cons, Nat.mul_succ, Nat.add_comm,
        List.take_add, List.take_left' (ofNat_length 8 _), List.drop_left' (ofNat_length 8 _)]
      exact congrArg _ (ih rest)

theorem toBytes_ofBytes (bytes : List UInt8) : toBytes (ofBytes bytes) = bytes := by
  apply List.ext_getElem
  · simp [toBytes]
  · intro i inside here
    have one : ((ofBytes bytes).drop (8 * i)).take 8 = ofNat 8 bytes[i].toNat := by
      rw [drop_ofBytes, List.drop_eq_getElem_cons here, ofBytes, List.flatMap_cons, List.take_left' (ofNat_length 8 _)]
    simp only [toBytes, List.getElem_map, List.getElem_range, one]
    rw [value_ofNat, Nat.mod_eq_of_lt bytes[i].toNat_lt, UInt8.ofNat_toNat]

end DoRuntime.Bits
