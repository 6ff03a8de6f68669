import Mathlib.Data.List.Basic

namespace DoRuntime.Js

/-- The 32 bits that an operator makes of a whole number. -/
def bits32 (x : Int) : BitVec 32 := BitVec.ofInt 32 x

/-- `x & y` -/
def bitAnd (x y : Int) : Int := (bits32 x &&& bits32 y).toInt

/-- `x | y` -/
def bitOr (x y : Int) : Int := (bits32 x ||| bits32 y).toInt

/-- `x ^ y` -/
def bitXor (x y : Int) : Int := (bits32 x ^^^ bits32 y).toInt

/-- `~x` -/
def bitNot (x : Int) : Int := (~~~bits32 x).toInt

/-- `x << n` -/
def shiftLeft (x : Int) (n : Nat) : Int := (bits32 x <<< (n % 32)).toInt

/-- `x >>> n` -/
def shiftRightUnsigned (x : Int) (n : Nat) : Int := (bits32 x >>> (n % 32)).toNat

/-- `for (let i = start; i < stop; i++)` -/
def forRange (start stop : Nat) (body : σ → Nat → Except ε σ) (state : σ) : Except ε σ :=
  (List.range' start (stop - start)).foldlM body state

section Bits

variable (x y : Int) (n : Nat)

@[simp]
theorem bits32_toInt (w : BitVec 32) : bits32 w.toInt = w := BitVec.ofInt_toInt

@[simp]
theorem bits32_toNat (w : BitVec 32) : bits32 w.toNat = w := by
  unfold bits32
  rw [BitVec.ofInt_natCast, BitVec.ofNat_toNat, BitVec.setWidth_eq]

@[simp]
theorem bits32_add : bits32 (x + y) = bits32 x + bits32 y := BitVec.ofInt_add x y

@[simp]
theorem bits32_bitAnd : bits32 (bitAnd x y) = bits32 x &&& bits32 y := bits32_toInt _

@[simp]
theorem bits32_bitOr : bits32 (bitOr x y) = bits32 x ||| bits32 y := bits32_toInt _

@[simp]
theorem bits32_bitXor : bits32 (bitXor x y) = bits32 x ^^^ bits32 y := bits32_toInt _

@[simp]
theorem bits32_bitNot : bits32 (bitNot x) = ~~~bits32 x := bits32_toInt _

@[simp]
theorem bits32_shiftLeft : bits32 (shiftLeft x n) = bits32 x <<< (n % 32) := bits32_toInt _

@[simp]
theorem bits32_shiftRightUnsigned : bits32 (shiftRightUnsigned x n) = bits32 x >>> (n % 32) := bits32_toNat _

/-- `x >>> 0` -/
@[simp]
theorem shiftRightUnsigned_zero : shiftRightUnsigned x 0 = (bits32 x).toNat := by
  unfold shiftRightUnsigned
  rw [Nat.zero_mod, BitVec.ushiftRight_zero]

end Bits

/-- What each turn keeps holds behind the loop. -/
theorem forRange_keeps {body : σ → Nat → Except ε σ} {start stop : Nat} (Inv : Nat → σ → Prop)
    (ordered : start ≤ stop)
    (turn : ∀ i s, start ≤ i → i < stop → Inv i s → ∃ t, body s i = .ok t ∧ Inv (i + 1) t)
    {state : σ} (first : Inv start state) : ∃ t, forRange start stop body state = .ok t ∧ Inv stop t := by
  obtain ⟨count, rfl⟩ := Nat.exists_eq_add_of_le ordered
  unfold forRange
  rw [Nat.add_sub_cancel_left]
  clear ordered
  induction count generalizing start state with
  | zero => exact ⟨state, rfl, first⟩
  | succ count ih =>
    obtain ⟨next, done, kept⟩ := turn start state (by omega) (by omega) first
    have later := ih kept fun i s low high => turn i s (by omega) (by omega)
    rw [List.range'_succ, List.foldlM_cons, done]
    rw [show start + 1 + count = start + (count + 1) by omega] at later
    exact later

end DoRuntime.Js
