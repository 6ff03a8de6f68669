import Mathlib.Analysis.SpecialFunctions.Pow.NthRootLemmas
import Mathlib.Data.Nat.Prime.Basic
import DoRuntime.Lib.Bits

/-! SHA-256 as FIPS 180-4 has it, over strings of bits, and HMAC as RFC 2104 has it. -/

namespace DoRuntime.Fips

open Bits

abbrev Word := BitVec 32

def rotR (n : Nat) (x : Word) : Word := x.rotateRight n
def shR (n : Nat) (x : Word) : Word := x >>> n

/-! §4.1.2 -/

def ch (x y z : Word) : Word := (x &&& y) ^^^ (~~~x &&& z)
def maj (x y z : Word) : Word := (x &&& y) ^^^ (x &&& z) ^^^ (y &&& z)
def bigSigma0 (x : Word) : Word := rotR 2 x ^^^ rotR 13 x ^^^ rotR 22 x
def bigSigma1 (x : Word) : Word := rotR 6 x ^^^ rotR 11 x ^^^ rotR 25 x
def smallSigma0 (x : Word) : Word := rotR 7 x ^^^ rotR 18 x ^^^ shR 3 x
def smallSigma1 (x : Word) : Word := rotR 17 x ^^^ rotR 19 x ^^^ shR 10 x

/-- The first sixty-four primes. -/
def primes : List Nat := (List.range 312).filter fun n => n.Prime

/-- The first 32 bits of the fractional part of a root. -/
def rootFraction (k p : Nat) : Word := BitVec.ofNat 32 (Nat.nthRoot k (p * 2 ^ (32 * k)))

/-- §4.2.2 -/
def K (t : Nat) : Word := rootFraction 3 (primes.getD t 0)

structure Hash where
  a : Word
  b : Word
  c : Word
  d : Word
  e : Word
  f : Word
  g : Word
  h : Word
deriving DecidableEq

/-- §5.3.3 -/
def initial : Hash :=
  let H := fun i => rootFraction 2 (primes.getD i 0)
  ⟨H 0, H 1, H 2, H 3, H 4, H 5, H 6, H 7⟩

/-- How many zeros §5.1.1 appends to a message of `l` bits. -/
def zeros (l : Nat) : Nat := (959 - l % 512) % 512

def pad (message : List Bool) : List Bool :=
  message ++ true :: List.replicate (zeros message.length) false ++ ofNat 64 message.length

/-- §5.2.1: the words of the `i`th block. -/
def blockWord (padded : List Bool) (i j : Nat) : Word :=
  BitVec.ofNat 32 (value ((padded.drop (512 * i + 32 * j)).take 32))

/-- §6.2.2, step 1. -/
def schedule (M : Nat → Word) (t : Nat) : Word :=
  if t < 16 then M t
  else smallSigma1 (schedule M (t - 2)) + schedule M (t - 7) + smallSigma0 (schedule M (t - 15)) + schedule M (t - 16)

/-- Step 3. -/
def round (M : Nat → Word) (v : Hash) (t : Nat) : Hash :=
  let T1 := v.h + bigSigma1 v.e + ch v.e v.f v.g + K t + schedule M t
  let T2 := bigSigma0 v.a + maj v.a v.b v.c
  { a := T1 + T2, b := v.a, c := v.b, d := v.c, e := v.d + T1, f := v.e, g := v.f, h := v.g }

/-- Steps 2 to 4. -/
def compress (M : Nat → Word) (H : Hash) : Hash :=
  let v := (List.range 64).foldl (round M) H
  ⟨v.a + H.a, v.b + H.b, v.c + H.c, v.d + H.d, v.e + H.e, v.f + H.f, v.g + H.g, v.h + H.h⟩

def Hash.words (H : Hash) : List Word := [H.a, H.b, H.c, H.d, H.e, H.f, H.g, H.h]

def sha256 (message : List Bool) : List Bool :=
  let padded := pad message
  let H := (List.range (padded.length / 512)).foldl (fun H i => compress (blockWord padded i) H) initial
  H.words.flatMap fun word => ofNat 32 word.toNat

def sha256Bytes (message : List UInt8) : List UInt8 := toBytes (sha256 (ofBytes message))

/-- RFC 2104, §2, with the block length `B`. -/
def hmac (H : List UInt8 → List UInt8) (B : Nat) (key text : List UInt8) : List UInt8 :=
  let key := if key.length > B then H key else key
  let block := key ++ List.replicate (B - key.length) 0
  H (block.map (· ^^^ 0x5c) ++ H (block.map (· ^^^ 0x36) ++ text))

/-- The zeros fill the last block, and no fewer do. -/
theorem zeros_least (l : Nat) : (l + 1 + zeros l) % 512 = 448 ∧ ∀ k, (l + 1 + k) % 512 = 448 → zeros l ≤ k := by
  unfold zeros
  constructor
  · omega
  · intro k fills
    omega

theorem primes_eq : primes = [2, 3, 5, 7, 11, 13, 17, 19, 23, 29, 31, 37, 41, 43, 47, 53, 59, 61, 67, 71, 73, 79, 83,
    89, 97, 101, 103, 107, 109, 113, 127, 131, 137, 139, 149, 151, 157, 163, 167, 173, 179, 181, 191, 193, 197, 199,
    211, 223, 227, 229, 233, 239, 241, 251, 257, 263, 269, 271, 277, 281, 283, 293, 307, 311] := by
  have checked : ∀ n ∈ List.range 312, decide n.Prime = decide (2 ≤ n ∧ ∀ m < n, m ∣ n → m = 1) := by
    intro n _
    exact decide_eq_decide.2 Nat.prime_def_lt
  unfold primes
  rw [List.filter_congr checked]
  decide +kernel

theorem rootFraction_eq {k p root : Nat} (index : k ≠ 0) (low : root ^ k ≤ p * 2 ^ (32 * k))
    (high : p * 2 ^ (32 * k) < (root + 1) ^ k) : rootFraction k p = BitVec.ofNat 32 root := by
  have least := (Nat.le_nthRoot_iff index).2 low
  have most := (Nat.nthRoot_lt_iff index).2 high
  have same : Nat.nthRoot k (p * 2 ^ (32 * k)) = root := by omega
  rw [rootFraction, same]

end DoRuntime.Fips
