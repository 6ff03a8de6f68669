import DoRuntime.Js.Operators
import DoRuntime.Lib.Sha256

namespace DoRuntime.Server.Digest

open Js

inductive Failure where
  | outsideArray
  | range
deriving DecidableEq

abbrev Uint8Array := List UInt8

abbrev Uint32Array := List (BitVec 32)

def digestLength : Nat := 32

def blockLength : Nat := 64

/-- `K` -/
def roundConstants : Uint32Array := [
  0x428a2f98, 0x71374491, 0xb5c0fbcf, 0xe9b5dba5, 0x3956c25b, 0x59f111f1, 0x923f82a4, 0xab1c5ed5,
  0xd807aa98, 0x12835b01, 0x243185be, 0x550c7dc3, 0x72be5d74, 0x80deb1fe, 0x9bdc06a7, 0xc19bf174,
  0xe49b69c1, 0xefbe4786, 0x0fc19dc6, 0x240ca1cc, 0x2de92c6f, 0x4a7484aa, 0x5cb0a9dc, 0x76f988da,
  0x983e5152, 0xa831c66d, 0xb00327c8, 0xbf597fc7, 0xc6e00bf3, 0xd5a79147, 0x06ca6351, 0x14292967,
  0x27b70a85, 0x2e1b2138, 0x4d2c6dfc, 0x53380d13, 0x650a7354, 0x766a0abb, 0x81c2c92e, 0x92722c85,
  0xa2bfe8a1, 0xa81a664b, 0xc24b8b70, 0xc76c51a3, 0xd192e819, 0xd6990624, 0xf40e3585, 0x106aa070,
  0x19a4c116, 0x1e376c08, 0x2748774c, 0x34b0bcb5, 0x391c0cb3, 0x4ed8aa4a, 0x5b9cca4f, 0x682e6ff3,
  0x748f82ee, 0x78a5636f, 0x84c87814, 0x8cc70208, 0x90befffa, 0xa4506ceb, 0xbef9a3f7, 0xc67178f2]

def initialHash : Uint32Array := [
  0x6a09e667, 0xbb67ae85, 0x3c6ef372, 0xa54ff53a, 0x510e527f, 0x9b05688c, 0x1f83d9ab, 0x5be0cd19]

/-- `at` -/
def wordAt (array : Uint32Array) (index : Nat) : Except Failure Int :=
  match array[index]? with
  | some value => .ok value.toNat
  | none => .error .outsideArray

def rotr (value : Int) (bits : Nat) : Int :=
  shiftRightUnsigned (bitOr (shiftRightUnsigned value bits) (shiftLeft value (32 - bits))) 0

/-- `view.getUint32(offset, false)` -/
def getUint32 (bytes : Uint8Array) (offset : Nat) : Except Failure Int :=
  match (bytes.drop offset).take 4 with
  | [a, b, c, d] => .ok (((a.toNat * 256 + b.toNat) * 256 + c.toNat) * 256 + d.toNat : Nat)
  | _ => .error .range

/-- The bytes of a number, the highest first. -/
def bigEndian : Nat → Nat → Uint8Array
  | 0, _ => []
  | count + 1, n => UInt8.ofNat (n / 256 ^ count) :: bigEndian count n

/-- `set(values, offset)` -/
def setBytes (bytes values : Uint8Array) (offset : Nat) : Except Failure Uint8Array :=
  if offset + values.length ≤ bytes.length then
    .ok (bytes.take offset ++ values ++ bytes.drop (offset + values.length))
  else .error .range

/-- `(Math.ceil((length + 9) / BLOCK_LENGTH) | 0) * BLOCK_LENGTH` -/
def paddedLength (length : Nat) : Int := bitOr (((length + 9 + 63) / 64 : Nat) : Int) 0 * blockLength

/-- `new Uint8Array(length)` -/
def zeroed (length : Int) : Except Failure Uint8Array :=
  if length < 0 then .error .range else .ok (List.replicate length.toNat 0)

def pad (message : Uint8Array) : Except Failure Uint8Array := do
  let padded ← zeroed (paddedLength message.length)
  let padded ← setBytes padded message 0
  let padded := padded.set message.length 0x80
  setBytes padded (bigEndian 8 (message.length * 8)) (padded.length - 8)

structure Vars where
  a : Int
  b : Int
  c : Int
  d : Int
  e : Int
  f : Int
  g : Int
  h : Int

/-- One turn of the loop that extends the message schedule. -/
def extendSchedule (w : Uint32Array) (i : Nat) : Except Failure Uint32Array := do
  let w15 ← wordAt w (i - 15)
  let w2 ← wordAt w (i - 2)
  let s0 := shiftRightUnsigned (bitXor (bitXor (rotr w15 7) (rotr w15 18)) (shiftRightUnsigned w15 3)) 0
  let s1 := shiftRightUnsigned (bitXor (bitXor (rotr w2 17) (rotr w2 19)) (shiftRightUnsigned w2 10)) 0
  return w.set i (bits32 (shiftRightUnsigned ((← wordAt w (i - 16)) + s0 + (← wordAt w (i - 7)) + s1) 0))

/-- One turn of the loop over the rounds. -/
def round (w : Uint32Array) (v : Vars) (i : Nat) : Except Failure Vars := do
  let sigma1 := shiftRightUnsigned (bitXor (bitXor (rotr v.e 6) (rotr v.e 11)) (rotr v.e 25)) 0
  let choice := shiftRightUnsigned (bitXor (bitAnd v.e v.f) (bitAnd (bitNot v.e) v.g)) 0
  let temp1 := shiftRightUnsigned (v.h + sigma1 + choice + (← wordAt roundConstants i) + (← wordAt w i)) 0
  let sigma0 := shiftRightUnsigned (bitXor (bitXor (rotr v.a 2) (rotr v.a 13)) (rotr v.a 22)) 0
  let majority := shiftRightUnsigned (bitXor (bitXor (bitAnd v.a v.b) (bitAnd v.a v.c)) (bitAnd v.b v.c)) 0
  let temp2 := shiftRightUnsigned (sigma0 + majority) 0
  return {
    h := v.g, g := v.f, f := v.e, e := shiftRightUnsigned (v.d + temp1) 0
    d := v.c, c := v.b, b := v.a, a := shiftRightUnsigned (temp1 + temp2) 0 }

/-- `hash[i] = (at(hash, i) + x) >>> 0` -/
def addTo (i : Nat) (x : Int) (hash : Uint32Array) : Except Failure Uint32Array := do
  return hash.set i (bits32 (shiftRightUnsigned ((← wordAt hash i) + x) 0))

/-- One turn of the loop over the blocks. -/
def hashBlock (padded : Uint8Array) (hash : Uint32Array) (index : Nat) : Except Failure Uint32Array := do
  let block := index * blockLength
  let w ← forRange 0 16 (fun (w : Uint32Array) i => do return w.set i (bits32 (← getUint32 padded (block + i * 4))))
    (List.replicate 64 0)
  let w ← forRange 16 64 extendSchedule w
  let v : Vars := {
    a := ← wordAt hash 0, b := ← wordAt hash 1, c := ← wordAt hash 2, d := ← wordAt hash 3
    e := ← wordAt hash 4, f := ← wordAt hash 5, g := ← wordAt hash 6, h := ← wordAt hash 7 }
  let v ← forRange 0 64 (round w) v
  addTo 0 v.a hash >>= addTo 1 v.b >>= addTo 2 v.c >>= addTo 3 v.d >>= addTo 4 v.e >>= addTo 5 v.f >>=
    addTo 6 v.g >>= addTo 7 v.h

/-- `setUint32(i * 4, at(hash, i), false)` for each word. -/
def writeDigest (hash : Uint32Array) : Except Failure Uint8Array :=
  forRange 0 8 (fun digest i => do setBytes digest (bigEndian 4 (← wordAt hash i).toNat) (i * 4))
    (List.replicate digestLength 0)

def sha256 (message : Uint8Array) : Except Failure Uint8Array := do
  let padded ← pad message
  let hash ← forRange 0 (padded.length / blockLength) (hashBlock padded) initialHash
  writeDigest hash

def hmacSha256 (key message : Uint8Array) : Except Failure Uint8Array := do
  let block ← setBytes (List.replicate blockLength 0) (← if key.length > blockLength then sha256 key else .ok key) 0
  let inner := block.map (· ^^^ 0x36)
  let outer := block.map (· ^^^ 0x5c)
  sha256 (outer ++ (← sha256 (inner ++ message)))

end DoRuntime.Server.Digest
