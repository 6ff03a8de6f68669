import DoRuntime.Server.Sha256

namespace DoRuntime.Server.Digest

open Js Bits

theorem rotr_eq (x : Int) {n : Nat} (positive : 0 < n) (small : n < 32) :
    rotr x n = (Fips.rotR n (bits32 x)).toNat := by
  have left : (32 - n) % 32 = 32 - n := Nat.mod_eq_of_lt (by omega)
  unfold rotr Fips.rotR
  rw [shiftRightUnsigned_zero, bits32_bitOr, bits32_shiftRightUnsigned, bits32_shiftLeft, left,
    BitVec.rotateRight_def, Nat.mod_eq_of_lt small]

theorem bits32_rotr (x : Int) {n : Nat} (positive : 0 < n) (small : n < 32) :
    bits32 (rotr x n) = Fips.rotR n (bits32 x) := by
  rw [rotr_eq x positive small, bits32_toNat]

theorem wordAt_ok {array : Uint32Array} {i : Nat} {w : BitVec 32} (here : array[i]? = some w) :
    wordAt array i = .ok (w.toNat : Int) := by
  unfold wordAt
  rw [here]

theorem roundConstants_eq : roundConstants = (List.range 64).map Fips.K := by
  have unfolded : Fips.K = fun t => Fips.rootFraction 3 (Fips.primes.getD t 0) := rfl
  rw [unfolded, Fips.primes_eq]
  decide +kernel

theorem initialHash_eq : initialHash = Fips.initial.words := by
  simp only [Fips.initial, Fips.primes_eq]
  decide +kernel

theorem roundConstants_at {i : Nat} (small : i < 64) : wordAt roundConstants i = .ok ((Fips.K i).toNat : Int) := by
  apply wordAt_ok
  rw [roundConstants_eq, List.getElem?_map, List.getElem?_range small]
  rfl

variable {padded : Uint8Array} {index : Nat} {w : Uint32Array}

theorem getUint32_ok {offset : Nat} (inside : offset + 4 ≤ padded.length) :
    getUint32 padded offset = .ok (value (((ofBytes padded).drop (8 * offset)).take 32) : Nat) := by
  have four : ((padded.drop offset).take 4).length = 4 := by
    rw [List.length_take, List.length_drop]
    omega
  have bits : ((ofBytes padded).drop (8 * offset)).take 32 = ofBytes ((padded.drop offset).take 4) := by
    rw [drop_ofBytes, ← take_ofBytes]
  rw [bits]
  unfold getUint32
  match taken : (padded.drop offset).take 4, four with
  | [a, b, c, d], _ =>
    have whole (x : UInt8) : value (ofNat 8 x.toNat) = x.toNat := by
      rw [value_ofNat]
      exact Nat.mod_eq_of_lt x.toNat_lt
    have total : value (ofBytes [a, b, c, d]) = ((a.toNat * 256 + b.toNat) * 256 + c.toNat) * 256 + d.toNat := by
      simp only [ofBytes, List.flatMap_cons, List.flatMap_nil, List.append_nil, value_append, whole, List.length_append,
        ofNat_length, Nat.reduceAdd, Nat.reducePow]
      omega
    rw [total]

/-- The words of the block that the loop is at. -/
abbrev words (padded : Uint8Array) (index : Nat) : Nat → Fips.Word := Fips.blockWord (ofBytes padded) index

theorem block_inside (inside : index < padded.length / blockLength) {i : Nat} (small : i < 16) :
    index * blockLength + i * 4 + 4 ≤ padded.length := by
  have whole := Nat.div_mul_le_self padded.length blockLength
  have fits : (index + 1) * blockLength ≤ padded.length / blockLength * blockLength := Nat.mul_le_mul_right _ inside
  simp only [blockLength] at *
  omega

/-- The first words of the message schedule are those of the block. -/
theorem loadBlock_eq (inside : index < padded.length / blockLength) :
    ∃ w, forRange 0 16 (fun (w : Uint32Array) i => do
      return w.set i (bits32 (← getUint32 padded (index * blockLength + i * 4)))) (List.replicate 64 0) = .ok w ∧
      w.length = 64 ∧ ∀ j < 16, w[j]? = some (Fips.schedule (words padded index) j) := by
  apply forRange_keeps fun i (w : Uint32Array) => w.length = 64 ∧
    ∀ j < i, w[j]? = some (Fips.schedule (words padded index) j)
  · omega
  · rintro i w - small ⟨length, filled⟩
    have word : Fips.schedule (words padded index) i =
        bits32 (value (((ofBytes padded).drop (8 * (index * blockLength + i * 4))).take 32) : Nat) := by
      rw [Fips.schedule, if_pos small, words, Fips.blockWord, bits32, BitVec.ofInt_natCast]
      congr 4
      simp only [blockLength]
      omega
    refine ⟨_, by rw [getUint32_ok (block_inside inside small)]; rfl, by rw [List.length_set, length], ?_⟩
    intro j before
    by_cases same : j = i
    · rw [same, List.getElem?_set_self (by omega), word]
    · rw [List.getElem?_set_ne (by omega)]
      exact filled j (by omega)
  · exact ⟨List.length_replicate, fun j before => absurd before (Nat.not_lt_zero j)⟩

theorem extendSchedule_eq (M : Nat → Fips.Word) {i : Nat} (late : 16 ≤ i)
    (filled : ∀ j < i, w[j]? = some (Fips.schedule M j)) :
    extendSchedule w i = .ok (w.set i (Fips.schedule M i)) := by
  have word : Fips.schedule M i = Fips.schedule M (i - 16) + Fips.smallSigma0 (Fips.schedule M (i - 15)) +
      Fips.schedule M (i - 7) + Fips.smallSigma1 (Fips.schedule M (i - 2)) := by
    rw [Fips.schedule, if_neg (by omega)]
    ac_rfl
  unfold extendSchedule
  rw [wordAt_ok (filled (i - 15) (by omega)), wordAt_ok (filled (i - 2) (by omega)),
    wordAt_ok (filled (i - 16) (by omega)), wordAt_ok (filled (i - 7) (by omega)), word]
  simp only [bind, Except.bind, pure, Except.pure, shiftRightUnsigned_zero, bits32_toNat, bits32_add, bits32_bitXor,
    bits32_shiftRightUnsigned, bits32_rotr, Nat.reduceMod, Nat.reduceLT, Nat.ofNat_pos, Fips.smallSigma0,
    Fips.smallSigma1, Fips.shR]

theorem schedule_eq (inside : index < padded.length / blockLength) (length : w.length = 64)
    (filled : ∀ j < 16, w[j]? = some (Fips.schedule (words padded index) j)) :
    ∃ w', forRange 16 64 extendSchedule w = .ok w' ∧ ∀ j < 64, w'[j]? = some (Fips.schedule (words padded index) j) := by
  have kept := @forRange_keeps _ _ extendSchedule _ _ (fun i (w : Uint32Array) => w.length = 64 ∧
    ∀ j < i, w[j]? = some (Fips.schedule (words padded index) j)) (show 16 ≤ 64 by decide) ?_ _ ⟨length, filled⟩
  · obtain ⟨w', done, -, whole⟩ := kept
    exact ⟨w', done, whole⟩
  · rintro i w late small ⟨length, filled⟩
    refine ⟨_, extendSchedule_eq _ late filled, by rw [List.length_set, length], ?_⟩
    intro j before
    by_cases same : j = i
    · rw [same, List.getElem?_set_self (by omega)]
    · rw [List.getElem?_set_ne (by omega)]
      exact filled j (by omega)

/-- The working variables as numbers. -/
def numbers (H : Fips.Hash) : Vars where
  a := H.a.toNat
  b := H.b.toNat
  c := H.c.toNat
  d := H.d.toNat
  e := H.e.toNat
  f := H.f.toNat
  g := H.g.toNat
  h := H.h.toNat

theorem round_eq (M : Nat → Fips.Word) (H : Fips.Hash) {i : Nat} (small : i < 64)
    (filled : w[i]? = some (Fips.schedule M i)) : round w (numbers H) i = .ok (numbers (Fips.round M H i)) := by
  unfold round
  rw [roundConstants_at small, wordAt_ok filled]
  simp only [bind, Except.bind, pure, Except.pure, numbers, shiftRightUnsigned_zero, bits32_toNat, bits32_add,
    bits32_bitXor, bits32_bitAnd, bits32_bitNot, bits32_rotr, Nat.reduceLT, Nat.ofNat_pos, Fips.round, Fips.bigSigma0,
    Fips.bigSigma1, Fips.ch, Fips.maj]

theorem rounds_eq (M : Nat → Fips.Word) (H : Fips.Hash) (filled : ∀ j < 64, w[j]? = some (Fips.schedule M j)) :
    forRange 0 64 (round w) (numbers H) = .ok (numbers ((List.range 64).foldl (Fips.round M) H)) := by
  have kept := @forRange_keeps _ _ (round w) _ _
    (fun i v => v = numbers ((List.range i).foldl (Fips.round M) H)) (Nat.zero_le 64) ?_ _ rfl
  · obtain ⟨v, done, rfl⟩ := kept
    exact done
  · rintro i v - small rfl
    refine ⟨_, round_eq M _ small (filled i small), ?_⟩
    rw [List.range_succ, List.foldl_append]
    rfl

theorem addTo_eq {hash : Uint32Array} {i : Nat} {y : BitVec 32} (x : BitVec 32) (here : hash[i]? = some y) :
    addTo i x.toNat hash = .ok (hash.set i (x + y)) := by
  unfold addTo
  rw [wordAt_ok here, BitVec.add_comm x y]
  simp only [bind, Except.bind, pure, Except.pure, shiftRightUnsigned_zero, bits32_toNat, bits32_add]

theorem addAll_eq (v H : Fips.Hash) :
    (addTo 0 (numbers v).a H.words >>= addTo 1 (numbers v).b >>= addTo 2 (numbers v).c >>= addTo 3 (numbers v).d >>=
      addTo 4 (numbers v).e >>= addTo 5 (numbers v).f >>= addTo 6 (numbers v).g >>= addTo 7 (numbers v).h) =
      .ok [v.a + H.a, v.b + H.b, v.c + H.c, v.d + H.d, v.e + H.e, v.f + H.f, v.g + H.g, v.h + H.h] := by
  have next {i : Nat} {before : Except Failure Uint32Array} {hash : Uint32Array} {y : BitVec 32} (x : BitVec 32)
      (reached : before = .ok hash) (here : hash[i]? = some y) :
      (before >>= addTo i x.toNat) = .ok (hash.set i (x + y)) := by
    rw [reached]
    exact addTo_eq x here
  have zero := @addTo_eq H.words 0 _ v.a rfl
  have one := next (i := 1) v.b zero rfl
  have two := next (i := 2) v.c one rfl
  have three := next (i := 3) v.d two rfl
  have four := next (i := 4) v.e three rfl
  have five := next (i := 5) v.f four rfl
  have six := next (i := 6) v.g five rfl
  exact next (i := 7) v.h six rfl

theorem hashBlock_eq (inside : index < padded.length / blockLength) (H : Fips.Hash) :
    hashBlock padded H.words index = .ok (Fips.compress (words padded index) H).words := by
  obtain ⟨first, loaded, length, filled⟩ := loadBlock_eq inside
  obtain ⟨whole, extended, filled⟩ := schedule_eq inside length filled
  unfold hashBlock
  dsimp only
  rw [loaded]
  show (forRange 16 64 extendSchedule first >>= _) = _
  rw [extended]
  show (forRange 0 64 (round whole) (numbers H) >>= _) = _
  rw [rounds_eq (words padded index) H filled]
  exact addAll_eq ((List.range 64).foldl (Fips.round (words padded index)) H) H

theorem blocks_eq : forRange 0 (padded.length / blockLength) (hashBlock padded) initialHash =
    .ok ((List.range (padded.length / blockLength)).foldl (fun H i => Fips.compress (words padded i) H)
      Fips.initial).words := by
  have kept := @forRange_keeps _ _ (hashBlock padded) _ _ (fun i hash =>
    hash = ((List.range i).foldl (fun H i => Fips.compress (words padded i) H) Fips.initial).words)
    (Nat.zero_le (padded.length / blockLength)) ?_ _ initialHash_eq
  · obtain ⟨hash, done, rfl⟩ := kept
    exact done
  · rintro i hash - inside rfl
    refine ⟨_, hashBlock_eq inside _, ?_⟩
    rw [List.range_succ, List.foldl_append]
    rfl

@[simp]
theorem bigEndian_length (count n : Nat) : (bigEndian count n).length = count := by
  induction count with
  | zero => rfl
  | succ count ih => rw [bigEndian, List.length_cons, ih]

theorem ofBytes_bigEndian (count n : Nat) : ofBytes (bigEndian count n) = ofNat (8 * count) n := by
  induction count with
  | zero => rfl
  | succ count ih =>
    have byte : (UInt8.ofNat (n / 256 ^ count)).toNat = n / 2 ^ (8 * count) % 2 ^ 8 := by
      rw [UInt8.toNat_ofNat', Nat.pow_mul]
    rw [bigEndian, ofBytes, List.flatMap_cons, ← ofBytes, ih, byte, ofNat_mod 8 _ le_rfl, Nat.mul_succ,
      Nat.add_comm (8 * count), ofNat_add]

theorem setBytes_ok {bytes old values rest : Uint8Array} {offset : Nat} (place : bytes.length = offset)
    (same : old.length = values.length) :
    setBytes (bytes ++ (old ++ rest)) values offset = .ok (bytes ++ (values ++ rest)) := by
  subst place
  unfold setBytes
  rw [if_pos, List.take_left, ← same, ← List.drop_drop, List.drop_left, List.drop_left, List.append_assoc]
  rw [List.length_append, List.length_append]
  omega

/-- The bytes of some words. -/
def wordBytes (ws : List (BitVec 32)) : Uint8Array := ws.flatMap fun word => bigEndian 4 word.toNat

theorem wordBytes_cons (word : BitVec 32) (rest : List (BitVec 32)) :
    wordBytes (word :: rest) = bigEndian 4 word.toNat ++ wordBytes rest := rfl

theorem wordBytes_length (ws : List (BitVec 32)) : (wordBytes ws).length = ws.length * 4 := by
  induction ws with
  | nil => rfl
  | cons word rest ih =>
    rw [wordBytes_cons, List.length_append, bigEndian_length, ih, List.length_cons]
    omega

theorem writeDigest_eq (H : Fips.Hash) : writeDigest H.words = .ok (wordBytes H.words) := by
  have kept := @forRange_keeps _ _ (fun digest i => do
    setBytes digest (bigEndian 4 (← wordAt H.words i).toNat) (i * 4)) _ _ (fun i digest =>
    digest = wordBytes (H.words.take i) ++ List.replicate (32 - i * 4) 0) (Nat.zero_le 8) ?_ _ rfl
  · obtain ⟨digest, done, rfl⟩ := kept
    exact done
  · rintro i digest - small rfl
    have small : i < H.words.length := small
    have place : (wordBytes (H.words.take i)).length = i * 4 := by
      rw [wordBytes_length, List.length_take]
      omega
    have room : List.replicate (32 - i * 4) (0 : UInt8) =
        List.replicate 4 0 ++ List.replicate (32 - (i + 1) * 4) 0 := by
      rw [List.replicate_append_replicate]
      congr 1
      have eight : H.words.length = 8 := rfl
      omega
    have grown : wordBytes (H.words.take (i + 1)) =
        wordBytes (H.words.take i) ++ bigEndian 4 (H.words.get ⟨i, small⟩).toNat := by
      rw [List.take_succ_eq_append_getElem small, wordBytes, List.flatMap_append]
      rfl
    refine ⟨wordBytes (H.words.take i) ++ (bigEndian 4 (H.words.get ⟨i, small⟩).toNat ++
      List.replicate (32 - (i + 1) * 4) 0), ?_, ?_⟩
    · rw [wordAt_ok (List.getElem?_eq_getElem small), room]
      exact setBytes_ok place (by rw [List.length_replicate, bigEndian_length])
    · rw [grown, List.append_assoc]

theorem wordBytes_eq (ws : List (BitVec 32)) : wordBytes ws = toBytes (ws.flatMap fun word => ofNat 32 word.toNat) := by
  have bits : (ws.flatMap fun word => ofNat 32 word.toNat) = ofBytes (wordBytes ws) := by
    induction ws with
    | nil => rfl
    | cons word rest ih =>
      rw [List.flatMap_cons, ih, wordBytes_cons, ofBytes_append, ofBytes_bigEndian]
  rw [bits, toBytes_ofBytes]

theorem bitOr_zero (x : Int) : bitOr x 0 = (bits32 x).toInt := by
  have zero : bits32 0 = 0#32 := rfl
  unfold bitOr
  rw [zero, BitVec.or_zero]

/-- Below this length the padded length is what it should be. -/
def lengthLimit : Nat := 2 ^ 37 - 72

theorem lengthLimit_eq : lengthLimit = 137438953400 := by
  norm_num [lengthLimit]

theorem bits32_small {n : Nat} (small : n < 2147483648) : (bits32 n).toInt = n := by
  rw [bits32, BitVec.toInt_ofInt]
  unfold Int.bmod
  simp only [Nat.reducePow, Nat.cast_ofNat]
  split <;> omega

theorem bits32_large {n : Nat} (large : 2147483648 ≤ n) : (bits32 n).toInt + 4294967296 ≤ n := by
  rw [bits32, BitVec.toInt_ofInt]
  unfold Int.bmod
  simp only [Nat.reducePow, Nat.cast_ofNat]
  split <;> omega

theorem paddedLength_eq {length : Nat} (small : length < lengthLimit) :
    paddedLength length = ((length + 72) / 64 * 64 : Nat) := by
  rw [lengthLimit_eq] at small
  unfold paddedLength blockLength
  rw [bitOr_zero, bits32_small (by omega)]
  omega

theorem paddedLength_short {length : Nat} (large : lengthLimit ≤ length) : paddedLength length < length := by
  rw [lengthLimit_eq] at large
  have beyond := bits32_large (n := (length + 9 + 63) / 64) (by omega)
  unfold paddedLength blockLength
  rw [bitOr_zero]
  omega

theorem ofBytes_zeros (count : Nat) : ofBytes (List.replicate count 0) = List.replicate (8 * count) false := by
  induction count with
  | zero => rfl
  | succ count ih =>
    have byte : ofNat 8 (0 : UInt8).toNat = List.replicate 8 false := by decide
    rw [List.replicate_succ, ofBytes, List.flatMap_cons, ← ofBytes, ih, byte, List.replicate_append_replicate]
    congr 1
    omega

theorem padded_bits (message : Uint8Array) {fill : Nat} (whole : (message.length + 9 + fill) % 64 = 0)
    (few : fill < 64) :
    ofBytes (message ++ (0x80 :: List.replicate fill 0 ++ bigEndian 8 (message.length * 8))) =
      Fips.pad (ofBytes message) := by
  have mark : ofNat 8 (0x80 : UInt8).toNat = true :: List.replicate 7 false := by decide
  have zeros : Fips.zeros (8 * message.length) = 7 + 8 * fill := by
    unfold Fips.zeros
    omega
  have marked : ofBytes (0x80 :: List.replicate fill 0) = true :: List.replicate (7 + 8 * fill) false := by
    rw [ofBytes, List.flatMap_cons, ← ofBytes, ofBytes_zeros, mark, List.cons_append, List.replicate_append_replicate]
  unfold Fips.pad
  rw [ofBytes_append, ofBytes_append, ofBytes_bigEndian, marked, ofBytes_length, zeros, Nat.mul_comm message.length,
    List.append_assoc]

theorem pad_eq {message : Uint8Array} (small : message.length < lengthLimit) :
    ∃ padded, pad message = .ok padded ∧ ofBytes padded = Fips.pad (ofBytes message) := by
  have total := paddedLength_eq small
  generalize count : (message.length + 72) / 64 = blocks at total
  have fits : message.length + 9 ≤ blocks * 64 := by omega
  obtain ⟨fill, sum⟩ := Nat.exists_eq_add_of_le fits
  have few : fill < 64 := by omega
  have zeros : List.replicate (blocks * 64) (0 : UInt8) =
      List.replicate message.length 0 ++ List.replicate (fill + 9) 0 := by
    rw [List.replicate_append_replicate, sum]
    congr 1
    omega
  have placed : setBytes (List.replicate (blocks * 64) 0) message 0 =
      .ok (message ++ List.replicate (fill + 9) 0) := by
    rw [zeros]
    exact @setBytes_ok [] _ _ _ _ rfl List.length_replicate
  have marked : (message ++ List.replicate (fill + 9) 0).set message.length 0x80 =
      (message ++ 0x80 :: List.replicate fill 0) ++ (List.replicate 8 0 ++ []) := by
    rw [List.set_append_right _ _ le_rfl, Nat.sub_self, List.append_nil, List.append_assoc, List.replicate_succ,
      List.set_cons_zero, List.cons_append, List.replicate_append_replicate]
  have last : (message ++ 0x80 :: List.replicate fill 0).length =
      ((message ++ List.replicate (fill + 9) 0).set message.length 0x80).length - 8 := by
    rw [List.length_set, List.length_append, List.length_append, List.length_cons, List.length_replicate,
      List.length_replicate]
    omega
  have ended := @setBytes_ok _ (List.replicate 8 0) (bigEndian 8 (message.length * 8)) [] _ last (by rw [List.length_replicate, bigEndian_length])
  rw [← marked, List.append_nil, List.append_assoc] at ended
  refine ⟨_, ?_, padded_bits message (by omega) few⟩
  unfold pad zeroed
  rw [total, if_neg (by omega)]
  show (setBytes (List.replicate (blocks * 64) 0) message 0 >>= _) = _
  rw [placed]
  exact ended

theorem sha256_eq {message : Uint8Array} (small : message.length < lengthLimit) :
    sha256 message = .ok (Fips.sha256Bytes message) := by
  obtain ⟨padded, done, bits⟩ := pad_eq small
  have count : (Fips.pad (ofBytes message)).length / 512 = padded.length / blockLength := by
    rw [← bits, ofBytes_length, blockLength]
    omega
  unfold sha256 Fips.sha256Bytes Fips.sha256
  rw [done]
  show (forRange 0 (padded.length / blockLength) (hashBlock padded) initialHash >>= writeDigest) = _
  have next (hash : Uint32Array) : (Except.ok hash >>= writeDigest) = writeDigest hash := rfl
  rw [blocks_eq, next, writeDigest_eq, wordBytes_eq]
  dsimp only
  rw [count, ← bits]

theorem sha256_fails {message : Uint8Array} (large : lengthLimit ≤ message.length) :
    sha256 message = .error .range := by
  have short := paddedLength_short large
  unfold sha256 pad zeroed
  split
  · rfl
  next whole =>
    have outside : setBytes (List.replicate (paddedLength message.length).toNat 0) message 0 = .error .range := by
      unfold setBytes
      rw [if_neg]
      rw [List.length_replicate]
      omega
    show ((setBytes (List.replicate (paddedLength message.length).toNat 0) message 0 >>= _) >>= _) = _
    rw [outside]
    rfl

theorem sha256_iff (message : Uint8Array) :
    sha256 message = .ok (Fips.sha256Bytes message) ↔ message.length < lengthLimit := by
  constructor
  · intro same
    by_contra large
    rw [sha256_fails (Nat.le_of_not_lt large)] at same
    cases same
  · exact sha256_eq

theorem sha256Bytes_length (message : Uint8Array) : (Fips.sha256Bytes message).length = 32 := by
  simp [Fips.sha256Bytes, toBytes, Fips.sha256, Fips.Hash.words]

theorem keyBlock_eq {key : Uint8Array} (short : key.length ≤ blockLength) :
    setBytes (List.replicate blockLength 0) key 0 = .ok (key ++ List.replicate (blockLength - key.length) 0) := by
  have zeros : List.replicate blockLength (0 : UInt8) =
      [] ++ (List.replicate key.length 0 ++ List.replicate (blockLength - key.length) 0) := by
    rw [List.nil_append, List.replicate_append_replicate, Nat.add_sub_cancel' short]
  rw [zeros]
  exact setBytes_ok rfl List.length_replicate

theorem hmac_of_key {key : Uint8Array} (short : key.length ≤ blockLength) (text : Uint8Array) :
    (do
      let block ← setBytes (List.replicate blockLength 0) key 0
      sha256 (block.map (· ^^^ 0x5c) ++ (← sha256 (block.map (· ^^^ 0x36) ++ text)))) =
      if blockLength + text.length < lengthLimit then
        .ok (Fips.sha256Bytes ((key ++ List.replicate (blockLength - key.length) 0).map (· ^^^ 0x5c) ++
          Fips.sha256Bytes ((key ++ List.replicate (blockLength - key.length) 0).map (· ^^^ 0x36) ++ text)))
      else .error .range := by
  have next {α β : Type} (x : α) (f : α → Except Failure β) : (Except.ok x >>= f) = f x := rfl
  have sized (mask : UInt8) :
      ((key ++ List.replicate (blockLength - key.length) 0).map (· ^^^ mask)).length = blockLength := by
    rw [List.length_map, List.length_append, List.length_replicate]
    omega
  rw [keyBlock_eq short, next]
  split
  next small =>
    have outer : blockLength + 32 < lengthLimit := by
      rw [lengthLimit_eq]
      decide
    rw [sha256_eq (by rw [List.length_append, sized]; exact small), next,
      sha256_eq (by rw [List.length_append, sized, sha256Bytes_length]; exact outer)]
  next large =>
    rw [sha256_fails (by rw [List.length_append, sized]; exact Nat.le_of_not_lt large)]
    rfl

theorem hmacSha256_eq {key text : Uint8Array} (keySmall : key.length < lengthLimit)
    (textSmall : blockLength + text.length < lengthLimit) :
    hmacSha256 key text = .ok (Fips.hmac Fips.sha256Bytes blockLength key text) := by
  unfold hmacSha256 Fips.hmac
  by_cases long : key.length > blockLength
  · have short : (Fips.sha256Bytes key).length ≤ blockLength := by
      rw [sha256Bytes_length]
      decide
    simp only [if_pos long, sha256_eq keySmall]
    exact (hmac_of_key short text).trans (if_pos textSmall)
  · simp only [if_neg long]
    exact (hmac_of_key (Nat.le_of_not_lt long) text).trans (if_pos textSmall)

theorem hmacSha256_iff (key text : Uint8Array) :
    hmacSha256 key text = .ok (Fips.hmac Fips.sha256Bytes blockLength key text) ↔
      key.length < lengthLimit ∧ blockLength + text.length < lengthLimit := by
  constructor
  · intro same
    have room : blockLength < lengthLimit := by
      rw [lengthLimit_eq]
      decide
    unfold hmacSha256 at same
    by_cases long : key.length > blockLength
    · simp only [if_pos long] at same
      by_cases keySmall : key.length < lengthLimit
      · refine ⟨keySmall, ?_⟩
        by_contra large
        have short : (Fips.sha256Bytes key).length ≤ blockLength := by
          rw [sha256Bytes_length]
          decide
        rw [sha256_eq keySmall] at same
        cases ((hmac_of_key short text).trans (if_neg large)).symm.trans same
      · rw [sha256_fails (Nat.le_of_not_lt keySmall)] at same
        cases same
    · refine ⟨Nat.lt_of_le_of_lt (Nat.le_of_not_lt long) room, ?_⟩
      by_contra large
      simp only [if_neg long] at same
      cases ((hmac_of_key (Nat.le_of_not_lt long) text).trans (if_neg large)).symm.trans same
  · rintro ⟨keySmall, textSmall⟩
    exact hmacSha256_eq keySmall textSmall

end DoRuntime.Server.Digest
