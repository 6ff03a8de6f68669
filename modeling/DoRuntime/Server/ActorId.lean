import DoRuntime.Js.JsonImage
import DoRuntime.Server.DigestExact

namespace DoRuntime.Server.ActorIds

open Js Digest

def jurisdictionUnimplementedMessage : String := "Jurisdiction restrictions are not implemented in workerd."

def invalidActorIdMessage : String := "Invalid Durable Object ID: must be 64 hex digits"

def wrongNamespaceActorIdMessage : String := "Durable Object ID is not valid for this namespace."

inductive Thrown where
  | digest (failure : Failure)
  | error (message : String)
  | typeError (message : String)
deriving DecidableEq

def baseLength : Nat := digestLength / 2

def workingLength : Nat := baseLength + digestLength

/-- `encoder.encode` -/
def utf8 (s : JsString) : Uint8Array := (encode s).map UInt8.ofNat

def lifted (digest : Except Failure α) : Except Thrown α := digest.mapError .digest

/-- `byte.toString(16).padStart(2, "0")` -/
def hexByte (byte : UInt8) : JsString :=
  let digits := if byte.toNat < 16 then [hexDigit byte.toNat] else [hexDigit (byte.toNat / 16), hexDigit (byte.toNat % 16)]
  List.replicate (2 - digits.length) 48 ++ digits

structure ActorIdImpl where
  id : Uint8Array
  name : Option JsString
  sized : id.length = digestLength

/-- The constructor. -/
def ActorIdImpl.make (id : Uint8Array) (name : Option JsString) : Except Thrown ActorIdImpl :=
  if short : id.length < digestLength then
    .error (.error s!"an actor id is {digestLength} bytes, and this buffer holds {id.length}")
  else .ok { id := id.take digestLength, name, sized := by rw [List.length_take]; omega }

def ActorIdImpl.toString (actorId : ActorIdImpl) : JsString := actorId.id.flatMap hexByte

def ActorIdImpl.equals (actorId other : ActorIdImpl) : Bool :=
  (List.range digestLength).all fun i => actorId.id[i]? == other.id[i]?

structure ActorIdFactoryImpl where
  key : Uint8Array
  sized : key.length = digestLength

def ActorIdFactoryImpl.ofKey (uniqueKey : Uint8Array) : Except Thrown ActorIdFactoryImpl :=
  if sized : uniqueKey.length = digestLength then .ok { key := uniqueKey, sized }
  else .error (.error s!"an actor id factory key is {digestLength} bytes")

/-- The constructor for a namespace's configured key. -/
def ActorIdFactoryImpl.ofName (uniqueKey : JsString) : Except Thrown ActorIdFactoryImpl := do
  ofKey (← lifted (sha256 (utf8 uniqueKey)))

namespace ActorIdFactoryImpl

variable (factory : ActorIdFactoryImpl)

def computeMac (id : Uint8Array) : Except Thrown Uint8Array :=
  lifted do setBytes id (← hmacSha256 factory.key (id.take baseLength)) baseLength

/-- What `getRandomValues` fills the first half with is given. -/
def newUniqueId (entropy : Uint8Array) (jurisdiction : Option JsString) : Except Thrown ActorIdImpl := do
  if jurisdiction.isSome then throw (.error jurisdictionUnimplementedMessage)
  let id ← lifted (setBytes (List.replicate workingLength 0) (entropy.take baseLength) 0)
  ActorIdImpl.make (← factory.computeMac id) none

def idFromName (name : JsString) : Except Thrown ActorIdImpl := do
  let id ← lifted do setBytes (List.replicate workingLength 0) (← hmacSha256 factory.key (utf8 name)) 0
  ActorIdImpl.make (← factory.computeMac id) (some name)

/-- `/^[0-9a-fA-F]{64}$/` -/
def isActorIdText (str : JsString) : Bool := str.length == 64 && str.all fun c => (hexValue c).isSome

/-- `Number.parseInt` of hexadecimal digits. -/
def parseHex (digits : JsString) : Nat := digits.foldl (fun n c => n * 16 + (hexValue c).getD 0) 0

def decodeHex (str : JsString) : Uint8Array :=
  (List.range digestLength).map fun i => UInt8.ofNat (parseHex ((str.drop (i * 2)).take 2))

def idFromString (str : JsString) : Except Thrown ActorIdImpl := do
  if !isActorIdText str then throw (.typeError invalidActorIdMessage)
  let decoded := decodeHex str
  let id ← lifted (setBytes (List.replicate workingLength 0) (decoded.take baseLength) 0)
  let id ← factory.computeMac id
  if (List.range (digestLength - baseLength)).any fun i => id[baseLength + i]? != decoded[baseLength + i]? then
    throw (.typeError wrongNamespaceActorIdMessage)
  ActorIdImpl.make id none

def cloneWithJurisdiction (maybeJurisdiction : Option JsString) : Except Thrown ActorIdFactoryImpl :=
  match maybeJurisdiction with
  | none => ofKey factory.key
  | some _ => .error (.error jurisdictionUnimplementedMessage)

end ActorIdFactoryImpl

open ActorIdFactoryImpl

/-- `HMAC(SHA256(uniqueKey), text)`, its first half. -/
def mac (uniqueKey : JsString) (text : Uint8Array) : Uint8Array :=
  (Fips.hmac Fips.sha256Bytes blockLength (Fips.sha256Bytes (utf8 uniqueKey)) text).take baseLength

def hex (bytes : Uint8Array) : JsString :=
  bytes.flatMap fun byte => [hexDigit (byte.toNat / 16), hexDigit (byte.toNat % 16)]

def idText (uniqueKey : JsString) (base : Uint8Array) : JsString := hex (base ++ mac uniqueKey base)

/-- The second half is the code of the first, in whatever case. -/
def Genuine (uniqueKey str : JsString) : Prop :=
  ∃ base, base.length = baseLength ∧ toLowerCase str = idText uniqueKey base

def NamesExactly (uniqueKey name : JsString) : Prop :=
  (do return (← (← ofName uniqueKey).idFromName name).toString) = Except.ok (idText uniqueKey (mac uniqueKey (utf8 name)))

def StringsExactly (uniqueKey : JsString) : Prop :=
  ∀ str, ((∃ id, (do (← ofName uniqueKey).idFromString str) = .ok id) ↔ Genuine uniqueKey str) ∧
    ∀ id, (do (← ofName uniqueKey).idFromString str) = .ok id → id.toString = toLowerCase str ∧
      ∀ other : ActorIdImpl, other.toString = toLowerCase str → id.equals other = true

variable {k n s : JsString} {factory : ActorIdFactoryImpl} {base : Uint8Array}

theorem hexByte_eq (byte : UInt8) : hexByte byte = [hexDigit (byte.toNat / 16), hexDigit (byte.toNat % 16)] := by
  unfold hexByte
  split
  next small =>
    rw [Nat.div_eq_of_lt small, Nat.mod_eq_of_lt small]
    rfl
  next => rfl

theorem toString_eq (actorId : ActorIdImpl) : actorId.toString = hex actorId.id := by
  unfold ActorIdImpl.toString hex
  congr 1
  funext byte
  exact hexByte_eq byte

theorem hexDigit_inj : ∀ d < 16, ∀ e < 16, hexDigit d = hexDigit e → d = e := by decide

theorem hex_injective {left right : Uint8Array} (same : hex left = hex right) : left = right := by
  induction left generalizing right with
  | nil =>
    cases right with
    | nil => rfl
    | cons byte rest => cases same
  | cons byte rest ih =>
    cases right with
    | nil => cases same
    | cons other more =>
      have bytes : byte.toNat < 256 ∧ other.toNat < 256 := ⟨byte.toNat_lt, other.toNat_lt⟩
      rw [hex, hex, List.flatMap_cons, List.flatMap_cons, ← hex, ← hex] at same
      injection same with high same
      injection same with low same
      have high := hexDigit_inj _ (by omega) _ (by omega) high
      have low := hexDigit_inj _ (by omega) _ (by omega) low
      have equal : byte = other := UInt8.toNat_inj.1 (by omega)
      rw [equal, ih same]

theorem hexValue_table : ∀ c < 128, (hexValue c).all fun d => d < 16 && hexDigit d == lowerUnit c := by decide

theorem hexValue_large {c : Nat} (large : 128 ≤ c) : hexValue c = none := by
  have digit : ¬ (48 ≤ c ∧ c ≤ 57) := by omega
  have small : ¬ (97 ≤ c ∧ c ≤ 102) := by omega
  have capital : ¬ (65 ≤ c ∧ c ≤ 70) := by omega
  unfold hexValue
  simp only [isDigit, Bool.and_eq_true, decide_eq_true_eq]
  rw [if_neg digit, if_neg small, if_neg capital]

theorem hexValue_some {c d : Nat} (found : hexValue c = some d) : d < 16 ∧ hexDigit d = lowerUnit c := by
  by_cases large : 128 ≤ c
  · rw [hexValue_large large] at found
    cases found
  · have entry := hexValue_table c (Nat.lt_of_not_le large)
    rw [found, Option.all_some, Bool.and_eq_true, decide_eq_true_eq, beq_iff_eq] at entry
    exact entry

theorem hexValue_of_lower : ∀ d < 16, ∀ c < 128, lowerUnit c = hexDigit d → (hexValue c).isSome := by decide +kernel

theorem lowerUnit_large {c : Nat} (large : 128 ≤ c) : lowerUnit c = c := by
  unfold lowerUnit isUpper
  rw [if_neg]
  simp only [Bool.and_eq_true, decide_eq_true_eq]
  omega

theorem hexDigit_small : ∀ d < 16, hexDigit d < 128 := by decide

/-- Two digits make the byte that is written with them. -/
theorem pair_decoded {c d : Nat} (first : (hexValue c).isSome) (second : (hexValue d).isSome) :
    hex [UInt8.ofNat (parseHex [c, d])] = [lowerUnit c, lowerUnit d] := by
  obtain ⟨high, found⟩ := Option.isSome_iff_exists.1 first
  obtain ⟨low, also⟩ := Option.isSome_iff_exists.1 second
  obtain ⟨highSmall, highDigit⟩ := hexValue_some found
  obtain ⟨lowSmall, lowDigit⟩ := hexValue_some also
  have number : parseHex [c, d] = high * 16 + low := by
    simp [parseHex, found, also]
  have byte : (UInt8.ofNat (parseHex [c, d])).toNat = high * 16 + low := by
    rw [number]
    exact UInt8.toNat_ofNat_of_lt (show high * 16 + low < 2 ^ 8 by omega)
  have quotient : (high * 16 + low) / 16 = high := by omega
  have remainder : (high * 16 + low) % 16 = low := by omega
  simp only [hex, List.flatMap_cons, List.flatMap_nil, List.append_nil, byte, quotient, remainder, highDigit, lowDigit]

theorem pairs_decoded (count : Nat) (length : s.length = 2 * count) (digits : ∀ c ∈ s, (hexValue c).isSome) :
    hex ((List.range count).map fun i => UInt8.ofNat (parseHex ((s.drop (i * 2)).take 2))) = toLowerCase s := by
  induction count generalizing s with
  | zero =>
    rw [List.eq_nil_of_length_eq_zero (by omega : s.length = 0)]
    rfl
  | succ count ih =>
    match s, length with
    | c :: d :: rest, length =>
      simp only [List.mem_cons, forall_eq_or_imp] at digits
      have later := ih (s := rest) (by simp only [List.length_cons] at length; omega) digits.2.2
      have shifted : ((List.range count).map Nat.succ).map (fun i =>
          UInt8.ofNat (parseHex (((c :: d :: rest).drop (i * 2)).take 2))) =
          (List.range count).map fun i => UInt8.ofNat (parseHex ((rest.drop (i * 2)).take 2)) := by
        rw [List.map_map]
        apply List.map_congr_left
        intro i _
        show UInt8.ofNat (parseHex (((c :: d :: rest).drop ((i + 1) * 2)).take 2)) = _
        rw [Nat.add_mul, Nat.one_mul]
        rfl
      have head := pair_decoded digits.1 digits.2.1
      rw [List.range_succ_eq_map, List.map_cons, shifted, toLowerCase, List.map_cons, List.map_cons, ← toLowerCase, ← later]
      exact congrArg (· ++ _) head

theorem hex_decodeHex (text : isActorIdText s = true) : hex (decodeHex s) = toLowerCase s := by
  unfold isActorIdText at text
  rw [Bool.and_eq_true, beq_iff_eq, List.all_eq_true] at text
  exact pairs_decoded 32 text.1 text.2

@[simp]
theorem decodeHex_length (str : JsString) : (decodeHex str).length = digestLength := by
  rw [decodeHex, List.length_map, List.length_range]

theorem hex_length (bytes : Uint8Array) : (hex bytes).length = 2 * bytes.length := by
  induction bytes with
  | nil => rfl
  | cons byte rest ih =>
    rw [hex, List.flatMap_cons, ← hex, List.length_append, ih, List.length_cons, List.length_cons, List.length_cons,
      List.length_nil]
    omega

theorem hex_digits {c : Nat} {bytes : Uint8Array} (member : c ∈ hex bytes) : ∃ d < 16, c = hexDigit d := by
  obtain ⟨byte, -, among⟩ := List.mem_flatMap.1 member
  have bound := byte.toNat_lt
  simp only [List.mem_cons, List.not_mem_nil, or_false] at among
  rcases among with high | low
  · exact ⟨byte.toNat / 16, by omega, high⟩
  · exact ⟨byte.toNat % 16, by omega, low⟩

theorem mac_length (uniqueKey : JsString) (text : Uint8Array) : (mac uniqueKey text).length = baseLength := by
  unfold mac Fips.hmac
  rw [List.length_take, sha256Bytes_length]
  rfl

/-- A genuine text is one of 64 digits. -/
theorem Genuine.text (genuine : Genuine k s) : isActorIdText s = true := by
  obtain ⟨base, half, lower⟩ := genuine
  have length : s.length = 64 := by
    have same := congrArg List.length lower
    rw [toLowerCase, List.length_map, idText, hex_length, List.length_append, half, mac_length] at same
    exact same
  unfold isActorIdText
  rw [Bool.and_eq_true, beq_iff_eq, List.all_eq_true]
  refine ⟨length, ?_⟩
  intro c member
  have lowered : lowerUnit c ∈ hex (base ++ mac k base) := by
    rw [← idText, ← lower]
    exact List.mem_map_of_mem member
  obtain ⟨d, small, digit⟩ := hex_digits lowered
  by_cases large : 128 ≤ c
  · rw [lowerUnit_large large] at digit
    have bound := hexDigit_small d small
    rw [← digit] at bound
    exact absurd bound (Nat.not_lt.2 large)
  · exact hexValue_of_lower d small c (Nat.lt_of_not_le large) digit

theorem next_ok {α β : Type} (x : α) (f : α → Except Thrown β) : (Except.ok x >>= f) = f x := rfl

theorem lifted_ok {α : Type} (x : α) : lifted (Except.ok x) = .ok x := rfl

/-- A factory whose key is a digest. -/
def derived (uniqueKey : JsString) : ActorIdFactoryImpl where
  key := Fips.sha256Bytes (utf8 uniqueKey)
  sized := sha256Bytes_length _

theorem ofName_eq (small : (utf8 k).length < lengthLimit) : ofName k = .ok (derived k) := by
  unfold ofName lifted
  rw [sha256_eq small]
  exact dif_pos (sha256Bytes_length _)

theorem ofName_fails (large : lengthLimit ≤ (utf8 k).length) : ofName k = .error (.digest .range) := by
  unfold ofName lifted
  rw [sha256_fails large]
  rfl

theorem room : digestLength < lengthLimit ∧ blockLength + digestLength < lengthLimit := by
  rw [lengthLimit_eq]
  decide

theorem computeMac_eq {tail : Uint8Array} (half : base.length = baseLength) (rest : tail.length = digestLength) :
    (derived k).computeMac (base ++ tail) =
      .ok (base ++ Fips.hmac Fips.sha256Bytes blockLength (Fips.sha256Bytes (utf8 k)) base) := by
  have digest : (Fips.hmac Fips.sha256Bytes blockLength (Fips.sha256Bytes (utf8 k)) base).length = digestLength :=
    sha256Bytes_length _
  have key : (derived k).key = Fips.sha256Bytes (utf8 k) := rfl
  have front : (base ++ tail).take baseLength = base := List.take_left' half
  have keySmall : (Fips.sha256Bytes (utf8 k)).length < lengthLimit := by
    rw [sha256Bytes_length]
    exact room.1
  have baseSmall : blockLength + base.length < lengthLimit := by
    rw [half]
    exact Nat.lt_trans (by decide) room.2
  have placed := @setBytes_ok _ _ _ [] _ half (rest.trans digest.symm)
  rw [List.append_nil, List.append_nil] at placed
  unfold computeMac lifted
  rw [front, key, hmacSha256_eq keySmall baseSmall]
  show (setBytes (base ++ tail) _ baseLength).mapError Thrown.digest = _
  rw [placed]
  rfl

theorem make_eq {bytes : Uint8Array} (name : Option JsString) (whole : bytes.length = workingLength) :
    ∃ actorId, ActorIdImpl.make bytes name = .ok actorId ∧ actorId.id = bytes.take digestLength := by
  have enough : ¬ bytes.length < digestLength := by
    rw [whole]
    decide
  exact ⟨_, dif_neg enough, rfl⟩

/-- What becomes of a first half. -/
theorem finished (name : Option JsString) {tail : Uint8Array} (half : base.length = baseLength)
    (rest : tail.length = digestLength) :
    ∃ actorId, (do ActorIdImpl.make (← (derived k).computeMac (base ++ tail)) name) = .ok actorId ∧
      actorId.id = base ++ mac k base := by
  have digest : (Fips.hmac Fips.sha256Bytes blockLength (Fips.sha256Bytes (utf8 k)) base).length = digestLength :=
    sha256Bytes_length _
  obtain ⟨actorId, made, id⟩ := @make_eq (base ++ Fips.hmac Fips.sha256Bytes blockLength
    (Fips.sha256Bytes (utf8 k)) base) name (by rw [List.length_append, half, digest]; rfl)
  refine ⟨actorId, ?_, ?_⟩
  · rw [computeMac_eq half rest]
    exact made
  · have split : digestLength = base.length + baseLength := by
      rw [half]
      rfl
    rw [id, split, List.take_length_add_append]
    rfl

theorem filled_eq {front : Uint8Array} (half : front.length = baseLength) :
    setBytes (List.replicate workingLength 0) front 0 = .ok (front ++ List.replicate digestLength 0) := by
  have zeros : List.replicate workingLength (0 : UInt8) =
      [] ++ (List.replicate baseLength 0 ++ List.replicate digestLength 0) := by
    rw [List.nil_append, List.replicate_append_replicate]
    rfl
  rw [zeros]
  exact setBytes_ok rfl (by rw [List.length_replicate, half])

theorem filled_whole {front : Uint8Array} (whole : front.length = digestLength) :
    setBytes (List.replicate workingLength 0) front 0 = .ok (front ++ List.replicate baseLength 0) := by
  have zeros : List.replicate workingLength (0 : UInt8) =
      [] ++ (List.replicate digestLength 0 ++ List.replicate baseLength 0) := by
    rw [List.nil_append, List.replicate_append_replicate]
    rfl
  rw [zeros]
  exact setBytes_ok rfl (by rw [List.length_replicate, whole])

theorem idFromName_eq (small : blockLength + (utf8 n).length < lengthLimit) :
    ∃ actorId, (derived k).idFromName n = .ok actorId ∧ actorId.id = mac k (utf8 n) ++ mac k (mac k (utf8 n)) := by
  generalize named : Fips.hmac Fips.sha256Bytes blockLength (Fips.sha256Bytes (utf8 k)) (utf8 n) = digest
  have whole : digest.length = digestLength := by
    rw [← named]
    exact sha256Bytes_length _
  have front : mac k (utf8 n) = digest.take baseLength := by rw [mac, named]
  have keySmall : (Fips.sha256Bytes (utf8 k)).length < lengthLimit := by
    rw [sha256Bytes_length]
    exact room.1
  have split : digest ++ List.replicate baseLength 0 =
      mac k (utf8 n) ++ (digest.drop baseLength ++ List.replicate baseLength 0) := by
    rw [front, ← List.append_assoc, List.take_append_drop]
  have rest : (digest.drop baseLength ++ List.replicate baseLength 0).length = digestLength := by
    rw [List.length_append, List.length_drop, List.length_replicate, whole]
    rfl
  obtain ⟨actorId, done, id⟩ := finished (k := k) (some n) (mac_length k (utf8 n)) rest
  refine ⟨actorId, ?_, id⟩
  have hashed : hmacSha256 (derived k).key (utf8 n) = .ok digest := by
    rw [← named]
    exact hmacSha256_eq keySmall small
  rw [← split] at done
  have next {β : Type} (f : Uint8Array → Except Failure β) : (Except.ok digest >>= f) = f digest := rfl
  unfold idFromName
  rw [hashed, next, filled_whole whole, lifted_ok, next_ok]
  exact done

theorem idFromName_fails (large : lengthLimit ≤ blockLength + (utf8 n).length) :
    ∀ actorId, (derived k).idFromName n ≠ .ok actorId := by
  intro actorId same
  unfold idFromName lifted at same
  cases hashed : hmacSha256 (derived k).key (utf8 n) with
  | error failure =>
    rw [hashed] at same
    cases same
  | ok digest =>
    have keyShort : (derived k).key.length ≤ blockLength := by
      rw [(derived k).sized]
      decide
    have refused := (hmac_of_key keyShort (utf8 n)).trans (if_neg (Nat.not_lt.2 large))
    unfold hmacSha256 at hashed
    simp only [if_neg (Nat.not_lt.2 keyShort)] at hashed
    cases refused.symm.trans hashed

theorem namesExactly_iff (k n : JsString) :
    NamesExactly k n ↔ (utf8 k).length < lengthLimit ∧ blockLength + (utf8 n).length < lengthLimit := by
  unfold NamesExactly
  by_cases keySmall : (utf8 k).length < lengthLimit
  · rw [ofName_eq keySmall, next_ok]
    by_cases nameSmall : blockLength + (utf8 n).length < lengthLimit
    · obtain ⟨actorId, done, id⟩ := idFromName_eq (k := k) nameSmall
      rw [done, next_ok]
      refine ⟨fun _ => ⟨keySmall, nameSmall⟩, fun _ => ?_⟩
      show Except.ok actorId.toString = _
      rw [toString_eq, id]
      rfl
    · refine ⟨?_, fun small => absurd small.2 nameSmall⟩
      intro same
      obtain ⟨actorId, done⟩ : ∃ actorId, (derived k).idFromName n = .ok actorId := by
        cases result : (derived k).idFromName n with
        | ok actorId => exact ⟨actorId, rfl⟩
        | error failure =>
          rw [result] at same
          cases same
      exact absurd done (idFromName_fails (Nat.le_of_not_lt nameSmall) actorId)
  · rw [ofName_fails (Nat.le_of_not_lt keySmall)]
    refine ⟨?_, fun small => absurd small.1 keySmall⟩
    intro same
    cases same

/-- The loop that compares the second halves. -/
theorem differs_iff {digest : Uint8Array} (decoded : Uint8Array) (half : base.length = baseLength)
    (whole : digest.length = digestLength) (sized : decoded.length = digestLength) :
    ((List.range (digestLength - baseLength)).any fun i =>
      (base ++ digest)[baseLength + i]? != decoded[baseLength + i]?) = true ↔
      digest.take baseLength ≠ decoded.drop baseLength := by
  have at_ (i : Nat) (small : i < baseLength) : (base ++ digest)[baseLength + i]? = (digest.take baseLength)[i]? := by
    rw [List.getElem?_append_right (by omega), half, Nat.add_sub_cancel_left, List.getElem?_take, if_pos small]
  rw [List.any_eq_true]
  constructor
  · rintro ⟨i, among, apart⟩ same
    have small : i < baseLength := List.mem_range.1 among
    rw [at_ i small, same, List.getElem?_drop, bne_self_eq_false] at apart
    cases apart
  · intro apart
    by_contra none
    apply apart
    apply List.ext_getElem?
    intro i
    by_cases small : i < baseLength
    · have same : ¬ ((base ++ digest)[baseLength + i]? != decoded[baseLength + i]?) = true := by
        intro different
        exact none ⟨i, List.mem_range.2 small, different⟩
      rw [← at_ i small, List.getElem?_drop]
      exact eq_of_beq (by simpa using same)
    · have halves : digestLength - baseLength = baseLength := rfl
      rw [List.getElem?_eq_none, List.getElem?_eq_none]
      · rw [List.length_drop]
        omega
      · rw [List.length_take]
        omega

theorem idFromString_fails (other : isActorIdText s = false) :
    factory.idFromString s = .error (.typeError invalidActorIdMessage) := by
  unfold idFromString
  rw [other]
  rfl

theorem idFromString_run (text : isActorIdText s = true) : (derived k).idFromString s =
    if mac k ((decodeHex s).take baseLength) ≠ (decodeHex s).drop baseLength then
      .error (.typeError wrongNamespaceActorIdMessage)
    else ActorIdImpl.make ((decodeHex s).take baseLength ++ Fips.hmac Fips.sha256Bytes blockLength
      (Fips.sha256Bytes (utf8 k)) ((decodeHex s).take baseLength)) none := by
  have half : ((decodeHex s).take baseLength).length = baseLength := by
    rw [List.length_take, decodeHex_length]
    rfl
  have digest : (Fips.hmac Fips.sha256Bytes blockLength (Fips.sha256Bytes (utf8 k))
      ((decodeHex s).take baseLength)).length = digestLength := sha256Bytes_length _
  have filled := filled_eq half
  have coded := computeMac_eq (k := k) half (@List.length_replicate _ digestLength (0 : UInt8))
  have compared := differs_iff (decodeHex s) half digest (decodeHex_length s)
  unfold idFromString
  rw [text]
  dsimp only
  rw [filled, lifted_ok, next_ok, coded, next_ok, Bool.not_true, if_neg Bool.false_ne_true]
  by_cases apart : mac k ((decodeHex s).take baseLength) ≠ (decodeHex s).drop baseLength
  · rw [if_pos (compared.2 apart), if_pos apart]
    rfl
  · rw [if_neg (fun differs => apart (compared.1 differs)), if_neg apart]

theorem idFromString_ok (text : isActorIdText s = true)
    (same : mac k ((decodeHex s).take baseLength) = (decodeHex s).drop baseLength) :
    ∃ actorId, (derived k).idFromString s = .ok actorId ∧ actorId.id = decodeHex s := by
  have half : ((decodeHex s).take baseLength).length = baseLength := by
    rw [List.length_take, decodeHex_length]
    rfl
  have digest : (Fips.hmac Fips.sha256Bytes blockLength (Fips.sha256Bytes (utf8 k))
      ((decodeHex s).take baseLength)).length = digestLength := sha256Bytes_length _
  obtain ⟨actorId, made, id⟩ := @make_eq ((decodeHex s).take baseLength ++ Fips.hmac Fips.sha256Bytes
    blockLength (Fips.sha256Bytes (utf8 k)) ((decodeHex s).take baseLength)) none (by rw [List.length_append, half, digest]; rfl)
  refine ⟨actorId, ?_, ?_⟩
  · rw [idFromString_run text, if_neg (not_not.2 same), made]
  · have split : digestLength = ((decodeHex s).take baseLength).length + baseLength := by
      rw [half]
      rfl
    rw [id, split, List.take_length_add_append, ← mac, same, List.take_append_drop]

theorem idFromString_refuses (text : isActorIdText s = true)
    (apart : mac k ((decodeHex s).take baseLength) ≠ (decodeHex s).drop baseLength) :
    (derived k).idFromString s = .error (.typeError wrongNamespaceActorIdMessage) := by
  rw [idFromString_run text, if_pos apart]

theorem genuine_iff (text : isActorIdText s = true) :
    Genuine k s ↔ mac k ((decodeHex s).take baseLength) = (decodeHex s).drop baseLength := by
  constructor
  · rintro ⟨base, half, lower⟩
    have decoded : decodeHex s = base ++ mac k base := by
      apply hex_injective
      rw [hex_decodeHex text, lower]
      rfl
    rw [decoded, List.take_left' half, List.drop_left' half]
  · intro same
    refine ⟨(decodeHex s).take baseLength, ?_, ?_⟩
    · rw [List.length_take, decodeHex_length]
      rfl
    · rw [idText, same, List.take_append_drop, hex_decodeHex text]

theorem idFromString_iff : (∃ actorId, (derived k).idFromString s = .ok actorId) ↔ Genuine k s := by
  constructor
  · rintro ⟨actorId, done⟩
    cases text : isActorIdText s with
    | false =>
      rw [idFromString_fails text] at done
      cases done
    | true =>
      rw [genuine_iff text]
      by_contra apart
      rw [idFromString_refuses text apart] at done
      cases done
  · intro genuine
    obtain ⟨actorId, done, -⟩ := idFromString_ok genuine.text ((genuine_iff genuine.text).1 genuine)
    exact ⟨actorId, done⟩

theorem equals_of_toString {actorId other : ActorIdImpl} (same : actorId.toString = other.toString) :
    actorId.equals other = true := by
  rw [toString_eq, toString_eq] at same
  unfold ActorIdImpl.equals
  rw [hex_injective same]
  exact List.all_eq_true.2 fun i _ => beq_self_eq_true _

theorem lowerUnit_hexDigit : ∀ d < 16, lowerUnit (hexDigit d) = hexDigit d := by decide

theorem toLowerCase_hex (bytes : Uint8Array) : toLowerCase (hex bytes) = hex bytes := by
  have kept : ∀ c ∈ hex bytes, lowerUnit c = id c := by
    intro c member
    obtain ⟨d, small, rfl⟩ := hex_digits member
    exact lowerUnit_hexDigit d small
  rw [toLowerCase, List.map_congr_left kept, List.map_id]

/-- A key whose digest cannot be taken makes no factory, and then no text is accepted. -/
theorem stringsExactly_iff (k : JsString) : StringsExactly k ↔ (utf8 k).length < lengthLimit := by
  constructor
  · intro exactly
    by_contra large
    have base : (List.replicate baseLength (0 : UInt8)).length = baseLength := List.length_replicate
    obtain ⟨actorId, done⟩ := (exactly (idText k (List.replicate baseLength 0))).1.2 ⟨_, base, toLowerCase_hex _⟩
    rw [ofName_fails (Nat.le_of_not_lt large)] at done
    cases done
  · intro small s
    rw [ofName_eq small, next_ok]
    refine ⟨idFromString_iff, ?_⟩
    intro actorId done
    have genuine : Genuine k s := idFromString_iff.1 ⟨actorId, done⟩
    obtain ⟨made, again, id⟩ := idFromString_ok genuine.text ((genuine_iff genuine.text).1 genuine)
    rw [done] at again
    cases again
    have text : actorId.toString = toLowerCase s := by rw [toString_eq, id, hex_decodeHex genuine.text]
    refine ⟨text, ?_⟩
    intro other same
    exact equals_of_toString (text.trans same.symm)

/-- The digests and the ids are those of the standards exactly where nothing digested is too long for the padded
length to be told in 32 bits. -/
theorem digests_and_ids_iff (message key text : Uint8Array) (k n : JsString) :
    (sha256 message = .ok (Fips.sha256Bytes message) ↔ message.length < lengthLimit) ∧
    (hmacSha256 key text = .ok (Fips.hmac Fips.sha256Bytes blockLength key text) ↔
      key.length < lengthLimit ∧ blockLength + text.length < lengthLimit) ∧
    (NamesExactly k n ↔ (utf8 k).length < lengthLimit ∧ blockLength + (utf8 n).length < lengthLimit) ∧
    (StringsExactly k ↔ (utf8 k).length < lengthLimit) :=
  ⟨sha256_iff message, hmacSha256_iff key text, namesExactly_iff k n, stringsExactly_iff k⟩

theorem refused_of_large {message : Uint8Array} (large : lengthLimit ≤ message.length) :
    sha256 message = .error .range ∧ sha256 message ≠ .ok (Fips.sha256Bytes message) := by
  refine ⟨sha256_fails large, ?_⟩
  rw [sha256_fails large]
  intro same
  cases same

theorem replicate_reaches (n : Nat) : n ≤ (List.replicate n (0 : UInt8)).length := by
  rw [List.length_replicate]

/-- A message of 2³⁷ - 72 bytes: the padded length comes out negative. -/
theorem long_message_refused : sha256 (List.replicate lengthLimit 0) = .error .range ∧
    sha256 (List.replicate lengthLimit 0) ≠ .ok (Fips.sha256Bytes (List.replicate lengthLimit 0)) :=
  refused_of_large (replicate_reaches lengthLimit)

end DoRuntime.Server.ActorIds
