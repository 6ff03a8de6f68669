import DoRuntime.Js.Base64
import DoRuntime.Js.JsonImage

namespace DoRuntime.Browser.ChromePort

open Js

structure ArrayBufferView where
  buffer : List UInt8
  byteOffset : Nat
  byteLength : Nat
  inside : byteOffset + byteLength ≤ buffer.length

inductive Data where
  | string (value : JsString)
  | arrayBuffer (bytes : List UInt8)
  | view (view : ArrayBufferView)

/-- `MessagePortWebSocketWireMessage` -/
inductive WireMessage where
  | message (data : Data)
  | close (code : ℚ) (reason : JsString)

/-- Its `encoding` is always `base64`. -/
structure BinaryEnvelope where
  value : JsString
deriving DecidableEq

inductive ChromePortFrame where
  | text (data : JsString)
  | binary (data : BinaryEnvelope)
  | close (code : ℚ) (reason : JsString)
  | ping
  | pong
deriving DecidableEq

/-- `new Uint8Array(data)`, or over the window of a view. -/
def Data.window : Data → List UInt8
  | .string _ => []
  | .arrayBuffer bytes => bytes
  | .view v => (v.buffer.drop v.byteOffset).take v.byteLength

def subarray (bytes : List UInt8) (start stop : Nat) : List UInt8 := (bytes.take stop).drop start

def fromCharCode (units : List UInt8) : JsString := units.map UInt8.toNat

/-- How many characters one call of `String.fromCharCode` is given. -/
def chunkLength : Nat := 0x8000

theorem chunkLength_pos : 0 < chunkLength := by decide

/-- The loop of `encodeBinary`. -/
def binaryFrom (bytes : List UInt8) (offset : Nat) (binary : JsString) : JsString :=
  if offset < bytes.length then
    binaryFrom bytes (offset + chunkLength) (binary ++ fromCharCode (subarray bytes offset (offset + chunkLength)))
  else binary
termination_by bytes.length - offset
decreasing_by
  have positive := chunkLength_pos
  omega

def encodeBinary (bytes : List UInt8) : Option BinaryEnvelope :=
  (btoa (binaryFrom bytes 0 [])).map fun value => { value }

/-- It throws where `btoa` does. -/
def encodeFrame : WireMessage → Option ChromePortFrame
  | .close code reason => some (.close code reason)
  | .message (.string data) => some (.text data)
  | .message data => (encodeBinary data.window).map .binary

def decodeBinary (data : BinaryEnvelope) : Option (List UInt8) :=
  (atob data.value).map fun binary => binary.map UInt8.ofNat

/-- The object that `postMessage` is given. -/
def ChromePortFrame.toJson : ChromePortFrame → JsonValue
  | .text data => .object [(js "type", .string (js "message")), (js "data", .string data)]
  | .binary data => .object [(js "type", .string (js "message")),
      (js "data", .object [(js "encoding", .string (js "base64")), (js "value", .string data.value)])]
  | .close code reason =>
    .object [(js "type", .string (js "close")), (js "code", .number code), (js "reason", .string reason)]
  | .ping => .object [(js "type", .string (js "ping"))]
  | .pong => .object [(js "type", .string (js "pong"))]

def stringOf : Option JsonValue → Option JsString
  | some (.string value) => some value
  | _ => none

/-- `typeof code === "number" && Number.isInteger(code) && code >= 0 && code <= 0xffff` -/
def closeCode : Option JsonValue → Option ℚ
  | some (.number code) => if code.isInt ∧ 0 ≤ code ∧ code ≤ 0xffff then some code else none
  | _ => none

/-- Only canonical base64 is taken. -/
def parseEnvelope (data : List (JsString × JsonValue)) : Option BinaryEnvelope :=
  if data.length ≠ 2 ∨ stringOf (memberOf data (js "encoding")) ≠ some (js "base64") then none
  else do
    let value ← stringOf (memberOf data (js "value"))
    let binary ← atob value
    let again ← btoa binary
    if again ≠ value then none else return { value }

def parseData : Option JsonValue → Option ChromePortFrame
  | some (.string data) => some (.text data)
  | some (.object data) => (parseEnvelope data).map .binary
  | _ => none

def parseClose (frame : List (JsString × JsonValue)) : Option ChromePortFrame := do
  return .close (← closeCode (memberOf frame (js "code"))) (← stringOf (memberOf frame (js "reason")))

def parseFrame : JsonValue → Option ChromePortFrame
  | .object frame =>
    let keys := frame.length
    let type := stringOf (memberOf frame (js "type"))
    if type = some (js "ping") ∧ keys = 1 then some .ping
    else if type = some (js "pong") ∧ keys = 1 then some .pong
    else if type = some (js "close") ∧ keys = 3 then parseClose frame
    else if type ≠ some (js "message") ∨ keys ≠ 2 then none
    else parseData (memberOf frame (js "data"))
  | _ => none

/-- What a message says, however its bytes are held. -/
inductive Content where
  | text (value : JsString)
  | bytes (value : List UInt8)
  | close (code : ℚ) (reason : JsString)

def WireMessage.content : WireMessage → Content
  | .close code reason => .close code reason
  | .message (.string value) => .text value
  | .message data => .bytes data.window

/-- What `receive` hands on. -/
def ChromePortFrame.content : ChromePortFrame → Option Content
  | .text value => some (.text value)
  | .binary data => (decodeBinary data).map .bytes
  | .close code reason => some (.close code reason)
  | .ping => none
  | .pong => none

def WireMessage.Proper : WireMessage → Prop
  | .close code _ => code.isInt ∧ 0 ≤ code ∧ code ≤ 0xffff
  | .message _ => True

/-- What the other end receives for a message. -/
def wireImage (m : WireMessage) : Option JsonValue := do jsonImage (← encodeFrame m).toJson

def Encodes (m : WireMessage) (value : JsonValue) : Prop := ∃ image, wireImage m = some image ∧ Alike value image

theorem fromCharCode_bytes (bytes : List UInt8) : ∀ b ∈ fromCharCode bytes, b < 256 := by
  intro b member
  obtain ⟨byte, -, rfl⟩ := List.mem_map.1 member
  exact byte.toNat_lt

theorem binaryFrom_eq (bytes : List UInt8) (offset : Nat) (binary : JsString) :
    binaryFrom bytes offset binary = binary ++ fromCharCode (bytes.drop offset) := by
  induction offset, binary using binaryFrom.induct bytes with
  | case1 offset binary more ih =>
    have split : bytes.drop offset = subarray bytes offset (offset + chunkLength) ++ bytes.drop (offset + chunkLength) := by
      rw [subarray, List.drop_take, Nat.add_sub_cancel_left, ← List.drop_drop, List.take_append_drop]
    rw [binaryFrom, if_pos more, ih, List.append_assoc, split]
    simp only [fromCharCode, List.map_append]
  | case2 offset binary done =>
    rw [binaryFrom, if_neg done, List.drop_eq_nil_of_le (Nat.le_of_not_lt done)]
    simp [fromCharCode]

theorem encodeBinary_eq (bytes : List UInt8) :
    encodeBinary bytes = some { value := toBase64 (fromCharCode bytes) } := by
  have whole : binaryFrom bytes 0 [] = fromCharCode bytes := by
    rw [binaryFrom_eq]
    rfl
  unfold encodeBinary
  rw [whole, btoa_bytes (fromCharCode_bytes bytes)]
  rfl

theorem decodeBinary_toBase64 (bytes : List UInt8) :
    decodeBinary { value := toBase64 (fromCharCode bytes) } = some bytes := by
  unfold decodeBinary
  rw [atob_toBase64 (fromCharCode_bytes bytes), Option.map_some, fromCharCode, List.map_map]
  have same : UInt8.ofNat ∘ UInt8.toNat = id := by
    funext b
    exact UInt8.ofNat_toNat
  rw [same, List.map_id]

theorem parseEnvelope_toBase64 (bytes : List UInt8) :
    parseEnvelope [(js "encoding", .string (js "base64")), (js "value", .string (toBase64 (fromCharCode bytes)))] =
      some { value := toBase64 (fromCharCode bytes) } := by
  have encoding : memberOf [(js "encoding", .string (js "base64")),
      (js "value", .string (toBase64 (fromCharCode bytes)))] (js "encoding") = some (.string (js "base64")) := rfl
  have value : memberOf [(js "encoding", .string (js "base64")),
      (js "value", .string (toBase64 (fromCharCode bytes)))] (js "value") =
        some (.string (toBase64 (fromCharCode bytes))) := rfl
  unfold parseEnvelope
  rw [encoding, value]
  simp [stringOf, atob_toBase64 (fromCharCode_bytes bytes), btoa_bytes (fromCharCode_bytes bytes)]

theorem parseFrame_envelope (value : JsString) : parseFrame (ChromePortFrame.binary { value }).toJson =
    (parseEnvelope [(js "encoding", .string (js "base64")), (js "value", .string value)]).map .binary := rfl

theorem parseFrame_closed {code : ℚ} (proper : code.isInt ∧ 0 ≤ code ∧ code ≤ 0xffff) (reason : JsString) :
    parseFrame (ChromePortFrame.close code reason).toJson = some (.close code reason) := by
  have taken : closeCode (some (.number code)) = some code := if_pos proper
  show (closeCode (some (.number code)) >>= fun given => some (ChromePortFrame.close given reason)) = _
  rw [taken]
  rfl

theorem parseFrame_binary (bytes : List UInt8) :
    parseFrame (ChromePortFrame.binary { value := toBase64 (fromCharCode bytes) }).toJson =
      some (.binary { value := toBase64 (fromCharCode bytes) }) := by
  rw [parseFrame_envelope, parseEnvelope_toBase64]
  rfl

theorem content_binary (bytes : List UInt8) :
    (ChromePortFrame.binary { value := toBase64 (fromCharCode bytes) }).content = some (.bytes bytes) := by
  rw [ChromePortFrame.content, decodeBinary_toBase64]
  rfl

/-- Whatever is sent arrives as it was sent. -/
theorem parseFrame_encodeFrame (m : WireMessage) (proper : m.Proper) : ∃ frame, encodeFrame m = some frame ∧
    parseFrame frame.toJson = some frame ∧ frame.content = some m.content := by
  cases m with
  | close code reason => exact ⟨.close code reason, rfl, parseFrame_closed proper reason, rfl⟩
  | message data =>
    cases data with
    | string value => exact ⟨.text value, rfl, rfl, rfl⟩
    | arrayBuffer bytes =>
      refine ⟨_, ?_, parseFrame_binary bytes, content_binary bytes⟩
      rw [encodeFrame, Data.window, encodeBinary_eq]
      · rfl
      · intro value same
        cases same
    | view v =>
      refine ⟨_, ?_, parseFrame_binary (Data.view v).window, content_binary (Data.view v).window⟩
      rw [encodeFrame, encodeBinary_eq]
      · rfl
      · intro value same
        cases same

theorem stringOf_alike {left right : Option JsonValue} (alike : Option.Rel Alike left right) :
    stringOf left = stringOf right := by
  cases alike with
  | none => rfl
  | some inner => cases inner <;> rfl

theorem closeCode_alike {left right : Option JsonValue} (alike : Option.Rel Alike left right) :
    closeCode left = closeCode right := by
  cases alike with
  | none => rfl
  | some inner => cases inner <;> rfl

theorem parseData_alike {left right : Option JsonValue} (alike : Option.Rel Alike left right) :
    parseData left = parseData right := by
  cases alike with
  | none => rfl
  | some inner =>
    cases inner with
    | same value => rfl
    | array items => rfl
    | object count members =>
      simp only [parseData, parseEnvelope]
      rw [count, stringOf_alike (members (js "encoding")), stringOf_alike (members (js "value"))]

theorem parseFrame_alike {left right : JsonValue} (alike : Alike left right) : parseFrame left = parseFrame right := by
  cases alike with
  | same value => rfl
  | array items => rfl
  | object count members =>
    simp only [parseFrame, parseClose]
    rw [count, stringOf_alike (members (js "type")), stringOf_alike (members (js "reason")),
      closeCode_alike (members (js "code")), parseData_alike (members (js "data"))]

theorem memberOf_none {members : List (JsString × JsonValue)} {key : JsString} (absent : key ∉ members.map (·.1)) :
    memberOf members key = none := by
  unfold memberOf
  rw [Option.map_eq_none_iff, List.find?_eq_none]
  intro member among same
  apply absent
  rw [← eq_of_beq same]
  exact List.mem_map_of_mem among

/-- As many members as were looked up: there are no others. -/
theorem alike_of_members {found expected : List (JsString × JsonValue)} (count : found.length = expected.length)
    (distinct : (expected.map (·.1)).Nodup)
    (members : ∀ key ∈ expected.map (·.1), Option.Rel Alike (memberOf found key) (memberOf expected key)) :
    Alike (.object found) (.object expected) := by
  apply Alike.object count
  intro key
  by_cases known : key ∈ expected.map (·.1)
  · exact members key known
  · have covered : expected.map (·.1) ⊆ found.map (·.1) := by
      intro other among
      by_contra absent
      have related := members other among
      rw [memberOf_none absent] at related
      cases value : memberOf expected other with
      | some v =>
        rw [value] at related
        cases related
      | none =>
        obtain ⟨member, inside, rfl⟩ := List.mem_map.1 among
        unfold memberOf at value
        rw [Option.map_eq_none_iff, List.find?_eq_none] at value
        exact value member inside (beq_self_eq_true _)
    have same : (expected.map (·.1)).Perm (found.map (·.1)) := by
      apply (distinct.subperm covered).perm_of_length_le
      rw [List.length_map, List.length_map, count]
    rw [memberOf_none known, memberOf_none fun among => known (same.mem_iff.2 among)]
    exact .none

theorem stringOf_some {value : Option JsonValue} {s : JsString} (found : stringOf value = some s) :
    value = some (.string s) := by
  unfold stringOf at found
  split at found
  · cases found
    rfl
  · cases found

theorem closeCode_some {value : Option JsonValue} {code : ℚ} (found : closeCode value = some code) :
    value = some (.number code) ∧ code.isInt ∧ 0 ≤ code ∧ code ≤ 0xffff := by
  unfold closeCode at found
  split at found
  · split at found
    next proper =>
      cases found
      exact ⟨rfl, proper⟩
    · cases found
  · cases found

theorem alike_member {key : String} {found : List (JsString × JsonValue)} {value : JsonValue}
    (here : memberOf found (js key) = some value) {other : JsonValue} (alike : Alike value other) :
    Option.Rel Alike (memberOf found (js key)) (some other) := by
  rw [here]
  exact .some alike

theorem parseEnvelope_some {data : List (JsString × JsonValue)} {envelope : BinaryEnvelope}
    (parsed : parseEnvelope data = some envelope) :
    Alike (.object data) (.object [(js "encoding", .string (js "base64")), (js "value", .string envelope.value)]) ∧
      ∃ binary, atob envelope.value = some binary ∧ btoa binary = some envelope.value := by
  unfold parseEnvelope at parsed
  split at parsed
  · cases parsed
  next fits =>
    obtain ⟨count, encoding⟩ := not_or.1 fits
    obtain ⟨value, given, parsed⟩ := Option.bind_eq_some_iff.1 parsed
    obtain ⟨binary, read, parsed⟩ := Option.bind_eq_some_iff.1 parsed
    obtain ⟨again, written, parsed⟩ := Option.bind_eq_some_iff.1 parsed
    split at parsed
    · cases parsed
    next canonical =>
      cases parsed
      rw [not_not] at canonical
      subst canonical
      refine ⟨?_, binary, read, written⟩
      have distinct : [js "encoding", js "value"].Nodup := by decide
      refine alike_of_members (not_not.1 count) distinct ?_
      intro key known
      simp only [List.map_cons, List.map_nil, List.mem_cons, List.not_mem_nil, or_false] at known
      rcases known with rfl | rfl
      · exact alike_member (stringOf_some (not_not.1 encoding)) (.same _)
      · exact alike_member (stringOf_some given) (.same _)

theorem parseClose_some {frame : List (JsString × JsonValue)} {parsed : ChromePortFrame}
    (closed : parseClose frame = some parsed) : ∃ code reason, parsed = .close code reason ∧
      memberOf frame (js "code") = some (.number code) ∧ (code.isInt ∧ 0 ≤ code ∧ code ≤ 0xffff) ∧
      memberOf frame (js "reason") = some (.string reason) := by
  obtain ⟨code, numeric, closed⟩ := Option.bind_eq_some_iff.1 closed
  obtain ⟨reason, textual, closed⟩ := Option.bind_eq_some_iff.1 closed
  cases closed
  obtain ⟨here, proper⟩ := closeCode_some numeric
  exact ⟨code, reason, rfl, here, proper, stringOf_some textual⟩

theorem parseData_some {data : Option JsonValue} {parsed : ChromePortFrame} (taken : parseData data = some parsed) :
    (∃ text, parsed = .text text ∧ data = some (.string text)) ∨
      ∃ members envelope, parsed = .binary envelope ∧ data = some (.object members) ∧
        parseEnvelope members = some envelope := by
  unfold parseData at taken
  split at taken
  next text =>
    cases taken
    exact .inl ⟨text, rfl, rfl⟩
  next members =>
    obtain ⟨envelope, read, same⟩ := Option.map_eq_some_iff.1 taken
    exact .inr ⟨members, envelope, same.symm, rfl, read⟩
  next => cases taken

theorem fromCharCode_ofNat {units : Bytes} (proper : ∀ b ∈ units, b < 256) :
    fromCharCode (units.map UInt8.ofNat) = units := by
  have same : ∀ b ∈ units, (UInt8.toNat ∘ UInt8.ofNat) b = id b := by
    intro b member
    exact UInt8.toNat_ofNat_of_lt (proper b member)
  unfold fromCharCode
  rw [List.map_map, List.map_congr_left same, List.map_id]

theorem encodeFrame_canonical {envelope : BinaryEnvelope} {binary : Bytes} (read : atob envelope.value = some binary)
    (written : btoa binary = some envelope.value) :
    encodeFrame (.message (.arrayBuffer (binary.map UInt8.ofNat))) = some (.binary envelope) := by
  have proper := atob_bytes read
  rw [btoa_bytes proper] at written
  rw [encodeFrame, Data.window, encodeBinary_eq, fromCharCode_ofNat proper, Option.some.inj written]
  · rfl
  · intro value same
    cases same

/-- What is accepted is the frame read from it, and every frame but `ping` and `pong` is a message's. -/
theorem parseFrame_some {value : JsonValue} {frame : ChromePortFrame} (accepted : parseFrame value = some frame) :
    Alike value frame.toJson ∧
      (frame = .ping ∨ frame = .pong ∨ ∃ m : WireMessage, m.Proper ∧ encodeFrame m = some frame) := by
  unfold parseFrame at accepted
  split at accepted
  next members =>
    dsimp only at accepted
    split at accepted
    next known =>
      cases accepted
      refine ⟨alike_of_members known.2 (by decide) ?_, .inl rfl⟩
      intro key among
      cases List.mem_singleton.1 among
      exact alike_member (stringOf_some known.1) (.same _)
    split at accepted
    next known =>
      cases accepted
      refine ⟨alike_of_members known.2 (by decide) ?_, .inr (.inl rfl)⟩
      intro key among
      cases List.mem_singleton.1 among
      exact alike_member (stringOf_some known.1) (.same _)
    split at accepted
    next known =>
      obtain ⟨code, reason, rfl, numeric, proper, textual⟩ := parseClose_some accepted
      have distinct : [js "type", js "code", js "reason"].Nodup := by decide
      refine ⟨alike_of_members known.2 distinct ?_, .inr (.inr ⟨.close code reason, proper, rfl⟩)⟩
      intro key among
      simp only [List.map_cons, List.map_nil, List.mem_cons, List.not_mem_nil, or_false] at among
      rcases among with rfl | rfl | rfl
      · exact alike_member (stringOf_some known.1) (.same _)
      · exact alike_member numeric (.same _)
      · exact alike_member textual (.same _)
    split at accepted
    · cases accepted
    next known =>
      obtain ⟨type, count⟩ := not_or.1 known
      have type := stringOf_some (not_not.1 type)
      have distinct : [js "type", js "data"].Nodup := by decide
      rcases parseData_some accepted with ⟨text, rfl, data⟩ | ⟨inner, envelope, rfl, data, read⟩
      · refine ⟨alike_of_members (not_not.1 count) distinct ?_, .inr (.inr ⟨.message (.string text), trivial, rfl⟩)⟩
        intro key among
        simp only [List.map_cons, List.map_nil, List.mem_cons, List.not_mem_nil, or_false] at among
        rcases among with rfl | rfl
        · exact alike_member type (.same _)
        · exact alike_member data (.same _)
      · obtain ⟨alike, binary, decoded, written⟩ := parseEnvelope_some read
        constructor
        · refine alike_of_members (not_not.1 count) distinct ?_
          intro key among
          simp only [List.map_cons, List.map_nil, List.mem_cons, List.not_mem_nil, or_false] at among
          rcases among with rfl | rfl
          · exact alike_member type (.same _)
          · exact alike_member data alike
        · exact .inr (.inr ⟨.message (.arrayBuffer (binary.map UInt8.ofNat)), trivial,
            encodeFrame_canonical decoded written⟩)
  · cases accepted

theorem wireImage_eq (m : WireMessage) : wireImage m = (encodeFrame m).map ChromePortFrame.toJson := by
  unfold wireImage
  cases encodeFrame m with
  | none => rfl
  | some frame => exact jsonImage_self frame.toJson

theorem encodes_iff {m : WireMessage} {value : JsonValue} :
    Encodes m value ↔ ∃ frame, encodeFrame m = some frame ∧ Alike value frame.toJson := by
  constructor
  · rintro ⟨image, sent, alike⟩
    rw [wireImage_eq] at sent
    obtain ⟨frame, encoded, rfl⟩ := Option.map_eq_some_iff.1 sent
    exact ⟨frame, encoded, alike⟩
  · rintro ⟨frame, encoded, alike⟩
    refine ⟨frame.toJson, ?_, alike⟩
    rw [wireImage_eq, encoded]
    rfl

theorem proper_of_parsed {m : WireMessage} {frame parsed : ChromePortFrame} (encoded : encodeFrame m = some frame)
    (taken : parseFrame frame.toJson = some parsed) : m.Proper := by
  cases m with
  | message data => trivial
  | close code reason =>
    cases encoded
    obtain ⟨given, -, -, numeric, proper, -⟩ := @parseClose_some
      [(js "type", .string (js "close")), (js "code", .number code), (js "reason", .string reason)] _ taken
    cases numeric
    exact proper

/-- An accepted value tells what was sent. -/
theorem content_of_encodes {m : WireMessage} {value : JsonValue} {frame : ChromePortFrame}
    (accepted : parseFrame value = some frame) (encodes : Encodes m value) : frame.content = some m.content := by
  obtain ⟨sent, encoded, alike⟩ := encodes_iff.1 encodes
  rw [parseFrame_alike alike] at accepted
  obtain ⟨other, again, parsed, content⟩ := parseFrame_encodeFrame m (proper_of_parsed encoded accepted)
  rw [encoded] at again
  cases again
  rw [accepted] at parsed
  cases parsed
  exact content

theorem canonical_of_encoded {m : WireMessage} {envelope : BinaryEnvelope}
    (encoded : encodeFrame m = some (.binary envelope)) :
    ∃ bytes, envelope = { value := toBase64 (fromCharCode bytes) } := by
  unfold encodeFrame at encoded
  split at encoded
  · cases encoded
  · cases encoded
  next data binary =>
    rw [encodeBinary_eq] at encoded
    cases encoded
    exact ⟨data.window, rfl⟩

theorem canonical_of_accepted {value : JsonValue} {envelope : BinaryEnvelope}
    (accepted : parseFrame value = some (.binary envelope)) :
    ∃ bytes, envelope = { value := toBase64 (fromCharCode bytes) } := by
  obtain ⟨-, ping | pong | ⟨m, -, encoded⟩⟩ := parseFrame_some accepted
  · cases ping
  · cases pong
  · exact canonical_of_encoded encoded

theorem envelope_unique {value other : JsonValue} {first second : BinaryEnvelope}
    (left : parseFrame value = some (.binary first)) (right : parseFrame other = some (.binary second))
    (same : decodeBinary first = decodeBinary second) : first = second := by
  obtain ⟨bytes, rfl⟩ := canonical_of_accepted left
  obtain ⟨others, rfl⟩ := canonical_of_accepted right
  rw [decodeBinary_toBase64, decodeBinary_toBase64, Option.some.injEq] at same
  rw [same]

/-- Messages survive the port, and but for `ping` and `pong` an accepted value is the encoding of one of them and
of no other. -/
theorem port_codec_exact (m : WireMessage) (value other : JsonValue) (frame : ChromePortFrame)
    (first second : BinaryEnvelope) :
    (m.Proper → ∃ image parsed, wireImage m = some image ∧ parseFrame image = some parsed ∧
      parsed.content = some m.content) ∧
    (parseFrame value = some frame → frame = .ping ∨ frame = .pong ∨
      ∃ m : WireMessage, m.Proper ∧ Encodes m value ∧ ∀ n, Encodes n value → n.content = m.content) ∧
    (parseFrame value = some (.binary first) → parseFrame other = some (.binary second) →
      decodeBinary first = decodeBinary second → first = second) := by
  refine ⟨?_, ?_, envelope_unique⟩
  · intro proper
    obtain ⟨sent, encoded, parsed, content⟩ := parseFrame_encodeFrame m proper
    refine ⟨sent.toJson, sent, ?_, parsed, content⟩
    rw [wireImage_eq, encoded]
    rfl
  · intro accepted
    obtain ⟨alike, ping | pong | ⟨m, proper, encoded⟩⟩ := parseFrame_some accepted
    · exact .inl ping
    · exact .inr (.inl pong)
    · have encodes : Encodes m value := encodes_iff.2 ⟨frame, encoded, alike⟩
      refine .inr (.inr ⟨m, proper, encodes, ?_⟩)
      intro n others
      have left := content_of_encodes accepted encodes
      rw [content_of_encodes accepted others] at left
      exact Option.some.inj left

/-- A view of two bytes inside a buffer. -/
def inner : ArrayBufferView := { buffer := [1, 255, 128, 0], byteOffset := 1, byteLength := 2, inside := by decide }

/-- Its encoding, with the members the other way round. -/
def turned : JsonValue := .object [(js "data", .object [(js "value", .string (js "/4A=")),
  (js "encoding", .string (js "base64"))]), (js "type", .string (js "message"))]

theorem turned_accepted : parseFrame turned = some (.binary { value := js "/4A=" }) := by rfl

theorem port_codec_exact_view : (∃ image parsed, wireImage (.message (.view inner)) = some image ∧
    parseFrame image = some parsed ∧ parsed.content = some (.bytes [255, 128])) ∧
    (∃ m : WireMessage, m.Proper ∧ Encodes m turned ∧ ∀ n, Encodes n turned → n.content = m.content) ∧
    ({ value := js "/4A=" } : BinaryEnvelope) = { value := js "/4A=" } := by
  obtain ⟨sent, received, unique⟩ := port_codec_exact (.message (.view inner)) turned turned
    (.binary { value := js "/4A=" }) { value := js "/4A=" } { value := js "/4A=" }
  refine ⟨sent trivial, ?_, unique turned_accepted turned_accepted rfl⟩
  rcases received turned_accepted with ping | pong | found
  · cases ping
  · cases pong
  · exact found

/-- A liveness frame is accepted, and it is no message's encoding. -/
theorem ping_encodes_nothing : parseFrame (ChromePortFrame.toJson .ping) = some .ping ∧
    ¬ ∃ m, Encodes m (ChromePortFrame.toJson .ping) := by
  refine ⟨rfl, ?_⟩
  rintro ⟨m, encodes⟩
  have content := @content_of_encodes _ _ .ping rfl encodes
  cases content

end DoRuntime.Browser.ChromePort
