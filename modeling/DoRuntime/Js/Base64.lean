import DoRuntime.Js.Utf8

namespace DoRuntime.Js

/-- The alphabet of base64. -/
def sextetUnit (v : Nat) : CodeUnit :=
  if v < 26 then 65 + v
  else if v < 52 then 71 + v
  else if v < 62 then v - 4
  else if v = 62 then 43
  else 47

def unitSextet (c : CodeUnit) : Option Nat :=
  if isUpper c then some (c - 65)
  else if isLower c then some (c - 71)
  else if isDigit c then some (c + 4)
  else if c == 43 then some 62
  else if c == 47 then some 63
  else none

/-- The bits of the bytes, six at a time, the last ones filled up with zeros. -/
def sextets : Bytes → List Nat
  | [] => []
  | [a] => [a / 4, a % 4 * 16]
  | [a, b] => [a / 4, a % 4 * 16 + b / 16, b % 16 * 4]
  | a :: b :: c :: rest => a / 4 :: (a % 4 * 16 + b / 16) :: (b % 16 * 4 + c / 64) :: c % 64 :: sextets rest

/-- The whole bytes among the bits; what is over is dropped. -/
def ofSextets : List Nat → Bytes
  | [] => []
  | [_] => []
  | [v, w] => [v * 4 + w / 16]
  | [v, w, x] => [v * 4 + w / 16, w % 16 * 16 + x / 4]
  | v :: w :: x :: y :: rest => (v * 4 + w / 16) :: (w % 16 * 16 + x / 4) :: (x % 4 * 64 + y) :: ofSextets rest

def padding (length : Nat) : JsString := List.replicate ((3 - length % 3) % 3) 61

def toBase64 (bytes : Bytes) : JsString := (sextets bytes).map sextetUnit ++ padding bytes.length

/-- It throws where a unit is no byte. -/
def btoa (s : JsString) : Option JsString := if s.all (· < 256) then some (toBase64 s) else none

def isAsciiSpace (c : CodeUnit) : Bool := c == 9 || c == 10 || c == 12 || c == 13 || c == 32

/-- One or two `=` at the end go, where the length allows them. -/
def dropPadding (s : JsString) : JsString :=
  if s.length % 4 = 0 then
    if [61, 61] <:+ s then s.dropLast.dropLast
    else if [61] <:+ s then s.dropLast
    else s
  else s

/-- It throws where this is `none`. -/
def atob (s : JsString) : Option Bytes :=
  let data := dropPadding (s.filter (!isAsciiSpace ·))
  if data.length % 4 = 1 then none else (data.mapM unitSextet).map ofSextets

variable {bytes : Bytes}

theorem unitSextet_sextetUnit : ∀ v < 64, unitSextet (sextetUnit v) = some v := by decide

theorem sextetUnit_plain : ∀ v < 64, isAsciiSpace (sextetUnit v) = false ∧ sextetUnit v ≠ 61 := by decide

theorem unitSextet_lt {c v : Nat} (found : unitSextet c = some v) : v < 64 := by
  unfold unitSextet at found
  simp only [isUpper, isLower, isDigit, Bool.and_eq_true, decide_eq_true_eq, beq_iff_eq] at found
  split at found
  · cases found; omega
  split at found
  · cases found; omega
  split at found
  · cases found; omega
  split at found
  · cases found; omega
  split at found
  · cases found; omega
  · cases found

theorem sextets_lt (proper : ∀ b ∈ bytes, b < 256) : ∀ v ∈ sextets bytes, v < 64 := by
  induction bytes using sextets.induct with
  | case1 => simp [sextets]
  | case2 a =>
    simp only [List.mem_cons, List.not_mem_nil, or_false, forall_eq] at proper
    simp only [sextets, List.mem_cons, List.not_mem_nil, or_false, forall_eq_or_imp, forall_eq]
    omega
  | case3 a b =>
    simp only [List.mem_cons, List.not_mem_nil, or_false, forall_eq_or_imp, forall_eq] at proper
    simp only [sextets, List.mem_cons, List.not_mem_nil, or_false, forall_eq_or_imp, forall_eq]
    omega
  | case4 a b c rest ih =>
    simp only [List.mem_cons, forall_eq_or_imp] at proper
    obtain ⟨ha, hb, hc, later⟩ := proper
    simp only [sextets, List.mem_cons, forall_eq_or_imp]
    exact ⟨by omega, by omega, by omega, by omega, ih later⟩

theorem ofSextets_sextets (proper : ∀ b ∈ bytes, b < 256) : ofSextets (sextets bytes) = bytes := by
  induction bytes using sextets.induct with
  | case1 => rfl
  | case2 a =>
    simp only [List.mem_cons, List.not_mem_nil, or_false, forall_eq] at proper
    simp only [sextets, ofSextets, List.cons.injEq, and_true]
    omega
  | case3 a b =>
    simp only [List.mem_cons, List.not_mem_nil, or_false, forall_eq_or_imp, forall_eq] at proper
    simp only [sextets, ofSextets, List.cons.injEq, and_true]
    omega
  | case4 a b c rest ih =>
    simp only [List.mem_cons, forall_eq_or_imp] at proper
    obtain ⟨ha, hb, hc, later⟩ := proper
    simp only [sextets, ofSextets, ih later, List.cons.injEq, and_true]
    omega

theorem sextets_length : (sextets bytes).length = (4 * bytes.length + 2) / 3 := by
  induction bytes using sextets.induct with
  | case1 => rfl
  | case2 a => simp [sextets]
  | case3 a b => simp [sextets]
  | case4 a b c rest ih =>
    simp only [sextets, List.length_cons, ih]
    omega

theorem padded_length (n : Nat) : ((4 * n + 2) / 3 + (3 - n % 3) % 3) % 4 = 0 := by
  have thirds : n % 3 = 0 ∨ n % 3 = 1 ∨ n % 3 = 2 := by omega
  rcases thirds with r | r | r <;> rw [r] <;> omega

theorem ofSextets_lt {vs : List Nat} (small : ∀ v ∈ vs, v < 64) : ∀ b ∈ ofSextets vs, b < 256 := by
  induction vs using ofSextets.induct with
  | case1 => simp [ofSextets]
  | case2 v => simp [ofSextets]
  | case3 v w =>
    simp only [List.mem_cons, List.not_mem_nil, or_false, forall_eq_or_imp, forall_eq] at small
    simp only [ofSextets, List.mem_cons, List.not_mem_nil, or_false, forall_eq]
    omega
  | case4 v w x =>
    simp only [List.mem_cons, List.not_mem_nil, or_false, forall_eq_or_imp, forall_eq] at small
    simp only [ofSextets, List.mem_cons, List.not_mem_nil, or_false, forall_eq_or_imp, forall_eq]
    omega
  | case5 v w x y rest ih =>
    simp only [List.mem_cons, forall_eq_or_imp] at small
    obtain ⟨hv, hw, hx, hy, later⟩ := small
    simp only [ofSextets, List.mem_cons, forall_eq_or_imp]
    exact ⟨by omega, by omega, by omega, ih later⟩

theorem dropPadding_padded {body : JsString} {n : Nat} (plain : ∀ c ∈ body, c ≠ 61)
    (whole : (body ++ padding n).length % 4 = 0) : dropPadding (body ++ padding n) = body := by
  have unpadded {c : CodeUnit} {front : JsString} (same : body = front ++ [c]) : c ≠ 61 :=
    plain c (by rw [same]; exact List.mem_append_right _ (List.mem_singleton_self c))
  unfold dropPadding
  rw [if_pos whole]
  unfold padding
  have few : (3 - n % 3) % 3 = 0 ∨ (3 - n % 3) % 3 = 1 ∨ (3 - n % 3) % 3 = 2 := by omega
  rcases few with none | one | two
  · rw [none, List.replicate_zero, List.append_nil, if_neg, if_neg]
    · rintro ⟨front, same⟩
      exact unpadded same.symm rfl
    · rintro ⟨front, same⟩
      exact @unpadded _ (front ++ [61]) (by rw [← same, List.append_assoc]; rfl) rfl
  · rw [one, List.replicate_one, if_neg, if_pos ⟨body, rfl⟩, List.dropLast_concat]
    rintro ⟨front, same⟩
    have shorter : front ++ [61] = body := by
      have ends : (front ++ [61]) ++ [61] = body ++ [61] := by rw [← same, List.append_assoc]; rfl
      exact List.append_cancel_right ends
    exact unpadded shorter.symm rfl
  · have pair : body ++ List.replicate 2 61 = (body ++ [61]) ++ [61] := by rw [List.append_assoc]; rfl
    rw [two, if_pos ⟨body, rfl⟩, pair, List.dropLast_concat, List.dropLast_concat]

theorem filter_toBase64 (proper : ∀ b ∈ bytes, b < 256) :
    (toBase64 bytes).filter (!isAsciiSpace ·) = toBase64 bytes := by
  apply List.filter_eq_self.2
  intro c member
  rcases List.mem_append.1 member with letter | pad
  · obtain ⟨v, found, rfl⟩ := List.mem_map.1 letter
    rw [(sextetUnit_plain v (sextets_lt proper v found)).1]
    rfl
  · rw [List.eq_of_mem_replicate pad]
    rfl

theorem mapM_sextetUnit {vs : List Nat} (small : ∀ v ∈ vs, v < 64) : (vs.map sextetUnit).mapM unitSextet = some vs := by
  induction vs with
  | nil => rfl
  | cons v vs ih =>
    simp only [List.mem_cons, forall_eq_or_imp] at small
    simp [unitSextet_sextetUnit v small.1, ih small.2]

/-- What `btoa` writes `atob` reads. -/
theorem atob_toBase64 (proper : ∀ b ∈ bytes, b < 256) : atob (toBase64 bytes) = some bytes := by
  have small := sextets_lt proper
  have plain : ∀ c ∈ (sextets bytes).map sextetUnit, c ≠ 61 := by
    intro c member
    obtain ⟨v, found, rfl⟩ := List.mem_map.1 member
    exact (sextetUnit_plain v (small v found)).2
  have whole : (toBase64 bytes).length % 4 = 0 := by
    simp only [toBase64, padding, List.length_append, List.length_map, List.length_replicate, sextets_length]
    exact padded_length bytes.length
  have body : dropPadding ((toBase64 bytes).filter (!isAsciiSpace ·)) = (sextets bytes).map sextetUnit := by
    rw [filter_toBase64 proper]
    exact dropPadding_padded plain whole
  have room : ¬ ((sextets bytes).map sextetUnit).length % 4 = 1 := by
    rw [List.length_map, sextets_length]
    omega
  unfold atob
  simp only [body]
  rw [if_neg room, mapM_sextetUnit small, Option.map_some, ofSextets_sextets proper]

theorem btoa_bytes (proper : ∀ b ∈ bytes, b < 256) : btoa bytes = some (toBase64 bytes) := by
  unfold btoa
  rw [if_pos]
  simpa using proper

theorem mapM_some_mem {f : α → Option β} {inputs : List α} {outputs : List β} {b : β}
    (mapped : inputs.mapM f = some outputs) (member : b ∈ outputs) : ∃ a ∈ inputs, f a = some b := by
  induction inputs generalizing outputs with
  | nil =>
    cases mapped
    cases member
  | cons a inputs ih =>
    rw [List.mapM_cons, Option.bind_eq_bind, Option.bind_eq_some_iff] at mapped
    obtain ⟨head, first, mapped⟩ := mapped
    obtain ⟨tail, rest, same⟩ := Option.bind_eq_some_iff.1 mapped
    cases same
    rcases List.mem_cons.1 member with rfl | later
    · exact ⟨a, List.mem_cons_self, first⟩
    · obtain ⟨c, among, found⟩ := ih rest later
      exact ⟨c, List.mem_cons_of_mem a among, found⟩

theorem atob_bytes {s : JsString} (read : atob s = some bytes) : ∀ b ∈ bytes, b < 256 := by
  unfold atob at read
  dsimp only at read
  split at read
  · cases read
  obtain ⟨vs, mapped, rfl⟩ := Option.map_eq_some_iff.1 read
  apply ofSextets_lt
  intro v member
  obtain ⟨c, -, found⟩ := mapM_some_mem mapped member
  exact unitSextet_lt found

end DoRuntime.Js
