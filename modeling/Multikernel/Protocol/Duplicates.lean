import Multikernel.Lib.Json
/-!
# Duplicate names

`rejectDuplicateNames` of `runtime/protocol/json.go`, which walks the tokens of a
document with a stack of its own, and the `json.Decoder` the tokens come from,
with another one. The text is read a second time when it is decoded
(`Json.scanValue`); `rejectDuplicateNames_distinct` says that both readings are of
the same document.
-/

namespace Multikernel.Protocol

open Lib Lib.Json

/-! ## `json.Decoder.Token` -/

/-- `tokenState`: what may come next. -/
inductive Expect where
  | top | arrayStart | arrayValue | arrayComma | objectStart | objectKey | objectColon | objectValue | objectComma
  deriving DecidableEq

/-- `tokenValueAllowed`. -/
def Expect.valueAllowed : Expect → Bool
  | .top | .arrayStart | .arrayValue | .objectValue => true
  | _ => false

/-- `tokenValueEnd`. -/
def Expect.valueEnd : Expect → Expect
  | .arrayStart | .arrayValue => .arrayComma
  | .objectValue => .objectComma
  | s => s

/-- A literal is what is neither a string nor a bracket. -/
inductive Token where
  | openObject | openArray | close
  | text (s : String)
  | literal

structure Decoder where
  rest : List Char
  state : Expect
  stack : List Expect

inductive Stop where
  | eof | failed

/-- A closing bracket: the state before the opening one comes back. -/
def Decoder.close (rest : List Char) : List Expect → Except Stop (Token × Decoder)
  | [] => .error .failed
  | state :: stack => .ok (.close, ⟨rest, state.valueEnd, stack⟩)

/-- `fits` are the numbers a `float64` can hold. -/
def scalarToken (fits : List Char → Bool) : Json → Except Stop Token
  | .str s => .ok (.text s)
  | .num lit => if fits lit then .ok .literal else .error .failed
  | _ => .ok .literal

/-- The token at the front, no separator being in the way. -/
def Decoder.lead (fits : List Char → Bool) (d : Decoder) : Except Stop (Token × Decoder) :=
  match skip d.rest with
  | [] => .error .eof
  | c :: cs =>
    if c = '[' then
      if d.state.valueAllowed then .ok (.openArray, ⟨cs, .arrayStart, d.state :: d.stack⟩) else .error .failed
    else if c = ']' then
      if d.state = .arrayStart ∨ d.state = .arrayComma then close cs d.stack else .error .failed
    else if c = '{' then
      if d.state.valueAllowed then .ok (.openObject, ⟨cs, .objectStart, d.state :: d.stack⟩) else .error .failed
    else if c = '}' then
      if d.state = .objectStart ∨ d.state = .objectComma then close cs d.stack else .error .failed
    else if c = '"' ∧ (d.state = .objectStart ∨ d.state = .objectKey) then
      match scanString none cs with
      | none => .error .failed
      | some (name, rest) => .ok (.text (String.ofList name), ⟨rest, .objectColon, d.stack⟩)
    else if d.state.valueAllowed then
      match scanScalar (c :: cs) with
      | none => .error .failed
      | some (j, rest) => (scalarToken fits j).map fun t => (t, ⟨rest, d.state.valueEnd, d.stack⟩)
    else .error .failed

/-- `Token`: at most one separator, and the token after it. -/
def Decoder.token (fits : List Char → Bool) (d : Decoder) : Except Stop (Token × Decoder) :=
  match skip d.rest with
  | [] => .error .eof
  | c :: cs =>
    if c = ':' then
      if d.state = .objectColon then lead fits ⟨cs, .objectValue, d.stack⟩ else .error .failed
    else if c = ',' then
      if d.state = .arrayComma then lead fits ⟨cs, .arrayValue, d.stack⟩
      else if d.state = .objectComma then lead fits ⟨cs, .objectKey, d.stack⟩
      else .error .failed
    else lead fits d

/-! ## The walk -/

structure Scope where
  object : Bool
  expectKey : Bool
  names : List String

/-- After a value in an object a name comes. -/
def afterValue : List Scope → List Scope
  | [] => []
  | scope :: scopes => (if scope.object then { scope with expectKey := true } else scope) :: scopes

def onToken (scopes : List Scope) : Token → Except String (List Scope)
  | .openObject => .ok (⟨true, true, []⟩ :: scopes)
  | .openArray => .ok (⟨false, false, []⟩ :: scopes)
  | .close =>
    match scopes with
    | [] => .error "unbalanced JSON delimiter"
    | _ :: scopes => .ok (afterValue scopes)
  | .text s =>
    match scopes with
    | [] => .ok []
    | scope :: outer =>
      if scope.object && scope.expectKey then
        if s ∈ scope.names then .error "duplicate JSON object name"
        else .ok ({ scope with expectKey := false, names := s :: scope.names } :: outer)
      else .ok (afterValue scopes)
  | .literal => .ok (afterValue scopes)

/-- The loop over the tokens; `none` when the fuel runs out. -/
def walk (fits : List Char → Bool) : Nat → Decoder → List Scope → Option (Except String Unit)
  | 0, _, _ => none
  | n + 1, d, scopes =>
    match d.token fits with
    | .error .eof => some (if scopes = [] then .ok () else .error "invalid JSON syntax")
    | .error .failed => some (.error "invalid JSON syntax")
    | .ok (t, d') =>
      match onToken scopes t with
      | .error e => some (.error e)
      | .ok scopes' => walk fits n d' scopes'

section fuel
variable {fits : List Char → Bool} {d d' : Decoder} {t : Token}

theorem close_length {rest : List Char} {stack : List Expect} (h : Decoder.close rest stack = .ok (t, d')) :
    d'.rest = rest := by
  cases stack with
  | nil => cases h
  | cons state stack =>
    cases h
    rfl

theorem lead_length (h : d.lead fits = .ok (t, d')) : d'.rest.length < d.rest.length := by
  have hskip := skip_length d.rest
  unfold Decoder.lead at h
  split at h
  · cases h
  rename_i c cs heq
  rw [heq] at hskip
  have hcs : cs.length < d.rest.length := hskip
  split at h
  · split at h <;> cases h
    exact hcs
  split at h
  · split at h
    · rw [close_length h]
      exact hcs
    · cases h
  split at h
  · split at h <;> cases h
    exact hcs
  split at h
  · split at h
    · rw [close_length h]
      exact hcs
    · cases h
  split at h
  · split at h
    · cases h
    · rename_i name rest hs
      cases h
      exact (scanString_length hs).trans hcs
  split at h
  · split at h
    · cases h
    · rename_i j rest hs
      cases hj : scalarToken fits j with
      | error e =>
        rw [hj] at h
        cases h
      | ok token =>
        rw [hj] at h
        cases h
        exact (scanScalar_length hs).trans_le hskip
  · cases h

theorem token_length (h : d.token fits = .ok (t, d')) : d'.rest.length < d.rest.length := by
  have hskip := skip_length d.rest
  unfold Decoder.token at h
  split at h
  · cases h
  rename_i c cs heq
  rw [heq] at hskip
  have hcs : cs.length < d.rest.length := hskip
  split at h
  · split at h
    · exact (lead_length h).trans hcs
    · cases h
  split at h
  · split at h
    · exact (lead_length h).trans hcs
    split at h
    · exact (lead_length h).trans hcs
    · cases h
  · exact lead_length h

/-- A token takes a character. -/
theorem walk_isSome {n : Nat} (hn : d.rest.length < n) (scopes : List Scope) : (walk fits n d scopes).isSome := by
  induction n generalizing d scopes with
  | zero => omega
  | succ n ih =>
    rw [walk]
    split
    · rfl
    · rfl
    · rename_i t d' htoken
      split
      · rfl
      · have := token_length htoken
        exact ih (by omega) _

end fuel

def rejectDuplicateNames (fits : List Char → Bool) (data : List Char) : Except String Unit :=
  (walk fits (data.length + 1) ⟨data, .top, []⟩ []).get (walk_isSome (Nat.lt_succ_self _) [])

/-! ## Both readings are of one document -/

section agreement
variable {fits : List Char → Bool} {d d' : Decoder} {t : Token} {scopes scopes' : List Scope}
variable {cs rest : List Char} {state outer : Expect} {stack : List Expect}

/-- The walk goes through from here. -/
def Passes (fits : List Char → Bool) (d : Decoder) (scopes : List Scope) : Prop :=
  ∃ n, walk fits n d scopes = some (.ok ())

theorem Passes.step (h : Passes fits d scopes) (ht : d.token fits = .ok (t, d')) :
    ∃ scopes', onToken scopes t = .ok scopes' ∧ Passes fits d' scopes' := by
  obtain ⟨n, hn⟩ := h
  cases n with
  | zero => cases hn
  | succ n =>
    rw [walk, ht] at hn
    dsimp only at hn
    split at hn
    · cases hn
    · rename_i scopes' hscopes
      exact ⟨scopes', hscopes, n, hn⟩

theorem Passes.step_of (h : Passes fits d scopes) (ht : d.token fits = .ok (t, d')) (hs : onToken scopes t = .ok scopes') :
    Passes fits d' scopes' := by
  obtain ⟨scopes'', hs', h'⟩ := h.step ht
  rw [hs] at hs'
  cases hs'
  exact h'

/-- Only the next token of a decoder matters. -/
theorem Passes.of_token (h : Passes fits d scopes) (ht : d'.token fits = d.token fits) : Passes fits d' scopes := by
  obtain ⟨n, hn⟩ := h
  cases n with
  | zero => cases hn
  | succ n => exact ⟨n + 1, by rwa [walk, ht, ← walk]⟩

/-- Where no separator may stand the token is at the front. -/
theorem token_lead (hcolon : state ≠ .objectColon) (harray : state ≠ .arrayComma) (hobject : state ≠ .objectComma) :
    (Decoder.mk cs state stack).token fits = (Decoder.mk cs state stack).lead fits := by
  unfold Decoder.token
  split
  · rename_i heq
    rw [Decoder.lead, heq]
  rename_i c cs' heq
  have hbad : ∀ c, c = ':' ∨ c = ',' → skip cs = c :: cs' → (Decoder.mk cs state stack).lead fits = .error .failed := by
    rintro c hc hskip
    rw [Decoder.lead, hskip]
    have hscalar : scanScalar (c :: cs') = none := by rcases hc with rfl | rfl <;> rfl
    rcases hc with rfl | rfl
    · simp [hscalar]
    · simp [hscalar]
  split
  · rename_i hc
    exact (hbad c (.inl hc) heq).symm
  split
  · rename_i hc
    exact (hbad c (.inr hc) heq).symm
  · rfl

theorem token_skip : (Decoder.mk (skip cs) state stack).token fits = (Decoder.mk cs state stack).token fits := by
  simp only [Decoder.token, Decoder.lead, skip_skip]

theorem token_colon (h : skip cs = ':' :: rest) :
    (Decoder.mk cs .objectColon stack).token fits = (Decoder.mk rest .objectValue stack).token fits := by
  rw [Decoder.token, h]
  exact (token_lead (by decide) (by decide) (by decide)).symm

theorem token_arrayComma (h : skip cs = ',' :: rest) :
    (Decoder.mk cs .arrayComma stack).token fits = (Decoder.mk rest .arrayValue stack).token fits := by
  rw [Decoder.token, h]
  exact (token_lead (by decide) (by decide) (by decide)).symm

theorem token_objectComma (h : skip cs = ',' :: rest) :
    (Decoder.mk cs .objectComma stack).token fits = (Decoder.mk rest .objectKey stack).token fits := by
  rw [Decoder.token, h]
  exact (token_lead (by decide) (by decide) (by decide)).symm

/-- `]` after the opening bracket or an element. -/
theorem token_closeArray (hstate : state = .arrayStart ∨ state = .arrayComma) (h : skip cs = ']' :: rest) :
    (Decoder.mk cs state (outer :: stack)).token fits = .ok (.close, ⟨rest, outer.valueEnd, stack⟩) := by
  rw [Decoder.token, h]
  simp [Decoder.lead, h, hstate, Decoder.close]

theorem token_closeObject (hstate : state = .objectStart ∨ state = .objectComma) (h : skip cs = '}' :: rest) :
    (Decoder.mk cs state (outer :: stack)).token fits = .ok (.close, ⟨rest, outer.valueEnd, stack⟩) := by
  rw [Decoder.token, h]
  simp [Decoder.lead, h, hstate, Decoder.close]

theorem token_openArray (hstate : state.valueAllowed) (h : skip cs = '[' :: rest) :
    (Decoder.mk cs state stack).token fits = .ok (.openArray, ⟨rest, .arrayStart, state :: stack⟩) := by
  rw [Decoder.token, h]
  simp [Decoder.lead, h, hstate]

theorem token_openObject (hstate : state.valueAllowed) (h : skip cs = '{' :: rest) :
    (Decoder.mk cs state stack).token fits = .ok (.openObject, ⟨rest, .objectStart, state :: stack⟩) := by
  rw [Decoder.token, h]
  simp [Decoder.lead, h, hstate]

theorem token_name {name rest' : List Char} (hstate : state = .objectStart ∨ state = .objectKey) (h : skip cs = '"' :: rest)
    (hname : scanString none rest = some (name, rest')) :
    (Decoder.mk cs state stack).token fits = .ok (.text (String.ofList name), ⟨rest', .objectColon, stack⟩) := by
  rw [Decoder.token, h]
  simp [Decoder.lead, h, hstate, hname]

theorem Passes.not_failed (h : Passes fits d scopes) (ht : d.token fits = .error .failed) : False := by
  obtain ⟨n, hn⟩ := h
  cases n with
  | zero => cases hn
  | succ n =>
    rw [walk, ht] at hn
    cases hn

theorem scalarToken_cases (fits : List Char → Bool) (j : Json) : scalarToken fits j = .error .failed ∨
    ∃ t, scalarToken fits j = .ok t ∧ ((∃ s, t = .text s) ∨ t = .literal) := by
  cases j with
  | str s => exact .inr ⟨_, rfl, .inl ⟨s, rfl⟩⟩
  | num lit =>
    rw [scalarToken]
    split
    · exact .inr ⟨_, rfl, .inr rfl⟩
    · exact .inl rfl
  | null | bool | arr | obj => exact .inr ⟨_, rfl, .inr rfl⟩

/-- A value that is not in brackets is one token, after which the scopes are as
after any value. -/
theorem Passes.scalar {c : Char} {j : Json} (h : Passes fits ⟨cs, state, stack⟩ scopes) (hstate : state.valueAllowed)
    (hscopes : ∀ scope ∈ scopes.head?, (scope.object && scope.expectKey) = false) (hskip : skip cs = c :: rest)
    (hbrace : c ≠ '{') (hbracket : c ≠ '[') {rest' : List Char} (hj : scanScalar (c :: rest) = some (j, rest')) :
    Passes fits ⟨rest', state.valueEnd, stack⟩ (afterValue scopes) := by
  have hne : ∀ c', scanScalar (c' :: rest) = none → c ≠ c' := by
    rintro c' hnone rfl
    rw [hnone] at hj
    cases hj
  have hkey : ¬(state = .objectStart ∨ state = .objectKey) := by
    rintro (rfl | rfl)
    · cases hstate
    · cases hstate
  have hlead : (Decoder.mk cs state stack).token fits =
      (scalarToken fits j).map fun t => (t, ⟨rest', state.valueEnd, stack⟩) := by
    rw [Decoder.token, hskip]
    simp only [if_neg (hne ':' rfl), if_neg (hne ',' rfl), Decoder.lead, hskip, if_neg hbracket, if_neg hbrace,
      if_neg (hne ']' rfl), if_neg (hne '}' rfl), if_pos hstate, hj]
    exact if_neg fun h => hkey h.2
  have hafter : ∀ t, (∃ s, t = .text s) ∨ t = .literal → onToken scopes t = .ok (afterValue scopes) := by
    rintro t (⟨s, rfl⟩ | rfl)
    · cases scopes with
      | nil => rfl
      | cons scope scopes =>
        rw [onToken, if_neg (by rw [hscopes scope rfl]; decide)]
    · rfl
  rcases scalarToken_cases fits j with hfailed | ⟨t, ht, hvalue⟩
  · rw [hfailed] at hlead
    exact (h.not_failed hlead).elim
  · rw [ht] at hlead
    exact h.step_of hlead (hafter t hvalue)

/-- What the walk learns from a value, and where it goes on after it. -/
def WalksValue (fits : List Char → Bool) (n : Nat) : Prop :=
  ∀ cs j rest state stack scopes, scanValue n cs = some (j, rest) → state.valueAllowed →
    (∀ scope ∈ scopes.head?, (scope.object && scope.expectKey) = false) → Passes fits ⟨cs, state, stack⟩ scopes →
    j.Distinct ∧ Passes fits ⟨rest, state.valueEnd, stack⟩ (afterValue scopes)

theorem walks_elems {n : Nat} (hvalue : ∀ m < n, WalksValue fits m) {xs : List Json} (h : scanElems n cs = some (xs, rest))
    (hstate : state = .arrayStart ∨ state = .arrayValue)
    (hp : Passes fits ⟨cs, state, outer :: stack⟩ (⟨false, false, []⟩ :: scopes)) :
    (∀ x ∈ xs, x.Distinct) ∧ Passes fits ⟨rest, outer.valueEnd, stack⟩ (afterValue scopes) := by
  induction n generalizing cs xs state with
  | zero => cases h
  | succ n ih =>
    obtain ⟨m, x, cs₁, hm, hx, hrest⟩ := scanElems_cases h
    cases hm
    have hallowed : state.valueAllowed ∧ state.valueEnd = .arrayComma := by
      rcases hstate with rfl | rfl <;> exact ⟨rfl, rfl⟩
    obtain ⟨hdistinct, hp⟩ := hvalue n (Nat.lt_succ_self n) _ _ _ _ _ _ hx hallowed.1 (by simp) hp
    rw [hallowed.2] at hp
    rcases hrest with ⟨cs₂, xs', hcomma, hxs, rfl⟩ | ⟨hclose, rfl⟩
    · obtain ⟨helems, hp⟩ := ih (fun m hm => hvalue m (hm.trans (Nat.lt_succ_self n))) hxs (.inr rfl)
        (hp.of_token (token_arrayComma hcomma).symm)
      exact ⟨List.forall_mem_cons.2 ⟨hdistinct, helems⟩, hp⟩
    · exact ⟨by simpa using hdistinct, hp.step_of (token_closeArray (.inr rfl) hclose) rfl⟩

theorem walks_members {n : Nat} (hvalue : ∀ m < n, WalksValue fits m) {ms : List (String × Json)}
    (h : scanMembers n cs = some (ms, rest)) (hstate : state = .objectStart ∨ state = .objectKey) {names : List String}
    (hp : Passes fits ⟨cs, state, outer :: stack⟩ (⟨true, true, names⟩ :: scopes)) :
    (ms.map Prod.fst).Nodup ∧ (∀ m ∈ ms, m.1 ∉ names) ∧ (∀ m ∈ ms, m.2.Distinct) ∧
      Passes fits ⟨rest, outer.valueEnd, stack⟩ (afterValue scopes) := by
  induction n generalizing cs ms state names with
  | zero => cases h
  | succ n ih =>
    obtain ⟨m, name, x, cs₀, cs₁, cs₂, cs₃, hm, hquote, hname, hcolon, hx, hrest⟩ := scanMembers_cases h
    cases hm
    obtain ⟨scopes', hscopes, hp⟩ := hp.step (token_name hstate hquote hname)
    obtain ⟨hnew, rfl⟩ : String.ofList name ∉ names ∧ scopes' = ⟨true, false, String.ofList name :: names⟩ :: scopes := by
      simp only [onToken, Bool.and_self, if_true] at hscopes
      split at hscopes
      · cases hscopes
      · rename_i hnew
        cases hscopes
        exact ⟨hnew, rfl⟩
    obtain ⟨hdistinct, hp⟩ := hvalue n (Nat.lt_succ_self n) _ _ _ _ _ _ hx rfl (by simp)
      (hp.of_token (token_colon hcolon).symm)
    rcases hrest with ⟨cs₄, ms', hcomma, hms, rfl⟩ | ⟨hclose, rfl⟩
    · obtain ⟨hnodup, hfresh, hmembers, hp⟩ := ih (fun m hm => hvalue m (hm.trans (Nat.lt_succ_self n))) hms (.inr rfl)
        (hp.of_token (token_objectComma hcomma).symm)
      refine ⟨?_, ?_, List.forall_mem_cons.2 ⟨hdistinct, hmembers⟩, hp⟩
      · rw [List.map_cons, List.nodup_cons]
        refine ⟨?_, hnodup⟩
        intro hmem
        obtain ⟨m, hm, heq⟩ := List.mem_map.1 hmem
        exact hfresh m hm (by simp [heq])
      · rw [List.forall_mem_cons]
        exact ⟨hnew, fun m hm hmem => hfresh m hm (List.mem_cons_of_mem _ hmem)⟩
    · exact ⟨by simp, by simpa using hnew, by simpa using hdistinct, hp.step_of (token_closeObject (.inr rfl) hclose) rfl⟩

theorem walks_value (n : Nat) : WalksValue fits n := by
  induction n using Nat.strong_induction_on with
  | _ n ih =>
    intro cs j rest state stack scopes h hstate hscopes hp
    obtain ⟨m, c, cs', rfl, hskip, hcases⟩ := scanValue_cases h
    have hvalue : ∀ k < m, WalksValue fits k := fun k hk => ih k (hk.trans (Nat.lt_succ_self m))
    rcases hcases with ⟨rfl, hobj⟩ | ⟨rfl, harr⟩ | ⟨hbrace, hbracket, hscalar⟩
    · have hp := hp.step_of (token_openObject hstate hskip) rfl
      rcases hobj with ⟨hclose, rfl⟩ | ⟨ms, hms, rfl⟩
      · exact ⟨.obj (by simp) (by simp), hp.step_of (token_closeObject (.inl rfl) hclose) rfl⟩
      · obtain ⟨hnodup, -, hmembers, hp⟩ := walks_members hvalue hms (.inl rfl) (hp.of_token token_skip)
        exact ⟨.obj hnodup hmembers, hp⟩
    · have hp := hp.step_of (token_openArray hstate hskip) rfl
      rcases harr with ⟨hclose, rfl⟩ | ⟨xs, hxs, rfl⟩
      · exact ⟨.arr (by simp), hp.step_of (token_closeArray (.inl rfl) hclose) rfl⟩
      · obtain ⟨helems, hp⟩ := walks_elems hvalue hxs (.inl rfl) (hp.of_token token_skip)
        exact ⟨.arr helems, hp⟩
    · exact ⟨scanScalar_distinct hscalar, hp.scalar hstate hscopes hskip hbrace hbracket hscalar⟩

end agreement

/-- A document that the walk lets pass names nothing twice, as the decoder reads it. -/
theorem rejectDuplicateNames_distinct {fits : List Char → Bool} {data rest : List Char} {n : Nat} {j : Json}
    (h : rejectDuplicateNames fits data = .ok ()) (hj : scanValue n data = some (j, rest)) : j.Distinct := by
  have hp : Passes fits ⟨data, .top, []⟩ [] := ⟨data.length + 1, by rw [← h, rejectDuplicateNames, Option.some_get]⟩
  exact (walks_value n data j rest .top [] [] hj rfl (by simp) hp).1

end Multikernel.Protocol
