import Mathlib.Data.String.Basic
import Mathlib.Data.List.Nodup
/-!
# JSON values and their texts

Values, and the reader of Go's `encoding/json`. A text is the characters of its
bytes (`runes`). A number keeps its literal, so that a reader of the value
decides what it means.
-/

namespace Multikernel.Lib

/-- The character of a UTF-8 sequence of two, three or four bytes, if it is one:
neither longer than it has to be, nor half of a surrogate pair. -/
def rune2 (a b : UInt8) : Option Char :=
  if 0xc2 ≤ a ∧ a ≤ 0xdf ∧ b &&& 0xc0 = 0x80 then some (Char.ofNat ((a.toNat - 0xc0) * 64 + (b.toNat - 0x80))) else none

def rune3 (a b c : UInt8) : Option Char :=
  let n := ((a.toNat - 0xe0) * 64 + (b.toNat - 0x80)) * 64 + (c.toNat - 0x80)
  if 0xe0 ≤ a ∧ a ≤ 0xef ∧ b &&& 0xc0 = 0x80 ∧ c &&& 0xc0 = 0x80 ∧ 0x800 ≤ n ∧ ¬(0xd800 ≤ n ∧ n ≤ 0xdfff) then
    some (Char.ofNat n)
  else none

def rune4 (a b c d : UInt8) : Option Char :=
  let n := (((a.toNat - 0xf0) * 64 + (b.toNat - 0x80)) * 64 + (c.toNat - 0x80)) * 64 + (d.toNat - 0x80)
  if 0xf0 ≤ a ∧ a ≤ 0xf4 ∧ b &&& 0xc0 = 0x80 ∧ c &&& 0xc0 = 0x80 ∧ d &&& 0xc0 = 0x80 ∧ 0x10000 ≤ n ∧ n ≤ 0x10ffff then
    some (Char.ofNat n)
  else none

/-- `utf8.DecodeRune`: a character and how many more bytes it takes. A byte that
starts no character is read as U+FFFD; a missing byte continues none. -/
def decodeRune (a : UInt8) (rest : List UInt8) : Char × Nat :=
  if a < 0x80 then (Char.ofNat a.toNat, 0)
  else match rune2 a (rest.getD 0 0) with
  | some c => (c, 1)
  | none =>
    match rune3 a (rest.getD 0 0) (rest.getD 1 0) with
    | some c => (c, 2)
    | none =>
      match rune4 a (rest.getD 0 0) (rest.getD 1 0) (rest.getD 2 0) with
      | some c => (c, 3)
      | none => ('\ufffd', 0)

/-- The characters of the bytes after the first `n`. -/
def runesAfter : Nat → List UInt8 → List Char
  | _, [] => []
  | n + 1, _ :: rest => runesAfter n rest
  | 0, a :: rest => (decodeRune a rest).1 :: runesAfter (decodeRune a rest).2 rest

def runes (bytes : List UInt8) : List Char := runesAfter 0 bytes

inductive Json where
  | null
  | bool (b : Bool)
  | num (lit : List Char)
  | str (s : String)
  | arr (xs : List Json)
  | obj (ms : List (String × Json))

namespace Json

def isWhite (c : Char) : Bool := c == ' ' || c == '\t' || c == '\r' || c == '\n'

/-! ## Reading -/

def skip (cs : List Char) : List Char := cs.dropWhile isWhite

def hexValue (c : Char) : Option Nat :=
  if '0' ≤ c ∧ c ≤ '9' then some (c.toNat - 48)
  else if 'a' ≤ c ∧ c ≤ 'f' then some (c.toNat - 87)
  else if 'A' ≤ c ∧ c ≤ 'F' then some (c.toNat - 55)
  else none

def hex4 (a b c d : Char) : Option Nat :=
  match hexValue a, hexValue b, hexValue c, hexValue d with
  | some a, some b, some c, some d => some (((a * 16 + b) * 16 + c) * 16 + d)
  | _, _, _, _ => none

/-- `\` and one character. -/
def simpleEscape (c : Char) : Option Char :=
  if c = '"' then some '"'
  else if c = '\\' then some '\\'
  else if c = '/' then some '/'
  else if c = 'b' then some '\x08'
  else if c = 'f' then some '\x0c'
  else if c = 'n' then some '\n'
  else if c = 'r' then some '\r'
  else if c = 't' then some '\t'
  else none

/-- Half of a surrogate pair that nothing completes is read as U+FFFD. -/
def lone : Option Nat → List Char
  | none => []
  | some _ => ['�']

/-- What a code unit after the half `high` adds, and the half it leaves. -/
def codeUnit (high : Option Nat) (n : Nat) : List Char × Option Nat :=
  if 0xd800 ≤ n ∧ n < 0xdc00 then (lone high, some n)
  else if 0xdc00 ≤ n ∧ n < 0xe000 then
    match high with
    | some m => ([Char.ofNat (0x10000 + (m - 0xd800) * 0x400 + (n - 0xdc00))], none)
    | none => (['�'], none)
  else (lone high ++ [Char.ofNat n], none)

/-- Characters before what was read after them. -/
def emit (cs : List Char) (r : Option (List Char × List Char)) : Option (List Char × List Char) :=
  r.map fun r => (cs ++ r.1, r.2)

/-- The characters of a string up to its closing quote, and what follows. -/
def scanString : Option Nat → List Char → Option (List Char × List Char)
  | _, [] => none
  | high, c :: cs =>
    if c = '"' then some (lone high, cs)
    else if c = '\\' then
      match cs with
      | [] => none
      | e :: cs =>
        if e = 'u' then
          match cs with
          | a :: b :: c :: d :: cs =>
            match hex4 a b c d with
            | none => none
            | some n => emit (codeUnit high n).1 (scanString (codeUnit high n).2 cs)
          | _ => none
        else match simpleEscape e with
        | none => none
        | some c => emit (lone high ++ [c]) (scanString none cs)
    else if c.toNat < 0x20 then none
    else emit (lone high ++ [c]) (scanString none cs)

/-! ### Numbers -/

/-- `0`, or digits without a leading zero: what follows them. -/
def intPart : List Char → Option (List Char)
  | [] => none
  | c :: cs => if c = '0' then some cs else if c.isDigit then some (cs.dropWhile Char.isDigit) else none

/-- At least one digit: what follows them. -/
def digits1 : List Char → Option (List Char)
  | [] => none
  | c :: cs => if c.isDigit then some (cs.dropWhile Char.isDigit) else none

def fracPart : List Char → Option (List Char)
  | '.' :: cs => digits1 cs
  | cs => some cs

def expSign : List Char → List Char
  | '+' :: cs => cs
  | '-' :: cs => cs
  | cs => cs

def expPart : List Char → Option (List Char)
  | 'e' :: cs => digits1 (expSign cs)
  | 'E' :: cs => digits1 (expSign cs)
  | cs => some cs

def minus : List Char → List Char
  | '-' :: cs => cs
  | cs => cs

/-- The longest number at the front of a text. -/
def scanNumber (cs : List Char) : Option (Json × List Char) :=
  match ((intPart (minus cs)).bind fracPart).bind expPart with
  | none => none
  | some rest => some (.num (cs.take (cs.length - rest.length)), rest)

/-- The rest of a word. -/
def scanWord (j : Json) : List Char → List Char → Option (Json × List Char)
  | [], cs => some (j, cs)
  | _ :: _, [] => none
  | w :: ws, c :: cs => if w = c then scanWord j ws cs else none

/-! ### Values -/

/-- A value that is not in brackets, and what follows it. -/
def scanScalar : List Char → Option (Json × List Char)
  | [] => none
  | c :: cs =>
    if c = '"' then (scanString none cs).map fun r => (.str (String.ofList r.1), r.2)
    else if c = 'n' then scanWord .null ['u', 'l', 'l'] cs
    else if c = 't' then scanWord (.bool true) ['r', 'u', 'e'] cs
    else if c = 'f' then scanWord (.bool false) ['a', 'l', 's', 'e'] cs
    else scanNumber (c :: cs)

mutual

/-- One value and what follows it. The first argument is fuel; the length of a
text is enough for the values in it. -/
def scanValue : Nat → List Char → Option (Json × List Char)
  | 0, _ => none
  | n + 1, cs =>
    match skip cs with
    | [] => none
    | c :: cs =>
      if c = '{' then
        match skip cs with
        | '}' :: cs => some (.obj [], cs)
        | cs => (scanMembers n cs).map fun r => (.obj r.1, r.2)
      else if c = '[' then
        match skip cs with
        | ']' :: cs => some (.arr [], cs)
        | cs => (scanElems n cs).map fun r => (.arr r.1, r.2)
      else scanScalar (c :: cs)

def scanElems : Nat → List Char → Option (List Json × List Char)
  | 0, _ => none
  | n + 1, cs =>
    match scanValue n cs with
    | none => none
    | some (x, cs) =>
      match skip cs with
      | ',' :: cs => (scanElems n cs).map fun r => (x :: r.1, r.2)
      | ']' :: cs => some ([x], cs)
      | _ => none

def scanMembers : Nat → List Char → Option (List (String × Json) × List Char)
  | 0, _ => none
  | n + 1, cs =>
    match skip cs with
    | '"' :: cs =>
      match scanString none cs with
      | none => none
      | some (k, cs) =>
        match skip cs with
        | ':' :: cs =>
          match scanValue n cs with
          | none => none
          | some (x, cs) =>
            match skip cs with
            | ',' :: cs => (scanMembers n cs).map fun r => ((String.ofList k, x) :: r.1, r.2)
            | '}' :: cs => some ([(String.ofList k, x)], cs)
            | _ => none
        | _ => none
    | _ => none

end

mutual

/-- How deep brackets stand in brackets. -/
def depth : Json → Nat
  | .arr xs => depthElems xs + 1
  | .obj ms => depthMembers ms + 1
  | _ => 0

def depthElems : List Json → Nat
  | [] => 0
  | x :: xs => max (depth x) (depthElems xs)

def depthMembers : List (String × Json) → Nat
  | [] => 0
  | (_, x) :: ms => max (depth x) (depthMembers ms)

end

mutual

/-- The test for equality. -/
def same : Json → Json → Bool
  | .null, .null => true
  | .bool a, .bool b => a == b
  | .num a, .num b => a == b
  | .str a, .str b => a == b
  | .arr xs, .arr ys => sameElems xs ys
  | .obj ms, .obj ns => sameMembers ms ns
  | _, _ => false

def sameElems : List Json → List Json → Bool
  | [], [] => true
  | x :: xs, y :: ys => same x y && sameElems xs ys
  | _, _ => false

def sameMembers : List (String × Json) → List (String × Json) → Bool
  | [], [] => true
  | (k, x) :: ms, (l, y) :: ns => k == l && same x y && sameMembers ms ns
  | _, _ => false

end

mutual

theorem eq_of_same {a b : Json} (h : same a b) : a = b := by
  cases a <;> cases b <;> simp only [same, beq_iff_eq, Bool.false_eq_true] at h
  case null.null => rfl
  case bool.bool => rw [h]
  case num.num => rw [h]
  case str.str => rw [h]
  case arr.arr xs ys => rw [eq_of_sameElems h]
  case obj.obj ms ns => rw [eq_of_sameMembers h]

theorem eq_of_sameElems {xs ys : List Json} (h : sameElems xs ys) : xs = ys := by
  cases xs with
  | nil => cases ys <;> simp_all [sameElems]
  | cons x xs =>
    cases ys with
    | nil => simp [sameElems] at h
    | cons y ys =>
      rw [sameElems, Bool.and_eq_true] at h
      rw [eq_of_same h.1, eq_of_sameElems h.2]

theorem eq_of_sameMembers {ms ns : List (String × Json)} (h : sameMembers ms ns) : ms = ns := by
  cases ms with
  | nil => cases ns <;> simp_all [sameMembers]
  | cons m ms =>
    cases ns with
    | nil => simp [sameMembers] at h
    | cons n ns =>
      rw [sameMembers, Bool.and_eq_true, Bool.and_eq_true, beq_iff_eq] at h
      rw [Prod.ext h.1.1 (eq_of_same h.1.2), eq_of_sameMembers h.2]

end

/-- In every object of the value each name stands once. -/
inductive Distinct : Json → Prop where
  | null : Distinct .null
  | bool (b : Bool) : Distinct (.bool b)
  | num (lit : List Char) : Distinct (.num lit)
  | str (s : String) : Distinct (.str s)
  | arr {xs : List Json} (elems : ∀ x ∈ xs, Distinct x) : Distinct (.arr xs)
  | obj {ms : List (String × Json)} (names : (ms.map Prod.fst).Nodup) (members : ∀ m ∈ ms, Distinct m.2) :
    Distinct (.obj ms)

/-! ### What is read is taken -/

section length
variable {cs rest : List Char} {j j' : Json}

theorem length_dropWhile_le (p : Char → Bool) (cs : List Char) : (cs.dropWhile p).length ≤ cs.length :=
  (List.dropWhile_sublist _).length_le

theorem skip_length (cs : List Char) : (skip cs).length ≤ cs.length := length_dropWhile_le _ cs

theorem emit_eq_some {cs s rest : List Char} {r : Option (List Char × List Char)} (h : emit cs r = some (s, rest)) :
    ∃ s', r = some (s', rest) := by
  simp only [emit, Option.map_eq_some_iff, Prod.mk.injEq] at h
  obtain ⟨⟨s', rest'⟩, hr, -, rfl⟩ := h
  exact ⟨s', hr⟩

theorem scanString_length {high : Option Nat} {s : List Char} (h : scanString high cs = some (s, rest)) :
    rest.length < cs.length := by
  fun_induction scanString high cs generalizing s
  all_goals first
    | cases h
      done
    | cases h
      exact Nat.lt_succ_self _
    | rename_i ih
      obtain ⟨s', hr⟩ := emit_eq_some h
      have := ih hr
      simp only [List.length_cons]
      omega

theorem scanWord_length {word : List Char} (h : scanWord j word cs = some (j', rest)) : rest.length ≤ cs.length := by
  induction word generalizing cs with
  | nil =>
    cases h
    exact le_rfl
  | cons w ws ih =>
    cases cs with
    | nil => cases h
    | cons c cs =>
      rw [scanWord] at h
      split at h
      · exact (ih h).trans (Nat.le_succ _)
      · cases h

theorem digits1_length (h : digits1 cs = some rest) : rest.length < cs.length := by
  cases cs with
  | nil => cases h
  | cons c cs =>
    rw [digits1] at h
    split at h
    · cases h
      exact Nat.lt_succ_of_le (length_dropWhile_le _ cs)
    · cases h

theorem intPart_length (h : intPart cs = some rest) : rest.length < cs.length := by
  cases cs with
  | nil => cases h
  | cons c cs =>
    rw [intPart] at h
    split at h
    · cases h
      exact Nat.lt_succ_self _
    split at h
    · cases h
      exact Nat.lt_succ_of_le (length_dropWhile_le _ cs)
    · cases h

theorem minus_length (cs : List Char) : (minus cs).length ≤ cs.length := by
  unfold minus
  split
  · exact Nat.le_succ _
  · exact le_rfl

theorem expSign_length (cs : List Char) : (expSign cs).length ≤ cs.length := by
  unfold expSign
  split
  · exact Nat.le_succ _
  · exact Nat.le_succ _
  · exact le_rfl

theorem fracPart_length (h : fracPart cs = some rest) : rest.length ≤ cs.length := by
  unfold fracPart at h
  split at h
  · exact (digits1_length h).le.trans (Nat.le_succ _)
  · cases h
    exact le_rfl

theorem expPart_length (h : expPart cs = some rest) : rest.length ≤ cs.length := by
  unfold expPart at h
  split at h
  · exact ((digits1_length h).le.trans (expSign_length _)).trans (Nat.le_succ _)
  · exact ((digits1_length h).le.trans (expSign_length _)).trans (Nat.le_succ _)
  · cases h
    exact le_rfl

theorem scanNumber_length (h : scanNumber cs = some (j, rest)) : rest.length < cs.length := by
  unfold scanNumber at h
  split at h
  · cases h
  rename_i rest' hparts
  cases h
  obtain ⟨r, hr, hexp⟩ := Option.bind_eq_some_iff.1 hparts
  obtain ⟨q, hint, hfrac⟩ := Option.bind_eq_some_iff.1 hr
  calc rest.length ≤ r.length := expPart_length hexp
    _ ≤ q.length := fracPart_length hfrac
    _ < (minus cs).length := intPart_length hint
    _ ≤ cs.length := minus_length cs

theorem scanScalar_length (h : scanScalar cs = some (j, rest)) : rest.length < cs.length := by
  cases cs with
  | nil => cases h
  | cons c cs =>
    rw [scanScalar] at h
    split at h
    · obtain ⟨⟨s, rest'⟩, hs, hr⟩ := Option.map_eq_some_iff.1 h
      cases hr
      exact (scanString_length hs).trans (Nat.lt_succ_self _)
    split at h
    · exact Nat.lt_succ_of_le (scanWord_length h)
    split at h
    · exact Nat.lt_succ_of_le (scanWord_length h)
    split at h
    · exact Nat.lt_succ_of_le (scanWord_length h)
    · exact scanNumber_length h

end length

/-! ### What a reader has read -/

section inversion
variable {n : Nat} {cs rest : List Char}

theorem skip_skip (cs : List Char) : skip (skip cs) = skip cs := by
  induction cs with
  | nil => rfl
  | cons c cs ih =>
    unfold skip at ih ⊢
    rw [List.dropWhile_cons]
    split
    · exact ih
    · rename_i hc
      rw [List.dropWhile_cons_of_neg hc]

theorem scanValue_cases {j : Json} (h : scanValue n cs = some (j, rest)) : ∃ m c cs', n = m + 1 ∧ skip cs = c :: cs' ∧
    ((c = '{' ∧ ((skip cs' = '}' :: rest ∧ j = .obj []) ∨ ∃ ms, scanMembers m (skip cs') = some (ms, rest) ∧ j = .obj ms)) ∨
      (c = '[' ∧ ((skip cs' = ']' :: rest ∧ j = .arr []) ∨ ∃ xs, scanElems m (skip cs') = some (xs, rest) ∧ j = .arr xs)) ∨
      (c ≠ '{' ∧ c ≠ '[' ∧ scanScalar (c :: cs') = some (j, rest))) := by
  cases n with
  | zero => cases h
  | succ m =>
    rw [scanValue] at h
    split at h
    · cases h
    rename_i c cs' hskip
    refine ⟨m, c, cs', rfl, hskip, ?_⟩
    split at h
    · rename_i hc
      refine .inl ⟨hc, ?_⟩
      split at h
      · rename_i hclose
        cases h
        exact .inl ⟨hclose, rfl⟩
      · obtain ⟨⟨ms, rest'⟩, hms, hr⟩ := Option.map_eq_some_iff.1 h
        cases hr
        exact .inr ⟨ms, hms, rfl⟩
    rename_i hbrace
    split at h
    · rename_i hc
      refine .inr (.inl ⟨hc, ?_⟩)
      split at h
      · rename_i hclose
        cases h
        exact .inl ⟨hclose, rfl⟩
      · obtain ⟨⟨xs, rest'⟩, hxs, hr⟩ := Option.map_eq_some_iff.1 h
        cases hr
        exact .inr ⟨xs, hxs, rfl⟩
    · rename_i hbracket
      exact .inr (.inr ⟨hbrace, hbracket, h⟩)

theorem scanElems_cases {xs : List Json} (h : scanElems n cs = some (xs, rest)) :
    ∃ m x cs₁, n = m + 1 ∧ scanValue m cs = some (x, cs₁) ∧
      ((∃ cs₂ xs', skip cs₁ = ',' :: cs₂ ∧ scanElems m cs₂ = some (xs', rest) ∧ xs = x :: xs') ∨
        (skip cs₁ = ']' :: rest ∧ xs = [x])) := by
  cases n with
  | zero => cases h
  | succ m =>
    rw [scanElems] at h
    split at h
    · cases h
    rename_i x cs₁ hx
    refine ⟨m, x, cs₁, rfl, hx, ?_⟩
    split at h
    · rename_i cs₂ hcomma
      obtain ⟨⟨xs', rest'⟩, hxs, hr⟩ := Option.map_eq_some_iff.1 h
      cases hr
      exact .inl ⟨cs₂, xs', hcomma, hxs, rfl⟩
    · rename_i hclose
      cases h
      exact .inr ⟨hclose, rfl⟩
    · cases h

theorem scanMembers_cases {ms : List (String × Json)} (h : scanMembers n cs = some (ms, rest)) :
    ∃ m name x cs₀ cs₁ cs₂ cs₃, n = m + 1 ∧ skip cs = '"' :: cs₀ ∧ scanString none cs₀ = some (name, cs₁) ∧
      skip cs₁ = ':' :: cs₂ ∧ scanValue m cs₂ = some (x, cs₃) ∧
      ((∃ cs₄ ms', skip cs₃ = ',' :: cs₄ ∧ scanMembers m cs₄ = some (ms', rest) ∧ ms = (String.ofList name, x) :: ms') ∨
        (skip cs₃ = '}' :: rest ∧ ms = [(String.ofList name, x)])) := by
  cases n with
  | zero => cases h
  | succ m =>
    rw [scanMembers] at h
    split at h
    case h_2 => cases h
    rename_i cs₀ hquote
    split at h
    · cases h
    rename_i name cs₁ hname
    split at h
    case h_2 => cases h
    rename_i cs₂ hcolon
    split at h
    · cases h
    rename_i x cs₃ hx
    refine ⟨m, name, x, cs₀, cs₁, cs₂, cs₃, rfl, hquote, hname, hcolon, hx, ?_⟩
    split at h
    · rename_i cs₄ hcomma
      obtain ⟨⟨ms', rest'⟩, hms, hr⟩ := Option.map_eq_some_iff.1 h
      cases hr
      exact .inl ⟨cs₄, ms', hcomma, hms, rfl⟩
    · rename_i hclose
      cases h
      exact .inr ⟨hclose, rfl⟩
    · cases h

theorem scanWord_value {word : List Char} {j j' : Json} (h : scanWord j word cs = some (j', rest)) : j' = j := by
  induction word generalizing cs with
  | nil =>
    cases h
    rfl
  | cons w ws ih =>
    cases cs with
    | nil => cases h
    | cons c cs =>
      rw [scanWord] at h
      split at h
      · exact ih h
      · cases h

theorem scanScalar_distinct {j : Json} (h : scanScalar cs = some (j, rest)) : j.Distinct := by
  cases cs with
  | nil => cases h
  | cons c cs =>
    rw [scanScalar] at h
    split at h
    · obtain ⟨r, -, hr⟩ := Option.map_eq_some_iff.1 h
      cases hr
      exact .str _
    split at h
    · rw [scanWord_value h]
      exact .null
    split at h
    · rw [scanWord_value h]
      exact .bool true
    split at h
    · rw [scanWord_value h]
      exact .bool false
    · unfold scanNumber at h
      split at h
      · cases h
      · cases h
        exact .num _

end inversion

end Json

end Multikernel.Lib
