import Mathlib.Data.List.Pairwise
import Mathlib.Logic.Function.Basic
import Multikernel.Lib.Checks
import Multikernel.Protocol.Duplicates
/-!
# Strict decoding

`StrictDecode` of `runtime/protocol/json.go`, with the part of `encoding/json` that
puts the members of an object into the fields of a struct: a member goes to the
field of its name, else to a field whose name differs from its own in letter case
only, and a later member of a field is read over an earlier one.

`strictDecode_single` says when an accepted document gives every field at most one
member, and that all ways to prefer one of several members then read the same.
-/

namespace Multikernel.Protocol

open Lib Lib.Json Function

/-! ## Names -/

/-- `foldRune`: the first of the characters that differ in case only. `simple` gives
it outside of ASCII, but for the two characters there that belong to a letter of
ASCII. -/
def foldRune (simple : Char → Char) (c : Char) : Char :=
  if c.toNat < 128 then c.toUpper
  else if c = '\u017f' then 'S'
  else if c = '\u212a' then 'K'
  else simple c

def foldName (simple : Char → Char) (name : String) : List Char := name.toList.map (foldRune simple)

/-- The JSON names of the fields of a struct. -/
structure FieldNames where
  names : List String
  ascii : names.all fun name => name.toList.all fun c => c.toNat < 128
  distinct : (names.map fun name => name.toList.map Char.toUpper).Nodup

/-- The field a member goes to. -/
def FieldNames.resolve (simple : Char → Char) (fields : FieldNames) (name : String) : Option String :=
  if name ∈ fields.names then some name
  else fields.names.find? fun field => foldName simple field = foldName simple name

/-! ## Types and values -/

/-- What a type holds after decoding. Nothing decoded yet is `nil`, the texts of
scalars and of `any` and `json.RawMessage` are kept. -/
inductive Value where
  | nil
  | json (j : Json)
  | ref (v : Value)
  | list (vs : List Value)
  | map (entries : String → Option Value)
  | struct (fields : String → Value)

/-- A Go type as `encoding/json` sees it. A type with an `UnmarshalJSON` of its own
decodes strictly into its `wire` type and may refuse what it gets. -/
inductive GoType where
  | scalar (accepts : Json → Bool)
  | any
  | raw
  | pointer (t : GoType)
  | slice (t : GoType)
  | map (t : GoType)
  | struct (fields : FieldNames) (field : String → GoType)
  | own (wire : GoType) (accepts : Json → Value → Bool)

def GoType.isStruct : GoType → Bool
  | .pointer t => t.isStruct
  | .struct _ _ => true
  | .own wire _ => wire.isStruct
  | _ => false

def GoType.zero : GoType → Value
  | .struct _ field => .struct fun f => (field f).zero
  | .own wire _ => wire.zero
  | _ => .nil

/-! ## Decoding -/

/-- The value a pointer leads to, an element of a slice, the entries of a map and the
fields of a struct, as they were before. -/
def Value.target (v : Value) (t : GoType) : Value :=
  match v with
  | .ref v => v
  | _ => t.zero

def Value.elem (v : Value) (i : Nat) (t : GoType) : Value :=
  match v with
  | .list vs => vs.getD i t.zero
  | _ => t.zero

def Value.entries : Value → String → Option Value
  | .map entries => entries
  | _ => fun _ => none

def Value.fields (v : Value) (field : String → GoType) : String → Value :=
  match v with
  | .struct fields => fields
  | _ => fun f => (field f).zero

/-- A change at a key, if there is a key. -/
def modifyAt {κ β : Type} [DecidableEq κ] (key : Option κ) (change : κ → β → β) (values : κ → β) : κ → β :=
  match key with
  | none => values
  | some k => update values k (change k (values k))

/-- `decodeState.value` into a variable: a `null` is nothing to a scalar or a struct, a
value of another kind is skipped. -/
def assign (simple : Char → Char) : GoType → Json → Value → Value
  | .scalar accepts, j, cur => if accepts j then .json j else cur
  | .any, .null, _ => .nil
  | .any, j, _ => .json j
  | .raw, j, _ => .json j
  | .pointer _, .null, _ => .nil
  | .pointer t, j, cur => .ref (assign simple t j (cur.target t))
  | .slice _, .null, _ => .nil
  | .slice t, .arr xs, cur => .list (xs.mapIdx fun i x => assign simple t x (cur.elem i t))
  | .slice _, _, cur => cur
  | .map _, .null, _ => .nil
  | .map t, .obj ms, cur =>
    .map (ms.foldl (fun entries m => modifyAt (some m.1) (fun _ _ => some (assign simple t m.2 t.zero)) entries) cur.entries)
  | .map _, _, cur => cur
  | .struct fields field, .obj ms, cur =>
    .struct (ms.foldl (fun values m => modifyAt (fields.resolve simple m.1) (fun f v => assign simple (field f) m.2 v) values)
      (cur.fields field))
  | .struct _ _, _, cur => cur
  | .own wire _, j, _ => assign simple wire j wire.zero

/-- What decoding can report. It goes on after a mismatch or an unknown field, and
stops where an `UnmarshalJSON` refuses. -/
inductive Failure where
  | mismatch | unknown | refused
  deriving DecidableEq

def failures (simple : Char → Char) : GoType → Json → List Failure
  | .own wire accepts, j =>
    if failures simple wire j = [] ∧ accepts j (assign simple wire j wire.zero) then [] else [.refused]
  | .raw, _ => []
  | .any, _ => []
  | _, .null => []
  | .scalar accepts, j => if accepts j then [] else [.mismatch]
  | .pointer t, j => failures simple t j
  | .slice t, .arr xs => xs.flatMap (failures simple t)
  | .slice _, _ => [.mismatch]
  | .map t, .obj ms => ms.flatMap fun m => failures simple t m.2
  | .map _, _ => [.mismatch]
  | .struct fields field, .obj ms =>
    ms.flatMap fun m => ((fields.resolve simple m.1).map fun f => failures simple (field f) m.2).getD [.unknown]
  | .struct _ _, _ => [.mismatch]

/-- `unicode.IsSpace`. -/
def isSpace (c : Char) : Bool :=
  c ∈ ['\t', '\n', '\x0b', '\x0c', '\r', ' ', '\u0085', '\u00a0', '\u1680', '\u2028', '\u2029', '\u202f', '\u205f', '\u3000'] ||
    (0x2000 ≤ c.toNat && c.toNat ≤ 0x200a)

/-- What `Decode` finds first in a text, and what it leaves. Brackets may stand ten
thousand deep. -/
def firstValue (text : List Char) : Except String (Json × List Char) :=
  match scanValue text.length text with
  | none => .error "invalid JSON document"
  | some (j, rest) => if j.depth > 10000 then .error "invalid JSON document" else .ok (j, rest)

/-- `StrictDecode` into a new variable of the type. -/
def strictDecode (simple : Char → Char) (fits : List Char → Bool) (data : List UInt8) (t : GoType) : Except String Value := do
  let text := runes data
  raiseIf (t.isStruct ∧ (text.dropWhile isSpace).head? ≠ some '{') "JSON object required for a structured document"
  rejectDuplicateNames fits text
  let (j, rest) ← firstValue text
  raiseIf (.refused ∈ failures simple t j) "invalid JSON document"
  raiseIf ((failures simple t j).head? = some .unknown) "unknown field in JSON document"
  raiseIf (failures simple t j ≠ []) "invalid JSON value type"
  raiseIf (skip rest ≠ []) "multiple JSON values"
  return assign simple t j t.zero

/-! ## One member for a field -/

/-- Each field of a struct, at every level, gets at most one member. -/
def Single (simple : Char → Char) : GoType → Json → Prop
  | .pointer t, j => Single simple t j
  | .slice t, .arr xs => ∀ x ∈ xs, Single simple t x
  | .map t, .obj ms => ∀ m ∈ ms, Single simple t m.2
  | .struct fields field, .obj ms =>
    (ms.filterMap fun m => fields.resolve simple m.1).Nodup ∧
      ∀ m ∈ ms, ∀ f, fields.resolve simple m.1 = some f → Single simple (field f) m.2
  | .own wire _, j => Single simple wire j
  | _, _ => True

/-- No object that is read into a struct has two names that differ in case only. -/
def Unaliased (simple : Char → Char) : GoType → Json → Prop
  | .pointer t, j => Unaliased simple t j
  | .slice t, .arr xs => ∀ x ∈ xs, Unaliased simple t x
  | .map t, .obj ms => ∀ m ∈ ms, Unaliased simple t m.2
  | .struct fields field, .obj ms =>
    (∀ m ∈ ms, ∀ m' ∈ ms, m.1 ≠ m'.1 → foldName simple m.1 ≠ foldName simple m'.1) ∧
      ∀ m ∈ ms, ∀ f, fields.resolve simple m.1 = some f → Unaliased simple (field f) m.2
  | .own wire _, j => Unaliased simple wire j
  | _, _ => True

/-- A decoder's choice among several members of one name or field. -/
structure Preference where
  among : List (String × Json) → Option (String × Json)
  none_iff : ∀ ms, among ms = none ↔ ms = []
  mem : ∀ ms m, among ms = some m → m ∈ ms

/-- What a decoder reads that takes for each name and each field the member it prefers. -/
def read (simple : Char → Char) (p : Preference) : GoType → Json → Value
  | .scalar accepts, j => if accepts j then .json j else .nil
  | .any, .null => .nil
  | .any, j => .json j
  | .raw, j => .json j
  | .pointer _, .null => .nil
  | .pointer t, j => .ref (read simple p t j)
  | .slice t, .arr xs => .list (xs.map (read simple p t))
  | .slice _, _ => .nil
  | .map t, .obj ms => .map fun k => (p.among (ms.filter fun m => some m.1 = some k)).map fun m => read simple p t m.2
  | .map _, _ => .nil
  | .struct fields field, .obj ms =>
    .struct fun f => ((p.among (ms.filter fun m => fields.resolve simple m.1 = some f)).map fun m =>
      read simple p (field f) m.2).getD (field f).zero
  | .struct fields field, _ => (GoType.struct fields field).zero
  | .own wire _, j => read simple p wire j

section names
variable {simple : Char → Char} {fields : FieldNames} {name name' f : String}

theorem foldName_field (h : f ∈ fields.names) : foldName simple f = f.toList.map Char.toUpper := by
  have hascii := List.all_eq_true.1 (List.all_eq_true.1 fields.ascii f h)
  exact List.map_congr_left fun c hc => if_pos (of_decide_eq_true (hascii c hc))

/-- A field is told by its folded name. -/
theorem FieldNames.eq_of_fold {g : String} (hf : f ∈ fields.names) (hg : g ∈ fields.names)
    (h : foldName simple f = foldName simple g) : f = g := by
  rw [foldName_field hf, foldName_field hg] at h
  exact List.inj_on_of_nodup_map fields.distinct hf hg h

theorem resolve_fold (h : fields.resolve simple name = some f) :
    f ∈ fields.names ∧ foldName simple f = foldName simple name := by
  unfold FieldNames.resolve at h
  split at h
  · rename_i hmem
    cases h
    exact ⟨hmem, rfl⟩
  · exact ⟨List.mem_of_find?_eq_some h, by simpa using List.find?_some h⟩

/-- Two names go to one field if they fold to one name. -/
theorem resolve_eq_iff {f' : String} (h : fields.resolve simple name = some f) (h' : fields.resolve simple name' = some f') :
    f = f' ↔ foldName simple name = foldName simple name' := by
  obtain ⟨hf, hfold⟩ := resolve_fold h
  obtain ⟨hf', hfold'⟩ := resolve_fold h'
  rw [← hfold, ← hfold']
  constructor
  · rintro rfl
    rfl
  · exact FieldNames.eq_of_fold hf hf'

end names

section single
variable {simple : Char → Char}

/-- In an object whose names are all known and are not repeated. -/
theorem nodup_resolve_iff {fields : FieldNames} {ms : List (String × Json)}
    (hknown : ∀ m ∈ ms, ∃ f, fields.resolve simple m.1 = some f) (hnames : (ms.map Prod.fst).Nodup) :
    (ms.filterMap fun m => fields.resolve simple m.1).Nodup ↔
      ∀ m ∈ ms, ∀ m' ∈ ms, m.1 ≠ m'.1 → foldName simple m.1 ≠ foldName simple m'.1 := by
  rw [List.Nodup, List.pairwise_filterMap]
  constructor
  · intro h m hm m' hm' hne hfold
    obtain ⟨f, hf⟩ := hknown m hm
    obtain ⟨f', hf'⟩ := hknown m' hm'
    have hsymm : Std.Symm fun m m' : String × Json =>
        ∀ f, fields.resolve simple m.1 = some f → ∀ f', fields.resolve simple m'.1 = some f' → f ≠ f' :=
      ⟨fun m m' h f hf f' hf' => (h f' hf' f hf).symm⟩
    exact h.forall hm hm' (fun heq => hne (congrArg Prod.fst heq)) f hf f' hf' ((resolve_eq_iff hf hf').2 hfold)
  · intro h
    rw [List.Nodup, List.pairwise_map] at hnames
    refine hnames.imp_of_mem fun {m m'} hm hm' hne f hf f' hf' heq => ?_
    exact h m hm m' hm' hne ((resolve_eq_iff hf hf').1 heq)

theorem single_null (t : GoType) : Single simple t .null := by
  induction t with
  | pointer t ih => exact ih
  | own wire accepts ih => exact ih
  | _ => trivial

theorem unaliased_null (t : GoType) : Unaliased simple t .null := by
  induction t with
  | pointer t ih => exact ih
  | own wire accepts ih => exact ih
  | _ => trivial

theorem single_iff_unaliased {t : GoType} {j : Json} (hj : j.Distinct) (hf : failures simple t j = []) :
    Single simple t j ↔ Unaliased simple t j := by
  induction t generalizing j with
  | scalar | any | raw => exact Iff.rfl
  | pointer t ih =>
    by_cases hnull : j = .null
    · rw [hnull]
      exact iff_of_true (single_null (.pointer t)) (unaliased_null (.pointer t))
    · have heq : failures simple (.pointer t) j = failures simple t j := by
        cases j with
        | null => exact absurd rfl hnull
        | _ => rfl
      exact ih hj (heq ▸ hf)
  | slice t ih =>
    cases hj with
    | arr helems =>
      rw [failures, List.flatMap_eq_nil_iff] at hf
      exact forall₂_congr fun x hx => ih (helems x hx) (hf x hx)
    | _ => exact Iff.rfl
  | map t ih =>
    cases hj with
    | obj hnames hmembers =>
      rw [failures, List.flatMap_eq_nil_iff] at hf
      exact forall₂_congr fun m hm => ih (hmembers m hm) (hf m hm)
    | _ => exact Iff.rfl
  | struct fields field ih =>
    cases hj with
    | @obj ms hnames hmembers =>
      rw [failures, List.flatMap_eq_nil_iff] at hf
      have hknown : ∀ m ∈ ms, ∃ f, fields.resolve simple m.1 = some f ∧ failures simple (field f) m.2 = [] := by
        intro m hm
        have hm' := hf m hm
        cases hr : fields.resolve simple m.1 with
        | none =>
          rw [hr] at hm'
          cases hm'
        | some f =>
          rw [hr] at hm'
          exact ⟨f, rfl, hm'⟩
      refine and_congr (nodup_resolve_iff (fun m hm => ?_) hnames) ?_
      · obtain ⟨f, hr, -⟩ := hknown m hm
        exact ⟨f, hr⟩
      · refine forall₂_congr fun m hm => forall₂_congr fun f hr => ih f (hmembers m hm) ?_
        obtain ⟨f', hr', hf'⟩ := hknown m hm
        rw [hr] at hr'
        cases hr'
        exact hf'
    | _ => exact Iff.rfl
  | own wire accepts ih =>
    rw [failures] at hf
    split at hf
    · rename_i hwire
      exact ih hj hwire.1
    · cases hf

end single

section reading
variable {simple : Char → Char} {κ α β : Type} [DecidableEq κ]

/-- Changes at keys, no key twice: each is made to what was there before. -/
theorem foldl_modifyAt {key : α → Option κ} (change : α → κ → β → β) {ms : List α} (h : (ms.filterMap key).Nodup)
    (values : κ → β) (k : κ) :
    (∀ m ∈ ms, key m = some k → ms.foldl (fun values m => modifyAt (key m) (change m) values) values k = change m k (values k)) ∧
      ((∀ m ∈ ms, key m ≠ some k) → ms.foldl (fun values m => modifyAt (key m) (change m) values) values k = values k) := by
  induction ms generalizing values with
  | nil => simp
  | cons m ms ih =>
    rw [List.foldl_cons]
    cases hm : key m with
    | none =>
      rw [List.filterMap_cons_none hm] at h
      obtain ⟨hget, hkeep⟩ := ih h values
      constructor
      · rw [List.forall_mem_cons]
        exact ⟨fun hk => by simp [hm] at hk, hget⟩
      · intro hne
        exact hkeep fun m' hm' => hne m' (List.mem_cons_of_mem _ hm')
    | some k' =>
      rw [List.filterMap_cons_some hm, List.nodup_cons] at h
      obtain ⟨hget, hkeep⟩ := ih h.2 (modifyAt (some k') (change m) values)
      have hother : k ≠ k' → modifyAt (some k') (change m) values k = values k := fun hne => update_of_ne hne _ _
      constructor
      · rw [List.forall_mem_cons]
        constructor
        · -- No later change is made at its key.
          intro hk
          rw [hm] at hk
          cases hk
          rw [hkeep fun m' hm' heq => h.1 (List.mem_filterMap.2 ⟨m', hm', heq⟩)]
          exact update_self ..
        · intro m' hm' hk
          have hne : k ≠ k' := by
            rintro rfl
            exact h.1 (List.mem_filterMap.2 ⟨m', hm', hk⟩)
          rw [hget m' hm' hk, hother hne]
      · intro hne
        rw [hkeep fun m' hm' => hne m' (List.mem_cons_of_mem _ hm')]
        exact hother fun heq => hne m (List.mem_cons_self ..) (heq ▸ hm)

theorem Preference.among_filter (p : Preference) (q : String × Json → Bool) (ms : List (String × Json)) :
    (∃ m ∈ ms, q m ∧ p.among (ms.filter q) = some m) ∨ ((∀ m ∈ ms, ¬q m) ∧ p.among (ms.filter q) = none) := by
  cases h : p.among (ms.filter q) with
  | none =>
    right
    have hnil := (p.none_iff _).1 h
    rw [List.filter_eq_nil_iff] at hnil
    exact ⟨hnil, rfl⟩
  | some m =>
    left
    obtain ⟨hm, hq⟩ := List.mem_filter.1 (p.mem _ _ h)
    exact ⟨m, hm, hq, rfl⟩

/-- Where each field gets one member, it does not matter which one is preferred, nor
that members are read over one another. -/
theorem assign_eq_read (p : Preference) {t : GoType} {j : Json} (hj : j.Distinct) (h : Single simple t j) :
    assign simple t j t.zero = read simple p t j := by
  induction t generalizing j with
  | scalar accepts => rfl
  | any => cases j <;> rfl
  | raw => rfl
  | pointer t ih =>
    cases j with
    | null => rfl
    | _ => exact congrArg Value.ref (ih hj h)
  | slice t ih =>
    cases hj with
    | arr helems =>
      rw [assign, read]
      congr 1
      apply List.ext_getElem
      · simp
      · intro i hi hi'
        rw [List.getElem_mapIdx, List.getElem_map]
        exact ih (helems _ (List.getElem_mem _)) (h _ (List.getElem_mem _))
    | _ => rfl
  | map t ih =>
    cases hj with
    | @obj ms hnames hmembers =>
      rw [assign, read]
      congr 1
      funext k
      have hkeys : (ms.filterMap fun m => some m.1).Nodup := by rwa [List.filterMap_eq_map']
      obtain ⟨hget, hkeep⟩ := foldl_modifyAt (fun m _ _ => some (assign simple t m.2 t.zero)) hkeys (fun _ => none) k
      rcases p.among_filter (fun m => some m.1 = some k) ms with ⟨m, hm, hk, hp⟩ | ⟨hnone, hp⟩
      · rw [decide_eq_true_iff] at hk
        rw [hp]
        exact (hget m hm hk).trans (congrArg some (ih (hmembers m hm) (h m hm)))
      · rw [hp]
        exact hkeep fun m hm hk => hnone m hm (decide_eq_true hk)
    | _ => rfl
  | struct fields field ih =>
    cases hj with
    | @obj ms hnames hmembers =>
      rw [assign, read]
      congr 1
      funext f
      obtain ⟨hget, hkeep⟩ := foldl_modifyAt (fun m f v => assign simple (field f) m.2 v) h.1 (fun f => (field f).zero) f
      rcases p.among_filter (fun m => fields.resolve simple m.1 = some f) ms with ⟨m, hm, hf, hp⟩ | ⟨hnone, hp⟩
      · rw [decide_eq_true_iff] at hf
        rw [hp]
        exact (hget m hm hf).trans (ih f (hmembers m hm) (h.2 m hm f hf))
      · rw [hp]
        exact hkeep fun m hm hf => hnone m hm (decide_eq_true hf)
    | _ => rfl
  | own wire accepts ih => exact ih hj h

end reading


/-- The document in the bytes. -/
def document (data : List UInt8) : Option Json :=
  (scanValue (runes data).length (runes data)).map Prod.fst

section strict
variable {simple : Char → Char} {fits : List Char → Bool} {data : List UInt8} {t : GoType} {v : Value}

/-- What is known of an accepted document. -/
theorem strictDecode_accepts (h : strictDecode simple fits data t = .ok v) :
    ∃ j, document data = some j ∧ j.Distinct ∧ failures simple t j = [] ∧ v = assign simple t j t.zero := by
  obtain ⟨⟨⟩, -, h⟩ := bind_eq_ok.1 h
  obtain ⟨⟨⟩, hnames, h⟩ := bind_eq_ok.1 h
  obtain ⟨⟨j, rest⟩, hfirst, h⟩ := bind_eq_ok.1 h
  obtain ⟨⟨⟩, -, h⟩ := bind_eq_ok.1 h
  obtain ⟨⟨⟩, -, h⟩ := bind_eq_ok.1 h
  obtain ⟨⟨⟩, hfailures, h⟩ := bind_eq_ok.1 h
  obtain ⟨⟨⟩, -, h⟩ := bind_eq_ok.1 h
  cases h
  have hscan : scanValue (runes data).length (runes data) = some (j, rest) := by
    unfold firstValue at hfirst
    split at hfirst
    · cases hfirst
    · rename_i heq
      split at hfirst
      · cases hfirst
      · cases hfirst
        exact heq
  refine ⟨j, by rw [document, hscan]; rfl, rejectDuplicateNames_distinct hnames hscan, ?_, rfl⟩
  exact not_not.1 (raiseIf_eq_ok.1 hfailures)

/-- An accepted document gives each field of a struct at most one member if, and only
if, no object read into a struct has two names that differ in case only. Then every
preference reads what `StrictDecode` returns. -/
theorem strictDecode_single (h : strictDecode simple fits data t = .ok v) :
    ∃ j, document data = some j ∧ (Single simple t j ↔ Unaliased simple t j) ∧
      (Single simple t j → ∀ p, read simple p t j = v) := by
  obtain ⟨j, hdoc, hdistinct, hfailures, rfl⟩ := strictDecode_accepts h
  exact ⟨j, hdoc, single_iff_unaliased hdistinct hfailures, fun hsingle p => (assign_eq_read p hdistinct hsingle).symm⟩

end strict

/-! ## A request -/

def stringType : GoType := .scalar fun j => j matches .str _

/-- The number a literal without fraction and exponent stands for. -/
def whole (lit : List Char) : Option Int :=
  if (minus lit).all Char.isDigit then
    let n : Nat := (minus lit).foldl (fun n c => n * 10 + (c.toNat - 48)) 0
    some (if lit.head? = some '-' then -n else n)
  else none

/-- A whole number between two bounds. -/
def intType (lo hi : Int) : GoType := .scalar fun j =>
  match j with
  | .num lit => (whole lit).any fun n => lo ≤ n && n ≤ hi
  | _ => false

/-- `Request` of `runtime/protocol/types.go`. -/
def requestFields : FieldNames :=
  ⟨["version", "request_id", "method", "idempotency_key", "sandbox_id", "generation", "body"], by decide +kernel, by decide +kernel⟩

def requestField (f : String) : GoType :=
  if f = "version" then intType (-9223372036854775808) 9223372036854775807
  else if f = "body" then .raw
  else stringType

def requestType : GoType := .struct requestFields requestField

def firstMember : Preference := ⟨List.head?, fun _ => List.head?_eq_none_iff, fun _ _ h => List.mem_of_mem_head? h⟩

def lastMember : Preference := ⟨List.getLast?, fun _ => List.getLast?_eq_none_iff, fun _ _ h => List.mem_of_mem_getLast? h⟩

def asciiBytes (text : String) : List UInt8 := text.toList.map fun c => UInt8.ofNat c.toNat

theorem document_eq_some {data : List UInt8} {j : Json} (h : (document data).any (same · j)) : document data = some j := by
  cases hdoc : document data with
  | none =>
    rw [hdoc] at h
    cases h
  | some i =>
    rw [hdoc] at h
    rw [eq_of_same h]

/-- A request with one spelling of a name, not the field's. -/
def plainRequest : List UInt8 := asciiBytes "\x7b\"version\":1,\"Generation\":\"a\"\x7d"

def plainDocument : Json := .obj [("version", .num ['1']), ("Generation", .str "a")]

theorem strictDecode_single_plain : ∃ v, strictDecode id (fun _ => true) plainRequest requestType = .ok v ∧
    document plainRequest = some plainDocument ∧ Single id requestType plainDocument ∧
    ∀ p, read id p requestType plainDocument = v := by
  have haccepted : (strictDecode id (fun _ => true) plainRequest requestType).isOk = true := by decide +kernel
  have hdoc : document plainRequest = some plainDocument := document_eq_some (by decide +kernel)
  have hflat : ∀ f j, Unaliased id (requestField f) j := by
    intro f j
    unfold requestField
    split
    · trivial
    split
    · trivial
    · trivial
  have hplain : Unaliased id requestType plainDocument := by
    rw [requestType, plainDocument, Unaliased]
    exact ⟨by decide +kernel, fun m _ f _ => hflat f m.2⟩
  cases h : strictDecode id (fun _ => true) plainRequest requestType with
  | error e =>
    rw [h] at haccepted
    cases haccepted
  | ok v =>
    obtain ⟨j, hj, hiff, hread⟩ := strictDecode_single h
    rw [hdoc] at hj
    cases hj
    exact ⟨v, rfl, hdoc, hiff.2 hplain, hread (hiff.2 hplain)⟩

/-- A request that names its generation twice, in two spellings. -/
def aliasedRequest : List UInt8 := asciiBytes "\x7b\"version\":1,\"generation\":\"a\",\"Generation\":\"b\"\x7d"

def aliasedDocument : Json := .obj [("version", .num ['1']), ("generation", .str "a"), ("Generation", .str "b")]

theorem strictDecode_aliased : (strictDecode id (fun _ => true) aliasedRequest requestType).isOk = true ∧
    document aliasedRequest = some aliasedDocument ∧ ¬Single id requestType aliasedDocument ∧
    read id firstMember requestType aliasedDocument ≠ read id lastMember requestType aliasedDocument := by
  have hversion : requestFields.resolve id "version" = some "version" := by decide +kernel
  have hlower : requestFields.resolve id "generation" = some "generation" := by decide +kernel
  have hupper : requestFields.resolve id "Generation" = some "generation" := by decide +kernel
  refine ⟨by decide +kernel, document_eq_some (by decide +kernel), ?_, ?_⟩
  · intro h
    rw [requestType, aliasedDocument, Single] at h
    simp [hversion, hlower, hupper] at h
  · intro h
    rw [requestType, aliasedDocument, read, read] at h
    have hgeneration := congrFun (Value.struct.inj h) "generation"
    simp [hversion, hlower, hupper, firstMember, lastMember, requestField, stringType, read] at hgeneration

end Multikernel.Protocol
