import Mathlib.Data.List.Sort
import Mathlib.Data.UInt
import Multikernel.Lib.Runs
/-!
# Authenticated requests

`CallContext` (`runtime/agent/client.go`) signs each request under the next
sequence number, and a new client starts at the clock; `verify`
(`runtime/agent/server.go`) takes a number only above the last it took. In between
anyone may drop, repeat, reorder and make up envelopes, but not the tag of a text
that was never signed. The encodings and the MAC are any functions.
-/

namespace Multikernel.Session
open Lib

abbrev Text := List Char

structure Identity where
  sandboxID : String
  generation : String
  endpoint : UInt32
  deriving DecidableEq

/-- `Envelope`; the sequence is below 2^64. -/
structure Envelope where
  version : Int := 1
  who : Identity
  sequence : Nat
  method : String
  body : Text
  mac : String := ""

structure Codec where
  quote : String → Text
  compact : Text → Text
  hmac : List UInt8 → Text → List UInt8
  encodeHex : List UInt8 → String
  decodeHex : String → Option (List UInt8)

def decimal (n : Nat) : Text := Nat.toDigits 10 n

section Canonical
variable (k : Codec)

def head (version : Int) (who : Identity) : Text :=
  "\x7b\"version\":".toList ++ (toString version).toList ++ ",\"sandbox_id\":".toList ++ k.quote who.sandboxID
    ++ ",\"generation\":".toList ++ k.quote who.generation ++ ",\"endpoint\":".toList ++ decimal who.endpoint.toNat
    ++ ",\"sequence\":".toList

/-- `canonical`: the JSON text with an empty MAC. -/
def Envelope.canonical (e : Envelope) : Text :=
  head k e.version e.who ++ (decimal e.sequence ++ ',' :: ("\"method\":".toList ++ k.quote e.method
    ++ (if e.body = [] then [] else ",\"body\":".toList ++ k.compact e.body) ++ ",\"mac\":\"\"\x7d".toList))

end Canonical

theorem decimal_inj {a b : Nat} {s t : Text} (h : decimal a ++ ',' :: s = decimal b ++ ',' :: t) : a = b := by
  have hread : ∀ (n : Nat) (rest : Text), (decimal n ++ ',' :: rest).takeWhile Char.isDigit = decimal n := by
    intro n rest
    have hdigit : ∀ c ∈ decimal n, c.isDigit = true := fun c hc => Nat.isDigit_of_mem_toDigits (by decide) (by decide) hc
    rw [List.takeWhile_append_of_pos hdigit]
    simp
  have hdigits := congrArg (List.takeWhile Char.isDigit) h
  rw [hread, hread] at hdigits
  have hvalue := congrArg (fun digits => Nat.ofDigitChars 10 digits 0) hdigits
  simpa [decimal] using hvalue

/-- For one version and identity the text tells the sequence. -/
theorem sequence_of_canonical {k : Codec} {e e' : Envelope} (hversion : e.version = e'.version) (hwho : e.who = e'.who)
    (h : e.canonical k = e'.canonical k) : e.sequence = e'.sequence := by
  rw [Envelope.canonical, Envelope.canonical, hversion, hwho] at h
  exact decimal_inj (List.append_cancel_left h)

/-! ## The server -/

inductive Kind where
  | unauthenticated | unsupported
  deriving DecidableEq

structure Server where
  token : List UInt8
  who : Identity
  last : Nat := 0

def Server.authentic (k : Codec) (s : Server) (e : Envelope) : Prop :=
  k.decodeHex e.mac = some (k.hmac s.token (e.canonical k))

instance (k : Codec) (s : Server) (e : Envelope) : Decidable (s.authentic k e) := inferInstanceAs (Decidable (_ = _))

def Server.verify (k : Codec) (s : Server) (e : Envelope) : Except (Kind × String) Server :=
  if s.token.length = 0 then .error (.unauthenticated, "agent authentication is not configured")
  else if e.version ≠ 1 then .error (.unsupported, "unsupported version")
  else if e.who ≠ s.who then .error (.unauthenticated, "stale or wrong identity")
  else if ¬s.authentic k e then .error (.unauthenticated, "invalid authentication")
  else if e.sequence ≤ s.last then .error (.unauthenticated, "replayed sequence")
  else .ok { s with last := e.sequence }

theorem verify_eq_ok {k : Codec} {s s' : Server} {e : Envelope} (h : s.verify k e = .ok s') :
    e.version = 1 ∧ e.who = s.who ∧ s.authentic k e ∧ s.last < e.sequence ∧ s' = { s with last := e.sequence } := by
  unfold Server.verify at h
  split at h
  · cases h
  split at h
  · cases h
  split at h
  · cases h
  split at h
  · cases h
  split at h
  · cases h
  rename_i hversion hwho hauthentic hsequence
  cases h
  exact ⟨not_not.1 hversion, not_not.1 hwho, not_not.1 hauthentic, Nat.lt_of_not_le hsequence, rfl⟩

/-! ## Runs -/

/-- The server, the client's sequence, and the numbers and texts that were signed
and accepted so far. -/
structure World where
  server : Server
  sequence : Nat := 0
  signed : List (Nat × Text) := []
  accepted : List (Nat × Text) := []

inductive Event where
  /-- A new client; `initialSequence` reads the clock. -/
  | dial (clock : Nat)
  | call (method : String) (body : Text)
  /-- `json.Marshal` refuses the request, after the sequence was counted up. -/
  | unencodable
  /-- The server decodes an envelope from some connection. -/
  | deliver (e : Envelope)

/-- `Sign`. -/
def sign (k : Codec) (token : List UInt8) (e : Envelope) : Envelope :=
  { e with mac := k.encodeHex (k.hmac token (e.canonical k)) }

def World.request (k : Codec) (w : World) (method : String) (body : Text) : Envelope :=
  sign k w.server.token { who := w.server.who, sequence := (w.sequence + 1) % 2 ^ 64, method, body }

def World.turn (k : Codec) (w : World) : Event → World
  | .dial clock => { w with sequence := clock }
  | .call method body =>
    let e := w.request k method body
    { w with sequence := e.sequence, signed := w.signed ++ [(e.sequence, e.canonical k)] }
  | .unencodable => { w with sequence := (w.sequence + 1) % 2 ^ 64 }
  | .deliver e =>
    match w.server.verify k e with
    | .ok server => { w with server, accepted := w.accepted ++ [(e.sequence, e.canonical k)] }
    | .error _ => w

/-- The clock is not behind the last client's numbers, the numbers do not run
out, and a tag that fits a text comes from its signing. -/
def Honest (k : Codec) (w : World) : Event → Prop
  | .dial clock => w.sequence ≤ clock
  | .call _ _ | .unencodable => w.sequence + 1 < 2 ^ 64
  | .deliver e => w.server.authentic k e → e.canonical k ∈ w.signed.map Prod.snd

def Increasing (l : List (Nat × Text)) : Prop := l.Pairwise fun x y => x.1 < y.1

theorem Increasing.concat {l : List (Nat × Text)} {x : Nat × Text} (h : Increasing l) (hx : ∀ y ∈ l, y.1 < x.1) :
    Increasing (l ++ [x]) := by
  refine List.pairwise_append.2 ⟨h, List.pairwise_singleton _ _, ?_⟩
  intro y hy z hz
  rw [List.mem_singleton.1 hz]
  exact hx y hy

/-- One list in the order of another. -/
theorem Increasing.sublist {l m : List (Nat × Text)} (hl : Increasing l) (hm : Increasing m) (hsub : l ⊆ m) : l.Sublist m := by
  have hasymm : Std.Antisymm fun x y : Nat × Text => x.1 < y.1 := ⟨fun _ _ h h' => absurd h' (Nat.lt_asymm h)⟩
  have hnodup : l.Nodup := by
    apply List.Pairwise.imp _ hl
    rintro x y hlt rfl
    exact Nat.lt_irrefl _ hlt
  exact List.sublist_of_subperm_of_pairwise (List.subperm_of_subset hnodup hsub) hl hm

section Runs
variable {k : Codec} {who : Identity} {w : World}

structure Good (k : Codec) (who : Identity) (w : World) : Prop where
  server : w.server.who = who
  signed : Increasing w.signed
  accepted : Increasing w.accepted
  counted : ∀ x ∈ w.signed, x.1 ≤ w.sequence
  taken : ∀ x ∈ w.accepted, x.1 ≤ w.server.last
  own : ∀ x ∈ w.signed, ∃ e : Envelope, e.version = 1 ∧ e.who = who ∧ x = (e.sequence, e.canonical k)
  among : w.accepted ⊆ w.signed

theorem Good.later (h : Good k who w) {n : Nat} (hn : w.sequence ≤ n) : Good k who { w with sequence := n } :=
  ⟨h.server, h.signed, h.accepted, fun x hx => Nat.le_trans (h.counted x hx) hn, h.taken, h.own, h.among⟩

theorem Good.call (h : Good k who w) (hmore : w.sequence + 1 < 2 ^ 64) (method : String) (body : Text) :
    Good k who (w.turn k (.call method body)) := by
  have hnext : (w.request k method body).sequence = w.sequence + 1 := Nat.mod_eq_of_lt hmore
  have hbelow : ∀ x ∈ w.signed, x.1 < (w.request k method body).sequence := by
    intro x hx
    rw [hnext]
    exact Nat.lt_succ_of_le (h.counted x hx)
  refine ⟨h.server, h.signed.concat hbelow, h.accepted, ?_, h.taken, ?_, fun x hx => List.mem_append_left _ (h.among hx)⟩
  · intro x hx
    rcases List.mem_append.1 hx with hx | hx
    · exact Nat.le_of_lt (hbelow x hx)
    · rw [List.mem_singleton.1 hx]
      exact Nat.le_refl _
  · intro x hx
    rcases List.mem_append.1 hx with hx | hx
    · exact h.own x hx
    · exact ⟨w.request k method body, rfl, h.server, List.mem_singleton.1 hx⟩

theorem Good.deliver (h : Good k who w) {e : Envelope} (hforge : Honest k w (.deliver e)) :
    Good k who (w.turn k (.deliver e)) := by
  simp only [World.turn]
  cases hverify : w.server.verify k e with
  | error _ => exact h
  | ok server =>
    obtain ⟨hversion, hwho, hauthentic, hlast, rfl⟩ := verify_eq_ok hverify
    have hmem : (e.sequence, e.canonical k) ∈ w.signed := by
      obtain ⟨x, hx, htext⟩ := List.mem_map.1 (hforge hauthentic)
      obtain ⟨e', hversion', hwho', rfl⟩ := h.own x hx
      have hsame := sequence_of_canonical (hversion.trans hversion'.symm) (hwho.trans (h.server.trans hwho'.symm)) htext.symm
      rw [hsame, ← htext]
      exact hx
    refine ⟨h.server, h.signed, h.accepted.concat fun y hy => Nat.lt_of_le_of_lt (h.taken y hy) hlast, h.counted, ?_, h.own, ?_⟩
    · intro x hx
      rcases List.mem_append.1 hx with hx | hx
      · exact Nat.le_of_lt (Nat.lt_of_le_of_lt (h.taken x hx) hlast)
      · rw [List.mem_singleton.1 hx]
    · intro x hx
      rcases List.mem_append.1 hx with hx | hx
      · exact h.among hx
      · rw [List.mem_singleton.1 hx]
        exact hmem

theorem Good.turn (h : Good k who w) (ev : Event) (hev : Honest k w ev) : Good k who (w.turn k ev) := by
  cases ev with
  | dial clock => exact h.later hev
  | call method body => exact h.call hev method body
  | unencodable =>
    have hnext : (w.sequence + 1) % 2 ^ 64 = w.sequence + 1 := Nat.mod_eq_of_lt hev
    exact h.later (by omega)
  | deliver e => exact h.deliver hev

end Runs

/-- In every run the accepted requests are signed ones, in the order of their
signing, and no two of those have one number. -/
theorem accepted_in_order (k : Codec) (server : Server) (es : List Event)
    (hes : Conforms (World.turn k) (Honest k) { server } es) :
    (run (World.turn k) { server } es).accepted.Sublist (run (World.turn k) { server } es).signed ∧
      Increasing (run (World.turn k) { server } es).signed := by
  have hstart : Good k server.who { server } := by
    constructor <;> simp [Increasing]
  have hgood := hes.inv hstart fun w ev h hev => h.turn ev hev
  exact ⟨hgood.accepted.sublist hgood.signed hgood.among, hgood.signed⟩

def hexDigits : List UInt8 := "0123456789abcdef".toList.flatMap String.utf8EncodeChar

def readHex : List UInt8 → Option (List UInt8)
  | [] => some []
  | [_] => none
  | a :: b :: rest => (readHex rest).map ((16 * hexDigits.idxOf a + hexDigits.idxOf b).toUInt8 :: ·)

/-- The tag is the key and the text itself. -/
def plainCodec : Codec where
  quote s := '"' :: s.toList.flatMap (fun c => if c = '"' ∨ c = '\\' then ['\\', c] else [c]) ++ ['"']
  compact := id
  hmac key text := key ++ text.flatMap String.utf8EncodeChar
  encodeHex bytes := String.ofList (bytes.flatMap fun b => [Nat.digitChar (b.toNat / 16), Nat.digitChar (b.toNat % 16)])
  decodeHex s := readHex s.toByteArray.data.toList

def plainServer : Server := ⟨[1], ⟨"box", "g", 3⟩, 0⟩

/-- The request of a client that has counted to `n`. -/
def nth (n : Nat) : Envelope := World.request plainCodec { server := plainServer, sequence := n } "Capabilities" []

/-- A request is delivered twice, the second time after one of the next client. -/
def repeated : List Event :=
  [.dial 5, .call "Capabilities" [], .dial 90, .call "Capabilities" [], .deliver (nth 5), .deliver (nth 90), .deliver (nth 5)]

instance (k : Codec) (w : World) : (ev : Event) → Decidable (Honest k w ev)
  | .dial clock => inferInstanceAs (Decidable (w.sequence ≤ clock))
  | .call _ _ | .unencodable => inferInstanceAs (Decidable (w.sequence + 1 < 2 ^ 64))
  | .deliver _ => inferInstanceAs (Decidable (_ → _))

theorem accepted_in_order_repeated :
    (run (World.turn plainCodec) { server := plainServer } repeated).accepted.map Prod.fst = [6, 91] ∧
      (run (World.turn plainCodec) { server := plainServer } repeated).accepted.Sublist
        (run (World.turn plainCodec) { server := plainServer } repeated).signed :=
  ⟨by decide +kernel, (accepted_in_order plainCodec plainServer repeated (by decide +kernel)).1⟩

end Multikernel.Session
