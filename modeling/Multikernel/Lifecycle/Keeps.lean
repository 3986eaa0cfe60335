import Multikernel.Lifecycle.Footprint
import Multikernel.Lifecycle.Runs
/-!
# The host's replies

Rules of the logic for the calls whose reply the world decides, and `Keeps`: a
program keeps a property of the lifecycle store wherever it stops.
-/

namespace Multikernel
open Lib

/-- On answers in `E` the service makes only calls that `G` allows, and returns
only what `Q` allows. -/
abbrev Ensures {α : Type} (E : Env) (G : World → Call → Prop) (p : Act α) (w : World)
    (Q : α → World → Prop) : Prop :=
  Sat (Host.trans E) G p w Q

abbrev Yields {α : Type} (E : Env) (p : Act α) (w : World) (Q : α → World → Prop) : Prop :=
  Ensures E (fun _ _ => True) p w Q

/-! ## Replies -/

section Replies
variable {E : Env} {G : World → Call → Prop} {α : Type} {Q : α → World → Prop} {w w' : World}

theorem store_of_reads {c : Call} (hc : Reads c) (w : World) (a : Answer) : (step w c a).1.store = w.store := by
  cases hc with
  | aside h =>
    cases h with
    | env c => cases c <;> rfl
    | exports | server | artifacts => rfl
  | _ => rfl

theorem journal_of_change (w : World) (ch : Change) (a : Answer) :
    (step w (.store (.change ch)) a).1.store.journal = w.store.journal :=
  Store.persist_journal _ _ _

/-- The journal only grows. -/
theorem journal_grows (w : World) (c : Call) (a : Answer) : w.store.journal <+: (step w c a).1.store.journal := by
  cases c with
  | store c =>
    cases c with
    | append e =>
      rcases (Store.append_cases w.store e a.time a.write).1 with ⟨-, h⟩ | ⟨-, -, h, -⟩
      · exact h ▸ List.prefix_refl _
      · exact h ▸ List.prefix_append _ _
    | change ch => exact journal_of_change w ch a ▸ List.prefix_refl _
    | result | sandbox | snapshot | journalEntries => exact List.prefix_refl _
  | env c => cases c <;> exact List.prefix_refl _
  | _ => exact List.prefix_refl _

/-- Records change only by a change. -/
theorem records_step {w : World} {c : Call} {a : Answer} {id : String} {sb : Sandbox} (h : (step w c a).1.store.Records id sb) :
    w.store.Records id sb ∨ ∃ ch, c = .store (.change ch) ∧ ch.adds = some sb ∧ sb.id = id := by
  cases c with
  | store c =>
    cases c with
    | append e => exact .inl (Store.records_append.1 h)
    | change ch => exact (Store.records_change h).imp_right fun hadds => ⟨ch, rfl, hadds⟩
    | result | sandbox | snapshot | journalEntries => exact .inl h
  | env c => cases c <;> exact .inl h
  | _ => exact .inl h

/-- What every call in `P` keeps on answers in `E`, a program that makes only
such calls keeps. -/
theorem host_keeps_on {P : Call → Prop} {J : World → Prop} {p : Act α} {R : α → Prop} (hp : Emits P p R) (hw : J w)
    (hJ : ∀ w c a, E w c a → J w → P c → J (step w c a).1) :
    Sat (Host.trans E) (fun w c => J w ∧ P c) p w fun r w => J w ∧ R r := by
  refine hp.sat hw fun w c r w' hw hc hr => ?_
  obtain ⟨a, hE, hr⟩ := hr
  have hw' : (step w c a).1 = w' := congrArg Prod.fst hr
  exact hw' ▸ hJ w c a hE hw hc

theorem host_keeps {P : Call → Prop} {J : World → Prop} {p : Act α} {R : α → Prop} (hp : Emits P p R) (hw : J w)
    (hJ : ∀ w c a, J w → P c → J (step w c a).1) :
    Sat (Host.trans E) (fun w c => J w ∧ P c) p w fun r w => J w ∧ R r :=
  host_keeps_on hp hw fun w c a _ hw hc => hJ w c a hw hc

/-- A keyed store stays keyed. -/
theorem host_keyed {p : Act α} (hp : Sat (Host.trans E) G p w Q) (hw : w.store.Keyed) :
    Sat (Host.trans E) G p w fun r w => Q r w ∧ w.store.Keyed := by
  refine (hp.inv (J := fun w => w.store.Keyed) hw fun w c r w' hw hr => ?_).imp (fun _ _ h => h.1) fun _ _ h => h
  obtain ⟨a, -, hr⟩ := hr
  have hw' : (step w c a).1 = w' := congrArg Prod.fst hr
  exact hw' ▸ step_keyed hw c a

theorem trans_reads {c : Call} {r : c.Reply} (h : Host.trans E w c r w') (hc : Reads c) : w'.store = w.store := by
  obtain ⟨a, -, h⟩ := h
  have := congrArg (·.1.store) h
  exact this.symm.trans (store_of_reads hc w a)

/-- A part that only reads the store leaves it to the rest as it was. -/
theorem host_reads {β : Type} {p : Act β} {f : β → Act α} (hp : Only Reads p)
    (hG : ∀ w' c, w'.store = w.store → Reads c → G w' c)
    (hf : ∀ a w', w'.store = w.store → Sat (Host.trans E) G (f a) w' Q) : Sat (Host.trans E) G (p >>= f) w Q := by
  refine sat_bind.2 (hp.simulate (R := fun w' _ => w'.store = w.store) rfl ?_ (fun w' _ c hw hc => hG w' c hw hc)
    fun w' _ a hw _ => hf a w' hw)
  exact fun w' u c r w'' hw hc hr => ⟨u, trivial, (trans_reads hr hc).trans hw⟩

/-- One call. -/
theorem host_perform {c : Call} {f : c.Reply → Act α} (hG : G w c)
    (h : ∀ r a, E w c a → (step w c a).2 = r → Sat (Host.trans E) G (f r) (step w c a).1 Q) :
    Sat (Host.trans E) G (perform c >>= f) w Q := by
  refine ⟨hG, fun r w' hr => ?_⟩
  obtain ⟨a, ha, hr⟩ := hr
  have hw' : (step w c a).1 = w' := congrArg Prod.fst hr
  have hrep : (step w c a).2 = r := congrArg Prod.snd hr
  exact hw' ▸ h r a ha hrep

theorem host_lock {l : Lock} {f : Unit → Act α} (hG : G w (.env (.lock l))) (h : Sat (Host.trans E) G (f ()) w Q) :
    Sat (Host.trans E) G (lock l >>= f) w Q :=
  host_perform hG fun _ _ _ _ => h

theorem host_unlock {l : Lock} {f : Unit → Act α} (hG : G w (.env (.unlock l))) (h : Sat (Host.trans E) G (f ()) w Q) :
    Sat (Host.trans E) G (unlock l >>= f) w Q :=
  host_perform hG fun _ _ _ _ => h

theorem host_checkpoint {point : String} {f : Option Err → Act α} (hG : G w (.env (.checkpoint point)))
    (herr : ∀ e, Sat (Host.trans E) G (f (some e)) w Q) (h : Sat (Host.trans E) G (f none) w Q) :
    Sat (Host.trans E) G (checkpoint point >>= f) w Q :=
  host_perform hG fun r _ _ _ => by
    cases r with
    | some e => exact herr e
    | none => exact h

theorem host_now {f : Nat → Act α} (hG : G w (.env .now)) (h : ∀ t, Sat (Host.trans E) G (f t) w Q) :
    Sat (Host.trans E) G (now >>= f) w Q :=
  host_perform hG fun t _ _ _ => h t

theorem host_sandbox {id : String} {f : Option Sandbox → Act α} (hG : G w (.store (.sandbox id)))
    (h : Sat (Host.trans E) G (f (w.store.data.sandboxes.lookup id)) w Q) :
    Sat (Host.trans E) G (store.sandbox id >>= f) w Q :=
  host_perform hG fun _ _ _ hr => hr ▸ h

theorem host_result {key : String} {f : Option IdempotentResult → Act α} (hG : G w (.store (.result key)))
    (h : Sat (Host.trans E) G (f (w.store.data.results.lookup key)) w Q) :
    Sat (Host.trans E) G (store.result key >>= f) w Q :=
  host_perform hG fun _ _ _ hr => hr ▸ h

theorem host_snapshot {f : Snapshot → Act α} (hG : G w (.store .snapshot))
    (h : Sat (Host.trans E) G (f w.store.data) w Q) : Sat (Host.trans E) G (store.snapshot >>= f) w Q :=
  host_perform hG fun _ _ _ hr => hr ▸ h

theorem host_journalEntries {f : Except Err (List JournalEntry) → Act α} (hG : G w (.store .journalEntries))
    (herr : ∀ e, Sat (Host.trans E) G (f (.error e)) w Q) (h : Sat (Host.trans E) G (f (.ok w.store.journal)) w Q) :
    Sat (Host.trans E) G (store.journalEntries >>= f) w Q := by
  refine host_perform hG fun _ a _ hrep => ?_
  rcases Store.journalEntries_reply w.store a.time a.write a.err with hr | ⟨e, hr⟩
  · exact hrep.symm.trans hr ▸ h
  · exact hrep.symm.trans hr ▸ herr e

theorem generation_reply (w : World) (a : Answer) :
    (envStep w a .generation).2 = .ok (hexGeneration a.entropy) ∨ ∃ e, (envStep w a .generation).2 = .error e := by
  unfold envStep
  cases a.err with
  | none => exact .inl rfl
  | some e => exact .inr ⟨e, rfl⟩

/-- The random source may give `v`. -/
def Draws (E : Env) (w : World) (v : Nat) : Prop := ∃ a, E w (.env .generation) a ∧ a.entropy = v

theorem host_generation {f : Except Err String → Act α} (hG : G w (.env .generation))
    (herr : ∀ e, Sat (Host.trans E) G (f (.error e)) w Q)
    (h : ∀ v, Draws E w v → Sat (Host.trans E) G (f (.ok (hexGeneration v))) w Q) :
    Sat (Host.trans E) G (generation >>= f) w Q := by
  refine host_perform hG fun _ a ha hrep => ?_
  rcases generation_reply w a with hg | ⟨e, hg⟩
  · exact hrep.symm.trans hg ▸ h a.entropy ⟨a, ha, rfl⟩
  · exact hrep.symm.trans hg ▸ herr e

/-- A write of the snapshot fails and changes the file at most, or is done. -/
theorem host_change {ch : Change} {f : Option Err → Act α} (hG : G w (.store (.change ch)))
    (herr : ∀ e d, d = w.store.disk ∨ d = w.store.data.change ch →
      Sat (Host.trans E) G (f (some e)) { w with store := { w.store with disk := d } } Q)
    (h : Sat (Host.trans E) G (f none)
      { w with store := { w.store with data := w.store.data.change ch, disk := w.store.data.change ch } } Q) :
    Sat (Host.trans E) G (store.change ch >>= f) w Q := by
  refine host_perform hG fun r a _ hrep => ?_
  change (w.store.persist (w.store.data.change ch) a.write).2 = r at hrep
  change Sat (Host.trans E) G (f r) { w with store := (w.store.persist (w.store.data.change ch) a.write).1 } Q
  rcases Store.persist_cases w.store (w.store.data.change ch) a.write with ⟨e, d, hs, hd⟩ | hs <;> rw [hs] at hrep ⊢
  · exact hrep ▸ herr e d hd
  · exact hrep ▸ h

/-- A success that is the recorded result of the key. -/
def Recorded (st : Store) (key : String) (fp : Fingerprint) (r : Response) : Prop :=
  ∀ x, r = .ok x → printableASCII key 1 128 ∧
    ∃ y, st.data.results.lookup key = some ⟨fp, .ok y⟩ ∧ x = { y with replayed := true }

theorem recorded_error {st : Store} {key : String} {fp : Fingerprint} {e : Error} : Recorded st key fp (.error e) :=
  fun x h => by cases h

/-- `replay` goes on only when the key is well formed and has no result. -/
theorem host_replay {key : String} {fp : Fingerprint} {f : Option Response → Act α} (hG : G w (.store (.result key)))
    (hsome : ∀ r, Recorded w.store key fp r → Sat (Host.trans E) G (f (some r)) w Q)
    (hnone : printableASCII key 1 128 → w.store.data.results.lookup key = none → Sat (Host.trans E) G (f none) w Q) :
    Sat (Host.trans E) G (Service.replay key fp >>= f) w Q := by
  unfold Service.replay
  split
  · exact hsome _ recorded_error
  · rename_i hkey
    refine sat_bind.2 (host_result hG ?_)
    cases hres : w.store.data.results.lookup key with
    | none => exact hnone (by simpa using hkey) hres
    | some old =>
      refine Sat.unless (hsome _ recorded_error) fun hfp => hsome _ fun x hx => ?_
      obtain ⟨fp', outcome⟩ := old
      simp only [ne_eq, not_not] at hfp
      subst hfp
      cases outcome with
      | error e => cases hx
      | ok y => exact ⟨by simpa using hkey, y, hres, (Except.ok.inj hx).symm⟩

end Replies

/-! ## Properties of the store -/

section Keeps
variable {E : Env} {J : Store → Prop} {α β : Type} {w : World}

/-- `p` keeps the property `J` of the store from `w` on, wherever it stops. -/
def Keeps (E : Env) (J : Store → Prop) (p : Act α) (w : World) : Prop :=
  Sat (Host.trans E) (fun w _ => J w.store) p w fun _ w => J w.store

theorem Keeps.bind {p : Act α} {f : α → Act β} (hp : Keeps E J p w)
    (hf : ∀ a w', J w'.store → Keeps E J (f a) w') : Keeps E J (p >>= f) w :=
  Sat.bind hp hf

theorem Keeps.after_reads {p : Act α} {f : α → Act β} (hp : Only Reads p) (hw : J w.store)
    (hf : ∀ a w', w'.store = w.store → Keeps E J (f a) w') : Keeps E J (p >>= f) w :=
  host_reads hp (fun _ _ h _ => h ▸ hw) hf

theorem Keeps.of_reads {p : Act α} (hp : Only Reads p) (hw : J w.store) : Keeps E J p w := by
  have hsame := host_keeps (E := E) (J := fun w' => w'.store = w.store) hp rfl
    fun w' c a hw' hc => (store_of_reads hc w' a).trans hw'
  exact hsame.imp (fun w' _ h => h.1 ▸ hw) fun _ w' h => h.1 ▸ hw

theorem Keeps.locked {l : Lock} {p : Act α} (hw : J w.store) (hp : Keeps E J p w) : Keeps E J (withLock l p) w :=
  host_lock hw (hp.bind fun _ _ ht => host_unlock ht ht)

/-- The answer of a finished operation says nothing more about the store. -/
theorem Keeps.map {p : Act α} {f : α → β} (hp : Keeps E J p w) : Keeps E J (do return f (← p)) w :=
  hp.bind fun _ _ hw => hw

end Keeps

end Multikernel
