/-
  IncusDemo.RelaySafety

  What the proxy passes on.  In either direction it is a first part of what has
  been read, without gaps, and at most one buffer behind; a half close follows
  only on the end of the stream or on a failure; and the connections are closed
  only when both directions are through (`relay_in_order`).  Each direction waits
  for its own two peers and not for the other, and the handler for a peer or the
  two directions (`relay_progress`).
-/

import IncusDemo.Relay
import Mathlib.Data.List.Perm.Subperm

namespace IncusDemo
namespace Relay

open Go Conc Machine Discipline

-- ============================================================================
-- One direction
-- ============================================================================

/-- Nothing more is to be passed on: all of the stream was, or its rest is lost, or the connection
    that it goes to is broken. -/
inductive Passed (src dst : Conn) : Prop
  | all (hended : src.ended = some .eof) (hwritten : dst.written = src.received)
  | lost (e : Error) (hended : src.ended = some (.other e)) (hwritten : dst.written = src.taken)
  | broken (hbroken : dst.broken = true)

/-- What is passed on from one connection to the other. -/
structure Passing (src dst : Conn) : Prop where
  order : dst.written <+: src.taken
  /-- At most one buffer has been read and not yet written. -/
  held : src.taken.length ≤ dst.written.length + bufferSize
  shut : dst.shut = true → Passed src dst

/-- From `w` to `w'` nothing is passed on from `d`, and a stream that has ended stays as it is. -/
structure Rests (d : Side) (w w' : World) : Prop where
  taken : (w'.conn d).taken = (w.conn d).taken
  ended : ∀ e, (w.conn d).ended = some e →
    (w'.conn d).ended = some e ∧ (w'.conn d).unread = (w.conn d).unread
  written : (w'.conn d.other).written = (w.conn d.other).written
  broken : (w'.conn d.other).broken = (w.conn d.other).broken
  shut : (w'.conn d.other).shut = (w.conn d.other).shut

variable {d : Side} {w w' w'' : World}

theorem Rests.refl (d : Side) (w : World) : Rests d w w :=
  ⟨rfl, fun _ h => ⟨h, rfl⟩, rfl, rfl, rfl⟩

theorem Rests.trans (h : Rests d w w') (h' : Rests d w' w'') : Rests d w w'' where
  taken := h'.taken.trans h.taken
  ended := fun e he =>
    have hmid := h.ended e he
    have hend := h'.ended e hmid.1
    ⟨hend.1, hend.2.trans hmid.2⟩
  written := h'.written.trans h.written
  broken := h'.broken.trans h.broken
  shut := h'.shut.trans h.shut

/-- Opening or closing a connection passes nothing on. -/
theorem Rests.of_flags (hsame : ∀ s, ∃ o c, w'.conn s = { w.conn s with isOpen := o, closed := c })
    (d : Side) : Rests d w w' := by
  obtain ⟨o, c, hd⟩ := hsame d
  obtain ⟨o', c', hother⟩ := hsame d.other
  constructor <;> simp [hd, hother]

theorem Passed.of_rests (h : Passed (w.conn d) (w.conn d.other)) (hrests : Rests d w w') :
    Passed (w'.conn d) (w'.conn d.other) := by
  cases h with
  | all hended hwritten =>
    have hend := hrests.ended _ hended
    exact .all hend.1 (by rw [hrests.written, hwritten, Conn.received, Conn.received, hrests.taken,
      hend.2])
  | lost e hended hwritten =>
    exact .lost e (hrests.ended _ hended).1 (by rw [hrests.written, hwritten, hrests.taken])
  | broken hbroken => exact .broken (hrests.broken.trans hbroken)

theorem Passing.of_rests (h : Passing (w.conn d) (w.conn d.other)) (hrests : Rests d w w') :
    Passing (w'.conn d) (w'.conn d.other) where
  order := by rw [hrests.written, hrests.taken]; exact h.order
  held := by rw [hrests.written, hrests.taken]; exact h.held
  shut := fun hshut => (h.shut (hrests.shut ▸ hshut)).of_rests hrests

-- ============================================================================
-- The discipline
-- ============================================================================

/-- Nothing has been passed on from `d`. -/
structure Untouched (w : World) (d : Side) : Prop where
  taken : (w.conn d).taken = []
  written : (w.conn d.other).written = []
  broken : (w.conn d.other).broken = false
  shut : (w.conn d.other).shut = false

/-- The invariant of a connection to the proxy. -/
structure Relayed (w : World) : Prop where
  passing : ∀ d, Passing (w.conn d) (w.conn d.other)
  fresh : ∀ d, d ∉ w.started → Untouched w d
  started : w.started.Nodup
  opened : w.started ≠ [] → ∀ s, (w.conn s).isOpen = true
  once : w.finished.Nodup
  finished : ∀ d, d ∈ w.finished → d ∈ w.started ∧ (w.conn d.other).shut = true
  closed : ∀ s, (w.conn s).closed = true → (w.conn .backend).isOpen = true → ∀ d, d ∈ w.finished
  last : (w.conn .client).closed = true → (w.conn .backend).isOpen = true →
    (w.conn .backend).closed = true

/-- What the handler relies on: the goroutines only come to their ends. -/
structure Awaits (w w' : World) : Prop where
  started : w'.started = w.started
  added : w'.added = w.added
  finished : ∀ d, d ∈ w.finished → d ∈ w'.finished
  isOpen : ∀ s, (w'.conn s).isOpen = (w.conn s).isOpen
  closed : ∀ s, (w'.conn s).closed = (w.conn s).closed

/-- What a goroutine relies on. -/
structure Leaves (d : Side) (w w' : World) : Prop where
  rests : Rests d w w'
  started : d ∈ w.started → d ∈ w'.started
  finished : d ∈ w'.finished ↔ d ∈ w.finished

/-- The operations of the handler. -/
def Op.handles : Op → Bool
  | .handshake | .dbGetInstance _ | .dial .. | .add _ | .go _ | .wait | .close _ => true
  | _ => false

/-- The operations of the goroutine that copies from `d`. -/
def Op.copies (d : Side) : Op → Bool
  | .rounds | .halt => true
  | .read s | .done s => s = d
  | .write s _ | .closeWrite s => s = d.other
  | _ => false

/-- Nothing is done with a connection that has been closed, and nothing is closed twice. -/
def Usable (w : World) : Op → Prop
  | .read s => (w.conn s).isOpen = true ∧ (w.conn s).closed = false
  | .write s _ | .closeWrite s => ((w.conn s).isOpen = true ∧ (w.conn s).closed = false) ∧
      (w.conn s).shut = false
  | .close s => (w.conn s).closed = false
  | _ => True

/-- What the three threads keep to. -/
def rules : Discipline Op World Proc where
  roles w := .handle :: w.started.map .copy
  inv := Relayed
  rely
    | .handle => Awaits
    | .copy d => Leaves d
  pre
    | .handle, _ => False
    | .copy d, w => (d ∈ w.started ∧ d ∉ w.finished) ∧ Untouched w d
  ok
    | .handle, w, o => o.handles = true ∧ Usable w o ∧
        (o = .wait → w.added = 2 ∧ ∀ d, d ∈ w.started)
    | .copy d, w, o => (d ∈ w.started ∧ d ∉ w.finished) ∧ o.copies d = true ∧ Usable w o
  fin
    | .handle, w => (w.conn .client).closed = true
    | .copy d, w => d ∈ w.finished

theorem Awaits.refl (w : World) : Awaits w w :=
  ⟨rfl, rfl, fun _ h => h, fun _ => rfl, fun _ => rfl⟩

theorem Awaits.trans (h : Awaits w w') (h' : Awaits w' w'') : Awaits w w'' :=
  ⟨h'.started.trans h.started, h'.added.trans h.added, fun d hd => h'.finished d (h.finished d hd),
    fun s => (h'.isOpen s).trans (h.isOpen s), fun s => (h'.closed s).trans (h.closed s)⟩

theorem Leaves.refl (d : Side) (w : World) : Leaves d w w := ⟨.refl d w, id, Iff.rfl⟩

theorem Leaves.trans (h : Leaves d w w') (h' : Leaves d w' w'') : Leaves d w w'' :=
  ⟨h.rests.trans h'.rests, fun hd => h'.started (h.started hd), h'.finished.trans h.finished⟩

/-- Only the streams change. -/
structure Streams (w w' : World) : Prop where
  started : w'.started = w.started
  added : w'.added = w.added
  finished : w'.finished = w.finished
  isOpen : ∀ s, (w'.conn s).isOpen = (w.conn s).isOpen
  closed : ∀ s, (w'.conn s).closed = (w.conn s).closed

theorem Streams.awaits (h : Streams w w') : Awaits w w' :=
  ⟨h.started, h.added, fun _ hd => h.finished ▸ hd, h.isOpen, h.closed⟩

theorem Streams.leaves (h : Streams w w') (hrests : Rests d w w') : Leaves d w w' :=
  ⟨hrests, fun hd => h.started ▸ hd, by rw [h.finished]⟩

theorem streams_setConn {s : Side} {c : Conn} (hopen : c.isOpen = (w.conn s).isOpen)
    (hclosed : c.closed = (w.conn s).closed) : Streams w (w.setConn s c) where
  started := rfl
  added := rfl
  finished := rfl
  isOpen := fun s' => by
    rcases s'.eq_or_other s with rfl | rfl
    · simpa using hopen
    · simp
  closed := fun s' => by
    rcases s'.eq_or_other s with rfl | rfl
    · simpa using hclosed
    · simp

theorem Untouched.of_rests (h : Untouched w d) (hrests : Rests d w w') : Untouched w' d :=
  ⟨hrests.taken.trans h.taken, hrests.written.trans h.written, hrests.broken.trans h.broken,
    hrests.shut.trans h.shut⟩

/-- Only the stream from `d` changes, once its goroutine is there. -/
theorem Relayed.of_stream (h : Relayed w) (hw : Streams w w') (hstarted : d ∈ w.started)
    (hother : Rests d.other w w') (hpass : Passing (w'.conn d) (w'.conn d.other))
    (hshut : d ∈ w.finished → (w'.conn d.other).shut = true) : Relayed w' where
  passing := fun d' => by
    rcases d'.eq_or_other d with rfl | rfl
    · exact hpass
    · exact (h.passing d.other).of_rests hother
  fresh := fun d' hd' => by
    rw [hw.started] at hd'
    rcases d'.eq_or_other d with rfl | rfl
    · exact absurd hstarted hd'
    · exact (h.fresh _ hd').of_rests hother
  started := hw.started ▸ h.started
  opened := fun hne s => by
    rw [hw.isOpen]
    exact h.opened (hw.started ▸ hne) s
  once := hw.finished ▸ h.once
  finished := fun d' hd' => by
    rw [hw.finished] at hd'
    rw [hw.started]
    refine ⟨(h.finished d' hd').1, ?_⟩
    rcases d'.eq_or_other d with rfl | rfl
    · exact hshut hd'
    · exact hother.shut.trans (h.finished _ hd').2
  closed := fun s hs hopen => by
    rw [hw.closed] at hs
    rw [hw.isOpen] at hopen
    rw [hw.finished]
    exact h.closed s hs hopen
  last := fun hclosed hopen => by
    rw [hw.closed] at hclosed ⊢
    rw [hw.isOpen] at hopen
    exact h.last hclosed hopen

/-- Nothing is passed on. -/
theorem Relayed.of_rests (h : Relayed w) (hw : Streams w w') (hrests : ∀ d, Rests d w w') :
    Relayed w' where
  passing := fun d => (h.passing d).of_rests (hrests d)
  fresh := fun d hd => (h.fresh d (hw.started ▸ hd)).of_rests (hrests d)
  started := hw.started ▸ h.started
  opened := fun hne s => (hw.isOpen s).trans (h.opened (hw.started ▸ hne) s)
  once := hw.finished ▸ h.once
  finished := fun d hd =>
    have hfin := h.finished d (hw.finished ▸ hd)
    ⟨hw.started ▸ hfin.1, (hrests d).shut.trans hfin.2⟩
  closed := fun s hs hopen => by
    rw [hw.finished]
    exact h.closed s ((hw.closed s).symm.trans hs) ((hw.isOpen _).symm.trans hopen)
  last := fun hclosed hopen => (hw.closed _).trans
    (h.last ((hw.closed _).symm.trans hclosed) ((hw.isOpen _).symm.trans hopen))

-- ============================================================================
-- Reads and writes
-- ============================================================================

/-- What a read does to a connection. -/
structure DidRead (c : Conn) (bytes : List UInt8) (er : Option (ReadError Error)) (c' : Conn) :
    Prop where
  conn : c' = { c with unread := c'.unread, taken := c.taken ++ bytes }
  unread : c.unread = bytes ++ c'.unread
  bound : bytes.length ≤ bufferSize
  error : ∀ e, er = some e → c.ended = some e ∧ (e = .eof → c'.unread = [])

theorem read_did {c c' : Conn} {ch : Choice} {bytes : List UInt8} {er : Option (ReadError Error)}
    (h : c.read ch = some ((bytes, er), c')) : DidRead c bytes er c' := by
  unfold Conn.read at h
  split at h
  · rename_i n together
    dsimp only at h
    split at h
    · cases h
    · cases h
      refine ⟨rfl, (List.take_append_drop ..).symm, ?_, fun e he => ?_⟩
      · exact (List.length_take_le ..).trans (Nat.min_le_right ..)
      · split at he
        · rename_i hlast
          exact ⟨he, fun _ => hlast.2⟩
        · cases he
  · split at h
    · rename_i hended
      split at h
      · rename_i hunread
        cases h
        refine ⟨by simp, by simp, Nat.zero_le _, fun e he => ?_⟩
        cases he
        exact ⟨hended, fun _ => hunread⟩
      · cases h
    · rename_i e hended
      cases h
      refine ⟨by simp, by simp, Nat.zero_le _, fun e he => ?_⟩
      cases he
      exact ⟨hended, nofun⟩
    · cases h
  · cases h

/-- What a write does to a connection. -/
structure DidWrite (c : Conn) (bytes : List UInt8) (n : Nat) (ew : Option Error) (c' : Conn) :
    Prop where
  conn : c' = { c with written := c'.written, broken := c'.broken, room := c'.room }
  written : ∃ sent, sent <+: bytes ∧ c'.written = c.written ++ sent
  all : ew = none → n = bytes.length ∧ c'.written = c.written ++ bytes ∧ c'.broken = c.broken
  error : ∀ e, ew = some e → c'.broken = true

theorem write_did {c c' : Conn} {bytes : List UInt8} {ch : Choice} {n : Nat} {ew : Option Error}
    (h : c.write bytes ch = some ((n, ew), c')) : DidWrite c bytes n ew c' := by
  unfold Conn.write at h
  split at h
  · split at h
    · cases h
    · cases h
      exact ⟨rfl, ⟨bytes, List.prefix_rfl, rfl⟩, fun _ => ⟨rfl, rfl, rfl⟩, nofun⟩
  · split at h
    · cases h
      exact ⟨rfl, ⟨[], List.nil_prefix, (List.append_nil _).symm⟩, nofun, fun _ _ => rfl⟩
    · split at h
      · cases h
        exact ⟨rfl, ⟨_, List.take_prefix .., rfl⟩, nofun, fun _ _ => rfl⟩
      · cases h
  · cases h

/-- A peer adds to a stream that has not ended, or ends it. -/
theorem rests_peer {s : Side} (hlive : (w.conn s).ended = none) (unread : List UInt8)
    (ended : Option (ReadError Error)) (d : Side) :
    Rests d w (w.setConn s { w.conn s with unread := unread, ended := ended }) := by
  rcases s.eq_or_other d with rfl | rfl
  · constructor <;> simp [hlive]
  · constructor <;> simp

/-- A peer does something other than send. -/
theorem rests_transport {s : Side} (answered reset : Bool) (room : Nat) (d : Side) :
    Rests d w
      (w.setConn s { w.conn s with answered := answered, room := room, reset := reset }) := by
  rcases s.eq_or_other d with rfl | rfl
  · constructor <;> simp
  · constructor <;> simp

theorem env_keeps {e : Env} {stop : Bool} {ps : List Proc} (h : env w e = some (w', stop, ps)) :
    stop = false ∧ ps = [] ∧ Streams w w' ∧ ∀ d, Rests d w w' := by
  cases e with
  | answer s =>
    cases h
    exact ⟨rfl, rfl, streams_setConn rfl rfl, rests_transport _ _ _⟩
  | drain s n =>
    cases h
    exact ⟨rfl, rfl, streams_setConn rfl rfl, rests_transport _ _ _⟩
  | reset s =>
    cases h
    exact ⟨rfl, rfl, streams_setConn rfl rfl, rests_transport _ _ _⟩
  | arrive s bytes =>
    simp only [env] at h
    split at h
    · rename_i hlive
      cases h
      exact ⟨rfl, rfl, streams_setConn rfl rfl, rests_peer hlive.2 _ _⟩
    · cases h
  | finish s e =>
    simp only [env] at h
    split at h
    · rename_i hlive
      cases h
      exact ⟨rfl, rfl, streams_setConn rfl rfl, rests_peer hlive.2 _ _⟩
    · cases h

theorem exec_roles {t : Nat} {o : Op} {ch : Choice} {r : Ret o}
    (h : exec w t o ch = some (r, w')) :
    rules.roles w' = rules.roles w ++ spawn o := by
  have hstarted : w'.started.map Proc.copy = w.started.map Proc.copy ++ spawn o := by
    cases o with
    | read s =>
      obtain ⟨⟨r, c⟩, -, heq⟩ := Option.map_eq_some_iff.mp h
      cases heq
      exact (List.append_nil _).symm
    | write s bytes =>
      obtain ⟨⟨r, c⟩, -, heq⟩ := Option.map_eq_some_iff.mp h
      cases heq
      exact (List.append_nil _).symm
    | go s =>
      cases ch <;> cases h
      exact List.map_append
    | handshake | dial | wait =>
      cases ch <;> simp only [exec, reduceCtorEq] at h
      all_goals
        split at h
        · cases h
          exact (List.append_nil _).symm
        · cases h
    | _ =>
      cases ch <;> cases h
      all_goals exact (List.append_nil _).symm
  exact congrArg (Proc.handle :: ·) hstarted

theorem rules_lawful (target : String) : rules.Lawful (machine target) where
  refl
    | .handle, w => Awaits.refl w
    | .copy d, w => Leaves.refl d w
  trans
    | .handle, _, _, _ => Awaits.trans
    | .copy _, _, _, _ => Leaves.trans
  nodup := fun w h => by
    refine List.nodup_cons.mpr ⟨by simp, h.started.map ?_⟩
    intro d d' heq
    cases heq
    rfl
  taken := fun w t o c r w' h => exec_roles (t := t) h
  fin
    | .handle, _, _, h, hrely => (hrely.closed .client).trans h
    | .copy _, _, _, h, hrely => hrely.finished.mpr h
  act := fun w e w' stop ps h henv => by
    obtain ⟨hstop, hps, hw, hrests⟩ := env_keeps henv
    refine ⟨hstop, hps, h.of_rests hw hrests, ?_, ?_⟩
    · simp [rules, hw.started]
    · rintro (_ | d) -
      · exact hw.awaits
      · exact hw.leaves (hrests d)

-- ============================================================================
-- The goroutines
-- ============================================================================

variable {target : String}

/-- The goroutine that copies from `d` has been started, and is not done. -/
def Running (w : World) (d : Side) : Prop := d ∈ w.started ∧ d ∉ w.finished

/-- It has read `held` and not yet written it, and `er` came with it. -/
structure Carries (d : Side) (held : List UInt8) (er : Option (ReadError Error)) (w : World) :
    Prop where
  running : Running w d
  taken : (w.conn d).taken = (w.conn d.other).written ++ held
  bound : held.length ≤ bufferSize
  broken : (w.conn d.other).broken = false
  shut : (w.conn d.other).shut = false
  error : ∀ e, er = some e → (w.conn d).ended = some e ∧ (e = .eof → (w.conn d).unread = [])

/-- It has come to the end of its copy. -/
structure Copied (d : Side) (w : World) : Prop where
  running : Running w d
  shut : (w.conn d.other).shut = false
  passed : Passed (w.conn d) (w.conn d.other)

/-- It has passed the end of the stream on. -/
structure HalfClosed (d : Side) (w : World) : Prop where
  running : Running w d
  shut : (w.conn d.other).shut = true

/-- As long as it is running, both connections are there. -/
theorem Running.usable (h : Running w d) (hinv : Relayed w) (s : Side) :
    (w.conn s).isOpen = true ∧ (w.conn s).closed = false := by
  have hopen := hinv.opened (List.ne_nil_of_mem h.1)
  exact ⟨hopen s, Bool.eq_false_iff.mpr fun hclosed => h.2 (hinv.closed s hclosed (hopen _) d)⟩

theorem Running.stable (h : Running w d) (hrely : Leaves d w w') : Running w' d :=
  ⟨hrely.started h.1, fun hd => h.2 (hrely.finished.mp hd)⟩

theorem carries_stable (held : List UInt8) (er : Option (ReadError Error)) :
    rules.Stable (.copy d) (Carries d held er) := fun w w' h hrely =>
  { running := h.running.stable hrely
    taken := by rw [hrely.rests.taken, hrely.rests.written, h.taken]
    bound := h.bound
    broken := hrely.rests.broken.trans h.broken
    shut := hrely.rests.shut.trans h.shut
    error := fun e he => by
      obtain ⟨hended, hunread⟩ := h.error e he
      obtain ⟨hended', hsame⟩ := hrely.rests.ended e hended
      exact ⟨hended', fun heof => hsame.trans (hunread heof)⟩ }

theorem copied_stable : rules.Stable (.copy d) (Copied d) := fun _ _ h hrely =>
  ⟨h.running.stable hrely, hrely.rests.shut.trans h.shut, h.passed.of_rests hrely.rests⟩

theorem halfClosed_stable : rules.Stable (.copy d) (HalfClosed d) := fun _ _ h hrely =>
  ⟨h.running.stable hrely, hrely.rests.shut.trans h.shut⟩

/-- What the goroutine does to its own direction. -/
theorem guarantees_stream {o : Op} (h : Relayed w) (hrunning : Running w d) (hspawn : spawn o = [])
    (hw : Streams w w') (hother : Rests d.other w w')
    (hpass : Passing (w'.conn d) (w'.conn d.other)) :
    rules.Guarantees (machine target) (.copy d) w o w' where
  inv := h.of_stream hw hrunning.1 hother hpass fun hd => absurd hd hrunning.2
  rely
    | .handle, _, _ => hw.awaits
    | .copy d', _, hne => by
      rcases d'.eq_or_other d with rfl | rfl
      · exact absurd rfl hne
      · exact hw.leaves hother
  pre := fun q hq => by
    change q ∈ spawn o at hq
    rw [hspawn] at hq
    cases hq

theorem read_sound {er : Option (ReadError Error)} (hw : Carries d [] er w) :
    rules.Sound (machine target) (.copy d) (perform (.read d)) (fun r => Carries d r.1 r.2) w := by
  refine sound_op (carries_stable [] er) hw (fun w h hinv =>
    ⟨h.running, by simp [Op.copies], h.running.usable hinv d⟩) ?_
  rintro w t ch ⟨bytes, er'⟩ w' h hinv hexec
  obtain ⟨⟨r, c⟩, hread, heq⟩ := Option.map_eq_some_iff.mp hexec
  cases heq
  have hdid := read_did hread
  have htaken : c.taken = (w.conn d.other).written ++ bytes := by
    rw [hdid.conn]
    dsimp only
    rw [h.taken, List.append_nil]
  refine ⟨guarantees_stream hinv h.running rfl ?_ ?_ ?_, ?_⟩
  · exact streams_setConn (by rw [hdid.conn]) (by rw [hdid.conn])
  · constructor <;> simp
    all_goals rw [hdid.conn]
  · simp only [World.setConn_self, World.setConn_other]
    refine ⟨htaken ▸ List.prefix_append .., ?_, fun hshut => ?_⟩
    · rw [htaken, List.length_append]
      exact Nat.add_le_add_left hdid.bound _
    · rw [h.shut] at hshut
      cases hshut
  · refine ⟨h.running, by simpa using htaken, hdid.bound, by simpa using h.broken,
      by simpa using h.shut, fun e he => ?_⟩
    simp only [World.setConn_self]
    obtain ⟨hended, hunread⟩ := hdid.error e he
    exact ⟨by rw [hdid.conn]; exact hended, hunread⟩

theorem write_sound {held : List UInt8} {er : Option (ReadError Error)} (hw : Carries d held er w) :
    rules.Sound (machine target) (.copy d) (perform (.write d.other held)) (fun r w =>
      (∀ e, r.2 = some e → Copied d w) ∧
        (r.2 = none → if r.1 = held.length then Carries d [] er w else Copied d w)) w := by
  refine sound_op (carries_stable held er) hw (fun w h hinv =>
    ⟨h.running, by simp [Op.copies], h.running.usable hinv _, h.shut⟩) ?_
  rintro w t ch ⟨n, ew⟩ w' h hinv hexec
  obtain ⟨⟨r, c⟩, hwrite, heq⟩ := Option.map_eq_some_iff.mp hexec
  cases heq
  have hdid := write_did hwrite
  have hshut : c.shut = false := by
    rw [hdid.conn]
    exact h.shut
  obtain ⟨sent, hsent, hwritten⟩ := hdid.written
  refine ⟨guarantees_stream hinv h.running rfl ?_ ?_ ?_, fun e he => ?_, fun hnone => ?_⟩
  · exact streams_setConn (by rw [hdid.conn]) (by rw [hdid.conn])
  · constructor <;> simp
    all_goals rw [hdid.conn]
    all_goals simp
  · simp only [World.setConn_of_other, World.setConn_self]
    refine ⟨?_, ?_, fun htrue => ?_⟩
    · rw [hwritten, h.taken]
      exact (List.prefix_append_right_inj _).mpr hsent
    · rw [hwritten, h.taken, List.length_append, List.length_append]
      have hbound := h.bound
      omega
    · rw [hshut] at htrue
      cases htrue
  · exact ⟨h.running, by simpa using hshut, .broken (by simpa using hdid.error e he)⟩
  · obtain ⟨hn, hall, hbroken⟩ := hdid.all hnone
    rw [if_pos hn]
    refine ⟨h.running, ?_, Nat.zero_le _, by simpa using hbroken.trans h.broken,
      by simpa using hshut, fun e he => ?_⟩
    · simp only [World.setConn_of_other, World.setConn_self]
      rw [hall, List.append_nil, h.taken]
    · simpa using h.error e he

/-- The two calls of a copy keep what it carries. -/
theorem copy_sound (rounds : Nat) (hw : Carries d [] none w) :
    rules.Sound (machine target) (.copy d) (Go.copy (perform (.read d))
      (fun bytes => perform (.write d.other bytes)) (perform .halt) rounds)
      (fun _ => Copied d) w := by
  refine wp_copy (J := Carries d) ⟨?_, ?_, ?_, ?_, ?_⟩ rounds hw
  · exact fun w h => read_sound h
  · exact fun bytes er w _ h => write_sound h
  · intro w h
    obtain ⟨hended, hunread⟩ := h.error _ rfl
    refine ⟨h.running, h.shut, .all hended ?_⟩
    rw [Conn.received, hunread rfl, h.taken, List.append_nil, List.append_nil]
  · intro e w h
    exact ⟨h.running, h.shut, .lost e (h.error _ rfl).1 (by rw [h.taken, List.append_nil])⟩
  · intro w h
    refine sound_op (carries_stable [] none) h (fun w h _ => ⟨h.running, rfl, trivial⟩) ?_
    intro w t ch r
    exact nomatch r

theorem closeWrite_sound (hw : Copied d w) :
    rules.Sound (machine target) (.copy d) (perform (.closeWrite d.other))
      (fun _ => HalfClosed d) w := by
  refine sound_op copied_stable hw (fun w h hinv =>
    ⟨h.running, by simp [Op.copies], h.running.usable hinv _, h.shut⟩) ?_
  intro w t ch r w' h hinv hexec
  cases ch <;> cases hexec
  refine ⟨guarantees_stream hinv h.running rfl (streams_setConn rfl rfl) ?_ ?_, h.running, by simp⟩
  · constructor <;> simp
  · have hpass := hinv.passing d
    simp only [World.setConn_of_other, World.setConn_self]
    refine ⟨hpass.order, hpass.held, fun _ => ?_⟩
    cases h.passed with
    | all hended hwritten => exact .all hended hwritten
    | lost e hended hwritten => exact .lost e hended hwritten
    | broken hbroken => exact .broken hbroken

theorem done_sound (hw : HalfClosed d w) :
    rules.Sound (machine target) (.copy d) (perform (.done d)) (fun _ w => d ∈ w.finished) w := by
  refine sound_op halfClosed_stable hw (fun w h _ => ⟨h.running, by simp [Op.copies], trivial⟩) ?_
  intro w t ch r w' h hinv hexec
  cases ch <;> cases hexec
  have hmem : ∀ d', d' ∈ w.finished ++ [d] ↔ d' ∈ w.finished ∨ d' = d := by simp
  refine ⟨⟨?_, ?_, ?_⟩, (hmem d).mpr (.inr rfl)⟩
  · exact {
      passing := hinv.passing
      fresh := fun d' hd' => ⟨(hinv.fresh d' hd').taken, (hinv.fresh d' hd').written,
        (hinv.fresh d' hd').broken, (hinv.fresh d' hd').shut⟩
      started := hinv.started
      opened := hinv.opened
      once := by
        refine List.nodup_append.mpr ⟨hinv.once, List.nodup_singleton d, ?_⟩
        rintro d' hd' d'' hd'' rfl
        exact h.running.2 (List.mem_singleton.mp hd'' ▸ hd')
      finished := fun d' hd' => by
        rcases (hmem d').mp hd' with hd' | rfl
        · exact hinv.finished d' hd'
        · exact ⟨h.running.1, h.shut⟩
      closed := fun s hs hopen d' => (hmem d').mpr (.inl (hinv.closed s hs hopen d'))
      last := hinv.last }
  · rintro (_ | d') - hne
    · exact ⟨rfl, rfl, fun d' hd' => (hmem d').mpr (.inl hd'), fun _ => rfl, fun _ => rfl⟩
    · refine ⟨⟨rfl, fun e he => ⟨he, rfl⟩, rfl, rfl, rfl⟩, id, (hmem d').trans ?_⟩
      refine or_iff_left ?_
      rintro rfl
      exact hne rfl
  · exact fun q hq => nomatch hq

theorem copyFrom_sound (hpre : rules.pre (.copy d) w) :
    rules.Sound (machine target) (.copy d) (copyFrom d) (fun _ w => d ∈ w.finished) w := by
  have hw : Carries d [] none w :=
    ⟨hpre.1, by rw [hpre.2.taken, hpre.2.written]; rfl, Nat.zero_le _, hpre.2.broken, hpre.2.shut,
      nofun⟩
  unfold copyFrom
  refine sound_seq (Q := fun _ => Carries d [] none) ?_ fun rounds w hw => ?_
  · refine sound_op (carries_stable [] none) hw (fun w h _ => ⟨h.running, rfl, trivial⟩) ?_
    intro w t ch r w' h hinv hexec
    cases ch <;> cases hexec
    exact ⟨guarantees_stream hinv h.running rfl ⟨rfl, rfl, rfl, fun _ => rfl, fun _ => rfl⟩
      (.refl _ _) (hinv.passing d), h⟩
  · exact sound_seq (copy_sound rounds hw) fun _ _ hcopied =>
      sound_seq (closeWrite_sound hcopied) fun _ _ hshut => done_sound hshut

-- ============================================================================
-- The handler
-- ============================================================================

/-- How far the handler has come, with both connections open or none that is closed. -/
structure Serving (clientOpen backendOpen : Bool) (added : Nat) (started : List Side) (w : World) :
    Prop where
  client : (w.conn .client).isOpen = clientOpen
  backend : (w.conn .backend).isOpen = backendOpen
  added : w.added = added
  started : w.started = started
  closed : ∀ s, (w.conn s).closed = false

/-- The directions are through. -/
structure Through (w : World) : Prop where
  backend : (w.conn .backend).isOpen = true
  finished : ∀ d, d ∈ w.finished
  closed : ∀ s, (w.conn s).closed = false

/-- Only the connection to the client is left to be closed. -/
structure Served (w : World) : Prop where
  finished : (w.conn .backend).isOpen = true → ∀ d, d ∈ w.finished
  client : (w.conn .client).closed = false
  backend : (w.conn .backend).isOpen = true → (w.conn .backend).closed = true

variable {clientOpen backendOpen : Bool} {added : Nat} {started : List Side}

theorem serving_stable : rules.Stable .handle (Serving clientOpen backendOpen added started) :=
  fun _ _ h hrely => ⟨(hrely.isOpen _).trans h.client, (hrely.isOpen _).trans h.backend,
    hrely.added.trans h.added, hrely.started.trans h.started,
    fun s => (hrely.closed s).trans (h.closed s)⟩

theorem through_stable : rules.Stable .handle Through := fun _ _ h hrely =>
  ⟨(hrely.isOpen _).trans h.backend, fun d => hrely.finished d (h.finished d),
    fun s => (hrely.closed s).trans (h.closed s)⟩

theorem served_stable : rules.Stable .handle Served := fun _ _ h hrely =>
  ⟨fun hopen d => hrely.finished d (h.finished ((hrely.isOpen _).symm.trans hopen) d),
    (hrely.closed _).trans h.client,
    fun hopen => (hrely.closed _).trans (h.backend ((hrely.isOpen _).symm.trans hopen))⟩

/-- Before the goroutines are started, a return leaves only the client's connection. -/
theorem Serving.served (h : Serving clientOpen false added [] w) : Served w :=
  have hopen := Bool.eq_false_iff.mp h.backend
  ⟨fun htrue => absurd htrue hopen, h.closed .client, fun htrue => absurd htrue hopen⟩

/-- What the handler does leaves the streams alone. -/
theorem guarantees_handle {o : Op} (hinv : Relayed w') (hrests : ∀ d, Rests d w w')
    (hstarted : ∀ d, d ∈ w.started → d ∈ w'.started) (hfinished : w'.finished = w.finished)
    (hpre : ∀ q ∈ spawn o, rules.pre q w') :
    rules.Guarantees (machine target) .handle w o w' where
  inv := hinv
  rely
    | .handle, _, hne => absurd rfl hne
    | .copy d, _, _ => ⟨hrests d, hstarted d, by rw [hfinished]⟩
  pre := hpre

/-- An operation that changes nothing. -/
theorem guarantees_same {o : Op} (hinv : Relayed w) (hspawn : spawn o = []) :
    rules.Guarantees (machine target) .handle w o w :=
  guarantees_handle hinv (fun d => .refl d w) (fun _ hd => hd) rfl fun q hq => by
    rw [hspawn] at hq
    cases hq

/-- Opening and closing connections. -/
theorem guarantees_flags (isOpen closed : Bool) {o : Op} {s : Side} (h : Relayed w)
    (hspawn : spawn o = [])
    (hw : w' = w.setConn s { w.conn s with isOpen := isOpen, closed := closed })
    (hopened : w'.started ≠ [] → ∀ s, (w'.conn s).isOpen = true)
    (hclosed : ∀ s, (w'.conn s).closed = true → (w'.conn .backend).isOpen = true →
      ∀ d, d ∈ w'.finished)
    (hlast : (w'.conn .client).closed = true → (w'.conn .backend).isOpen = true →
      (w'.conn .backend).closed = true) : rules.Guarantees (machine target) .handle w o w' := by
  have hrests : ∀ d, Rests d w w' := by
    refine .of_flags fun s' => ?_
    rw [hw]
    rcases s'.eq_or_other s with rfl | rfl
    · exact ⟨isOpen, closed, by simp⟩
    · exact ⟨(w.conn s.other).isOpen, (w.conn s.other).closed, by simp⟩
  have hstarted : w'.started = w.started := by rw [hw]; rfl
  have hfinished : w'.finished = w.finished := by rw [hw]; rfl
  refine guarantees_handle ?_ hrests (fun d hd => hstarted ▸ hd) hfinished fun q hq => ?_
  · exact {
      passing := fun d => (h.passing d).of_rests (hrests d)
      fresh := fun d hd => (h.fresh d (hstarted ▸ hd)).of_rests (hrests d)
      started := hstarted ▸ h.started
      opened := hopened
      once := hfinished ▸ h.once
      finished := fun d hd =>
        have hfin := h.finished d (hfinished ▸ hd)
        ⟨hstarted ▸ hfin.1, (hrests d).shut.trans hfin.2⟩
      closed := hclosed
      last := hlast }
  · rw [hspawn] at hq
    cases hq

/-- A connection is opened before the goroutines are started. -/
theorem Serving.opens (target : String) {o : Op} {s : Side}
    (h : Serving clientOpen backendOpen added [] w) (hinv : Relayed w) (hspawn : spawn o = [])
    (hw : w' = w.setConn s { w.conn s with isOpen := true }) :
    rules.Guarantees (machine target) .handle w o w' ∧ ∀ s', (w'.conn s').closed = false := by
  have hopen : ∀ s', (w'.conn s').closed = false := fun s' => by
    rw [hw]
    rcases s'.eq_or_other s with rfl | rfl
    · simpa using h.closed s'
    · simpa using h.closed s.other
  refine ⟨guarantees_flags true (w.conn s).closed hinv hspawn hw ?_ ?_ ?_, hopen⟩
  · rw [hw]
    exact fun hne => absurd h.started hne
  · exact fun s' hs => absurd hs (Bool.eq_false_iff.mp (hopen s'))
  · exact fun hs => absurd hs (Bool.eq_false_iff.mp (hopen .client))

theorem handshake_sound (hw : Serving false false 0 [] w) :
    rules.Sound (machine target) .handle (perform .handshake) (fun r w =>
      match r with
      | .error _ => Served w
      | .ok _ => Serving true false 0 [] w) w := by
  refine sound_op serving_stable hw (fun w _ _ => ⟨rfl, trivial, nofun⟩) ?_
  intro w t ch r w' h hinv hexec
  cases ch <;> simp only [exec, machine, reduceCtorEq] at hexec
  all_goals
    split at hexec
    rotate_left
    · cases hexec
    cases hexec
  · obtain ⟨hgives, hclosed⟩ := h.opens target (o := .handshake) hinv rfl rfl
    exact ⟨hgives, rfl, (congrArg Conn.isOpen (w.setConn_ne (by decide) _)).trans h.backend,
      h.added, h.started, hclosed⟩
  · exact ⟨guarantees_same hinv rfl, h.served⟩

theorem lookup_sound {id : String} (hw : Serving true false 0 [] w) :
    rules.Sound (machine target) .handle (perform (.dbGetInstance id))
      (fun _ => Serving true false 0 []) w := by
  refine sound_op serving_stable hw (fun w _ _ => ⟨rfl, trivial, nofun⟩) ?_
  intro w t ch r w' h hinv hexec
  cases ch <;> cases hexec
  all_goals exact ⟨guarantees_same hinv rfl, h⟩

theorem dial_sound {ip port : String} (hw : Serving true false 0 [] w) :
    rules.Sound (machine target) .handle (perform (.dial ip port)) (fun r w =>
      match r with
      | .error _ => Served w
      | .ok _ => Serving true true 0 [] w) w := by
  refine sound_op serving_stable hw (fun w _ _ => ⟨rfl, trivial, nofun⟩) ?_
  intro w t ch r w' h hinv hexec
  cases ch <;> simp only [exec, machine, reduceCtorEq] at hexec
  all_goals
    split at hexec
    rotate_left
    · cases hexec
    cases hexec
  · obtain ⟨hgives, hclosed⟩ := h.opens target (o := .dial ip port) hinv rfl rfl
    exact ⟨hgives, (congrArg Conn.isOpen (w.setConn_ne (by decide) _)).trans h.client, rfl,
      h.added, h.started, hclosed⟩
  · exact ⟨guarantees_same hinv rfl, h.served⟩

theorem add_sound (hw : Serving true true 0 [] w) :
    rules.Sound (machine target) .handle (perform (.add 2)) (fun _ => Serving true true 2 []) w := by
  refine sound_op serving_stable hw (fun w _ _ => ⟨rfl, trivial, nofun⟩) ?_
  intro w t ch r w' h hinv hexec
  cases ch <;> cases hexec
  refine ⟨guarantees_handle ⟨hinv.passing, fun d hd => ?_, hinv.started, hinv.opened, hinv.once,
    hinv.finished, hinv.closed, hinv.last⟩ (fun d => ?_) (fun _ hd => hd) rfl nofun, ?_⟩
  · have hfresh := hinv.fresh d hd
    exact ⟨hfresh.taken, hfresh.written, hfresh.broken, hfresh.shut⟩
  · exact ⟨rfl, fun e he => ⟨he, rfl⟩, rfl, rfl, rfl⟩
  · exact ⟨h.client, h.backend, congrArg (· + 2) h.added, h.started, h.closed⟩

theorem go_sound (hw : Serving true true 2 started w) (hd : d ∉ started) :
    rules.Sound (machine target) .handle (perform (.go d))
      (fun _ => Serving true true 2 (started ++ [d])) w := by
  refine sound_op serving_stable hw (fun w _ _ => ⟨rfl, trivial, nofun⟩) ?_
  intro w t ch r w' h hinv hexec
  cases ch <;> cases hexec
  have hnew : d ∉ w.started := h.started ▸ hd
  have hmem : ∀ d', d' ∈ w.started → d' ∈ w.started ++ [d] := fun _ hd' =>
    List.mem_append_left _ hd'
  have hsame : ∀ d', d' ∉ w.started → Untouched { w with started := w.started ++ [d] } d' :=
    fun d' hd' => ⟨(hinv.fresh d' hd').taken, (hinv.fresh d' hd').written,
      (hinv.fresh d' hd').broken, (hinv.fresh d' hd').shut⟩
  refine ⟨guarantees_handle ?_ (fun d => ⟨rfl, fun e he => ⟨he, rfl⟩, rfl, rfl, rfl⟩) hmem rfl ?_, ?_⟩
  · exact {
      passing := hinv.passing
      fresh := fun d' hd' => hsame d' fun hold => hd' (hmem d' hold)
      started := by
        refine List.nodup_append.mpr ⟨hinv.started, List.nodup_singleton d, ?_⟩
        rintro d' hd' d'' hd'' rfl
        exact hnew (List.mem_singleton.mp hd'' ▸ hd')
      opened := fun _ s => by
        cases s
        · exact h.client
        · exact h.backend
      once := hinv.once
      finished := fun d' hd' => ⟨hmem d' (hinv.finished d' hd').1, (hinv.finished d' hd').2⟩
      closed := fun s hs => absurd hs (Bool.eq_false_iff.mp (h.closed s))
      last := fun hs => absurd hs (Bool.eq_false_iff.mp (h.closed .client)) }
  · intro q hq
    cases List.mem_singleton.mp hq
    exact ⟨⟨List.mem_append_right _ (List.mem_singleton_self d),
      fun hfin => hnew (hinv.finished d hfin).1⟩, hsame d hnew⟩
  · exact ⟨h.client, h.backend, h.added, congrArg (· ++ [d]) h.started, h.closed⟩

/-- Two goroutines that are done are all. -/
theorem mem_of_two {l : List Side} (hnodup : l.Nodup) (hlength : l.length = 2) (d : Side) :
    d ∈ l := by
  obtain ⟨a, b, rfl⟩ := List.length_eq_two.mp hlength
  have hne : a ≠ b := by simpa using hnodup
  revert hne
  cases a <;> cases b <;> cases d <;> decide

theorem wait_sound (hw : Serving true true 2 [.backend, .client] w) :
    rules.Sound (machine target) .handle (perform .wait) (fun _ => Through) w := by
  have hall : ∀ d, d ∈ [Side.backend, .client] := fun d => by cases d <;> decide
  refine sound_op serving_stable hw (fun w h _ => ⟨rfl, trivial, fun _ => ⟨h.added, fun d => ?_⟩⟩) ?_
  · rw [h.started]
    exact hall d
  · intro w t ch r w' h hinv hexec
    cases ch <;> simp only [exec, machine, reduceCtorEq] at hexec
    split at hexec
    · rename_i hcount
      cases hexec
      exact ⟨guarantees_same hinv rfl, h.backend, mem_of_two hinv.once (hcount.trans h.added),
        h.closed⟩
    · cases hexec

theorem closeBackend_sound (hw : Through w) :
    rules.Sound (machine target) .handle (perform (.close .backend)) (fun _ => Served) w := by
  refine sound_op through_stable hw (fun w h _ => ⟨rfl, h.closed .backend, nofun⟩) ?_
  intro w t ch r w' h hinv hexec
  cases ch <;> cases hexec
  refine ⟨guarantees_flags (w.conn .backend).isOpen true hinv rfl rfl ?_ ?_ ?_, ?_⟩
  · intro hne s
    rcases s.eq_or_other .backend with rfl | rfl
    · simpa using h.backend
    · simpa using hinv.opened hne _
  · exact fun _ _ _ => h.finished
  · exact fun _ _ => by simp
  · exact ⟨fun _ => h.finished, (congrArg Conn.closed (w.setConn_ne (by decide) _)).trans
      (h.closed .client), fun _ => by simp⟩

theorem closeClient_sound (hw : Served w) :
    rules.Sound (machine target) .handle (perform (.close .client))
      (fun _ w => (w.conn .client).closed = true) w := by
  refine sound_op served_stable hw (fun w h _ => ⟨rfl, h.client, nofun⟩) ?_
  intro w t ch r w' h hinv hexec
  cases ch <;> cases hexec
  have hbackend : ∀ c, (w.setConn .client c).conn .backend = w.conn .backend := fun c =>
    w.setConn_ne (by decide) c
  refine ⟨guarantees_flags (w.conn .client).isOpen true hinv rfl rfl ?_ ?_ ?_, ?_⟩
  · intro hne s
    rcases s.eq_or_other .client with rfl | rfl
    · simpa using hinv.opened hne .client
    · simpa using hinv.opened hne _
  · intro _ _ hopen
    rw [hbackend] at hopen
    exact h.finished hopen
  · intro _ hopen
    rw [hbackend] at hopen ⊢
    exact h.backend hopen
  · simp

theorem relay_sound (hw : Serving true true 0 [] w) :
    rules.Sound (machine target) .handle relay (fun _ => Through) w :=
  sound_seq (add_sound hw) fun _ _ hadd =>
  sound_seq (go_sound hadd (by decide)) fun _ _ hgo =>
  sound_seq (go_sound hgo (by decide)) fun _ _ hgo => wait_sound hgo

theorem serve_sound (hw : Serving false false 0 [] w) :
    rules.Sound (machine target) .handle (serve target) (fun _ => Served) w := by
  unfold serve
  refine sound_seq (handshake_sound hw) fun r w hr => ?_
  rcases r with _ | _
  · exact hr
  refine sound_seq (lookup_sound hr) fun r w hr => ?_
  rcases r with _ | _ | row
  · exact hr.served
  · exact hr.served
  refine (Prog.wp_ite _ _ _).mpr ⟨fun _ => hr.served, fun _ => ?_⟩
  refine sound_seq (dial_sound hr) fun r w hr => ?_
  rcases r with _ | _
  · exact hr
  · exact sound_seq (relay_sound hr) fun _ _ hthrough => closeBackend_sound hthrough

theorem proxyHandle_sound (hw : Serving false false 0 [] w) :
    rules.Sound (machine target) .handle (proxyHandle target)
      (fun _ w => (w.conn .client).closed = true) w :=
  sound_seq (serve_sound hw) fun _ _ hserved => closeClient_sound hserved

-- ============================================================================
-- Every run
-- ============================================================================

theorem relayed_fresh : Relayed .fresh where
  passing := fun _ => ⟨List.nil_prefix, Nat.zero_le _, nofun⟩
  fresh := fun _ _ => ⟨rfl, rfl, rfl, rfl⟩
  started := List.nodup_nil
  opened := fun hne => absurd rfl hne
  once := List.nodup_nil
  finished := nofun
  closed := nofun
  last := nofun

theorem accepted_settled : Settled rules (machine target) (accepted target) where
  inv := relayed_fresh
  roles := rfl
  thread := fun u th hu => by
    cases List.mem_singleton.mp (List.mem_of_getElem? hu)
    exact ⟨rfl, proxyHandle_sound ⟨rfl, rfl, rfl, rfl, fun _ => rfl⟩⟩

theorem body_sound (q : Proc) (w : World) (hpre : rules.pre q w) :
    rules.Sound (machine target) q ((machine target).body q) (fun _ => rules.fin q) w := by
  cases q with
  | handle => exact hpre.elim
  | copy d => exact copyFrom_sound hpre

variable {C : Sys Op Ret World Proc → Label Op Ret Env → Prop} {s : Sys Op Ret World Proc}

theorem settled_run (hrun : (machine target).Run C (accepted target) s) :
    Settled rules (machine target) s :=
  Run.settled (rules_lawful target) body_sound accepted_settled hrun

/-- What has become of a connection to the proxy. -/
structure InOrder (s : Sys Op Ret World Proc) : Prop where
  /-- In either direction. -/
  passing : ∀ d, Passing (s.world.conn d) (s.world.conn d.other)
  /-- Without a connection to the instance nothing is said to the client. -/
  dialled : (s.world.conn .backend).isOpen = false → ∀ c, (s.world.conn c).written = []
  /-- Nothing is done with what has been closed. -/
  usable : ∀ (u : Nat) th o k, s.threads[u]? = some th → th.prog = .op o k → Usable s.world o
  /-- A connection is closed only when all that has come has been passed on, or cannot be. -/
  closed : ∀ c, (s.world.conn c).closed = true → (s.world.conn .backend).isOpen = true →
    ∀ d, Passed (s.world.conn d) (s.world.conn d.other)
  /-- The handler returns only after it has closed what it had opened. -/
  returned : ∀ (u : Nat) th, s.threads[u]? = some th → th.proc = .handle → th.prog = .ret () →
    (s.world.conn .client).closed = true ∧
      ((s.world.conn .backend).isOpen = true → (s.world.conn .backend).closed = true)

theorem usable_of_ok {p : Proc} {o : Op} (h : rules.ok p w o) : Usable w o := by
  cases p with
  | handle => exact h.2.1
  | copy d => exact h.2.2

/-- In every state of every run the proxy passes on what comes in its order and without gaps, in
    both directions at once; it ends a stream only when its source has ended or something failed,
    and closes the connections only when both directions are through. -/
theorem relay_in_order (hrun : (machine target).Run C (accepted target) s) : InOrder s := by
  have hsettled := settled_run hrun
  have hinv := hsettled.inv
  refine ⟨hinv.passing, fun hclosed c => ?_, fun u th o k hth hprog => ?_, fun c hc hopen d => ?_,
    fun u th hth hproc hend => ?_⟩
  · have hstarted : s.world.started = [] := by
      by_contra hne
      exact absurd (hinv.opened hne .backend) (Bool.eq_false_iff.mp hclosed)
    have hfresh := hinv.fresh c.other (by rw [hstarted]; exact List.not_mem_nil)
    simpa using hfresh.written
  · exact usable_of_ok (hsettled.next (rules_lawful target) hth hprog)
  · exact (hinv.passing d).shut (hinv.finished d (hinv.closed c hc hopen d)).2
  · have hclient := hsettled.done hth hend
    rw [hproc] at hclient
    exact ⟨hclient, hinv.last hclient⟩

/-- A thread's turns, with what the environment decides about each. -/
def turns (u : Nat) (chs : List Choice) : List (Sys Op Ret World Proc → Action Choice Env) :=
  chs.map fun ch _ => .thread u ch

/-- An act of a peer. -/
def peer (e : Env) : List (Sys Op Ret World Proc → Action Choice Env) := [fun _ => .env e]

/-- The client is connected to the instance at `ip`. -/
def connects (ip : String) : List (Sys Op Ret World Proc → Action Choice Env) :=
  peer (.answer .client) ++ peer (.answer .backend) ++ turns 0 [.ok, .row (some ⟨1, "tryit-a", ip, "admin", "secret", 600⟩), .ok, .ok, .ok, .ok]

/-- The client sends three bytes and ends, the instance answers with one, ends, and both
    connections are closed. -/
theorem relay_in_order_short : ∃ s, (machine "a.example").Run anyStep (accepted "a.example") s ∧
    InOrder s ∧ (s.world.conn .backend).written = [1, 2, 3] ∧
    (s.world.conn .client).written = [9] ∧ (s.world.conn .client).closed = true := by
  obtain ⟨s, hrun, hs⟩ := (machine "a.example").run_of_check noTest (fun _ _ _ => trivial)
    (accepted "a.example")
    (connects "192.0.2.7" ++ peer (.drain .backend 3) ++ peer (.drain .client 1) ++
      peer (.arrive .client [1, 2, 3]) ++
      turns 2 [.rounds 5, .part 2 false, .ok] ++ peer (.finish .client .eof) ++
      turns 2 [.part 9 true, .ok, .ok, .ok] ++ peer (.arrive .backend [9]) ++
      turns 1 [.rounds 5, .part 9 false, .ok] ++ peer (.finish .backend .eof) ++
      turns 1 [.ok, .ok, .ok] ++ turns 0 [.ok, .ok, .ok])
    (fun s => (s.world.conn .backend).written == [1, 2, 3] &&
      (s.world.conn .client).written == [9] && (s.world.conn .client).closed) (by decide +kernel)
  simp only [Bool.and_eq_true, beq_iff_eq] at hs
  exact ⟨s, hrun, relay_in_order hrun, hs.1.1, hs.1.2, hs.2⟩

-- ============================================================================
-- Progress
-- ============================================================================

/-- The thread can perform its next operation. -/
def CanStep (target : String) (s : Sys Op Ret World Proc) (u : Nat) : Prop :=
  ∃ e s', (machine target).Step s (.thread u e) s'

/-- The peer has sent nothing more, and not ended its stream. -/
def Silent (c : Conn) : Prop := c.unread = [] ∧ c.ended = none

/-- The peer has not gone, and has not read enough for the bytes to be written. -/
structure Stalled (c : Conn) (bytes : List UInt8) : Prop where
  room : c.room < bytes.length
  broken : c.broken = false
  reset : c.reset = false

/-- The thread waits for a peer, which does not answer, is silent or does not read on; or it is the
    handler, and one of the goroutines has not ended. -/
def Waits (s : Sys Op Ret World Proc) : Proc → Op → Prop
  | .handle, .handshake => (s.world.conn .client).answered = false
  | .handle, .dial .. => (s.world.conn .backend).answered = false
  | .handle, .wait => ∃ (d : Side) (v : Nat) (th : Thread Op Ret Proc),
      s.threads[v]? = some th ∧ th.proc = .copy d ∧ th.prog ≠ .ret ()
  | .copy d, .read c => c = d ∧ Silent (s.world.conn d)
  | .copy d, .write c bytes => c = d.other ∧ Stalled (s.world.conn d.other) bytes
  | _, _ => False

/-- A thread can go on when its next operation can be performed. -/
theorem canStep_iff {u : Nat} {th : Thread Op Ret Proc} {o : Op}
    {k : Ret o → Conc.Prog Op Ret Unit} (hsettled : Settled rules (machine target) s)
    (hth : s.threads[u]? = some th) (hprog : th.prog = .op o k) :
    CanStep target s u ↔ ∃ ch r w, exec s.world u o ch = some (r, w) := by
  constructor
  · rintro ⟨e, s', hstep⟩
    cases hstep with
    | thread hth' _ hprog' hexec =>
      cases hth.symm.trans hth'
      cases hprog.symm.trans hprog'
      exact ⟨_, _, _, hexec⟩
  · rintro ⟨ch, r, w, hexec⟩
    exact ⟨_, _, .thread hth (hsettled.thread u th hth).1 hprog hexec⟩

/-- A read goes on unless there is nothing to be read. -/
theorem read_enabled {c : Conn} (hclosed : c.closed = false) :
    (∃ ch r, c.read ch = some r) ↔ ¬ Silent c := by
  cases hunread : c.unread with
  | cons b rest =>
    refine iff_of_true ⟨.part 1 false, ?_⟩ fun hsilent => ?_
    · simp only [Conn.read, hunread, hclosed]
      rw [if_neg (by simp [bufferSize])]
      exact ⟨_, rfl⟩
    · cases hunread.symm.trans hsilent.1
  | nil =>
    cases hended : c.ended with
    | none =>
      refine iff_of_false ?_ (not_not.mpr ⟨hunread, hended⟩)
      rintro ⟨ch, r, hread⟩
      cases ch <;> simp [Conn.read, hended, hunread] at hread
    | some e =>
      refine iff_of_true ⟨.ok, ?_⟩ fun hsilent => ?_
      · cases e
        all_goals
          simp only [Conn.read, hended, hunread]
          exact ⟨_, rfl⟩
      · cases hended.symm.trans hsilent.2

/-- A write goes on unless there is no room for it and the peer is there. -/
theorem write_enabled {c : Conn} {bytes : List UInt8} (hshut : c.shut = false)
    (hclosed : c.closed = false) : (∃ ch r, c.write bytes ch = some r) ↔ ¬ Stalled c bytes := by
  cases hbroken : c.broken with
  | true =>
    refine iff_of_true ⟨.cut 0 "", ?_⟩ fun hstalled => ?_
    · simp only [Conn.write, hbroken]
      exact ⟨_, rfl⟩
    · cases hbroken.symm.trans hstalled.broken
  | false =>
    by_cases hroom : c.room < bytes.length
    · cases hreset : c.reset with
      | true =>
        refine iff_of_true ⟨.cut 0 "", ?_⟩ fun hstalled => ?_
        · simp only [Conn.write, hbroken, hshut, hclosed, hreset]
          exact ⟨_, rfl⟩
        · cases hreset.symm.trans hstalled.reset
      | false =>
        refine iff_of_false ?_ (not_not.mpr ⟨hroom, hbroken, hreset⟩)
        rintro ⟨ch, r, hwrite⟩
        cases ch <;> simp [Conn.write, hbroken, hshut, hclosed, hreset, hroom] at hwrite
    · refine iff_of_true ⟨.ok, ?_⟩ fun hstalled => hroom hstalled.room
      simp only [Conn.write, hbroken, hshut, hclosed, hroom]
      exact ⟨_, rfl⟩

/-- When the wait group is not down, one of the goroutines is not done. -/
theorem exists_running {l : List Side} (hnodup : l.Nodup) (hcount : l.length ≠ 2) : ∃ d, d ∉ l := by
  by_contra hall
  push Not at hall
  have hle : [Side.client, .backend].length ≤ l.length :=
    (List.Nodup.subperm (by decide) fun d _ => hall d).length_le
  have hge : l.length ≤ [Side.client, .backend].length :=
    (hnodup.subperm fun d _ => by cases d <;> decide).length_le
  exact hcount (Nat.le_antisymm hge hle)

/-- The wait group is down exactly when both goroutines have ended. -/
theorem finished_iff (hsettled : Settled rules (machine target) s)
    (hstarted : ∀ d, d ∈ s.world.started) :
    s.world.finished.length = 2 ↔ ¬ Waits s .handle .wait := by
  constructor
  · rintro hcount ⟨d, v, th, hth, hproc, hend⟩
    cases hprog : th.prog with
    | ret a => exact hend hprog
    | op o k =>
      have hok := hsettled.next (rules_lawful target) hth hprog
      rw [hproc] at hok
      exact hok.1.2 (mem_of_two hsettled.inv.once hcount d)
  · intro hwaits
    by_contra hcount
    obtain ⟨d, hd⟩ := exists_running hsettled.inv.once hcount
    obtain ⟨v, th, hth, hproc⟩ := hsettled.find
      (List.mem_cons_of_mem _ (List.mem_map_of_mem (f := Proc.copy) (hstarted d)))
    refine hwaits ⟨d, v, th, hth, hproc, fun hend => hd ?_⟩
    have hfin := hsettled.done hth hend
    rwa [hproc] at hfin

/-- The handler's next operation can be performed unless it waits. -/
theorem handle_enabled (hsettled : Settled rules (machine target) s) {u : Nat} {o : Op}
    (hok : rules.ok .handle s.world o) :
    (∃ ch r w, exec s.world u o ch = some (r, w)) ↔ ¬ Waits s .handle o := by
  obtain ⟨hhandles, -, hwait⟩ := hok
  cases o with
  | handshake | dial =>
    simp only [Waits, Bool.not_eq_false]
    constructor
    · rintro ⟨ch, r, w, hexec⟩
      cases ch <;> simp only [exec, reduceCtorEq] at hexec
      all_goals
        split at hexec
        · assumption
        · cases hexec
    · exact fun hanswered => ⟨.fail "", _, _, if_pos hanswered⟩
  | dbGetInstance => exact iff_of_true ⟨.row none, _, _, rfl⟩ id
  | add | go | close => exact iff_of_true ⟨.ok, _, _, rfl⟩ id
  | wait =>
    obtain ⟨hadded, hstarted⟩ := hwait rfl
    rw [← finished_iff hsettled hstarted]
    constructor
    · rintro ⟨ch, r, w, hexec⟩
      cases ch <;> simp only [exec, reduceCtorEq] at hexec
      split at hexec
      · rename_i hcount
        exact hcount.trans hadded
      · cases hexec
    · exact fun hcount => ⟨.ok, _, _, if_pos (hcount.trans hadded.symm)⟩
  | _ => cases hhandles

/-- What is done with a connection can be done in the world. -/
theorem enabled_setConn {α : Type} {w : World} {f : Choice → Option (α × Conn)} {c : Side} :
    (∃ ch r w', ((f ch).map fun x => (x.1, w.setConn c x.2)) = some (r, w')) ↔
      ∃ ch r, f ch = some r := by
  constructor
  · rintro ⟨ch, r, w', h⟩
    obtain ⟨x, hx, -⟩ := Option.map_eq_some_iff.mp h
    exact ⟨ch, x, hx⟩
  · rintro ⟨ch, x, hx⟩
    exact ⟨ch, _, _, Option.map_eq_some_iff.mpr ⟨x, hx, rfl⟩⟩

/-- A goroutine's next operation can be performed unless it waits. -/
theorem copy_enabled {u : Nat} {o : Op} (hok : rules.ok (.copy d) s.world o) (hhalt : o ≠ .halt) :
    (∃ ch r w, exec s.world u o ch = some (r, w)) ↔ ¬ Waits s (.copy d) o := by
  obtain ⟨-, hcopies, husable⟩ := hok
  cases o with
  | rounds => exact iff_of_true ⟨.rounds 0, _, _, rfl⟩ id
  | halt => exact absurd rfl hhalt
  | read c =>
    have hc : c = d := by simpa [Op.copies] using hcopies
    subst hc
    simp only [Waits, true_and]
    exact enabled_setConn.trans (read_enabled husable.2)
  | write c bytes =>
    have hc : c = d.other := by simpa [Op.copies] using hcopies
    subst hc
    simp only [Waits, true_and]
    exact enabled_setConn.trans (write_enabled husable.2 husable.1.2)
  | closeWrite | done => exact iff_of_true ⟨.ok, _, _, rfl⟩ id
  | _ => cases hcopies

/-- A thread can go on exactly when it does not wait: a goroutine for one of its own two peers, and
    the handler for a peer that does not answer or for the two goroutines.  These wait neither for
    the handler nor for each other. -/
theorem relay_progress (hrun : (machine target).Run C (accepted target) s) {u : Nat}
    {th : Thread Op Ret Proc} {o : Op} {k : Ret o → Conc.Prog Op Ret Unit}
    (hth : s.threads[u]? = some th) (hprog : th.prog = .op o k) (hhalt : o ≠ .halt) :
    CanStep target s u ↔ ¬ Waits s th.proc o := by
  have hsettled := settled_run hrun
  have hok := hsettled.next (rules_lawful target) hth hprog
  rw [canStep_iff hsettled hth hprog]
  cases hproc : th.proc with
  | handle =>
    rw [hproc] at hok
    exact handle_enabled hsettled hok
  | copy d =>
    rw [hproc] at hok
    exact copy_enabled hok hhalt

/-- Thread `u` is about to write `bytes` to `c`. -/
def writes (u : Nat) (c : Side) (bytes : List UInt8) (s : Sys Op Ret World Proc) : Bool :=
  match s.threads[u]? with
  | some ⟨.copy d, _, _, .op (.write c' bytes') _⟩ => d == c.other && c' == c && bytes' == bytes
  | _ => false

/-- The client does not read, and the instance's goroutine cannot go on. -/
theorem relay_progress_stalled :
    ∃ s, (machine "a.example").Run anyStep (accepted "a.example") s ∧
      writes 1 .client [9] s = true ∧ ¬ CanStep "a.example" s 1 := by
  obtain ⟨s, hrun, hs⟩ := (machine "a.example").run_of_check noTest (fun _ _ _ => trivial)
    (accepted "a.example") (connects "192.0.2.7" ++ peer (.arrive .backend [9]) ++
      turns 1 [.rounds 5, .part 9 false])
    (fun s => writes 1 .client [9] s && (s.world.conn .client).room == 0 &&
      !(s.world.conn .client).broken && !(s.world.conn .client).reset) (by decide +kernel)
  simp only [Bool.and_eq_true, Bool.not_eq_true', beq_iff_eq] at hs
  obtain ⟨⟨⟨hwrites, hroom⟩, hbroken⟩, hreset⟩ := hs
  refine ⟨s, hrun, hwrites, ?_⟩
  unfold writes at hwrites
  split at hwrites
  · rename_i d alive l c bytes k hth
    simp only [Bool.and_eq_true, beq_iff_eq] at hwrites
    obtain ⟨⟨rfl, rfl⟩, rfl⟩ := hwrites
    rw [relay_progress hrun hth rfl nofun]
    exact not_not.mpr ⟨rfl, by rw [Side.other_other, hroom]; exact Nat.zero_lt_one, hbroken, hreset⟩
  · cases hwrites

end Relay
end IncusDemo
