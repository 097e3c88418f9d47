/-
  IncusDemo.ConsoleOrder

  What a console passes on.  The exec reads what the client sends, in its order
  and without gaps; the client is shown what the exec writes, in text messages,
  in its order, without gaps and at most one buffer behind.  When the handler
  returns after the exec is done, no more than that buffer is lost
  (`console_in_order`); when it returns before, the goroutine that copies the
  output stays behind (`console_output_left`).
-/

import IncusDemo.ConsoleRelay

namespace IncusDemo
namespace ConsoleRelay

open Go Conc Machine Discipline

-- ============================================================================
-- The discipline
-- ============================================================================

/-- What the client has been shown. -/
def shown (sent : List Frame) : List UInt8 := (sent.map Frame.payload).flatten

/-- The invariant of a console over whose connection `conn` comes. -/
structure Consistent (conn : Incoming) (w : World) : Prop where
  input : w.stdin.taken ++ w.stdin.pending <+: conn.payload
  frames : ∀ f ∈ w.sent, f.type = .text ∧ f.payload ≠ [] ∧ f.payload.length ≤ bufferSize
  output : shown w.sent <+: w.stdout.taken
  /-- At most one buffer has been taken from the exec and not yet been shown. -/
  held : w.stdout.taken.length ≤ (shown w.sent).length + bufferSize
  written : w.written = w.stdout.taken ++ w.stdout.pending
  finished : w.dataDone = true → w.stdout.pending = []
  closedIn : w.stdin.writerClosed = true → w.dataDone = true
  closedOut : w.stdout.readerClosed = true → w.dataDone = true
  readerOpen : w.stdin.readerClosed = false
  writerOpen : w.stdout.writerClosed = false
  roles : (Proc.handle :: w.started).Nodup
  freshIn : .copyIn ∉ w.started →
    w.input = ⟨conn, none⟩ ∧ w.stdin.taken = [] ∧ w.stdin.pending = []
  freshOut : .copyOut ∉ w.started → w.sent = [] ∧ w.stdout.taken = []

/-- What the handler relies on. -/
structure Hosts (w w' : World) : Prop where
  started : w'.started = w.started
  closed : w'.closed = w.closed
  closedIn : w'.stdin.writerClosed = w.stdin.writerClosed
  closedOut : w'.stdout.readerClosed = w.stdout.readerClosed
  dataDone : w.dataDone = true → w'.dataDone = true

/-- What the goroutine that copies the input relies on. -/
structure LeavesIn (w w' : World) : Prop where
  started : .copyIn ∈ w.started → .copyIn ∈ w'.started
  input : w'.input = w.input
  stdin : w.stdin.Drains w'.stdin
  closed : w.closed = true → w'.closed = true

/-- What the goroutine that copies the output relies on. -/
structure LeavesOut (w w' : World) : Prop where
  started : .copyOut ∈ w.started → .copyOut ∈ w'.started
  sent : w'.sent = w.sent
  taken : w'.stdout.taken = w.stdout.taken
  broken : w.broken = true → w'.broken = true
  closed : w.stdout.readerClosed = true → w'.stdout.readerClosed = true

/-- All of the input has been passed on, or the pipe or the connection has been closed. -/
def InputOver (conn : Incoming) (w : World) : Prop :=
  (w.stdin.taken = conn.payload ∧ w.stdin.pending = []) ∨ w.stdin.writerClosed = true ∨
    w.closed = true

/-- Nothing more can be shown, or the pipe has been closed. -/
def OutputOver (w : World) : Prop := w.broken = true ∨ w.stdout.readerClosed = true

/-- Where the handler returns: it has closed both pipes or none. -/
structure Returned (w : World) : Prop where
  closed : w.closed = true
  pipes : w.stdin.writerClosed = w.stdout.readerClosed
  started : .copyOut ∈ w.started

/-- What the four threads keep to. -/
def rules (conn : Incoming) : Discipline Op World Proc where
  roles w := .handle :: w.started
  inv := Consistent conn
  rely
    | .handle => Hosts
    | .copyIn => LeavesIn
    | .copyOut => LeavesOut
    | .control => fun _ _ => True
  pre
    | .handle, _ => False
    | .copyIn, w => .copyIn ∈ w.started ∧
        w.input = ⟨conn, none⟩ ∧ w.stdin.taken = [] ∧ w.stdin.pending = []
    | .copyOut, w => .copyOut ∈ w.started ∧ w.sent = [] ∧ w.stdout.taken = []
    | .control, _ => True
  ok _ _ _ := True
  fin
    | .handle => Returned
    | .copyIn => InputOver conn
    | .copyOut => OutputOver
    | .control => fun _ => True

variable {conn : Incoming} {w w' w'' : World}

theorem Hosts.refl (w : World) : Hosts w w := ⟨rfl, rfl, rfl, rfl, id⟩

theorem Hosts.trans (h : Hosts w w') (h' : Hosts w' w'') : Hosts w w'' :=
  ⟨h'.started.trans h.started, h'.closed.trans h.closed, h'.closedIn.trans h.closedIn,
    h'.closedOut.trans h.closedOut, fun hd => h'.dataDone (h.dataDone hd)⟩

theorem LeavesIn.refl (w : World) : LeavesIn w w := ⟨id, rfl, .refl _, id⟩

theorem LeavesIn.trans (h : LeavesIn w w') (h' : LeavesIn w' w'') : LeavesIn w w'' :=
  ⟨fun hs => h'.started (h.started hs), h'.input.trans h.input, h.stdin.trans h'.stdin,
    fun hc => h'.closed (h.closed hc)⟩

theorem LeavesOut.refl (w : World) : LeavesOut w w := ⟨id, rfl, rfl, id, id⟩

theorem LeavesOut.trans (h : LeavesOut w w') (h' : LeavesOut w' w'') : LeavesOut w w'' :=
  ⟨fun hs => h'.started (h.started hs), h'.sent.trans h.sent, h'.taken.trans h.taken,
    fun hb => h'.broken (h.broken hb), fun hc => h'.closed (h.closed hc)⟩

theorem InputOver.stable (h : InputOver conn w) (hrely : LeavesIn w w') : InputOver conn w' := by
  rcases h with ⟨htaken, hpending⟩ | hclosed | hclosed
  · exact .inl ⟨(hrely.stdin.taken_eq hpending).trans htaken, hrely.stdin.pending_nil hpending⟩
  · exact .inr (.inl (hrely.stdin.writerClosed hclosed))
  · exact .inr (.inr (hrely.closed hclosed))

theorem OutputOver.stable (h : OutputOver w) (hrely : LeavesOut w w') : OutputOver w' :=
  h.imp hrely.broken hrely.closed

/-- Once the output has been closed there is no write under way. -/
theorem Consistent.pending_of_done (h : Consistent conn w) (hdone : w.stdout.done = true) :
    w.stdout.pending = [] := by
  unfold Pipe.done at hdone
  rw [h.writerOpen, Bool.or_false] at hdone
  exact h.finished (h.closedOut hdone)

/-- What Incus does with the pipes is what the threads rely on. -/
theorem env_keeps (h : Consistent conn w) {e : Env} {stop : Bool} {ps : List Proc}
    (henv : env w e = some (w', stop, ps)) : stop = false ∧ ps = [] ∧ Consistent conn w' ∧
      w'.started = w.started ∧ ∀ p, (rules conn).rely p w w' := by
  cases e with
  | take n =>
    obtain ⟨⟨bytes, p⟩, htake, heq⟩ := Option.map_eq_some_iff.mp henv
    cases heq
    have hdrains := Pipe.take_drains htake
    obtain ⟨hp, -, -⟩ := Pipe.take_did htake
    have hreader : p.readerClosed = w.stdin.readerClosed := by rw [hp]
    have hwriter : p.writerClosed = w.stdin.writerClosed := by rw [hp]
    refine ⟨rfl, rfl, ?_, rfl, ?_⟩
    · exact { h with
        input := by rw [hdrains.total]; exact h.input
        closedIn := fun hc => h.closedIn (hwriter ▸ hc)
        readerOpen := hreader.trans h.readerOpen
        freshIn := fun hs => by
          obtain ⟨hinput, htaken, hpending⟩ := h.freshIn hs
          exact ⟨hinput, (hdrains.taken_eq hpending).trans htaken, hdrains.pending_nil hpending⟩ }
    · rintro (_ | _ | _ | _)
      · exact ⟨rfl, rfl, hwriter, rfl, id⟩
      · exact ⟨id, rfl, hdrains, id⟩
      · exact ⟨id, rfl, rfl, id, id⟩
      · trivial
  | put bytes =>
    simp only [env] at henv
    split at henv
    · rename_i hcan
      obtain ⟨-, hdata, hpending, hdone⟩ := hcan
      cases henv
      have hoffer : (w.stdout.offer bytes).2 = { w.stdout with pending := bytes } := by
        unfold Pipe.offer
        rw [if_neg (by rw [hdone]; decide)]
      rw [hoffer]
      refine ⟨rfl, rfl, ?_, rfl, ?_⟩
      · exact { h with
          written := by
            dsimp only
            rw [h.written, hpending, List.append_nil]
          finished := fun hd => absurd hd (Bool.eq_false_iff.mp hdata) }
      · rintro (_ | _ | _ | _)
        · exact ⟨rfl, rfl, rfl, rfl, id⟩
        · exact ⟨id, rfl, .refl _, id⟩
        · exact ⟨id, rfl, rfl, id, id⟩
        · trivial
    · cases henv
  | giveUp =>
    simp only [env] at henv
    split at henv
    · rename_i hdone
      cases henv
      have hsame : { w.stdout with pending := [] } = w.stdout := by
        rw [← h.pending_of_done hdone]
      rw [hsame]
      refine ⟨rfl, rfl, h, rfl, ?_⟩
      rintro (_ | _ | _ | _)
      · exact .refl w
      · exact .refl w
      · exact .refl w
      · trivial
    · cases henv
  | finish =>
    simp only [env] at henv
    split at henv
    · rename_i hcan
      cases henv
      refine ⟨rfl, rfl, ?_, rfl, ?_⟩
      · exact { h with
          finished := fun _ => hcan.2
          closedIn := fun _ => rfl
          closedOut := fun _ => rfl }
      · rintro (_ | _ | _ | _)
        · exact ⟨rfl, rfl, rfl, rfl, fun _ => rfl⟩
        · exact ⟨id, rfl, .refl _, id⟩
        · exact ⟨id, rfl, rfl, id, id⟩
        · trivial
    · cases henv

theorem exec_roles {t : Nat} {o : Op} {ch : Choice} {r : Ret o}
    (h : exec w t o ch = some (r, w')) : w'.started = w.started ++ spawn o := by
  have hsame : ∀ {o}, spawn o = [] → w.started = w.started ++ spawn o := fun hspawn => by
    rw [hspawn, List.append_nil]
  cases o with
  | go p =>
    cases ch <;> cases h
    rfl
  | execInstance =>
    cases ch <;> cases h
    all_goals rfl
  | dataDone =>
    cases ch <;> simp only [exec, reduceCtorEq] at h
    split at h
    · cases h
      exact hsame rfl
    · cases h
  | read =>
    cases ch <;> simp only [exec, reduceCtorEq] at h
    · cases h
      exact hsame rfl
    · split at h
      · cases h
        exact hsame rfl
      · cases h
  | write bytes =>
    cases ch <;> simp only [exec, reduceCtorEq] at h
    · split at h
      · cases h
      · cases h
        exact hsame rfl
    · cases h
      exact hsame rfl
  | settle n =>
    cases ch <;> simp only [exec, reduceCtorEq] at h
    obtain ⟨r, -, heq⟩ := Option.map_eq_some_iff.mp h
    cases heq
    exact hsame rfl
  | readOut =>
    cases ch <;> simp only [exec, reduceCtorEq] at h
    all_goals
      obtain ⟨r, -, heq⟩ := Option.map_eq_some_iff.mp h
      cases heq
      exact hsame rfl
  | _ =>
    cases ch <;> cases h
    all_goals exact hsame rfl

theorem rules_lawful (conn : Incoming) : (rules conn).Lawful machine where
  refl
    | .handle, w => Hosts.refl w
    | .copyIn, w => LeavesIn.refl w
    | .copyOut, w => LeavesOut.refl w
    | .control, _ => trivial
  trans
    | .handle, _, _, _ => Hosts.trans
    | .copyIn, _, _, _ => LeavesIn.trans
    | .copyOut, _, _, _ => LeavesOut.trans
    | .control, _, _, _ => fun _ _ => trivial
  nodup := fun _ h => h.roles
  taken := fun w t o c r w' h => congrArg (Proc.handle :: ·) (exec_roles (t := t) h)
  fin
    | .handle, _, _, h, hrely => ⟨hrely.closed.trans h.closed,
        hrely.closedIn.trans (h.pipes.trans hrely.closedOut.symm), hrely.started ▸ h.started⟩
    | .copyIn, _, _, h, hrely => h.stable hrely
    | .copyOut, _, _, h, hrely => h.stable hrely
    | .control, _, _, _, _ => trivial
  act := fun w e w' stop ps h henv => by
    obtain ⟨hstop, hps, hinv, hstarted, hrely⟩ := env_keeps h henv
    exact ⟨hstop, hps, hinv, congrArg (Proc.handle :: ·) hstarted, fun p _ => hrely p⟩

-- ============================================================================
-- The input
-- ============================================================================

/-- The goroutine has read `held` from the client and not yet written it; with `er` everything has
    been read, or the connection has been closed. -/
structure CarriesIn (conn : Incoming) (held : List UInt8) (er : Option (ReadError ConnError))
    (w : World) : Prop where
  started : .copyIn ∈ w.started
  sound : w.input.Sound
  pending : w.stdin.pending = []
  bytes : w.stdin.taken ++ (held ++ w.input.pending) = conn.payload
  error : er ≠ none → w.input.pending = [] ∨ w.closed = true

/-- It holds the bytes out to the exec. -/
structure Offers (conn : Incoming) (er : Option (ReadError ConnError)) (w : World) : Prop where
  started : .copyIn ∈ w.started
  sound : w.input.Sound
  bytes : w.stdin.taken ++ w.stdin.pending ++ w.input.pending = conn.payload
  error : er ≠ none → w.input.pending = [] ∨ w.closed = true

variable {held : List UInt8} {er : Option (ReadError ConnError)}

theorem carriesIn_stable : (rules conn).Stable .copyIn (CarriesIn conn held er) :=
  fun _ _ h hrely => ⟨hrely.started h.started, hrely.input ▸ h.sound,
    hrely.stdin.pending_nil h.pending,
    by rw [hrely.stdin.taken_eq h.pending, hrely.input]; exact h.bytes,
    fun he => (h.error he).imp (fun hp => hrely.input ▸ hp) hrely.closed⟩

theorem offers_stable : (rules conn).Stable .copyIn (Offers conn er) :=
  fun _ _ h hrely => ⟨hrely.started h.started, hrely.input ▸ h.sound,
    by rw [hrely.stdin.total, hrely.input]; exact h.bytes,
    fun he => (h.error he).imp (fun hp => hrely.input ▸ hp) hrely.closed⟩

/-- The goroutine changes only the client's side of the input and what it holds out. -/
theorem guarantees_in {o : Op} {input : WsWrapper} {pending : List UInt8} (h : Consistent conn w)
    (hstarted : .copyIn ∈ w.started) (hspawn : spawn o = [])
    (hw : w' = { w with input := input, stdin := { w.stdin with pending := pending } })
    (hinput : w.stdin.taken ++ pending <+: conn.payload) :
    (rules conn).Guarantees machine .copyIn w o w' := by
  subst hw
  refine ⟨{ h with input := hinput, freshIn := fun hs => absurd hstarted hs }, ?_, ?_⟩
  · rintro (_ | _ | _ | _) - hne
    · exact ⟨rfl, rfl, rfl, rfl, id⟩
    · exact absurd rfl hne
    · exact ⟨id, rfl, rfl, id, id⟩
    · trivial
  · intro q hq
    change q ∈ spawn o at hq
    rw [hspawn] at hq
    cases hq

theorem read_sound (hw : CarriesIn conn [] none w) :
    (rules conn).Sound machine .copyIn (perform .read) (fun r => CarriesIn conn r.1 r.2) w := by
  refine sound_op carriesIn_stable hw (fun _ _ _ => trivial) ?_
  rintro w t ch ⟨bytes, er⟩ w' h hinv hexec
  have hinput := hinv.input
  cases ch <;> simp only [exec, machine, reduceCtorEq] at hexec
  · cases hexec
    have hdid := WsWrapper.read_did h.sound bufferSize
    refine ⟨guarantees_in hinv h.started rfl rfl hinput, h.started, hdid.sound, h.pending, ?_, ?_⟩
    · dsimp only
      rw [hdid.bytes]
      exact h.bytes
    · intro he
      obtain ⟨e, he⟩ := Option.ne_none_iff_exists'.mp he
      refine .inl ?_
      dsimp only
      rw [(hdid.error e he).2]
      rfl
  · split at hexec
    · rename_i hclosed
      cases hexec
      exact ⟨guarantees_in hinv h.started rfl rfl hinput, h.started, h.sound, h.pending, h.bytes,
        fun _ => .inr hclosed⟩
    · cases hexec

theorem settle_sound {n : Nat} (hw : Offers conn er w) :
    (rules conn).Sound machine .copyIn (perform (.settle n)) (fun r w =>
      (∀ e, r.2 = some e → InputOver conn w) ∧
        (r.2 = none → r.1 = n ∧ CarriesIn conn [] er w)) w := by
  refine sound_op offers_stable hw (fun _ _ _ => trivial) ?_
  rintro w t ch ⟨k, ew⟩ w' h hinv hexec
  cases ch <;> simp only [exec, machine, reduceCtorEq] at hexec
  obtain ⟨⟨r, p⟩, hsettle, heq⟩ := Option.map_eq_some_iff.mp hexec
  cases heq
  unfold Pipe.settle at hsettle
  split at hsettle
  · rename_i hpending
    cases hsettle
    refine ⟨guarantees_in hinv h.started rfl rfl hinv.input, nofun, fun _ => ⟨rfl, ?_⟩⟩
    refine ⟨h.started, h.sound, hpending, ?_, h.error⟩
    have hbytes := h.bytes
    rwa [hpending, List.append_nil] at hbytes
  · split at hsettle
    · rename_i hdone
      cases hsettle
      refine ⟨guarantees_in hinv h.started rfl rfl ?_, fun e _ => .inr (.inl ?_), nofun⟩
      · rw [List.append_nil]
        exact (List.prefix_append ..).trans hinv.input
      · unfold Pipe.done at hdone
        rwa [hinv.readerOpen, Bool.false_or] at hdone
    · cases hsettle

theorem writeIn_sound {bytes : List UInt8} (hw : CarriesIn conn bytes er w) :
    (rules conn).Sound machine .copyIn (writeIn bytes) (fun r w =>
      (∀ e, r.2 = some e → InputOver conn w) ∧
        (r.2 = none → if r.1 = bytes.length then CarriesIn conn [] er w else InputOver conn w)) w := by
  unfold writeIn
  refine sound_seq (Q := fun accepted w =>
    if accepted = false then InputOver conn w else Offers conn er w) ?_ fun accepted w hw => ?_
  · refine sound_op carriesIn_stable hw (fun _ _ _ => trivial) ?_
    intro w t ch r w' h hinv hexec
    cases ch <;> cases hexec
    unfold Pipe.offer
    split
    · rename_i hdone
      refine ⟨guarantees_in hinv h.started rfl rfl hinv.input, .inr (.inl ?_)⟩
      unfold Pipe.done at hdone
      rwa [hinv.readerOpen, Bool.false_or] at hdone
    · refine ⟨guarantees_in hinv h.started rfl rfl ?_, h.started, h.sound, ?_, h.error⟩
      · rw [← h.bytes, ← List.append_assoc]
        exact List.prefix_append ..
      · rw [← h.bytes, ← List.append_assoc]
  · refine (Prog.wp_ite _ _ _).mpr ⟨fun hrefused => ?_, fun haccepted => ?_⟩
    · rw [if_pos hrefused] at hw
      exact ⟨fun _ _ => hw, nofun⟩
    · rw [if_neg haccepted] at hw
      refine Prog.wp_mono (fun r w hr => ⟨hr.1, fun hnone => ?_⟩) (settle_sound hw)
      obtain ⟨hn, hcarries⟩ := hr.2 hnone
      rwa [if_pos hn]

/-- When a copy ends, the input is over. -/
theorem CarriesIn.over (h : CarriesIn conn [] er w) (he : er ≠ none) : InputOver conn w := by
  rcases h.error he with hpending | hclosed
  · refine .inl ⟨?_, h.pending⟩
    have hbytes := h.bytes
    rwa [hpending, List.append_nil, List.append_nil] at hbytes
  · exact .inr (.inr hclosed)

theorem copyIn_sound (hpre : (rules conn).pre .copyIn w) :
    (rules conn).Sound machine .copyIn copyIn (fun _ => InputOver conn) w := by
  obtain ⟨hstarted, hinput, htaken, hpending⟩ := hpre
  have hw : CarriesIn conn [] none w := by
    refine ⟨hstarted, hinput ▸ WsWrapper.sound_closed conn, hpending, ?_, fun he => absurd rfl he⟩
    rw [htaken, hinput]
    rfl
  unfold copyIn
  refine sound_seq (Q := fun _ => CarriesIn conn [] none) ?_ fun rounds w hw => ?_
  · refine sound_op carriesIn_stable hw (fun _ _ _ => trivial) ?_
    intro w t ch r w' h hinv hexec
    cases ch <;> cases hexec
    exact ⟨guarantees_in hinv h.started rfl rfl hinv.input, h⟩
  · refine sound_seq (Q := fun _ => InputOver conn) ?_ fun _ _ hover => hover
    refine wp_copy (J := CarriesIn conn) ⟨?_, ?_, ?_, ?_, ?_⟩ rounds hw
    · exact fun w h => read_sound h
    · exact fun bytes er w _ h => writeIn_sound h
    · exact fun w h => h.over (Option.some_ne_none _)
    · exact fun e w h => h.over (Option.some_ne_none _)
    · intro w h
      exact sound_op carriesIn_stable h (fun _ _ _ => trivial) fun w t ch r => nomatch r

-- ============================================================================
-- The output
-- ============================================================================

/-- The goroutine has taken `held` from the exec and not yet shown it; an error tells that the pipe
    has been closed. -/
structure CarriesOut (held : List UInt8) (er : Option (ReadError Error)) (w : World) : Prop where
  started : .copyOut ∈ w.started
  taken : w.stdout.taken = shown w.sent ++ held
  bound : held.length ≤ bufferSize
  error : er ≠ none → w.stdout.readerClosed = true

theorem carriesOut_stable {er : Option (ReadError Error)} :
    (rules conn).Stable .copyOut (CarriesOut held er) := fun _ _ h hrely =>
  ⟨hrely.started h.started, by rw [hrely.taken, hrely.sent]; exact h.taken, h.bound,
    fun he => hrely.closed (h.error he)⟩

theorem shown_append (sent : List Frame) (f : Frame) : shown (sent ++ [f]) = shown sent ++ f.payload := by
  simp [shown]

/-- The goroutine changes only what has been taken from the exec and what the client is shown. -/
theorem guarantees_out (sent : List Frame) (broken : Bool) (pending taken : List UInt8) {o : Op}
    (h : Consistent conn w) (hstarted : .copyOut ∈ w.started) (hspawn : spawn o = [])
    (hw : w' = { w with
      sent := sent, broken := broken, stdout := { w.stdout with pending := pending, taken := taken } })
    (hframes : ∀ f ∈ sent, f.type = .text ∧ f.payload ≠ [] ∧ f.payload.length ≤ bufferSize)
    (houtput : ∃ held, taken = shown sent ++ held ∧ held.length ≤ bufferSize)
    (hpending : w.stdout.taken ++ w.stdout.pending = taken ++ pending)
    (hempty : w.stdout.pending = [] → pending = []) :
    (rules conn).Guarantees machine .copyOut w o w' := by
  subst hw
  obtain ⟨held, htaken, hbound⟩ := houtput
  refine ⟨?_, ?_, ?_⟩
  · exact { h with
      frames := hframes
      output := htaken ▸ List.prefix_append ..
      held := by
        dsimp only
        rw [htaken, List.length_append]
        exact Nat.add_le_add_left hbound _
      written := h.written.trans hpending
      finished := fun hd => hempty (h.finished hd)
      freshOut := fun hs => absurd hstarted hs }
  · rintro (_ | _ | _ | _) - hne
    · exact ⟨rfl, rfl, rfl, rfl, id⟩
    · exact ⟨id, rfl, .refl _, id⟩
    · exact absurd rfl hne
    · trivial
  · intro q hq
    change q ∈ spawn o at hq
    rw [hspawn] at hq
    cases hq

/-- An operation that changes nothing. -/
theorem CarriesOut.guarantees_same {o : Op} {er : Option (ReadError Error)} (h : CarriesOut held er w)
    (hinv : Consistent conn w) (hspawn : spawn o = []) :
    (rules conn).Guarantees machine .copyOut w o w :=
  guarantees_out w.sent w.broken w.stdout.pending w.stdout.taken hinv h.started hspawn rfl
    hinv.frames ⟨held, h.taken, h.bound⟩ rfl id

theorem readOut_sound (hw : CarriesOut [] none w) :
    (rules conn).Sound machine .copyOut (perform .readOut) (fun r => CarriesOut r.1 r.2) w := by
  refine sound_op carriesOut_stable hw (fun _ _ _ => trivial) ?_
  rintro w t ch ⟨bytes, er⟩ w' h hinv hexec
  cases ch <;> simp only [exec, machine, reduceCtorEq] at hexec
  · obtain ⟨⟨bytes, p⟩, htake, heq⟩ := Option.map_eq_some_iff.mp hexec
    cases heq
    obtain ⟨hp, hpending, hbound, -⟩ := Pipe.take_did htake
    have htaken : w.stdout.taken ++ bytes = shown w.sent ++ bytes := by
      rw [h.taken, List.append_nil]
    refine ⟨guarantees_out w.sent w.broken p.pending (w.stdout.taken ++ bytes) hinv h.started rfl
      (by rw [hp]) hinv.frames ⟨bytes, htaken, hbound⟩ ?_ ?_, h.started, ?_, hbound,
      fun he => absurd rfl he⟩
    · rw [hpending, List.append_assoc]
    · exact fun hempty => (List.append_eq_nil_iff.mp (hpending.symm.trans hempty)).2
    · rw [hp]
      exact htaken
  · obtain ⟨e, herror, heq⟩ := Option.map_eq_some_iff.mp hexec
    cases heq
    refine ⟨h.guarantees_same hinv rfl, h.started, h.taken, h.bound, fun _ => ?_⟩
    unfold Pipe.readError at herror
    rw [hinv.writerOpen] at herror
    by_contra hopen
    rw [if_neg hopen, if_neg Bool.false_ne_true] at herror
    cases herror

theorem write_sound {bytes : List UInt8} {er : Option (ReadError Error)} (hne : bytes ≠ [])
    (hw : CarriesOut bytes er w) :
    (rules conn).Sound machine .copyOut (perform (.write bytes)) (fun r w =>
      (∀ e, r.2 = some e → OutputOver w) ∧
        (r.2 = none → if r.1 = bytes.length then CarriesOut [] er w else OutputOver w)) w := by
  refine sound_op carriesOut_stable hw (fun _ _ _ => trivial) ?_
  rintro w t ch ⟨n, ew⟩ w' h hinv hexec
  cases ch <;> simp only [exec, machine, WsWrapper.write, reduceCtorEq] at hexec
  · split at hexec
    · cases hexec
    · cases hexec
      have htaken : w.stdout.taken = shown (w.sent ++ [⟨.text, bytes⟩]) ++ [] := by
        rw [shown_append, List.append_nil]
        exact h.taken
      refine ⟨guarantees_out (w.sent ++ [⟨.text, bytes⟩]) w.broken w.stdout.pending w.stdout.taken
        hinv h.started rfl rfl ?_ ⟨[], htaken, Nat.zero_le _⟩ rfl id,
        fun e he => absurd he (Option.some_ne_none e).symm, fun _ => ?_⟩
      · intro f hf
        rcases List.mem_append.mp hf with hf | hf
        · exact hinv.frames f hf
        · cases List.mem_singleton.mp hf
          exact ⟨rfl, hne, h.bound⟩
      · rw [if_pos rfl]
        exact ⟨h.started, htaken, Nat.zero_le _, h.error⟩
  · cases hexec
    exact ⟨guarantees_out w.sent true w.stdout.pending w.stdout.taken hinv h.started rfl rfl
      hinv.frames ⟨bytes, h.taken, h.bound⟩ rfl id, fun _ _ => .inl rfl,
      fun hn => absurd hn (Option.some_ne_none _)⟩

theorem copyOut_sound (hpre : (rules conn).pre .copyOut w) :
    (rules conn).Sound machine .copyOut copyOut (fun _ => OutputOver) w := by
  obtain ⟨hstarted, hsent, htaken⟩ := hpre
  have hw : CarriesOut [] none w := by
    refine ⟨hstarted, ?_, Nat.zero_le _, fun he => absurd rfl he⟩
    rw [htaken, hsent]
    rfl
  unfold copyOut
  refine sound_seq (Q := fun _ => CarriesOut [] none) ?_ fun rounds w hw => ?_
  · refine sound_op carriesOut_stable hw (fun _ _ _ => trivial) ?_
    intro w t ch r w' h hinv hexec
    cases ch <;> cases hexec
    exact ⟨h.guarantees_same hinv rfl, h⟩
  · refine sound_seq (Q := fun _ => OutputOver) ?_ fun _ _ hover => hover
    refine wp_copy (J := CarriesOut) ⟨?_, ?_, ?_, ?_, ?_⟩ rounds hw
    · exact fun w h => readOut_sound h
    · exact fun bytes er w hne h => write_sound hne h
    · exact fun w h => .inr (h.error (Option.some_ne_none _))
    · exact fun e w h => .inr (h.error (Option.some_ne_none _))
    · intro w h
      exact sound_op carriesOut_stable h (fun _ _ _ => trivial) fun w t ch r => nomatch r

-- ============================================================================
-- The handlers
-- ============================================================================

/-- No thread relies on the variable `err`, or on how the exec stands. -/
theorem guarantees_err {p : Proc} {o : Op} (err : Option Error) (h : Consistent conn w)
    (hspawn : spawn o = []) (hw : w' = { w with err := err }) :
    (rules conn).Guarantees machine p w o w' := by
  subst hw
  refine ⟨{ h with }, ?_, fun q hq => ?_⟩
  · rintro (_ | _ | _ | _) - -
    · exact ⟨rfl, rfl, rfl, rfl, id⟩
    · exact ⟨id, rfl, .refl _, id⟩
    · exact ⟨id, rfl, rfl, id, id⟩
    · trivial
  · change q ∈ spawn o at hq
    rw [hspawn] at hq
    cases hq

/-- An operation of the handler of the control socket. -/
theorem control_op {o : Op} (hspawn : spawn o = [])
    (ho : ∀ w t ch r w', exec w t o ch = some (r, w') → ∃ e, w' = { w with err := e }) :
    (rules conn).Sound machine .control (perform o) (fun _ _ => True) w := by
  refine sound_op (A := fun _ => True) (fun _ _ _ _ => trivial) trivial (fun _ _ _ => trivial) ?_
  intro w t ch r w' _ hinv hexec
  obtain ⟨e, hw⟩ := ho w t ch r w' hexec
  exact ⟨guarantees_err e hinv hspawn hw, trivial⟩

theorem control_sound :
    (rules conn).Sound machine .control control (fun _ _ => True) w := by
  unfold control
  refine sound_seq (control_op rfl ?_) fun rounds w _ => ?_
  · intro w t ch r w' h
    cases ch <;> cases h
    exact ⟨w.err, rfl⟩
  induction rounds generalizing w with
  | zero => exact sound_seq (control_op rfl fun _ _ _ r => nomatch r) fun r => nomatch r
  | succ rounds ih =>
    refine sound_seq (control_op rfl ?_) fun e w _ => sound_seq (control_op rfl ?_) fun _ w _ =>
      sound_seq (control_op rfl ?_) fun e w _ => (Prog.wp_ite _ _ _).mpr ⟨fun _ => trivial, fun _ => ih w⟩
    · intro w t ch r w' h
      cases ch <;> cases h
      all_goals exact ⟨w.err, rfl⟩
    · intro w t ch r w' h
      cases ch <;> cases h
      exact ⟨e, rfl⟩
    · intro w t ch r w' h
      cases ch <;> cases h
      exact ⟨w.err, rfl⟩

/-- How far the handler has come: what it has started and closed. -/
structure Stage (started : List Proc) (inClosed outClosed : Bool) (w : World) : Prop where
  started : w.started = started
  closedIn : w.stdin.writerClosed = inClosed
  closedOut : w.stdout.readerClosed = outClosed

/-- The handler is about to return. -/
structure Leaving (w : World) : Prop where
  started : .copyOut ∈ w.started
  pipes : w.stdin.writerClosed = w.stdout.readerClosed

variable {started : List Proc} {inClosed outClosed : Bool}

theorem stage_stable : (rules conn).Stable .handle (Stage started inClosed outClosed) :=
  fun _ _ h hrely => ⟨hrely.started.trans h.started, hrely.closedIn.trans h.closedIn,
    hrely.closedOut.trans h.closedOut⟩

theorem leaving_stable : (rules conn).Stable .handle Leaving := fun _ _ h hrely =>
  ⟨hrely.started ▸ h.started, hrely.closedIn.trans (h.pipes.trans hrely.closedOut.symm)⟩

/-- The handler may return at this stage. -/
theorem Stage.leaving (h : Stage [.copyIn, .copyOut, .control] inClosed inClosed w) : Leaving w :=
  ⟨by rw [h.started]; decide, h.closedIn.trans h.closedOut.symm⟩

/-- An operation of the handler that starts and closes nothing. -/
theorem stage_op {o : Op} (hspawn : spawn o = []) (hw : Stage started inClosed outClosed w)
    (ho : ∀ w t ch r w', exec w t o ch = some (r, w') → ∃ e, w' = { w with err := e }) :
    (rules conn).Sound machine .handle (perform o)
      (fun _ => Stage started inClosed outClosed) w := by
  refine sound_op stage_stable hw (fun _ _ _ => trivial) fun w t ch r w' h hinv hexec => ?_
  obtain ⟨e, rfl⟩ := ho w t ch r w' hexec
  exact ⟨guarantees_err e hinv hspawn rfl, h.started, h.closedIn, h.closedOut⟩

theorem setErr_sound (e : Option Error) (hw : Stage started inClosed outClosed w) :
    (rules conn).Sound machine .handle (perform (.setErr e))
      (fun _ => Stage started inClosed outClosed) w :=
  stage_op rfl hw fun _ _ ch _ _ h => by
    cases ch <;> cases h
    exact ⟨e, rfl⟩

theorem err_sound (hw : Stage started inClosed outClosed w) :
    (rules conn).Sound machine .handle (perform .err)
      (fun _ => Stage started inClosed outClosed) w :=
  stage_op rfl hw fun w _ ch _ _ h => by
    cases ch <;> cases h
    exact ⟨w.err, rfl⟩

theorem wait_sound (hw : Stage started inClosed outClosed w) :
    (rules conn).Sound machine .handle (perform .wait)
      (fun _ => Stage started inClosed outClosed) w :=
  stage_op rfl hw fun w _ ch _ _ h => by
    cases ch <;> cases h
    all_goals exact ⟨w.err, rfl⟩

/-- A new thread starts. -/
theorem guarantees_start (executing : Bool) {o : Op} {p : Proc} (h : Consistent conn w)
    (hspawn : spawn o = [p]) (hp : p ≠ .handle) (hnew : p ∉ w.started)
    (hw : w' = { w with started := w.started ++ [p], executing := executing }) :
    (rules conn).Guarantees machine .handle w o w' := by
  have hmem : ∀ {q}, q ∈ w.started → q ∈ w'.started := fun hq => by
    rw [hw]
    exact List.mem_append_left _ hq
  have hself : p ∈ w'.started := by
    rw [hw]
    exact List.mem_append_right _ (List.mem_singleton_self p)
  refine ⟨?_, ?_, fun q hq => ?_⟩
  · subst hw
    exact { h with
      roles := by
        have hroles : p ∉ Proc.handle :: w.started := List.not_mem_cons_of_ne_of_not_mem hp hnew
        refine List.nodup_append.mpr ⟨h.roles, List.nodup_singleton p, ?_⟩
        rintro q hq q' hq' rfl
        exact hroles (List.mem_singleton.mp hq' ▸ hq)
      freshIn := fun hs => h.freshIn fun hold => hs (hmem hold)
      freshOut := fun hs => h.freshOut fun hold => hs (hmem hold) }
  · subst hw
    rintro (_ | _ | _ | _) - hne
    · exact absurd rfl hne
    · exact ⟨hmem, rfl, .refl _, id⟩
    · exact ⟨hmem, rfl, rfl, id, id⟩
    · trivial
  · change q ∈ spawn o at hq
    rw [hspawn] at hq
    cases List.mem_singleton.mp hq
    subst hw
    cases p with
    | handle => exact absurd rfl hp
    | copyIn => exact ⟨hself, h.freshIn hnew⟩
    | copyOut => exact ⟨hself, h.freshOut hnew⟩
    | control => trivial

theorem go_sound {p : Proc} (hp : p ≠ .handle) (hnew : p ∉ started)
    (hw : Stage started false false w) :
    (rules conn).Sound machine .handle (perform (.go p))
      (fun _ => Stage (started ++ [p]) false false) w := by
  refine sound_op stage_stable hw (fun _ _ _ => trivial) fun w t ch r w' h hinv hexec => ?_
  cases ch <;> cases hexec
  exact ⟨guarantees_start w.executing hinv rfl hp (h.started ▸ hnew) rfl,
    congrArg (· ++ [p]) h.started, h.closedIn, h.closedOut⟩

theorem execInstance_sound (hw : Stage [.copyIn, .copyOut] false false w) :
    (rules conn).Sound machine .handle (perform .execInstance)
      (fun _ => Stage [.copyIn, .copyOut, .control] false false) w := by
  refine sound_op stage_stable hw (fun _ _ _ => trivial) fun w t ch r w' h hinv hexec => ?_
  have hnew : .control ∉ w.started := by
    rw [h.started]
    decide
  cases ch <;> cases hexec
  · exact ⟨guarantees_start true hinv rfl nofun hnew rfl,
      congrArg (· ++ [.control]) h.started, h.closedIn, h.closedOut⟩
  · exact ⟨guarantees_start w.executing hinv rfl nofun hnew rfl,
      congrArg (· ++ [.control]) h.started, h.closedIn, h.closedOut⟩

/-- An end of a pipe is closed once the data is done, or the connection is. -/
theorem guarantees_close {o : Op} (inClosed outClosed closed : Bool) (h : Consistent conn w)
    (hspawn : spawn o = [])
    (hw : w' = { w with
      stdin := { w.stdin with writerClosed := inClosed }
      stdout := { w.stdout with readerClosed := outClosed }
      closed := closed })
    (hin : inClosed = true → w.dataDone = true) (hout : outClosed = true → w.dataDone = true)
    (hmono : w.stdin.writerClosed = true → inClosed = true)
    (hmono' : w.stdout.readerClosed = true → outClosed = true)
    (hclosed : w.closed = true → closed = true) :
    (rules conn).Guarantees machine .handle w o w' := by
  subst hw
  refine ⟨{ h with closedIn := hin, closedOut := hout }, ?_, fun q hq => ?_⟩
  · rintro (_ | _ | _ | _) - hne
    · exact absurd rfl hne
    · exact ⟨id, rfl, ⟨⟨[], rfl, (List.append_nil _).symm⟩, id, hmono⟩, hclosed⟩
    · exact ⟨id, rfl, rfl, id, hmono'⟩
    · trivial
  · change q ∈ spawn o at hq
    rw [hspawn] at hq
    cases hq

variable {threads : List Proc}

theorem dataDone_sound (hw : Stage started false false w) :
    (rules conn).Sound machine .handle (perform .dataDone)
      (fun _ w => Stage started false false w ∧ w.dataDone = true) w := by
  refine sound_op stage_stable hw (fun _ _ _ => trivial) fun w t ch r w' h hinv hexec => ?_
  cases ch <;> simp only [exec, machine, reduceCtorEq] at hexec
  split at hexec
  · rename_i hdone
    cases hexec
    exact ⟨guarantees_err w.err hinv rfl rfl, h, hdone⟩
  · cases hexec

theorem closeIn_sound (hw : Stage started false false w ∧ w.dataDone = true) :
    (rules conn).Sound machine .handle (perform .closeIn) (fun _ => Stage started true false) w := by
  have hstable : (rules conn).Stable .handle fun w =>
      Stage started false false w ∧ w.dataDone = true := fun _ _ h hrely =>
    ⟨stage_stable _ _ h.1 hrely, hrely.dataDone h.2⟩
  refine sound_op hstable hw (fun _ _ _ => trivial) fun w t ch r w' h hinv hexec => ?_
  cases ch <;> cases hexec
  exact ⟨guarantees_close true w.stdout.readerClosed w.closed hinv rfl rfl (fun _ => h.2)
    hinv.closedOut (fun _ => rfl) id id, h.1.started, rfl, h.1.closedOut⟩

theorem closeOut_sound (hw : Stage started true false w) :
    (rules conn).Sound machine .handle (perform .closeOut) (fun _ => Stage started true true) w := by
  refine sound_op stage_stable hw (fun _ _ _ => trivial) fun w t ch r w' h hinv hexec => ?_
  cases ch <;> cases hexec
  exact ⟨guarantees_close w.stdin.writerClosed true w.closed hinv rfl rfl hinv.closedIn
    (fun _ => hinv.closedIn h.closedIn) id (fun _ => rfl) id, h.started, h.closedIn, rfl⟩

theorem close_sound (hw : Leaving w) :
    (rules conn).Sound machine .handle (perform .close) (fun _ => Returned) w := by
  refine sound_op leaving_stable hw (fun _ _ _ => trivial) fun w t ch r w' h hinv hexec => ?_
  cases ch <;> cases hexec
  exact ⟨guarantees_close w.stdin.writerClosed w.stdout.readerClosed true hinv rfl rfl
    hinv.closedIn hinv.closedOut id id (fun _ => rfl), rfl, h.pipes, h.started⟩

theorem connectInstance_sound (hw : Stage [] false false w) :
    (rules conn).Sound machine .handle connectInstance (fun _ => Leaving) w := by
  unfold connectInstance
  refine sound_seq (go_sound nofun (by decide) hw) fun _ w hw => ?_
  refine sound_seq (go_sound nofun (by decide) hw) fun _ w hw => ?_
  refine sound_seq (execInstance_sound hw) fun r w hw => ?_
  cases r with
  | error e =>
    refine sound_seq (setErr_sound (some e) hw) fun _ w hw => ?_
    exact sound_seq (err_sound hw) fun _ w hw => hw.leaving
  | ok _ =>
    refine sound_seq (setErr_sound none hw) fun _ w hw => ?_
    refine sound_seq (err_sound hw) fun e w hw => ?_
    refine (Prog.wp_ite _ _ _).mpr ⟨fun _ => hw.leaving, fun _ => ?_⟩
    refine sound_seq (wait_sound hw) fun e w hw => ?_
    refine sound_seq (setErr_sound e hw) fun _ w hw => ?_
    refine sound_seq (err_sound hw) fun e w hw => ?_
    refine (Prog.wp_ite _ _ _).mpr ⟨fun _ => hw.leaving, fun _ => ?_⟩
    refine sound_seq (dataDone_sound hw) fun _ w hw => ?_
    refine sound_seq (closeIn_sound hw) fun _ w hw => ?_
    exact Prog.wp_mono (fun _ w hw => hw.leaving) (closeOut_sound hw)

theorem handle_sound (hw : Stage [] false false w) :
    (rules conn).Sound machine .handle handle (fun _ => Returned) w :=
  sound_seq (connectInstance_sound hw) fun _ _ hleaving => close_sound hleaving

-- ============================================================================
-- Every run
-- ============================================================================

theorem consistent_upgraded (conn : Incoming) : Consistent conn (.upgraded conn) where
  input := List.nil_prefix
  frames := nofun
  output := List.nil_prefix
  held := Nat.zero_le _
  written := rfl
  finished := nofun
  closedIn := nofun
  closedOut := nofun
  readerOpen := rfl
  writerOpen := rfl
  roles := List.nodup_singleton _
  freshIn := fun _ => ⟨rfl, rfl, rfl⟩
  freshOut := fun _ => ⟨rfl, rfl⟩

theorem upgraded_settled (conn : Incoming) : Settled (rules conn) machine (upgraded conn) where
  inv := consistent_upgraded conn
  roles := rfl
  thread := fun u th hu => by
    cases List.mem_singleton.mp (List.mem_of_getElem? hu)
    exact ⟨rfl, handle_sound ⟨rfl, rfl, rfl⟩⟩

theorem body_sound (q : Proc) (w : World) (hpre : (rules conn).pre q w) :
    (rules conn).Sound machine q (machine.body q) (fun _ => (rules conn).fin q) w := by
  cases q with
  | handle => exact hpre.elim
  | copyIn => exact copyIn_sound hpre
  | copyOut => exact copyOut_sound hpre
  | control => exact control_sound

variable {C : Sys Op Ret World Proc → Label Op Ret Env → Prop} {s : Sys Op Ret World Proc}

theorem settled_run (hrun : machine.Run C (upgraded conn) s) : Settled (rules conn) machine s :=
  Run.settled (rules_lawful conn) body_sound (upgraded_settled conn) hrun

/-- Thread `p` has come to its end. -/
def Ended (s : Sys Op Ret World Proc) (p : Proc) : Prop :=
  ∃ (u : Nat) (th : Thread Op Ret Proc), s.threads[u]? = some th ∧ th.proc = p ∧ th.prog = .ret ()

/-- What has become of a console over whose connection `conn` comes. -/
structure InOrder (conn : Incoming) (s : Sys Op Ret World Proc) : Prop where
  /-- The exec has read a first part of what the client sends. -/
  input : s.world.stdin.taken <+: conn.payload
  /-- The client is sent text messages, none of them empty. -/
  frames : ∀ f ∈ s.world.sent, f.type = .text ∧ f.payload ≠ [] ∧ f.payload.length ≤ bufferSize
  /-- They show a first part of what the exec has written. -/
  output : shown s.world.sent <+: s.world.written
  /-- A copy of the input ends only after its last byte, or when it cannot go on. -/
  copiedIn : Ended s .copyIn → s.world.stdin.taken = conn.payload ∨
    s.world.stdin.writerClosed = true ∨ s.world.closed = true
  /-- The handler returns with the connection closed. -/
  returned : Ended s .handle → s.world.closed = true
  /-- When it has closed the pipes, at most one buffer of the output is not shown. -/
  shown : s.world.stdout.readerClosed = true → ∃ lost, lost.length ≤ bufferSize ∧
    s.world.written = shown s.world.sent ++ lost

/-- In every state of every run the exec of a console reads what the client sends, and the client
    is shown what the exec writes, in order and without gaps; once the handler has waited for the
    data, at most what one read of `io.Copy` takes is lost. -/
theorem console_in_order (hrun : machine.Run C (upgraded conn) s) : InOrder conn s := by
  have hsettled := settled_run hrun
  have hinv := hsettled.inv
  refine ⟨(List.prefix_append ..).trans hinv.input, hinv.frames, ?_, ?_, ?_, fun hclosed => ?_⟩
  · rw [hinv.written]
    exact hinv.output.trans (List.prefix_append ..)
  · rintro ⟨u, th, hth, hproc, hend⟩
    have hover := hsettled.done hth hend
    rw [hproc] at hover
    exact hover.imp And.left id
  · rintro ⟨u, th, hth, hproc, hend⟩
    have hreturned := hsettled.done hth hend
    rw [hproc] at hreturned
    exact hreturned.closed
  · obtain ⟨lost, hlost⟩ := hinv.output
    have hpending := hinv.finished (hinv.closedOut hclosed)
    refine ⟨lost, ?_, by rw [hinv.written, hpending, List.append_nil, hlost]⟩
    have hheld := hinv.held
    rw [← hlost, List.length_append] at hheld
    omega

/-- A thread's turns, with what the environment decides about each. -/
def turns (u : Nat) (chs : List Choice) : List (Sys Op Ret World Proc → Action Choice Env) :=
  chs.map fun ch _ => .thread u ch

/-- An act of Incus. -/
def incus (e : Env) : List (Sys Op Ret World Proc → Action Choice Env) := [fun _ => .env e]

/-- A client that sends three bytes. -/
def threeBytes : Incoming :=
  .message ⟨.text, [[1, 2, 3]], true, .inl rfl⟩ (.ended (.closeError closeNormalClosure))

/-- Thread `u` has come to its end as `p`. -/
def endedAs (u : Nat) (p : Proc) (s : Sys Op Ret World Proc) : Bool :=
  match s.threads[u]? with
  | some ⟨q, _, _, .ret ()⟩ => q == p
  | _ => false

theorem ended_of_endedAs {u : Nat} {p : Proc} (h : endedAs u p s = true) : Ended s p := by
  unfold endedAs at h
  split at h
  · rename_i q alive l hth
    exact ⟨u, _, hth, beq_iff_eq.mp h, rfl⟩
  · cases h

/-- The exec reads the three bytes and writes two, which the client is shown. -/
theorem console_in_order_small : ∃ s, machine.Run anyStep (upgraded threeBytes) s ∧
    InOrder threeBytes s ∧ Ended s .handle ∧ s.world.stdin.taken = [1, 2, 3] ∧
    s.world.sent = [⟨.text, [7, 8]⟩] := by
  obtain ⟨s, hrun, hs⟩ := machine.run_of_check noTest (fun _ _ _ => trivial) (upgraded threeBytes)
    (turns 0 [.ok, .ok, .ok, .ok, .ok] ++ turns 1 [.rounds 5, .ok, .ok] ++ incus (.take 10) ++
      turns 1 [.ok] ++ incus (.put [7, 8]) ++ turns 2 [.rounds 5, .ok, .ok] ++ incus .finish ++
      turns 0 [.ok, .ok, .ok, .ok, .ok, .ok, .ok])
    (fun s => endedAs 0 .handle s && s.world.stdin.taken == [1, 2, 3] &&
      s.world.sent == [⟨.text, [7, 8]⟩]) (by decide +kernel)
  simp only [Bool.and_eq_true, beq_iff_eq] at hs
  exact ⟨s, hrun, console_in_order hrun, ended_of_endedAs hs.1.1, hs.1.2, hs.2⟩

/-- From a state on in which the handler has returned without having closed the pipes, neither is
    ever closed, and the goroutine that copies the output never ends, unless a write to the client
    fails. -/
theorem console_output_left {s' : Sys Op Ret World Proc} (hrun : machine.Run C (upgraded conn) s)
    (hreturned : Ended s .handle) (hopen : s.world.stdin.writerClosed = false)
    (hrun' : machine.Run C s s') :
    (s'.world.stdin.done = false ∧ s'.world.stdout.done = false) ∧
      (s'.world.broken = false → ∃ (u : Nat) (th : Thread Op Ret Proc),
        s'.threads[u]? = some th ∧ th.proc = .copyOut ∧ th.prog ≠ .ret ()) := by
  have hsettled := settled_run hrun
  obtain ⟨u, th, hth, hproc, hend⟩ := hreturned
  have hleft := hsettled.done hth hend
  obtain ⟨-, hrely⟩ := Run.ended (rules_lawful conn) body_sound hsettled hth hend hrun'
  rw [hproc] at hleft hrely
  have hsettled' := settled_run (hrun.trans hrun')
  have hclosedIn : s'.world.stdin.writerClosed = false := hrely.closedIn.trans hopen
  have hclosedOut : s'.world.stdout.readerClosed = false :=
    hrely.closedOut.trans (hleft.pipes.symm.trans hopen)
  refine ⟨⟨?_, ?_⟩, fun hbroken => ?_⟩
  · unfold Pipe.done
    rw [hclosedIn, hsettled'.inv.readerOpen]
    rfl
  · unfold Pipe.done
    rw [hclosedOut, hsettled'.inv.writerOpen]
    rfl
  · have hstarted := hrely.started ▸ hleft.started
    obtain ⟨v, th', hth', hproc'⟩ := hsettled'.find (List.mem_cons_of_mem _ hstarted)
    refine ⟨v, th', hth', hproc', fun hend' => ?_⟩
    have hover := hsettled'.done hth' hend'
    rw [hproc'] at hover
    rcases hover with htrue | htrue
    · rw [hbroken] at htrue
      cases htrue
    · rw [hclosedOut] at htrue
      cases htrue

/-- The instance cannot be reached. -/
theorem console_output_left_unreachable : ∃ s, machine.Run anyStep (upgraded threeBytes) s ∧
    Ended s .handle ∧ (s.world.stdin.done = false ∧ s.world.stdout.done = false) ∧
    ∃ (u : Nat) (th : Thread Op Ret Proc),
      s.threads[u]? = some th ∧ th.proc = .copyOut ∧ th.prog ≠ .ret () := by
  obtain ⟨s, hrun, hs⟩ := machine.run_of_check noTest (fun _ _ _ => trivial) (upgraded threeBytes)
    (turns 0 [.ok, .ok, .fail "not reachable", .ok, .ok, .ok])
    (fun s => endedAs 0 .handle s && !s.world.stdin.writerClosed && !s.world.broken)
    (by decide +kernel)
  simp only [Bool.and_eq_true, Bool.not_eq_true'] at hs
  have hended := ended_of_endedAs hs.1.1
  obtain ⟨hpipes, hcopy⟩ := console_output_left hrun hended hs.1.2 .refl
  exact ⟨s, hrun, hended, hpipes, hcopy hs.2⟩

end ConsoleRelay
end IncusDemo
