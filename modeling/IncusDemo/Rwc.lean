/-
  IncusDemo.Rwc

  `wsWrapper` (rwc.go): a websocket connection as a stream of bytes in both
  directions.

  What still comes over the connection is an `Incoming`: data messages in their
  order, and the error with which the library fails from then on.  `Read` takes
  a new message when it has none and hides its end.  `Write` sends every chunk
  that it is given as a text message of its own.
-/

import IncusDemo.Go.Io
import IncusDemo.Go.Utf8

namespace IncusDemo

open Go

-- ============================================================================
-- The websocket library
-- ============================================================================

/-- The errors of a connection: a close message of the peer with its code, or any other. -/
inductive ConnError where
  | closeError (code : Nat)
  | failed (text : String)
  deriving DecidableEq

/-- `websocket.CloseNormalClosure`. -/
def closeNormalClosure : Nat := 1000

/-- `websocket.IsCloseError`. -/
def isCloseError (e : ConnError) (code : Nat) : Bool := e == .closeError code

/-- The types of messages. -/
inductive MessageType where
  | text
  | binary
  | close
  | ping
  | pong
  deriving DecidableEq

/-- A data message, in the pieces in which its reader yields it. -/
structure Message where
  type : MessageType
  pieces : List (List UInt8)
  together : Bool
  data : type = .text ∨ type = .binary

/-- The payload of a message. -/
def Message.payload (m : Message) : List UInt8 := m.pieces.flatten

/-- What still comes over a connection. -/
inductive Incoming where
  /-- `NextReader` fails. -/
  | ended (e : ConnError)
  | message (m : Message) (rest : Incoming)
  /-- The connection fails within a message. -/
  | torn (m : Message) (e : ConnError)

namespace Incoming

/-- `conn.NextReader()`.  An error is permanent. -/
def nextReader : Incoming → Except ConnError (MessageType × Reader ConnError) × Incoming
  | .ended e => (.error e, .ended e)
  | .message m rest => (.ok (m.type, ⟨m.pieces, m.together, .eof⟩), rest)
  | .torn m e => (.ok (m.type, ⟨m.pieces, m.together, .other e⟩), .ended e)

/-- The payloads that come, one after the other. -/
def payload : Incoming → List UInt8
  | .ended _ => []
  | .message m rest => m.payload ++ rest.payload
  | .torn m _ => m.payload

/-- The error with which the connection ends. -/
def failure : Incoming → ConnError
  | .ended e => e
  | .message _ rest => rest.failure
  | .torn _ e => e

end Incoming

-- ============================================================================
-- Read
-- ============================================================================

/-- A `wsWrapper`: its connection, and the reader of the message it is in. -/
structure WsWrapper where
  conn : Incoming
  reader : Option (Reader ConnError)

namespace WsWrapper

/-- "Perform the read itself". -/
def readMessage (conn : Incoming) (reader : Reader ConnError) (n : Nat) :
    List UInt8 × Option (ReadError ConnError) × WsWrapper :=
  match reader.read n with
  | (bytes, some .eof, _) => (bytes, none, ⟨conn, none⟩)
  | (bytes, some (.other e), _) => (bytes, some (.other e), ⟨conn, none⟩)
  | (bytes, none, reader) => (bytes, none, ⟨conn, some reader⟩)

/-- `w.Read(p)` for a buffer of `n` bytes: the bytes, the error and the wrapper after it. -/
def read (w : WsWrapper) (n : Nat) : List UInt8 × Option (ReadError ConnError) × WsWrapper :=
  match w.reader with
  | some reader => readMessage w.conn reader n
  | none =>
    match w.conn.nextReader with
    | (.error e, conn) =>
      if isCloseError e closeNormalClosure then ([], some .eof, ⟨conn, none⟩)
      else ([], some (.other e), ⟨conn, none⟩)
    | (.ok (mt, reader), conn) =>
      if mt = .close then ([], some .eof, ⟨conn, none⟩) else readMessage conn reader n

end WsWrapper

/-- What a call of `Read` returns. -/
structure ReadResult where
  bytes : List UInt8
  err : Option (ReadError ConnError)
  deriving DecidableEq

/-- Successive calls of `Read`, with buffers of the given sizes. -/
def WsWrapper.reads (w : WsWrapper) : List Nat → List ReadResult
  | [] => []
  | n :: sizes => ⟨(w.read n).1, (w.read n).2.1⟩ :: (w.read n).2.2.reads sizes

/-- The bytes that the calls return, one after the other. -/
def received (rs : List ReadResult) : List UInt8 := rs.flatMap ReadResult.bytes

/-- The error that is passed on for the error of a connection. -/
def passedOn (e : ConnError) : ReadError ConnError :=
  if isCloseError e closeNormalClosure then .eof else .other e

/-- The error that the first failing call returns. -/
def Incoming.report : Incoming → ReadError ConnError
  | .ended e => passedOn e
  | .message _ rest => rest.report
  | .torn _ e => .other e

namespace WsWrapper

/-- A message breaks off only where the connection ends. -/
def Sound (w : WsWrapper) : Prop :=
  ∀ r e, w.reader = some r → r.stop = .other e → w.conn = .ended e

/-- The bytes that are still to come. -/
def pending (w : WsWrapper) : List UInt8 := (w.reader.elim [] Reader.payload) ++ w.conn.payload

/-- The error that the next failing call returns. -/
def report (w : WsWrapper) : ReadError ConnError :=
  match w.reader.map Reader.stop with
  | some (.other e) => .other e
  | _ => w.conn.report

end WsWrapper

/-- The calls that are left until one fails are at most this many. -/
def Incoming.effort : Incoming → Nat
  | .ended _ => 1
  | .message m rest => m.payload.length + m.pieces.length + 1 + rest.effort
  | .torn m _ => m.payload.length + m.pieces.length + 2

def WsWrapper.effort (w : WsWrapper) : Nat := (w.reader.elim 0 Reader.effort) + w.conn.effort

theorem passedOn_cases (e : ConnError) :
    (passedOn e = .eof ∧ e = .closeError closeNormalClosure) ∨ passedOn e = .other e := by
  unfold passedOn isCloseError
  split
  · rename_i h
    exact .inl ⟨rfl, beq_iff_eq.mp h⟩
  · exact .inr rfl

/-- The first error is the end of the stream only after a normal closure, and else the error of
    the connection. -/
theorem Incoming.report_cases (conn : Incoming) :
    (conn.report = .eof ∧ conn.failure = .closeError closeNormalClosure) ∨
      conn.report = .other conn.failure := by
  induction conn with
  | ended e => exact passedOn_cases e
  | message m rest ih => exact ih
  | torn m e => exact .inr rfl

theorem Incoming.effort_pos (conn : Incoming) : 0 < conn.effort := by
  cases conn <;> unfold effort <;> omega

namespace WsWrapper

variable {w w' : WsWrapper} {n : Nat}

/-- What a call of `Read` does. -/
structure Did (w : WsWrapper) (n : Nat) (bytes : List UInt8) (err : Option (ReadError ConnError))
    (w' : WsWrapper) : Prop where
  sound : w'.Sound
  bound : bytes.length ≤ n
  bytes : bytes ++ w'.pending = w.pending
  failure : w'.conn.failure = w.conn.failure
  error : ∀ e, err = some e → e = w.report ∧ w' = ⟨.ended w.conn.failure, none⟩
  goes : err = none → w'.report = w.report ∧ (0 < n → w'.effort < w.effort)

theorem sound_closed (conn : Incoming) : Sound ⟨conn, none⟩ :=
  fun _ _ h => absurd h (Option.some_ne_none _).symm

theorem readMessage_did {conn : Incoming} {reader : Reader ConnError}
    (h : Sound ⟨conn, some reader⟩) (n : Nat) : Did ⟨conn, some reader⟩ n
      (readMessage conn reader n).1 (readMessage conn reader n).2.1
      (readMessage conn reader n).2.2 := by
  have hdid := reader.read_did n
  unfold readMessage
  generalize reader.read n = result at hdid ⊢
  obtain ⟨bytes, err, reader'⟩ := result
  obtain ⟨pieces, together, stop⟩ := reader
  cases err with
  | none =>
    refine ⟨?_, hdid.bound, ?_, rfl, ?_, fun _ => ⟨?_, fun hn => ?_⟩⟩
    · rintro r e hr hstop
      cases hr
      exact h _ e rfl (hdid.stop.symm.trans hstop)
    · simp only [pending, Option.elim_some]
      rw [← List.append_assoc, hdid.bytes]
    · intro e he
      cases he
    · obtain ⟨pieces', together', stop'⟩ := reader'
      cases hdid.stop
      rfl
    · exact Nat.add_lt_add_right (hdid.goes hn rfl) _
  | some e =>
    obtain ⟨he, hpayload⟩ := hdid.error e rfl
    have hbytes : bytes = pieces.flatten := by
      have hall := hdid.bytes
      rw [hpayload, List.append_nil] at hall
      exact hall
    cases he
    cases stop with
    | eof =>
      refine ⟨sound_closed conn, hdid.bound, ?_, rfl, ?_, fun _ => ⟨rfl, fun _ => ?_⟩⟩
      · rw [hbytes]
        rfl
      · intro e he
        cases he
      · simp only [effort, Option.elim_none, Option.elim_some, Reader.effort]
        omega
    | other e =>
      have hconn : conn = .ended e := h _ e rfl rfl
      subst hconn
      refine ⟨sound_closed _, hdid.bound, ?_, rfl, ?_, fun hnone => ?_⟩
      · rw [hbytes]
        rfl
      · rintro e' heq
        cases heq
        exact ⟨rfl, rfl⟩
      · cases hnone

/-- A call of `Read` that takes a new message does what it would do within it. -/
theorem Did.opened {m : Message} {conn : Incoming} {stop : ReadError ConnError}
    {bytes : List UInt8} {err : Option (ReadError ConnError)}
    (hpending : pending ⟨conn, some ⟨m.pieces, m.together, stop⟩⟩ = w.pending)
    (hfailure : conn.failure = w.conn.failure)
    (hreport : report ⟨conn, some ⟨m.pieces, m.together, stop⟩⟩ = w.report)
    (heffort : effort ⟨conn, some ⟨m.pieces, m.together, stop⟩⟩ ≤ w.effort)
    (h : Did ⟨conn, some ⟨m.pieces, m.together, stop⟩⟩ n bytes err w') : Did w n bytes err w' where
  sound := h.sound
  bound := h.bound
  bytes := h.bytes.trans hpending
  failure := h.failure.trans hfailure
  error := fun e he => hfailure ▸ hreport ▸ h.error e he
  goes := fun he => ⟨(h.goes he).1.trans hreport, fun hn => Nat.lt_of_lt_of_le ((h.goes he).2 hn) heffort⟩

theorem read_did (h : w.Sound) (n : Nat) : Did w n (w.read n).1 (w.read n).2.1 (w.read n).2.2 := by
  obtain ⟨conn, reader⟩ := w
  cases reader with
  | some reader => exact readMessage_did h n
  | none =>
    cases conn with
    | ended e =>
      have hread : (WsWrapper.mk (.ended e) none).read n = ([], some (passedOn e), ⟨.ended e, none⟩) := by
        unfold read passedOn
        simp only [Incoming.nextReader]
        split <;> rfl
      rw [hread]
      refine ⟨sound_closed _, Nat.zero_le n, rfl, rfl, ?_, nofun⟩
      rintro e' heq
      cases heq
      exact ⟨rfl, rfl⟩
    | message m rest =>
      have hread : (WsWrapper.mk (.message m rest) none).read n =
          readMessage rest ⟨m.pieces, m.together, .eof⟩ n := by
        unfold read
        simp only [Incoming.nextReader]
        rcases m.data with hm | hm <;> simp [hm]
      have hsound : Sound ⟨rest, some ⟨m.pieces, m.together, .eof⟩⟩ := by
        rintro r e hr hstop
        cases hr
        cases hstop
      rw [hread]
      refine Did.opened ?_ ?_ ?_ ?_ (readMessage_did hsound n)
      · rfl
      · rfl
      · rfl
      · simp [effort, Incoming.effort, Reader.effort, Reader.payload, Message.payload]
    | torn m e =>
      have hread : (WsWrapper.mk (.torn m e) none).read n =
          readMessage (.ended e) ⟨m.pieces, m.together, .other e⟩ n := by
        unfold read
        simp only [Incoming.nextReader]
        rcases m.data with hm | hm <;> simp [hm]
      have hsound : Sound ⟨.ended e, some ⟨m.pieces, m.together, .other e⟩⟩ := by
        rintro r e' hr hstop
        cases hr
        cases hstop
        rfl
      rw [hread]
      refine Did.opened ?_ ?_ ?_ ?_ (readMessage_did hsound n)
      · simp [pending, Incoming.payload, Reader.payload, Message.payload]
      · rfl
      · rfl
      · simp [effort, Incoming.effort, Reader.effort, Reader.payload, Message.payload]

theorem report_cases (h : w.Sound) :
    (w.report = .eof ∧ w.conn.failure = .closeError closeNormalClosure) ∨
      w.report = .other w.conn.failure := by
  obtain ⟨conn, reader⟩ := w
  rcases reader with _ | ⟨pieces, together, _ | e⟩
  · exact conn.report_cases
  · exact conn.report_cases
  · have hconn : conn = .ended e := h _ e rfl rfl
    subst hconn
    exact .inr rfl

/-! ## Successive calls -/

theorem reads_bound (h : w.Sound) (sizes : List Nat) :
    List.Forall₂ (fun n r => r.bytes.length ≤ n) sizes (w.reads sizes) := by
  induction sizes generalizing w with
  | nil => exact .nil
  | cons n sizes ih =>
    have hdid := read_did h n
    exact .cons hdid.bound (ih hdid.sound)

/-- What has been returned is the first part of what comes. -/
theorem reads_order (h : w.Sound) (sizes : List Nat) : received (w.reads sizes) <+: w.pending := by
  induction sizes generalizing w with
  | nil => exact List.nil_prefix
  | cons n sizes ih =>
    have hdid := read_did h n
    rw [reads, received, List.flatMap_cons, ← hdid.bytes]
    exact (List.prefix_append_right_inj _).mpr (ih hdid.sound)

/-- By the first error everything has been returned, and it is the error that the connection
    reports. -/
theorem reads_error (h : w.Sound) {sizes : List Nat} {before after : List ReadResult}
    {r : ReadResult} {e : ReadError ConnError} (hrs : w.reads sizes = before ++ r :: after)
    (he : r.err = some e) : received (before ++ [r]) = w.pending ∧
      ((∀ r' ∈ before, r'.err = none) → e = w.report) := by
  induction before generalizing w sizes with
  | nil =>
    cases sizes with
    | nil => cases hrs
    | cons n sizes =>
      have hdid := read_did h n
      cases (List.cons.inj hrs).1
      obtain ⟨hreport, hend⟩ := hdid.error e he
      refine ⟨?_, fun _ => hreport⟩
      have hbytes := hdid.bytes
      rw [hend] at hbytes
      simpa [received, pending, Incoming.payload] using hbytes
  | cons r₀ before ih =>
    cases sizes with
    | nil => cases hrs
    | cons n sizes =>
      have hdid := read_did h n
      obtain ⟨rfl, hrest⟩ := List.cons.inj hrs
      obtain ⟨hall, hfirst⟩ := ih hdid.sound hrest
      refine ⟨?_, fun hnone => ?_⟩
      · rw [List.cons_append, received, List.flatMap_cons, ← hdid.bytes]
        exact congrArg _ hall
      · rw [List.forall_mem_cons] at hnone
        exact (hfirst hnone.2).trans (hdid.goes hnone.1).1

/-- The end of the stream is returned only after a normal closure, and no error but that of the
    connection. -/
theorem reads_errors (h : w.Sound) {sizes : List Nat} {r : ReadResult} {e : ReadError ConnError}
    (hr : r ∈ w.reads sizes) (he : r.err = some e) :
    (e = .eof ∧ w.conn.failure = .closeError closeNormalClosure) ∨ e = .other w.conn.failure := by
  induction sizes generalizing w with
  | nil => cases hr
  | cons n sizes ih =>
    have hdid := read_did h n
    rcases List.mem_cons.mp hr with rfl | hr
    · rw [(hdid.error e he).1]
      exact report_cases h
    · rw [← hdid.failure]
      exact ih hdid.sound hr

/-- With buffers that are not empty, some call fails in the end. -/
theorem reads_end (h : w.Sound) {sizes : List Nat} (hsizes : ∀ n ∈ sizes, 0 < n)
    (hlength : w.effort ≤ sizes.length) : ∃ r ∈ w.reads sizes, r.err ≠ none := by
  induction sizes generalizing w with
  | nil =>
    have hpos := w.conn.effort_pos
    rw [List.length_nil, effort] at hlength
    omega
  | cons n sizes ih =>
    have hdid := read_did h n
    rw [List.forall_mem_cons] at hsizes
    rw [List.length_cons] at hlength
    cases herr : (w.read n).2.1 with
    | some e => exact ⟨_, List.mem_cons_self, by simp [herr]⟩
    | none =>
      have hless := (hdid.goes herr).2 hsizes.1
      obtain ⟨r, hr, hsome⟩ := ih hdid.sound hsizes.2 (by omega)
      exact ⟨r, List.mem_cons_of_mem _ hr, hsome⟩

end WsWrapper

/-- The calls return what comes over the connection, and nothing else. -/
structure Faithful (conn : Incoming) (sizes : List Nat) (rs : List ReadResult) : Prop where
  /-- No call returns more than its buffer holds. -/
  bound : List.Forall₂ (fun n r => r.bytes.length ≤ n) sizes rs
  order : received rs <+: conn.payload
  /-- An error comes after all bytes. -/
  all : ∀ before r after e, rs = before ++ r :: after → r.err = some e →
    received (before ++ [r]) = conn.payload
  eof : ∀ r ∈ rs, r.err = some .eof → conn.failure = .closeError closeNormalClosure
  other : ∀ r ∈ rs, ∀ e, r.err = some (.other e) → e = conn.failure
  /-- The first error is the one that the connection reports. -/
  first : ∀ before r after e, rs = before ++ r :: after → (∀ r' ∈ before, r'.err = none) →
    r.err = some e → e = conn.report
  /-- It comes, when the buffers are not empty. -/
  ends : (∀ n ∈ sizes, 1 ≤ n) → conn.effort ≤ sizes.length → ∃ r ∈ rs, r.err ≠ none

/-- The input of a console is a faithful stream of bytes, however the messages arrive and however
    large the buffers are. -/
theorem console_input_faithful (conn : Incoming) (sizes : List Nat) :
    Faithful conn sizes ((WsWrapper.mk conn none).reads sizes) := by
  have hsound : (WsWrapper.mk conn none).Sound := by
    rintro r e hr
    cases hr
  constructor
  case bound => exact WsWrapper.reads_bound hsound sizes
  case order => exact WsWrapper.reads_order hsound sizes
  case all =>
    intro before r after e hrs he
    exact (WsWrapper.reads_error hsound hrs he).1
  case eof =>
    intro r hr he
    rcases WsWrapper.reads_errors hsound hr he with ⟨-, hnormal⟩ | hother
    · exact hnormal
    · cases hother
  case other =>
    intro r hr e he
    rcases WsWrapper.reads_errors hsound hr he with ⟨heof, -⟩ | hother
    · cases heof
    · cases hother
      rfl
  case first =>
    intro before r after e hrs hbefore he
    exact (WsWrapper.reads_error hsound hrs he).2 hbefore
  case ends =>
    intro hsizes hlength
    refine WsWrapper.reads_end hsound hsizes ?_
    rw [WsWrapper.effort, Option.elim_none, Nat.zero_add]
    exact hlength

-- Two messages, one of them empty, read with a buffer of two bytes.
example : (WsWrapper.mk (.message ⟨.text, [[1, 2, 3]], true, .inl rfl⟩ (.message
    ⟨.binary, [], false, .inr rfl⟩ (.ended (.closeError 1000)))) none).reads [2, 2, 2, 2] =
    [⟨[1, 2], none⟩, ⟨[3], none⟩, ⟨[], none⟩, ⟨[], some .eof⟩] := by decide

-- ============================================================================
-- Write
-- ============================================================================

/-- A message that has been sent to the client. -/
structure Frame where
  type : MessageType
  payload : List UInt8
  deriving DecidableEq

/-- `w.Write(p)`, when `conn.WriteMessage` fails with `err` or does not fail: the number of bytes
    written, the error, and the messages sent by then. -/
def WsWrapper.write (sent : List Frame) (p : List UInt8) (err : Option ConnError) :
    Nat × Option ConnError × List Frame :=
  match err with
  | some e => (0, some e, sent)
  | none => (p.length, none, sent ++ [⟨.text, p⟩])

/-- The messages sent once the chunks have been written, one call for each. -/
def writes (sent : List Frame) : List (List UInt8) → List Frame
  | [] => sent
  | p :: chunks => writes (WsWrapper.write sent p none).2.2 chunks

theorem writes_eq (sent : List Frame) (chunks : List (List UInt8)) :
    writes sent chunks = sent ++ chunks.map (Frame.mk .text) := by
  induction chunks generalizing sent with
  | nil => simp [writes]
  | cons p chunks ih =>
    rw [writes, ih, WsWrapper.write, List.map_cons, List.append_assoc]
    rfl

/-- The messages are text messages whose payloads are texts and make up the stream. -/
structure TextFrames (stream : List UInt8) (frames : List Frame) : Prop where
  text : ∀ f ∈ frames, f.type = .text
  valid : ∀ f ∈ frames, ValidUTF8 f.payload
  stream : (frames.map Frame.payload).flatten = stream

/-- Console output that is a text is sent in valid text messages exactly when no chunk begins
    within a character. -/
theorem text_frames_iff {stream : List UInt8} {chunks : List (List UInt8)} (h : ValidUTF8 stream)
    (hchunks : chunks.flatten = stream) :
    TextFrames stream (writes [] chunks) ↔ ∀ p ∈ chunks, StartsCharacter p := by
  have hframes : writes [] chunks = chunks.map (Frame.mk .text) := writes_eq [] chunks
  have hpayloads : (chunks.map (Frame.mk .text)).map Frame.payload = chunks := by
    rw [List.map_map]
    exact List.map_id chunks
  rw [hframes, ← validUTF8_pieces_iff (hchunks ▸ h)]
  constructor
  · exact fun hall p hp => hall.valid ⟨.text, p⟩ (List.mem_map_of_mem hp)
  · intro hvalid
    refine ⟨?_, ?_, by rw [hpayloads, hchunks]⟩
    · intro f hf
      obtain ⟨p, -, rfl⟩ := List.mem_map.mp hf
      rfl
    · intro f hf
      obtain ⟨p, hp, rfl⟩ := List.mem_map.mp hf
      exact hvalid p hp

/-- The two bytes of an `é`. -/
def twoBytes : List UInt8 := [0xc3, 0xa9]

theorem twoBytes_valid : ValidUTF8 twoBytes := validUTF8_iff.mpr ⟨['é'], by decide⟩

/-- The character goes out whole. -/
theorem text_frames_small : TextFrames twoBytes (writes [] [[0xc3, 0xa9]]) :=
  (text_frames_iff twoBytes_valid rfl).mpr (by decide)

/-- The character is cut in two, and neither message is a text. -/
theorem cut_character_not_text : ¬ ∀ stream chunks, ValidUTF8 stream → chunks.flatten = stream →
    TextFrames stream (writes [] chunks) := by
  intro hall
  have hframes := hall twoBytes [[0xc3], [0xa9]] twoBytes_valid rfl
  have hstart := (hframes.valid ⟨.text, [0xa9]⟩ (by decide)).startsCharacter
  revert hstart
  decide

end IncusDemo
