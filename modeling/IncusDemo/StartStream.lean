/-
  IncusDemo.StartStream

  The body of a response to `/1.0/start`: what the handler writes once it has
  begun to answer, from `statusUpdate`, `restStartError` and its last statement.
  Two exits write the plain text of `http.Error` into the stream instead.
-/

import IncusDemo.Encoding
import IncusDemo.ReadOnly
import IncusDemo.Works

namespace IncusDemo

open Go Js Conc Conc.Prog

-- ============================================================================
-- Bodies
-- ============================================================================

/-- What one operation adds to the body of a response. -/
inductive Piece where
  | object (body : JsonObject)
  | plain (text : String)

def Piece.text : Piece → JsString
  | .object body => encode body
  | .plain text => ofString text

/-- The piece that an operation writes, if it does not fail.  `http.Error` ends its text with a
    newline. -/
def pieceOf : Event → Option Piece
  | ⟨.encode body, .ok _⟩ => some (.object body)
  | ⟨.httpError text _, _⟩ => some (.plain (text ++ "\n"))
  | ⟨.write text, .ok _⟩ => some (.plain text)
  | _ => none

/-- What a thread has written, the first piece first. -/
def pieces (l : Log) : List Piece := l.reverse.filterMap pieceOf

/-- The body of the response. -/
def bodyText (l : Log) : JsString := (pieces l).flatMap Piece.text

/-- The objects that end a stream: an error status, or the record of a session. -/
def Terminal (body : JsonObject) : Prop :=
  (∃ code : StatusCode, code ≠ .instanceStarted ∧ body = [("status", .num code.code)]) ∨
  ∃ info : Info, body = info.json

/-- Progress objects, and then one that ends the stream. -/
def WellFormedStream (text : JsString) : Prop :=
  ∃ ps b, (∀ p ∈ ps, progress p = true) ∧ Terminal b ∧ text = encodeAll (ps ++ [b])

theorem flatMap_object (bodies : List JsonObject) :
    (bodies.map Piece.object).flatMap Piece.text = encodeAll bodies := by
  rw [encodeAll, List.flatMap_map]
  rfl

/-- A text that does not begin with a brace is no stream of objects. -/
theorem not_wellFormedStream {c : CodeUnit} {text : JsString} (h : c ≠ '\x7b'.toNat) :
    ¬ WellFormedStream (c :: text) := by
  rintro ⟨ps, b, -, -, htext⟩
  cases ps with
  | nil => exact h (List.cons.inj htext).1
  | cons p ps => exact h (List.cons.inj htext).1

section Pieces

variable {l : Log} {e : Event}

theorem pieces_cons_none (h : pieceOf e = none) : pieces (e :: l) = pieces l := by
  simp [pieces, h]

theorem pieces_cons_some {p : Piece} (h : pieceOf e = some p) :
    pieces (e :: l) = pieces l ++ [p] := by
  simp [pieces, h]

theorem Unwritten.cons (h : Unwritten l) : Unwritten (e :: l) := unwritten_cons.mpr (.inr h)

/-- So far there have been progress objects only, unless one could not be written. -/
def Progressing (l : Log) : Prop :=
  Unwritten l ∨ ∃ ps, (∀ p ∈ ps, progress p = true) ∧ pieces l = List.map Piece.object ps

/-- The stream has come to its end, unless something could not be written. -/
def Complete (l : Log) : Prop :=
  Unwritten l ∨ ∃ ps b, (∀ p ∈ ps, progress p = true) ∧ Terminal b ∧
    pieces l = List.map Piece.object (ps ++ [b])

theorem Progressing.cons (h : Progressing l) (he : pieceOf e = none) : Progressing (e :: l) := by
  rcases h with h | ⟨ps, hps, hpieces⟩
  · exact .inl h.cons
  · exact .inr ⟨ps, hps, (pieces_cons_none he).trans hpieces⟩

theorem Complete.cons (h : Complete l) (he : pieceOf e = none) : Complete (e :: l) := by
  rcases h with h | ⟨ps, b, hps, hb, hpieces⟩
  · exact .inl h.cons
  · exact .inr ⟨ps, b, hps, hb, (pieces_cons_none he).trans hpieces⟩

theorem Progressing.message {body : JsonObject} {res : Except Error Unit} (h : Progressing l)
    (hbody : progress body = true) : Progressing (⟨.encode body, res⟩ :: l) := by
  rcases h with h | ⟨ps, hps, hpieces⟩
  · exact .inl h.cons
  · cases res with
    | error err => exact .inl ⟨body, err, List.mem_cons_self⟩
    | ok _ =>
      refine .inr ⟨ps ++ [body], ?_, ?_⟩
      · intro p hp
        rcases List.mem_append.mp hp with hp | hp
        · exact hps p hp
        · rwa [List.mem_singleton.mp hp]
      · rw [pieces_cons_some rfl, hpieces, List.map_append]
        rfl

theorem Progressing.terminal {body : JsonObject} {res : Except Error Unit} (h : Progressing l)
    (hbody : Terminal body) : Complete (⟨.encode body, res⟩ :: l) := by
  rcases h with h | ⟨ps, hps, hpieces⟩
  · exact .inl h.cons
  · cases res with
    | error err => exact .inl ⟨body, err, List.mem_cons_self⟩
    | ok _ =>
      refine .inr ⟨ps, body, hps, hbody, ?_⟩
      rw [pieces_cons_some rfl, hpieces, List.map_append]
      rfl

end Pieces

-- ============================================================================
-- The handler
-- ============================================================================

/-- What the program says of the log at its end, if nothing is asked of the log before. -/
abbrev Leaves {α : Type} (prog : Prog α) (Q : α → Log → Prop) (l : Log) : Prop :=
  prog.Traces (fun _ => True) Q l

section Handler

variable {l : Log} {α : Type}

theorem works_leaves {prog : Prog α} (h : Works prog) (hl : Progressing l) :
    Leaves prog (fun _ => Progressing) l := by
  refine h.wp (fun _ _ _ _ => trivial) (fun l' o res l'' hl' ho hstep => ?_) hl
  rw [hstep]
  cases o with
  | encode body => exact hl'.message ho
  | httpError text code => cases ho
  | write text => cases ho
  | _ => exact hl'.cons rfl

theorem restStartError_leaves {code : StatusCode} (hcode : code ≠ .instanceStarted)
    (hl : Progressing l) : Leaves (restStartError code) (fun _ => Complete) l := by
  unfold restStartError
  refine traces_then trivial fun res => ?_
  have hcomplete : Complete (⟨.encode _, res⟩ :: l) := hl.terminal (.inl ⟨code, hcode, rfl⟩)
  cases res with
  | error err => exact traces_op trivial fun _ => .inl (Unwritten.cons ⟨_, err, List.mem_cons_self⟩)
  | ok _ => exact hcomplete

/-- The instance is removed, and the error reported. -/
theorem giveUp_leaves (name : String) (hl : Progressing l) :
    Leaves (do forceDelete name; restStartError .instanceUnknownError) (fun _ => Complete) l :=
  traces_bind.mpr (traces_mono (fun _ _ h => restStartError_leaves nofun h)
    (works_leaves (forceDelete_works name) hl))

theorem deliver_leaves (a : Acquired) (hl : Progressing l) :
    Leaves (deliver a) (fun _ => Complete) l := by
  unfold deliver
  refine traces_then trivial fun c => ?_
  have hl := hl.cons (e := ⟨.config, c⟩) rfl
  split
  · exact giveUp_leaves _ hl
  · rename_i duration _
    refine traces_then trivial fun u => traces_then trivial fun res => ?_
    have hl := hl.cons (e := ⟨.afterFunc duration (.cleanup a.instanceID a.info.name), u⟩) rfl
    cases res with
    | error err => exact giveUp_leaves _ (.inl ⟨_, err, List.mem_cons_self⟩)
    | ok res =>
      have hcomplete : Complete (⟨.encode a.info.json, .ok res⟩ :: _) := hl.terminal (.inr ⟨_, rfl⟩)
      exact traces_op trivial fun _ => hcomplete.cons rfl

/-- There is a session for the client, or the stream has come to its end. -/
def AcquiredOrDone : Option Acquired → Log → Prop
  | none, l => Complete l
  | some _, l => Progressing l

theorem unknownError_leaves (hl : Progressing l) :
    Leaves (do restStartError .instanceUnknownError; pure none) AcquiredOrDone l :=
  traces_bind.mpr (traces_mono (fun _ _ h => h) (restStartError_leaves nofun hl))

theorem useAllocated_leaves (id : Nat) (row : Session) (expiry : Int) (hl : Progressing l) :
    Leaves (useAllocated id row expiry) AcquiredOrDone l := by
  unfold useAllocated
  refine traces_then trivial fun u => traces_bind.mpr ?_
  have hl := hl.cons (e := ⟨.go .preAllocate, u⟩) rfl
  refine traces_mono (fun r l' h => ?_) (works_leaves (instanceStart_works _ statusUpdate_works) hl)
  cases r with
  | error err => exact unknownError_leaves h
  | ok _ => exact h

theorem useFresh_leaves (date : Int) (ip terms : String) (hl : Progressing l) :
    Leaves (useFresh date ip terms) AcquiredOrDone l := by
  unfold useFresh
  refine traces_bind.mpr (traces_mono (fun r l' h => ?_)
    (works_leaves (instanceCreate_works statusUpdate_works) hl))
  cases r with
  | error err => exact unknownError_leaves h
  | ok info =>
    refine traces_then trivial fun now => traces_then trivial fun c => traces_then trivial fun r => ?_
    have h := ((h.cons (e := ⟨.now, now⟩) rfl).cons (e := ⟨.config, c⟩) rfl).cons
      (e := ⟨.query (.dbNew (activeRow info (int64 (now.unix + c.session.expiry)) date ip terms)), r⟩)
      rfl
    cases r with
    | error err =>
      exact traces_bind.mpr (traces_mono (fun _ _ h => unknownError_leaves h)
        (works_leaves (forceDelete_works info.name) h))
    | ok id => exact h

theorem dbGetAllocated_leaves (expiry date : Int) (ip terms : String) (hl : Progressing l) :
    Leaves (dbGetAllocated expiry date ip terms) (fun _ => Progressing) l := by
  unfold dbGetAllocated
  refine traces_then trivial fun c => ?_
  have hl := hl.cons (e := ⟨.config, c⟩) rfl
  refine traces_ite (fun _ => hl) fun _ => traces_then trivial fun r => ?_
  have hl := hl.cons (e := ⟨.query .selectAllocated, r⟩) rfl
  rcases r with err | (_ | row)
  · exact hl
  · exact hl
  · refine traces_ite (fun _ => hl) fun _ => traces_then trivial fun r => ?_
    have hl := hl.cons (e := ⟨.query (.updateAllocated expiry date ip terms row.1), r⟩) rfl
    cases r with
    | error err => exact hl
    | ok _ => exact hl

theorem startSession_leaves (date : Int) (ip terms : String) (hl : Progressing l) :
    Leaves (startSession date ip terms) (fun _ => Complete) l := by
  unfold startSession
  refine traces_then trivial fun now => traces_then trivial fun c => traces_bind.mpr ?_
  have hl := (hl.cons (e := ⟨.now, now⟩) rfl).cons (e := ⟨.config, c⟩) rfl
  refine traces_mono (fun r l' h => ?_) (dbGetAllocated_leaves _ _ _ _ hl)
  rcases r with err | ⟨id, row⟩
  · refine traces_bind.mpr (traces_mono (fun acquired _ h => ?_) (useFresh_leaves _ _ _ h))
    cases acquired with
    | none => exact h
    | some a => exact deliver_leaves a h
  · refine traces_bind.mpr (traces_mono (fun acquired _ h => ?_) (useAllocated_leaves _ _ _ h))
    cases acquired with
    | none => exact h
    | some a => exact deliver_leaves a h

theorem admitSession_leaves (date : Int) (ip terms : String) (hl : Progressing l) :
    Leaves (admitSession date ip terms) (fun _ => Complete) l := by
  unfold admitSession
  refine traces_then trivial fun count => traces_then trivial fun c => ?_
  have hl := (hl.cons (e := ⟨.query .dbActiveCount, count⟩) rfl).cons (e := ⟨.config, c⟩) rfl
  refine traces_ite (fun _ => restStartError_leaves nofun hl) fun _ => ?_
  refine traces_then trivial fun count => traces_then trivial fun c => ?_
  have hl := (hl.cons (e := ⟨.query (.dbActiveCountForIP ip), count⟩) rfl).cons (e := ⟨.config, c⟩) rfl
  exact traces_ite (fun _ => restStartError_leaves nofun hl) fun _ => startSession_leaves _ _ _ hl

/-- The request is answered with objects only: the writer can flush, and there are terms unless the
    address of the client is already rejected. -/
def Request.Streamed (r : Request) : Prop :=
  r.flusher = true ∧ ((∃ err, restClientIP r = .error err) ∨ r.formValue "terms" ≠ "")

/-- The texts that `http.Error` writes into a stream. -/
def plainTexts : List String := ["Missing terms hash\n", "Internal server error\n"]

/-- What the body is, for a request that gets as far as a stream. -/
def StreamOf (r : Request) (l : Log) : Prop :=
  (r.Streamed → Complete l) ∧ (¬ r.Streamed → ∃ text ∈ plainTexts, pieces l = [.plain text])

theorem checkRequest_leaves {r : Request} (hflusher : r.flusher = true) (hl : pieces l = []) :
    Leaves (checkRequest r) (fun _ => StreamOf r) l := by
  have hprogress : ∀ {l'}, pieces l' = [] → Progressing l' := fun h =>
    .inr ⟨[], fun _ hp => absurd hp List.not_mem_nil, h⟩
  have hcomplete : r.Streamed → ∀ l', Complete l' → StreamOf r l' := fun hstreamed l' h =>
    ⟨fun _ => h, fun hnot => absurd hstreamed hnot⟩
  unfold checkRequest
  refine traces_then trivial fun date => ?_
  have hl₁ : pieces (⟨.now, date⟩ :: l) = [] := (pieces_cons_none rfl).trans hl
  cases hip : restClientIP r with
  | error err =>
    have hstreamed : r.Streamed := ⟨hflusher, .inl ⟨err, hip⟩⟩
    exact traces_mono (fun _ => hcomplete hstreamed) (restStartError_leaves nofun (hprogress hl₁))
  | ok x =>
    obtain ⟨ip, protocol⟩ := x
    refine traces_ite (fun hterms => ?_) fun hterms => ?_
    · refine traces_op trivial fun u => ⟨?_, fun _ => ⟨_, List.mem_cons_self, ?_⟩⟩
      · rintro ⟨-, ⟨err, herr⟩ | hne⟩
        · cases hip.symm.trans herr
        · exact absurd hterms hne
      · rw [pieces_cons_some rfl, hl₁]
        rfl
    · have hstreamed : r.Streamed := ⟨hflusher, .inr hterms⟩
      refine traces_mono (fun _ => hcomplete hstreamed) ?_
      refine traces_then trivial fun c => ?_
      have hl₂ := (hprogress hl₁).cons (e := ⟨.config, c⟩) rfl
      refine traces_ite (fun _ => restStartError_leaves nofun hl₂) fun _ => ?_
      refine traces_then trivial fun c => ?_
      have hl₃ := hl₂.cons (e := ⟨.config, c⟩) rfl
      exact traces_ite (fun _ => restStartError_leaves nofun hl₃) fun _ => admitSession_leaves _ _ _ hl₃

/-- What `restStartHandler` has written when it returns: nothing is said of a request that is
    rejected before the stream begins. -/
theorem restStartHandler_leaves (r : Request) : Leaves (restStartHandler r)
    (fun _ l => True ∧ (⟨.writeHeader 200, ()⟩ ∈ l → StreamOf r l)) [] := by
  unfold restStartHandler
  refine traces_ite (fun _ => traces_op trivial fun _ => ⟨trivial, by simp⟩) fun _ => ?_
  refine traces_then trivial fun c => traces_then trivial fun d => ?_
  refine traces_ite (fun _ => traces_op trivial fun _ => ⟨trivial, by simp⟩) fun _ => ?_
  refine traces_then trivial fun _ => traces_then trivial fun _ => traces_then trivial fun _ =>
    traces_then trivial fun _ => ?_
  refine traces_ite (fun hflusher => ?_) fun hflusher => ?_
  · refine traces_op trivial fun _ => ⟨trivial, fun _ => ⟨fun h => absurd h.1 hflusher, fun _ => ?_⟩⟩
    exact ⟨_, List.mem_cons_of_mem _ List.mem_cons_self, rfl⟩
  · refine traces_then trivial fun _ => traces_mono (fun _ l h => ⟨trivial, fun _ => h⟩) ?_
    exact checkRequest_leaves (not_not.mp hflusher) rfl

end Handler

-- ============================================================================
-- Runs
-- ============================================================================

/-- In every run: once a request that has passed the first checks has been handled, and all writes
    have succeeded, the body is a well-formed stream if and only if the request is answered with
    objects only. -/
theorem stream_wellFormed_iff {s₀ s : Sys} (h0 : Initial s₀) (hrun : server.Run Machine.anyStep s₀ s)
    {t : Nat} {r : Request} {l : Log} (hr : Returned s t (.restStart r) l)
    (hpassed : ⟨.writeHeader 200, ()⟩ ∈ l) (hwritten : ¬ Unwritten l) :
    WellFormedStream (bodyText l) ↔ r.Streamed := by
  have hstream : StreamOf r l := hr.traced
    (hrun.traced (p := .restStart r) (restStartHandler_leaves r) h0.allStart) hpassed
  by_cases hstreamed : r.Streamed
  · refine iff_of_true ?_ hstreamed
    obtain ⟨ps, b, hps, hb, hpieces⟩ := (hstream.1 hstreamed).resolve_left hwritten
    exact ⟨ps, b, hps, hb, by rw [bodyText, hpieces, flatMap_object]⟩
  · refine iff_of_false ?_ hstreamed
    obtain ⟨text, htext, hpieces⟩ := hstream.2 hstreamed
    have hplain : bodyText l = ofString text := by simp [bodyText, hpieces, Piece.text]
    rw [hplain]
    rcases List.mem_pair.mp htext with rfl | rfl
    · exact not_wellFormedStream (c := 'M'.toNat) (by decide)
    · exact not_wellFormedStream (c := 'I'.toNat) (by decide)

/-- The event is no failed write. -/
def isWritten : Event → Bool
  | ⟨.encode _, .error _⟩ => false
  | _ => true

theorem not_unwritten_of_all {l : Log} (h : l.all isWritten = true) : ¬ Unwritten l := by
  rintro ⟨body, err, hmem⟩
  cases List.all_eq_true.mp h _ hmem

/-- The event begins the body of a stream. -/
def beginsStream : Event → Bool
  | ⟨.writeHeader 200, _⟩ => true
  | _ => false

theorem writeHeader_mem_of_any {l : Log} (h : l.any beginsStream = true) :
    ⟨.writeHeader 200, ()⟩ ∈ l := by
  obtain ⟨e, he, hbegins⟩ := List.any_eq_true.mp h
  unfold beginsStream at hbegins
  split at hbegins
  · exact he
  · cases hbegins

/-- Thread `t` has come to the end of the start request `r`, whose stream was begun without a failed
    write, and `f` holds of its log. -/
def streamed (t : Nat) (r : Request) (f : Log → Bool) (s : Sys) : Bool :=
  match s.threads[t]? with
  | some ⟨.restStart q, true, l, .ret _⟩ => q == r && l.any beginsStream && l.all isWritten && f l
  | _ => false

theorem of_streamed {t : Nat} {r : Request} {f : Log → Bool} {s : Sys} (h : streamed t r f s = true) :
    ∃ l, Returned s t (.restStart r) l ∧ ⟨.writeHeader 200, ()⟩ ∈ l ∧ ¬ Unwritten l ∧ f l = true := by
  unfold streamed at h
  split at h
  · rename_i q l u hth
    simp only [Bool.and_eq_true] at h
    obtain ⟨⟨⟨hq, hbegins⟩, hwritten⟩, hf⟩ := h
    cases beq_iff_eq.mp hq
    exact ⟨l, ⟨_, hth, rfl, rfl, rfl, rfl⟩, writeHeader_mem_of_any hbegins,
      not_unwritten_of_all hwritten, hf⟩
  · cases h

/-- The stream of a new session. -/
theorem stream_wellFormed_small : ∃ s l, Returned s 2 (.restStart (startRequest "192.0.2.1")) l ∧
    WellFormedStream (bodyText l) := by
  obtain ⟨s, hrun, hs⟩ := server.run_of_check Machine.noTest (fun _ _ _ => trivial) (emptyServer 0)
    (oks 0 14 ++ act (.request (startRequest "192.0.2.1")) ++ oks 2 57)
    (streamed 2 (startRequest "192.0.2.1") fun _ => true) (by decide +kernel)
  obtain ⟨l, hr, hpassed, hwritten, -⟩ := of_streamed hs
  have hstreamed : (startRequest "192.0.2.1").Streamed := ⟨rfl, .inr (by decide)⟩
  exact ⟨s, l, hr, (stream_wellFormed_iff (emptyServer_initial 0) hrun hr hpassed hwritten).mpr
    hstreamed⟩

/-- A request without terms is told so in plain text. -/
theorem plain_text_in_stream : ¬ ∀ s₀ s t r l, Initial s₀ → server.Run Machine.anyStep s₀ s →
    Returned s t (.restStart r) l → ⟨.writeHeader 200, ()⟩ ∈ l → ¬ Unwritten l →
    WellFormedStream (bodyText l) := by
  intro hall
  obtain ⟨s, hrun, hs⟩ := server.run_of_check Machine.noTest (fun _ _ _ => trivial) (emptyServer 0)
    (oks 0 4 ++ act (.request ⟨"GET", "", "192.0.2.1:50000", [], true⟩) ++ oks 1 9)
    (streamed 1 ⟨"GET", "", "192.0.2.1:50000", [], true⟩ fun l =>
      (bodyText l).head? == some 'M'.toNat) (by decide +kernel)
  obtain ⟨l, hr, hpassed, hwritten, hhead⟩ := of_streamed hs
  have hstream := hall _ s 1 _ l (emptyServer_initial 0) hrun hr hpassed hwritten
  obtain ⟨text, htext⟩ := List.head?_eq_some_iff.mp (beq_iff_eq.mp hhead)
  rw [htext] at hstream
  exact not_wellFormedStream (by decide) hstream

end IncusDemo
