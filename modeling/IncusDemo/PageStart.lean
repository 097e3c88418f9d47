/-
  IncusDemo.PageStart

  A start request from end to end: what `restStartHandler` writes, in whatever
  pieces it is delivered, and what the page shows when the response is complete.

  The page shows what the last object of the response says, when the progress
  events before the last have shown all that comes before that object.  In every
  other case it goes on showing that a session is being started.
-/

import IncusDemo.PageScreens
import IncusDemo.StartStream

namespace IncusDemo
namespace Page

open Js Conc Relation

-- ============================================================================
-- Objects
-- ============================================================================

/-- A member of an object, as it is read. -/
theorem get_asRead (body : JsonObject) (k : String) :
    (asRead body).get k = (body.lookup k).map (Json.toJs fun n => .ofRat n) := by
  show (toJs _ body).lookup (ofString k) = _
  induction body with
  | nil => rfl
  | cons kv body ih =>
    obtain ⟨key, v⟩ := kv
    by_cases hk : k = key
    · subst hk
      simp [toJs]
    · have hne : ofString k ≠ ofString key := fun h => hk (ofString_injective h)
      rw [List.lookup_cons, beq_eq_false_iff_ne.mpr hk]
      rw [toJs, List.map_cons, List.lookup_cons, beq_eq_false_iff_ne.mpr hne]
      exact ih

/-- The number of a status is a double. -/
theorem ofRat_code (code : StatusCode) : Number.ofRat (code.code : Int) = .finite (code.code : Int) := by
  apply exact_intCast
  cases code <;> decide

/-- The status of an object. -/
def statusValue (code : StatusCode) : Option Value := some (.num (.finite (code.code : Int)))

theorem looseEq_code {E : Engine} (code : StatusCode) (q : ℚ) :
    E.looseEq (statusValue code) q = decide (((code.code : Int) : ℚ) = q) := by
  simp [statusValue, Engine.looseEq, Engine.number]

/-- The keys of a record are distinct. -/
theorem info_keys_nodup (info : Info) : (info.json.map Prod.fst).Nodup := by
  unfold Info.json
  cases info.expiry <;> cases info.fqdn <;> cases info.status <;> simp

theorem lookup_id (info : Info) : info.json.lookup "id" = some (.str info.id) := by
  unfold Info.json
  cases info.expiry <;> cases info.fqdn <;> rfl

theorem lookup_status (info : Info) :
    info.json.lookup "status" = info.status.map fun code => .num code.code := by
  unfold Info.json
  cases info.expiry <;> cases info.fqdn <;> cases info.status <;> rfl

-- ============================================================================
-- Delivery
-- ============================================================================

variable {E : Engine} {P : Page → Event → Prop} {p p' p₀ : Page} {search : JsString}

theorem progress_eq {s : Start} (hs : p.starts = [s]) (hover : s.ended = false)
    (response : JsString) : ∃ p', p.progress E 0 response = some p' ∧
      p'.starts = [{ s with client := onprogress s.client response }] ∧ p'.leaving = p.leaving := by
  have hstart : p.start 0 = some s := by
    unfold Page.start
    rw [hs]
    simp [hover]
  unfold Page.progress
  rw [hstart]
  refine ⟨_, rfl, ?_⟩
  dsimp only
  split
  · exact ⟨by rw [hs]; rfl, rfl⟩
  · exact ⟨by rw [hs]; rfl, rfl⟩
  · split
    · exact ⟨by rw [hs]; rfl, rfl⟩
    · refine ⟨?_, rfl⟩
      show p.starts.set 0 _ = _
      rw [hs]
      rfl

/-- The progress events that show parts of a text. -/
def shownParts (text : JsString) (cuts : List Nat) : List Event :=
  cuts.map fun n => .progress 0 (text.take n)

/-- The click on the button, the progress events, and the completion of the response. -/
def delivery (text : JsString) (cuts : List Nat) (current : Int) (rows cols : Nat) : List Event :=
  .accept :: (shownParts text cuts ++ [.complete 0 current rows cols])

/-- The page after some events, if it can receive them. -/
def after (E : Engine) (p : Page) (es : List Event) : Option Page :=
  (machine E).handle (fun _ _ => true) p es

theorem after_cons {e : Event} (h : p.step E e = some p') (es : List Event) :
    after E p (e :: es) = after E p' es := by
  unfold after Reactive.handle
  rw [if_pos rfl]
  show (p.step E e).bind _ = _
  rw [h, Option.bind_some, ← Reactive.handle.eq_def]

theorem after_append (es : List Event) {fs : List Event} (h : after E p es = some p') :
    after E p (es ++ fs) = after E p' fs := by
  unfold after
  rw [Reactive.handle_append, show (machine E).handle (fun _ _ => true) p es = some p' from h]
  rfl

theorem after_parts (text : JsString) (cuts : List Nat) {s : Start} (h : Depicts p .starting)
    (hs : p.starts = [s]) (hover : s.ended = false) :
    ∃ p', after E p (shownParts text cuts) = some p' ∧ Depicts p' .starting ∧
      p'.starts = [{ s with
        client := cuts.foldl (fun c n => onprogress c (text.take n)) s.client }] ∧
      p'.leaving = p.leaving := by
  induction cuts generalizing p s with
  | nil => exact ⟨p, rfl, h, hs, rfl⟩
  | cons n cuts ih =>
    obtain ⟨q, hq, hstarts, hleaving⟩ := progress_eq (E := E) hs hover (text.take n)
    obtain ⟨p', hp', hd, hs', hl⟩ := ih (h.progress hq) hstarts hover
    have hstep : p.step E (.progress 0 (text.take n)) = some q := hq
    exact ⟨p', (after_cons hstep _).trans hp', hd, hs', hl.trans hleaving⟩

/-- The completion handler acts on what it has kept of the response. -/
theorem after_delivery (text : JsString) (cuts : List Nat) (current : Int) (rows cols : Nat)
    (h : Depicts p .offer) : ∃ q, Depicts q .starting ∧ q.pending = [] ∧
      (∀ s ∈ q.starts, s.ended = true) ∧ q.leaving = p.leaving ∧
      after E p (delivery text cuts current rows cols) =
        some (match completed (receive text cuts) with
          | none => q
          | some data => q.onRecord E data current rows cols) := by
  have hstarts : p.accept.starts = [⟨p.termsHash, .init, false⟩] := by
    have hnil : p.starts = [] := List.eq_nil_of_length_eq_zero h.asking.requests
    show p.starts ++ _ = _
    rw [hnil]
    rfl
  obtain ⟨q, hq, hd, hs, hleaving⟩ := after_parts (E := E) text cuts h.accept hstarts rfl
  have hstart : q.start 0 = some ⟨p.termsHash, receive text cuts, false⟩ := by
    unfold Page.start
    rw [hs]
    rfl
  refine ⟨q.settle 0 ⟨p.termsHash, receive text cuts, false⟩, hd.setStart hs _ rfl,
    hd.nothing_pending, fun s hmem => ?_, hleaving, ?_⟩
  · unfold settle at hmem
    rw [hs] at hmem
    rw [List.mem_singleton.mp hmem]
  · have hv : p.document.visible .accept = true := by
      rw [h.visible (by decide)]
      rfl
    have haccept : p.step E .accept = some p.accept := if_pos hv
    have hcomplete : q.step E (.complete 0 current rows cols) =
        some (match completed (receive text cuts) with
          | none => q.settle 0 ⟨p.termsHash, receive text cuts, false⟩
          | some data => (q.settle 0 ⟨p.termsHash, receive text cuts, false⟩).onRecord E data
            current rows cols) := by
      show (q.start 0).map _ = _
      rw [hstart]
      rfl
    unfold delivery
    rw [after_cons haccept, after_append _ hq, after_cons hcomplete]
    rfl

-- ============================================================================
-- Answers
-- ============================================================================

/-- What the page says of a status of the server, if it is one that has a text. -/
def reasonOf : StatusCode → Option Reason
  | .instanceServerFull => some .full
  | .instanceQuotaReached => some .quota
  | .instanceUserBanned => some .banned
  | .instanceUnknownError => some .unknown
  | .instanceStarted | .instanceInvalidTerms => none

theorem refusal_code (code : StatusCode) :
    refusal E (statusValue code) = (reasonOf code).map Reason.element := by
  unfold refusal
  simp only [looseEq_code]
  cases code <;> simp [StatusCode.code, reasonOf, Reason.element]

/-- Page `p` shows what an object at the end of the response says. -/
inductive Shows (p : Page) : JsonObject → Prop
  | session (info : Info) (h : Depicts p (.session false false))
      (hid : p.console = some (.str (ofString info.id))) : Shows p info.json
  | refused (code : StatusCode) (reason : Reason) (hreason : reasonOf code = some reason)
      (h : Depicts p (.refused (some reason))) : Shows p [("status", .num code.code)]
  /-- The terms have changed: the page starts over. -/
  | restart (h : Depicts p .starting) (hleaving : p.leaving = true) :
      Shows p [("status", .num StatusCode.instanceInvalidTerms.code)]

theorem status_asRead {body : JsonObject} {code : StatusCode}
    (h : body.lookup "status" = some (.num code.code)) :
    (asRead body).get "status" = statusValue code := by
  rw [get_asRead, h]
  show some (Value.num (Number.ofRat (code.code : Int))) = _
  rw [ofRat_code]
  rfl

/-- Every status but that of a started instance is an error. -/
theorem isError_iff {body : JsonObject} {code : StatusCode}
    (h : body.lookup "status" = some (.num code.code)) :
    isError E (asRead body) = true ↔ code ≠ .instanceStarted := by
  unfold isError
  rw [status_asRead h, looseEq_code]
  cases code <;> simp [statusValue, truthy, StatusCode.code]

section Answers

variable {q : Page} (h : Depicts q .starting) (hpending : q.pending = [])
  (hover : ∀ s ∈ q.starts, s.ended = true) (current : Int) (rows cols : Nat)

theorem onRecord_asRead (body : JsonObject) :
    q.onRecord E (asRead body) current rows cols =
      if isError E (asRead body) then
        if E.looseEq ((asRead body).get "status") 1 then q.leave
        else q.refuse E ((asRead body).get "status")
      else q.showSession E (asRead body) current rows cols := rfl

include h hpending hover

/-- The record of a session. -/
theorem shows_info {info : Info} (hstatus : info.status = none ∨ info.status = some .instanceStarted) :
    Shows (q.onRecord E (asRead info.json) current rows cols) info.json := by
  have hnoError : ¬ isError E (asRead info.json) = true := by
    rcases hstatus with hs | hs
    · unfold isError
      rw [get_asRead, lookup_status, hs]
      exact Bool.false_ne_true
    · have hlookup : info.json.lookup "status" = some (.num StatusCode.instanceStarted.code) := by
        rw [lookup_status, hs]
        rfl
      exact fun herror => (isError_iff hlookup).mp herror rfl
  rw [onRecord_asRead, if_neg hnoError]
  refine .session info (h.showSession hpending hover (.inr ⟨rfl, rfl⟩) ..) ?_
  rw [showSession_eq]
  show (asRead info.json).get "id" = _
  rw [get_asRead, lookup_id]
  rfl

omit hpending in
/-- An error status. -/
theorem shows_error {code : StatusCode} (hcode : code ≠ .instanceStarted) :
    Shows (q.onRecord E (asRead [("status", .num code.code)]) current rows cols)
      [("status", .num code.code)] := by
  have hlookup : List.lookup "status" [("status", Json.num code.code)] = some (.num code.code) := rfl
  rw [onRecord_asRead, if_pos ((isError_iff hlookup).mpr hcode), status_asRead hlookup]
  by_cases hterms : code = .instanceInvalidTerms
  · subst hterms
    rw [if_pos (by rw [looseEq_code]; decide)]
    exact .restart h.leave rfl
  · obtain ⟨reason, hreason⟩ : ∃ reason, reasonOf code = some reason := by
      cases code <;> first | exact ⟨_, rfl⟩ | contradiction
    rw [if_neg (by rw [looseEq_code]; cases code <;> first | contradiction | simp [StatusCode.code])]
    obtain ⟨reason', heq, hrefuse⟩ := h.refuse (E := E) hover (statusValue code)
    rw [refusal_code, hreason] at heq
    have hsame : reason' = some reason := by
      cases reason' with
      | none => cases heq
      | some r =>
        cases reason <;> cases r <;> first | rfl | cases heq
    subst hsame
    exact .refused code reason hreason hrefuse

/-- The object that ends a stream of the server. -/
theorem shows_terminal {r : Request} {l : Log} {b : JsonObject} (hsend : MaySend (.restStart r) l b)
    (hb : IncusDemo.Terminal b) : Shows (q.onRecord E (asRead b) current rows cols) b := by
  cases hsend with
  | progress msg =>
    rcases hb with ⟨code, -, hb⟩ | ⟨info, hb⟩
    · simp at hb
    · have hid := lookup_id info
      rw [← hb] at hid
      cases hid
  | error code =>
    refine shows_error h hover current rows cols fun hcode => ?_
    subst hcode
    rcases hb with ⟨code', hne, hb⟩ | ⟨info, hb⟩
    · cases code' <;> first | exact hne rfl | simp [StatusCode.code] at hb
    · have hid := lookup_id info
      rw [← hb] at hid
      cases hid
  | record ip id info expiry d hp hs hexp harmed hrecord =>
    refine shows_info h hpending hover current rows cols ?_
    cases hrecord with
    | allocated id row expiry hclaim hinfo =>
      rw [hinfo]
      exact .inl rfl
    | fresh id c uuid name ip password expiry date requestIP terms hattempt hclaim hc hinfo =>
      rw [hinfo]
      exact .inr rfl
  | answer q body hp => cases hp

end Answers

-- ============================================================================
-- From end to end
-- ============================================================================

/-- No part of a plain text is an object. -/
theorem parse_plain {text : String} (h : text ∈ plainTexts) (k : Nat) :
    parse ((ofString text).drop k) = none := by
  have hparts : ∀ t ∈ plainTexts, (ofString t).length ≤ 25 ∧
      ∀ i < 25, (parse ((ofString t).drop i)).isNone = true := by decide +kernel
  obtain ⟨hlen, hall⟩ := hparts text h
  rcases Nat.lt_or_ge k 25 with hk | hk
  · exact Option.isNone_iff_eq_none.mp (hall k hk)
  · rw [List.drop_eq_nil_of_le (hlen.trans hk)]
    rfl

/-- The object is the last one of the text, and the progress events before the last have shown all
    that comes before it, or all but the end of the line before it. -/
def ComesAlone (text : JsString) (cuts : List Nat) (b : JsonObject) : Prop :=
  ∃ before, text = encodeAll (before ++ [b]) ∧
    (shownBefore cuts = (encodeAll before).length ∨
      shownBefore cuts + 1 = (encodeAll before).length)

/-- The keys of an object that ends a stream are distinct. -/
theorem terminal_keys_nodup {b : JsonObject} (h : IncusDemo.Terminal b) :
    (b.map Prod.fst).Nodup := by
  rcases h with ⟨code, -, rfl⟩ | ⟨info, rfl⟩
  · simp
  · exact info_keys_nodup info

/-- What the client makes of the response is its last object, if that comes alone. -/
theorem completed_receive {text : JsString} {cuts : List Nat} (hd : Delivers text cuts)
    {before : List JsonObject} {b : JsonObject} (hb : IncusDemo.Terminal b)
    (htext : text = encodeAll (before ++ [b])) (v : Value) :
    completed (receive text cuts) = some v ↔
      (shownBefore cuts = (encodeAll before).length ∨
        shownBefore cuts + 1 = (encodeAll before).length) ∧ v = asRead b := by
  unfold completed
  rw [lastResponse_receive hd, htext, parse_drop_iff (terminal_keys_nodup hb)]

theorem encoded_of_pieces {l : Log} {b : JsonObject} (h : Piece.object b ∈ pieces l) :
    ⟨.encode b, .ok ()⟩ ∈ l := by
  obtain ⟨e, he, hpiece⟩ := List.mem_filterMap.mp h
  unfold pieceOf at hpiece
  split at hpiece <;> cases hpiece
  exact List.mem_reverse.mp he

section Server

variable {s₀ s : Sys} {t : Nat} {r : Request} {l : Log}

/-- What a start request has written: objects, the last of which ends the stream, or a plain
    text. -/
theorem stream_of_returned (h0 : Initial s₀) (hrun : server.Run Machine.anyStep s₀ s)
    (hr : IncusDemo.Returned s t (.restStart r) l) (hpassed : ⟨.writeHeader 200, ()⟩ ∈ l)
    (hwritten : ¬ Unwritten l) :
    (r.Streamed → ∃ ps b, IncusDemo.Terminal b ∧ ⟨.encode b, .ok ()⟩ ∈ l ∧
      bodyText l = encodeAll (ps ++ [b])) ∧
    (¬ r.Streamed → ∃ text ∈ plainTexts, bodyText l = ofString text) := by
  have hstream : StreamOf r l := hr.traced
    (hrun.traced (p := .restStart r) (restStartHandler_leaves r) h0.allStart) hpassed
  refine ⟨fun hstreamed => ?_, fun hplain => ?_⟩
  · obtain ⟨ps, b, -, hb, hpieces⟩ := (hstream.1 hstreamed).resolve_left hwritten
    refine ⟨ps, b, hb, encoded_of_pieces ?_, ?_⟩
    · rw [hpieces]
      simp
    · unfold bodyText
      rw [hpieces, flatMap_object]
  · obtain ⟨text, htext, hpieces⟩ := hstream.2 hplain
    exact ⟨text, htext, by simp [bodyText, hpieces, Piece.text]⟩

/-- A page that offers the terms is clicked, and a start request of the server, which is written
    without a failure, answers it, in whatever pieces.  If the last object of the answer comes
    alone, the page shows what it says: the session whose id the record has, or the reason why
    there is none.  If not, the page goes on showing that a session is being started. -/
theorem page_shows_answer (h0 : Initial s₀) (hrun : server.Run Machine.anyStep s₀ s)
    (hr : IncusDemo.Returned s t (.restStart r) l) (hpassed : ⟨.writeHeader 200, ()⟩ ∈ l) (hwritten : ¬ Unwritten l)
    (hload : load E search = some p₀) (hpage : (machine E).Run P p₀ p)
    (hv : p.document.visible .accept = true) {cuts : List Nat} (hd : Delivers (bodyText l) cuts)
    (current : Int) (rows cols : Nat) :
    ∃ p', after E p (delivery (bodyText l) cuts current rows cols) = some p' ∧
      ((∃ b, IncusDemo.Terminal b ∧ ComesAlone (bodyText l) cuts b ∧ Shows p' b) ∨
        (¬ ∃ b, IncusDemo.Terminal b ∧ ComesAlone (bodyText l) cuts b) ∧
          Depicts p' .starting ∧ p'.leaving = p.leaving) := by
  obtain ⟨id, sc, -, -, hsc⟩ := depicts_run hload hpage
  rw [hsc.visible (by decide)] at hv
  obtain rfl := Screen.eq_offer_of_shows hv
  obtain ⟨q, hq, hpending, hover, hleaving, hafter⟩ :=
    after_delivery (E := E) (bodyText l) cuts current rows cols hsc
  refine ⟨_, hafter, ?_⟩
  cases hdata : completed (receive (bodyText l) cuts) with
  | none =>
    refine .inr ⟨?_, hq, hleaving⟩
    rintro ⟨b, hb, before, htext, hcut⟩
    have hsome := (completed_receive hd hb htext (asRead b)).mpr ⟨hcut, rfl⟩
    rw [hdata] at hsome
    cases hsome
  | some data =>
    obtain ⟨hobjects, hplain⟩ := stream_of_returned h0 hrun hr hpassed hwritten
    by_cases hstreamed : r.Streamed
    · obtain ⟨ps, b, hb, hmem, htext⟩ := hobjects hstreamed
      obtain ⟨hcut, rfl⟩ := (completed_receive hd hb htext data).mp hdata
      obtain ⟨l', -, hsend⟩ := ((h0.sound.run hrun).allowed hr.runs.ran).mem hmem
      exact .inl ⟨b, hb, ⟨ps, htext, hcut⟩,
        shows_terminal hq hpending hover current rows cols hsend hb⟩
    · -- a plain text cannot be parsed
      obtain ⟨text, htext, hbody⟩ := hplain hstreamed
      unfold completed at hdata
      rw [lastResponse_receive hd, hbody, parse_plain htext] at hdata
      cases hdata

/-- A page that offers the terms, and the answer to the request that it sends. -/
theorem page_shows_answer_new : ∃ (l : Log) (cuts : List Nat) (p p' : Page) (b : JsonObject),
    p.document.visible .accept = true ∧
    after plain p (delivery (bodyText l) cuts 0 24 80) = some p' ∧
    ComesAlone (bodyText l) cuts b ∧ Shows p' b := by
  obtain ⟨s, hrun, hs⟩ := server.run_of_check Machine.noTest (fun _ _ _ => trivial) (emptyServer 0)
    (oks 0 14 ++ act (.request (startRequest "192.0.2.1")) ++ oks 2 57)
    (streamed 2 (startRequest "192.0.2.1") fun _ => true) (by decide +kernel)
  obtain ⟨l, hr, hpassed, hwritten, -⟩ := of_streamed hs
  have hstreamed : (startRequest "192.0.2.1").Streamed := ⟨rfl, .inr (by decide)⟩
  obtain ⟨ps, b, hb, -, htext⟩ :=
    (stream_of_returned (emptyServer_initial 0) hrun hr hpassed hwritten).1 hstreamed
  obtain ⟨p₀, p, hload, hpage, hv⟩ := visit_run (visit.take 2)
    (fun p => p.document.visible .accept) (by decide +kernel)
  have hd : Delivers (bodyText l) [(encodeAll ps).length, (bodyText l).length] := by
    refine ⟨?_, rfl⟩
    simp [htext, encodeAll]
  have halone : ComesAlone (bodyText l) [(encodeAll ps).length, (bodyText l).length] b :=
    ⟨ps, htext, .inl rfl⟩
  obtain ⟨p', hafter, ⟨b', -, halone', hshows⟩ | ⟨hnot, -⟩⟩ :=
    page_shows_answer (emptyServer_initial 0) hrun hr hpassed hwritten hload hpage hv hd 0 24 80
  · exact ⟨l, _, p, p', b', hv, hafter, halone', hshows⟩
  · exact absurd ⟨b, hb, halone⟩ hnot

end Server

end Page
end IncusDemo
