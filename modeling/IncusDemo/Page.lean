/-
  IncusDemo.Page

  The page of the demo service: `tryit.js` over the elements of `index.html`.

  A handler of the page runs to its end before the next event, so the page is a
  reactive program.  An event is an answer to one of its requests, a click on a
  button that can be seen, a tick of a clock, or the opening or the closing of a
  websocket; what the answers say, the time and the size of the terminal are
  part of the event.  `E` has the conversions of the language that are left open.
-/

import IncusDemo.Conc.Reactive
import IncusDemo.Js.Coerce
import IncusDemo.Browser

namespace IncusDemo

open Js Conc

namespace Page

-- ============================================================================
-- The document
-- ============================================================================

/-- The elements that are shown and hidden, by their ids without `tryit_`. -/
inductive Element where
  | statusPanel | onlineMessage | maintenanceMessage | unreachableMessage
  | termsPanel
  | startPanel | accept | progress
  | infoPanel
  | consolePanel | consoleReconnect
  | feedbackPanel
  | errorPanel | errorPanelCreate | errorPanelAccess
  | errorFull | errorQuota | errorBanned | errorUnknown | errorMissing
  deriving DecidableEq

/-- The element that it is part of, among these. -/
def Element.parent : Element → Option Element
  | .onlineMessage | .maintenanceMessage | .unreachableMessage => some .statusPanel
  | .accept | .progress => some .startPanel
  | .consoleReconnect => some .consolePanel
  | .errorPanelCreate | .errorPanelAccess | .errorFull | .errorQuota | .errorBanned | .errorUnknown
  | .errorMissing => some .errorPanel
  | _ => none

/-- The elements whose text is set. -/
inductive Field where
  | protocol | address | count | max | maintenanceMessage | terms | startStatus
  deriving DecidableEq

/-- The class of the status panel. -/
inductive PanelClass where
  | success | warning | danger
  deriving DecidableEq

/-- What the handlers change of the document. -/
structure Document where
  /-- The element's own `display` is not `none`. -/
  display : Element → Bool
  /-- The text that was set last, if one was. -/
  text : Field → Option Value
  statusClass : PanelClass
  /-- The minutes and the seconds of `#tryit_clock`. -/
  clock : Option (JsString × JsString)

namespace Document

/-- `index.html`: of the elements above only the button is not hidden. -/
def init : Document := ⟨fun e => decide (e = .accept), fun _ => none, .success, none⟩

/-- `$(e).css("display", "inherit")`. -/
def reveal (d : Document) (e : Element) : Document :=
  { d with display := Function.update d.display e true }

/-- `$(e).css("display", "none")`. -/
def hide (d : Document) (e : Element) : Document :=
  { d with display := Function.update d.display e false }

/-- `$(f).text(v)` and `$(f).html(v)`; `undefined` sets nothing. -/
def setText (d : Document) (f : Field) (v : Option Value) : Document :=
  match v with
  | none => d
  | some v => { d with text := Function.update d.text f (some v) }

/-- The element can be seen: neither it nor one that it is part of is hidden. -/
def visible (d : Document) (e : Element) : Bool :=
  d.display e && e.parent.all d.display

end Document

-- ============================================================================
-- The page
-- ============================================================================

/-- The GET requests of the page that is loaded. -/
inductive Get where
  | status
  | terms
  | info (id : JsString)
  deriving DecidableEq

/-- A request for a session: the hash that it sends, the variables of the click handler, and
    whether the request is over. -/
structure Start where
  terms : Option Value
  client : Client
  ended : Bool

/-- An interval of `initializeClock`. -/
structure Clock where
  endtime : Option Value
  ticking : Bool

inductive SocketState where
  | connecting | opened | closed
  deriving DecidableEq

/-- A websocket of `setupConsole`; `watched` when its `onclose` is set. -/
structure Socket where
  id : Option Value
  width : Nat
  height : Nat
  state : SocketState
  watched : Bool

/-- A terminal, with the sockets that it is attached to. -/
structure Terminal where
  attached : List Nat
  disposed : Bool

/-- What the feedback form holds; `none` is a rating that was not given. -/
structure Form where
  rating : Option Nat
  email : String
  emailUse : Bool
  text : String

end Page

/-- The variables of the script, the document, and what the page has asked for. -/
structure Page where
  document : Page.Document
  /-- `tryit_terms_hash`. -/
  termsHash : Option Value
  /-- `tryit_console`. -/
  console : Option Value
  /-- The id in the location that `pushState` has set. -/
  location : Option (Option Value)
  /-- `window.location.href` was set. -/
  leaving : Bool
  pending : List Page.Get
  starts : List Page.Start
  /-- The feedback that was sent, with the id of the session. -/
  feedback : List (Option Value × Feedback)
  clocks : List Page.Clock
  terminals : List Page.Terminal
  /-- `term`, the terminal at this position. -/
  term : Option Nat
  sockets : List Page.Socket
  /-- `sock`, the socket at this position. -/
  sock : Option Nat

namespace Page

variable (E : Engine) (p : Page)

/-- Changes the document. -/
def draw (f : Document → Document) : Page := { p with document := f p.document }

/-- `$.ajax` with a GET request. -/
def ask (g : Get) : Page := { p with pending := p.pending ++ [g] }

/-- `window.location.href = original_url`. -/
def leave : Page := { p with leaving := true }

-- ============================================================================
-- The clock
-- ============================================================================

/-- `getTimeRemaining`; `none` is NaN. -/
def getTimeRemaining (endtime : Option Value) (current : Int) : Option Number := do
  let remaining ← (← E.number endtime).sub (.finite current)
  some (if remaining.isNegative then .finite 0 else remaining)

/-- `('0' + n).slice(-2)`. -/
def twoDigits (n : Option Number) : JsString :=
  let text := '0'.toNat :: E.numberText n
  text.drop (text.length - 2)

/-- What `updateClock` writes. -/
def clockText (t : Option Number) : JsString × JsString :=
  let minutes := t.map fun t => (t.div 60).floor
  let seconds := do (← t).sub ((← minutes).mul 60)
  (twoDigits E minutes, twoDigits E seconds)

/-- `updateClock`: whether the time is over, and the page. -/
def updateClock (endtime : Option Value) (current : Int) : Bool × Page :=
  let t := getTimeRemaining E endtime current
  let p := p.draw fun d => { d with clock := some (clockText E t) }
  if t.any Number.isNonpositive then (true, p.leave) else (false, p)

/-- `initializeClock`.  The interval is set after the first update, which thus clears none. -/
def initializeClock (endtime : Option Value) (current : Int) : Page :=
  let p := (p.updateClock E endtime current).2
  { p with clocks := p.clocks ++ [⟨endtime, true⟩] }

/-- A tick of the interval `i`. -/
def tick (i : Nat) (current : Int) : Option Page := do
  let clock ← p.clocks[i]?
  if clock.ticking then
    let (ended, p) := p.updateClock E clock.endtime current
    some (if ended then { p with clocks := p.clocks.set i { clock with ticking := false } } else p)
  else none

-- ============================================================================
-- The console
-- ============================================================================

/-- `setupConsole(tryit_console)`, where the terminal that fits has this size. -/
def setupConsole (rows cols : Nat) : Page :=
  { p with
    terminals := p.terminals ++ [⟨[], false⟩]
    term := some p.terminals.length
    sockets := p.sockets ++ [⟨p.console, cols, rows, .connecting, false⟩]
    sock := some p.sockets.length }

/-- Changes the socket at a position. -/
def setSocket (i : Nat) (f : Socket → Socket) : Page := { p with sockets := p.sockets.modify i f }

/-- Changes the terminal at a position. -/
def setTerminal (i : Nat) (f : Terminal → Terminal) : Page :=
  { p with terminals := p.terminals.modify i f }

/-- `sock.onopen` of socket `i`.  What it attaches and watches is `sock`, and not socket `i`. -/
def opened (i : Nat) : Option Page := do
  let socket ← p.sockets[i]?
  let term ← p.term
  let sock ← p.sock
  if socket.state = .connecting then
    some ((((p.setSocket i fun s => { s with state := .opened }).setTerminal term
      fun t => { t with attached := t.attached ++ [sock] }).draw (·.hide .consoleReconnect)).setSocket
        sock fun s => { s with watched := true })
  else none

/-- Socket `i` closes, or cannot be opened.  `onclose` disposes of `term`. -/
def closed (i : Nat) : Option Page := do
  let socket ← p.sockets[i]?
  let term ← p.term
  if socket.state = .closed then none
  else
    let p := p.setSocket i fun s => { s with state := .closed }
    some (if socket.watched then
      (p.setTerminal term fun _ => ⟨[], true⟩).draw (·.reveal .consoleReconnect)
    else p)

/-- The click handler of `#tryit_console_reconnect`. -/
def reconnect (rows cols : Nat) : Page := p.setupConsole rows cols

-- ============================================================================
-- The session
-- ============================================================================

/-- What the completion of a start request and the success of an info request do with a record. -/
def showSession (data : Value) (current : Int) (rows cols : Nat) : Page :=
  let p := p.initializeClock E (data.get "expiry") current
  let p := p.draw fun d => ((((d.hide .statusPanel).hide .startPanel).reveal .infoPanel).reveal
    .feedbackPanel).reveal .consolePanel
  let p := { p with console := data.get "id", location := some (data.get "id") }
  p.setupConsole rows cols

/-- `data.status && data.status != 0`. -/
def isError (data : Value) : Bool :=
  truthy (data.get "status") && !E.looseEq (data.get "status") 0

/-- The panel of a link that leads to no session. -/
def missing : Page :=
  p.draw fun d => (((d.hide .startPanel).reveal .errorMissing).reveal .errorPanelAccess).reveal
    .errorPanel

/-- The body of an error panel for a status. -/
def refusal (status : Option Value) : Option Element :=
  if E.looseEq status 2 then some .errorFull
  else if E.looseEq status 3 then some .errorQuota
  else if E.looseEq status 4 then some .errorBanned
  else if E.looseEq status 5 then some .errorUnknown
  else none

/-- The panel of a session that was not created. -/
def refuse (status : Option Value) : Page :=
  p.draw fun d =>
    let d := d.hide .startPanel
    let d := match refusal E status with
      | some e => d.reveal e
      | none => d
    (d.reveal .errorPanelCreate).reveal .errorPanel

-- ============================================================================
-- Handlers
-- ============================================================================

/-- `success` of the status request, which has no effect when the answer is `null`. -/
def onStatus (data : Value) : Page :=
  match data with
  | .null => p
  | data =>
    if E.looseEq (data.get "server_status") 1 then
      let p := p.draw (·.reveal .maintenanceMessage)
      let p := if E.isEmptyText (data.get "server_message") then p
        else p.draw (·.setText .maintenanceMessage (data.get "server_message"))
      p.draw fun d => { d.reveal .statusPanel with statusClass := .warning }
    else
      let p := p.draw fun d => (((d.setText .protocol (data.get "client_protocol")).setText
        .address (data.get "client_address")).setText .count (data.get "instance_count")).setText
          .max (data.get "instance_max")
      (p.draw fun d => (d.reveal .onlineMessage).reveal .statusPanel).ask .terms

/-- `error` of the status request. -/
def onUnreachable : Page :=
  p.draw fun d => { (d.reveal .unreachableMessage).reveal .statusPanel with statusClass := .danger }

/-- `then` of the terms request. -/
def onTerms (data : Value) : Page :=
  match data with
  | .null => p
  | data =>
    let p := p.draw (·.setText .terms (data.get "terms"))
    let p := { p with termsHash := data.get "hash" }
    p.draw fun d => (d.reveal .termsPanel).reveal .startPanel

/-- `success` of the info request. -/
def onInfo (data : Value) (current : Int) (rows cols : Nat) : Page :=
  match data with
  | .null => p
  | data => if isError E data then p.missing else p.showSession E data current rows cols

/-- The click handler of `#tryit_accept`. -/
def accept : Page :=
  let p := p.draw fun d => ((d.hide .termsPanel).hide .accept).reveal .progress
  { p with starts := p.starts ++ [⟨p.termsHash, .init, false⟩] }

/-- The start request `i`, while it is not over. -/
def start (i : Nat) : Option Start := p.starts[i]?.filter fun s => !s.ended

/-- `onprogress` of start request `i`. -/
def progress (i : Nat) (response : JsString) : Option Page :=
  (p.start i).map fun s =>
    let client := onprogress s.client response
    let p := { p with starts := p.starts.set i { s with client := client } }
    match parse client.lastResponse with
    | none | some .null => p
    | some data =>
      if E.isEmptyText (data.get "message") then p
      else p.draw (·.setText .startStatus (data.get "message"))

/-- What `then` of a start request does with the record that it parses. -/
def onRecord (data : Value) (current : Int) (rows cols : Nat) : Page :=
  match data with
  | .null => p
  | data =>
    if isError E data then
      if E.looseEq (data.get "status") 1 then p.leave else p.refuse E (data.get "status")
    else p.showSession E data current rows cols

/-- Start request `i` is over. -/
def settle (i : Nat) (s : Start) : Page := { p with starts := p.starts.set i { s with ended := true } }

/-- `then` of start request `i`. -/
def complete (i : Nat) (current : Int) (rows cols : Nat) : Option Page :=
  (p.start i).map fun s =>
    match completed s.client with
    | none => p.settle i s
    | some data => (p.settle i s).onRecord E data current rows cols

/-- The handler of `#tryit_feedback_submit`. -/
def submit (f : Form) : Page :=
  let data : Feedback := ⟨f.rating.getD 0, f.email, if f.emailUse then 1 else 0, f.text⟩
  let p := { p with feedback := p.feedback ++ [(p.console, data)] }
  p.draw (·.hide .feedbackPanel)

-- ============================================================================
-- Events
-- ============================================================================

inductive Event where
  /-- The answer to a GET request, or its failure. -/
  | answer (g : Get) (data : Option Value) (current : Int) (rows cols : Nat)
  | accept
  | progress (i : Nat) (response : JsString)
  | complete (i : Nat) (current : Int) (rows cols : Nat)
  /-- Start request `i` fails; it has no handler for that. -/
  | fail (i : Nat)
  | tick (i : Nat) (current : Int)
  | opened (i : Nat)
  | closed (i : Nat)
  | reconnect (rows cols : Nat)
  | submit (f : Form)
  | goback

/-- The buttons of class `tryit_goback` are in these elements. -/
def gobacks : List Element := [.errorFull, .errorQuota, .errorUnknown, .errorMissing]

/-- The handlers of the answer to a GET request. -/
def answered (g : Get) (data : Option Value) (current : Int) (rows cols : Nat) : Page :=
  match g, data with
  | .status, some data => p.onStatus E data
  | .status, none => p.onUnreachable
  | .terms, some data => p.onTerms data
  | .terms, none => p
  | .info _, some data => p.onInfo E data current rows cols
  | .info _, none => p.missing

/-- The page after an event; a button is clicked only while it can be seen. -/
def step : Event → Option Page
  | .answer g data current rows cols =>
    if g ∈ p.pending then
      some ({ p with pending := p.pending.erase g }.answered E g data current rows cols)
    else none
  | .accept => if p.document.visible .accept then some p.accept else none
  | .progress i response => p.progress E i response
  | .complete i current rows cols => p.complete E i current rows cols
  | .fail i => (p.start i).map (p.settle i)
  | .tick i current => p.tick E i current
  | .opened i => p.opened i
  | .closed i => p.closed i
  | .reconnect rows cols =>
    if p.document.visible .consoleReconnect then some (p.reconnect rows cols) else none
  | .submit f => if p.document.visible .feedbackPanel then some (p.submit f) else none
  | .goback => if gobacks.any p.document.visible then some p.leave else none

/-- The page as a program that reacts. -/
def machine : Reactive Page Event := ⟨step E⟩

-- ============================================================================
-- Loading
-- ============================================================================

/-- The loop of `getUrlParameter` over the variables of the query. -/
def urlVariable (sParam : JsString) : List JsString → JsString
  | [] => []
  | sURLVariable :: others =>
    match sURLVariable.splitOn '='.toNat with
    | name :: rest =>
      if name = sParam then
        match rest with
        | [] => []
        | value :: _ => if value.getLast? = some '/'.toNat then value.dropLast else value
      else urlVariable sParam others
    | [] => urlVariable sParam others

/-- `getUrlParameter`, where `search` is `window.location.search`. -/
def getUrlParameter (search : JsString) (sParam : String) : Option JsString :=
  (E.decodeURIComponent (search.drop 1)).map fun sPageURL =>
    urlVariable (ofString sParam) (sPageURL.splitOn '&'.toNat)

/-- The page before it asks for anything. -/
def blank (id : JsString) : Page :=
  ⟨.init, some (.str []), some (.str id), none, false, [], [], [], [], [], none, [], none⟩

/-- The page when the script has run; `none` when the query cannot be decoded. -/
def load (search : JsString) : Option Page :=
  (getUrlParameter E search "id").map fun id =>
    (blank id).ask (if id = [] then .status else .info id)

end Page
end IncusDemo
