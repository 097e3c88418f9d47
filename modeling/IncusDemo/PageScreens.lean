/-
  IncusDemo.PageScreens

  What the page is for: a small machine of the screens that a user is led
  through, from the offer of the terms to a session or to the reason why there
  is none.

  `Depicts p sc` says that page `p` shows screen `sc` and nothing else, and what
  it has asked for and sent by then.  Every event is a move of the screens or
  leaves the screen as it is (`simulates`), so every run of the page is a path
  of them.  A path never comes back, which bounds what one page can send.
-/

import IncusDemo.Page

namespace IncusDemo
namespace Page

open Js Conc Relation

-- ============================================================================
-- Screens
-- ============================================================================

/-- Why there is no session. -/
inductive Reason where
  | full | quota | banned | unknown
  deriving DecidableEq

/-- The body of the error panel that gives the reason. -/
def Reason.element : Reason → Element
  | .full => .errorFull
  | .quota => .errorQuota
  | .banned => .errorBanned
  | .unknown => .errorUnknown

/-- What a user is shown; `linked` when the page was opened with the id of a session. -/
inductive Screen where
  | loading (linked : Bool)
  | maintenance
  | unreachable
  | online
  | offer
  | starting
  | session (linked rated : Bool)
  | refused (reason : Option Reason)
  | missing
  deriving DecidableEq

namespace Screen

/-- The moves from screen to screen. -/
inductive Move : Screen → Screen → Prop
  | maintenance : Move (.loading false) .maintenance
  | unreachable : Move (.loading false) .unreachable
  | online : Move (.loading false) .online
  | offer : Move .online .offer
  | accept : Move .offer .starting
  | session : Move .starting (.session false false)
  | refuse (reason : Option Reason) : Move .starting (.refused reason)
  | open_ : Move (.loading true) (.session true false)
  | missing : Move (.loading true) .missing
  | rate (linked : Bool) : Move (.session linked false) (.session linked true)

/-- The elements that are not hidden themselves, `consoleReconnect` apart. -/
def display : Screen → Element → Bool
  | .loading _, e => e ∈ [.accept]
  | .maintenance, e => e ∈ [.accept, .statusPanel, .maintenanceMessage]
  | .unreachable, e => e ∈ [.accept, .statusPanel, .unreachableMessage]
  | .online, e => e ∈ [.accept, .statusPanel, .onlineMessage]
  | .offer, e => e ∈ [.accept, .statusPanel, .onlineMessage, .termsPanel, .startPanel]
  | .starting, e => e ∈ [.statusPanel, .onlineMessage, .startPanel, .progress]
  | .session linked rated, e =>
    e ∈ [.infoPanel, .consolePanel] ++ (if rated then [] else [.feedbackPanel]) ++
      if linked then [.accept] else [.onlineMessage, .progress]
  | .refused reason, e =>
    e ∈ [.statusPanel, .onlineMessage, .progress, .errorPanel, .errorPanelCreate] ++
      reason.toList.map Reason.element
  | .missing, e => e ∈ [.accept, .errorPanel, .errorPanelAccess, .errorMissing]

/-- The elements that can be seen, `consoleReconnect` apart. -/
def shows : Screen → Element → Bool
  | .loading _, _ => false
  | .maintenance, e => e ∈ [.statusPanel, .maintenanceMessage]
  | .unreachable, e => e ∈ [.statusPanel, .unreachableMessage]
  | .online, e => e ∈ [.statusPanel, .onlineMessage]
  | .offer, e => e ∈ [.statusPanel, .onlineMessage, .termsPanel, .startPanel, .accept]
  | .starting, e => e ∈ [.statusPanel, .onlineMessage, .startPanel, .progress]
  | .session _ rated, e =>
    e ∈ [.infoPanel, .consolePanel] ++ if rated then [] else [.feedbackPanel]
  | .refused reason, e =>
    e ∈ [.statusPanel, .onlineMessage, .errorPanel, .errorPanelCreate] ++
      reason.toList.map Reason.element
  | .missing, e => e ∈ [.errorPanel, .errorPanelAccess, .errorMissing]

def statusClass : Screen → PanelClass
  | .maintenance => .warning
  | .unreachable => .danger
  | _ => .success

/-- The requests whose answer leads on. -/
def awaits : Screen → Get → Bool
  | .loading false, .status => true
  | .loading true, .info _ => true
  | .online, .terms => true
  | _, _ => false

/-- The terms have been offered, and their hash is known. -/
def offered : Screen → Bool
  | .offer | .starting | .session false _ | .refused _ => true
  | _ => false

/-- The number of start requests that have been sent. -/
def requests : Screen → Nat
  | .starting | .session false _ | .refused _ => 1
  | _ => 0

def inSession : Screen → Bool
  | .session _ _ => true
  | _ => false

/-- The number of times that feedback has been sent. -/
def rated : Screen → Nat
  | .session _ true => 1
  | _ => 0

/-- What is displayed decides what can be seen. -/
theorem visible_display (sc : Screen) (e : Element) :
    (sc.display e && e.parent.all sc.display) = sc.shows e := by
  rcases sc with linked | _ | _ | _ | _ | _ | ⟨linked, rated⟩ | _ | _
  case loading => cases linked <;> cases e <;> rfl
  case session =>
    cases linked <;> cases rated <;> cases e <;> rfl
  case refused reason =>
    rcases reason with _ | reason
    · cases e <;> rfl
    · cases reason <;> cases e <;> rfl
  all_goals cases e <;> rfl

theorem inSession_of_display {sc : Screen} (h : sc.display .consolePanel = true) :
    sc.inSession = true := by
  rcases sc with linked | _ | _ | _ | _ | _ | ⟨linked, rated⟩ | reason | _
  case session => rfl
  case refused =>
    rcases reason with _ | reason
    · cases h
    · cases reason <;> cases h
  all_goals cases h

theorem eq_of_awaits {sc : Screen} {g : Get} (h : sc.awaits g = true) :
    (g = .status ∧ sc = .loading false) ∨ (g = .terms ∧ sc = .online) ∨
      ∃ id, g = .info id ∧ sc = .loading true := by
  unfold awaits at h
  split at h
  · exact .inl ⟨rfl, rfl⟩
  · exact .inr (.inr ⟨_, rfl, rfl⟩)
  · exact .inr (.inl ⟨rfl, rfl⟩)
  · cases h

theorem eq_offer_of_shows {sc : Screen} (h : sc.shows .accept = true) : sc = .offer := by
  rcases sc with linked | _ | _ | _ | _ | _ | ⟨linked, rated⟩ | reason | _
  case offer => rfl
  case session => cases rated <;> cases h
  case refused =>
    rcases reason with _ | reason
    · cases h
    · cases reason <;> cases h
  all_goals cases h

theorem unrated_of_shows {sc : Screen} (h : sc.shows .feedbackPanel = true) :
    ∃ linked, sc = .session linked false := by
  rcases sc with linked | _ | _ | _ | _ | _ | ⟨linked, rated⟩ | reason | _
  case session =>
    cases rated
    · exact ⟨linked, rfl⟩
    · cases h
  case refused =>
    rcases reason with _ | reason
    · cases h
    · cases reason <;> cases h
  all_goals cases h

end Screen

-- ============================================================================
-- The page shows a screen
-- ============================================================================

/-- The elements that are not hidden themselves are those of `f`, `consoleReconnect` apart. -/
def Agrees (d : Document) (f : Element → Bool) : Prop :=
  ∀ e, e ≠ .consoleReconnect → d.display e = f e

namespace Agrees

variable {d : Document} {f g : Element → Bool}

theorem reveal (h : Agrees d f) (a : Element) : Agrees (d.reveal a) (Function.update f a true) := by
  intro e he
  by_cases hea : e = a
  · subst hea
    simp [Document.reveal]
  · simp [Document.reveal, hea, h e he]

theorem hide (h : Agrees d f) (a : Element) : Agrees (d.hide a) (Function.update f a false) := by
  intro e he
  by_cases hea : e = a
  · subst hea
    simp [Document.hide]
  · simp [Document.hide, hea, h e he]

theorem setText (h : Agrees d f) (a : Field) (v : Option Value) : Agrees (d.setText a v) f := by
  cases v <;> exact h

theorem congr (h : Agrees d f) (hfg : ∀ e, f e = g e) : Agrees d g := fun e he =>
  (h e he).trans (hfg e)

theorem reveal_reconnect (h : Agrees d f) : Agrees (d.reveal .consoleReconnect) f := by
  intro e he
  rw [← h e he]
  exact Function.update_of_ne he ..

theorem hide_reconnect (h : Agrees d f) : Agrees (d.hide .consoleReconnect) f := by
  intro e he
  rw [← h e he]
  exact Function.update_of_ne he ..

end Agrees

/-- What the page has asked for: of the GET requests only one is open, and its answer leads on;
    a start request sends the hash that came with the terms that are shown. -/
structure Asking (pending : List Get) (starts : List Start) (hash terms : Option Value)
    (sc : Screen) : Prop where
  alone : pending.length ≤ 1
  awaited : ∀ g ∈ pending, sc.awaits g = true
  requests : starts.length = sc.requests
  ended : sc ≠ .starting → ∀ s ∈ starts, s.ended = true
  sent : ∀ s ∈ starts, s.terms = hash
  offer : sc.offered = true → ∃ data : Value, terms = data.get "terms" ∧ hash = data.get "hash"
  unoffered : sc.offered = false → terms = none

/-- What the page has to do with a session: it is the one whose id the page holds. -/
structure Holding (feedback : List (Option Value × Feedback)) (console : Option Value)
    (clocks : List Clock) (sockets : List Socket) (location : Option (Option Value))
    (sc : Screen) : Prop where
  rated : feedback.length = sc.rated
  about : ∀ f ∈ feedback, f.1 = console
  ids : ∀ s ∈ sockets, s.id = console
  outside : sc.inSession = false → clocks = [] ∧ sockets = [] ∧ location = none
  inside : sc.inSession = true → clocks.length = 1 ∧ location = some console

/-- Page `p` shows screen `sc`. -/
structure Depicts (p : Page) (sc : Screen) : Prop where
  drawn : Agrees p.document sc.display
  statusClass : p.document.statusClass = sc.statusClass
  asking : Asking p.pending p.starts p.termsHash (p.document.text .terms) sc
  holding : Holding p.feedback p.console p.clocks p.sockets p.location sc

variable {E : Engine} {p p' : Page} {sc : Screen}

theorem Depicts.visible (h : Depicts p sc) {e : Element} (he : e ≠ .consoleReconnect) :
    p.document.visible e = sc.shows e := by
  have hparent : ∀ q, e.parent = some q → q ≠ .consoleReconnect := by
    cases e <;> simp [Element.parent]
  rw [← sc.visible_display e, Document.visible, h.drawn e he]
  congr 1
  cases hq : e.parent with
  | none => rfl
  | some q => exact h.drawn q (hparent q hq)

theorem Depicts.reconnect (h : Depicts p sc)
    (hv : p.document.visible .consoleReconnect = true) : sc.inSession = true := by
  have hpanel : p.document.display .consolePanel = true := (Bool.and_eq_true_iff.mp hv).2
  rw [h.drawn _ (by decide)] at hpanel
  exact Screen.inSession_of_display hpanel

-- ============================================================================
-- Events
-- ============================================================================

section Parts

variable {pending : List Get} {starts : List Start} {hash terms console : Option Value}
  {feedback : List (Option Value × Feedback)} {clocks : List Clock} {sockets : List Socket}
  {location : Option (Option Value)}

/-- An open request is the only one. -/
theorem Asking.erase (h : Asking pending starts hash terms sc) {g : Get} (hg : g ∈ pending) :
    pending.erase g = [] := by
  have hlen := List.length_erase_of_mem hg
  have hone := h.alone
  apply List.eq_nil_of_length_eq_zero
  omega

/-- A start request that is not over is the only one, and a session is being started. -/
theorem Asking.running (h : Asking pending starts hash terms sc) {i : Nat} {s : Start}
    (hs : starts[i]? = some s) (hover : s.ended = false) : sc = .starting ∧ i = 0 ∧ starts = [s] := by
  have hsc : sc = .starting := by
    by_contra hne
    have := h.ended hne s (List.mem_of_getElem? hs)
    rw [hover] at this
    cases this
  subst hsc
  have hlen : starts.length = 1 := h.requests
  have hi : i < starts.length := (List.getElem?_eq_some_iff.mp hs).1
  obtain rfl : i = 0 := by omega
  obtain ⟨t, ht⟩ := List.length_eq_one_iff.mp hlen
  subst ht
  cases hs
  exact ⟨rfl, rfl, rfl⟩

/-- No GET request is open any more. -/
theorem Asking.settled (h : Asking pending starts hash terms sc) :
    Asking [] starts hash terms sc :=
  { h with alone := Nat.zero_le _, awaited := fun _ hg => absurd hg List.not_mem_nil }

/-- A move that sends no start request. -/
theorem Asking.move (h : Asking pending starts hash terms sc) (sc' : Screen)
    (hpending : pending = []) (hne : sc ≠ .starting) (hreq : sc'.requests = sc.requests)
    (hoff : sc'.offered = sc.offered) {terms' : Option Value} (hterms : terms' = terms) :
    Asking pending starts hash terms' sc' where
  alone := h.alone
  awaited := fun _ hg => absurd (hpending ▸ hg) List.not_mem_nil
  requests := h.requests.trans hreq.symm
  ended := fun _ => h.ended hne
  sent := h.sent
  offer := hterms ▸ hoff ▸ h.offer
  unoffered := hterms ▸ hoff ▸ h.unoffered

theorem Holding.move {sc' : Screen} (h : Holding feedback console clocks sockets location sc)
    (hrated : sc'.rated = sc.rated) (hin : sc'.inSession = sc.inSession) :
    Holding feedback console clocks sockets location sc' where
  rated := h.rated.trans hrated.symm
  about := h.about
  ids := h.ids
  outside := hin ▸ h.outside
  inside := hin ▸ h.inside

end Parts

/-! ## What the handlers leave of the page -/

@[simp] theorem Document.setText_terms {d : Document} {f : Field} (v : Option Value)
    (hf : f ≠ .terms) : (d.setText f v).text .terms = d.text .terms := by
  cases v with
  | none => rfl
  | some v => exact Function.update_of_ne hf.symm ..

@[simp] theorem Document.setText_statusClass (d : Document) (f : Field) (v : Option Value) :
    (d.setText f v).statusClass = d.statusClass := by
  cases v <;> rfl

/-- `updateClock` writes the clock, and leaves the page when the time is over. -/
theorem updateClock_eq (endtime : Option Value) (current : Int) :
    p.updateClock E endtime current =
      ((getTimeRemaining E endtime current).any Number.isNonpositive,
        { p with
          document := { p.document with
            clock := some (clockText E (getTimeRemaining E endtime current)) }
          leaving := p.leaving || (getTimeRemaining E endtime current).any Number.isNonpositive }) := by
  unfold updateClock draw leave
  dsimp only
  split <;> simp_all

theorem showSession_eq (data : Value) (current : Int) (rows cols : Nat) :
    p.showSession E data current rows cols =
      { p with
        document := ((((({ p.document with
          clock := some (clockText E (getTimeRemaining E (data.get "expiry") current))
          }).hide .statusPanel).hide .startPanel).reveal .infoPanel).reveal
            .feedbackPanel).reveal .consolePanel
        console := data.get "id"
        location := some (data.get "id")
        leaving := p.leaving ||
          (getTimeRemaining E (data.get "expiry") current).any Number.isNonpositive
        clocks := p.clocks ++ [⟨data.get "expiry", true⟩]
        terminals := p.terminals ++ [⟨[], false⟩]
        term := some p.terminals.length
        sockets := p.sockets ++ [⟨data.get "id", cols, rows, .connecting, false⟩]
        sock := some p.sockets.length } := by
  unfold Page.showSession initializeClock
  rw [updateClock_eq]
  rfl

theorem Depicts.showSession {linked : Bool} (h : Depicts p sc) (hpending : p.pending = [])
    (hover : ∀ s ∈ p.starts, s.ended = true)
    (hfrom : sc = .loading true ∧ linked = true ∨ sc = .starting ∧ linked = false)
    (data : Value) (current : Int) (rows cols : Nat) :
    Depicts (p.showSession E data current rows cols) (.session linked false) := by
  rw [showSession_eq]
  have hclass : sc.statusClass = .success ∧ sc.requests = (Screen.session linked false).requests ∧
      sc.offered = (Screen.session linked false).offered ∧ sc.rated = 0 ∧
      sc.inSession = false := by
    rcases hfrom with ⟨rfl, rfl⟩ | ⟨rfl, rfl⟩ <;> exact ⟨rfl, rfl, rfl, rfl, rfl⟩
  obtain ⟨hstatus, hreq, hoff, hrated, hin⟩ := hclass
  obtain ⟨hclocks, hsockets, -⟩ := h.holding.outside hin
  have hfeedback : p.feedback = [] := List.eq_nil_of_length_eq_zero (h.holding.rated.trans hrated)
  constructor
  · refine (((((h.drawn.hide .statusPanel).hide .startPanel).reveal .infoPanel).reveal
      .feedbackPanel).reveal .consolePanel).congr fun e => ?_
    rcases hfrom with ⟨rfl, rfl⟩ | ⟨rfl, rfl⟩ <;> cases e <;> rfl
  · exact h.statusClass.trans hstatus
  · exact ⟨h.asking.alone, fun g hg => absurd (hpending ▸ hg) List.not_mem_nil,
      h.asking.requests.trans hreq, fun _ => hover, h.asking.sent, hoff ▸ h.asking.offer,
      hoff ▸ h.asking.unoffered⟩
  · refine ⟨h.holding.rated.trans hrated, fun f hf => ?_, fun s hs => ?_, fun h => ?_, fun _ => ?_⟩
    · rw [hfeedback] at hf
      cases hf
    · rcases List.mem_append.mp hs with hs | hs
      · rw [hsockets] at hs
        cases hs
      · rw [List.mem_singleton.mp hs]
    · cases h
    · rw [hclocks]
      exact ⟨rfl, rfl⟩

/-- A link that leads to no session. -/
theorem Depicts.missing (h : Depicts p (.loading true)) (hpending : p.pending = []) :
    Depicts p.missing .missing where
  drawn := ((((h.drawn.hide .startPanel).reveal .errorMissing).reveal .errorPanelAccess).reveal
    .errorPanel).congr fun e => by cases e <;> rfl
  statusClass := h.statusClass
  asking := h.asking.move .missing hpending (by decide) rfl rfl rfl
  holding := h.holding.move rfl rfl

theorem Depicts.leave (h : Depicts p sc) : Depicts p.leave sc :=
  ⟨h.drawn, h.statusClass, h.asking, h.holding⟩

/-! ## Answers -/

theorem Depicts.onStatus (h : Depicts p (.loading false)) (hpending : p.pending = []) (data : Value) :
    ∃ sc', ReflGen Screen.Move (.loading false) sc' ∧ Depicts (p.onStatus E data) sc' := by
  unfold Page.onStatus
  split
  · exact ⟨_, .refl, h⟩
  · split
    · refine ⟨_, .single .maintenance, ?_⟩
      dsimp only
      split
      · exact ⟨((h.drawn.reveal .maintenanceMessage).reveal .statusPanel).congr fun e => by
          cases e <;> rfl, rfl, h.asking.move .maintenance hpending (by decide) rfl rfl rfl,
          h.holding.move rfl rfl⟩
      · exact ⟨(((h.drawn.reveal .maintenanceMessage).setText _ _).reveal .statusPanel).congr
          fun e => by cases e <;> rfl, rfl, h.asking.move .maintenance hpending (by decide) rfl rfl
            (Document.setText_terms _ (by decide)), h.holding.move rfl rfl⟩
    · refine ⟨_, .single .online, ⟨?_, ?_, ?_, h.holding.move rfl rfl⟩⟩
      · exact ((((((h.drawn.setText _ _).setText _ _).setText _ _).setText _ _).reveal
          .onlineMessage).reveal .statusPanel).congr fun e => by cases e <;> rfl
      · simpa [draw, ask, Document.reveal, Screen.statusClass] using h.statusClass
      · have hmoved := h.asking.move .online hpending (by decide) rfl rfl rfl
        refine { hmoved with alone := ?_, awaited := ?_, unoffered := fun _ => ?_, offer := nofun }
        · simp [draw, ask, hpending]
        · intro g hg
          simp only [draw, ask, hpending, List.nil_append, List.mem_singleton] at hg
          rw [hg]
          rfl
        · simpa [draw, ask, Document.reveal] using h.asking.unoffered rfl

theorem Depicts.onUnreachable (h : Depicts p (.loading false)) (hpending : p.pending = []) :
    Depicts p.onUnreachable .unreachable where
  drawn := ((h.drawn.reveal .unreachableMessage).reveal .statusPanel).congr fun e => by
    cases e <;> rfl
  statusClass := rfl
  asking := h.asking.move .unreachable hpending (by decide) rfl rfl rfl
  holding := h.holding.move rfl rfl

theorem Depicts.onTerms (h : Depicts p .online) (hpending : p.pending = []) (data : Value) :
    ∃ sc', ReflGen Screen.Move .online sc' ∧ Depicts (p.onTerms data) sc' := by
  have hstarts : p.starts = [] := List.eq_nil_of_length_eq_zero h.asking.requests
  unfold Page.onTerms
  split
  · exact ⟨_, .refl, h⟩
  · refine ⟨_, .single .offer, ⟨?_, ?_, ?_, h.holding.move rfl rfl⟩⟩
    · exact (((h.drawn.setText _ _).reveal .termsPanel).reveal .startPanel).congr fun e => by
        cases e <;> rfl
    · simpa [draw, Document.reveal, Screen.statusClass] using h.statusClass
    · refine ⟨h.asking.alone, fun g hg => absurd (hpending ▸ hg) List.not_mem_nil,
        h.asking.requests, fun _ => h.asking.ended (by decide), fun s hs => ?_,
        fun _ => ⟨data, ?_, rfl⟩, nofun⟩
      · exact absurd (hstarts ▸ hs) List.not_mem_nil
      · change (p.document.setText .terms (data.get "terms")).text .terms = data.get "terms"
        cases data.get "terms" with
        | none => exact h.asking.unoffered rfl
        | some v => simp [Document.setText]

theorem Depicts.onInfo (h : Depicts p (.loading true)) (hpending : p.pending = []) (data : Value)
    (current : Int) (rows cols : Nat) : ∃ sc', ReflGen Screen.Move (.loading true) sc' ∧
      Depicts (p.onInfo E data current rows cols) sc' := by
  unfold Page.onInfo
  split
  · exact ⟨_, .refl, h⟩
  · split
    · exact ⟨_, .single .missing, h.missing hpending⟩
    · exact ⟨_, .single .open_, h.showSession hpending (h.asking.ended (by decide))
        (.inl ⟨rfl, rfl⟩) ..⟩

/-- An answer leads on from the screen that waits for it. -/
theorem Depicts.answered (h : Depicts p sc) (hpending : p.pending = []) {g : Get}
    (hg : sc.awaits g = true) (data : Option Value) (current : Int) (rows cols : Nat) :
    ∃ sc', ReflGen Screen.Move sc sc' ∧ Depicts (p.answered E g data current rows cols) sc' := by
  rcases Screen.eq_of_awaits hg with ⟨rfl, rfl⟩ | ⟨rfl, rfl⟩ | ⟨id, rfl, rfl⟩
  · cases data with
    | none => exact ⟨_, .single .unreachable, h.onUnreachable hpending⟩
    | some data => exact h.onStatus hpending data
  · cases data with
    | none => exact ⟨_, .refl, h⟩
    | some data => exact h.onTerms hpending data
  · cases data with
    | none => exact ⟨_, .single .missing, h.missing hpending⟩
    | some data => exact h.onInfo hpending data current rows cols

/-! ## Start requests -/

theorem Depicts.accept (h : Depicts p .offer) : Depicts p.accept .starting := by
  have hstarts : p.starts = [] := List.eq_nil_of_length_eq_zero h.asking.requests
  have hnew : p.accept.starts = [⟨p.termsHash, .init, false⟩] := by
    show p.starts ++ _ = _
    rw [hstarts]
    rfl
  constructor
  · exact (((h.drawn.hide .termsPanel).hide .accept).reveal .progress).congr fun e => by
      cases e <;> rfl
  · exact h.statusClass
  · refine ⟨h.asking.alone, h.asking.awaited, by rw [hnew]; rfl, fun hne => absurd rfl hne,
      fun s hs => ?_, fun _ => h.asking.offer rfl, nofun⟩
    rw [hnew] at hs
    rw [List.mem_singleton.mp hs]
    rfl
  · exact h.holding.move rfl rfl

/-- The start request goes on, or is over. -/
theorem Depicts.setStart (h : Depicts p .starting) {s : Start} (hs : p.starts = [s]) (s' : Start)
    (hterms : s'.terms = s.terms) : Depicts { p with starts := p.starts.set 0 s' } .starting where
  drawn := h.drawn
  statusClass := h.statusClass
  asking := { h.asking with
    requests := by rw [hs]; rfl
    ended := fun hne => absurd rfl hne
    sent := by
      intro t ht
      rw [hs] at ht
      rw [List.mem_singleton.mp ht, hterms]
      exact h.asking.sent s (hs ▸ List.mem_singleton_self s) }
  holding := h.holding

/-- A start request that is not over. -/
theorem of_start {i : Nat} {s : Start} (h : p.start i = some s) :
    p.starts[i]? = some s ∧ s.ended = false := by
  obtain ⟨hs, hover⟩ := Option.filter_eq_some_iff.mp h
  exact ⟨hs, by simpa using hover⟩

theorem Depicts.progress (h : Depicts p sc) {i : Nat} {response : JsString}
    (hp : p.progress E i response = some p') : Depicts p' sc := by
  obtain ⟨s, hs, rfl⟩ := Option.map_eq_some_iff.mp hp
  obtain ⟨hget, hover⟩ := of_start hs
  obtain ⟨rfl, rfl, hstarts⟩ := h.asking.running hget hover
  have hset := h.setStart hstarts ⟨s.terms, onprogress s.client response, s.ended⟩ rfl
  dsimp only
  split
  · exact hset
  · exact hset
  · split
    · exact hset
    · exact ⟨hset.drawn.setText _ _, by simpa [draw] using hset.statusClass,
        by simpa [draw] using hset.asking, hset.holding⟩

/-- An error panel gives one reason, or none for a status that it has no text for. -/
theorem refusal_eq (status : Option Value) :
    ∃ reason : Option Reason, refusal E status = reason.map Reason.element := by
  unfold refusal
  split
  · exact ⟨some .full, rfl⟩
  · split
    · exact ⟨some .quota, rfl⟩
    · split
      · exact ⟨some .banned, rfl⟩
      · split
        · exact ⟨some .unknown, rfl⟩
        · exact ⟨none, rfl⟩

theorem Depicts.refuse (h : Depicts p .starting) (hover : ∀ s ∈ p.starts, s.ended = true)
    (status : Option Value) : ∃ reason, refusal E status = reason.map Reason.element ∧
      Depicts (p.refuse E status) (.refused reason) := by
  obtain ⟨reason, hreason⟩ := refusal_eq (E := E) status
  refine ⟨reason, hreason, ⟨?_, ?_, ?_, h.holding.move rfl rfl⟩⟩
  · unfold Page.refuse
    rw [hreason]
    cases reason with
    | none =>
      exact (((h.drawn.hide .startPanel).reveal .errorPanelCreate).reveal .errorPanel).congr
        fun e => by cases e <;> rfl
    | some reason =>
      refine ((((h.drawn.hide .startPanel).reveal reason.element).reveal
        .errorPanelCreate).reveal .errorPanel).congr fun e => ?_
      cases reason <;> cases e <;> rfl
  · unfold Page.refuse
    rw [hreason]
    cases reason <;> exact h.statusClass
  · have hasking : Asking p.pending p.starts p.termsHash (p.document.text .terms)
        (.refused reason) :=
      ⟨h.asking.alone, h.asking.awaited, h.asking.requests, fun _ => hover, h.asking.sent,
        h.asking.offer, h.asking.unoffered⟩
    unfold Page.refuse
    rw [hreason]
    cases reason <;> exact hasking

theorem Depicts.onRecord (h : Depicts p .starting) (hpending : p.pending = [])
    (hover : ∀ s ∈ p.starts, s.ended = true) (data : Value) (current : Int) (rows cols : Nat) :
    ∃ sc', ReflGen Screen.Move .starting sc' ∧
      Depicts (p.onRecord E data current rows cols) sc' := by
  unfold Page.onRecord
  split
  · exact ⟨_, .refl, h⟩
  · split
    · split
      · exact ⟨_, .refl, h.leave⟩
      · obtain ⟨reason, -, hrefuse⟩ := h.refuse (E := E) hover (Value.get _ "status")
        exact ⟨_, .single (.refuse reason), hrefuse⟩
    · exact ⟨_, .single .session, h.showSession hpending hover (.inr ⟨rfl, rfl⟩) ..⟩

/-- While a session is being started no GET request is open. -/
theorem Depicts.nothing_pending (h : Depicts p .starting) : p.pending = [] :=
  List.eq_nil_iff_forall_not_mem.mpr fun g hg => absurd (h.asking.awaited g hg) (by simp [Screen.awaits])

theorem Depicts.complete (h : Depicts p sc) {i : Nat} {current : Int} {rows cols : Nat}
    (hp : p.complete E i current rows cols = some p') :
    ∃ sc', ReflGen Screen.Move sc sc' ∧ Depicts p' sc' := by
  obtain ⟨s, hs, rfl⟩ := Option.map_eq_some_iff.mp hp
  obtain ⟨hget, hover⟩ := of_start hs
  obtain ⟨rfl, rfl, hstarts⟩ := h.asking.running hget hover
  have hset : Depicts (p.settle 0 s) .starting := h.setStart hstarts ⟨s.terms, s.client, true⟩ rfl
  split
  · exact ⟨_, .refl, hset⟩
  · refine hset.onRecord hset.nothing_pending (fun t ht => ?_) ..
    unfold settle at ht
    rw [hstarts] at ht
    rw [List.mem_singleton.mp ht]

theorem Depicts.fail (h : Depicts p sc) {i : Nat} (hp : (p.start i).map (p.settle i) = some p') :
    Depicts p' sc := by
  obtain ⟨s, hs, rfl⟩ := Option.map_eq_some_iff.mp hp
  obtain ⟨hget, hover⟩ := of_start hs
  obtain ⟨rfl, rfl, hstarts⟩ := h.asking.running hget hover
  exact h.setStart hstarts ⟨s.terms, s.client, true⟩ rfl

/-! ## The session -/

/-- Another number of intervals is needed for another screen. -/
theorem Holding.setClocks {feedback : List (Option Value × Feedback)} {console : Option Value}
    {clocks clocks' : List Clock} {sockets : List Socket} {location : Option (Option Value)}
    (h : Holding feedback console clocks sockets location sc) (hlen : clocks'.length = clocks.length) :
    Holding feedback console clocks' sockets location sc :=
  { h with
    outside := fun hin => by
      obtain ⟨hclocks, hsockets, hlocation⟩ := h.outside hin
      rw [hclocks] at hlen
      exact ⟨List.eq_nil_of_length_eq_zero hlen, hsockets, hlocation⟩
    inside := fun hin => ⟨hlen.trans (h.inside hin).1, (h.inside hin).2⟩ }

/-- Sockets are only changed or added for the session that the page holds. -/
theorem Holding.setSockets {feedback : List (Option Value × Feedback)} {console : Option Value}
    {clocks : List Clock} {sockets sockets' : List Socket} {location : Option (Option Value)}
    (h : Holding feedback console clocks sockets location sc) (hin : sc.inSession = true)
    (hids : ∀ s ∈ sockets', s.id = console) :
    Holding feedback console clocks sockets' location sc :=
  { h with
    ids := hids
    outside := fun hout => by rw [hin] at hout; cases hout }

theorem Depicts.tick (h : Depicts p sc) {i : Nat} {current : Int}
    (hp : p.tick E i current = some p') : Depicts p' sc := by
  unfold Page.tick at hp
  obtain ⟨clock, -, hp⟩ := Option.bind_eq_some_iff.mp hp
  split at hp
  · rw [updateClock_eq] at hp
    cases hp
    have hdrawn : Agrees { p.document with
        clock := some (clockText E (getTimeRemaining E clock.endtime current)) } sc.display := h.drawn
    split
    · exact ⟨hdrawn, h.statusClass, h.asking, h.holding.setClocks List.length_set⟩
    · exact ⟨hdrawn, h.statusClass, h.asking, h.holding⟩
  · cases hp

/-- A page with sockets is in a session. -/
theorem Depicts.inSession_of_socket (h : Depicts p sc) {i : Nat} {s : Socket}
    (hs : p.sockets[i]? = some s) : sc.inSession = true := by
  by_contra hout
  have hnil := (h.holding.outside (Bool.eq_false_iff.mpr hout)).2.1
  rw [hnil] at hs
  cases hs

theorem mem_modify {α : Type} {l : List α} {i : Nat} {f : α → α} {a : α} (h : a ∈ l.modify i f) :
    a ∈ l ∨ ∃ b ∈ l, a = f b := by
  obtain ⟨j, hj⟩ := List.mem_iff_getElem?.mp h
  rw [List.getElem?_modify] at hj
  obtain ⟨b, hb, rfl⟩ := Option.map_eq_some_iff.mp hj
  have hmem := List.mem_of_getElem? hb
  split
  · exact .inr ⟨b, hmem, rfl⟩
  · exact .inl hmem

theorem Depicts.setSocket (h : Depicts p sc) (hin : sc.inSession = true) (i : Nat)
    {f : Socket → Socket} (hf : ∀ s, (f s).id = s.id) : Depicts (p.setSocket i f) sc :=
  ⟨h.drawn, h.statusClass, h.asking, h.holding.setSockets hin fun s hs => by
    rcases mem_modify hs with hs | ⟨t, ht, rfl⟩
    · exact h.holding.ids s hs
    · rw [hf]
      exact h.holding.ids t ht⟩

theorem Depicts.opened (h : Depicts p sc) {i : Nat} (hp : p.opened i = some p') : Depicts p' sc := by
  unfold Page.opened at hp
  obtain ⟨socket, hsocket, hp⟩ := Option.bind_eq_some_iff.mp hp
  obtain ⟨term, -, hp⟩ := Option.bind_eq_some_iff.mp hp
  obtain ⟨sock, -, hp⟩ := Option.bind_eq_some_iff.mp hp
  have hin := h.inSession_of_socket hsocket
  split at hp
  · cases hp
    have hopen : Depicts (p.setSocket i fun s => { s with state := .opened }) sc :=
      h.setSocket hin i fun _ => rfl
    have hattached : Depicts (((p.setSocket i fun s => { s with state := .opened }).setTerminal term
        fun t => { t with attached := t.attached ++ [sock] }).draw (·.hide .consoleReconnect)) sc :=
      ⟨hopen.drawn.hide_reconnect, hopen.statusClass, hopen.asking, hopen.holding⟩
    exact hattached.setSocket hin sock fun _ => rfl
  · cases hp

theorem Depicts.closed (h : Depicts p sc) {i : Nat} (hp : p.closed i = some p') : Depicts p' sc := by
  unfold Page.closed at hp
  obtain ⟨socket, hsocket, hp⟩ := Option.bind_eq_some_iff.mp hp
  obtain ⟨term, -, hp⟩ := Option.bind_eq_some_iff.mp hp
  have hin := h.inSession_of_socket hsocket
  split at hp
  · cases hp
  · cases hp
    have hclosed : Depicts (p.setSocket i fun s => { s with state := .closed }) sc :=
      h.setSocket hin i fun _ => rfl
    split
    · exact ⟨hclosed.drawn.reveal_reconnect, hclosed.statusClass, hclosed.asking, hclosed.holding⟩
    · exact hclosed

theorem Depicts.reconnected (h : Depicts p sc) (hin : sc.inSession = true) (rows cols : Nat) :
    Depicts (p.reconnect rows cols) sc :=
  ⟨h.drawn, h.statusClass, h.asking, h.holding.setSockets hin fun s hs => by
    rcases List.mem_append.mp hs with hs | hs
    · exact h.holding.ids s hs
    · rw [List.mem_singleton.mp hs]⟩

theorem Depicts.submit {linked : Bool} (h : Depicts p (.session linked false)) (f : Form) :
    Depicts (p.submit f) (.session linked true) where
  drawn := (h.drawn.hide .feedbackPanel).congr fun e => by cases linked <;> cases e <;> rfl
  statusClass := h.statusClass
  asking := by
    refine ⟨h.asking.alone, fun g hg => ?_, ?_, fun _ => h.asking.ended (by simp), h.asking.sent, ?_,
      ?_⟩
    · have := h.asking.awaited g hg
      cases linked <;> cases this
    · cases linked <;> exact h.asking.requests
    · cases linked <;> exact h.asking.offer
    · cases linked <;> exact h.asking.unoffered
  holding := by
    have hnil : p.feedback = [] := List.eq_nil_of_length_eq_zero h.holding.rated
    refine ⟨?_, fun g hg => ?_, h.holding.ids, nofun, fun _ => h.holding.inside rfl⟩
    · show (p.feedback ++ [_]).length = 1
      rw [hnil]
      rfl
    · rcases List.mem_append.mp hg with hg | hg
      · exact h.holding.about g hg
      · rw [List.mem_singleton.mp hg]
        rfl

-- ============================================================================
-- Runs
-- ============================================================================

variable {P : Page → Event → Prop} {p₀ : Page} {search : JsString}

/-- Every event is a move of the screens, or leaves the screen as it is. -/
theorem simulates (E : Engine) (P : Page → Event → Prop) :
    (machine E).Simulates P Screen.Move Depicts := by
  intro p e p' sc h _ hstep
  have hstay : Depicts p' sc → ∃ sc', ReflGen Screen.Move sc sc' ∧ Depicts p' sc' :=
    fun h' => ⟨sc, .refl, h'⟩
  cases e with
  | answer g data current rows cols =>
    simp only [machine, step, Option.ite_none_right_eq_some, Option.some.injEq] at hstep
    obtain ⟨hg, rfl⟩ := hstep
    have hnil := h.asking.erase hg
    have hsettled : Depicts { p with pending := p.pending.erase g } sc := by
      rw [hnil]
      exact ⟨h.drawn, h.statusClass, h.asking.settled, h.holding⟩
    exact hsettled.answered hnil (h.asking.awaited g hg) ..
  | accept =>
    simp only [machine, step, Option.ite_none_right_eq_some, Option.some.injEq] at hstep
    obtain ⟨hv, rfl⟩ := hstep
    rw [h.visible (by decide)] at hv
    obtain rfl := Screen.eq_offer_of_shows hv
    exact ⟨_, .single .accept, h.accept⟩
  | progress i response => exact hstay (h.progress hstep)
  | complete i current rows cols => exact h.complete hstep
  | fail i => exact hstay (h.fail hstep)
  | tick i current => exact hstay (h.tick hstep)
  | opened i => exact hstay (h.opened hstep)
  | closed i => exact hstay (h.closed hstep)
  | reconnect rows cols =>
    simp only [machine, step, Option.ite_none_right_eq_some, Option.some.injEq] at hstep
    obtain ⟨hv, rfl⟩ := hstep
    exact hstay (h.reconnected (h.reconnect hv) rows cols)
  | submit f =>
    simp only [machine, step, Option.ite_none_right_eq_some, Option.some.injEq] at hstep
    obtain ⟨hv, rfl⟩ := hstep
    rw [h.visible (by decide)] at hv
    obtain ⟨linked, rfl⟩ := Screen.unrated_of_shows hv
    exact ⟨_, .single (.rate linked), h.submit f⟩
  | goback =>
    simp only [machine, step, Option.ite_none_right_eq_some, Option.some.injEq] at hstep
    obtain ⟨-, rfl⟩ := hstep
    exact hstay h.leave

/-- The page that is loaded shows nothing, and asks for the session of its link or for the
    status of the server. -/
theorem depicts_load (hload : load E search = some p₀) :
    ∃ id, getUrlParameter E search "id" = some id ∧ Depicts p₀ (.loading (decide (id ≠ []))) := by
  obtain ⟨id, hid, rfl⟩ := Option.map_eq_some_iff.mp hload
  refine ⟨id, hid, fun e _ => ?_, rfl, ?_, ⟨rfl, nofun, nofun, fun _ => ⟨rfl, rfl, rfl⟩, nofun⟩⟩
  · cases e <;> rfl
  · refine ⟨le_refl _, fun g hg => ?_, rfl, nofun, nofun, nofun, fun _ => rfl⟩
    cases List.mem_singleton.mp hg
    by_cases hnil : id = []
    · rw [if_pos hnil, hnil]
      rfl
    · rw [if_neg hnil, decide_eq_true hnil]
      rfl

/-- Every run of the page is a path of the screens. -/
theorem depicts_run (hload : load E search = some p₀) (hrun : (machine E).Run P p₀ p) :
    ∃ id sc, getUrlParameter E search "id" = some id ∧
      ReflTransGen Screen.Move (.loading (decide (id ≠ []))) sc ∧ Depicts p sc := by
  obtain ⟨id, hid, h⟩ := depicts_load hload
  obtain ⟨sc, hpath, hsc⟩ := (simulates E P).run h hrun
  exact ⟨id, sc, hid, hpath, hsc⟩

/-- A page that was opened with a link starts no session. -/
theorem requests_of_linked (hpath : ReflTransGen Screen.Move (.loading true) sc) :
    sc.requests = 0 := by
  have hscreens : sc = .loading true ∨ sc = .missing ∨ ∃ rated, sc = .session true rated := by
    induction hpath with
    | refl => exact .inl rfl
    | tail _ hmove ih =>
      rcases ih with rfl | rfl | ⟨rated, rfl⟩
      · cases hmove with
        | open_ => exact .inr (.inr ⟨false, rfl⟩)
        | missing => exact .inr (.inl rfl)
      · cases hmove
      · cases hmove
        exact .inr (.inr ⟨true, rfl⟩)
  rcases hscreens with rfl | rfl | ⟨rated, rfl⟩ <;> rfl

/-- Whatever happens to the page, and in whatever order, what can be seen of it is one of the
    screens, and these follow each other as their moves say. -/
theorem page_shows_screens (hload : load E search = some p₀) (hrun : (machine E).Run P p₀ p) :
    ∃ id sc, getUrlParameter E search "id" = some id ∧
      ReflTransGen Screen.Move (.loading (decide (id ≠ []))) sc ∧
      (∀ e, e ≠ .consoleReconnect → p.document.visible e = sc.shows e) ∧
      (p.document.visible .consoleReconnect = true → sc.inSession = true) ∧
      p.document.statusClass = sc.statusClass := by
  obtain ⟨id, sc, hid, hpath, h⟩ := depicts_run hload hrun
  exact ⟨id, sc, hid, hpath, fun e he => h.visible he, h.reconnect, h.statusClass⟩

/-- An engine that converts nothing, and decodes what has no escape. -/
def plain : Engine where
  toNumber := fun _ => none
  toText := fun _ => []
  toDecimal := fun _ => []
  decodeURIComponent := fun s => if '%'.toNat ∈ s then none else some s

/-- An object whose values are texts. -/
def texts (members : List (String × String)) : Value :=
  .obj (members.map fun kv => (ofString kv.1, .str (ofString kv.2)))

/-- A visit: the terms are accepted, the session is named, its console is closed again, and
    feedback is sent. -/
def visit : List Event :=
  [.answer .status (some (texts [("client_protocol", "IPv4")])) 0 0 0,
    .answer .terms (some (texts [("hash", "ab"), ("terms", "be nice")])) 0 0 0, .accept,
    .progress 0 (ofString "\x7b\"id\":\"s\"\x7d\n"), .complete 0 0 24 80, .opened 0, .closed 0,
    .submit ⟨some 5, "", false, "thanks"⟩]

/-- A page that is loaded without an id, and where some events lead it. -/
theorem loaded_run {test : Page → Event → Bool} (htest : ∀ p e, test p e = true → P p e)
    (es : List Event) (good : Page → Bool)
    (h : ((load plain []).bind fun p => (machine plain).handle test p es).any good = true) :
    ∃ p₀ p, load plain [] = some p₀ ∧ (machine plain).Run P p₀ p ∧ good p = true := by
  obtain ⟨p, hp, hgood⟩ := (Option.any_eq_true _ _).mp h
  obtain ⟨p₀, hload, hrun⟩ := Option.bind_eq_some_iff.mp hp
  exact ⟨p₀, p, hload, Reactive.run_of_handle htest hrun, hgood⟩

/-- No event is ruled out. -/
theorem visit_run (es : List Event) (good : Page → Bool)
    (h : ((load plain []).bind fun p => (machine plain).handle (fun _ _ => true) p es).any good =
      true) : ∃ p₀ p, load plain [] = some p₀ ∧
        (machine plain).Run Reactive.anyEvent p₀ p ∧ good p = true :=
  loaded_run (fun _ _ _ => trivial) es good h

/-- The visit comes to a session that can be connected to again. -/
theorem page_shows_screens_visit : ∃ p₀ p : Page, load plain [] = some p₀ ∧
    p.document.visible .consoleReconnect = true ∧
    ∃ id sc, getUrlParameter plain [] "id" = some id ∧
      ReflTransGen Screen.Move (.loading (decide (id ≠ []))) sc ∧
      (∀ e, e ≠ .consoleReconnect → p.document.visible e = sc.shows e) ∧
      (p.document.visible .consoleReconnect = true → sc.inSession = true) ∧
      p.document.statusClass = sc.statusClass := by
  obtain ⟨p₀, p, hload, hrun, hgood⟩ :=
    visit_run visit (fun p => p.document.visible .consoleReconnect) (by decide +kernel)
  exact ⟨p₀, p, hload, hgood, page_shows_screens hload hrun⟩

/-- A page sends one start request at most, and none if it was opened with the id of a session;
    the request has the hash that came with the terms on the page.  It sends feedback once at
    most; the feedback and every console are for the session whose id is in its location. -/
theorem page_asks_once (hload : load E search = some p₀) (hrun : (machine E).Run P p₀ p) :
    p.starts.length ≤ 1 ∧ (getUrlParameter E search "id" ≠ some [] → p.starts = []) ∧
    (∀ s ∈ p.starts, ∃ data : Value, p.document.text .terms = data.get "terms" ∧
      s.terms = data.get "hash") ∧
    p.feedback.length ≤ 1 ∧ (∀ f ∈ p.feedback, p.location = some f.1) ∧
    ∀ s ∈ p.sockets, p.location = some s.id := by
  obtain ⟨id, sc, hid, hpath, h⟩ := depicts_run hload hrun
  have hlocation : sc.inSession = true → p.location = some p.console := fun hin =>
    (h.holding.inside hin).2
  refine ⟨?_, fun hlinked => ?_, fun s hs => ?_, ?_, fun f hf => ?_, fun s hs => ?_⟩
  · rw [h.asking.requests]
    unfold Screen.requests
    split <;> omega
  · have hne : id ≠ [] := fun hnil => hlinked (hid.trans (congrArg some hnil))
    rw [decide_eq_true hne] at hpath
    exact List.eq_nil_of_length_eq_zero (h.asking.requests.trans (requests_of_linked hpath))
  · have hoffered : sc.offered = true := by
      have hone : 0 < sc.requests := h.asking.requests ▸ List.length_pos_of_mem hs
      unfold Screen.requests at hone
      unfold Screen.offered
      split at hone <;> first | rfl | omega
    obtain ⟨data, hterms, hhash⟩ := h.asking.offer hoffered
    exact ⟨data, hterms, (h.asking.sent s hs).trans hhash⟩
  · rw [h.holding.rated]
    unfold Screen.rated
    split <;> omega
  · have hin : sc.inSession = true := by
      have hone : 0 < sc.rated := h.holding.rated ▸ List.length_pos_of_mem hf
      unfold Screen.rated at hone
      split at hone
      · rfl
      · omega
    rw [h.holding.about f hf]
    exact hlocation hin
  · obtain ⟨i, hi⟩ := List.mem_iff_getElem?.mp hs
    rw [h.holding.ids s hs]
    exact hlocation (h.inSession_of_socket hi)

/-- The visit sends one start request and feedback once. -/
theorem page_asks_once_visit : ∃ p₀ p : Page, load plain [] = some p₀ ∧
    p.starts.length = 1 ∧ p.feedback.length = 1 ∧
    (p.starts.length ≤ 1 ∧ (getUrlParameter plain [] "id" ≠ some [] → p.starts = []) ∧
      (∀ s ∈ p.starts, ∃ data : Value, p.document.text .terms = data.get "terms" ∧
        s.terms = data.get "hash") ∧
      p.feedback.length ≤ 1 ∧ (∀ f ∈ p.feedback, p.location = some f.1) ∧
      ∀ s ∈ p.sockets, p.location = some s.id) := by
  obtain ⟨p₀, p, hload, hrun, hgood⟩ :=
    visit_run visit (fun p => p.starts.length == 1 && p.feedback.length == 1) (by decide +kernel)
  obtain ⟨hstarts, hfeedback⟩ := Bool.and_eq_true_iff.mp hgood
  exact ⟨p₀, p, hload, beq_iff_eq.mp hstarts, beq_iff_eq.mp hfeedback, page_asks_once hload hrun⟩

end Page
end IncusDemo
