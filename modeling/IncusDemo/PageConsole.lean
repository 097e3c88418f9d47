/-
  IncusDemo.PageConsole

  The terminals and the websockets of a page.  `sock.onopen` attaches and
  watches the socket that was made last, whichever one has opened, and `onclose`
  disposes of the terminal that was made last.  As long as the button that
  connects again is not clicked while a connection is being made, these are the
  socket that opens or closes and its own terminal.
-/

import IncusDemo.PageScreens

namespace IncusDemo
namespace Page

open Js Conc

/-- The button that connects again is clicked when every socket is closed. -/
def Calm (p : Page) : Event → Prop
  | .reconnect _ _ => ∀ s ∈ p.sockets, s.state = .closed
  | _ => True

/-- An earlier socket and its terminal, which is disposed of if the socket had opened. -/
def Past (s : Socket) (t : Terminal) : Prop := s.state = .closed ∧ t = ⟨[], s.watched⟩

/-- The last socket, which is at position `i`, and its terminal. -/
def Fits (i : Nat) (s : Socket) (t : Terminal) : Prop :=
  match s.state with
  | .connecting => s.watched = false ∧ t = ⟨[], false⟩
  | .opened => s.watched = true ∧ t = ⟨[i], false⟩
  | .closed => t = ⟨[], s.watched⟩

/-- Each socket has its own terminal, all sockets but the last are closed, and the button is
    shown when one has been open and none is. -/
inductive Consoles : List Socket → List Terminal → Option Nat → Option Nat → Bool → Prop
  | none : Consoles [] [] none none false
  | last {past : List Socket} {gone : List Terminal} {s : Socket} {t : Terminal} {button : Bool}
      (hpast : List.Forall₂ Past past gone) (hlast : Fits past.length s t)
      (hbutton : button = ((past ++ [s]).any (·.watched) && decide (s.state ≠ .opened))) :
      Consoles (past ++ [s]) (gone ++ [t]) (some past.length) (some past.length) button

/-- The consoles of the page. -/
def Consoled (p : Page) : Prop :=
  Consoles p.sockets p.terminals p.term p.sock (p.document.display .consoleReconnect)

/-- Nothing that concerns the consoles or the clock is changed. -/
structure Kept (p p' : Page) : Prop where
  sockets : p'.sockets = p.sockets
  terminals : p'.terminals = p.terminals
  term : p'.term = p.term
  sock : p'.sock = p.sock
  button : p'.document.display .consoleReconnect = p.document.display .consoleReconnect
  clocks : p'.clocks = p.clocks
  clock : p'.document.clock = p.document.clock
  leaving : p'.leaving = p.leaving

variable {E : Engine} {p p' : Page} {sc : Screen}

theorem Kept.consoled (hk : Kept p p') (h : Consoled p) : Consoled p' := by
  unfold Consoled
  rw [hk.sockets, hk.terminals, hk.term, hk.sock, hk.button]
  exact h

theorem modify_concat {α : Type} (l : List α) (a : α) (f : α → α) :
    (l ++ [a]).modify l.length f = l ++ [f a] := by
  induction l with
  | nil => rfl
  | cons b l ih => simp [ih]

/-- The sockets and the terminals of two lists belong together position by position. -/
theorem past_get {past : List Socket} {gone : List Terminal} (h : List.Forall₂ Past past gone)
    (i : Nat) : (∀ s, past[i]? = some s → ∃ t, gone[i]? = some t ∧ Past s t) ∧
      ∀ t, gone[i]? = some t → ∃ s, past[i]? = some s ∧ Past s t := by
  induction h generalizing i with
  | nil => simp
  | cons hst _ ih =>
    cases i with
    | zero => simp [hst]
    | succ i => simpa using ih i

/-- A socket that is not closed is the last one. -/
theorem eq_last {past : List Socket} {gone : List Terminal} {s socket : Socket} {i : Nat}
    (hpast : List.Forall₂ Past past gone) (hs : (past ++ [s])[i]? = some socket)
    (hstate : socket.state ≠ .closed) : i = past.length ∧ socket = s := by
  have hi : i < (past ++ [s]).length := (List.getElem?_eq_some_iff.mp hs).1
  rw [List.length_append, List.length_singleton] at hi
  by_cases hlt : i < past.length
  · rw [List.getElem?_append_left hlt] at hs
    obtain ⟨t, -, hclosed, -⟩ := (past_get hpast i).1 socket hs
    exact absurd hclosed hstate
  · obtain rfl : i = past.length := by omega
    rw [List.getElem?_concat_length] at hs
    exact ⟨rfl, (Option.some.inj hs).symm⟩

-- ============================================================================
-- Events
-- ============================================================================

/-- A new console, when every socket is closed. -/
theorem Consoled.append (h : Consoled p) (hclosed : ∀ s ∈ p.sockets, s.state = .closed) {s : Socket}
    (hs : s.state = .connecting) (hw : s.watched = false) :
    Consoles (p.sockets ++ [s]) (p.terminals ++ [⟨[], false⟩]) (some p.terminals.length)
      (some p.sockets.length) (p.document.display .consoleReconnect) := by
  have hpast : List.Forall₂ Past p.sockets p.terminals ∧
      p.document.display .consoleReconnect = p.sockets.any (·.watched) := by
    unfold Consoled at h
    generalize p.sockets = sockets, p.terminals = terminals, p.term = term, p.sock = sock,
      p.document.display .consoleReconnect = button at h hclosed
    cases h with
    | none => exact ⟨.nil, rfl⟩
    | @last past gone a t _ hpast hlast hbutton =>
      have ha : a.state = .closed := hclosed a (by simp)
      have hat : Past a t := by
        unfold Fits at hlast
        rw [ha] at hlast
        exact ⟨ha, hlast⟩
      refine ⟨List.rel_append hpast (.cons hat .nil), ?_⟩
      rw [hbutton, ha]
      simp
  obtain ⟨hpast, hbutton⟩ := hpast
  rw [← hpast.length_eq]
  refine .last hpast ?_ ?_
  · unfold Fits
    rw [hs]
    exact ⟨hw, rfl⟩
  · rw [hbutton, hs]
    simp [hw]

/-- The page around a socket that is not closed. -/
theorem Consoled.live (h : Consoled p) {i : Nat} {socket : Socket}
    (hs : p.sockets[i]? = some socket) (hstate : socket.state ≠ .closed) :
    ∃ past gone t, i = past.length ∧ p.sockets = past ++ [socket] ∧ p.terminals = gone ++ [t] ∧
      p.term = some i ∧ p.sock = some i ∧ List.Forall₂ Past past gone ∧ Fits i socket t ∧
      p.document.display .consoleReconnect =
        ((past ++ [socket]).any (·.watched) && decide (socket.state ≠ .opened)) := by
  unfold Consoled at h
  generalize p.sockets = sockets, p.terminals = terminals, p.term = term, p.sock = sock,
    p.document.display .consoleReconnect = button at h hs ⊢
  cases h with
  | none => cases hs
  | last hpast hlast hbutton =>
    obtain ⟨rfl, rfl⟩ := eq_last hpast hs hstate
    exact ⟨_, _, _, rfl, rfl, rfl, rfl, rfl, hpast, hlast, hbutton⟩

theorem Consoled.opened (h : Consoled p) {i : Nat} (hp : p.opened i = some p') : Consoled p' := by
  unfold Page.opened at hp
  obtain ⟨socket, hsocket, hp⟩ := Option.bind_eq_some_iff.mp hp
  obtain ⟨term, hterm, hp⟩ := Option.bind_eq_some_iff.mp hp
  obtain ⟨sock, hsock, hp⟩ := Option.bind_eq_some_iff.mp hp
  split at hp
  · rename_i hstate
    cases hp
    obtain ⟨past, gone, t, rfl, hsockets, hterminals, hterm', hsock', hpast, hfits, -⟩ :=
      h.live hsocket (by rw [hstate]; decide)
    cases hterm.symm.trans hterm'
    cases hsock.symm.trans hsock'
    unfold Fits at hfits
    rw [hstate] at hfits
    obtain ⟨-, rfl⟩ := hfits
    show Consoles ((p.sockets.modify past.length _).modify past.length _)
      (p.terminals.modify past.length _) p.term p.sock _
    rw [hsockets, hterminals, hterm, hsock, modify_concat, modify_concat]
    rw [show past.length = gone.length from hpast.length_eq, modify_concat, ← hpast.length_eq]
    refine .last hpast ⟨rfl, rfl⟩ ?_
    rw [decide_eq_false (fun hne => hne rfl), Bool.and_false]
    simp [draw, setSocket, setTerminal, Document.hide]
  · cases hp

theorem Consoled.closed (h : Consoled p) {i : Nat} (hp : p.closed i = some p') : Consoled p' := by
  unfold Page.closed at hp
  obtain ⟨socket, hsocket, hp⟩ := Option.bind_eq_some_iff.mp hp
  obtain ⟨term, hterm, hp⟩ := Option.bind_eq_some_iff.mp hp
  split at hp
  · cases hp
  · rename_i hstate
    cases hp
    obtain ⟨past, gone, t, rfl, hsockets, hterminals, hterm', hsock, hpast, hfits, hbutton⟩ :=
      h.live hsocket hstate
    cases hterm.symm.trans hterm'
    have hmodified : p.sockets.modify past.length (fun s => { s with state := .closed }) =
        past ++ [{ socket with state := .closed }] := by
      rw [hsockets, modify_concat]
    split
    · rename_i hwatched
      show Consoles (p.sockets.modify past.length _) (p.terminals.modify past.length _) p.term p.sock _
      rw [hmodified, hterminals, hterm, hsock, hpast.length_eq, modify_concat, ← hpast.length_eq]
      refine .last hpast (by rw [hwatched]; rfl) ?_
      simp [draw, setSocket, setTerminal, Document.reveal, hwatched]
    · rename_i hwatched
      have hconnecting : socket.state = .connecting := by
        unfold Fits at hfits
        cases hs : socket.state with
        | connecting => rfl
        | opened =>
          rw [hs] at hfits
          exact absurd hfits.1 hwatched
        | closed => exact absurd hs hstate
      unfold Fits at hfits
      rw [hconnecting] at hfits
      obtain ⟨hunwatched, rfl⟩ := hfits
      show Consoles (p.sockets.modify past.length _) p.terminals p.term p.sock
        (p.document.display .consoleReconnect)
      rw [hmodified, hterminals, hterm, hsock]
      refine .last hpast (by rw [hunwatched]; rfl) ?_
      rw [hbutton, hconnecting]
      simp

/-! ## Events that leave the consoles as they are -/

@[simp] theorem Document.setText_display (d : Document) (f : Field) (v : Option Value) :
    (d.setText f v).display = d.display := by
  cases v <;> rfl

@[simp] theorem Document.setText_clock (d : Document) (f : Field) (v : Option Value) :
    (d.setText f v).clock = d.clock := by
  cases v <;> rfl

theorem Kept.refl (p : Page) : Kept p p := ⟨rfl, rfl, rfl, rfl, rfl, rfl, rfl, rfl⟩

/-- A change of the document that concerns neither the button nor the clock. -/
theorem Kept.draw {f : Document → Document}
    (hf : (f p.document).display .consoleReconnect = p.document.display .consoleReconnect)
    (hclock : (f p.document).clock = p.document.clock) : Kept p (p.draw f) :=
  ⟨rfl, rfl, rfl, rfl, hf, rfl, hclock, rfl⟩

theorem Kept.setText (f : Field) (v : Option Value) : Kept p (p.draw (·.setText f v)) :=
  .draw (by simp) (by simp)

theorem Kept.trans {p'' : Page} (h : Kept p p') (h' : Kept p' p'') : Kept p p'' where
  sockets := h'.sockets.trans h.sockets
  terminals := h'.terminals.trans h.terminals
  term := h'.term.trans h.term
  sock := h'.sock.trans h.sock
  button := h'.button.trans h.button
  clocks := h'.clocks.trans h.clocks
  clock := h'.clock.trans h.clock
  leaving := h'.leaving.trans h.leaving

theorem onStatus_kept (data : Value) : Kept p (p.onStatus E data) := by
  unfold Page.onStatus
  split
  · exact .refl p
  · split
    · dsimp only
      split
      · exact Kept.trans (.draw rfl rfl) (.draw rfl rfl)
      · exact Kept.trans (Kept.trans (.draw rfl rfl) (.setText _ _)) (.draw rfl rfl)
    · refine Kept.trans (.draw ?_ ?_) ⟨rfl, rfl, rfl, rfl, rfl, rfl, rfl, rfl⟩ <;> simp

theorem onTerms_kept (data : Value) : Kept p (p.onTerms data) := by
  unfold Page.onTerms
  split
  · exact .refl p
  · exact Kept.trans (.setText _ _) ⟨rfl, rfl, rfl, rfl, rfl, rfl, rfl, rfl⟩

theorem refuse_kept (status : Option Value) : Kept p (p.refuse E status) := by
  obtain ⟨reason, hreason⟩ := refusal_eq (E := E) status
  unfold Page.refuse
  rw [hreason]
  rcases reason with _ | reason
  · exact .draw rfl rfl
  · cases reason <;> exact .draw rfl rfl

theorem progress_kept {i : Nat} {response : JsString} (hp : p.progress E i response = some p') :
    Kept p p' := by
  obtain ⟨s, -, rfl⟩ := Option.map_eq_some_iff.mp hp
  dsimp only
  split
  · exact ⟨rfl, rfl, rfl, rfl, rfl, rfl, rfl, rfl⟩
  · exact ⟨rfl, rfl, rfl, rfl, rfl, rfl, rfl, rfl⟩
  · split
    · exact ⟨rfl, rfl, rfl, rfl, rfl, rfl, rfl, rfl⟩
    · refine Kept.trans ?_ (.setText _ _)
      exact ⟨rfl, rfl, rfl, rfl, rfl, rfl, rfl, rfl⟩

/-- A tick leaves the consoles as they are. -/
theorem Consoled.tick (h : Consoled p) {i : Nat} {current : Int}
    (hp : p.tick E i current = some p') : Consoled p' := by
  unfold Page.tick at hp
  obtain ⟨clock, -, hp⟩ := Option.bind_eq_some_iff.mp hp
  split at hp
  · rw [updateClock_eq] at hp
    cases hp
    split <;> exact h
  · cases hp

/-! ## The session -/

/-- A page that shows no session has no console yet. -/
theorem Consoled.showSession (h : Consoled p) (hsockets : p.sockets = []) (data : Value)
    (current : Int) (rows cols : Nat) : Consoled (p.showSession E data current rows cols) := by
  have hclosed : ∀ s ∈ p.sockets, s.state = .closed := fun s hs =>
    absurd (hsockets ▸ hs) List.not_mem_nil
  rw [showSession_eq]
  exact h.append hclosed (s := ⟨data.get "id", cols, rows, .connecting, false⟩) rfl rfl

theorem Consoled.onRecord (h : Consoled p) (hsockets : p.sockets = []) (data : Value)
    (current : Int) (rows cols : Nat) : Consoled (p.onRecord E data current rows cols) := by
  unfold Page.onRecord
  split
  · exact h
  · split
    · split
      · exact h
      · exact (refuse_kept _).consoled h
    · exact h.showSession hsockets ..

theorem Consoled.answered (h : Consoled p) (hsockets : ∀ id, sc.awaits (.info id) = true →
    p.sockets = []) {g : Get} (hg : sc.awaits g = true) (data : Option Value) (current : Int)
    (rows cols : Nat) : Consoled (p.answered E g data current rows cols) := by
  cases g with
  | status =>
    cases data with
    | none => exact h
    | some data => exact (onStatus_kept data).consoled h
  | terms =>
    cases data with
    | none => exact h
    | some data => exact (onTerms_kept data).consoled h
  | info id =>
    cases data with
    | none => exact h
    | some data =>
      show Consoled (p.onInfo E data current rows cols)
      unfold Page.onInfo
      split
      · exact h
      · split
        · exact h
        · exact h.showSession (hsockets id hg) ..

/-- One event, on a page that shows a screen. -/
theorem Consoled.step (h : Consoled p) (hd : Depicts p sc) {e : Event} (hcalm : Calm p e)
    (hstep : (machine E).step p e = some p') : Consoled p' := by
  cases e with
  | answer g data current rows cols =>
    simp only [machine, Page.step, Option.ite_none_right_eq_some, Option.some.injEq] at hstep
    obtain ⟨hg, rfl⟩ := hstep
    have hkept : Consoled { p with pending := p.pending.erase g } := h
    refine hkept.answered (fun id hin => ?_) (hd.asking.awaited g hg) ..
    rcases Screen.eq_of_awaits hin with ⟨hget, -⟩ | ⟨hget, -⟩ | ⟨-, -, rfl⟩
    · cases hget
    · cases hget
    · exact (hd.holding.outside rfl).2.1
  | accept =>
    simp only [machine, Page.step, Option.ite_none_right_eq_some, Option.some.injEq] at hstep
    obtain ⟨-, rfl⟩ := hstep
    exact h
  | progress i response => exact (progress_kept hstep).consoled h
  | complete i current rows cols =>
    obtain ⟨s, hs, rfl⟩ := Option.map_eq_some_iff.mp hstep
    obtain ⟨hget, hover⟩ := of_start hs
    obtain ⟨rfl, -, -⟩ := hd.asking.running hget hover
    have hkept : Consoled (p.settle i s) := h
    split
    · exact hkept
    · exact hkept.onRecord (hd.holding.outside rfl).2.1 ..
  | fail i =>
    obtain ⟨s, -, rfl⟩ := Option.map_eq_some_iff.mp hstep
    exact h
  | tick i current => exact h.tick hstep
  | opened i => exact h.opened hstep
  | closed i => exact h.closed hstep
  | reconnect rows cols =>
    simp only [machine, Page.step, Option.ite_none_right_eq_some, Option.some.injEq] at hstep
    obtain ⟨-, rfl⟩ := hstep
    exact h.append hcalm (s := ⟨p.console, cols, rows, .connecting, false⟩) rfl rfl
  | submit f =>
    simp only [machine, Page.step, Option.ite_none_right_eq_some, Option.some.injEq] at hstep
    obtain ⟨-, rfl⟩ := hstep
    exact h
  | goback =>
    simp only [machine, Page.step, Option.ite_none_right_eq_some, Option.some.injEq] at hstep
    obtain ⟨-, rfl⟩ := hstep
    exact h

-- ============================================================================
-- Runs
-- ============================================================================

variable {p₀ : Page} {search : JsString}

theorem consoled_run (hload : load E search = some p₀) (hrun : (machine E).Run Calm p₀ p) :
    Consoled p ∧ ∃ sc, Depicts p sc := by
  obtain ⟨id, -, hd⟩ := depicts_load hload
  have h0 : Consoled p₀ := by
    obtain ⟨id, -, rfl⟩ := Option.map_eq_some_iff.mp hload
    exact .none
  refine hrun.invariant (I := fun p => Consoled p ∧ ∃ sc, Depicts p sc) ⟨h0, _, hd⟩ ?_
  rintro p e p' ⟨h, sc, hd⟩ hcalm hstep
  obtain ⟨sc', -, hd'⟩ := simulates E Calm p e p' sc hd hcalm hstep
  exact ⟨h.step hd hcalm hstep, sc', hd'⟩

/-- A terminal is attached to nothing, or to the socket at its own position, which is open. -/
theorem Consoled.attached (h : Consoled p) {i j : Nat} {t : Terminal}
    (ht : p.terminals[j]? = some t) (hi : i ∈ t.attached) :
    i = j ∧ ∃ s, p.sockets[i]? = some s ∧ s.state = .opened := by
  unfold Consoled at h
  generalize p.sockets = sockets, p.terminals = terminals, p.term = term, p.sock = sock,
    p.document.display .consoleReconnect = button at h ht ⊢
  cases h with
  | none => cases ht
  | @last past gone s u _ hpast hlast _ =>
    by_cases hj : j < gone.length
    · rw [List.getElem?_append_left hj] at ht
      obtain ⟨a, -, -, rfl⟩ := (past_get hpast j).2 t ht
      cases hi
    · have hlt : j < (gone ++ [u]).length := (List.getElem?_eq_some_iff.mp ht).1
      rw [List.length_append, List.length_singleton] at hlt
      obtain rfl : j = gone.length := by omega
      rw [List.getElem?_concat_length] at ht
      cases ht
      unfold Fits at hlast
      cases hs : s.state with
      | opened =>
        rw [hs] at hlast
        obtain ⟨-, rfl⟩ := hlast
        obtain rfl := List.mem_singleton.mp hi
        exact ⟨hpast.length_eq, s, List.getElem?_concat_length, hs⟩
      | connecting =>
        rw [hs] at hlast
        rw [hlast.2] at hi
        cases hi
      | closed =>
        rw [hs] at hlast
        rw [hlast] at hi
        cases hi

/-- The button is displayed when a socket has opened and none is open. -/
theorem Consoled.button (h : Consoled p) : p.document.display .consoleReconnect = true ↔
    (∃ s ∈ p.sockets, s.watched = true) ∧ ∀ s ∈ p.sockets, s.state ≠ .opened := by
  unfold Consoled at h
  generalize p.sockets = sockets, p.terminals = terminals, p.term = term, p.sock = sock,
    p.document.display .consoleReconnect = button at h ⊢
  cases h with
  | none => simp
  | @last past gone s u _ hpast hlast hbutton =>
    rw [hbutton, Bool.and_eq_true, List.any_eq_true, decide_eq_true_eq]
    refine and_congr_right fun _ => ⟨fun hs a ha => ?_, fun hall => hall s (by simp)⟩
    rcases List.mem_append.mp ha with ha | ha
    · obtain ⟨i, hi⟩ := List.mem_iff_getElem?.mp ha
      obtain ⟨-, -, hclosed, -⟩ := (past_get hpast i).1 a hi
      rw [hclosed]
      decide
    · rw [List.mem_singleton.mp ha]
      exact hs

/-- As long as the button that connects again is not clicked while a connection is being made,
    only the last socket is not closed; an open socket is attached to its own terminal, and no
    terminal to any other; and the button can be seen when a socket has opened and none is
    open. -/
theorem console_attached (hload : load E search = some p₀) (hrun : (machine E).Run Calm p₀ p) :
    (∀ (i : Nat) (s : Socket), p.sockets[i]? = some s → s.state ≠ .closed →
      i + 1 = p.sockets.length) ∧
    (∀ (i : Nat) (s : Socket), p.sockets[i]? = some s → s.state = .opened →
      p.terminals[i]? = some ⟨[i], false⟩) ∧
    (∀ (j : Nat) (t : Terminal), p.terminals[j]? = some t → ∀ i ∈ t.attached,
      i = j ∧ ∃ s, p.sockets[i]? = some s ∧ s.state = .opened) ∧
    (p.document.visible .consoleReconnect = true ↔
      (∃ s ∈ p.sockets, s.watched = true) ∧ ∀ s ∈ p.sockets, s.state ≠ .opened) := by
  obtain ⟨h, sc, hd⟩ := consoled_run hload hrun
  refine ⟨fun i s hs hstate => ?_, fun i s hs hstate => ?_, fun j t ht i hi => h.attached ht hi, ?_⟩
  · obtain ⟨past, gone, t, rfl, hsockets, -⟩ := h.live hs hstate
    rw [hsockets, List.length_append, List.length_singleton]
  · obtain ⟨past, gone, t, rfl, -, hterminals, -, -, hpast, hfits, -⟩ :=
      h.live hs (by rw [hstate]; decide)
    unfold Fits at hfits
    rw [hstate] at hfits
    rw [hterminals, hpast.length_eq, List.getElem?_concat_length, hfits.2, hpast.length_eq]
  · rw [← h.button, Document.visible, Bool.and_eq_true, and_iff_left_iff_imp]
    intro hbutton
    obtain ⟨⟨s, hs, -⟩, -⟩ := h.button.mp hbutton
    obtain ⟨i, hi⟩ := List.mem_iff_getElem?.mp hs
    have hin := hd.inSession_of_socket hi
    show p.document.display .consolePanel = true
    rw [hd.drawn _ (by decide)]
    unfold Screen.inSession at hin
    split at hin
    · rename_i linked rated
      cases linked <;> cases rated <;> rfl
    · cases hin

/-- The test for `Calm`. -/
def calm (p : Page) : Event → Bool
  | .reconnect _ _ => p.sockets.all fun s => decide (s.state = .closed)
  | _ => true

theorem of_calm (p : Page) (e : Event) (h : calm p e = true) : Calm p e := by
  cases e with
  | reconnect rows cols =>
    intro s hs
    exact of_decide_eq_true (List.all_eq_true.mp h s hs)
  | _ => trivial

/-- Socket `i` is open. -/
def isOpen (i : Nat) (p : Page) : Bool := p.sockets[i]?.any fun s => decide (s.state = .opened)

/-- The visit connects again, and is connected. -/
theorem console_attached_again : ∃ p₀ p : Page, load plain [] = some p₀ ∧
    isOpen 1 p = true ∧
    ((∀ (i : Nat) (s : Socket), p.sockets[i]? = some s → s.state ≠ .closed →
        i + 1 = p.sockets.length) ∧
      (∀ (i : Nat) (s : Socket), p.sockets[i]? = some s → s.state = .opened →
        p.terminals[i]? = some ⟨[i], false⟩) ∧
      (∀ (j : Nat) (t : Terminal), p.terminals[j]? = some t → ∀ i ∈ t.attached,
        i = j ∧ ∃ s, p.sockets[i]? = some s ∧ s.state = .opened) ∧
      (p.document.visible .consoleReconnect = true ↔
        (∃ s ∈ p.sockets, s.watched = true) ∧ ∀ s ∈ p.sockets, s.state ≠ .opened)) := by
  obtain ⟨p₀, p, hload, hrun, hgood⟩ := loaded_run of_calm (visit ++ [.reconnect 24 80, .opened 1])
    (isOpen 1) (by decide +kernel)
  exact ⟨p₀, p, hload, hgood, console_attached hload hrun⟩

/-- After two clicks the first of the two sockets is open and attached to nothing, and the
    second is attached twice. -/
example : (((load plain []).bind fun p => (machine plain).handle (fun _ _ => true) p
    (visit ++ [.reconnect 24 80, .reconnect 24 80, .opened 1, .opened 2])).map fun p =>
      (p.sockets.map (·.state), p.terminals.map (·.attached))) =
    some ([.closed, .opened, .opened], [[], [], [2, 2]]) := by decide +kernel

end Page
end IncusDemo
