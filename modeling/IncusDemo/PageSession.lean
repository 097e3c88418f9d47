/-
  IncusDemo.PageSession

  A page that shows a session: its clock, and its location.

  The clock is written when the session appears and at every tick; in between
  nothing changes it.  The location that `pushState` sets is one that
  `getUrlParameter` reads again when the page is reloaded.
-/

import IncusDemo.Agreement
import IncusDemo.PageConsole
import IncusDemo.PageStart

namespace IncusDemo
namespace Page

open Go Js Conc

-- ============================================================================
-- Digits
-- ============================================================================

theorem decimal_concat (ds : JsString) (d : CodeUnit) :
    decimal (ds ++ [d]) = 10 * decimal ds + (d - '0'.toNat) := by
  simp [decimal]

theorem decimal_append (ds es : JsString) :
    decimal (ds ++ es) = decimal ds * 10 ^ es.length + decimal es := by
  induction es using List.reverseRecOn with
  | nil => simp [decimal]
  | append_singleton es e ih =>
    rw [← List.append_assoc, decimal_concat, decimal_concat, ih, List.length_append,
      List.length_singleton]
    ring

theorem decimal_lt {ds : JsString} (h : ∀ d ∈ ds, isDigit d = true) :
    decimal ds < 10 ^ ds.length := by
  induction ds using List.reverseRecOn with
  | nil => simp [decimal]
  | append_singleton ds d ih =>
    have hds := ih fun d hd => h d (List.mem_append_left _ hd)
    have hd : d ≤ '9'.toNat := (of_decide_eq_true (h d (by simp))).2
    have hle : d - '0'.toNat ≤ 9 := Nat.sub_le_sub_right hd 48
    have hnext : ∀ v b c : Nat, v < b → c ≤ 9 → 10 * v + c < b * 10 := by omega
    rw [decimal_concat, List.length_append, List.length_singleton, pow_succ]
    exact hnext _ _ _ hds hle

/-- The last two digits of a numeral stand for its number modulo 100. -/
theorem decimal_last_two {ds : JsString} (h : ∀ d ∈ ds, isDigit d = true) (hlen : 2 ≤ ds.length) :
    (ds.drop (ds.length - 2)).length = 2 ∧
      decimal (ds.drop (ds.length - 2)) = decimal ds % 100 := by
  have htwo : (ds.drop (ds.length - 2)).length = 2 := by
    rw [List.length_drop]
    omega
  have hsplit := decimal_append (ds.take (ds.length - 2)) (ds.drop (ds.length - 2))
  rw [List.take_append_drop, htwo] at hsplit
  have hlt : decimal (ds.drop (ds.length - 2)) < 10 ^ (ds.drop (ds.length - 2)).length :=
    decimal_lt fun d hd => h d (List.mem_of_mem_drop hd)
  rw [htwo] at hlt
  refine ⟨htwo, ?_⟩
  rw [hsplit]
  omega

theorem numberText_nat (E : Engine) {n : Nat} (h : n < 2 ^ 53) :
    E.numberText (some (.finite n)) = formatNat n := by
  have hsafe : ((n : ℚ)).isInt ∧ |(n : ℚ)| < 2 ^ 53 := by
    refine ⟨by simp [Rat.isInt], ?_⟩
    rw [abs_of_nonneg (Nat.cast_nonneg n)]
    exact_mod_cast h
  change (if ((n : ℚ)).isInt ∧ |(n : ℚ)| < 2 ^ 53 then formatInt (n : ℚ).num else _) = _
  rw [if_pos hsafe, Rat.num_natCast]
  exact if_neg (by omega)

/-- `('0' + n).slice(-2)` has two digits, which stand for `n` modulo 100. -/
theorem twoDigits_nat (E : Engine) {n : Nat} (h : n < 2 ^ 53) :
    (twoDigits E (some (.finite n))).length = 2 ∧
      decimal (twoDigits E (some (.finite n))) = n % 100 := by
  have hdigits : ∀ d ∈ '0'.toNat :: formatNat n, isDigit d = true := by
    intro d hd
    rcases List.mem_cons.mp hd with rfl | hd
    · decide
    · exact isDigit_of_mem_formatNat hd
  have hlen : 2 ≤ ('0'.toNat :: formatNat n).length := by
    have := List.length_pos_iff.mpr (formatNat_ne_nil n)
    rw [List.length_cons]
    omega
  have hzero : decimal ('0'.toNat :: formatNat n) = n := by
    rw [← List.singleton_append, decimal_append, decimal_formatNat]
    simp [decimal]
  unfold twoDigits
  rw [numberText_nat E h]
  obtain ⟨htwo, hvalue⟩ := decimal_last_two hdigits hlen
  exact ⟨htwo, hvalue.trans (by rw [hzero])⟩

/-- The number of seconds that the clock shows. -/
def shownSeconds (clock : JsString × JsString) : Nat := decimal clock.1 * 60 + decimal clock.2

/-- The clock shows what remains, modulo 100 minutes. -/
theorem shownSeconds_clockText (E : Engine) {t : Nat} (h : t < 2 ^ 53) :
    shownSeconds (clockText E (some (.finite t))) = t % 6000 := by
  have hminutes := Number.floor_div_sixty h
  have hproduct : (Number.finite ((t / 60 : ℕ) : ℚ)).mul 60 = .finite ((t / 60 * 60 : ℕ) : ℚ) := by
    change Number.ofRat (((t / 60 : ℕ) : ℚ) * (60 : ℕ)) = _
    rw [← Nat.cast_mul, Number.ofRat_natCast (by omega)]
  have hseconds : (Number.finite (t : ℚ)).sub (.finite ((t / 60 * 60 : ℕ) : ℚ)) =
      some (.finite ((t % 60 : ℕ) : ℚ)) := by
    have hrest : (t : ℚ) - ((t / 60 * 60 : ℕ) : ℚ) = ((t % 60 : ℕ) : ℚ) := by
      rw [← Nat.cast_sub (by omega)]
      congr 1
      omega
    unfold Number.sub
    dsimp only
    rw [hrest, Number.ofRat_natCast (by omega)]
  unfold shownSeconds clockText
  simp only [Option.map_some, Option.bind_eq_bind, Option.bind_some]
  rw [hminutes, hproduct, hseconds, (twoDigits_nat E (by omega)).2, (twoDigits_nat E (by omega)).2]
  omega

-- ============================================================================
-- The clock
-- ============================================================================

variable {E : Engine} {p p' p₀ : Page} {sc : Screen} {search : JsString}

/-- The time at which a handler reads the clock, if it does. -/
def Event.time : Event → Option Int
  | .answer _ _ current _ _ => some current
  | .complete _ current _ _ => some current
  | .tick _ current => some current
  | _ => none

/-- The last of these times. -/
def lastTime (es : List Event) : Option Int := (es.filterMap Event.time).getLast?

/-- Clock `c` was written at `current`, and the page is left if its time is over. -/
structure Written (E : Engine) (p : Page) (c : Clock) (current : Int) : Prop where
  clocks : p.clocks = [c]
  clock : p.document.clock = some (clockText E (getTimeRemaining E c.endtime current))
  leaving : (getTimeRemaining E c.endtime current).any Number.isNonpositive = true → p.leaving = true

/-- The clock of a page is as it was, and the time was not read in a session. -/
structure ClockKept (p p' : Page) (sc : Screen) (e : Event) : Prop where
  clocks : p'.clocks = p.clocks
  clock : p'.document.clock = p.document.clock
  leaving : p.leaving = true → p'.leaving = true
  time : sc.inSession = true → e.time = none

theorem Written.of_kept {c : Clock} {current : Int} {e : Event} (h : Written E p c current)
    (hu : ClockKept p p' sc e) : Written E p' c current :=
  ⟨hu.clocks.trans h.clocks, hu.clock.trans h.clock, fun hover => hu.leaving (h.leaving hover)⟩

/-- A session that appears. -/
theorem written_showSession (hclocks : p.clocks = []) (data : Value) (current : Int)
    (rows cols : Nat) :
    Written E (p.showSession E data current rows cols) ⟨data.get "expiry", true⟩ current := by
  rw [showSession_eq]
  refine ⟨?_, rfl, fun hover => ?_⟩
  · show p.clocks ++ [_] = _
    rw [hclocks]
    rfl
  · show (p.leaving || _) = true
    rw [hover, Bool.or_true]

/-- A page has one clock at most. -/
theorem Depicts.only_clock (hd : Depicts p sc) {c : Clock} (hc : c ∈ p.clocks) : p.clocks = [c] := by
  have hlen : p.clocks.length = 1 := by
    cases hin : sc.inSession with
    | true => exact (hd.holding.inside hin).1
    | false =>
      rw [(hd.holding.outside hin).1] at hc
      cases hc
  obtain ⟨c', hc'⟩ := List.length_eq_one_iff.mp hlen
  rw [hc'] at hc ⊢
  rw [List.mem_singleton.mp hc]

/-- A tick of the only clock. -/
theorem written_tick (hd : Depicts p sc) {i : Nat} {current : Int}
    (hp : p.tick E i current = some p') : ∃ c, Written E p' c current := by
  unfold Page.tick at hp
  obtain ⟨c, hc, hp⟩ := Option.bind_eq_some_iff.mp hp
  have hclocks := hd.only_clock (List.mem_of_getElem? hc)
  have hi : i < p.clocks.length := (List.getElem?_eq_some_iff.mp hc).1
  rw [hclocks, List.length_singleton] at hi
  obtain rfl : i = 0 := by omega
  split at hp
  · rw [updateClock_eq] at hp
    cases hp
    have hover : (getTimeRemaining E c.endtime current).any Number.isNonpositive = true →
        (p.leaving || (getTimeRemaining E c.endtime current).any Number.isNonpositive) = true := by
      intro hover
      rw [hover, Bool.or_true]
    split
    · refine ⟨{ c with ticking := false }, ?_, rfl, hover⟩
      show p.clocks.set 0 _ = _
      rw [hclocks]
      rfl
    · exact ⟨c, hclocks, rfl, hover⟩
  · cases hp

theorem Kept.clockKept (h : Kept p p') {e : Event} (ht : sc.inSession = true → e.time = none) :
    ClockKept p p' sc e :=
  ⟨h.clocks, h.clock, fun hl => h.leaving.trans hl, ht⟩

/-- A screen that waits for an answer is no session. -/
theorem outside_of_awaits {g : Get} (h : sc.awaits g = true) : sc.inSession = false := by
  rcases Screen.eq_of_awaits h with ⟨-, rfl⟩ | ⟨-, rfl⟩ | ⟨-, -, rfl⟩ <;> rfl

theorem clock_answered (hd : Depicts p sc) {g : Get} (hg : sc.awaits g = true) (data : Option Value)
    (current : Int) (rows cols : Nat) :
    Kept p (p.answered E g data current rows cols) ∨
      ∃ c, Written E (p.answered E g data current rows cols) c current := by
  cases g with
  | status =>
    cases data with
    | none => exact .inl ⟨rfl, rfl, rfl, rfl, rfl, rfl, rfl, rfl⟩
    | some data => exact .inl (onStatus_kept data)
  | terms =>
    cases data with
    | none => exact .inl (.refl p)
    | some data => exact .inl (onTerms_kept data)
  | info id =>
    cases data with
    | none => exact .inl ⟨rfl, rfl, rfl, rfl, rfl, rfl, rfl, rfl⟩
    | some data =>
      show Kept p (p.onInfo E data current rows cols) ∨
        ∃ c, Written E (p.onInfo E data current rows cols) c current
      unfold Page.onInfo
      split
      · exact .inl (.refl p)
      · split
        · exact .inl (.draw rfl rfl)
        · exact .inr ⟨_, written_showSession (hd.holding.outside (outside_of_awaits hg)).1 ..⟩

/-- No session is shown while one is being started. -/
theorem time_of_starting (e : Event) (h : Screen.starting.inSession = true) : e.time = none := by
  cases h

theorem clock_onRecord (hd : Depicts p .starting) (data : Value) (current : Int) (rows cols : Nat) :
    ClockKept p (p.onRecord E data current rows cols) .starting (.complete 0 current rows cols) ∨
      ∃ c, Written E (p.onRecord E data current rows cols) c current := by
  unfold Page.onRecord
  split
  · exact .inl ((Kept.refl p).clockKept (time_of_starting _))
  · split
    · split
      · exact .inl ⟨rfl, rfl, fun _ => rfl, time_of_starting _⟩
      · exact .inl ((refuse_kept _).clockKept (time_of_starting _))
    · exact .inr ⟨_, written_showSession (hd.holding.outside rfl).1 ..⟩

/-- An event writes the clock, or leaves it as it is. -/
theorem clock_step (hd : Depicts p sc) {e : Event} (hstep : p.step E e = some p') :
    ClockKept p p' sc e ∨ ∃ c current, e.time = some current ∧ Written E p' c current := by
  cases e with
  | answer g data current rows cols =>
    simp only [Page.step, Option.ite_none_right_eq_some, Option.some.injEq] at hstep
    obtain ⟨hg, rfl⟩ := hstep
    have hawaits := hd.asking.awaited g hg
    have hsettled : Depicts { p with pending := p.pending.erase g } sc := by
      rw [hd.asking.erase hg]
      exact ⟨hd.drawn, hd.statusClass, hd.asking.settled, hd.holding⟩
    rcases clock_answered (E := E) hsettled hawaits data current rows cols with hk | ⟨c, hc⟩
    · exact .inl ⟨hk.clocks, hk.clock, fun hl => hk.leaving.trans hl, fun hin => by
        rw [outside_of_awaits hawaits] at hin
        cases hin⟩
    · exact .inr ⟨c, current, rfl, hc⟩
  | accept =>
    simp only [Page.step, Option.ite_none_right_eq_some, Option.some.injEq] at hstep
    obtain ⟨-, rfl⟩ := hstep
    exact .inl ⟨rfl, rfl, id, fun _ => rfl⟩
  | progress i response => exact .inl ((progress_kept hstep).clockKept fun _ => rfl)
  | complete i current rows cols =>
    obtain ⟨s, hs, rfl⟩ := Option.map_eq_some_iff.mp hstep
    obtain ⟨hget, hover⟩ := of_start hs
    obtain ⟨rfl, rfl, hstarts⟩ := hd.asking.running hget hover
    have hset : Depicts (p.settle 0 s) .starting := hd.setStart hstarts ⟨s.terms, s.client, true⟩ rfl
    split
    · exact .inl ⟨rfl, rfl, id, time_of_starting _⟩
    · rename_i data _
      rcases clock_onRecord (E := E) hset data current rows cols with hk | ⟨c, hc⟩
      · exact .inl ⟨hk.clocks, hk.clock, hk.leaving, time_of_starting _⟩
      · exact .inr ⟨c, current, rfl, hc⟩
  | fail i =>
    obtain ⟨s, -, rfl⟩ := Option.map_eq_some_iff.mp hstep
    exact .inl ⟨rfl, rfl, id, fun _ => rfl⟩
  | tick i current =>
    obtain ⟨c, hc⟩ := written_tick hd hstep
    exact .inr ⟨c, current, rfl, hc⟩
  | opened i =>
    unfold Page.step Page.opened at hstep
    obtain ⟨socket, -, hstep⟩ := Option.bind_eq_some_iff.mp hstep
    obtain ⟨term, -, hstep⟩ := Option.bind_eq_some_iff.mp hstep
    obtain ⟨sock, -, hstep⟩ := Option.bind_eq_some_iff.mp hstep
    split at hstep
    · cases hstep
      exact .inl ⟨rfl, rfl, id, fun _ => rfl⟩
    · cases hstep
  | closed i =>
    unfold Page.step Page.closed at hstep
    obtain ⟨socket, -, hstep⟩ := Option.bind_eq_some_iff.mp hstep
    obtain ⟨term, -, hstep⟩ := Option.bind_eq_some_iff.mp hstep
    split at hstep
    · cases hstep
    · cases hstep
      split <;> exact .inl ⟨rfl, rfl, id, fun _ => rfl⟩
  | reconnect rows cols =>
    simp only [Page.step, Option.ite_none_right_eq_some, Option.some.injEq] at hstep
    obtain ⟨-, rfl⟩ := hstep
    exact .inl ⟨rfl, rfl, id, fun _ => rfl⟩
  | submit f =>
    simp only [Page.step, Option.ite_none_right_eq_some, Option.some.injEq] at hstep
    obtain ⟨-, rfl⟩ := hstep
    exact .inl ⟨rfl, rfl, id, fun _ => rfl⟩
  | goback =>
    simp only [Page.step, Option.ite_none_right_eq_some, Option.some.injEq] at hstep
    obtain ⟨-, rfl⟩ := hstep
    exact .inl ⟨rfl, rfl, fun _ => rfl, fun _ => rfl⟩

theorem lastTime_concat (es : List Event) (e : Event) :
    lastTime (es ++ [e]) = e.time.or (lastTime es) := by
  unfold lastTime
  rw [List.filterMap_append]
  cases h : e.time <;> simp [h]

/-- The page before the last of some events. -/
theorem of_after_concat {es : List Event} {e : Event} (h : after E p₀ (es ++ [e]) = some p') :
    ∃ p, after E p₀ es = some p ∧ p.step E e = some p' := by
  unfold after at h
  rw [Reactive.handle_append] at h
  obtain ⟨p, hp, hlast⟩ := Option.bind_eq_some_iff.mp h
  unfold Reactive.handle at hlast
  rw [if_pos rfl] at hlast
  obtain ⟨q, hq, hnil⟩ := Option.bind_eq_some_iff.mp hlast
  cases hnil
  exact ⟨p, hp, hq⟩

/-- In a session the clock was written at the last time that was read. -/
theorem written_after (hload : load E search = some p₀) {es : List Event}
    (hes : after E p₀ es = some p) {c : Clock} (hc : p.clocks = [c]) :
    ∃ current, lastTime es = some current ∧ Written E p c current := by
  induction es using List.reverseRecOn generalizing p c with
  | nil =>
    cases hes
    obtain ⟨id, -, rfl⟩ := Option.map_eq_some_iff.mp hload
    cases hc
  | append_singleton es e ih =>
    obtain ⟨q, hq, hstep⟩ := of_after_concat hes
    have hrun : (machine E).Run Reactive.anyEvent p₀ q :=
      Reactive.run_of_handle (fun _ _ _ => trivial) hq
    obtain ⟨id, sc, -, -, hd⟩ := depicts_run hload hrun
    rw [lastTime_concat]
    rcases clock_step hd hstep with hk | ⟨c', current, htime, hw⟩
    · have hqc : q.clocks = [c] := hk.clocks.symm.trans hc
      obtain ⟨current, hlast, hw⟩ := ih hq hqc
      have hin : sc.inSession = true := by
        by_contra hout
        rw [(hd.holding.outside (Bool.eq_false_iff.mpr hout)).1] at hqc
        cases hqc
      rw [hk.time hin]
      exact ⟨current, hlast, hw.of_kept hk⟩
    · cases hc.symm.trans hw.clocks
      rw [htime]
      exact ⟨current, rfl, hw⟩

theorem getTimeRemaining_eq {endtime : Option Value} {expiry current : Int}
    (h : E.number endtime = some (.finite expiry)) (hexpiry : expiry < 2 ^ 53)
    (hcurrent : 0 ≤ current) :
    getTimeRemaining E endtime current = some (.finite ((expiry - current).toNat : ℕ)) := by
  unfold getTimeRemaining
  simp only [h, Number.sub, Option.bind_eq_bind, Option.bind_some, Option.some.injEq]
  by_cases hover : expiry < current
  · have hneg : (expiry : ℚ) - current < 0 := sub_neg.mpr (by exact_mod_cast hover)
    have hzero : (expiry - current).toNat = 0 := by omega
    rw [hzero, Nat.cast_zero]
    rcases Number.isNegative_ofRat hneg with hisneg | hiszero
    · rw [if_pos hisneg]
    · rw [hiszero, ite_self]
  · have hdiff : (expiry : ℚ) - current = ((expiry - current).toNat : ℕ) := by
      have hcast : (((expiry - current).toNat : ℕ) : ℤ) = expiry - current := by omega
      exact_mod_cast congrArg (Int.cast (R := ℚ)) hcast.symm
    rw [hdiff, Number.ofRat_natCast (by omega)]
    exact if_neg (by simp [Number.isNegative])

theorem time_of_lastTime {es : List Event} {current : Int} (h : lastTime es = some current) :
    ∃ e ∈ es, e.time = some current := by
  obtain ⟨e, he, htime⟩ := List.mem_filterMap.mp (List.mem_of_getLast? h)
  exact ⟨e, he, htime⟩

/-- However the page has come to show a session, its clock shows the time that remained when the
    time was last read, modulo 100 minutes; and the page has been left if no time remained.  The
    expiry is one that a double tells apart from the next second. -/
theorem clock_shows_remaining (hload : load E search = some p₀) {es : List Event}
    (hes : after E p₀ es = some p) {c : Clock} (hc : c ∈ p.clocks) {expiry : Int}
    (hexpiry : E.number c.endtime = some (.finite expiry)) (hsmall : expiry < 2 ^ 53)
    (htimes : ∀ e ∈ es, ∀ current, e.time = some current → 0 ≤ current) :
    ∃ current clock, lastTime es = some current ∧ p.document.clock = some clock ∧
      shownSeconds clock = (expiry - current).toNat % 6000 ∧
      (expiry ≤ current → p.leaving = true) := by
  have hrun : (machine E).Run Reactive.anyEvent p₀ p :=
    Reactive.run_of_handle (fun _ _ _ => trivial) hes
  obtain ⟨id, sc, -, -, hd⟩ := depicts_run hload hrun
  obtain ⟨current, hlast, hw⟩ := written_after hload hes (hd.only_clock hc)
  obtain ⟨e, he, htime⟩ := time_of_lastTime hlast
  have hcurrent := htimes e he current htime
  have hremaining := getTimeRemaining_eq hexpiry hsmall hcurrent
  refine ⟨current, _, hlast, hw.clock, ?_, fun hle => hw.leaving ?_⟩
  · rw [hremaining]
    exact shownSeconds_clockText E (by omega)
  · have hzero : (expiry - current).toNat = 0 := by omega
    rw [hremaining, hzero]
    simp [Number.isNonpositive]

/-- A link to a session is opened, and its clock ticks once. -/
def linkedVisit : List Event :=
  [.answer (.info (ofString "s")) (some (.obj [(ofString "id", .str (ofString "s")),
    (ofString "expiry", .num (.finite 4000))])) 1000 24 80, .tick 0 1500]

theorem clock_shows_remaining_linked : ∃ (p₀ p : Page) (c : Clock),
    load plain (ofString "?id=s") = some p₀ ∧ after plain p₀ linkedVisit = some p ∧ c ∈ p.clocks ∧
    ∃ current clock, lastTime linkedVisit = some current ∧ p.document.clock = some clock ∧
      shownSeconds clock = ((4000 : Int) - current).toNat % 6000 ∧
      ((4000 : Int) ≤ current → p.leaving = true) := by
  have hpage : ((load plain (ofString "?id=s")).bind fun p => after plain p linkedVisit).any
      (fun p => p.clocks.any fun c =>
        decide (plain.number c.endtime = some (.finite ((4000 : Int) : ℚ)))) = true := by
    decide +kernel
  obtain ⟨p, hp, hclocks⟩ := (Option.any_eq_true _ _).mp hpage
  obtain ⟨p₀, hload, hes⟩ := Option.bind_eq_some_iff.mp hp
  obtain ⟨c, hc, hexpiry⟩ := List.any_eq_true.mp hclocks
  refine ⟨p₀, p, c, hload, hes, hc,
    clock_shows_remaining hload hes hc (of_decide_eq_true hexpiry) (by decide) ?_⟩
  decide

-- ============================================================================
-- The location
-- ============================================================================

/-- A letter, a digit or a hyphen, of which ids are made. -/
def isPlain (c : CodeUnit) : Bool :=
  isDigit c || decide ('a'.toNat ≤ c ∧ c ≤ 'z'.toNat) || decide ('A'.toNat ≤ c ∧ c ≤ 'Z'.toNat) ||
    decide (c = '-'.toNat)

/-- The query that `pushState` gives to the location. -/
def queryOf (id : JsString) : JsString := ofString "?id=" ++ id

/-- What `pushState` has written is what `getUrlParameter` reads. -/
theorem getUrlParameter_queryOf
    (hdecode : ∀ s, '%'.toNat ∉ s → E.decodeURIComponent s = some s) {id : JsString}
    (hplain : ∀ c ∈ id, isPlain c = true) : getUrlParameter E (queryOf id) "id" = some id := by
  have hnot : ∀ d : CodeUnit, isPlain d = false → d ∉ id := by
    intro d hd hmem
    rw [hplain d hmem] at hd
    cases hd
  have hquery : (queryOf id).drop 1 = ofString "id" ++ '='.toNat :: id := rfl
  have hname : ∀ d : CodeUnit, d ∉ ofString "id" → d ≠ '='.toNat → isPlain d = false →
      d ∉ ofString "id" ++ '='.toNat :: id := by
    intro d hd hne hp hmem
    rcases List.mem_append.mp hmem with hmem | hmem
    · exact hd hmem
    · rcases List.mem_cons.mp hmem with rfl | hmem
      · exact hne rfl
      · exact hnot d hp hmem
  unfold getUrlParameter
  rw [hquery, hdecode _ (hname _ (by decide) (by decide) (by decide)), Option.map_some,
    List.splitOn_eq_singleton (hname _ (by decide) (by decide) (by decide))]
  unfold urlVariable
  rw [List.splitOn_append_cons_self_of_not_mem (by decide),
    List.splitOn_eq_singleton (hnot _ (by decide))]
  dsimp only
  rw [if_pos rfl, if_neg fun hslash => hnot _ (by decide) (List.mem_of_getLast? hslash)]

theorem infoJson_lookup (consoleOnly : Bool) (id : String) (f : Found) :
    (infoJson consoleOnly id f).lookup "status" = some (.num StatusCode.instanceStarted.code) ∧
      (infoJson consoleOnly id f).lookup "id" = some (.str id) := by
  cases consoleOnly <;> exact ⟨rfl, rfl⟩

/-- A page that shows a session is reloaded: it asks for the session of its location, and if the
    server has an answer it shows the same session again, and starts none. -/
theorem reload_shows_session
    (hdecode : ∀ s, '%'.toNat ∉ s → E.decodeURIComponent s = some s) {linked rated : Bool}
    (h : Depicts p (.session linked rated)) {id : String}
    (hid : p.console = some (.str (ofString id))) (hne : id ≠ "")
    (hplain : ∀ c ∈ ofString id, isPlain c = true) {w : World} {r : Request} {body : JsonObject}
    (hr : r.formValue "id" = id) (hanswer : Informs w r body) (current : Int) (rows cols : Nat) :
    ∃ q₀ q, load E (queryOf (ofString id)) = some q₀ ∧
      after E q₀ [.answer (.info (ofString id)) (some (asRead body)) current rows cols] = some q ∧
      Depicts q (.session true false) ∧ q.location = p.location ∧ q.starts = [] := by
  obtain ⟨-, -, -, f, -, hbody⟩ := informs_iff.mp hanswer
  rw [hr] at hbody
  obtain ⟨hstatus, hbodyId⟩ := infoJson_lookup w.config.session.consoleOnly id f
  rw [← hbody] at hstatus hbodyId
  have hstring : ofString id ≠ [] := fun hnil => hne (ofString_injective hnil)
  have hquery := getUrlParameter_queryOf hdecode hplain
  have hload : load E (queryOf (ofString id)) =
      some ((blank (ofString id)).ask (.info (ofString id))) := by
    unfold load
    rw [hquery, Option.map_some, if_neg hstring]
  obtain ⟨id', hid', hd⟩ := depicts_load hload
  obtain rfl : ofString id = id' := Option.some.inj (hquery.symm.trans hid')
  rw [decide_eq_true hstring] at hd
  have hd₁ : Depicts (blank (ofString id)) (.loading true) :=
    ⟨hd.drawn, hd.statusClass, hd.asking.settled, hd.holding⟩
  have hshows : (blank (ofString id)).onInfo E (asRead body) current rows cols =
      (blank (ofString id)).showSession E (asRead body) current rows cols :=
    if_neg fun herror => (isError_iff hstatus).mp herror rfl
  have hstep : ((blank (ofString id)).ask (.info (ofString id))).step E
      (.answer (.info (ofString id)) (some (asRead body)) current rows cols) =
      some ((blank (ofString id)).showSession E (asRead body) current rows cols) := by
    rw [← hshows]
    show (if Get.info (ofString id) ∈ [Get.info (ofString id)] then _ else none) = _
    rw [if_pos (List.mem_singleton_self _)]
    show some (Page.answered E { blank (ofString id) with
      pending := [Get.info (ofString id)].erase (.info (ofString id)) } _ _ _ _ _) = _
    rw [List.erase_cons_head]
    rfl
  refine ⟨_, _, hload, after_cons hstep [], ?_, ?_, ?_⟩
  · exact hd₁.showSession rfl (fun s hs => absurd hs List.not_mem_nil) (.inl ⟨rfl, rfl⟩) ..
  · rw [(h.holding.inside rfl).2, hid, showSession_eq]
    show some ((asRead body).get "id") = _
    rw [get_asRead, hbodyId]
    rfl
  · rw [showSession_eq]
    rfl

/-- A server that has the session with this id. -/
def serverOf (id : String) : World :=
  { smallWorld [(id, "10.0.0.1")] with incusDaemon := some ⟨"", ""⟩ }

/-- The session of the page has this id. -/
def names (id : String) (p : Page) : Bool :=
  match p.console with
  | some (.str s) => decide (s = ofString id)
  | _ => false

theorem console_of_names {id : String} (h : names id p = true) :
    p.console = some (.str (ofString id)) := by
  unfold names at h
  split at h
  · rename_i s hs
    rw [hs, of_decide_eq_true h]
  · cases h

theorem reload_shows_session_visit : ∃ (p : Page) (linked rated : Bool) (body : JsonObject),
    Depicts p (.session linked rated) ∧ p.console = some (.str (ofString "s")) ∧
    Informs (serverOf "s") (infoRequest "s") body ∧
    ∃ q₀ q, load plain (queryOf (ofString "s")) = some q₀ ∧
      after plain q₀ [.answer (.info (ofString "s")) (some (asRead body)) 0 24 80] = some q ∧
      Depicts q (.session true false) ∧ q.location = p.location ∧ q.starts = [] := by
  obtain ⟨p₀, p, hload, hrun, hgood⟩ := visit_run (visit.take 7)
    (fun p => p.document.visible .feedbackPanel && names "s" p) (by decide +kernel)
  obtain ⟨hv, hnames⟩ := Bool.and_eq_true_iff.mp hgood
  obtain ⟨id, sc, -, -, hd⟩ := depicts_run hload hrun
  rw [hd.visible (by decide)] at hv
  obtain ⟨linked, rfl⟩ := Screen.unrated_of_shows hv
  have hid := console_of_names hnames
  obtain ⟨f, hf⟩ : ∃ f, (serverOf "s").db.getInstance "s" false = some f :=
    Option.isSome_iff_exists.mp (by decide +kernel)
  have hanswer : Informs (serverOf "s") (infoRequest "s")
      (infoJson (serverOf "s").config.session.consoleOnly "s" f) :=
    informs_iff.mpr ⟨rfl, by decide, by decide, f, hf, rfl⟩
  have hdecode : ∀ s : JsString, '%'.toNat ∉ s → plain.decodeURIComponent s = some s :=
    fun s hs => if_neg hs
  exact ⟨p, linked, false, _, hd, hid, hanswer,
    reload_shows_session hdecode hd hid (by decide) (by decide) rfl hanswer 0 24 80⟩

end Page
end IncusDemo
