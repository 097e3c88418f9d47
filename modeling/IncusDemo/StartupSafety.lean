/-
  IncusDemo.StartupSafety

  The startup goroutine works from listings while requests are served.  It
  goes by the row as it was when it listed it, so it spares a session of the
  present process as long as no request claims a row that is still on one of
  its lists.  `StartupInvariant` says what the lists are then good for: a row
  on them is still as it was listed.
-/

import IncusDemo.Resync

namespace IncusDemo

open Go Conc

/-- A request of the present process has been given session `id`. -/
def HandedOut (s : Sys) (id : Nat) : Prop :=
  ∃ u q m ip name expiry, Runs s u q m ∧ StartFrom q ip ∧ HasSession m id name expiry

/-- The event ends session `id`, or deletes the instance `name`. -/
def Ends (e : Event) (id : Nat) (name : String) : Prop :=
  e = ⟨.query (.dbExpire id), .ok ()⟩ ∨ e = ⟨.query (.dbDelete id), .ok ()⟩ ∨
  ∃ d, e = ⟨.wait d (.deleteInstance name), .ok ()⟩

/-- The startup goroutine ends no session that a request of this process was given while the
    session is active and its expiry lies in the future, and deletes no instance that a request
    is about to record. -/
structure StartupSpares (s : Sys) : Prop where
  sessions : ∀ t l e s' id a, Runs s t .connect l → server.Step s (.thread t e) s' →
    HandedOut s id → s.world.db.Row id a → a.status = 0 →
    s.world.clock.nano < a.instanceExpiry * 10 ^ 9 → ¬ Ends e id a.instanceName
  attempts : ∀ t l e s' u q m ip v d, Runs s t .connect l → server.Step s (.thread t e) s' →
    Runs s u q m → StartFrom q ip → (attempt m).pending = some v →
    e ≠ ⟨.wait d (.deleteInstance (nameOf v)), .ok ()⟩

/-- The thread has sent the record `info` of session `id` to the client. -/
def Delivered (l : Log) (id : Nat) (info : Info) : Prop :=
  (∃ x, HasSession l id info.name x) ∧ ⟨.encode info.json, .ok ()⟩ ∈ l

/-- A request of the present process has answered with session `id`. -/
def Answered (s : Sys) (id : Nat) : Prop :=
  ∃ u q m ip info, Runs s u q m ∧ StartFrom q ip ∧ Delivered m id info

/-- The startup goroutine ends no session that a request of this process has answered with, while
    the session is active and its expiry lies in the future. -/
def SparesAnswered (s : Sys) : Prop :=
  ∀ t l e s' id a, Runs s t .connect l → server.Step s (.thread t e) s' → Answered s id →
    s.world.db.Row id a → a.status = 0 → s.world.clock.nano < a.instanceExpiry * 10 ^ 9 →
    ¬ Ends e id a.instanceName

theorem StartupSpares.answered {s : Sys} (h : StartupSpares s) : SparesAnswered s := by
  rintro t l e s' id a hr hs ⟨u, q, m, ip, info, hr', hq, ⟨x, hsession⟩, -⟩
  exact h.sessions t l e s' id a hr hs ⟨u, q, m, ip, info.name, x, hr', hq, hsession⟩

/-- The steps on which the startup goroutine and the requests stay out of each other's way. -/
structure OutOfTheWay (s : Sys) (l : Label) : Prop where
  /-- The resync at startup asks for no instance that was returned to a request which has not
      recorded it yet. -/
  asks : ∀ t m name exists_, l = .thread t ⟨.query (.dbShouldExist name), .ok exists_⟩ →
    Runs s t .connect m → ∀ u q n v ip, Runs s u q n → StartFrom q ip →
    attempt n = .returned v → nameOf v ≠ name
  /-- No row is claimed that is still on a list of the startup goroutine, nor one whose instance
      it has just found to have no row. -/
  claims : ∀ id, claims l = some id → ∀ t m, Runs s t .connect m →
    (∀ x ∈ restoring m, x.id ≠ id) ∧ (∀ x ∈ former m, x.id ≠ id) ∧
    ∀ names name a, pass m = .missing names name → s.world.db.Row id a → a.instanceName ≠ name
  /-- When the startup goroutine looks at a session of this process that ends in the future,
      the rest of the session fits a `time.Duration`. -/
  fits : ∀ t m x rest now, l = .thread t ⟨.now, now⟩ → Runs s t .connect m →
    restoring m = x :: rest → HandedOut s x.id → now.nano < x.instanceExpiry * 10 ^ 9 →
    x.instanceExpiry - now.unix ≤ maxSeconds
  /-- The wall clock does not go backwards. -/
  forward : ∀ now, l = .env (.tick now) → s.world.clock ≤ now

-- ============================================================================
-- Lists and sessions, over one step
-- ============================================================================

/-- A row as the startup goroutine listed it. -/
theorem row_of_listed {db : Db} {status : Nat} {x : Listed} (h : x ∈ db.listStatus status) :
    ∃ a, db.Row x.id a ∧ a.status = status ∧ x.instanceExpiry = a.instanceExpiry := by
  obtain ⟨a, ha, hstatus, he⟩ := mem_listStatus.mp h
  exact ⟨a, ha, hstatus, congrArg Listed.instanceExpiry he⟩

section Steps

variable {w₀ : World} {s s' : Sys} {t : Nat} {p : Proc} {l : Log} {e : Event}

/-- A session that has been handed out after a step was so before, or is begun by it. -/
theorem handedOut_cases (hm : ThreadStep s t p l e s') {id : Nat} (h : HandedOut s' id) :
    HandedOut s id ∨ claims (.thread t e) = some id ∨ ∃ row, e = ⟨.query (.dbNew row), .ok id⟩ := by
  obtain ⟨u, q, m, ip, name, expiry, hr, hq, hs⟩ := h
  rcases hm.runs_cases u q m hr with ⟨-, rfl, rfl⟩ | ⟨-, hr⟩ | ⟨-, rfl, -⟩
  · rcases hasSession_next hm.allowed hs with hs | ⟨-, date, ip', terms, -, rfl⟩ | ⟨row, he, -⟩
    · exact .inl ⟨t, q, l, ip, name, expiry, hm.runs, hq, hs⟩
    · exact .inr (.inl rfl)
    · exact .inr (.inr ⟨row, he⟩)
  · exact .inl ⟨u, q, m, ip, name, expiry, hr, hq, hs⟩
  · exact absurd hs not_hasSession_nil

theorem handedOut_cases_env {e : Env} (hm : EnvStep s e s') {id : Nat} (h : HandedOut s' id) :
    HandedOut s id := by
  obtain ⟨u, q, m, ip, name, expiry, hr, hq, hs⟩ := h
  rcases hm.runs_cases u q m hr with hr | ⟨rfl, -⟩
  · exact ⟨u, q, m, ip, name, expiry, hr, hq, hs⟩
  · exact absurd hs not_hasSession_nil

/-- An id that is known is not that of a row inserted now. -/
theorem known_not_inserted (hnamed : Named w₀ s) {id : Nat} {name : String} {row : Session}
    (hk : Names w₀ s id name) (hm : ThreadStep s t p l e s') :
    e ≠ ⟨.query (.dbNew row), .ok id⟩ := by
  rintro rfl
  obtain ⟨a, ha, -⟩ := hk
  exact ((inserted_fresh hnamed hm).2.2.2 id a ha).2 rfl

/-- Two ids that are of the same instance are the same. -/
theorem Named.names_unique (h : Named w₀ s) {id id' : Nat} {name : String}
    (hid : Names w₀ s id name) (hid' : Names w₀ s id' name) : id = id' := by
  obtain ⟨a, ha, hn⟩ := hid
  obtain ⟨b, hb, hn'⟩ := hid'
  refine h.apart id id' a b ha hb (nameOf_injective ?_)
  rw [← (h.drawn id a ha).2, ← (h.drawn id' b hb).2, hn, hn']

/-- An id is of one instance. -/
theorem Named.name_unique (h : Named w₀ s) {id : Nat} {name name' : String}
    (hn : Names w₀ s id name) (hn' : Names w₀ s id name') : name = name' := by
  obtain ⟨a, ha, rfl⟩ := hn
  obtain ⟨b, hb, rfl⟩ := hn'
  rw [h.unique id a b ha hb]

theorem Named.names_of_row (h : Named w₀ s) {id : Nat} {a : Session} (ha : s.world.db.Row id a) :
    Names w₀ s id a.instanceName := by
  obtain ⟨b, hb, hsame⟩ := h.rows id a ha
  exact ⟨b, hb, hsame.name.symm⟩

/-- An instance that is made and not recorded is of no row. -/
theorem Named.not_names_unrecorded (h : Named w₀ s) {u : Nat} {q : Proc} {m : Log} {v : String}
    {id : Nat} (hr : Runs s u q m) (hv : (attempt m).unrecorded = some v) :
    ¬ Names w₀ s id (nameOf v) := by
  rintro ⟨a, ha, hn⟩
  exact (h.unrecorded u q m v hr hv).2 id a ha
    (nameOf_injective ((h.drawn id a ha).2.symm.trans hn))

end Steps

theorem unrecorded_of_pending {a : Attempt} {v : String} (h : a.pending = some v) :
    a.unrecorded = some v := by
  cases a <;> first | exact h | cases h

-- ============================================================================
-- The invariant
-- ============================================================================

/-- What stands on the lists of the startup goroutine is still as it was listed. -/
structure StartupInvariant (s : Sys) : Prop where
  restoring : ∀ t l x a, Runs s t .connect l → x ∈ restoring l → s.world.db.Row x.id a →
    a.instanceExpiry = x.instanceExpiry
  former : ∀ t l x a, Runs s t .connect l → x ∈ former l → s.world.db.Row x.id a → a.status = 2
  examined : ∀ t l x now, Runs s t .connect l → x ∈ IncusDemo.restoring l → ExaminedAt l x now →
    now ≤ s.world.clock ∧ (HandedOut s x.id → now.nano < x.instanceExpiry * 10 ^ 9 →
      x.instanceExpiry - now.unix ≤ maxSeconds)
  pending : ∀ t l names name, Runs s t .connect l → pass l = .missing names name →
    ∀ u q m ip v, Runs s u q m → StartFrom q ip → (attempt m).pending = some v → nameOf v ≠ name
  inactive : ∀ t l names name, Runs s t .connect l → pass l = .missing names name →
    ∀ id a, s.world.db.Row id a → a.instanceName = name → a.status ≠ 0

section Invariant

variable {w₀ : World} {s s' : Sys} {t : Nat} {p : Proc} {l : Log} {e : Event}

theorem StartupInvariant.restoring_after (hregular : Regular w₀ s) (h : StartupInvariant s)
    (hC : OutOfTheWay s (.thread t e)) (hm : ThreadStep s t p l e s') :
    ∀ u m x a, Runs s' u .connect m → x ∈ IncusDemo.restoring m → s'.world.db.Row x.id a →
      a.instanceExpiry = x.instanceExpiry := by
  intro u m x a hr hx ha
  have hold : ∀ u m, Runs s u .connect m → x ∈ IncusDemo.restoring m →
      a.instanceExpiry = x.instanceExpiry := by
    intro u m hr hx
    obtain ⟨es, hes, hxs⟩ := mem_of_restoring hx
    have hnames := hregular.named.active u _ m es x hr.ran hes hxs
    cases row_after hm.did ha with
    | kept ha => exact h.restoring u m x a hr hx ha
    | inserted he _ => exact absurd he (known_not_inserted hregular.named hnames hm)
    | expired b _ hb ha =>
      rw [ha]
      exact h.restoring u m x b hr hx hb
    | claimed b _ _ _ _ he _ _ =>
      subst he
      exact absurd rfl ((hC.claims x.id rfl u m hr).1 x hx)
  rcases hm.runs_cases u _ m hr with ⟨rfl, rfl, rfl⟩ | ⟨-, hr⟩ | ⟨-, rfl, -⟩
  · rcases restoring_next hx with hx | ⟨es, rfl, hx⟩
    · exact hold u l hm.runs hx
    · have hes : es = s.world.db.listStatus 0 := hm.did.truthful
      have hdb : s'.world.db = s.world.db := hm.did.db
      rw [hes] at hx
      obtain ⟨b, hb, -, hexpiry⟩ := row_of_listed hx
      rw [hdb] at ha
      rw [hexpiry, row_unique ha hb]
  · exact hold u m hr hx
  · cases hx

theorem StartupInvariant.former_after (hregular : Regular w₀ s)
    (h : StartupInvariant s) (hC : OutOfTheWay s (.thread t e)) (hm : ThreadStep s t p l e s') :
    ∀ u m x a, Runs s' u .connect m → x ∈ IncusDemo.former m → s'.world.db.Row x.id a →
      a.status = 2 := by
  intro u m x a hr hx ha
  have hold : ∀ u m, Runs s u .connect m → x ∈ IncusDemo.former m → a.status = 2 := by
    intro u m hr hx
    obtain ⟨es, hes, hxs⟩ := mem_of_former hx
    have hnames := hregular.named.allocated u _ m es x hr.ran hes hxs
    cases row_after hm.did ha with
    | kept ha => exact h.former u m x a hr hx ha
    | inserted he _ => exact absurd he (known_not_inserted hregular.named hnames hm)
    | expired b he hb _ =>
      -- only sessions that have begun are expired
      subst he
      have hle := (begun_of_expires hregular.started hm.runs.ran hm.allowed).status b hb
      rw [h.former u m x b hr hx hb] at hle
      exact absurd hle (by decide)
    | claimed b _ _ _ _ he _ _ =>
      subst he
      exact absurd rfl ((hC.claims x.id rfl u m hr).2.1 x hx)
  rcases hm.runs_cases u _ m hr with ⟨rfl, rfl, rfl⟩ | ⟨-, hr⟩ | ⟨-, rfl, -⟩
  · rcases former_next hx with hx | ⟨es, rfl, hx⟩
    · exact hold u l hm.runs hx
    · have hes : es = s.world.db.listStatus 2 := hm.did.truthful
      have hdb : s'.world.db = s.world.db := hm.did.db
      rw [hes] at hx
      obtain ⟨b, hb, hstatus, -⟩ := row_of_listed hx
      rw [hdb] at ha
      rw [row_unique ha hb, hstatus]
  · exact hold u m hr hx
  · cases hx

/-- The startup goroutine has come to a session after an event if it had before, or does now. -/
theorem examinedAt_cases {x : Listed} {now : Time} (h : ExaminedAt (e :: l) x now) :
    ExaminedAt l x now ∨ (e = ⟨.now, now⟩ ∧ ∃ rest, IncusDemo.restoring l = x :: rest) := by
  obtain ⟨l', rest, hs, hl⟩ := h
  rcases List.suffix_cons_iff.mp hs with heq | hs
  · cases heq
    exact .inr ⟨rfl, rest, hl⟩
  · exact .inl ⟨l', rest, hs, hl⟩

/-- A session that the startup goroutine has come to, it had listed. -/
theorem listed_of_examinedAt {x : Listed} {now : Time} (h : ExaminedAt l x now) :
    ∃ es, ⟨.query .dbActive, .ok es⟩ ∈ l := by
  obtain ⟨l', rest, hs, hl⟩ := h
  obtain ⟨es, hes, -⟩ := listed_of_restoring hl
  exact ⟨es, hs.subset (List.mem_cons_of_mem _ hes)⟩

theorem StartupInvariant.examined_after (hregular : Regular w₀ s)
    (h : StartupInvariant s) (hC : OutOfTheWay s (.thread t e)) (hm : ThreadStep s t p l e s') :
    ∀ u m x now, Runs s' u .connect m → x ∈ IncusDemo.restoring m → ExaminedAt m x now →
      now ≤ s'.world.clock ∧ (HandedOut s' x.id → now.nano < x.instanceExpiry * 10 ^ 9 →
        x.instanceExpiry - now.unix ≤ maxSeconds) := by
  intro u m x now hr hx hexam
  rw [hm.did.clock]
  -- a session on the list is not handed out by this step
  have hhanded : ∀ u m, Runs s u .connect m → x ∈ IncusDemo.restoring m → HandedOut s' x.id →
      HandedOut s x.id := by
    intro u m hr hx hh
    obtain ⟨es, hes, hxs⟩ := mem_of_restoring hx
    have hnames := hregular.named.active u _ m es x hr.ran hes hxs
    rcases handedOut_cases hm hh with hh | hc | ⟨row, he⟩
    · exact hh
    · exact absurd rfl ((hC.claims x.id hc u m hr).1 x hx)
    · exact absurd he (known_not_inserted hregular.named hnames hm)
  have hold : ∀ u m, Runs s u .connect m → x ∈ IncusDemo.restoring m → ExaminedAt m x now →
      now ≤ s.world.clock ∧ (HandedOut s' x.id → now.nano < x.instanceExpiry * 10 ^ 9 →
        x.instanceExpiry - now.unix ≤ maxSeconds) := by
    intro u m hr hx hexam
    obtain ⟨hle, hfits⟩ := h.examined u m x now hr hx hexam
    exact ⟨hle, fun hh => hfits (hhanded u m hr hx hh)⟩
  rcases hm.runs_cases u _ m hr with ⟨rfl, rfl, rfl⟩ | ⟨-, hr⟩ | ⟨-, rfl, -⟩
  · rcases examinedAt_cases hexam with hbefore | ⟨rfl, rest, hl⟩
    · rcases restoring_next hx with hx | ⟨es, rfl, -⟩
      · exact hold u l hm.runs hx hbefore
      · -- the list is read once
        obtain ⟨es', hes'⟩ := listed_of_examinedAt hbefore
        have honce : Allowed .connect l (.query .dbActive) := hm.allowed
        exact absurd hes' (honce.2.2 _)
    · have hnow : now = s.world.clock := hm.did.truthful
      have hx : x ∈ IncusDemo.restoring l := by rw [hl]; exact List.mem_cons_self ..
      exact ⟨hnow ▸ Nat.le_refl _, fun hh => hC.fits u l x rest now rfl hm.runs hl
        (hhanded u l hm.runs hx hh)⟩
  · exact hold u m hr hx hexam
  · cases hx

theorem StartupInvariant.pending_after (hlocked : Locked s) (h : StartupInvariant s)
    (hC : OutOfTheWay s (.thread t e)) (hm : ThreadStep s t p l e s') :
    ∀ u m names name, Runs s' u .connect m → pass m = .missing names name →
      ∀ v q n ip x, Runs s' v q n → StartFrom q ip → (attempt n).pending = some x →
        nameOf x ≠ name := by
  intro u m names name hr hpass v q n ip x hr' hq hx
  -- an attempt on its way after the step was so before, for the lock keeps others from drawing
  have hbefore : ∀ u m, Runs s u .connect m → pass m ≠ .idle →
      ∃ v n, Runs s v q n ∧ (attempt n).pending = some x := by
    intro u m hr hpass
    rcases hm.runs_cases v q n hr' with ⟨-, rfl, rfl⟩ | ⟨-, hr'⟩ | ⟨-, rfl, -⟩
    · rw [attempt_cons] at hx
      rcases pending_next hx with hx | ⟨-, ha⟩
      · exact ⟨t, l, hm.runs, hx⟩
      · have hin := hlocked.not_inside hr hpass hm.runs
        rw [ha] at hin
        cases hin
    · exact ⟨v, n, hr', hx⟩
    · cases hx
  have hold : ∀ m names, Runs s u .connect m → pass m = .missing names name →
      nameOf x ≠ name := by
    intro m names hr hpass
    obtain ⟨v', n', hr'', hx'⟩ := hbefore u m hr (by rw [hpass]; exact fun h => nomatch h)
    exact h.pending u m names name hr hpass v' q n' ip x hr'' hq hx'
  rcases hm.runs_cases u _ m hr with ⟨rfl, rfl, rfl⟩ | ⟨-, hr⟩ | ⟨-, rfl, -⟩
  · rcases missing_next hm.allowed hpass with hpass | ⟨rfl, hne⟩
    · exact hold l names hm.runs hpass
    · obtain ⟨v', n', hr'', hx'⟩ := hbefore u l hm.runs hne
      rcases inside_or_returned hx' with hin | hret
      · rw [hlocked.not_inside hm.runs hne hr''] at hin
        cases hin
      · exact hC.asks u l name false rfl hm.runs v' q n' x ip hr'' hq hret
  · exact hold m names hr hpass
  · cases hpass

theorem StartupInvariant.inactive_after (hregular : Regular w₀ s) (h : StartupInvariant s)
    (hC : OutOfTheWay s (.thread t e)) (hm : ThreadStep s t p l e s') :
    ∀ u m names name, Runs s' u .connect m → pass m = .missing names name →
      ∀ id a, s'.world.db.Row id a → a.instanceName = name → a.status ≠ 0 := by
  intro u m names name hr hpass id a ha hname
  have hold : ∀ m names, Runs s u .connect m → pass m = .missing names name → a.status ≠ 0 := by
    intro m names hr hpass
    cases row_after hm.did ha with
    | kept ha => exact h.inactive u m names name hr hpass id a ha hname
    | inserted he _ =>
      subst he
      have hmay : MayInsert p l a := hm.allowed
      rcases hmay.kind with ⟨-, hp, -⟩ | ⟨hstatus, -⟩
      · refine absurd (hmay.name.symm.trans hname) (h.pending u m names name hr hpass t p l _ _
          hm.runs hp ?_)
        rw [hmay.returned]
        rfl
      · rw [hstatus]
        exact fun h => nomatch h
    | expired b _ _ hs =>
      rw [hs]
      exact fun h => nomatch h
    | claimed b _ _ _ _ he hb hs =>
      subst he
      rw [hs] at hname
      exact absurd hname ((hC.claims id rfl u m hr).2.2 names name b hpass hb)
  rcases hm.runs_cases u _ m hr with ⟨rfl, rfl, rfl⟩ | ⟨-, hr⟩ | ⟨-, rfl, -⟩
  · rcases missing_next hm.allowed hpass with hpass | ⟨rfl, -⟩
    · exact hold l names hm.runs hpass
    · have hwf := hregular.wellFormed
      have hdb : s'.world.db = s.world.db := hm.did.db
      rw [hdb] at ha
      exact (noRow_of_shouldExist (fun _ _ _ _ ha ha' => hwf.names_unique ha ha')
        hm.did.truthful id a ha hname).1
  · exact hold m names hr hpass
  · cases hpass

theorem StartupInvariant.threadStep (hregular : Regular w₀ s) (hlocked : Locked s)
    (h : StartupInvariant s) (hC : OutOfTheWay s (.thread t e))
    (hm : ThreadStep s t p l e s') : StartupInvariant s' where
  restoring := h.restoring_after hregular hC hm
  former := h.former_after hregular hC hm
  examined := h.examined_after hregular hC hm
  pending := h.pending_after hlocked hC hm
  inactive := h.inactive_after hregular hC hm

theorem StartupInvariant.envStep {e : Env} (h : StartupInvariant s) (hC : OutOfTheWay s (.env e))
    (hm : EnvStep s e s') : StartupInvariant s' where
  restoring := by
    intro u m x a hr hx ha
    rw [hm.db] at ha
    rcases hm.runs_cases u _ m hr with hr | ⟨rfl, -⟩
    · exact h.restoring u m x a hr hx ha
    · cases hx
  former := by
    intro u m x a hr hx ha
    rw [hm.db] at ha
    rcases hm.runs_cases u _ m hr with hr | ⟨rfl, -⟩
    · exact h.former u m x a hr hx ha
    · cases hx
  examined := by
    intro u m x now hr hx hexam
    rcases hm.runs_cases u _ m hr with hr | ⟨rfl, -⟩
    · obtain ⟨hle, hfits⟩ := h.examined u m x now hr hx hexam
      refine ⟨?_, fun hh => hfits (handedOut_cases_env hm hh)⟩
      rcases hm.clock with hclock | ⟨now', rfl, hclock⟩
      · rw [hclock]
        exact hle
      · rw [hclock]
        exact Nat.le_trans hle (hC.forward now' rfl)
    · cases hx
  pending := by
    intro u m names name hr hpass v q n ip x hr' hq hx
    rcases hm.runs_cases u _ m hr with hr | ⟨rfl, -⟩
    · rcases hm.runs_cases v q n hr' with hr' | ⟨rfl, -⟩
      · exact h.pending u m names name hr hpass v q n ip x hr' hq hx
      · cases hx
    · cases hpass
  inactive := by
    intro u m names name hr hpass id a ha hname
    rw [hm.db] at ha
    rcases hm.runs_cases u _ m hr with hr | ⟨rfl, -⟩
    · exact h.inactive u m names name hr hpass id a ha hname
    · cases hpass

theorem Initial.startupInvariant (h0 : Initial s) : StartupInvariant s := by
  constructor
  · intro u m x a hr hx
    rw [(h0.ran hr.ran).2] at hx
    cases hx
  · intro u m x a hr hx
    rw [(h0.ran hr.ran).2] at hx
    cases hx
  · intro u m x now hr hx
    rw [(h0.ran hr.ran).2] at hx
    cases hx
  · intro u m names name hr hpass
    rw [(h0.ran hr.ran).2] at hpass
    cases hpass
  · intro u m names name hr hpass
    rw [(h0.ran hr.ran).2] at hpass
    cases hpass

/-- A session that ends in the future, and whose rest fits a duration, is not overdue. -/
theorem not_overdue {x : Listed} {now : Time} (hfuture : now.nano < x.instanceExpiry * 10 ^ 9)
    (hfits : x.instanceExpiry - now.unix ≤ maxSeconds) : ¬ overdue x now := by
  intro hover
  have hunix := now.unix_le_nano
  have hpos : 0 < x.instanceExpiry - now.unix := by omega
  have hsame : int64 (x.instanceExpiry - now.unix) = x.instanceExpiry - now.unix :=
    int64_of_bounds (by omega) (by unfold maxSeconds at hfits; omega)
  have hparse : parseDuration (x.instanceExpiry - now.unix) =
      .ok ((x.instanceExpiry - now.unix) * 10 ^ 9) := by
    unfold parseDuration
    rw [if_pos ⟨by unfold maxSeconds; omega, hfits⟩]
  have hle := hover _ (by rw [hsame]; exact hparse)
  rw [hsame] at hle
  omega

/-- The startup goroutine takes no session for over that this process has handed out and that
    ends in the future. -/
theorem StartupInvariant.not_overdue (h : StartupInvariant s) {x : Listed} {rest : List Listed}
    {now : Time} {a : Session} (hr : Runs s t .connect l) (hl : IncusDemo.restoring l = x :: rest)
    (hexam : ExaminedAt l x now) (hh : HandedOut s x.id) (ha : s.world.db.Row x.id a)
    (hfuture : s.world.clock.nano < a.instanceExpiry * 10 ^ 9) : ¬ overdue x now := by
  have hx : x ∈ IncusDemo.restoring l := by rw [hl]; exact List.mem_cons_self ..
  obtain ⟨hle, hfits⟩ := h.examined t l x now hr hx hexam
  have hnow : now.nano < x.instanceExpiry * 10 ^ 9 := by
    rw [h.restoring t l x a hr hx ha] at hfuture
    exact lt_of_le_of_lt (Int.ofNat_le.mpr hle) hfuture
  exact IncusDemo.not_overdue hnow (hfits hh hnow)

/-- What the startup goroutine removes is not the instance of an active session of this process
    that ends in the future. -/
theorem StartupInvariant.not_removes (hregular : Regular w₀ s) (h : StartupInvariant s)
    (hr : Runs s t .connect l) {id : Nat} {a : Session} (hh : HandedOut s id)
    (ha : s.world.db.Row id a) (hstatus : a.status = 0)
    (hfuture : s.world.clock.nano < a.instanceExpiry * 10 ^ 9) :
    ¬ MayRemove .connect l a.instanceName := by
  have hnames := hregular.named.names_of_row ha
  intro hmay
  cases hmay with
  | own u ho hn =>
    refine hregular.named.not_names_unrecorded hr ?_ (hn ▸ hnames)
    rcases ho with ho | ho | ho <;> rw [ho] <;> rfl
  | started ip _ _ hp _ => exact not_startFrom_connect hp
  | ended _ hp => cases hp
  | unclaimed _ hp _ => cases hp
  | overdue x rest now _ hl hn hexam hover =>
    obtain ⟨es, hes, hxs⟩ := listed_of_restoring hl
    have hx := hregular.named.active t _ l es x hr.ran hes hxs
    have hid := hregular.named.names_unique (hn ▸ hx) hnames
    subst hid
    exact h.not_overdue hr hl hexam hh ha hfuture hover
  | former x rest _ hl hn =>
    have hmem : x ∈ IncusDemo.former l := by rw [hl]; exact List.mem_cons_self ..
    obtain ⟨es, hes, hxs⟩ := mem_of_former hmem
    have hx := hregular.named.allocated t _ l es x hr.ran hes hxs
    have hid := hregular.named.names_unique (hn ▸ hx) hnames
    subst hid
    rw [h.former t l x a hr hmem ha] at hstatus
    cases hstatus
  | unanswered _ _ _ hp => cases hp
  | resync names hpass _ _ => exact h.inactive t l names _ hr hpass id a ha rfl hstatus

/-- What the startup goroutine removes is not an instance that a request is about to record. -/
theorem StartupInvariant.not_removes_pending (hregular : Regular w₀ s) (h : StartupInvariant s)
    (hr : Runs s t .connect l) {u : Nat} {q : Proc} {m : Log} {ip v : String} (hr' : Runs s u q m)
    (hq : StartFrom q ip) (hv : (attempt m).pending = some v) :
    ¬ MayRemove .connect l (nameOf v) := by
  have hnone : ∀ id, ¬ Names w₀ s id (nameOf v) := fun _ =>
    hregular.named.not_names_unrecorded hr' (unrecorded_of_pending hv)
  intro hmay
  cases hmay with
  | own w ho hn =>
    cases nameOf_injective hn
    have hw : (attempt l).unrecorded = some v := by
      rcases ho with ho | ho | ho <;> rw [ho] <;> rfl
    have htu := hregular.named.alone t u _ q l m v hr hr' hw (unrecorded_of_pending hv)
    subst htu
    rw [← (hr.unique hr').1] at hq
    exact not_startFrom_connect hq
  | started ip _ _ hp _ => exact not_startFrom_connect hp
  | ended _ hp => cases hp
  | unclaimed _ hp _ => cases hp
  | overdue x rest now _ hl hn _ _ =>
    obtain ⟨es, hes, hxs⟩ := listed_of_restoring hl
    exact hnone x.id (hn ▸ hregular.named.active t _ l es x hr.ran hes hxs)
  | former x rest _ hl hn =>
    obtain ⟨es, hes, hxs⟩ := listed_of_former hl
    exact hnone x.id (hn ▸ hregular.named.allocated t _ l es x hr.ran hes hxs)
  | unanswered _ _ _ hp => cases hp
  | resync names hpass _ _ => exact h.pending t l names _ hr hpass u q m ip v hr' hq hv rfl

theorem StartupInvariant.spares (hsound : Sound s) (hregular : Regular w₀ s)
    (h : StartupInvariant s) : StartupSpares s where
  sessions := by
    intro t l e s' id a hr hs hh ha hstatus hfuture hends
    obtain ⟨q, m, hm⟩ := thread_step hsound.follow hs
    obtain ⟨rfl, rfl⟩ := hr.unique hm.runs
    rcases hends with rfl | rfl | ⟨d, rfl⟩
    · have hmay : MayExpire .connect l id := hm.allowed
      cases hmay with
      | ended name hp => cases hp
      | overdue x rest now _ hl hid hexam hover =>
        subst hid
        exact h.not_overdue hr hl hexam hh ha hfuture hover
    · have hmay : MayDelete .connect l id := hm.allowed
      cases hmay with
      | unclaimed name hp _ => cases hp
      | former x rest _ hl hid =>
        subst hid
        have hmem : x ∈ IncusDemo.former l := by rw [hl]; exact List.mem_cons_self ..
        rw [h.former t l x a hr hmem ha] at hstatus
        cases hstatus
    · have hmay : Removes .connect l a.instanceName := And.left hm.allowed
      exact h.not_removes hregular hr hh ha hstatus hfuture hmay.reason
  attempts := by
    rintro t l e s' u q m ip v d hr hs hr' hq hv rfl
    obtain ⟨q', m', hm⟩ := thread_step hsound.follow hs
    obtain ⟨rfl, rfl⟩ := hr.unique hm.runs
    have hmay : Removes .connect l (nameOf v) := And.left hm.allowed
    exact h.not_removes_pending hregular hr hr' hq hv hmay.reason

end Invariant

/-- In a run in which no request claims a row that the startup goroutine still has on a list,
    and the resync at startup asks for no instance before it is recorded, the startup goroutine
    spares the sessions of its process. -/
theorem startup_spares_handed_out {s₀ s : Sys} (h0 : Initial s₀) (hw : WellFormed s₀.world)
    (hrun : server.Run OutOfTheWay s₀ s) : StartupSpares s := by
  obtain ⟨hsound, hregular, -, hinv⟩ := invariant_run
    (I := fun s => Regular s₀.world s ∧ Locked s ∧ StartupInvariant s) h0.sound
    ⟨h0.regular hw, h0.locked, h0.startupInvariant⟩
    (fun s t p l e s' hs hI hC hm => ⟨hI.1.threadStep hs hm, hI.2.1.threadStep hm,
      hI.2.2.threadStep hI.1 hI.2.1 hC hm⟩)
    (fun s e s' _ hI hC hm => ⟨hI.1.envStep hm, hI.2.1.envStep hm, hI.2.2.envStep hC hm⟩) hrun
  exact hinv.spares hsound hregular

/-- The test for `OutOfTheWay`. -/
def outOfTheWay (s : Sys) (l : Label) : Bool :=
  (match l with
    | .thread _ ⟨.query (.dbShouldExist name), .ok _⟩ => s.threads.all fun th =>
      match attempt th.log with
      | .returned v => nameOf v != name
      | _ => true
    | .thread t ⟨.now, now⟩ => s.threads[t]?.all fun th => (restoring th.log).all fun x =>
      decide (x.instanceExpiry - now.unix ≤ maxSeconds)
    | .env (.tick now) => decide (s.world.clock ≤ now)
    | _ => true) &&
  (claims l).all fun id => s.threads.all fun th => th.proc != .connect ||
    ((restoring th.log).all fun x => x.id != id) && ((former th.log).all fun x => x.id != id) &&
      match pass th.log with
      | .missing _ _ => false
      | _ => true

theorem of_outOfTheWay (s : Sys) (l : Label) (h : outOfTheWay s l = true) : OutOfTheWay s l := by
  obtain ⟨hlabel, hclaims⟩ := Bool.and_eq_true_iff.mp h
  constructor
  · rintro t m name exists_ rfl - u q n v ip ⟨th, hth, -, -, rfl⟩ - hv
    have hth := List.all_eq_true.mp hlabel th (List.mem_of_getElem? hth)
    simpa [hv] using hth
  · rintro id hid t m ⟨th, hth, -, hp, rfl⟩
    rw [hid, Option.all_some] at hclaims
    have hth := List.all_eq_true.mp hclaims th (List.mem_of_getElem? hth)
    rw [hp, bne_self_eq_false, Bool.false_or] at hth
    obtain ⟨hlists, hpass⟩ := Bool.and_eq_true_iff.mp hth
    obtain ⟨hr, hf⟩ := Bool.and_eq_true_iff.mp hlists
    refine ⟨fun x hx => bne_iff_ne.mp (List.all_eq_true.mp hr x hx),
      fun x hx => bne_iff_ne.mp (List.all_eq_true.mp hf x hx), ?_⟩
    intro names name a hmissing
    rw [hmissing] at hpass
    cases hpass
  · rintro t m x rest now rfl ⟨th, hth, -, -, rfl⟩ hl - -
    simp only [hth, Option.all_some] at hlabel
    have hx := List.all_eq_true.mp hlabel x (by rw [hl]; exact List.mem_cons_self ..)
    exact of_decide_eq_true hx
  · rintro now rfl
    exact of_decide_eq_true hlabel

/-- A session that is recorded before the startup goroutine lists the active ones. -/
theorem startup_spares_handed_out_small : ∃ s, StartupSpares s ∧
    (s.threads[0]?.any fun th => !(restoring th.log).isEmpty) = true := by
  obtain ⟨s, hrun, hs⟩ := server.run_of_check outOfTheWay of_outOfTheWay (emptyServer 0)
    (oks 0 6 ++ act (.request (startRequest "192.0.2.1")) ++ oks 1 57 ++ oks 0 2)
    (fun s => s.threads[0]?.any fun th => !(restoring th.log).isEmpty) (by decide +kernel)
  exact ⟨s, startup_spares_handed_out (emptyServer_initial 0) (emptyServer_wellFormed 0) hrun, hs⟩

/-- The session that a request has claimed, and the record it has sent. -/
def answeredWith (th : Thread) : Option (Nat × Info) :=
  match th.proc, claim th.log with
  | .restStart r, .claimed id row expiry =>
    let sent := th.log.any fun e =>
      match e with
      | ⟨.encode body, .ok _⟩ => body == (allocatedInfo row expiry).json
      | _ => false
    if sent && (restClientIP r).isOk then some (id, allocatedInfo row expiry) else none
  | _, _ => none

theorem of_answeredWith {th : Thread} {id : Nat} {info : Info}
    (h : answeredWith th = some (id, info)) :
    (∃ ip, StartFrom th.proc ip) ∧ Delivered th.log id info := by
  unfold answeredWith at h
  split at h
  · rename_i r i row expiry hproc hclaim
    simp only [Option.ite_none_right_eq_some, Bool.and_eq_true] at h
    obtain ⟨⟨hsent, hip⟩, heq⟩ := h
    cases heq
    obtain ⟨e, he, hsent⟩ := List.any_eq_true.mp hsent
    constructor
    · cases hr : restClientIP r with
      | error err =>
        rw [hr] at hip
        cases hip
      | ok a => exact ⟨a.1, r, a.2, hproc, hr⟩
    · refine ⟨⟨expiry, .inl ⟨row, hclaim, rfl⟩⟩, ?_⟩
      split at hsent
      · cases beq_iff_eq.mp hsent
        exact he
      · cases hsent
  · cases h

/-- Startup goroutine `t` is about to delete the instance of the session that request `u` has
    answered with. -/
def destroys (t u : Nat) (s : Sys) : Bool :=
  match s.threads[t]?, s.threads[u]? with
  | some th, some th' =>
    (answeredWith th').any fun r => th.proc == .connect && th.alive && th'.alive &&
      (s.world.db.sessions.rows.any fun a => a.1 == r.1 && a.2.status == 0 &&
        a.2.instanceName == r.2.name &&
        decide (s.world.clock.nano < a.2.instanceExpiry * 10 ^ 9)) &&
      (server.step s (go t s)).any fun l => deletesInstance t r.2.name l.1
  | _, _ => false

theorem not_sparesAnswered {t u : Nat} {s : Sys} (h : destroys t u s = true) :
    ¬ SparesAnswered s := by
  intro hspares
  unfold destroys at h
  split at h
  · rename_i th th' hth hth'
    obtain ⟨⟨id, info⟩, hinfo, h⟩ := (Option.any_eq_true ..).mp h
    simp only [Bool.and_eq_true, beq_iff_eq] at h
    obtain ⟨⟨⟨⟨hproc, halive⟩, halive'⟩, hrow⟩, hstep⟩ := h
    obtain ⟨⟨i, a⟩, ha, hrow⟩ := List.any_eq_true.mp hrow
    simp only [Bool.and_eq_true, beq_iff_eq, decide_eq_true_eq] at hrow
    obtain ⟨⟨⟨rfl, hstatus⟩, hname⟩, hfuture⟩ := hrow
    obtain ⟨l, s', hs, hl⟩ := server.step_of_check hstep
    obtain ⟨d, rfl⟩ := of_deletesInstance hl
    obtain ⟨⟨ip, hq⟩, hd⟩ := of_answeredWith hinfo
    exact hspares t th.log _ s' i a ⟨th, hth, halive, hproc, rfl⟩ hs
      ⟨u, _, _, ip, info, ⟨th', hth', halive', rfl, rfl⟩, hq, hd⟩ ha hstatus hfuture
      (.inr (.inr ⟨d, by rw [hname]⟩))
  · cases h

/-- A restarted server lists its former pool, then a request claims a row of it and is answered,
    and then the server deletes the instance it has listed. -/
theorem startup_destroys_answered : ¬ ∀ s₀ s, Initial s₀ → WellFormed s₀.world →
    server.Run Machine.anyStep s₀ s → SparesAnswered s := by
  intro hall
  obtain ⟨s, hrun, hs⟩ := server.run_of_check Machine.noTest (fun _ _ _ => trivial) (emptyServer 1)
    (oks 0 47 ++ act (.restart (smallConfig 5 1)) ++ oks 2 8 ++
      act (.request (startRequest "192.0.2.1")) ++ oks 3 26 ++ oks 2 4) (destroys 2 3)
    (by decide +kernel)
  exact not_sparesAnswered hs (hall _ s (emptyServer_initial 1) (emptyServer_wellFormed 1) hrun)

end IncusDemo
