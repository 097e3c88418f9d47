/-
  IncusDemo.FailedStart

  What a start request leaves behind when it fails.  A failing handler always
  removes the instance it has made or claimed, but no exit undoes the row: once
  the UPDATE of `dbGetAllocated` or the INSERT of `dbNew` has committed, the
  session stays active although the client never gets it.

  The handler is followed through the states `Bare` (it has nothing),
  `Making` (it may have made an instance) and `Holding` (it has an active row);
  each of its functions has one lemma that says from which of them to which it
  goes.
-/

import IncusDemo.Creation

namespace IncusDemo

open Go Conc

-- ============================================================================
-- What is left behind
-- ============================================================================

/-- The client has been sent the record of a session. -/
def SentRecord (l : Log) : Prop := ∃ info : Info, ⟨.encode info.json, .ok ()⟩ ∈ l

/-- The thread has made the instance `name`. -/
def Made (l : Log) (name : String) : Prop :=
  ∃ d c, ⟨.wait d c, .ok ()⟩ ∈ l ∧ c.makes = some name

/-- The thread has claimed the row of the instance `name`. -/
def ClaimedInstance (l : Log) (name : String) : Prop :=
  ∃ id row expiry date ip terms, ⟨.query .selectAllocated, .ok (some (id, row))⟩ ∈ l ∧
    ⟨.query (.updateAllocated expiry date ip terms id), .ok ()⟩ ∈ l ∧ row.instanceName = name

/-- A start request that began in `w` has left nothing in `w'`: no row is active that was not so
    before, and of the instances that the request made or claimed none exists. -/
structure Clean (w w' : World) (l : Log) : Prop where
  rows : ∀ id a, w'.db.Row id a → a.status = 0 → ∃ b, w.db.Row id b ∧ b.status = 0
  instances : ∀ name d, Made l name ∨ ClaimedInstance l name → w'.incusDaemon = some d →
    w'.instances.get? d name = none

-- ============================================================================
-- Logs
-- ============================================================================

section Logs

variable {x x' : View} {name : String}

theorem noted_of_activates {e : Event} (h : activates e = true) : noted e = true := by
  unfold activates at h
  split at h
  · rfl
  · rfl
  · cases h

theorem Plain.unactivated_iff (h : Plain x x') : Unactivated x'.2 ↔ Unactivated x.2 := by
  constructor
  · exact fun hu e he => hu e (h.suffix.subset he)
  · intro hu e he
    by_contra ha
    rw [Bool.not_eq_false] at ha
    rw [hu e (h.old e he (noted_of_activates ha))] at ha
    cases ha

theorem noted_of_makes {d : InstanceServer} {c : Call} (h : c.makes = some name) :
    noted ⟨.wait d c, .ok ()⟩ = true := by
  cases c <;> first | rfl | cases h

theorem Plain.made (h : Plain x x') (hm : Made x'.2 name) : Made x.2 name := by
  obtain ⟨d, c, he, hc⟩ := hm
  exact ⟨d, c, h.old _ he (noted_of_makes hc), hc⟩

theorem Plain.claimed (h : Plain x x') (hc : ClaimedInstance x'.2 name) :
    ClaimedInstance x.2 name := by
  obtain ⟨id, row, expiry, date, ip, terms, hs, hu, hname⟩ := hc
  exact ⟨id, row, expiry, date, ip, terms, h.old _ hs rfl, h.old _ hu rfl, hname⟩

theorem not_claimed_of_unactivated {l : Log} (h : Unactivated l) : ¬ ClaimedInstance l name := by
  rintro ⟨id, row, expiry, date, ip, terms, -, hu, -⟩
  have hfalse := h _ hu
  cases hfalse

end Logs

-- ============================================================================
-- The states of a handler
-- ============================================================================

/-- The handler has acquired nothing. -/
structure Bare (w : World) (x : View) : Prop where
  incusDaemon : x.1.incusDaemon = w.incusDaemon
  db : x.1.db = w.db
  unactivated : Unactivated x.2
  made : ∀ n, ¬ Made x.2 n

/-- The handler may have made the instance `name`, and has no row. -/
structure Making (w : World) (name : String) (x : View) : Prop where
  incusDaemon : x.1.incusDaemon = w.incusDaemon
  db : x.1.db = w.db
  unactivated : Unactivated x.2
  made : ∀ n, Made x.2 n → n = name

/-- The handler has made row `id` active, for the instance `name`. -/
structure Holding (w : World) (id : Nat) (name : String) (x : View) : Prop where
  incusDaemon : x.1.incusDaemon = w.incusDaemon
  row : ∃ a, x.1.db.Row id a ∧ a.status = 0
  before : ∀ b, w.db.Row id b → b.status ≠ 0
  activated : ¬ Unactivated x.2
  owned : ∀ n, Made x.2 n ∨ ClaimedInstance x.2 n → n = name

/-- The handler has given up before it had a row. -/
structure Failed (w : World) (x : View) : Prop where
  incusDaemon : x.1.incusDaemon = w.incusDaemon
  db : x.1.db = w.db
  unactivated : Unactivated x.2
  gone : ∀ n, Made x.2 n → Gone n x

section States

variable {w : World} {id : Nat} {name : String} {x x' : View}

theorem Bare.plain (h : Bare w x) (hp : Plain x x') : Bare w x' where
  incusDaemon := hp.incusDaemon.trans h.incusDaemon
  db := hp.db.trans h.db
  unactivated := hp.unactivated_iff.mpr h.unactivated
  made := fun n hm => h.made n (hp.made hm)

theorem Making.plain (h : Making w name x) (hp : Plain x x') : Making w name x' where
  incusDaemon := hp.incusDaemon.trans h.incusDaemon
  db := hp.db.trans h.db
  unactivated := hp.unactivated_iff.mpr h.unactivated
  made := fun n hm => h.made n (hp.made hm)

theorem Holding.plain (h : Holding w id name x) (hp : Plain x x') : Holding w id name x' where
  incusDaemon := hp.incusDaemon.trans h.incusDaemon
  row := hp.db ▸ h.row
  before := h.before
  activated := fun hu => h.activated (hp.unactivated_iff.mp hu)
  owned := fun n hn => h.owned n (hn.imp hp.made hp.claimed)

theorem Bare.failed (h : Bare w x) : Failed w x :=
  ⟨h.incusDaemon, h.db, h.unactivated, fun n hm => absurd hm (h.made n)⟩

theorem Bare.built (h : Bare w x) (hb : Built name x x') : Making w name x' where
  incusDaemon := hb.incusDaemon.trans h.incusDaemon
  db := hb.db.trans h.db
  unactivated := by
    intro e he
    by_contra ha
    rw [Bool.not_eq_false] at ha
    rcases hb.acquired e he (noted_of_activates ha) with he | ⟨d, c, rfl, -⟩
    · rw [h.unactivated e he] at ha
      cases ha
    · cases ha
  made := by
    rintro n ⟨d, c, he, hc⟩
    rcases hb.acquired _ he (noted_of_makes hc) with he | ⟨d', c', heq, hc'⟩
    · exact absurd ⟨d, c, he, hc⟩ (h.made n)
    · cases heq
      exact Option.some.inj (hc.symm.trans hc')

theorem Making.failed (h : Making w name x) (hg : Gone name x) : Failed w x :=
  ⟨h.incusDaemon, h.db, h.unactivated, fun n hm => h.made n hm ▸ hg⟩

theorem Bare.undone (h : Bare w x) (hu : Undone x x') : Failed w x' := by
  rcases hu with hk | ⟨u, -, hb, hg⟩
  · exact (h.plain hk.toPlain).failed
  · exact (h.built hb).failed hg

/-- What the operations do that answer the client. -/
theorem Gone.same (h : Gone name x) (hp : Plain x x') (hi : x'.1.instances = x.1.instances) :
    Gone name x' := by
  intro d hd
  rw [hi]
  exact h d (hp.incusDaemon.symm.trans hd)

theorem Failed.same (h : Failed w x) (hp : Plain x x') (hi : x'.1.instances = x.1.instances) :
    Failed w x' where
  incusDaemon := hp.incusDaemon.trans h.incusDaemon
  db := hp.db.trans h.db
  unactivated := hp.unactivated_iff.mpr h.unactivated
  gone := fun n hm => (h.gone n (hp.made hm)).same hp hi

theorem Failed.clean (h : Failed w x) : Clean w x.1 x.2 where
  rows := fun id a ha hstatus => ⟨a, h.db ▸ ha, hstatus⟩
  instances := by
    rintro n d (hm | hc) hd
    · exact h.gone n hm d hd
    · exact absurd hc (not_claimed_of_unactivated h.unactivated)

theorem Holding.not_clean (h : Holding w id name x) : ¬ Clean w x.1 x.2 := by
  intro hclean
  obtain ⟨a, ha, hstatus⟩ := h.row
  obtain ⟨b, hb, hb'⟩ := hclean.rows id a ha hstatus
  exact h.before b hb hb'

end States

section Programs

variable {t : Nat} {x : View} {w : World}

/-- The states of a handler that makes an instance. -/
theorem instanceCreate_states {Q : Except Error Info → View → Prop} (hx : Bare w x)
    (hok : ∀ info x', Making w info.name x' → Q (.ok info) x')
    (herr : ∀ e x', Failed w x' → Q (.error e) x') :
    Handles t (instanceCreate (some statusUpdate)) Q x := by
  refine solo_mono (fun r x' h => ?_) (instanceCreate_handles tells_statusUpdate x)
  cases r with
  | error e => exact herr e x' (hx.undone h)
  | ok info =>
    obtain ⟨u, -, hname, hbuilt⟩ := h
    exact hok info x' (hname ▸ hx.built hbuilt)

-- ============================================================================
-- The session
-- ============================================================================

theorem restStartError_handles {code : StatusCode} {Q : Unit → View → Prop}
    (h : ∀ x', Plain x x' → x'.1.instances = x.1.instances → Q () x') :
    Handles t (restStartError code) Q x := by
  unfold restStartError
  rw [handles_bind]
  refine handles_op fun r x₁ hm₁ => ?_
  have h₁ : Still x x₁ := hm₁.still rfl
  cases r with
  | error e =>
    refine handles_op fun _ x₂ hm₂ => ?_
    have h₂ : Still x₁ x₂ := hm₂.still rfl
    exact h x₂ (h₁.plain.trans h₂.plain) (h₂.instances.trans h₁.instances)
  | ok _ => exact h x₁ h₁.plain h₁.instances

/-- The row that is claimed was waiting before. -/
theorem holding_of_claim {id : Nat} {row : Session} {expiry date : Int} {ip terms : String}
    {x₁ x₂ : View} (hx : Bare w x)
    (hfresh : ∀ row, ⟨.query .selectAllocated, .ok (some row)⟩ ∉ x.2)
    (hs : Queried .selectAllocated (some (id, row)) x x₁)
    (hu : Queried (.updateAllocated expiry date ip terms id) () x₁ x₂) :
    Holding w id row.instanceName x₂ := by
  have hselected : some (id, row) = w.db.selectAllocated := by
    rw [← hx.db]
    exact hs.answer
  obtain ⟨hrow, hstatus⟩ := Sql.Table.mem_select.mp (oldest_mem hselected.symm)
  have hdb : x₁.1.db = w.db := hs.db.trans hx.db
  constructor
  · exact (hu.incusDaemon.trans hs.incusDaemon).trans hx.incusDaemon
  · refine ⟨row.claim expiry date ip terms, ?_, rfl⟩
    rw [hu.db, hdb]
    exact Sql.Table.mem_update.mpr ⟨row, hrow, by simp⟩
  · intro b hb
    rw [row_unique hb hrow, beq_iff_eq.mp hstatus]
    exact fun h => nomatch h
  · intro hun
    have hfalse := hun ⟨.query (.updateAllocated expiry date ip terms id), .ok ()⟩ (by simp [hu.log])
    cases hfalse
  · rintro n (⟨d, c, he, hc⟩ | ⟨id', row', _, _, _, _, he, -, hname⟩)
    · rw [hu.log, hs.log] at he
      rcases List.mem_cons.mp he with heq | he
      · cases heq
      · rcases List.mem_cons.mp he with heq | he
        · cases heq
        · exact absurd ⟨d, c, he, hc⟩ (hx.made n)
    · rw [hu.log, hs.log] at he
      rcases List.mem_cons.mp he with heq | he
      · cases heq
      · rcases List.mem_cons.mp he with heq | he
        · cases heq
          exact hname.symm
        · exact absurd he (hfresh _)

theorem dbGetAllocated_handles {expiry date : Int} {ip terms : String}
    {Q : Except Error (Nat × Session) → View → Prop} (hx : Bare w x)
    (hfresh : ∀ row, ⟨.query .selectAllocated, .ok (some row)⟩ ∉ x.2)
    (hok : ∀ id row x', Holding w id row.instanceName x' → Q (.ok (id, row)) x')
    (herr : ∀ e x', Bare w x' → Q (.error e) x') :
    Handles t (dbGetAllocated expiry date ip terms) Q x := by
  unfold dbGetAllocated
  rw [handles_bind]
  refine handles_plain (fun _ => rfl) fun c x₁ h₁ => ?_
  have hx₁ := hx.plain h₁
  have hfresh₁ : ∀ row, ⟨.query .selectAllocated, .ok (some row)⟩ ∉ x₁.2 :=
    fun row h => hfresh row (h₁.old _ h rfl)
  refine handles_ite (fun _ => herr _ x₁ hx₁) (fun _ => ?_)
  rw [handles_bind]
  refine handles_op fun r x₂ hm₂ => ?_
  rcases r with e | (_ | ⟨id, row⟩)
  · exact herr e x₂ (hx₁.plain (hm₂.plain rfl))
  · exact herr _ x₂ (hx₁.plain (hm₂.plain rfl))
  · have hs := hm₂.queried
    -- the SELECT alone acquires nothing
    have hx₂ : Bare w x₂ := by
      refine ⟨hs.incusDaemon.trans hx₁.incusDaemon, hs.db.trans hx₁.db, ?_, ?_⟩
      · rw [hs.log]
        exact hx₁.unactivated.cons rfl
      · rintro n ⟨d, c, he, hc⟩
        rw [hs.log] at he
        rcases List.mem_cons.mp he with heq | he
        · cases heq
        · exact hx₁.made n ⟨d, c, he, hc⟩
    refine handles_ite (fun _ => herr _ x₂ hx₂) (fun _ => ?_)
    rw [handles_bind]
    refine handles_op fun r x₃ hm₃ => ?_
    cases r with
    | error e => exact herr e x₃ (hx₂.plain (hm₃.plain rfl))
    | ok _ => exact hok id row x₃ (holding_of_claim hx₁ hfresh₁ hs hm₃.queried)

theorem useAllocated_handles {id : Nat} {row : Session} {expiry : Int}
    {Q : Option Acquired → View → Prop} (hx : Holding w id row.instanceName x)
    (hnone : ∀ x', Holding w id row.instanceName x' → Gone row.instanceName x' → Q none x')
    (hsome : ∀ x', Holding w id row.instanceName x' → Q (some ⟨id, allocatedInfo row expiry⟩) x') :
    Handles t (useAllocated id row expiry) Q x := by
  unfold useAllocated
  dsimp only
  rw [handles_bind]
  refine handles_plain (fun _ => rfl) fun _ x₁ h₁ => ?_
  rw [handles_bind]
  refine instanceStart_handles tells_statusUpdate
    (fun _ x₂ h₂ => hsome x₂ ((hx.plain h₁).plain h₂.toPlain))
    (fun e x₂ h₂ hg => ?_)
  rw [handles_bind]
  refine restStartError_handles fun x₃ h₃ hi => ?_
  exact hnone x₃ (((hx.plain h₁).plain h₂.toPlain).plain h₃) (hg.same h₃ hi)

/-- The row that is inserted is new. -/
theorem holding_of_insert {id : Nat} {name : String} {row : Session} {x' : View}
    (hx : Making w name x) (hstatus : row.status = 0) (hq : Queried (.dbNew row) id x x') :
    Holding w id name x' := by
  have hid : id = w.db.sessions.nextId := by
    rw [← hx.db]
    exact hq.answer
  have hdb : x'.1.db.Row id row := by
    rw [hq.db, hx.db, hid]
    exact Sql.Table.mem_insert.mpr (.inr ⟨rfl, rfl⟩)
  constructor
  · exact hq.incusDaemon.trans hx.incusDaemon
  · exact ⟨row, hdb, hstatus⟩
  · intro b hb
    rw [hid] at hb
    exact absurd hb (Sql.Table.nextId_not_mem _ b)
  · intro hun
    have hfalse := hun ⟨.query (.dbNew row), .ok id⟩ (by simp [hq.log])
    simp [activates, hstatus] at hfalse
  · rintro n (⟨d, c, he, hc⟩ | ⟨_, _, _, _, _, _, -, hu, -⟩)
    · rw [hq.log] at he
      rcases List.mem_cons.mp he with heq | he
      · cases heq
      · exact hx.made n ⟨d, c, he, hc⟩
    · rw [hq.log] at hu
      rcases List.mem_cons.mp hu with heq | hu
      · cases heq
      · have hfalse := hx.unactivated _ hu
        cases hfalse

theorem useFresh_handles {date : Int} {ip terms : String} {Q : Option Acquired → View → Prop}
    (hx : Bare w x) (hnone : ∀ x', Failed w x' → Q none x')
    (hsome : ∀ a x', Holding w a.instanceID a.info.name x' → Q (some a) x') :
    Handles t (useFresh date ip terms) Q x := by
  unfold useFresh
  rw [handles_bind]
  refine instanceCreate_states hx (fun info x₁ h₁ => ?_) (fun e x₁ h₁ => ?_)
  · rw [handles_bind]
    refine handles_plain (fun _ => rfl) fun now x₂ h₂ => ?_
    rw [handles_bind]
    refine handles_plain (fun _ => rfl) fun c x₃ h₃ => ?_
    have h₃ := (h₁.plain h₂).plain h₃
    dsimp only
    rw [handles_bind]
    refine handles_op fun r x₄ hm₄ => ?_
    cases r with
    | error e =>
      have h₄ := h₃.plain (hm₄.plain rfl)
      refine handles_bind.mpr (forceDelete_handles fun x₅ h₅ hg => ?_)
      refine handles_bind.mpr (restStartError_handles fun x₆ h₆ hi => ?_)
      exact hnone x₆ (((h₄.plain h₅.toPlain).failed hg).same h₆ hi)
    | ok id => exact hsome ⟨id, _⟩ x₄ (holding_of_insert h₃ rfl hm₄.queried)
  · rw [handles_bind]
    exact restStartError_handles fun x₂ h₂ hi => hnone x₂ (h₁.same h₂ hi)

/-- How a start request ends: the record is sent, or nothing was acquired, or a row is active
    without its instance. -/
def Ended (w : World) (x : View) : Prop :=
  SentRecord x.2 ∨ Failed w x ∨ ∃ id name, Holding w id name x ∧ Gone name x

theorem Bare.ended (h : Bare w x) : Ended w x := .inr (.inl h.failed)

theorem deliver_handles {a : Acquired} (hx : Holding w a.instanceID a.info.name x) :
    Handles t (deliver a) (fun _ => Ended w) x := by
  have hfail : ∀ x₁, Plain x x₁ → Handles t (do
      forceDelete a.info.name
      restStartError .instanceUnknownError) (fun _ => Ended w) x₁ := by
    intro x₁ h₁
    rw [handles_bind]
    refine forceDelete_handles fun x₂ h₂ hg => restStartError_handles fun x₃ h₃ hi => ?_
    exact .inr (.inr ⟨_, _, ((hx.plain h₁).plain h₂.toPlain).plain h₃, hg.same h₃ hi⟩)
  unfold deliver
  rw [handles_bind]
  refine handles_plain (fun _ => rfl) fun c x₁ h₁ => ?_
  split
  · exact hfail x₁ h₁
  · rw [handles_bind]
    refine handles_plain (fun _ => rfl) fun _ x₂ h₂ => ?_
    rw [handles_bind]
    refine handles_op fun r x₃ hm₃ => ?_
    have h₃ := (h₁.trans h₂).trans (hm₃.plain (by cases r <;> rfl))
    cases r with
    | error e => exact hfail x₃ h₃
    | ok _ =>
      refine handles_plain (fun _ => rfl) fun _ x₄ h₄ => .inl ⟨a.info, h₄.suffix.subset ?_⟩
      rw [hm₃.log_eq]
      exact List.mem_cons_self ..

theorem startSession_handles {date : Int} {ip terms : String} (hx : Bare w x)
    (hfresh : ∀ row, ⟨.query .selectAllocated, .ok (some row)⟩ ∉ x.2) :
    Handles t (startSession date ip terms) (fun _ => Ended w) x := by
  unfold startSession
  rw [handles_bind]
  refine handles_plain (fun _ => rfl) fun now x₁ h₁ => ?_
  rw [handles_bind]
  refine handles_plain (fun _ => rfl) fun c x₂ h₂ => ?_
  have h₂ := h₁.trans h₂
  dsimp only
  rw [handles_bind]
  refine dbGetAllocated_handles (hx.plain h₂) (fun row h => hfresh row (h₂.old _ h rfl))
    (fun id row x₃ h₃ => ?_) (fun e x₃ h₃ => ?_)
  · rw [handles_bind]
    exact useAllocated_handles h₃ (fun x₄ h₄ hg => .inr (.inr ⟨id, _, h₄, hg⟩))
      (fun x₄ h₄ => deliver_handles h₄)
  · rw [handles_bind]
    exact useFresh_handles h₃ (fun x₄ h₄ => .inr (.inl h₄)) (fun a x₄ h₄ => deliver_handles h₄)

theorem Bare.start (w : World) : Bare w (w, []) where
  incusDaemon := rfl
  db := rfl
  unactivated := fun _ he => nomatch he
  made := fun _ ⟨_, _, he, _⟩ => nomatch he

theorem admitSession_handles {date : Int} {ip terms : String} (h : Plain (w, []) x) :
    Handles t (admitSession date ip terms) (fun _ => Ended w) x := by
  have hempty : ∀ x', Plain (w, []) x' → Bare w x' := fun x' h' => (Bare.start w).plain h'
  unfold admitSession
  rw [handles_bind]
  refine handles_plain (fun r => by cases r <;> rfl) fun n x₁ h₁ => ?_
  rw [handles_bind]
  refine handles_plain (fun _ => rfl) fun c x₂ h₂ => ?_
  have h₂ := (h.trans h₁).trans h₂
  refine handles_ite (fun _ => ?_) (fun _ => ?_)
  · exact restStartError_handles fun x₃ h₃ _ => (hempty x₃ (h₂.trans h₃)).ended
  rw [handles_bind]
  refine handles_plain (fun r => by cases r <;> rfl) fun m x₃ h₃ => ?_
  rw [handles_bind]
  refine handles_plain (fun _ => rfl) fun c x₄ h₄ => ?_
  have h₄ := (h₂.trans h₃).trans h₄
  refine handles_ite (fun _ => ?_) (fun _ => ?_)
  · exact restStartError_handles fun x₅ h₅ _ => (hempty x₅ (h₄.trans h₅)).ended
  exact startSession_handles (hempty x₄ h₄) fun row he => nomatch h₄.old _ he rfl

theorem checkRequest_handles {r : Request} (h : Plain (w, []) x) :
    Handles t (checkRequest r) (fun _ => Ended w) x := by
  have hended : ∀ x', Plain (w, []) x' → Ended w x' := fun x' h' =>
    ((Bare.start w).plain h').ended
  unfold checkRequest
  rw [handles_bind]
  refine handles_plain (fun _ => rfl) fun now x₁ h₁ => ?_
  have h₁ := h.trans h₁
  split
  · exact restStartError_handles fun x₂ h₂ _ => hended x₂ (h₁.trans h₂)
  dsimp only
  refine handles_ite (fun _ => ?_) (fun _ => ?_)
  · exact handles_plain (fun _ => rfl) fun _ x₂ h₂ => hended x₂ (h₁.trans h₂)
  rw [handles_bind]
  refine handles_plain (fun _ => rfl) fun c x₂ h₂ => ?_
  have h₂ := h₁.trans h₂
  refine handles_ite (fun _ => ?_) (fun _ => ?_)
  · exact restStartError_handles fun x₃ h₃ _ => hended x₃ (h₂.trans h₃)
  rw [handles_bind]
  refine handles_plain (fun _ => rfl) fun c x₃ h₃ => ?_
  have h₃ := h₂.trans h₃
  refine handles_ite (fun _ => ?_) (fun _ => admitSession_handles h₃)
  exact restStartError_handles fun x₄ h₄ _ => hended x₄ (h₃.trans h₄)

theorem restStartHandler_handles {r : Request} :
    Handles t (restStartHandler r) (fun _ => Ended w) (w, []) := by
  have hended : ∀ x', Plain (w, []) x' → Ended w x' := fun x' h' =>
    ((Bare.start w).plain h').ended
  unfold restStartHandler
  refine handles_ite (fun _ => ?_) (fun _ => ?_)
  · exact handles_plain (fun _ => rfl) fun _ x₁ h₁ => hended x₁ h₁
  rw [handles_bind]
  refine handles_plain (fun _ => rfl) fun c x₁ h₁ => ?_
  rw [handles_bind]
  refine handles_plain (fun _ => rfl) fun d x₂ h₂ => ?_
  have h₂ := h₁.trans h₂
  refine handles_ite (fun _ => ?_) (fun _ => ?_)
  · exact handles_plain (fun _ => rfl) fun _ x₃ h₃ => hended x₃ (h₂.trans h₃)
  rw [handles_bind]
  refine handles_plain (fun _ => rfl) fun _ x₃ h₃ => ?_
  rw [handles_bind]
  refine handles_plain (fun _ => rfl) fun _ x₄ h₄ => ?_
  rw [handles_bind]
  refine handles_plain (fun _ => rfl) fun _ x₅ h₅ => ?_
  rw [handles_bind]
  refine handles_plain (fun _ => rfl) fun _ x₆ h₆ => ?_
  have h₆ := (((h₂.trans h₃).trans h₄).trans h₅).trans h₆
  refine handles_ite (fun _ => ?_) (fun _ => ?_)
  · exact handles_plain (fun _ => rfl) fun _ x₇ h₇ => hended x₇ (h₆.trans h₇)
  rw [handles_bind]
  exact handles_plain (fun _ => rfl) fun _ x₇ h₇ => checkRequest_handles (h₆.trans h₇)

end Programs

-- ============================================================================
-- Failed starts
-- ============================================================================

theorem Clean.drift {w w' w'' : World} {l : Log} (hd : Drift w' w'') :
    Clean w w'' l ↔ Clean w w' l := by
  constructor
  · intro h
    exact ⟨hd.db ▸ h.rows, by rw [← hd.incusDaemon, ← hd.instances]; exact h.instances⟩
  · intro h
    exact ⟨hd.db ▸ h.rows, by rw [hd.incusDaemon, hd.instances]; exact h.instances⟩

/-- A start request that goes on its own to its end. -/
structure RanAlone (s s' : Sys) (t : Nat) (l : Log) : Prop where
  request : ∃ r, s.threads[t]? = some (server.start (.restStart r))
  run : server.Run (Machine.Alone t Deletes Ambient) s s'
  done : ∃ th, s'.threads[t]? = some th ∧ th.log = l ∧ th.prog = .ret ()

theorem RanAlone.ended {s s' : Sys} {t : Nat} {l : Log} (h : RanAlone s s' t l) :
    ∃ w, Drift w s'.world ∧ Ended s.world (w, l) := by
  obtain ⟨r, hth⟩ := h.request
  obtain ⟨th, hth', rfl, hprog⟩ := h.done
  have hholds := Machine.Run.alone drifts (covers_moved _ _) hth rfl
    (restStartHandler_handles (r := r)) h.run
  exact hholds.done hth' hprog

/-- A start request that has ended without sending its record leaves nothing behind if and only
    if it has not made a row active. -/
theorem failed_start_clean_iff {s s' : Sys} {t : Nat} {l : Log} (h : RanAlone s s' t l)
    (hfail : ¬ SentRecord l) : Clean s.world s'.world l ↔ Unactivated l := by
  obtain ⟨w, hdrift, hended⟩ := h.ended
  rw [Clean.drift hdrift]
  rcases hended with hsent | hfailed | ⟨id, name, hholding, -⟩
  · exact absurd hsent hfail
  · exact iff_of_true hfailed.clean hfailed.unactivated
  · exact iff_of_false hholding.not_clean hholding.activated

/-- It never leaves an instance. -/
theorem failed_start_leaves_no_instance {s s' : Sys} {t : Nat} {l : Log} {name : String}
    {d : InstanceServer} (h : RanAlone s s' t l) (hfail : ¬ SentRecord l)
    (hname : Made l name ∨ ClaimedInstance l name) (hd : s'.world.incusDaemon = some d) :
    s'.world.instances.get? d name = none := by
  obtain ⟨w, hdrift, hended⟩ := h.ended
  rw [hdrift.instances]
  rw [hdrift.incusDaemon] at hd
  rcases hended with hsent | hfailed | ⟨id, name', hholding, hgone⟩
  · exact absurd hsent hfail
  · exact hfailed.clean.instances name d hname hd
  · rw [hholding.owned name hname]
    exact hgone d hd

/-- No record of a session is among what was sent: every record has an id. -/
def unsent (l : Log) : Bool :=
  l.all fun e =>
    match e with
    | ⟨.encode body, .ok _⟩ => body.all fun p => p.1 != "id"
    | _ => true

theorem of_unsent {l : Log} (h : unsent l = true) : ¬ SentRecord l := by
  rintro ⟨info, he⟩
  have hbody := List.all_eq_true.mp h _ he
  have hid := List.all_eq_true.mp hbody ("id", .str info.id) (by simp [Info.json])
  cases hid

/-- The server when request `r` has come in. -/
def requested (s : Sys) (r : Request) : Sys :=
  ⟨s.world, s.threads ++ [server.start (.restStart r)]⟩

theorem requested_step (s : Sys) (r : Request) :
    server.Step s (.env (.request r)) (requested s r) := by
  have henv : server.env s.world (.request r) = some (s.world, false, [.restStart r]) := rfl
  exact Machine.Step.env henv

/-- A request from `192.0.2.1` that goes on its own as `as` says to its end. -/
theorem ranAlone_of_check {s : Sys} {as : List (Sys → Action)} {f : Log → Bool} {g : Sys → Bool}
    (h : (server.steps (alone s.threads.length deletes) (requested s (startRequest "192.0.2.1"))
      as).any (fun s' => endedWith s.threads.length f s' && g s') = true) :
    ∃ s' l, RanAlone (requested s (startRequest "192.0.2.1")) s' s.threads.length l ∧
      f l = true ∧ g s' = true := by
  obtain ⟨s', hrun, hs'⟩ := server.run_of_check (alone s.threads.length deletes)
    (of_alone fun _ _ => of_deletes) _ _ _ h
  obtain ⟨hended, hg⟩ := Bool.and_eq_true_iff.mp hs'
  obtain ⟨l, hdone, hl⟩ := done_of_endedWith hended
  refine ⟨s', l, ⟨⟨startRequest "192.0.2.1", ?_⟩, hrun, hdone⟩, hl, hg⟩
  unfold requested
  rw [List.getElem?_append_right (Nat.le_refl _), Nat.sub_self]
  rfl

/-- The thread has made an instance. -/
def makes (l : Log) : Bool :=
  l.any fun e =>
    match e with
    | ⟨.wait _ (.createInstance _), .ok _⟩ => true
    | _ => false

/-- The instance that a request has made cannot be configured. -/
theorem failed_start_clean_iff_small : ∃ (s s' : Sys) (l : Log), makes l = true ∧
    (Clean s.world s'.world l ↔ Unactivated l) := by
  obtain ⟨s, -, hs⟩ := server.run_of_check Machine.noTest (fun _ _ _ => trivial) (emptyServer 0)
    (oks 0 14) (fun s => (server.steps (alone s.threads.length deletes)
      (requested s (startRequest "192.0.2.1")) (oks 2 32 ++ failing 2 ++ oks 2 7)).any fun s' =>
        endedWith s.threads.length (fun l => unsent l && makes l) s' && true) (by decide +kernel)
  obtain ⟨s', l, hran, hl, -⟩ := ranAlone_of_check hs
  obtain ⟨hunsent, hmakes⟩ := Bool.and_eq_true_iff.mp hl
  exact ⟨_, s', l, hmakes, failed_start_clean_iff hran (of_unsent hunsent)⟩

/-- A row is active in `s'` whose id is of no active row in `s`. -/
def activatesRow (s s' : Sys) : Bool :=
  s'.world.db.sessions.rows.any fun r' => r'.2.status == 0 &&
    s.world.db.sessions.rows.all fun r => r.1 != r'.1 || r.2.status != 0

theorem not_clean_of_activatesRow {s s' : Sys} {l : Log} (h : activatesRow s s' = true) :
    ¬ Clean s.world s'.world l := by
  intro hclean
  obtain ⟨⟨id, a⟩, ha, h⟩ := List.any_eq_true.mp h
  obtain ⟨hstatus, hnone⟩ := Bool.and_eq_true_iff.mp h
  obtain ⟨b, hb, hb'⟩ := hclean.rows id a ha (beq_iff_eq.mp hstatus)
  have hnot := List.all_eq_true.mp hnone (id, b) hb
  simp [hb'] at hnot

/-- A request claims the pre-allocated row, and then its instance cannot be looked up: the
    instance is removed, the row stays active. -/
theorem failed_start_keeps_row : ¬ ∀ s₀ s s' t l, Initial s₀ → WellFormed s₀.world →
    server.Run Machine.anyStep s₀ s → RanAlone s s' t l → ¬ SentRecord l →
    Clean s.world s'.world l := by
  intro hall
  obtain ⟨s, hrun, hs⟩ := server.run_of_check Machine.noTest (fun _ _ _ => trivial) (emptyServer 1)
    (oks 0 47) (fun s => (server.steps (alone s.threads.length deletes)
      (requested s (startRequest "192.0.2.1")) (oks 2 21 ++ failing 2 ++ oks 2 6)).any fun s' =>
        endedWith s.threads.length unsent s' &&
          activatesRow (requested s (startRequest "192.0.2.1")) s') (by decide +kernel)
  obtain ⟨s', l, hran, hunsent, hrow⟩ := ranAlone_of_check hs
  have hrequest := requested_step s (startRequest "192.0.2.1")
  exact not_clean_of_activatesRow hrow (hall _ _ s' _ l (emptyServer_initial 1)
    (emptyServer_wellFormed 1) (hrun.tail ⟨_, trivial, hrequest⟩) hran (of_unsent hunsent))

end IncusDemo
