/-
  IncusDemo.Status

  What `/1.0` reports about a healthy server.  On a full server the handler asks
  for the next expiry; over no rows the answer is NULL, which does not scan into
  an int, and the server is reported to be in maintenance.
-/

import IncusDemo.Timeout

namespace IncusDemo

open Go Conc Conc.Prog

-- ============================================================================
-- What the handler has read and sent
-- ============================================================================

/-- The number of active rows that an operation has counted. -/
def countOf : Event → Option (Except Error Int)
  | ⟨.query .dbActiveCount, count⟩ => some count
  | _ => none

/-- The next expiry that an operation has been told. -/
def nextOf : Event → Option (Except Error (Option Int))
  | ⟨.query .dbNextExpire, next⟩ => some next
  | _ => none

/-- The connection that an operation has read. -/
def daemonOf : Event → Option (Option InstanceServer)
  | ⟨.incusDaemon, d⟩ => some d
  | _ => none

/-- The object that an operation has encoded, whether or not the client has taken it. -/
def bodyOf : Event → Option JsonObject
  | ⟨.encode body, _⟩ => some body
  | _ => none

theorem mem_of_countOf {l : Log} {count : Except Error Int} (h : l.filterMap countOf = [count]) :
    ⟨.query .dbActiveCount, count⟩ ∈ l := by
  obtain ⟨e, he, hcount⟩ := List.mem_filterMap.mp (h ▸ List.mem_cons_self)
  unfold countOf at hcount
  split at hcount
  · cases hcount
    exact he
  · cases hcount

theorem mem_nextOf_iff {l : Log} {next : Except Error (Option Int)} :
    next ∈ l.filterMap nextOf ↔ ⟨.query .dbNextExpire, next⟩ ∈ l := by
  rw [List.mem_filterMap]
  constructor
  · rintro ⟨e, he, hnext⟩
    unfold nextOf at hnext
    split at hnext
    · cases hnext
      exact he
    · cases hnext
  · exact fun h => ⟨_, h, rfl⟩

theorem mem_of_configs {l : Log} {c : ServerConfig} (h : c ∈ configs l) : ⟨.config, c⟩ ∈ l := by
  obtain ⟨e, he, hc⟩ := List.mem_filterMap.mp h
  unfold configOf at hc
  split at hc
  · cases hc
    exact he
  · cases hc

theorem mem_of_daemonOf {l : Log} {d : Option InstanceServer} (h : d ∈ l.filterMap daemonOf) :
    ⟨.incusDaemon, d⟩ ∈ l := by
  obtain ⟨e, he, hd⟩ := List.mem_filterMap.mp h
  unfold daemonOf at hd
  split at hd
  · cases hd
    exact he
  · cases hd

/-- A request that is answered with a status at all. -/
def Request.AsksStatus (r : Request) : Prop :=
  r.method = "GET" ∧ ∃ address protocol, restClientIP r = .ok (address, protocol)

/-- The next expiry that is reported, and whether that has failed. -/
def nextOr (next : Except Error (Option Int)) : Int × Bool :=
  match next with
  | .ok (some expire) => (expire, false)
  | _ => (0, true)

/-- The queries behind an answer: the count, and on a full server the next expiry. -/
structure StatusQueries (l : Log) (count : Except Error Int) (limit : Int) (next : Int)
    (failure : Bool) : Prop where
  counted : l.filterMap countOf = [count]
  below : countOr count 0 < limit → l.filterMap nextOf = [] ∧ next = 0 ∧ failure = count.toBool.not
  full : limit ≤ countOr count 0 → ∃ answer, l.filterMap nextOf = [answer] ∧
    next = (nextOr answer).1 ∧ failure = (count.toBool.not || (nextOr answer).2)

/-- What `restStatusHandler` has read and sent when it returns. -/
def StatusSent (r : Request) (l : Log) : Prop :=
  (¬ r.AsksStatus ∧ l.filterMap bodyOf = []) ∨
  (r.AsksStatus ∧ ∃ address protocol count c₁ c₂ d next failure, configs l = [c₂, c₁] ∧
    l.filterMap daemonOf = [d] ∧ StatusQueries l count c₁.server.limits.total next failure ∧
    l.filterMap bodyOf =
      [StatusReport.json ⟨address, protocol, countOr count 0, next, failure⟩ c₂ d])

/-- Nothing has been read or sent. -/
structure Blank (l : Log) : Prop where
  configs : configs l = []
  counts : l.filterMap countOf = []
  nexts : l.filterMap nextOf = []
  daemons : l.filterMap daemonOf = []
  bodies : l.filterMap bodyOf = []

/-- What `instanceData` leaves behind. -/
def DataRead (x : Int × Int × Bool) (l : Log) : Prop :=
  ∃ count c, x.1 = countOr count 0 ∧ configs l = [c] ∧
    StatusQueries l count c.server.limits.total x.2.1 x.2.2 ∧ l.filterMap daemonOf = [] ∧
    l.filterMap bodyOf = []

theorem instanceData_traces {l : Log} (h : Blank l) :
    instanceData.Traces (fun _ => True) DataRead l := by
  unfold instanceData
  refine traces_then trivial fun count => traces_then trivial fun c => ?_
  have hcounts : List.filterMap countOf (⟨.config, c⟩ :: ⟨.query .dbActiveCount, count⟩ :: l) =
      [count] := congrArg (count :: ·) h.counts
  have hconfigs : configs (⟨.config, c⟩ :: ⟨.query .dbActiveCount, count⟩ :: l) = [c] :=
    congrArg (c :: ·) h.configs
  refine traces_ite (fun hfull => ?_) fun hbelow => ?_
  · refine traces_then trivial fun next => ?_
    have hnexts : List.filterMap nextOf (⟨.query .dbNextExpire, next⟩ :: ⟨.config, c⟩ ::
        ⟨.query .dbActiveCount, count⟩ :: l) = [next] := congrArg (next :: ·) h.nexts
    have hnot : ¬ countOr count 0 < c.server.limits.total := Int.not_lt.mpr hfull
    rcases next with err | (_ | expire)
    · exact ⟨count, c, rfl, hconfigs, ⟨hcounts, fun hlt => absurd hlt hnot,
        fun _ => ⟨_, hnexts, rfl, by simp [nextOr]⟩⟩, h.daemons, h.bodies⟩
    · exact ⟨count, c, rfl, hconfigs, ⟨hcounts, fun hlt => absurd hlt hnot,
        fun _ => ⟨_, hnexts, rfl, by simp [nextOr]⟩⟩, h.daemons, h.bodies⟩
    · exact ⟨count, c, rfl, hconfigs, ⟨hcounts, fun hlt => absurd hlt hnot,
        fun _ => ⟨_, hnexts, rfl, by simp [nextOr]⟩⟩, h.daemons, h.bodies⟩
  · exact ⟨count, c, rfl, hconfigs, ⟨hcounts, fun _ => ⟨h.nexts, rfl, rfl⟩,
      fun hfull => absurd hfull hbelow⟩, h.daemons, h.bodies⟩

theorem StatusSent.httpError {r : Request} {l : Log} {text : String} {code : Nat} {u : Unit}
    (h : StatusSent r l) : StatusSent r (⟨.httpError text code, u⟩ :: l) := by
  rcases h with ⟨hasks, hbodies⟩ | ⟨hasks, address, protocol, count, c₁, c₂, d, next, failure,
    hconfigs, hdaemons, hqueries, hbodies⟩
  · exact .inl ⟨hasks, hbodies⟩
  · exact .inr ⟨hasks, address, protocol, count, c₁, c₂, d, next, failure, hconfigs, hdaemons,
      ⟨hqueries.counted, hqueries.below, hqueries.full⟩, hbodies⟩

theorem restStatusHandler_traces (r : Request) :
    (restStatusHandler r).Traces (fun _ => True) (fun _ l => True ∧ StatusSent r l) [] := by
  unfold restStatusHandler
  refine traces_ite (fun hmethod => ?_) fun hmethod => ?_
  · exact traces_op trivial fun res => ⟨trivial, .inl ⟨fun h => hmethod h.1, rfl⟩⟩
  refine traces_then trivial fun _ => traces_then trivial fun _ => ?_
  cases hip : restClientIP r with
  | error err =>
    refine traces_op trivial fun res => ⟨trivial, .inl ⟨?_, rfl⟩⟩
    rintro ⟨-, address, protocol, hok⟩
    cases hip.symm.trans hok
  | ok x =>
    obtain ⟨address, protocol⟩ := x
    have hasks : r.AsksStatus := ⟨not_not.mp hmethod, address, protocol, hip⟩
    refine traces_bind.mpr (traces_mono ?_ (instanceData_traces ⟨rfl, rfl, rfl, rfl, rfl⟩))
    rintro ⟨instanceCount, instanceNext, failure⟩ l
      ⟨count, c₁, rfl, hconfigs, hqueries, hdaemons, hbodies⟩
    refine traces_then trivial fun c₂ => traces_then trivial fun d => ?_
    unfold reply
    refine traces_then trivial fun res => ?_
    have hsent : StatusSent r (⟨.encode (StatusReport.json ⟨address, protocol, countOr count 0,
        instanceNext, failure⟩ c₂ d), res⟩ :: ⟨.incusDaemon, d⟩ :: ⟨.config, c₂⟩ :: l) := by
      refine .inr ⟨hasks, address, protocol, count, c₁, c₂, d, instanceNext, failure,
        congrArg (c₂ :: ·) hconfigs, congrArg (d :: ·) hdaemons,
        ⟨hqueries.counted, hqueries.below, hqueries.full⟩, congrArg (_ :: ·) hbodies⟩
    cases res with
    | error err => exact traces_op trivial fun _ => ⟨trivial, hsent.httpError⟩
    | ok _ => exact ⟨trivial, hsent⟩

-- ============================================================================
-- What is reported
-- ============================================================================

/-- The assumptions on a healthy server, as the handler meets it: no query fails, maintenance is
    off, and there is a connection. -/
structure Healthy (l : Log) : Prop where
  queries : ∀ q err, ⟨.query q, .error err⟩ ∉ l
  maintenance : ∀ c, ⟨.config, c⟩ ∈ l → c.server.maintenance.enabled = false
  connected : ⟨.incusDaemon, none⟩ ∉ l

/-- The expiries of the active rows. -/
def Db.activeExpiries (db : Db) : Set Int :=
  { expire | ∃ i row, (i, row) ∈ db.sessions.rows ∧ row.status = 0 ∧ row.instanceExpiry = expire }

theorem mem_activeExpiries {db : Db} {expire : Int} : expire ∈ db.activeExpiries ↔
    expire ∈ (db.sessions.select fun _ s => s.isActive).map fun r => r.2.instanceExpiry := by
  simp only [Db.activeExpiries, Set.mem_ofPred_eq, List.mem_map, Prod.exists, Sql.Table.mem_select,
    Session.isActive, beq_iff_eq, and_assoc]

/-- MIN over the active rows is their least expiry. -/
theorem nextExpire_eq_some_iff {db : Db} {m : Int} :
    db.nextExpire = some m ↔ IsLeast db.activeExpiries m := by
  unfold Db.nextExpire IsLeast lowerBounds
  rw [List.min?_eq_some_iff]
  simp only [mem_activeExpiries, Set.mem_ofPred_eq]

/-- MIN is NULL when there is no active row. -/
theorem nextExpire_eq_none_iff {db : Db} :
    db.nextExpire = none ↔ ¬ db.activeExpiries.Nonempty := by
  unfold Db.nextExpire
  rw [List.min?_eq_none_iff, Set.not_nonempty_iff_eq_empty, Set.eq_empty_iff_forall_notMem,
    List.eq_nil_iff_forall_not_mem]
  simp only [mem_activeExpiries]

/-- The handler asks for the next expiry in the state `s₁`. -/
def AsksNext (s₀ s : Sys) (t : Nat) (s₁ : Sys) : Prop :=
  ∃ next, MovesAt s₀ s t ⟨.query .dbNextExpire, next⟩ s₁

/-- The server is reported to be operational, and a full one with the least expiry of the sessions
    that were active when the handler asked. -/
structure StatusCorrect (s₀ s : Sys) (t : Nat) (l : Log) : Prop where
  operational : ∃ body ∈ l.filterMap bodyOf,
    ("server_status", .num ServerStatusCode.serverOperational.code) ∈ body
  next : ∀ s₁, AsksNext s₀ s t s₁ → s₁.world.db.activeExpiries.Nonempty →
    ∃ m, IsLeast s₁.world.db.activeExpiries m ∧
      ∀ body ∈ l.filterMap bodyOf, ("instance_next", .num m) ∈ body

/-- Fewer sessions were counted than the limit read right afterwards. -/
def HasRoom (l : Log) : Prop :=
  ∃ n c₁ c₂, l.filterMap countOf = [.ok n] ∧ configs l = [c₂, c₁] ∧ n < c₁.server.limits.total

theorem operational_mem_json {rep : StatusReport} {c : ServerConfig} {d : Option InstanceServer} :
    ("server_status", .num ServerStatusCode.serverOperational.code) ∈ rep.json c d ↔
      c.server.maintenance.enabled = false ∧ rep.failure = false ∧ d ≠ none := by
  have hcode : ServerStatusCode.serverOperational.code ≠ ServerStatusCode.serverMaintenance.code := by
    decide
  unfold StatusReport.json
  dsimp only
  split
  · rename_i hop
    simpa using hop
  · rename_i hop
    simpa [hcode] using hop

theorem next_mem_json {rep : StatusReport} {c : ServerConfig} {d : Option InstanceServer} :
    ("instance_next", .num rep.instanceNext) ∈ rep.json c d := by
  unfold StatusReport.json
  simp

/-- What the handler was told is what the database said when it asked. -/
theorem nextExpire_of_asksNext {s₀ s s₁ : Sys} {t : Nat} {p : Proc} {l : Log}
    {next : Option Int} (hr : Ran s t p l) (hnext : l.filterMap nextOf = [.ok next])
    (h : AsksNext s₀ s t s₁) : s₁.world.db.nextExpire = next := by
  obtain ⟨answer, hmoves⟩ := h
  have hmem := mem_nextOf_iff.mpr (hmoves.mem_log hr)
  rw [hnext] at hmem
  obtain rfl := List.mem_singleton.mp hmem
  have htrue : next = s₁.world.db.nextExpire := hmoves.truthful
  exact htrue.symm

theorem not_asksNext {s₀ s s₁ : Sys} {t : Nat} {p : Proc} {l : Log} (hr : Ran s t p l)
    (hnext : l.filterMap nextOf = []) : ¬ AsksNext s₀ s t s₁ := by
  rintro ⟨answer, hmoves⟩
  have hmem := mem_nextOf_iff.mpr (hmoves.mem_log hr)
  rw [hnext] at hmem
  cases hmem

/-- In every run: on a healthy server the status is correct exactly when the request asks for it,
    and the server had room or a session was active when the handler asked for the next expiry. -/
theorem status_correct_iff {s₀ s : Sys} (h0 : Initial s₀) (hrun : server.Run Machine.anyStep s₀ s)
    {t : Nat} {r : Request} {l : Log} (hr : Returned s t (.rest (.status r)) l) (hl : Healthy l) :
    StatusCorrect s₀ s t l ↔ r.AsksStatus ∧
      (HasRoom l ∨ ∃ s₁, AsksNext s₀ s t s₁ ∧ s₁.world.db.activeExpiries.Nonempty) := by
  have hran := hr.runs.ran
  have hsent : StatusSent r l := hr.traced
    (hrun.traced (p := .rest (.status r)) (restStatusHandler_traces r) h0.allStart)
  rcases hsent with ⟨hasks, hbodies⟩ | ⟨hasks, address, protocol, count, c₁, c₂, d, next, failure,
    hconfigs, hdaemons, hqueries, hbodies⟩
  · refine iff_of_false (fun h => ?_) fun h => hasks h.1
    obtain ⟨body, hbody, -⟩ := h.operational
    rw [hbodies] at hbody
    cases hbody
  obtain ⟨n, rfl⟩ : ∃ n, count = .ok n := by
    cases count with
    | ok n => exact ⟨n, rfl⟩
    | error err => exact absurd (mem_of_countOf hqueries.counted) (hl.queries _ _)
  have hmaintenance := hl.maintenance c₂ (mem_of_configs (hconfigs ▸ List.mem_cons_self))
  have hd : d ≠ none := by
    rintro rfl
    exact hl.connected (mem_of_daemonOf (hdaemons ▸ List.mem_cons_self))
  have hoperational : (∃ body ∈ l.filterMap bodyOf,
      ("server_status", .num ServerStatusCode.serverOperational.code) ∈ body) ↔ failure = false := by
    rw [hbodies]
    simp [operational_mem_json, hmaintenance, hd]
  rcases lt_or_ge n c₁.server.limits.total with hroom | hfull
  · obtain ⟨hnext, -, hfailure⟩ := hqueries.below hroom
    refine iff_of_true ⟨hoperational.mpr hfailure, fun s₁ hasked => ?_⟩
      ⟨hasks, .inl ⟨n, c₁, c₂, hqueries.counted, hconfigs, hroom⟩⟩
    exact absurd hasked (not_asksNext hran hnext)
  · obtain ⟨answer, hanswer, rfl, hfailure⟩ := hqueries.full hfull
    have hasked : ⟨.query .dbNextExpire, answer⟩ ∈ l :=
      mem_nextOf_iff.mp (hanswer ▸ List.mem_cons_self)
    obtain ⟨s₁, hmoves⟩ := movesAt_of_ran h0 hrun hran hasked
    rcases answer with err | (_ | m)
    · exact absurd hasked (hl.queries _ _)
    · -- NULL: no session was active
      refine iff_of_false (fun h => ?_) ?_
      · have hfalse := hoperational.mp h.operational
        rw [hfailure] at hfalse
        cases hfalse
      · rintro ⟨-, ⟨n', c₁', c₂', hcount, hconfigs', hroom⟩ | ⟨s₂, hasked₂, hactive⟩⟩
        · rw [hqueries.counted] at hcount
          rw [hconfigs] at hconfigs'
          cases hcount
          cases hconfigs'
          exact absurd hfull (Int.not_le.mpr hroom)
        · exact nextExpire_eq_none_iff.mp (nextExpire_of_asksNext hran hanswer hasked₂) hactive
    · have hleast : ∀ s₂, AsksNext s₀ s t s₂ → IsLeast s₂.world.db.activeExpiries m := fun s₂ h₂ =>
        nextExpire_eq_some_iff.mp (nextExpire_of_asksNext hran hanswer h₂)
      refine iff_of_true ⟨hoperational.mpr hfailure, fun s₂ h₂ _ => ⟨m, hleast s₂ h₂, ?_⟩⟩
        ⟨hasks, .inr ⟨s₁, ⟨_, hmoves⟩, m, (hleast s₁ ⟨_, hmoves⟩).1⟩⟩
      intro body hbody
      rw [hbodies] at hbody
      obtain rfl := List.mem_singleton.mp hbody
      exact next_mem_json

/-- A request for the status. -/
def statusRequest : Request := ⟨"GET", "", "192.0.2.1:50000", [], true⟩

/-- Thread `t` has come to the end of the request for the status, and `f` holds of its log. -/
def reported (t : Nat) (f : Log → Bool) (s : Sys) : Bool :=
  match s.threads[t]? with
  | some ⟨.rest (.status r), true, l, .ret _⟩ => r == statusRequest && f l
  | _ => false

theorem returned_of_reported {t : Nat} {f : Log → Bool} {s : Sys} (h : reported t f s = true) :
    ∃ l, Returned s t (.rest (.status statusRequest)) l ∧ f l = true := by
  unfold reported at h
  split at h
  · rename_i r l u hth
    obtain ⟨hr, hf⟩ := Bool.and_eq_true_iff.mp h
    cases beq_iff_eq.mp hr
    exact ⟨l, ⟨_, hth, rfl, rfl, rfl, rfl⟩, hf⟩
  · cases h

/-- Nothing in the event speaks against a healthy server. -/
def isHealthy : Event → Bool
  | ⟨.query _, .error _⟩ => false
  | ⟨.config, c⟩ => !c.server.maintenance.enabled
  | ⟨.incusDaemon, none⟩ => false
  | _ => true

theorem healthy_of_all {l : Log} (h : l.all isHealthy = true) : Healthy l := by
  have hall := List.all_eq_true.mp h
  refine ⟨fun q err hmem => ?_, fun c hmem => ?_, fun hmem => ?_⟩
  · cases hall _ hmem
  · simpa [isHealthy] using hall _ hmem
  · cases hall _ hmem

/-- Fewer sessions were counted than the limit. -/
def hasRoom (l : Log) : Bool :=
  match l.filterMap countOf, configs l with
  | [.ok n], [_, c] => decide (n < c.server.limits.total)
  | _, _ => false

theorem hasRoom_of {l : Log} (h : hasRoom l = true) : HasRoom l := by
  unfold hasRoom at h
  split at h
  · rename_i n c₂ c₁ hcount hconfigs
    exact ⟨n, c₁, c₂, hcount, hconfigs, decide_eq_true_iff.mp h⟩
  · cases h

/-- The handler has been told an expiry. -/
def hasNext (l : Log) : Bool :=
  match l.filterMap nextOf with
  | [.ok (some _)] => true
  | _ => false

theorem asksNext_of_hasNext {s₀ s : Sys} (h0 : Initial s₀) (hrun : server.Run Machine.anyStep s₀ s)
    {t : Nat} {p : Proc} {l : Log} (hr : Ran s t p l) (h : hasNext l = true) :
    ∃ s₁, AsksNext s₀ s t s₁ ∧ s₁.world.db.activeExpiries.Nonempty := by
  unfold hasNext at h
  split at h
  · rename_i m hnext
    obtain ⟨s₁, hmoves⟩ := movesAt_of_ran h0 hrun hr (mem_nextOf_iff.mp (hnext ▸ List.mem_cons_self))
    have hleast := nextExpire_eq_some_iff.mp (nextExpire_of_asksNext hr hnext ⟨_, hmoves⟩)
    exact ⟨s₁, ⟨_, hmoves⟩, m, hleast.1⟩
  · cases h

/-- A server that takes sessions is reported to be operational, and so is one whose only session
    is taken. -/
theorem status_correct_small :
    (∃ s l, Healthy l ∧ HasRoom l ∧ StatusCorrect (emptyServer 0) s 1 l) ∧
    ∃ s l, Healthy l ∧ hasNext l = true ∧ StatusCorrect (twoRows 1) s 3 l := by
  have hasks : statusRequest.AsksStatus := ⟨rfl, "192.0.2.1", "IPv4", by decide⟩
  constructor
  · obtain ⟨s, hrun, hs⟩ := server.run_of_check Machine.noTest (fun _ _ _ => trivial)
      (emptyServer 0) (oks 0 4 ++ act (.rest (.status statusRequest)) ++ oks 1 7)
      (reported 1 fun l => l.all isHealthy && hasRoom l) (by decide +kernel)
    obtain ⟨l, hr, hl⟩ := returned_of_reported hs
    obtain ⟨hhealthy, hroom⟩ := Bool.and_eq_true_iff.mp hl
    have hl := healthy_of_all hhealthy
    exact ⟨s, l, hl, hasRoom_of hroom, (status_correct_iff (emptyServer_initial 0) hrun hr hl).mpr
      ⟨hasks, .inl (hasRoom_of hroom)⟩⟩
  · obtain ⟨s, hrun, hs⟩ := server.run_of_check Machine.noTest (fun _ _ _ => trivial) (twoRows 1)
      (twoRequests ++ oks 1 19 ++ act (.rest (.status statusRequest)) ++ oks 3 8)
      (reported 3 fun l => l.all isHealthy && hasNext l) (by decide +kernel)
    obtain ⟨l, hr, hl⟩ := returned_of_reported hs
    obtain ⟨hhealthy, hnext⟩ := Bool.and_eq_true_iff.mp hl
    have hl := healthy_of_all hhealthy
    exact ⟨s, l, hl, hnext, (status_correct_iff (twoRows_initial 1) hrun hr hl).mpr
      ⟨hasks, .inr (asksNext_of_hasNext (twoRows_initial 1) hrun hr.runs.ran hnext)⟩⟩

/-- A limit of no sessions at all, on a server that has none. -/
theorem healthy_in_maintenance : ¬ ∀ s₀ s t r l, Initial s₀ → server.Run Machine.anyStep s₀ s →
    Returned s t (.rest (.status r)) l → r.AsksStatus → Healthy l → StatusCorrect s₀ s t l := by
  intro hall
  have hinitial : Initial (bootSys (smallWorld []) (smallConfig 0 0)) := bootSys_initial _ _
  obtain ⟨s, hrun, hs⟩ := server.run_of_check Machine.noTest (fun _ _ _ => trivial)
    (bootSys (smallWorld []) (smallConfig 0 0))
    (oks 0 4 ++ act (.rest (.status statusRequest)) ++ oks 1 8)
    (reported 1 fun l => l.all isHealthy && (l.filterMap bodyOf).all fun body =>
      !body.contains ("server_status", .num ServerStatusCode.serverOperational.code))
    (by decide +kernel)
  obtain ⟨l, hr, hl⟩ := returned_of_reported hs
  obtain ⟨hhealthy, hbodies⟩ := Bool.and_eq_true_iff.mp hl
  have hasks : statusRequest.AsksStatus := ⟨rfl, "192.0.2.1", "IPv4", by decide⟩
  obtain ⟨body, hbody, hoperational⟩ :=
    (hall _ s 1 _ l hinitial hrun hr hasks (healthy_of_all hhealthy)).operational
  have hnot := List.all_eq_true.mp hbodies body hbody
  simp [hoperational] at hnot

end IncusDemo
