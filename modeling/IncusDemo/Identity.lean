/-
  IncusDemo.Identity

  Who a client is.  `restClientIP` parses the address of a client but goes on
  with the text, and so do the blocklist, the quota and the statistics: two
  spellings of one address are two clients to each of them.
-/

import IncusDemo.Conc.Eval
import IncusDemo.Timeout
import IncusDemo.Works
import Mathlib.Data.Finset.Card

namespace IncusDemo

open Go Conc Conc.Prog

-- ============================================================================
-- Refusals
-- ============================================================================

/-- The operation tells a client that it is banned or has reached its quota. -/
def refuses : Op → Bool
  | .encode body => body == [("status", .num StatusCode.instanceQuotaReached.code)] ||
    body == [("status", .num StatusCode.instanceUserBanned.code)]
  | _ => false

/-- The program refuses nobody for who it is. -/
abbrev Lets {α : Type} (prog : Prog α) : Prop := prog.Performs fun o => refuses o = false

theorem refuses_message (msg : String) : refuses (.encode [("message", .str msg)]) = false := by
  simp [refuses]

theorem refuses_info (i : Info) : refuses (.encode i.json) = false := by
  have hid : ∀ n : Int, i.json ≠ [("status", .num n)] := by
    intro n heq
    have hmem : ("id", Json.str i.id) ∈ i.json := by simp [Info.json]
    rw [heq] at hmem
    simp at hmem
  simp [refuses, hid]

/-! Once a request is let in, no part of the handler refuses it for who it is. -/

theorem refuses_of_works (o : Op) (h : o.works = true) : refuses o = false := by
  cases o with
  | encode body =>
    obtain ⟨msg, rfl⟩ := message_of_works h
    exact refuses_message msg
  | _ => rfl

theorem forceDelete_lets (name : String) : Lets (forceDelete name) :=
  (forceDelete_works name).mono refuses_of_works

theorem dbGetAllocated_lets (expiry date : Int) (ip terms : String) :
    Lets (dbGetAllocated expiry date ip terms) := by
  unfold dbGetAllocated
  refine performs_then rfl fun c => performs_ite (performs_pure _) (performs_then rfl fun r => ?_)
  rcases r with e | (_ | row)
  · exact performs_pure _
  · exact performs_pure _
  · refine performs_ite (performs_pure _) (performs_then rfl fun r => ?_)
    cases r with
    | error e => exact performs_pure _
    | ok _ => exact performs_pure _

theorem unknownError_lets : Lets (restStartError .instanceUnknownError) := by
  unfold restStartError
  refine performs_then rfl fun r => ?_
  cases r with
  | error e => exact performs_perform rfl
  | ok _ => exact performs_pure _

theorem deliver_lets (a : Acquired) : Lets (deliver a) := by
  unfold deliver
  refine performs_then rfl fun c => ?_
  split
  · exact (forceDelete_lets _).bind fun _ => unknownError_lets
  · refine performs_then rfl fun _ => performs_then (refuses_info _) fun r => ?_
    cases r with
    | error e => exact (forceDelete_lets _).bind fun _ => unknownError_lets
    | ok _ => exact performs_perform rfl

theorem useAllocated_lets (id : Nat) (row : Session) (expiry : Int) :
    Lets (useAllocated id row expiry) := by
  unfold useAllocated
  refine performs_then rfl fun _ =>
    ((instanceStart_works _ statusUpdate_works).mono refuses_of_works).bind fun r => ?_
  cases r with
  | error e => exact unknownError_lets.bind fun _ => performs_pure _
  | ok _ => exact performs_pure _

theorem useFresh_lets (date : Int) (ip terms : String) : Lets (useFresh date ip terms) := by
  unfold useFresh
  refine ((instanceCreate_works statusUpdate_works).mono refuses_of_works).bind fun r => ?_
  cases r with
  | error e => exact unknownError_lets.bind fun _ => performs_pure _
  | ok info =>
    refine performs_then rfl fun now => performs_then rfl fun c => performs_then rfl fun r => ?_
    cases r with
    | error e =>
      exact (forceDelete_lets _).bind fun _ => unknownError_lets.bind fun _ => performs_pure _
    | ok id => exact performs_pure _

theorem startSession_lets (date : Int) (ip terms : String) : Lets (startSession date ip terms) := by
  unfold startSession
  refine performs_then rfl fun now => performs_then rfl fun c =>
    (dbGetAllocated_lets _ _ _ _).bind fun r => ?_
  cases r with
  | error e =>
    refine (useFresh_lets date ip terms).bind fun acquired => ?_
    cases acquired with
    | none => exact performs_pure _
    | some a => exact deliver_lets a
  | ok x =>
    refine (useAllocated_lets x.1 x.2 _).bind fun acquired => ?_
    cases acquired with
    | none => exact performs_pure _
    | some a => exact deliver_lets a

-- ============================================================================
-- The decisions of the handler
-- ============================================================================

/-- The handler, run on its own by thread `t` with no failure, answers `r` with `code`. -/
def Refuses (t : Nat) (w : World) (r : Request) (code : StatusCode) : Prop :=
  ∃ a, ⟨.encode [("status", .num code.code)], a⟩ ∈ server.events t .ok (restStartHandler r) w

/-- The request is one that the handler looks at the client of. -/
structure Eligible (w : World) (r : Request) : Prop where
  get : r.method = "GET"
  up : ¬ (w.config.server.maintenance.enabled ∨ w.incusDaemon = none)
  flusher : r.flusher = true
  terms : r.formValue "terms" ≠ ""
  accepted : r.formValue "terms" = w.config.server.termsHash

/-- The blocklist bans the address. -/
def Banned (w : World) (ip : String) : Prop := ip ∈ w.config.server.blocklist.elems

instance (w : World) (ip : String) : Decidable (Banned w ip) := inferInstanceAs (Decidable (_ ∈ _))

/-- There is room on the server, but `n` active sessions are the quota of a client. -/
structure OverQuota (w : World) (n : Nat) : Prop where
  room : (w.db.activeCount : Int) < w.config.server.limits.total
  limited : w.config.server.limits.ip ≠ 0
  reached : w.config.server.limits.ip ≤ n

/-- A client with more sessions has its quota as well. -/
theorem OverQuota.mono {w : World} {m n : Nat} (h : OverQuota w m) (hle : m ≤ n) : OverQuota w n :=
  ⟨h.room, h.limited, h.reached.trans (by exact_mod_cast hle)⟩

section Decisions

variable {t : Nat} {w : World} {r : Request} {ip protocol : String}

theorem restStartError_events (code : StatusCode) :
    server.events t .ok (restStartError code) w = [⟨.encode [("status", .num code.code)], .ok ()⟩] :=
  rfl

/-- The operations of the handler before it looks at the client send nothing. -/
theorem restStartHandler_events (h : Eligible w r) (hip : restClientIP r = .ok (ip, protocol)) :
    ∃ pre, (∀ e ∈ pre, ∀ body, e.op ≠ .encode body) ∧
      server.events t .ok (restStartHandler r) w =
        pre ++ (if Banned w ip then server.events t .ok (restStartError .instanceUserBanned) w
          else server.events t .ok (admitSession w.clock.unix ip (r.formValue "terms")) w) := by
  refine ⟨[⟨.config, w.config⟩, ⟨.incusDaemon, w.incusDaemon⟩,
    ⟨.header "Access-Control-Allow-Origin" "*", ()⟩, ⟨.header "Content-Type" "text/plain", ()⟩,
    ⟨.header "Transfer-Encoding" "chunked", ()⟩, ⟨.writeHeader 200, ()⟩, ⟨.flush, ()⟩,
    ⟨.now, w.clock⟩, ⟨.config, w.config⟩, ⟨.config, w.config⟩], by simp, ?_⟩
  unfold restStartHandler
  rw [if_neg (not_not.mpr h.get), Machine.events_then rfl, Machine.events_then rfl, if_neg h.up,
    Machine.events_then rfl, Machine.events_then rfl, Machine.events_then rfl,
    Machine.events_then rfl, if_neg (by simp [h.flusher]), Machine.events_then rfl]
  unfold checkRequest
  rw [Machine.events_then rfl]
  simp only [hip]
  rw [if_neg h.terms, Machine.events_then rfl, if_neg (not_not.mpr h.accepted),
    Machine.events_then rfl]
  by_cases hban : Banned w ip
  · rw [if_pos hban, if_pos (show ip ∈ w.config.server.blocklist.elems from hban)]
    rfl
  · rw [if_neg hban, if_neg (show ip ∉ w.config.server.blocklist.elems from hban)]
    rfl

/-- The handler looks at the client of no other request. -/
theorem eligible_of_refuses {e : Event} (he : e ∈ server.events t .ok (restStartHandler r) w)
    (hrefuses : refuses e.op = true) (hip : restClientIP r = .ok (ip, protocol)) : Eligible w r := by
  have hskip : ∀ {o : Op} {a : Ret o} {l : List Event}, refuses o = false →
      e ∈ (⟨o, a⟩ :: l : List Event) → e ∈ l := by
    intro o a l ho he
    rcases List.mem_cons.mp he with rfl | he
    · rw [ho] at hrefuses
      cases hrefuses
    · exact he
  unfold restStartHandler at he
  by_cases hget : r.method ≠ "GET"
  · rw [if_pos hget, Machine.events_perform rfl] at he
    cases hskip rfl he
  rw [if_neg hget, Machine.events_then rfl, Machine.events_then rfl] at he
  have he := hskip rfl (hskip rfl he)
  by_cases hdown : w.config.server.maintenance.enabled ∨ w.incusDaemon = none
  · rw [if_pos hdown, Machine.events_perform rfl] at he
    cases hskip rfl he
  rw [if_neg hdown, Machine.events_then rfl, Machine.events_then rfl, Machine.events_then rfl,
    Machine.events_then rfl] at he
  have he := hskip rfl (hskip rfl (hskip rfl (hskip rfl he)))
  by_cases hflusher : ¬ r.flusher
  · rw [if_pos hflusher, Machine.events_perform rfl] at he
    cases hskip rfl he
  rw [if_neg hflusher, Machine.events_then rfl] at he
  have he := hskip rfl he
  unfold checkRequest at he
  rw [Machine.events_then rfl] at he
  have he := hskip rfl he
  simp only [hip] at he
  by_cases hterms : r.formValue "terms" = ""
  · rw [if_pos hterms, Machine.events_perform rfl] at he
    cases hskip rfl he
  rw [if_neg hterms, Machine.events_then rfl] at he
  have he := hskip rfl he
  by_cases haccepted : r.formValue "terms" ≠ w.config.server.termsHash
  · rw [if_pos haccepted, restStartError_events] at he
    cases hskip rfl he
  exact ⟨not_not.mp hget, hdown, by simpa using hflusher, hterms, not_not.mp haccepted⟩

/-- The operations before the limits are looked at send nothing either. -/
theorem admitSession_events (t : Nat) (w : World) (ip : String) (date : Int) (terms : String) :
    ∃ pre, (∀ e ∈ pre, ∀ body, e.op ≠ .encode body) ∧
      server.events t .ok (admitSession date ip terms) w =
        pre ++ (if (w.db.activeCount : Int) ≥ w.config.server.limits.total then
            server.events t .ok (restStartError .instanceServerFull) w
          else if w.config.server.limits.ip ≠ 0 ∧
              (w.db.activeCountForIP ip : Int) ≥ w.config.server.limits.ip then
            server.events t .ok (restStartError .instanceQuotaReached) w
          else server.events t .ok (startSession date ip terms) w) := by
  have hcount : server.exec w t (.query .dbActiveCount) .ok = some (.ok (w.db.activeCount : Int), w) :=
    rfl
  have hcountIP : server.exec w t (.query (.dbActiveCountForIP ip)) .ok =
    some (.ok (w.db.activeCountForIP ip : Int), w) := rfl
  have hconfig : server.exec w t .config .ok = some (w.config, w) := rfl
  unfold admitSession
  rw [Machine.events_then hcount, Machine.events_then hconfig]
  by_cases hfull : countOr (.ok (w.db.activeCount : Int)) w.config.server.limits.total ≥
    w.config.server.limits.total
  · refine ⟨[⟨.query .dbActiveCount, .ok w.db.activeCount⟩, ⟨.config, w.config⟩], by simp, ?_⟩
    rw [if_pos hfull, if_pos (show (w.db.activeCount : Int) ≥ _ from hfull)]
    rfl
  · refine ⟨[⟨.query .dbActiveCount, .ok w.db.activeCount⟩, ⟨.config, w.config⟩,
      ⟨.query (.dbActiveCountForIP ip), .ok (w.db.activeCountForIP ip)⟩, ⟨.config, w.config⟩],
      by simp, ?_⟩
    rw [if_neg hfull, if_neg (show ¬ (w.db.activeCount : Int) ≥ _ from hfull),
      Machine.events_then hcountIP, Machine.events_then hconfig]
    by_cases hquota : w.config.server.limits.ip ≠ 0 ∧
      countOr (.ok (w.db.activeCountForIP ip : Int)) w.config.server.limits.ip ≥
        w.config.server.limits.ip
    · rw [if_pos hquota, if_pos (show _ ∧ (w.db.activeCountForIP ip : Int) ≥ _ from hquota)]
      rfl
    · rw [if_neg hquota, if_neg (show ¬ (_ ∧ (w.db.activeCountForIP ip : Int) ≥ _) from hquota)]
      rfl

/-- An eligible request is told that it is banned exactly when it is. -/
theorem refuses_banned_iff (h : Eligible w r) (hip : restClientIP r = .ok (ip, protocol)) :
    Refuses t w r .instanceUserBanned ↔ Banned w ip := by
  obtain ⟨pre, hpre, heq⟩ := restStartHandler_events (t := t) h hip
  obtain ⟨pre', hpre', heq'⟩ :=
    admitSession_events t w ip w.clock.unix (r.formValue "terms")
  unfold Refuses
  rw [heq, heq']
  constructor
  · rintro ⟨a, ha⟩
    by_contra hno
    rw [if_neg hno, List.mem_append, List.mem_append] at ha
    rcases ha with ha | ha | ha
    · exact hpre _ ha _ rfl
    · exact hpre' _ ha _ rfl
    · split at ha
      · simp [restStartError_events, StatusCode.code] at ha
      · split at ha
        · simp [restStartError_events, StatusCode.code] at ha
        · have hlets : refuses (.encode [("status", .num StatusCode.instanceUserBanned.code)]) = false :=
            Machine.mem_events (startSession_lets _ _ _) ha
          cases hlets
  · intro hban
    rw [if_pos hban]
    exact ⟨.ok (), List.mem_append_right _ (List.mem_singleton_self _)⟩

/-- An eligible request that is not banned is told of its quota exactly when it has reached it. -/
theorem refuses_quota_iff (h : Eligible w r) (hip : restClientIP r = .ok (ip, protocol)) :
    Refuses t w r .instanceQuotaReached ↔
      ¬ Banned w ip ∧ OverQuota w (w.db.activeCountForIP ip) := by
  obtain ⟨pre, hpre, heq⟩ := restStartHandler_events (t := t) h hip
  obtain ⟨pre', hpre', heq'⟩ :=
    admitSession_events t w ip w.clock.unix (r.formValue "terms")
  unfold Refuses
  rw [heq, heq']
  constructor
  · rintro ⟨a, ha⟩
    rw [List.mem_append] at ha
    rcases ha with ha | ha
    · exact absurd rfl (hpre _ ha _)
    split at ha
    · simp [restStartError_events, StatusCode.code] at ha
    · rename_i hban
      rw [List.mem_append] at ha
      rcases ha with ha | ha
      · exact absurd rfl (hpre' _ ha _)
      split at ha
      · simp [restStartError_events, StatusCode.code] at ha
      · rename_i hroom
        split at ha
        · rename_i hquota
          exact ⟨hban, ⟨by omega, hquota.1, hquota.2⟩⟩
        · have hlets : refuses (.encode [("status", .num StatusCode.instanceQuotaReached.code)]) = false :=
            Machine.mem_events (startSession_lets _ _ _) ha
          cases hlets
  · rintro ⟨hban, hover⟩
    have hroom := hover.room
    rw [if_neg hban, if_neg (by omega), if_pos ⟨hover.limited, hover.reached⟩]
    exact ⟨.ok (), List.mem_append_right _ (List.mem_append_right _ (List.mem_singleton_self _))⟩

end Decisions

-- ============================================================================
-- Statistics
-- ============================================================================

/-- The clause of `dbGetStats` at time `now`. -/
def statsWhereAt (now : Time) (period : String) : StatsWhere :=
  if period = "current" then .current
  else
    match periodSeconds period with
    | some seconds => .since (now.unix - seconds)
    | none => .all

/-- The count of `dbGetStats` over a table. -/
def Db.stats (db : Db) (unique : Bool) (where_ : StatsWhere) (network : Option IPNet) : Int :=
  match network with
  | none => (db.requestIPs unique where_).length
  | some network => (db.requestIPs unique where_).countP (inNetwork network)

/-- Without a failure, `dbGetStats` counts and changes nothing. -/
theorem dbGetStats_value (t : Nat) (w : World) (period : String) (unique : Bool)
    (network : Option IPNet) : server.value t .ok (dbGetStats period unique network) w =
      some (.ok (w.db.stats unique (statsWhereAt w.clock period) network), w) := by
  have hwhere : server.value t .ok (statsWhere period) w = some (statsWhereAt w.clock period, w) := by
    unfold statsWhere statsWhereAt
    split
    · rfl
    · cases periodSeconds period with
      | none => rfl
      | some seconds => exact Machine.value_then rfl
  unfold dbGetStats
  rw [Machine.value_bind, hwhere]
  cases network with
  | none => rfl
  | some network =>
    have hselect : ∀ x, server.exec w t (.query (.selectRequestIP unique x)) .ok =
      some (.ok (w.db.requestIPs unique x), w) := fun _ => rfl
    simp only [Option.bind_some]
    rw [Machine.value_then (hselect _)]
    rfl

-- ============================================================================
-- Two spellings
-- ============================================================================

/-- The requests differ in the address alone, which is `a` in one and `b` in the other. -/
structure Respelled (a b : String) (r r' : Request) : Prop where
  method : r'.method = r.method
  form : r'.form = r.form
  flusher : r'.flusher = r.flusher
  before : ∃ protocol, restClientIP r = .ok (a, protocol)
  after : ∃ protocol, restClientIP r' = .ok (b, protocol)

/-- The session, as if requested from `ip`. -/
def Session.requestedFrom (ip : String) (s : Session) : Session := { s with requestIP := ip }

/-- The history in which some requests from `a` were made as from `b`. -/
def Db.respell (db : Db) (some_ : Nat → Bool) (a b : String) : Db :=
  let respelled := fun i s => some_ i && Session.requestIP s == a
  { db with sessions := db.sessions.update respelled (Session.requestedFrom b) }

/-- The active sessions from either address. -/
def Db.activeCountForEither (db : Db) (a b : String) : Nat :=
  db.sessions.count fun _ s => s.isActiveFor a || s.isActiveFor b

/-- A request from `a` and one from `b` are refused alike for who they are: what is on the
    blocklist under either spelling, and the sessions under either, count for both. -/
structure OneClient (t : Nat) (w : World) (a b : String) (r r' : Request) : Prop where
  ban : Refuses t w r .instanceUserBanned ↔ Refuses t w r' .instanceUserBanned
  quota : Refuses t w r .instanceQuotaReached ↔ Refuses t w r' .instanceQuotaReached
  listed : Eligible w r → Banned w a ∨ Banned w b → Refuses t w r .instanceUserBanned
  counted : Eligible w r → ¬ Banned w a → ¬ Banned w b →
    OverQuota w (w.db.activeCountForEither a b) → Refuses t w r .instanceQuotaReached

/-- The blocklist has both spellings or neither, and where the sessions from both together are the
    quota of a client, those from each are. -/
def ListedAlike (w : World) (a b : String) : Prop :=
  (Banned w a ↔ Banned w b) ∧
  (¬ Banned w a → OverQuota w (w.db.activeCountForEither a b) →
    OverQuota w (w.db.activeCountForIP a) ∧ OverQuota w (w.db.activeCountForIP b))

/-- The statistics on unique hosts do not show that some requests from `a` were made as from `b`. -/
def SameStatistics (t : Nat) (w : World) (some_ : Nat → Bool) (a b period : String)
    (network : Option IPNet) : Prop :=
  (server.value t .ok (dbGetStats period true network) { w with db := w.db.respell some_ a b }).map
      Prod.fst =
    (server.value t .ok (dbGetStats period true network) w).map Prod.fst

/-- The statistics are about the address. -/
def inScope (network : Option IPNet) (ip : String) : Bool := network.all (inNetwork · ip)

/-- The session with the id counts in the statistics of the period, as one from `ip`. -/
def Db.Requested (db : Db) (x : StatsWhere) (ip : String) (id : Nat) : Prop :=
  ∃ s, db.Row id s ∧ x.holds s = true ∧ s.requestIP = ip

/-- The statistics are not about the address, no request of the period from `a` becomes one from
    `b`, or else `b` is new among the hosts exactly when `a` is gone. -/
def RespelledAlike (w : World) (some_ : Nat → Bool) (a b period : String)
    (network : Option IPNet) : Prop :=
  let requested := w.db.Requested (statsWhereAt w.clock period)
  a = b ∨ inScope network a = false ∨ (∀ id, requested a id → some_ id = false) ∨
    ((∃ id, requested b id) ↔ ∃ id, requested a id ∧ some_ id = false)

section Decision

variable {t : Nat} {a b : String} {w : World} {r r' : Request}

theorem Respelled.eligible_iff (h : Respelled a b r r') : Eligible w r' ↔ Eligible w r := by
  have hterms : r'.formValue "terms" = r.formValue "terms" := by
    unfold Request.formValue
    rw [h.form]
  constructor
  · intro he
    exact ⟨h.method ▸ he.get, he.up, h.flusher ▸ he.flusher, hterms ▸ he.terms,
      hterms ▸ he.accepted⟩
  · intro he
    exact ⟨h.method.trans he.get, he.up, h.flusher.trans he.flusher, hterms ▸ he.terms,
      hterms.trans he.accepted⟩

/-- A request that is not eligible is not refused for who it is. -/
theorem not_refuses_of_not_eligible {ip protocol : String} {code : StatusCode}
    (hcode : code = .instanceUserBanned ∨ code = .instanceQuotaReached)
    (hip : restClientIP r = .ok (ip, protocol)) (h : ¬ Eligible w r) : ¬ Refuses t w r code := by
  rintro ⟨x, hx⟩
  refine h (eligible_of_refuses hx ?_ hip)
  rcases hcode with rfl | rfl <;> rfl

theorem activeCountForIP_le_either (db : Db) (a b : String) :
    db.activeCountForIP a ≤ db.activeCountForEither a b ∧
      db.activeCountForIP b ≤ db.activeCountForEither a b := by
  constructor <;> exact List.countP_mono_left fun s _ hs => by simp [hs]

/-- The decisions of the handler on an eligible request are those on its client. -/
theorem oneClient_iff (h : Respelled a b r r') :
    OneClient t w a b r r' ↔ (Eligible w r → ListedAlike w a b) := by
  obtain ⟨protocol, hr⟩ := h.before
  obtain ⟨protocol', hr'⟩ := h.after
  by_cases he : Eligible w r
  · have he' : Eligible w r' := h.eligible_iff.mpr he
    have hban := refuses_banned_iff (t := t) he hr
    have hban' := refuses_banned_iff (t := t) he' hr'
    have hquota := refuses_quota_iff (t := t) he hr
    have hquota' := refuses_quota_iff (t := t) he' hr'
    obtain ⟨hlea, hleb⟩ := activeCountForIP_le_either w.db a b
    constructor
    · intro hone _
      have hsame : Banned w a ↔ Banned w b := hban.symm.trans (hone.ban.trans hban')
      refine ⟨hsame, fun hno hover => ?_⟩
      have hrefused := hone.counted he hno (hsame.not.mp hno) hover
      exact ⟨(hquota.mp hrefused).2, (hquota'.mp (hone.quota.mp hrefused)).2⟩
    · intro hcond
      obtain ⟨hsame, hboth⟩ := hcond he
      constructor
      case ban => rw [hban, hban', hsame]
      case quota =>
        rw [hquota, hquota', ← hsame]
        refine and_congr_right fun hno => ⟨fun hover => ?_, fun hover => ?_⟩
        · exact (hboth hno (hover.mono hlea)).2
        · exact (hboth hno (hover.mono hleb)).1
      case listed =>
        intro _ hlisted
        rw [hban]
        exact hlisted.elim id hsame.mpr
      case counted =>
        intro _ hno _ hover
        exact hquota.mpr ⟨hno, (hboth hno hover).1⟩
  · have hno : ∀ code, code = .instanceUserBanned ∨ code = .instanceQuotaReached →
        (Refuses t w r code ↔ Refuses t w r' code) := fun code hcode =>
      iff_of_false (not_refuses_of_not_eligible hcode hr he)
        (not_refuses_of_not_eligible hcode hr' (h.eligible_iff.not.mpr he))
    exact iff_of_true
      ⟨hno _ (.inl rfl), hno _ (.inr rfl), fun h' => absurd h' he, fun h' => absurd h' he⟩
      fun h' => absurd h' he

end Decision

section Hosts

variable {a b c : String} {db : Db} {x : StatsWhere} {network : Option IPNet} {some_ : Nat → Bool}

theorem mem_requestIPs {unique : Bool} {ip : String} :
    ip ∈ db.requestIPs unique x ↔ ∃ id a, db.Row id a ∧ x.holds a = true ∧ a.requestIP = ip := by
  have hmem : ip ∈ ((db.sessions.select fun _ s => x.holds s).map fun r => r.2.requestIP) ↔
      ∃ id a, db.Row id a ∧ x.holds a = true ∧ a.requestIP = ip := by
    simp only [List.mem_map, Prod.exists, Sql.Table.mem_select, Db.Row, and_assoc]
  unfold Db.requestIPs
  split
  · rw [List.mem_dedup, hmem]
  · exact hmem

/-- The hosts that the statistics on unique hosts count. -/
def Db.hosts (db : Db) (x : StatsWhere) (network : Option IPNet) : Finset String :=
  ((db.requestIPs true x).filter (inScope network)).toFinset

theorem mem_hosts : c ∈ db.hosts x network ↔
    (∃ id, db.Requested x c id) ∧ inScope network c = true := by
  unfold Db.hosts Db.Requested
  rw [List.mem_toFinset, List.mem_filter, mem_requestIPs]

theorem stats_eq_card : db.stats true x network = (db.hosts x network).card := by
  have hnodup : (db.requestIPs true x).Nodup := List.nodup_dedup _
  unfold Db.hosts
  rw [List.toFinset_card_of_nodup (hnodup.filter _)]
  cases network with
  | none =>
    have hall : inScope none = fun _ => true := rfl
    simp [Db.stats, hall]
  | some n =>
    have hnetwork : inScope (some n) = inNetwork n := rfl
    simp [Db.stats, hnetwork, List.countP_eq_length_filter]

/-- The rows of the respelled history. -/
theorem requested_respell {id : Nat} : (db.respell some_ a b).Requested x c id ↔
    (db.Requested x c id ∧ (c = a → some_ id = false)) ∨
      (c = b ∧ db.Requested x a id ∧ some_ id = true) := by
  unfold Db.Requested Db.respell Db.Row
  simp only [Sql.Table.mem_update]
  constructor
  · rintro ⟨s, ⟨s₀, hs₀, rfl⟩, hx, hc⟩
    by_cases hrespelled : (some_ id && s₀.requestIP == a) = true
    · rw [if_pos hrespelled] at hx hc
      obtain ⟨hsome, ha⟩ := Bool.and_eq_true_iff.mp hrespelled
      exact .inr ⟨hc.symm, ⟨s₀, hs₀, hx, beq_iff_eq.mp ha⟩, hsome⟩
    · rw [if_neg hrespelled] at hx hc
      refine .inl ⟨⟨s₀, hs₀, hx, hc⟩, fun hca => ?_⟩
      by_contra hsome
      exact hrespelled (by simp [hc, hca, Bool.eq_true_of_not_eq_false hsome])
  · rintro (⟨⟨s₀, hs₀, hx, hc⟩, hkept⟩ | ⟨rfl, ⟨s₀, hs₀, hx, ha⟩, hsome⟩)
    · refine ⟨s₀, ⟨s₀, hs₀, (if_neg fun hrespelled => ?_).symm⟩, hx, hc⟩
      obtain ⟨hsome, ha⟩ := Bool.and_eq_true_iff.mp hrespelled
      rw [hkept (hc.symm.trans (beq_iff_eq.mp ha))] at hsome
      cases hsome
    · exact ⟨s₀.requestedFrom c, ⟨s₀, hs₀, (if_pos (by simp [hsome, ha])).symm⟩, hx, rfl⟩

/-- Respelling leaves the other hosts as they are. -/
theorem erase_hosts_respell :
    (((db.respell some_ a b).hosts x network).erase a).erase b =
      ((db.hosts x network).erase a).erase b := by
  ext c
  simp only [Finset.mem_erase, mem_hosts, requested_respell]
  refine and_congr_right fun hb => and_congr_right fun ha => and_congr_left' ?_
  simp [ha, hb]

theorem mem_hosts_kept (hne : a ≠ b) : a ∈ (db.respell some_ a b).hosts x network ↔
    (∃ id, db.Requested x a id ∧ some_ id = false) ∧ inScope network a = true := by
  simp [mem_hosts, requested_respell, hne]

theorem mem_hosts_new (hne : a ≠ b) : b ∈ (db.respell some_ a b).hosts x network ↔
    ((∃ id, db.Requested x b id) ∨ ∃ id, db.Requested x a id ∧ some_ id = true) ∧
      inScope network b = true := by
  simp [mem_hosts, requested_respell, hne.symm, exists_or]

/-- A host of the history is kept in the respelled one or is respelled there. -/
theorem mem_hosts_old : a ∈ db.hosts x network ↔
    ((∃ id, db.Requested x a id ∧ some_ id = false) ∨ ∃ id, db.Requested x a id ∧ some_ id = true) ∧
      inScope network a = true := by
  rw [mem_hosts, ← exists_or]
  refine and_congr_left' (exists_congr fun id => ?_)
  cases some_ id <;> simp

/-- Where the spellings are one text, nothing is respelled. -/
theorem hosts_respell_self : (db.respell some_ a a).hosts x network = db.hosts x network := by
  ext c
  simp only [mem_hosts, requested_respell]
  refine and_congr_left' (exists_congr fun id => ?_)
  by_cases hsome : some_ id = true
  · by_cases hc : c = a <;> simp [hc, hsome]
  · simp [hsome]

/-- The elements of a finite set beside two of them. -/
theorem card_eq_erase_erase {α : Type} [DecidableEq α] {a b : α} (h : a ≠ b) (s : Finset α) :
    s.card = ((s.erase a).erase b).card + (if a ∈ s then 1 else 0) + if b ∈ s then 1 else 0 := by
  have hdrop : ∀ (u : Finset α) (c : α), u.card = (u.erase c).card + if c ∈ u then 1 else 0 := by
    intro u c
    split
    · rename_i hc
      exact (Finset.card_erase_add_one hc).symm
    · rename_i hc
      rw [Finset.erase_eq_of_notMem hc]
      rfl
  have hb : b ∈ s.erase a ↔ b ∈ s := by simp [h.symm]
  have hlast := hdrop (s.erase a) b
  simp only [hb] at hlast
  rw [hdrop s a, hlast]
  omega

/-- The unique hosts are as many in the respelled history exactly when nothing is respelled that
    counts, or the new host comes for the old one. -/
theorem sameStatistics_iff {t : Nat} {w : World} {period : String} {y : IP} (ha : parseIP a = some y)
    (hb : parseIP b = some y) :
    SameStatistics t w some_ a b period network ↔ RespelledAlike w some_ a b period network := by
  have hscope : inScope network b = inScope network a := by simp [inScope, inNetwork, ha, hb]
  unfold SameStatistics RespelledAlike
  rw [dbGetStats_value, dbGetStats_value]
  simp only [Option.map_some, Option.some.injEq, Except.ok.injEq, stats_eq_card, Nat.cast_inj]
  generalize statsWhereAt w.clock period = x
  rcases eq_or_ne a b with rfl | hne
  · exact iff_of_true (congrArg Finset.card hosts_respell_self) (.inl rfl)
  rw [card_eq_erase_erase hne ((w.db.respell some_ a b).hosts x network),
    card_eq_erase_erase hne (w.db.hosts x network), erase_hosts_respell]
  have hnone : (∀ id, w.db.Requested x a id → some_ id = false) ↔
      ¬ ∃ id, w.db.Requested x a id ∧ some_ id = true := by simp
  classical
  simp only [mem_hosts_kept hne, mem_hosts_new hne, @mem_hosts_old a _ _ _ some_,
    @mem_hosts b, hscope]
  rw [hnone]
  generalize (∃ id, w.db.Requested x b id) = isOther
  generalize (∃ id, w.db.Requested x a id ∧ some_ id = false) = isKept
  generalize (∃ id, w.db.Requested x a id ∧ some_ id = true) = isNew
  cases inScope network a with
  | false => simp
  | true =>
    by_cases hnew : isNew
    · by_cases hkept : isKept <;> by_cases hother : isOther <;> simp [hne, hnew, hkept, hother]
    · simp [hnew]

end Hosts

/-- A request of a client behind a proxy that reports its address as `ip`. -/
def requestAs (ip : String) : Request := ⟨"GET", ip, "192.0.2.1:50000", [("terms", "terms")], true⟩

/-- A session from `ip`. -/
def sessionFrom (ip : String) : Session := (pooled "u" "" 0).claim 600 0 ip "terms"

/-- A server with a blocklist, a quota of one session for an address, and sessions from `ips`. -/
def identityWorld (blocklist ips : List String) : World :=
  let c := smallConfig 5 0
  let sessions := ips.foldl (fun t ip => t.insert (sessionFrom ip)) Sql.Table.empty
  { smallWorld [] with
    config := { c with server := { c.server with limits := ⟨5, 1⟩, blocklist := some blocklist } }
    incusDaemon := some ⟨"default", ""⟩
    db := ⟨sessions, Sql.Table.empty⟩ }

theorem identityWorld_eligible (blocklist ips : List String) (ip : String) :
    Eligible (identityWorld blocklist ips) (requestAs ip) where
  get := rfl
  up := by simp [identityWorld, smallConfig, ServerConfig.zero]
  flusher := rfl
  terms := by simp [requestAs, Request.formValue]
  accepted := rfl

theorem restClientIP_requestAs {ip : String} {x : IP} (h : parseIP ip = some x) :
    ∃ protocol, restClientIP (requestAs ip) = .ok (ip, protocol) := by
  have hne : ip ≠ "" := by
    rintro rfl
    cases h
  refine ⟨if isIPv4 x then "IPv4" else "IPv6", ?_⟩
  unfold restClientIP
  simp [requestAs, hne, h]

theorem respelled_requestAs {a b : String} {x y : IP} (ha : parseIP a = some x) (hb : parseIP b = some y) :
    Respelled a b (requestAs a) (requestAs b) :=
  ⟨rfl, rfl, rfl, restClientIP_requestAs ha, restClientIP_requestAs hb⟩

/-- Two spellings of an address are one client to the blocklist and to the quota, when the handler
    looks at the client at all, exactly when the blocklist has both or neither and the quota is
    reached by neither or by each alone; and to the statistics exactly when nothing is respelled
    that counts, or the new host comes for the old one. -/
theorem same_client_iff {t : Nat} {w : World} {a b period : String} {ip : IP} {r r' : Request}
    {some_ : Nat → Bool} {network : Option IPNet} (ha : parseIP a = some ip)
    (hb : parseIP b = some ip) (h : Respelled a b r r') :
    (OneClient t w a b r r' ↔ (Eligible w r → ListedAlike w a b)) ∧
    (SameStatistics t w some_ a b period network ↔ RespelledAlike w some_ a b period network) :=
  ⟨oneClient_iff h, sameStatistics_iff ha hb⟩

/-- Two spellings of the loopback address, of which each has its quota.  Both are refused, and if
    the first request had come from the other there would be one host less. -/
theorem same_client_small :
    OneClient 0 (identityWorld [] ["::1", "0::1"]) "::1" "0::1" (requestAs "::1")
      (requestAs "0::1") ∧
    ¬ SameStatistics 0 (identityWorld [] ["::1", "0::1"]) (· == 1) "::1" "0::1" "total" none := by
  have hiff := @same_client_iff 0 (identityWorld [] ["::1", "0::1"]) "::1" "0::1" "total" 1
    (requestAs "::1") (requestAs "0::1") (· == 1) none (by decide) (by decide)
    (respelled_requestAs (x := 1) (y := 1) (by decide) (by decide))
  constructor
  · refine hiff.1.mpr fun _ => ⟨by decide, fun _ _ => ⟨⟨?_, ?_, ?_⟩, ⟨?_, ?_, ?_⟩⟩⟩ <;> decide +kernel
  · rw [hiff.2]
    have hfirst : (1, sessionFrom "::1") ∈ (identityWorld [] ["::1", "0::1"]).db.sessions.rows :=
      List.mem_cons_self
    have hsecond : (2, sessionFrom "0::1") ∈ (identityWorld [] ["::1", "0::1"]).db.sessions.rows :=
      List.mem_cons_of_mem _ List.mem_cons_self
    rintro (heq | hscope | hnone | hnew)
    · exact absurd heq (by decide)
    · cases hscope
    · exact absurd (hnone 1 ⟨_, hfirst, rfl, rfl⟩) (by decide)
    · obtain ⟨id, ⟨s, hs, -, hip⟩, hid⟩ := hnew.mp ⟨2, _, hsecond, rfl, rfl⟩
      rcases List.mem_cons.mp hs with h | hs
      · cases h
        cases hid
      · cases List.mem_singleton.mp hs
        exact absurd hip (by decide)

/-- A client that is banned as `::1` is not banned as `0::1`. -/
theorem respelled_not_banned : ¬ ∀ t w a b ip r r' some_ period network, parseIP a = some ip →
    parseIP b = some ip → Respelled a b r r' →
    OneClient t w a b r r' ∧ SameStatistics t w some_ a b period network := by
  intro hall
  obtain ⟨hone, -⟩ := hall 0 (identityWorld ["::1"] []) "::1" "0::1" 1 (requestAs "::1")
    (requestAs "0::1") (fun _ => false) "total" none (by decide) (by decide)
    (respelled_requestAs (x := 1) (y := 1) (by decide) (by decide))
  have hlisted := (oneClient_iff (respelled_requestAs (x := 1) (y := 1) (by decide)
    (by decide))).mp hone (identityWorld_eligible _ _ _)
  exact absurd (hlisted.1.mp (by decide)) (by decide)

end IncusDemo
