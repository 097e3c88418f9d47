/-
  IncusDemo.ConsoleSafety

  What has happened when `restConsoleHandler` opens a console.  After a width or
  a height that is no number the handler goes on: the error is reported, the
  websocket is set up all the same, and `ExecInstance` is called with what
  `strconv.Atoi` returned next to its error.
-/

import IncusDemo.Limits
import IncusDemo.Timeout

namespace IncusDemo

open Go Conc Conc.Prog

-- ============================================================================
-- Responses
-- ============================================================================

/-- A call that writes an error response.  The websocket library answers a request that is no
    handshake itself. -/
def writesError : Event → Bool
  | ⟨.httpError .., _⟩ | ⟨.upgrade, .error .refused⟩ => true
  | _ => false

/-- A call that writes a response status: an error, or that the protocol is switched. -/
def writesStatus : Event → Bool
  | ⟨.upgrade, .ok _⟩ => true
  | e => writesError e

/-- A call of `ExecInstance` for a console. -/
def opens : Event → Bool
  | ⟨.call _ (.execConsole ..), _⟩ => true
  | _ => false

/-- What has been found out when the log is `l` and `req` is sent to the instance `name`. -/
structure ChecksPassed (r : Request) (l : Log) (name : String) (req : InstanceExecPost) : Prop where
  noError : ∀ e ∈ l, writesError e = false
  method : r.method = "GET"
  connected : ∃ c d, [⟨.incusDaemon, some d⟩, ⟨.config, c⟩] <:+ l ∧
    c.server.maintenance.enabled = false
  session : ∃ f, ⟨.query (.dbGetInstance (r.formValue "id") true), .ok (some f)⟩ ∈ l ∧
    f.instanceName = name
  width : atoi r.width = (req.width, none)
  height : atoi r.height = (req.height, none)
  upgraded : ⟨.upgrade, .ok ()⟩ ∈ l

/-- At most one status is written, and a console is opened only after all checks. -/
structure SafeLog (r : Request) (l : Log) : Prop where
  status : l.countP writesStatus ≤ 1
  exec : ∀ d name req res l', ⟨.call d (.execConsole name req), res⟩ :: l' <:+ l →
    ChecksPassed r l' name req

/-- When the session is there, both sizes are numbers, and the library takes the request for a
    handshake. -/
def Acceptable (r : Request) (l : Log) : Prop :=
  (∃ f, ⟨.query (.dbGetInstance (r.formValue "id") true), .ok (some f)⟩ ∈ l) →
    (atoi r.width).2 = none ∧ (atoi r.height).2 = none ∧ ⟨.upgrade, .error .refused⟩ ∉ l

/-- What holds of the log at every operation. -/
structure Attended (r : Request) (l : Log) : Prop where
  safe : Acceptable r l → SafeLog r l
  opened : (∃ e ∈ l, opens e = true) → SafeLog r l → Acceptable r l

theorem writesError_of_writesStatus {e : Event} (h : writesStatus e = false) :
    writesError e = false := by
  unfold writesStatus at h
  split at h
  · cases h
  · exact h

section Logs

variable {r : Request} {l : Log} {e : Event} {name : String}

/-- Nothing has been written and nothing opened. -/
def Silent (l : Log) : Prop := ∀ e ∈ l, writesStatus e = false ∧ opens e = false

theorem Silent.countP_eq (h : Silent l) : l.countP writesStatus = 0 :=
  List.countP_eq_zero.mpr fun e he => by rw [(h e he).1]; exact Bool.false_ne_true

theorem Silent.safe (h : Silent l) : SafeLog r l where
  status := by rw [h.countP_eq]; exact Nat.zero_le 1
  exec d name req res l' hs := by
    cases (h _ (hs.subset List.mem_cons_self)).2

/-- An event that opens nothing does no harm as long as not two statuses have been written. -/
theorem SafeLog.cons (h : SafeLog r l) (hopens : opens e = false)
    (hcount : (e :: l).countP writesStatus ≤ 1) : SafeLog r (e :: l) where
  status := hcount
  exec d name req res l' hs := by
    rcases List.suffix_cons_iff.mp hs with heq | hs
    · cases heq
      cases hopens
    · exact h.exec d name req res l' hs

theorem SafeLog.cons_quiet (h : SafeLog r l) (hopens : opens e = false)
    (hstatus : writesStatus e = false) : SafeLog r (e :: l) := by
  refine h.cons hopens ?_
  rw [List.countP_cons_of_neg (by rw [hstatus]; exact Bool.false_ne_true)]
  exact h.status

theorem not_acceptable_cons (h : ¬ Acceptable r l) : ¬ Acceptable r (e :: l) := by
  intro hcons
  apply h
  rintro ⟨f, hf⟩
  obtain ⟨hwidth, hheight, hrefused⟩ := hcons ⟨f, List.mem_cons_of_mem _ hf⟩
  exact ⟨hwidth, hheight, fun hmem => hrefused (List.mem_cons_of_mem _ hmem)⟩

/-- The handler has written more than one status, after something that it should have rejected. -/
structure WroteTwice (r : Request) (l : Log) : Prop where
  rejected : ¬ Acceptable r l
  twice : 2 ≤ l.countP writesStatus

theorem WroteTwice.cons (h : WroteTwice r l) : WroteTwice r (e :: l) where
  rejected := not_acceptable_cons h.rejected
  twice := by
    rw [List.countP_cons]
    exact Nat.le_add_right_of_le h.twice

theorem WroteTwice.not_safe (h : WroteTwice r l) : ¬ SafeLog r l := fun hsafe =>
  absurd (h.twice.trans hsafe.status) (Nat.not_le.mpr Nat.one_lt_two)

theorem WroteTwice.attended (h : WroteTwice r l) : Attended r l :=
  ⟨fun hacc => absurd hacc h.rejected, fun _ hsafe => absurd hsafe h.not_safe⟩

/-- Nothing has been opened, after something that is to be rejected. -/
theorem attended_of_rejected (hacc : ¬ Acceptable r l) (hopens : ∀ e ∈ l, opens e = false) :
    Attended r l := by
  refine ⟨fun h => absurd h hacc, ?_⟩
  rintro ⟨e, he, hopen⟩
  rw [hopens e he] at hopen
  cases hopen

theorem SafeLog.attended (h : SafeLog r l) (hopens : ∀ e ∈ l, opens e = false) : Attended r l := by
  refine ⟨fun _ => h, ?_⟩
  rintro ⟨e, he, hopen⟩
  rw [hopens e he] at hopen
  cases hopen

/-- The log when the session has been found, before anything is written. -/
structure SessionFound (r : Request) (l : Log) (name : String) : Prop where
  silent : Silent l
  method : r.method = "GET"
  connected : ∃ c d, [⟨.incusDaemon, some d⟩, ⟨.config, c⟩] <:+ l ∧
    c.server.maintenance.enabled = false
  session : ∃ f, ⟨.query (.dbGetInstance (r.formValue "id") true), .ok (some f)⟩ ∈ l ∧
    f.instanceName = name
  upgrade : ∀ res, ⟨.upgrade, res⟩ ∉ l

end Logs

-- ============================================================================
-- The handler
-- ============================================================================

section Handler

variable {r : Request} {l : Log} {name : String} {width height : Int}

/-- What is to be shown of a part of the handler: `Attended` all along, and in the end also that
    the log is safe only if the request was acceptable. -/
abbrev Serves (r : Request) (prog : Prog Unit) (l : Log) : Prop :=
  prog.Traces (Attended r) (fun _ l => Attended r l ∧ (SafeLog r l → Acceptable r l)) l

theorem WroteTwice.serves (h : WroteTwice r l) (prog : Prog Unit) : Serves r prog l := by
  have hall : prog.Performs fun _ => True := by
    induction prog with
    | ret a => trivial
    | op o k ih => exact ⟨trivial, ih⟩
  have htwice : prog.Traces (Attended r) (fun _ l' => WroteTwice r l') l := by
    refine hall.wp (fun _ _ h' _ => h'.attended) (fun l' o res l'' h' _ hstep => ?_) h
    rw [hstep]
    exact h'.cons
  exact traces_mono (fun _ l' h' => ⟨h'.attended, fun hs => absurd hs h'.not_safe⟩) htwice

/-- The first error, as the last thing that the handler does. -/
theorem Silent.error_serves {text : String} {code : Nat} (h : Silent l)
    (hacc : ∀ res, Acceptable r (⟨.httpError text code, res⟩ :: l)) :
    Serves r (perform (.httpError text code)) l := by
  have hopens : ∀ e ∈ l, opens e = false := fun e he => (h e he).2
  refine traces_op (h.safe.attended hopens) fun res => ?_
  have hcount : List.countP writesStatus (⟨.httpError text code, res⟩ :: l) ≤ 1 := by
    rw [List.countP_cons_of_pos rfl, h.countP_eq]
  exact ⟨⟨fun _ => h.safe.cons rfl hcount, fun _ _ => hacc res⟩, fun _ => hacc res⟩

/-- The log is safe, and what the handler goes on with is acceptable. -/
structure Proceeds (r : Request) (l : Log) : Prop where
  safe : SafeLog r l
  width : (atoi r.width).2 = none
  height : (atoi r.height).2 = none
  upgrade : ⟨.upgrade, .error .refused⟩ ∉ l

theorem Proceeds.acceptable (h : Proceeds r l) : Acceptable r l := fun _ => ⟨h.width, h.height, h.upgrade⟩

theorem Proceeds.attended (h : Proceeds r l) : Attended r l :=
  ⟨fun _ => h.safe, fun _ _ => h.acceptable⟩

theorem Proceeds.cons {e : Event} (h : Proceeds r l) (hstatus : writesStatus e = false)
    (hsafe : SafeLog r (e :: l)) : Proceeds r (e :: l) where
  safe := hsafe
  width := h.width
  height := h.height
  upgrade := by
    intro hmem
    rcases List.mem_cons.mp hmem with rfl | hmem
    · cases hstatus
    · exact h.upgrade hmem

theorem Proceeds.quiet {e : Event} (h : Proceeds r l) (hopens : opens e = false)
    (hstatus : writesStatus e = false) : Proceeds r (e :: l) :=
  h.cons hstatus (h.safe.cons_quiet hopens hstatus)

theorem Proceeds.done (h : Proceeds r l) : Attended r l ∧ (SafeLog r l → Acceptable r l) :=
  ⟨h.attended, fun _ => h.acceptable⟩

/-- The console is opened in the end: all checks are behind. -/
theorem execConsole_serves (h : Proceeds r l)
    (hchecked : ∀ c d, ChecksPassed r (⟨.incusDaemon, some d⟩ :: ⟨.config, c⟩ :: l) name
      (consoleRequest c width height)) : Serves r (execConsole name width height) l := by
  unfold execConsole daemon
  refine traces_then h.attended fun c => traces_bind.mpr ?_
  have h₁ : Proceeds r (⟨.config, c⟩ :: l) := h.quiet rfl rfl
  refine traces_then h₁.attended fun d => ?_
  have h₂ : Proceeds r (⟨.incusDaemon, d⟩ :: ⟨.config, c⟩ :: l) := h₁.quiet rfl rfl
  cases d with
  | none => exact traces_then h₂.attended fun stuck => nomatch stuck
  | some d =>
    refine traces_then h₂.attended fun res => ?_
    have hexec : ∀ d' name' req' res' l',
        ⟨.call d' (.execConsole name' req'), res'⟩ :: l' <:+
          ⟨.call d (.execConsole name (consoleRequest c width height)), res⟩ ::
            ⟨.incusDaemon, some d⟩ :: ⟨.config, c⟩ :: l → ChecksPassed r l' name' req' := by
      intro d' name' req' res' l' hs
      rcases List.suffix_cons_iff.mp hs with heq | hs
      · cases heq
        exact hchecked c d
      · exact h₂.safe.exec _ _ _ _ _ hs
    have h₃ : Proceeds r (⟨.call d (.execConsole name (consoleRequest c width height)), res⟩ ::
        ⟨.incusDaemon, some d⟩ :: ⟨.config, c⟩ :: l) := by
      refine h₂.cons rfl ⟨?_, hexec⟩
      rw [List.countP_cons_of_neg Bool.false_ne_true]
      exact h₂.safe.status
    cases res with
    | error err => exact h₃.done
    | ok _ =>
      refine traces_then h₃.attended fun res => ?_
      have h₄ := h₃.quiet (e := ⟨.wait d (.execConsole name (consoleRequest c width height)), res⟩)
        rfl rfl
      cases res with
      | error err => exact h₄.done
      | ok _ => exact traces_op h₄.attended fun _ => (h₄.quiet rfl rfl).done

/-- Both sizes are numbers. -/
theorem upgradeConsole_serves (h : SessionFound r l name) (hwidth : atoi r.width = (width, none))
    (hheight : atoi r.height = (height, none)) :
    Serves r (upgradeConsole name width height) l := by
  have hopens : ∀ e ∈ l, opens e = false := fun e he => (h.silent e he).2
  obtain ⟨f, hf, hname⟩ := h.session
  unfold upgradeConsole
  refine traces_then (h.silent.safe.attended hopens) fun upgraded => ?_
  rcases upgraded with (_ | _) | _
  · -- the library and the handler both report an error
    have hrejected : ¬ Acceptable r (⟨.upgrade, .error .refused⟩ :: l) := fun hacc =>
      (hacc ⟨f, List.mem_cons_of_mem _ hf⟩).2.2 List.mem_cons_self
    refine traces_op (attended_of_rejected hrejected ?_) fun res => ?_
    · exact List.forall_mem_cons.mpr ⟨rfl, hopens⟩
    · have htwice : WroteTwice r (⟨.httpError "Internal server error" 500, res⟩ ::
          ⟨.upgrade, .error .refused⟩ :: l) := by
        refine ⟨not_acceptable_cons hrejected, ?_⟩
        rw [List.countP_cons_of_pos rfl, List.countP_cons_of_pos rfl]
        exact Nat.le_add_left ..
      exact ⟨htwice.attended, fun hs => absurd hs htwice.not_safe⟩
  · refine Silent.error_serves (List.forall_mem_cons.mpr ⟨⟨rfl, rfl⟩, h.silent⟩) fun res _ => ?_
    refine ⟨by rw [hwidth], by rw [hheight], ?_⟩
    simp [h.upgrade]
  · have hready : Proceeds r (⟨.upgrade, .ok ()⟩ :: l) := by
      refine ⟨h.silent.safe.cons rfl ?_, by rw [hwidth], by rw [hheight], ?_⟩
      · rw [List.countP_cons_of_pos rfl, h.silent.countP_eq]
      · simp [h.upgrade]
    refine execConsole_serves hready fun c d => ?_
    obtain ⟨c', d', hs, hmaintenance⟩ := h.connected
    refine ⟨?_, h.method, ⟨c', d', ?_, hmaintenance⟩, ⟨f, ?_, hname⟩, hwidth, hheight, ?_⟩
    · have hquiet : ∀ e ∈ l, writesError e = false := fun e he =>
        writesError_of_writesStatus (h.silent e he).1
      refine List.forall_mem_cons.mpr ⟨rfl, List.forall_mem_cons.mpr ⟨rfl, ?_⟩⟩
      exact List.forall_mem_cons.mpr ⟨rfl, hquiet⟩
    · exact ((hs.trans (List.suffix_cons ..)).trans (List.suffix_cons ..)).trans (List.suffix_cons ..)
    · simp [hf]
    · simp

/-- A size is no number, and the error has been reported. -/
theorem upgradeConsole_rejected_serves (hrejected : ¬ Acceptable r l)
    (hopens : ∀ e ∈ l, opens e = false) (honce : 1 ≤ l.countP writesStatus) :
    Serves r (upgradeConsole name width height) l := by
  unfold upgradeConsole
  refine traces_then (attended_of_rejected hrejected hopens) fun upgraded => ?_
  rcases upgraded with err | _
  · refine traces_op (attended_of_rejected (not_acceptable_cons hrejected) ?_) fun res => ?_
    · exact List.forall_mem_cons.mpr ⟨rfl, hopens⟩
    · have h : WroteTwice r
          (⟨.httpError "Internal server error" 500, res⟩ :: ⟨.upgrade, .error err⟩ :: l) := by
        refine ⟨not_acceptable_cons (not_acceptable_cons hrejected), ?_⟩
        rw [List.countP_cons_of_pos rfl, List.countP_cons]
        exact Nat.succ_le_succ (Nat.le_add_right_of_le honce)
      exact ⟨h.attended, fun hs => absurd hs h.not_safe⟩
  · refine WroteTwice.serves ⟨not_acceptable_cons hrejected, ?_⟩ _
    rw [List.countP_cons_of_pos rfl]
    exact Nat.succ_le_succ honce

/-- A size that is no number leaves an error behind, and the handler goes on. -/
theorem parseSize_traces {size : String} {Q : Int → Log → Prop} (hl : Attended r l)
    (hnumber : (atoi size).2 = none → Q (atoi size).1 l)
    (herror : (atoi size).2 ≠ none →
      ∀ res, Q (atoi size).1 (⟨.httpError "Invalid width value" 400, res⟩ :: l)) :
    (parseSize size).Traces (Attended r) Q l := by
  unfold parseSize
  refine traces_ite (fun h => ?_) fun h => hnumber (not_not.mp h)
  exact traces_then hl fun res => herror h res

theorem openConsole_serves (h : SessionFound r l name) : Serves r (openConsole r name) l := by
  have hopens : ∀ e ∈ l, opens e = false := fun e he => (h.silent e he).2
  have hl : Attended r l := h.silent.safe.attended hopens
  obtain ⟨f, hf, hname⟩ := h.session
  have hnone : ∀ {size}, (atoi size).2 = none → atoi size = ((atoi size).1, none) := fun hnone => by
    rw [← hnone]
  have hrejects : ((atoi r.width).2 ≠ none ∨ (atoi r.height).2 ≠ none) → ¬ Acceptable r l := by
    rintro (hbad | hbad) hacc
    · exact hbad (hacc ⟨f, hf⟩).1
    · exact hbad (hacc ⟨f, hf⟩).2.1
  unfold openConsole
  refine traces_bind.mpr (parseSize_traces hl (fun hwidth => ?_) fun hwidth res => ?_)
  · refine traces_bind.mpr (parseSize_traces hl (fun hheight => ?_) fun hheight res => ?_)
    · exact upgradeConsole_serves h (hnone hwidth) (hnone hheight)
    · refine upgradeConsole_rejected_serves (not_acceptable_cons (hrejects (.inr hheight)))
        (List.forall_mem_cons.mpr ⟨rfl, hopens⟩) ?_
      rw [List.countP_cons_of_pos rfl]
      exact Nat.le_add_left ..
  · have hrejected := not_acceptable_cons (e := ⟨.httpError "Invalid width value" 400, res⟩)
      (hrejects (.inl hwidth))
    have hopens' := List.forall_mem_cons (p := fun e => opens e = false)
      (a := ⟨.httpError "Invalid width value" 400, res⟩).mpr ⟨rfl, hopens⟩
    have honce : 1 ≤ List.countP writesStatus (⟨.httpError "Invalid width value" 400, res⟩ :: l) := by
      rw [List.countP_cons_of_pos rfl]
      exact Nat.le_add_left ..
    refine traces_bind.mpr (parseSize_traces (attended_of_rejected hrejected hopens')
      (fun _ => ?_) fun _ res' => ?_)
    · exact upgradeConsole_rejected_serves hrejected hopens' honce
    · refine upgradeConsole_rejected_serves (not_acceptable_cons hrejected)
        (List.forall_mem_cons.mpr ⟨rfl, hopens'⟩) ?_
      rw [List.countP_cons_of_pos rfl]
      exact Nat.le_add_left ..

theorem restConsoleHandler_serves (r : Request) : Serves r (restConsoleHandler r) [] := by
  have herror : ∀ {l text code}, Silent l →
      (∀ f, ⟨.query (.dbGetInstance (r.formValue "id") true), .ok (some f)⟩ ∉ l) →
      Serves r (perform (.httpError text code)) l := by
    intro l text code hl hnone
    refine hl.error_serves fun res hfound => ?_
    obtain ⟨f, hf⟩ := hfound
    exact absurd ((List.mem_cons.mp hf).resolve_left nofun) (hnone f)
  have hsilent : ∀ {l}, Silent l → Attended r l := fun hl =>
    hl.safe.attended fun e he => (hl e he).2
  have hnil : Silent [] := fun _ he => nomatch he
  have hcons : ∀ {l e}, Silent l → writesStatus e = false → opens e = false → Silent (e :: l) :=
    fun hl hstatus hopens => List.forall_mem_cons.mpr ⟨⟨hstatus, hopens⟩, hl⟩
  unfold restConsoleHandler
  refine traces_ite (fun _ => herror hnil (by simp)) fun hmethod => ?_
  refine traces_then (hsilent hnil) fun c => ?_
  have h₁ := hcons (e := ⟨.config, c⟩) hnil rfl rfl
  refine traces_then (hsilent h₁) fun d => ?_
  have h₂ := hcons (e := ⟨.incusDaemon, d⟩) h₁ rfl rfl
  refine traces_ite (fun _ => herror h₂ (by simp)) fun hup => ?_
  refine traces_then (hsilent h₂) fun res => ?_
  have h₃ := hcons (e := ⟨.header "Access-Control-Allow-Origin" "*", res⟩) h₂ rfl rfl
  refine traces_ite (fun _ => herror h₃ (by simp)) fun _ => ?_
  refine traces_then (hsilent h₃) fun found => ?_
  have h₄ := hcons (e := ⟨.query (.dbGetInstance (r.formValue "id") true), found⟩) h₃ rfl rfl
  rcases found with err | (_ | f)
  · exact herror h₄ (by simp)
  · exact herror h₄ (by simp)
  · obtain ⟨hmaintenance, hd⟩ := not_or.mp hup
    obtain ⟨d, rfl⟩ := Option.ne_none_iff_exists'.mp hd
    refine openConsole_serves ⟨h₄, not_not.mp hmethod, ⟨c, d, ?_, Bool.eq_false_iff.mpr hmaintenance⟩,
      ⟨f, List.mem_cons_self, rfl⟩, fun _ => by simp⟩
    exact (List.suffix_cons ..).trans (List.suffix_cons ..)

end Handler

-- ============================================================================
-- Runs
-- ============================================================================

/-- There is an active row for the session `id` and the instance `name`. -/
def Db.ActiveAs (db : Db) (id name : String) : Prop :=
  ∃ i row, (i, row) ∈ db.sessions.rows ∧ row.uuid = id ∧ row.status = 0 ∧ row.instanceName = name

theorem activeAs_of_answers {db : Db} {id : String} {f : Found}
    (h : db.Answers (.dbGetInstance id true) (some f)) : db.ActiveAs id f.instanceName := by
  obtain ⟨i, row, hrow, huuid, hactive, rfl⟩ := db.session_of_answers h
  exact ⟨i, row, hrow, huuid, hactive rfl, rfl⟩

/-- At most one status has been written, and a console was opened only after all checks, in an
    instance whose session was active when it was looked up. -/
structure ConsoleSafe (s₀ s : Sys) (t : Nat) (r : Request) (l : Log) : Prop extends SafeLog r l where
  active : ∀ d name req res, ⟨.call d (.execConsole name req), res⟩ ∈ l →
    ∃ s₁ f, MovesAt s₀ s t ⟨.query (.dbGetInstance (r.formValue "id") true), .ok (some f)⟩ s₁ ∧
      s₁.world.db.ActiveAs (r.formValue "id") name

theorem consoleSafe_iff {s₀ s : Sys} (h0 : Initial s₀) (hrun : server.Run Machine.anyStep s₀ s)
    {t : Nat} {r : Request} {l : Log} (hr : Ran s t (.console r) l) :
    ConsoleSafe s₀ s t r l ↔ SafeLog r l := by
  refine ⟨fun h => h.toSafeLog, fun h => ⟨h, ?_⟩⟩
  intro d name req res hmem
  obtain ⟨l₁, l₂, rfl⟩ := List.append_of_mem hmem
  have hsuffix := List.suffix_append l₁ (⟨.call d (.execConsole name req), res⟩ :: l₂)
  obtain ⟨f, hf, rfl⟩ := (h.exec d name req res l₂ hsuffix).session
  obtain ⟨s₁, hmoves⟩ := movesAt_of_ran h0 hrun hr (hsuffix.subset (List.mem_cons_of_mem _ hf))
  exact ⟨s₁, f, hmoves, activeAs_of_answers hmoves.truthful⟩

/-- In every run: a console request is handled safely if both sizes of a session that is there are
    numbers and the library accepts the handshake, and once the handler has returned or called
    `ExecInstance` only then. -/
theorem console_safe_iff {s₀ s : Sys} (h0 : Initial s₀) (hrun : server.Run Machine.anyStep s₀ s)
    {t : Nat} {r : Request} {l : Log} (hr : Ran s t (.console r) l) :
    (Acceptable r l → ConsoleSafe s₀ s t r l) ∧
    ((Returned s t (.console r) l ∨ ∃ e ∈ l, opens e = true) →
      (ConsoleSafe s₀ s t r l ↔ Acceptable r l)) := by
  have htraced := hrun.traced (p := .console r) (restConsoleHandler_serves r) h0.allStart
  have hattended : Attended r l := hr.traced htraced
  rw [consoleSafe_iff h0 hrun hr]
  refine ⟨hattended.safe, fun hsettled => ⟨fun hsafe => ?_, hattended.safe⟩⟩
  rcases hsettled with hreturned | hopened
  · exact hreturned.traced htraced hsafe
  · exact hattended.opened hopened hsafe

/-- A server with one session, which is active. -/
def consoleServer : Sys :=
  let w := smallWorld []
  let session : Session := ⟨"u0", 0, "tryit-u0", "10.0.0.1", "admin", "secret", 3600, 0, "", ""⟩
  bootSys { w with db := ⟨w.db.sessions.insert session, w.db.feedback⟩
                   instances := [container "u0" "10.0.0.1"] } (smallConfig 5 0)

theorem consoleServer_initial : Initial consoleServer := bootSys_initial _ _

/-- A client asks for a console of a given width. -/
def consoleOf (width : String) : Request :=
  ⟨"GET", "", "192.0.2.1:50000", [("id", "u0"), ("width", width)], true⟩

/-- The events of thread `t` if it handles the request. -/
def consoleLog (r : Request) (t : Nat) (s : Sys) : Option Log :=
  match s.threads[t]? with
  | some th => if th.proc = .console r then some th.log else none
  | none => none

theorem ran_of_consoleLog {r : Request} {t : Nat} {s : Sys} {f : Log → Bool}
    (h : (consoleLog r t s).any f = true) : ∃ l, Ran s t (.console r) l ∧ f l = true := by
  obtain ⟨l, hl, hf⟩ := (Option.any_eq_true _ _).mp h
  unfold consoleLog at hl
  split at hl
  · rename_i th hth
    split at hl
    · rename_i hp
      cases hl
      exact ⟨_, ⟨th, hth, hp, rfl⟩, hf⟩
    · cases hl
  · cases hl

/-- A console of a width that is a number is opened. -/
theorem console_safe_small : ∃ s l, Ran s 1 (.console (consoleOf "80")) l ∧
    ConsoleSafe consoleServer s 1 (consoleOf "80") l ∧ ∃ e ∈ l, opens e = true := by
  obtain ⟨s, hrun, hs⟩ := server.run_of_check Machine.noTest (fun _ _ _ => trivial) consoleServer
    (oks 0 4 ++ act (.console (consoleOf "80")) ++ oks 1 8)
    (fun s => (consoleLog (consoleOf "80") 1 s).any fun l =>
      l.any opens && !l.any fun e => writesError e) (by decide +kernel)
  obtain ⟨l, hr, hl⟩ := ran_of_consoleLog hs
  obtain ⟨hopens, herror⟩ := Bool.and_eq_true_iff.mp hl
  have hacceptable : Acceptable (consoleOf "80") l := by
    refine fun _ => ⟨by decide, by decide, fun hmem => ?_⟩
    rw [Bool.not_eq_true', List.any_eq_false] at herror
    exact herror _ hmem rfl
  exact ⟨s, l, hr, (console_safe_iff consoleServer_initial hrun hr).1 hacceptable,
    List.any_eq_true.mp hopens⟩

/-- A console whose width is no number is rejected, and opened. -/
theorem rejected_console_goes_on : ¬ ∀ s₀ s t r l, Initial s₀ →
    server.Run Machine.anyStep s₀ s → Ran s t (.console r) l → ConsoleSafe s₀ s t r l := by
  intro hall
  obtain ⟨s, hrun, hs⟩ := server.run_of_check Machine.noTest (fun _ _ _ => trivial) consoleServer
    (oks 0 4 ++ act (.console (consoleOf "abc")) ++ oks 1 9)
    (fun s => (consoleLog (consoleOf "abc") 1 s).any fun l => decide (2 ≤ List.countP writesStatus l))
    (by decide +kernel)
  obtain ⟨l, hr, hl⟩ := ran_of_consoleLog hs
  have hsafe := hall _ s 1 _ l consoleServer_initial hrun hr
  exact absurd (hsafe.status.trans_lt Nat.one_lt_two) (Nat.not_lt.mpr (decide_eq_true_iff.mp hl))

end IncusDemo
