/-
  IncusDemo.ReadOnly

  The GET requests that only ask.  A handler that only answers performs no
  operation that changes the database or an instance, whatever fails.  The one
  exception is `restInfoHandler`, which removes the instance it was asked about
  when it cannot write the answer.
-/

import IncusDemo.Sequential
import IncusDemo.Timeout
import IncusDemo.Works

namespace IncusDemo

open Go Conc

/-- The method of the request. -/
def RestRequest.method : RestRequest → String
  | .status r | .terms r | .info r | .statistics r => r.method
  | .feedback r => r.method

/-- The answer could not be written. -/
def Unwritten (l : Log) : Prop := ∃ body err, ⟨.encode body, .error err⟩ ∈ l

/-- The request, handled with log `l`, asks about a session that its SELECT has found and whose
    instance is there. -/
def AsksOfInstance (w : World) (q : RestRequest) (l : Log) : Prop :=
  ∃ r f d, q = .info r ∧ ⟨.query (.dbGetInstance (r.formValue "id") false), .ok (some f)⟩ ∈ l ∧
    w.incusDaemon = some d ∧ (w.instances.get? d f.instanceName).isSome = true

/-- The request, handled with log `l`, asks about a session whose instance is there, and its
    answer could not be written. -/
def Lost (w : World) (q : RestRequest) (l : Log) : Prop := AsksOfInstance w q l ∧ Unwritten l

/-- The tables and the instances are the same. -/
structure Unchanged (w w' : World) : Prop where
  db : w'.db = w.db
  instances : w'.instances = w.instances

theorem Drift.unchanged {w w' : World} (h : Drift w w') : Unchanged w w' := ⟨h.db, h.instances⟩

theorem unwritten_cons {e : Event} {l : Log} :
    Unwritten (e :: l) ↔ (∃ body err, e = ⟨.encode body, .error err⟩) ∨ Unwritten l := by
  simp only [Unwritten, List.mem_cons, exists_or, eq_comm]

-- ============================================================================
-- Handlers that only answer
-- ============================================================================

section Handlers

variable {C : World → Event → Prop} {R : View → Prop} {t : Nat} {w : World} {x x' : View}

theorem idle_of_answers {o : Op} (h : o.answers = true) : idle o = true := by
  cases o with
  | query q => cases q <;> first | rfl | cases h
  | call d c => cases h
  | wait d c => cases h
  | _ => first | rfl | cases h

/-- A handler that only answers leaves everything as it is. -/
theorem answers_solo {α : Type} {prog : Prog α} (h : Answers prog) (hx : Drift w x.1) :
    Solo C (fun _ => True) t prog (fun _ x' => Drift w x'.1) x :=
  h.wp (I := fun y : View => Drift w y.1) (fun _ _ _ _ _ => trivial)
    (fun _ _ _ _ hy ho (hm : Moved C t _ _ _ _) =>
      drifts.trans _ _ _ hy (hm.drift (idle_of_answers ho))) hx

/-- Whatever a program does, its log only grows. -/
theorem suffix_solo {α : Type} (prog : Prog α) {l : Log} (hx : l <:+ x.2) :
    Solo C (fun _ => True) t prog (fun _ x' => l <:+ x'.2) x := by
  induction prog generalizing x with
  | ret a => exact hx
  | op o k ih =>
    refine ⟨fun _ => trivial, fun r x' hm => ih r ?_⟩
    rw [Moved.log_eq hm]
    exact hx.trans (List.suffix_cons ..)

/-- The log has found no session but `f`. -/
def FoundOnly (f : Found) (l : Log) : Prop :=
  ∀ id active f', ⟨.query (.dbGetInstance id active), .ok (some f')⟩ ∈ l → f' = f

/-- The functions that make, start or remove an instance look for no session. -/
theorem works_solo {α : Type} {prog : Prog α} {f : Found} (h : Works prog) (hx : FoundOnly f x.2) :
    Solo C (fun _ => True) t prog (fun _ x' => FoundOnly f x'.2) x := by
  refine h.wp (I := fun y : View => FoundOnly f y.2) (fun _ _ _ _ _ => trivial)
    (fun y o r y' hy ho (hm : Moved C t _ _ _ _) => ?_) hx
  rw [hm.log_eq]
  intro id active f' hmem
  rcases List.mem_cons.mp hmem with heq | hmem
  · cases heq
    cases ho
  · exact hy id active f' hmem

/-- Neither stopping nor deleting does anything to an instance that is not there. -/
theorem forceDelete_missing_solo {d : InstanceServer} {name : String} {Q : Unit → View → Prop}
    (hd : x.1.incusDaemon = some d) (hnone : x.1.instances.get? d name = none)
    (h : ∀ x', Still x x' → Q () x') : Solo C R t (forceDelete name) Q x := by
  have hwait : ∀ {c : Call} {r : Except Error Unit} {y y' : View}, Still x y →
      (c = .updateInstanceState name "stop" true ∨ c = .deleteInstance name) →
      Moved C t y (.wait d c) r y' → Still x y' := by
    intro c r y y' hy hc hm
    have hquiet : Quiet y.2 y'.2 := by
      rcases hc with rfl | rfl <;> exact hm.quiet rfl
    obtain ⟨v, hdrift, -, hdid, -⟩ := hm
    have hmissing : v.instances.get? d name = none := by
      rw [hdrift.instances, hy.instances, hnone]
    have hsame : y'.1.instances = v.instances := by
      have hchange := hdid.instances
      cases r with
      | error e => exact hchange
      | ok a =>
        obtain ⟨b, hb⟩ := hchange
        rcases hc with rfl | rfl <;> simp [Call.complete, hmissing] at hb
    refine hy.trans ⟨⟨hdid.incusDaemon.trans hdrift.incusDaemon, hdid.timers.trans hdrift.timers,
      hdid.db.trans hdrift.db, hsame.trans hdrift.instances⟩, hquiet⟩
  have hcall : ∀ (c : Call) q, Op.call d c ≠ .go q := by
    intro c q h
    cases h
  have hwaits : ∀ (c : Call) q, Op.wait d c ≠ .go q := by
    intro c q h
    cases h
  have hdelete : ∀ y, Still x y → Solo C R t (deleteInstance d name) (fun _ x' => Still x x') y := by
    intro y hy
    unfold deleteInstance
    rw [solo_bind]
    refine solo_still rfl (hcall _) fun r y₁ h₁ => ?_
    cases r with
    | error e => exact hy.trans h₁
    | ok _ => exact solo_op (hwaits _) fun r y₂ hm => hwait (hy.trans h₁) (.inr rfl) hm
  unfold forceDelete
  rw [solo_bind]
  refine daemon_solo fun d' x₁ hd' h₁ => ?_
  cases hd.symm.trans hd'
  rw [solo_bind]
  refine solo_mono (fun _ x₂ h₂ => h x₂ h₂) ?_
  unfold incusForceDelete
  rw [solo_bind]
  refine solo_still rfl (hcall _) fun r x₂ h₂ => ?_
  cases r with
  | error e => exact hdelete x₂ (h₁.trans h₂)
  | ok _ =>
    rw [solo_bind]
    exact solo_op (hwaits _) fun r x₃ hm => hdelete x₃ (hwait (h₁.trans h₂) (.inl rfl) hm)

-- ============================================================================
-- Questions about a session
-- ============================================================================

/-- Nothing has changed, and no answer has failed. -/
structure Asking (w : World) (x : View) : Prop extends Drift w x.1 where
  written : ¬ Unwritten x.2

/-- What a question leaves: everything as it is, or, when it is lost and deletions succeed, the
    instances without one of them. -/
def Asked (C : World → Event → Prop) (w : World) (q : RestRequest) (x : View) : Prop :=
  (Drift w x.1 ∧ ¬ Lost w q x.2) ∨
  (Lost w q x.2 ∧ ((∀ v e, C v e → Deletes v e) → x.1.instances ≠ w.instances))

theorem Asking.asked {q : RestRequest} (h : Asking w x) : Asked C w q x :=
  .inl ⟨h.toDrift, fun hlost => h.written hlost.2⟩

theorem Asked.httpError {q : RestRequest} {text : String} {code : Nat} (h : Asked C w q x)
    (hm : Moved C t x (.httpError text code) () x') : Asked C w q x' := by
  have hdrift : Drift x.1 x'.1 := hm.drift rfl
  have hun : Unwritten x'.2 ↔ Unwritten x.2 := by
    rw [hm.log_eq, unwritten_cons]
    exact ⟨fun h => h.resolve_left nofun, .inr⟩
  have hasks : AsksOfInstance w q x'.2 ↔ AsksOfInstance w q x.2 := by
    rw [hm.log_eq]
    simp [AsksOfInstance]
  rcases h with ⟨h, hno⟩ | ⟨h, hchanged⟩
  · refine .inl ⟨drifts.trans _ _ _ h hdrift, fun hlost => hno ?_⟩
    exact ⟨hasks.mp hlost.1, hun.mp hlost.2⟩
  · refine .inr ⟨⟨hasks.mpr h.1, hun.mpr h.2⟩, fun hC => ?_⟩
    rw [hdrift.instances]
    exact hchanged hC

theorem Asking.moved {o : Op} {r : Ret o} (h : Asking w x) (ho : o.answers = true)
    (hr : ∀ body err, (⟨o, r⟩ : Event) ≠ ⟨.encode body, .error err⟩) (hm : Moved C t x o r x') :
    Asking w x' where
  toDrift := drifts.trans _ _ _ h.toDrift (hm.drift (idle_of_answers ho))
  written := by
    rw [hm.log_eq, unwritten_cons]
    rintro (⟨body, err, heq⟩ | hun)
    · exact hr body err heq
    · exact h.written hun

/-- An operation of a question, but for the writing of the answer. -/
theorem asking_op {o : Op} {Q : Ret o → View → Prop} (hx : Asking w x) (ho : o.answers = true)
    (hne : ∀ body, o ≠ .encode body) (h : ∀ r x', Moved C t x o r x' → Asking w x' → Q r x') :
    Solo C R t (perform o) Q x := by
  refine solo_op ?_ fun r x' hm => h r x' hm (hx.moved ho ?_ hm)
  · rintro q rfl
    cases ho
  · rintro body err heq
    cases heq
    exact hne body rfl

/-- The instance goes when the answer about its session cannot be written. -/
theorem unanswered_solo {r : Request} {f : Found} {body : JsonObject} {err : Error}
    {Q : Unit → View → Prop} (hx : Asking w x)
    (hfound : ⟨.query (.dbGetInstance (r.formValue "id") false), .ok (some f)⟩ ∈ x.2)
    (honly : FoundOnly f x.2) (hm : Moved C t x (.encode body) (.error err) x')
    {d : InstanceServer} (hd : w.incusDaemon = some d) (h : ∀ y, Asked C w (.info r) y → Q () y) :
    Solo C (fun _ => True) t (forceDelete f.instanceName) Q x' := by
  refine solo_mono (fun _ y hy => h y hy) ?_
  have hstill : Still x x' := hm.still rfl
  have hdrift : Drift w x'.1 := drifts.trans _ _ _ hx.toDrift hstill.toDrift
  have hun : Unwritten x'.2 := by
    rw [hm.log_eq]
    exact ⟨body, err, List.mem_cons_self ..⟩
  have hd' : x'.1.incusDaemon = some d := hdrift.incusDaemon.trans hd
  have hfound' : ⟨.query (.dbGetInstance (r.formValue "id") false), .ok (some f)⟩ ∈ x'.2 := by
    rw [hm.log_eq]
    exact List.mem_cons_of_mem _ hfound
  cases hget : w.instances.get? d f.instanceName with
  | none =>
    have honly' : FoundOnly f x'.2 := by
      rw [hm.log_eq]
      exact fun id active f' hmem => honly id active f' (by simpa using hmem)
    have hmissing : Solo C (fun _ => True) t (forceDelete f.instanceName) (fun _ => Still x') x' :=
      forceDelete_missing_solo hd' (by rw [hdrift.instances, hget]) fun y hy => hy
    have hfinds := works_solo (C := C) (t := t) (forceDelete_works f.instanceName) honly'
    refine solo_mono (fun _ y hy => .inl ?_) (Conc.Prog.wp_and (fun _ _ _ h => h) hmissing hfinds)
    refine ⟨drifts.trans _ _ _ hdrift hy.1.toDrift, ?_⟩
    rintro ⟨⟨r', f', d'', hr, hf, hd'', hsome⟩, -⟩
    cases hy.2 _ _ _ hf
    cases hd.symm.trans hd''
    simp [hget] at hsome
  | some i =>
    obtain ⟨body, err, hmem⟩ := hun
    have hlost : ∀ y : View, (∀ e ∈ x'.2, e ∈ y.2) → Lost w (.info r) y.2 := fun y hy =>
      ⟨⟨r, f, d, rfl, hy _ hfound', hd, by simp [hget]⟩, body, err, hy _ hmem⟩
    by_cases hC : ∀ v e, C v e → Deletes v e
    · refine forceDelete_solo hC fun d' y hy hremoved => .inr ⟨hlost y ?_, fun _ hsame => ?_⟩
      · exact fun e he => hremoved.log.mem he
      · cases hd'.symm.trans hy
        have hgone := Instances.get?_remove x'.1.instances d f.instanceName
        rw [← hremoved.instances, hsame, hget] at hgone
        cases hgone
    · refine solo_mono (fun _ y hy => .inr ⟨hlost y ?_, fun hC' => absurd hC' hC⟩)
        (suffix_solo _ List.suffix_rfl)
      exact fun e he => hy.subset he

theorem restInfoHandler_asked {r : Request} :
    Solo C (fun _ => True) t (restInfoHandler r) (fun _ y => Asked C w (.info r) y) (w, []) := by
  have hstart : Asking w (w, []) := ⟨drifts.refl w, fun ⟨_, _, h⟩ => (nomatch h)⟩
  have herror : ∀ {text : String} {code : Nat} {x : View}, Asking w x →
      Solo C (fun _ => True) t (perform (.httpError text code))
        (fun _ y => Asked C w (.info r) y) x :=
    fun hx => asking_op hx rfl nofun fun _ _ _ hy => hy.asked
  unfold restInfoHandler
  refine solo_ite (fun _ => herror hstart) (fun _ => ?_)
  simp only [solo_bind]
  refine asking_op hstart rfl nofun fun c x₁ hm₁ h₁ => ?_
  refine asking_op h₁ rfl nofun fun daemon x₂ hm₂ h₂ => ?_
  have hdaemon : daemon = w.incusDaemon := by
    obtain ⟨v, hdrift, -, hdid, -⟩ := hm₂
    exact (hdid.truthful : daemon = v.incusDaemon).trans
      (hdrift.incusDaemon.trans h₁.incusDaemon)
  refine solo_ite (fun _ => herror h₂) (fun hup => ?_)
  simp only [solo_bind]
  refine asking_op h₂ rfl nofun fun _ x₃ hm₃ h₃ => asking_op h₃ rfl nofun fun _ x₄ hm₄ h₄ => ?_
  refine solo_ite (fun _ => herror h₄) (fun _ => ?_)
  rw [solo_bind]
  refine asking_op h₄ rfl nofun fun answer x₅ hm₅ h₅ => ?_
  rcases answer with e | (_ | f)
  · exact herror h₅
  · exact herror h₅
  · rw [solo_bind]
    refine asking_op h₅ rfl nofun fun c x₆ hm₆ h₆ => ?_
    have hlog := hm₆.log_eq
    rw [hm₅.log_eq, hm₄.log_eq, hm₃.log_eq, hm₂.log_eq, hm₁.log_eq] at hlog
    have hfound : ⟨.query (.dbGetInstance (r.formValue "id") false), .ok (some f)⟩ ∈ x₆.2 := by
      simp [hlog]
    have honly : FoundOnly f x₆.2 := fun id active f' hmem => by
      simp only [hlog, List.mem_cons, List.not_mem_nil] at hmem
      simp at hmem
      exact hmem.2
    rw [solo_bind]
    refine solo_op nofun fun written x₇ hm₇ => ?_
    cases written with
    | ok _ => exact (h₆.moved rfl (fun _ _ h => by cases h) hm₇).asked
    | error err =>
      obtain ⟨d, hd⟩ := Option.ne_none_iff_exists'.mp fun hnone => hup (.inr hnone)
      rw [solo_bind]
      refine unanswered_solo h₆ hfound honly hm₇ (hdaemon.symm.trans hd) fun y hy => ?_
      exact solo_op nofun fun _ z hz => hy.httpError hz

end Handlers

-- ============================================================================
-- Every question
-- ============================================================================

/-- A GET request for one of the other endpoints that goes on its own to its end, where `C` says
    what of its operations. -/
structure AskedAlone (C : World → Event → Prop) (s s' : Sys) (t : Nat) (q : RestRequest) (l : Log) :
    Prop where
  request : s.threads[t]? = some (server.start (.rest q))
  get : q.method = "GET"
  run : server.Run (Machine.Alone t C Ambient) s s'
  done : ∃ th, s'.threads[t]? = some th ∧ th.log = l ∧ th.prog = .ret ()

theorem restHandler_asked {C : World → Event → Prop} {t : Nat} {w : World} {q : RestRequest}
    (hget : q.method = "GET") :
    Solo C (fun _ => True) t (restHandler q) (fun _ y => Asked C w q y) (w, []) := by
  have hanswers : ∀ prog : Prog Unit, Answers prog → (∀ r, q ≠ .info r) →
      Solo C (fun _ => True) t prog (fun _ y => Asked C w q y) (w, []) := by
    intro prog hprog hq
    refine solo_mono (fun _ y hy => .inl ⟨hy, ?_⟩) (answers_solo hprog (drifts.refl w))
    rintro ⟨⟨r, f, d, hr, -⟩, -⟩
    exact hq r hr
  cases q with
  | status r => exact hanswers _ (restStatusHandler_answers r) nofun
  | terms r => exact hanswers _ (restTermsHandler_answers r) nofun
  | info r => exact restInfoHandler_asked
  | statistics r => exact hanswers _ (restStatisticsHandler_answers r) nofun
  | feedback r =>
    refine hanswers _ (restFeedbackHandler_answers ?_) nofun
    rw [show r.method = "GET" from hget]
    decide

theorem AskedAlone.asked {C : World → Event → Prop} {s s' : Sys} {t : Nat} {q : RestRequest} {l : Log}
    (h : AskedAlone C s s' t q l) : ∃ w, Drift w s'.world ∧ Asked C s.world q (w, l) := by
  obtain ⟨th, hth', rfl, hprog⟩ := h.done
  have hholds := Machine.Run.alone drifts (covers_moved _ _) h.request rfl
    (restHandler_asked h.get) h.run
  exact hholds.done hth' hprog

theorem Unchanged.drift {w w' w'' : World} (hd : Drift w' w'') :
    Unchanged w w'' ↔ Unchanged w w' := by
  constructor
  · exact fun h => ⟨hd.db ▸ h.db, hd.instances ▸ h.instances⟩
  · exact fun h => ⟨hd.db.trans h.db, hd.instances.trans h.instances⟩

/-- A GET request changes neither a table nor an instance, unless it asks about a session whose
    instance is there and its answer cannot be written; and then it does, when Incus fails to
    delete only what is not there. -/
theorem get_reads_only_iff {s s' : Sys} {t : Nat} {q : RestRequest} {l : Log} :
    (AskedAlone (fun _ _ => True) s s' t q l → ¬ Lost s.world q l → Unchanged s.world s'.world) ∧
    (AskedAlone Deletes s s' t q l → (Unchanged s.world s'.world ↔ ¬ Lost s.world q l)) := by
  constructor
  · intro h hno
    obtain ⟨w, hdrift, hasked⟩ := h.asked
    rw [Unchanged.drift hdrift]
    rcases hasked with ⟨hsame, -⟩ | ⟨hlost, -⟩
    · exact hsame.unchanged
    · exact absurd hlost hno
  · intro h
    obtain ⟨w, hdrift, hasked⟩ := h.asked
    rw [Unchanged.drift hdrift]
    rcases hasked with ⟨hsame, hno⟩ | ⟨hlost, hchanged⟩
    · exact iff_of_true hsame.unchanged hno
    · exact iff_of_false (fun hsame => hchanged (fun _ _ h => h) hsame.instances) (not_not.mpr hlost)

/-- A request for information on session `id`. -/
def infoRequest (id : String) : Request := ⟨"GET", "", "192.0.2.1:50000", [("id", id)], true⟩

/-- The server when a request for information on session `id` has come in. -/
def informed (s : Sys) (id : String) : Sys :=
  ⟨s.world, s.threads ++ [server.start (.rest (.info (infoRequest id)))]⟩

/-- An information request that goes on its own as `as` says to its end. -/
theorem askedAlone_of_check {s : Sys} {id : String} {as : List (Sys → Action)} {f : Log → Bool}
    {g : Sys → Bool} (h : (server.steps (alone s.threads.length deletes) (informed s id) as).any
      (fun s' => endedWith s.threads.length f s' && g s') = true) :
    ∃ s' l, AskedAlone Deletes (informed s id) s' s.threads.length (.info (infoRequest id)) l ∧
      f l = true ∧ g s' = true := by
  obtain ⟨s', hrun, hs'⟩ := server.run_of_check (alone s.threads.length deletes)
    (of_alone fun _ _ => of_deletes) _ _ _ h
  obtain ⟨hended, hg⟩ := Bool.and_eq_true_iff.mp hs'
  obtain ⟨l, hdone, hl⟩ := done_of_endedWith hended
  refine ⟨s', l, ⟨?_, rfl, hrun, hdone⟩, hl, hg⟩
  unfold informed
  rw [List.getElem?_append_right (Nat.le_refl _), Nat.sub_self]
  rfl

/-- The answer was written. -/
def written (l : Log) : Bool :=
  l.all fun e =>
    match e with
    | ⟨.encode _, .error _⟩ => false
    | _ => true

theorem of_written {l : Log} (h : written l = true) : ¬ Unwritten l := by
  rintro ⟨body, err, he⟩
  cases List.all_eq_true.mp h _ he

/-- The client gets its answer, and the session of the pool stays. -/
theorem get_reads_only_small : ∃ s s' : Sys, Unchanged s.world s'.world ∧
    (s'.world.instances.length == 1) = true := by
  obtain ⟨s, -, hs⟩ := server.run_of_check Machine.noTest (fun _ _ _ => trivial) (emptyServer 1)
    (oks 0 47) (fun s => (server.steps (alone s.threads.length deletes) (informed s "u0")
      (oks 2 7)).any fun s' => endedWith s.threads.length written s' &&
        s'.world.instances.length == 1) (by decide +kernel)
  obtain ⟨s', l, hasked, hl, hlength⟩ := askedAlone_of_check hs
  exact ⟨_, s', (get_reads_only_iff.2 hasked).mpr fun hlost => of_written hl hlost.2, hlength⟩

/-- The client of a session drops its connection while it asks, and loses the instance. -/
theorem get_deletes_instance : ¬ ∀ s₀ s s' t q l, Initial s₀ → server.Run Machine.anyStep s₀ s →
    AskedAlone Deletes s s' t q l → Unchanged s.world s'.world := by
  intro hall
  obtain ⟨s, hrun, hs⟩ := server.run_of_check Machine.noTest (fun _ _ _ => trivial) (emptyServer 1)
    (oks 0 47) (fun s => (server.steps (alone s.threads.length deletes) (informed s "u0")
      (oks 2 6 ++ failing 2 ++ oks 2 6)).any fun s' => endedWith s.threads.length (fun _ => true) s' &&
        s'.world.instances != s.world.instances) (by decide +kernel)
  obtain ⟨s', l, hasked, -, hchanged⟩ := askedAlone_of_check hs
  have henv : server.env s.world (.rest (.info (infoRequest "u0"))) =
    some (s.world, false, [.rest (.info (infoRequest "u0"))]) := rfl
  have hrequest : server.Step s _ (informed s "u0") := Machine.Step.env henv
  have hsame := hall _ _ s' _ _ l (emptyServer_initial 1)
    (hrun.tail ⟨_, trivial, hrequest⟩) hasked
  exact bne_iff_ne.mp hchanged hsame.instances

end IncusDemo
