/-
  IncusDemo.Timeout

  The timeout of a pre-allocated instance.  Its callback asks once whether the
  row still waits, and then stops and deletes the instance and deletes the row
  by id.  A request that claims the row before the callback asks is safe, and
  so is everything as long as no request claims a row that a callback has
  already found waiting.
-/

import IncusDemo.Names
import IncusDemo.Handout

namespace IncusDemo

open Go Conc

/-- No step of a timeout callback deletes a row that a request has claimed, or its instance. -/
def TimeoutSpares (s : Sys) : Prop :=
  ∀ t e s' i n l u q m id row expiry, server.Step s (.thread t e) s' →
    Ran s t (.allocateTimeout i n) l → Ran s u q m → claim m = .claimed id row expiry →
    e ≠ ⟨.query (.dbDelete id), .ok ()⟩ ∧
      ∀ d, e ≠ ⟨.wait d (.deleteInstance row.instanceName), .ok ()⟩

/-- No row is claimed that a timeout callback has found waiting and is about to delete. -/
def BeforeTimeout (s : Sys) (l : Label) : Prop :=
  ∀ id, claims l = some id → ∀ t name m, Runs s t (.allocateTimeout id name) m → ¬ Doomed m id

/-- The rows that callbacks are about to delete are claimed by nobody. -/
def DoomedUnclaimed (s : Sys) : Prop :=
  ∀ t id name l, Runs s t (.allocateTimeout id name) l → Doomed l id →
    ∀ u q m row expiry, Ran s u q m → claim m ≠ .claimed id row expiry

section Threads

variable {p : Proc} {l : Log}

/-- Only the goroutines that resync are ever in a pass. -/
theorem resyncs_of_pass (hl : Machine.LogAllowed Allowed p l) (h : pass l ≠ .idle) :
    p = .connect ∨ p = .hourlyResync := by
  induction l with
  | nil => exact absurd rfl h
  | cons e l ih =>
    have hop := hl e l List.suffix_rfl
    rcases pass_next hop h with rfl | h
    · exact hop.2.2.imp_left And.left
    · exact ih hl.tail h

theorem not_startFrom_timeout {id : Nat} {name ip : String} :
    ¬ StartFrom (.allocateTimeout id name) ip := by
  rintro ⟨r, protocol, hr, -⟩
  cases hr

/-- A timeout callback removes the instance of its row, or one it has made itself. -/
theorem timeout_removes {id : Nat} {name name' : String}
    (hl : Machine.LogAllowed Allowed (.allocateTimeout id name) l)
    (h : MayRemove (.allocateTimeout id name) l name') :
    (name' = name ∧ Doomed l id) ∨ ∃ u, (attempt l).unrecorded = some u ∧ name' = nameOf u := by
  cases h with
  | own u ho hn =>
    refine .inr ⟨u, ?_, hn⟩
    rcases ho with h | h | h <;> rw [h] <;> rfl
  | started ip id expiry hp _ => exact absurd hp not_startFrom_timeout
  | ended id hp => cases hp
  | unclaimed id hp hd =>
    cases hp
    exact .inl ⟨rfl, hd⟩
  | overdue e rest t hp => cases hp
  | former e rest hp => cases hp
  | unanswered r id f hp => cases hp
  | resync names hpass =>
    rcases resyncs_of_pass hl (by rw [hpass]; exact fun h => nomatch h) with h | h <;> cases h

end Threads

theorem DoomedUnclaimed.threadStep {s s' : Sys} {t : Nat} {p : Proc} {l : Log} {e : Event}
    (hsound : Sound s) (hstarted : Started s) (h : DoomedUnclaimed s)
    (hC : BeforeTimeout s (.thread t e)) (hm : ThreadStep s t p l e s') : DoomedUnclaimed s' := by
  -- a claim that is there after the step was there before, or is made by it
  have hclaims : ∀ u q m id row x, Ran s' u q m → claim m = .claimed id row x →
      (∃ u q m, Ran s u q m ∧ claim m = .claimed id row x) ∨ claims (.thread t e) = some id := by
    intro u q m id row x hr hc
    rcases hm.ran_cases u q m hr with ⟨-, rfl, rfl⟩ | ⟨-, hr⟩ | ⟨-, rfl, -⟩
    · rw [claim_cons] at hc
      unfold Claim.next at hc
      split at hc
      · cases hc
      · rename_i expiry date ip terms i _
        split at hc
        · rename_i id' row' hpick
          cases hc
          have hmay : MayClaim q l x ip i := hm.allowed
          obtain ⟨row'', hpick'⟩ := hmay.picked
          cases hpick.symm.trans hpick'
          exact .inr rfl
        · exact .inl ⟨t, q, l, hm.runs.ran, hc⟩
      · cases hc
      · exact .inl ⟨t, q, l, hm.runs.ran, hc⟩
    · exact .inl ⟨u, q, m, hr, hc⟩
    · cases hc
  -- a callback that is doomed for a row after the step was so before, or has just asked
  have hdoomed : ∀ u id name m, Runs s' u (.allocateTimeout id name) m → Doomed m id →
      (∃ m, Runs s u (.allocateTimeout id name) m ∧ Doomed m id) ∨
      e = ⟨.query (.dbIsAllocated id), .ok true⟩ := by
    intro u id name m hr hd
    rcases hm.runs_cases u _ m hr with ⟨rfl, rfl, rfl⟩ | ⟨-, hr⟩ | ⟨-, rfl, -⟩
    · rcases List.mem_cons.mp hd.1 with heq | hmem
      · exact .inr heq.symm
      · exact .inl ⟨l, hm.runs, hmem, fun r hr => hd.2 r (List.mem_cons_of_mem _ hr)⟩
    · exact .inl ⟨m, hr, hd⟩
    · cases hd.1
  intro u id name m hr hd v q m' row x hr' hc
  rcases hclaims v q m' id row x hr' hc with ⟨v', q', n, hr', hc⟩ | hc
  · rcases hdoomed u id name m hr hd with ⟨n', hr, hd⟩ | rfl
    · exact h u id name n' hr hd v' q' n row x hr' hc
    · -- the callback has found the row waiting, so nobody has claimed it
      obtain ⟨-, d, i, y, hu, -⟩ := mem_of_claimed (hsound.allowed hr') hc
      obtain ⟨a, ha, hstatus⟩ := waiting_of_isAllocated hm.did.truthful
      have hle := (hstarted.events v' q' n _ id hr' hu rfl).status a ha
      rw [hstatus] at hle
      exact absurd hle (by decide)
  · rcases hdoomed u id name m hr hd with ⟨n', hr, hd⟩ | rfl
    · exact hC id hc u name n' hr hd
    · cases hc

theorem DoomedUnclaimed.envStep {s s' : Sys} {e : Env} (h : DoomedUnclaimed s)
    (hm : EnvStep s e s') : DoomedUnclaimed s' := by
  intro u id name m hr hd v q m' row x hr' hc
  rcases hm.runs_cases u _ m hr with hr | ⟨rfl, -⟩
  · rcases hm.ran_cases v q m' hr' with hr' | ⟨rfl, -⟩
    · exact h u id name m hr hd v q m' row x hr' hc
    · cases hc
  · cases hd.1

theorem timeoutSpares_of {w₀ : World} {s : Sys} (hsound : Sound s) (hregular : Regular w₀ s)
    (h : DoomedUnclaimed s) : TimeoutSpares s := by
  intro t e s' i n l u q m id row x hs hr hr' hc
  obtain ⟨p, l', hm⟩ := thread_step hsound.follow hs
  obtain ⟨rfl, rfl⟩ := hr.unique hm.runs.ran
  obtain ⟨hsel, -⟩ := mem_of_claimed (hsound.allowed hr') hc
  obtain ⟨b, hb, hsame⟩ := hregular.named.selected u q m id row hr' hsel
  constructor
  · rintro rfl
    have hmay : MayDelete (.allocateTimeout i n) l id := hm.allowed
    cases hmay with
    | unclaimed name hp hd =>
      cases hp
      exact h t i n l hm.runs hd u q m row x hr' hc
    | former e rest hp => cases hp
  · rintro d rfl
    have hmay : Removes (.allocateTimeout i n) l row.instanceName := And.left hm.allowed
    rcases timeout_removes (hsound.allowed hr) hmay.reason with ⟨hname, hd⟩ | ⟨v, hv, hname⟩
    · -- the callback's row is the claimed one, for both have the same instance
      obtain ⟨a, ha, hn⟩ := hregular.named.callbacks t _ l i n hr rfl
      have huuid : a.uuid = b.uuid := nameOf_injective (by
        rw [← (hregular.named.drawn i a ha).2, ← (hregular.named.drawn id b hb).2, hn, ← hname,
          hsame.name])
      cases hregular.named.apart i id a b ha hb huuid
      exact h t i n l hm.runs hd u q m row x hr' hc
    · -- what it has made itself is of no row
      have hfresh := (hregular.named.unrecorded t _ l v hm.runs hv).2 id b hb
      refine hfresh (nameOf_injective ?_)
      rw [← (hregular.named.drawn id b hb).2, ← hsame.name, hname]

/-- In a run in which no row is claimed once a timeout callback has found it waiting, no
    callback deletes a claimed row or its instance. -/
theorem timeout_spares_claimed {s₀ s : Sys} (h0 : Initial s₀) (hw : WellFormed s₀.world)
    (hrun : server.Run BeforeTimeout s₀ s) : TimeoutSpares s := by
  have hinit : DoomedUnclaimed s₀ := fun t id name l hr => nomatch (h0.ran hr.ran).1
  obtain ⟨hsound, hregular, hdoomed⟩ := invariant_run
    (I := fun s => Regular s₀.world s ∧ DoomedUnclaimed s) h0.sound ⟨h0.regular hw, hinit⟩
    (fun s t p l e s' hs hI hC hm =>
      ⟨hI.1.threadStep hs hm, hI.2.threadStep hs hI.1.started hC hm⟩)
    (fun s e s' hs hI _ hm => ⟨hI.1.envStep hm, hI.2.envStep hm⟩) hrun
  exact timeoutSpares_of hsound hregular hdoomed

/-- The test for `BeforeTimeout`. -/
def beforeTimeout (s : Sys) (l : Label) : Bool :=
  (claims l).all fun id => s.threads.all fun th =>
    match th.proc with
    | .allocateTimeout i _ => i != id || !th.alive || th.log.isEmpty
    | _ => true

theorem of_beforeTimeout (s : Sys) (l : Label) (h : beforeTimeout s l = true) :
    BeforeTimeout s l := by
  rintro id hid t name m ⟨th, hth, halive, hp, rfl⟩ hd
  simp only [beforeTimeout, hid, Option.all_some] at h
  have h := List.all_eq_true.mp h th (List.mem_of_getElem? hth)
  rw [hp] at h
  have hne : th.log.isEmpty = false := by
    cases hl : th.log with
    | nil =>
      rw [hl] at hd
      cases hd.1
    | cons => rfl
  simp [halive, hne] at h

/-- An empty server fills its pool with one instance, and an hour later its timer fires. -/
def expiredPool : List (Sys → Action) :=
  oks 0 47 ++ act (.tick ⟨4000000000000, by decide⟩) ++ act (.fire 0)

/-- A server without rows and instances. -/
def emptyServer (allocated : Int) : Sys := bootSys (smallWorld []) (smallConfig 5 allocated)

theorem emptyServer_initial (allocated : Int) : Initial (emptyServer allocated) :=
  bootSys_initial _ _

theorem emptyServer_wellFormed (allocated : Int) : WellFormed (emptyServer allocated).world :=
  ⟨fun _ _ h => absurd h List.not_mem_nil, fun _ _ h => absurd h List.not_mem_nil,
    fun _ _ _ _ h => absurd h List.not_mem_nil, fun _ h => absurd h List.not_mem_nil⟩

/-- The request comes before the callback asks, and keeps its session. -/
theorem timeout_spares_claimed_small : ∃ s, TimeoutSpares s ∧ hasClaimed 1 3 s = true := by
  obtain ⟨s, hrun, hs⟩ := server.run_of_check beforeTimeout of_beforeTimeout (emptyServer 1)
    (expiredPool ++ act (.request (startRequest "192.0.2.1")) ++ oks 3 19 ++ oks 2 1)
    (hasClaimed 1 3) (by decide +kernel)
  exact ⟨s, timeout_spares_claimed (emptyServer_initial 1) (emptyServer_wellFormed 1) hrun, hs⟩

/-- The step of thread `t` deletes the instance `name`. -/
def deletesInstance (t : Nat) (name : String) : Label → Bool
  | .thread u ⟨.wait _ (.deleteInstance n), .ok _⟩ => u == t && n == name
  | _ => false

theorem of_deletesInstance {t : Nat} {name : String} {l : Label}
    (h : deletesInstance t name l = true) :
    ∃ d, l = .thread t ⟨.wait d (.deleteInstance name), .ok ()⟩ := by
  unfold deletesInstance at h
  split at h
  · obtain ⟨ht, hn⟩ := Bool.and_eq_true_iff.mp h
    cases beq_iff_eq.mp ht
    cases beq_iff_eq.mp hn
    exact ⟨_, rfl⟩
  · cases h

/-- Timeout callback `t` is about to delete the instance that thread `u` has claimed. -/
def strikes (t u : Nat) (s : Sys) : Bool :=
  match s.threads[t]?, s.threads[u]? with
  | some th, some th' =>
    match th.proc, claim th'.log with
    | .allocateTimeout _ _, .claimed _ row _ =>
      (server.step s (go t s)).any fun r => deletesInstance t row.instanceName r.1
    | _, _ => false
  | _, _ => false

theorem not_timeoutSpares {t u : Nat} {s : Sys} (h : strikes t u s = true) : ¬ TimeoutSpares s := by
  intro hspares
  unfold strikes at h
  split at h
  · rename_i th th' hth hth'
    split at h
    · rename_i i n id row x hp hc
      obtain ⟨l, s', hs, hl⟩ := server.step_of_check h
      obtain ⟨d, rfl⟩ := of_deletesInstance hl
      exact (hspares t _ s' i n _ u _ _ id row x hs ⟨th, hth, hp, rfl⟩ ⟨th', hth', rfl, rfl⟩ hc).2 d rfl
    · cases h
  · cases h

/-- The request comes after the callback has asked, and loses its instance to it. -/
theorem timeout_destroys_claimed : ¬ ∀ s₀ s, Initial s₀ → WellFormed s₀.world →
    server.Run Machine.anyStep s₀ s → TimeoutSpares s := by
  intro hall
  obtain ⟨s, hrun, hs⟩ := server.run_of_check Machine.noTest (fun _ _ _ => trivial) (emptyServer 1)
    (expiredPool ++ act (.request (startRequest "192.0.2.1")) ++ oks 2 1 ++ oks 3 19 ++ oks 2 4)
    (strikes 2 3) (by decide +kernel)
  exact not_timeoutSpares hs (hall _ s (emptyServer_initial 1) (emptyServer_wellFormed 1) hrun)

end IncusDemo
