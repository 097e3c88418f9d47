/-
  IncusDemo.Handout

  Who gets a pre-allocated session.  `dbGetAllocated` reads the oldest waiting
  row and then claims it by id, without looking at its status again.  Whenever
  the claim finds the row still waiting, the session goes to one request only
  and its row moves from 2 to 0 to 1; two requests that have read the same row
  before either claims it both get it.
-/

import IncusDemo.Sessions

namespace IncusDemo

open Go Conc

/-- No two requests hold the same pre-allocated session. -/
def ClaimedOnce (s : Sys) : Prop :=
  ∀ t u p q l m id row row' expiry expiry', Ran s t p l → Ran s u q m →
    claim l = .claimed id row expiry → claim m = .claimed id row' expiry' → t = u

/-- The status of a row moves from 2 to 0 and from 0 to 1, and not otherwise. -/
def StatusMoves (db db' : Db) : Prop :=
  ∀ id a b, db.Row id a → db'.Row id b →
    b.status = a.status ∨ (a.status = 2 ∧ b.status = 0) ∨ (a.status = 0 ∧ b.status = 1)

/-- The row that a step claims: the UPDATE of `dbGetAllocated`. -/
def claims : Label → Option Nat
  | .thread _ ⟨.query (.updateAllocated _ _ _ _ id), .ok _⟩ => some id
  | _ => none

/-- The UPDATE of `dbGetAllocated` finds its row still waiting. -/
def ClaimsWaiting (s : Sys) (l : Label) : Prop :=
  ∀ id, claims l = some id → ∃ row, s.world.db.Row id row ∧ row.status = 2

/-- At most one thread has claimed each row. -/
def UpdatedOnce (s : Sys) : Prop :=
  ∀ t u p q l m id e e' d d' i i' h h', Ran s t p l → Ran s u q m →
    ⟨.query (.updateAllocated e d i h id), .ok ()⟩ ∈ l →
    ⟨.query (.updateAllocated e' d' i' h' id), .ok ()⟩ ∈ m → t = u

theorem UpdatedOnce.threadStep {s s' : Sys} {t : Nat} {p : Proc} {l : Log} {e : Event}
    (hstarted : Started s) (h : UpdatedOnce s) (hC : ClaimsWaiting s (.thread t e))
    (hm : ThreadStep s t p l e s') : UpdatedOnce s' := by
  -- the thread that moves shares no claimed row with any other
  have hnew : ∀ u q m id x d i y x' d' i' y', Ran s u q m → u ≠ t →
      ⟨.query (.updateAllocated x d i y id), .ok ()⟩ ∈ e :: l →
      ⟨.query (.updateAllocated x' d' i' y' id), .ok ()⟩ ∈ m → False := by
    intro u q m id x d i y x' d' i' y' hr hu he he'
    rcases List.mem_cons.mp he with rfl | he
    · obtain ⟨row, hrow, hstatus⟩ := hC id rfl
      have := (hstarted.events u q m _ id hr he' rfl).status row hrow
      omega
    · exact hu (h u t q p m l id _ _ _ _ _ _ _ _ hr hm.runs.ran he' he)
  intro u v q r m n id x x' d d' i i' y y' hu hv he he'
  rcases hm.ran_cases u q m hu with ⟨rfl, -, rfl⟩ | ⟨hut, hu⟩ | ⟨-, rfl, -⟩
  · rcases hm.ran_cases v r n hv with ⟨rfl, -, -⟩ | ⟨hvt, hv⟩ | ⟨-, rfl, -⟩
    · rfl
    · exact absurd he' fun he' => hnew v r n id _ _ _ _ _ _ _ _ hv hvt he he'
    · cases he'
  · rcases hm.ran_cases v r n hv with ⟨rfl, -, rfl⟩ | ⟨-, hv⟩ | ⟨-, rfl, -⟩
    · exact absurd he fun he => hnew u q m id _ _ _ _ _ _ _ _ hu hut he' he
    · exact h u v q r m n id _ _ _ _ _ _ _ _ hu hv he he'
    · cases he'
  · cases he

theorem UpdatedOnce.envStep {s s' : Sys} {e : Env} (h : UpdatedOnce s) (hm : EnvStep s e s') :
    UpdatedOnce s' := by
  intro u v q r m n id x x' d d' i i' y y' hu hv he he'
  have hu := hm.ran_of_mem hu he
  have hv := hm.ran_of_mem hv he'
  exact h u v q r m n id _ _ _ _ _ _ _ _ hu hv he he'

theorem UpdatedOnce.claimedOnce {s : Sys} (hsound : Sound s) (h : UpdatedOnce s) : ClaimedOnce s := by
  intro t u p q l m id row row' x x' hr hr' hc hc'
  obtain ⟨-, d, i, y, he, -⟩ := mem_of_claimed (hsound.allowed hr) hc
  obtain ⟨-, d', i', y', he', -⟩ := mem_of_claimed (hsound.allowed hr') hc'
  exact h t u p q l m id _ _ _ _ _ _ _ _ hr hr' he he'

theorem StatusMoves.refl (db : Db) : StatusMoves db db := fun _ _ _ ha hb =>
  .inl (congrArg Session.status (row_unique hb ha))

/-- One step moves every status forward, when a claim finds its row waiting. -/
theorem statusMoves_step {s s' : Sys} {l : Label} (hsound : Sound s) (hstarted : Started s)
    (hC : ClaimsWaiting s l) (hs : server.Step s l s') : StatusMoves s.world.db s'.world.db := by
  cases l with
  | env e =>
    rw [(env_step hs).db]
    exact .refl _
  | thread t e =>
    obtain ⟨p, l, hm⟩ := thread_step hsound.follow hs
    intro id a b ha hb
    cases row_after hm.did hb with
    | kept hb => exact .inl (congrArg Session.status (row_unique hb ha))
    | inserted _ hid => exact absurd (hid ▸ ha) (Sql.Table.nextId_not_mem _ _)
    | expired a' he ha' hb =>
      cases row_unique ha ha'
      subst he
      have hle := (begun_of_expires hstarted hm.runs.ran hm.allowed).status a ha
      subst hb
      change 1 = a.status ∨ (a.status = 2 ∧ 1 = 0) ∨ (a.status = 0 ∧ 1 = 1)
      omega
    | claimed a' expiry date ip terms he ha' hb =>
      cases row_unique ha ha'
      subst he
      obtain ⟨row, hrow, hstatus⟩ := hC id rfl
      cases row_unique ha hrow
      exact .inr (.inl ⟨hstatus, by rw [hb]; rfl⟩)

/-- In a run in which every claim finds its row waiting, a pre-allocated session goes to one
    request at most, and every step moves the status of a row from 2 to 0 or from 0 to 1 or
    not at all. -/
theorem handed_out_once {s₀ s : Sys} (h0 : Initial s₀) (hrun : server.Run ClaimsWaiting s₀ s) :
    ClaimedOnce s ∧
    ∀ l s', ClaimsWaiting s l → server.Step s l s' → StatusMoves s.world.db s'.world.db := by
  have hinit : UpdatedOnce s₀ := fun t u p q l m id _ _ _ _ _ _ _ _ hr _ he => by
    rw [(h0.ran hr).2] at he
    cases he
  obtain ⟨hsound, hstarted, hupdated⟩ := invariant_run
    (I := fun s => Started s ∧ UpdatedOnce s) h0.sound ⟨h0.started, hinit⟩
    (fun s t p l e s' hs hI hC hm => ⟨hI.1.threadStep hs hm, hI.2.threadStep hI.1 hC hm⟩)
    (fun s e s' hs hI _ hm => ⟨hI.1.envStep hm, hI.2.envStep hm⟩) hrun
  exact ⟨hupdated.claimedOnce hsound, fun l s' hC hs => statusMoves_step hsound hstarted hC hs⟩

/-- The test for `ClaimsWaiting`. -/
def claimsWaiting (s : Sys) (l : Label) : Bool :=
  (claims l).all fun id => s.world.db.sessions.rows.any fun r => r.1 == id && r.2.status == 2

theorem of_claimsWaiting (s : Sys) (l : Label) (h : claimsWaiting s l = true) :
    ClaimsWaiting s l := by
  intro id hid
  simp only [claimsWaiting, hid, Option.all_some, List.any_eq_true, Bool.and_eq_true, beq_iff_eq] at h
  obtain ⟨⟨i, row⟩, hrow, rfl, hstatus⟩ := h
  exact ⟨row, hrow, hstatus⟩

/-- Thread `t` has claimed row `id`. -/
def hasClaimed (id t : Nat) (s : Sys) : Bool :=
  match s.threads[t]? with
  | some th =>
    match claim th.log with
    | .claimed i _ _ => i == id
    | _ => false
  | none => false

theorem ran_of_hasClaimed {id t : Nat} {s : Sys} (h : hasClaimed id t s = true) :
    ∃ p l row expiry, Ran s t p l ∧ claim l = .claimed id row expiry := by
  unfold hasClaimed at h
  split at h
  · rename_i th hth
    split at h
    · rename_i i row expiry hc
      cases beq_iff_eq.mp h
      exact ⟨_, _, row, expiry, ⟨th, hth, rfl, rfl⟩, hc⟩
    · cases h
  · cases h

/-- The startup goroutine connects, and two requests come in. -/
def twoRequests : List (Sys → Action) :=
  oks 0 6 ++ act (.request (startRequest "192.0.2.1")) ++ act (.request (startRequest "192.0.2.2"))

/-- A server with two waiting rows and a limit on the active ones. -/
def twoRows (total : Int) : Sys :=
  bootSys (smallWorld [("a", "10.0.0.1"), ("b", "10.0.0.2")]) (smallConfig total 2)

theorem twoRows_initial (total : Int) : Initial (twoRows total) := bootSys_initial _ _

/-- One request after the other: each gets a session of its own. -/
theorem handed_out_once_small : ∃ s, (ClaimedOnce s ∧
    ∀ l s', ClaimsWaiting s l → server.Step s l s' → StatusMoves s.world.db s'.world.db) ∧
    hasClaimed 1 1 s = true ∧ hasClaimed 2 2 s = true := by
  obtain ⟨s, hrun, hs⟩ := server.run_of_check claimsWaiting of_claimsWaiting (twoRows 5)
    (twoRequests ++ oks 1 19 ++ oks 2 19) (fun s => hasClaimed 1 1 s && hasClaimed 2 2 s)
    (by decide +kernel)
  exact ⟨s, handed_out_once (twoRows_initial 5) hrun, Bool.and_eq_true_iff.mp hs⟩

/-- When both requests read the oldest waiting row before either claims it, both get it. -/
theorem handed_out_twice :
    ¬ ∀ s₀ s, Initial s₀ → server.Run Machine.anyStep s₀ s → ClaimedOnce s := by
  intro hall
  obtain ⟨s, hrun, hs⟩ := server.run_of_check Machine.noTest (fun _ _ _ => trivial) (twoRows 5)
    (twoRequests ++ oks 1 18 ++ oks 2 18 ++ oks 1 1 ++ oks 2 1)
    (fun s => hasClaimed 1 1 s && hasClaimed 1 2 s) (by decide +kernel)
  obtain ⟨h₁, h₂⟩ := Bool.and_eq_true_iff.mp hs
  obtain ⟨p, l, row, x, hr, hc⟩ := ran_of_hasClaimed h₁
  obtain ⟨q, m, row', x', hr', hc'⟩ := ran_of_hasClaimed h₂
  exact absurd (hall _ s (twoRows_initial 5) hrun 1 2 p q l m 1 row row' x x' hr hr' hc hc')
    (by decide)

end IncusDemo
