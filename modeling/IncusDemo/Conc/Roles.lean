/-
  IncusDemo.Conc.Roles

  Rely and guarantee in systems where no two threads run the same.  What a
  thread runs is its role; `roles` reads off the world which roles have been
  taken.  A thread may rely on it that the others change the world only as
  `rely` says for its role, and in return each of its operations keeps the
  invariant and what the other roles rely on.

  Assertions that are stable under `rely` are carried through a program as in a
  sequential proof (`sound_then`, and the rules of `wp`).  `Run.settled` says
  what this gives for every state of every run.
-/

import IncusDemo.Conc.System
import Mathlib.Data.List.Nodup

namespace IncusDemo
namespace Conc

/-- An invariant of the world, and for every role what it relies on, where it starts and ends, and
    which operations it performs. -/
structure Discipline (Op World Proc : Type) where
  roles : World → List Proc
  inv : World → Prop
  rely : Proc → World → World → Prop
  pre : Proc → World → Prop
  ok : Proc → World → Op → Prop
  fin : Proc → World → Prop

namespace Discipline

variable {Op : Type} {Ret : Op → Type} {World Choice Env Proc : Type} {α β : Type}

/-- What a discipline asks of the machine apart from its programs. -/
structure Lawful (D : Discipline Op World Proc) (M : Machine Op Ret World Choice Env Proc) :
    Prop where
  refl : ∀ p w, D.rely p w w
  trans : ∀ p w w' w'', D.rely p w w' → D.rely p w' w'' → D.rely p w w''
  nodup : ∀ w, D.inv w → (D.roles w).Nodup
  taken : ∀ w t o c r w', M.exec w t o c = some (r, w') → D.roles w' = D.roles w ++ M.spawn o
  fin : ∀ p w w', D.fin p w → D.rely p w w' → D.fin p w'
  act : ∀ w e w' stop ps, D.inv w → M.env w e = some (w', stop, ps) →
    stop = false ∧ ps = [] ∧ D.inv w' ∧ D.roles w' = D.roles w ∧ ∀ p ∈ D.roles w, D.rely p w w'

/-- What thread `p` guarantees of an operation `o` that leads from `w` to `w'`. -/
structure Guarantees (D : Discipline Op World Proc) (M : Machine Op Ret World Choice Env Proc)
    (p : Proc) (w : World) (o : Op) (w' : World) : Prop where
  inv : D.inv w'
  rely : ∀ q ∈ D.roles w, q ≠ p → D.rely q w w'
  pre : ∀ q ∈ M.spawn o, D.pre q w'

variable (D : Discipline Op World Proc) (M : Machine Op Ret World Choice Env Proc)

/-- The others act, and then `p` performs an operation. -/
def Moves (p : Proc) (w : World) (o : Op) (r : Ret o) (w'' : World) : Prop :=
  ∃ w' t c, D.rely p w w' ∧ D.inv w' ∧ M.exec w' t o c = some (r, w'')

/-- Whatever the others have done, the operation is one of the role, and keeps what it has to. -/
def Keeps (p : Proc) (w : World) (o : Op) : Prop :=
  ∀ w', D.rely p w w' → D.inv w' → D.ok p w' o ∧
    ∀ t c r w'', M.exec w' t o c = some (r, w'') → D.Guarantees M p w' o w''

/-- From `w` on, `prog` is as it has to be as a part of thread `p`, and ends as in `Q`. -/
abbrev Sound (p : Proc) (prog : Prog Op Ret α) (Q : α → World → Prop) (w : World) : Prop :=
  prog.wp (D.Moves M p) (D.Keeps M p) Q w

/-- The others do not disturb the assertion. -/
def Stable (p : Proc) (A : World → Prop) : Prop := ∀ w w', A w → D.rely p w w' → A w'

variable {D M} {p : Proc} {w w' : World}

theorem Sound.stable (hD : D.Lawful M) {prog : Prog Op Ret α} {Q : α → World → Prop}
    (hQ : ∀ a, D.Stable p (Q a)) (h : D.Sound M p prog Q w) (hrely : D.rely p w w') :
    D.Sound M p prog Q w' := by
  cases prog with
  | ret a => exact hQ a w w' h hrely
  | op o k =>
    refine ⟨fun w₁ hr hinv => h.1 w₁ (hD.trans _ _ _ _ hrely hr) hinv, ?_⟩
    rintro r w'' ⟨w₁, t, c, hr, hinv, hexec⟩
    exact h.2 r w'' ⟨w₁, t, c, hD.trans _ _ _ _ hrely hr, hinv, hexec⟩

/-- One operation, from a stable assertion. -/
theorem sound_op {o : Op} {A : World → Prop} {Q : Ret o → World → Prop} (hA : D.Stable p A)
    (hw : A w) (hok : ∀ w, A w → D.inv w → D.ok p w o)
    (h : ∀ w t c r w', A w → D.inv w → M.exec w t o c = some (r, w') →
      D.Guarantees M p w o w' ∧ Q r w') : D.Sound M p (Prog.perform o) Q w := by
  refine ⟨fun w' hr hinv => ⟨hok w' (hA w w' hw hr) hinv, fun t c r w'' hexec =>
    (h w' t c r w'' (hA w w' hw hr) hinv hexec).1⟩, ?_⟩
  rintro r w'' ⟨w', t, c, hr, hinv, hexec⟩
  exact (h w' t c r w'' (hA w w' hw hr) hinv hexec).2

/-- A part of a program and what follows it. -/
theorem sound_seq {m : Prog Op Ret α} {f : α → Prog Op Ret β} {Q : α → World → Prop}
    {Q' : β → World → Prop} (hm : D.Sound M p m Q w)
    (hf : ∀ a w', Q a w' → D.Sound M p (f a) Q' w') : D.Sound M p (m >>= f) Q' w :=
  (Prog.wp_bind m f).mpr (Prog.wp_mono hf hm)

end Discipline

namespace Machine

variable {Op : Type} {Ret : Op → Type} {World Choice Env Proc : Type}
  {D : Discipline Op World Proc} {M : Machine Op Ret World Choice Env Proc}
  {C : Sys Op Ret World Proc → Label Op Ret Env → Prop} {s s' : Sys Op Ret World Proc}

/-- The invariant holds, every role that has been taken has its thread, and every thread is
    sound. -/
structure Settled (D : Discipline Op World Proc) (M : Machine Op Ret World Choice Env Proc)
    (s : Sys Op Ret World Proc) : Prop where
  inv : D.inv s.world
  roles : s.threads.map Thread.proc = D.roles s.world
  thread : ∀ (u : Nat) th, s.threads[u]? = some th → th.alive = true ∧
    D.Sound M th.proc th.prog (fun _ => D.fin th.proc) s.world

/-- A thread that has ended is where its role ends. -/
theorem Settled.done (h : Settled D M s) {u : Nat} {th : Thread Op Ret Proc}
    (hth : s.threads[u]? = some th) (hend : th.prog = .ret ()) : D.fin th.proc s.world := by
  have hsound := (h.thread u th hth).2
  rwa [hend] at hsound

/-- The next operation of a thread is one of its role. -/
theorem Settled.next (hD : D.Lawful M) (h : Settled D M s) {u : Nat} {th : Thread Op Ret Proc}
    {o : Op} {k : Ret o → Prog Op Ret Unit} (hth : s.threads[u]? = some th)
    (hprog : th.prog = .op o k) : D.ok th.proc s.world o := by
  have hsound := (h.thread u th hth).2
  rw [hprog] at hsound
  exact (hsound.1 s.world (hD.refl _ _) h.inv).1

/-- A role that has been taken has its thread. -/
theorem Settled.find (h : Settled D M s) {p : Proc} (hp : p ∈ D.roles s.world) :
    ∃ (u : Nat) (th : Thread Op Ret Proc), s.threads[u]? = some th ∧ th.proc = p := by
  rw [← h.roles] at hp
  obtain ⟨th, hmem, rfl⟩ := List.mem_map.mp hp
  obtain ⟨u, hu⟩ := List.mem_iff_getElem?.mp hmem
  exact ⟨u, th, hu, rfl⟩

theorem Settled.role_mem (h : Settled D M s) {u : Nat} {th : Thread Op Ret Proc}
    (hth : s.threads[u]? = some th) : th.proc ∈ D.roles s.world := by
  rw [← h.roles]
  exact List.mem_map_of_mem (List.mem_of_getElem? hth)

/-- Two threads have different roles. -/
theorem Settled.apart (hD : D.Lawful M) (h : Settled D M s) {t u : Nat}
    {th th' : Thread Op Ret Proc} (hth : s.threads[t]? = some th) (hth' : s.threads[u]? = some th')
    (hne : u ≠ t) : th'.proc ≠ th.proc := by
  intro heq
  have hnodup := hD.nodup _ h.inv
  rw [← h.roles] at hnodup
  have hmap : ∀ {v : Nat} {th : Thread Op Ret Proc}, s.threads[v]? = some th →
      (s.threads.map Thread.proc)[v]? = some th.proc := fun hv => by
    rw [List.getElem?_map, hv]
    rfl
  obtain ⟨hlt, hget⟩ := List.getElem?_eq_some_iff.mp (hmap hth')
  obtain ⟨hlt', hget'⟩ := List.getElem?_eq_some_iff.mp (hmap hth)
  exact hne ((List.Nodup.getElem_inj_iff hnodup).mp (hget.trans (heq.trans hget'.symm)))

theorem Settled.step (hD : D.Lawful M)
    (hbody : ∀ q w, D.pre q w → D.Sound M q (M.body q) (fun _ => D.fin q) w)
    (h : Settled D M s) {l : Label Op Ret Env} (hs : M.Step s l s') : Settled D M s' := by
  have hfin : ∀ p, ∀ _ : Unit, D.Stable p (D.fin p) := fun p _ w w' => hD.fin p w w'
  cases hs with
  | @thread t th o k c r w hth halive hprog hexec =>
    have hsound := (h.thread t th hth).2
    rw [hprog] at hsound
    have hgives := (hsound.1 s.world (hD.refl _ _) h.inv).2 t c r w hexec
    refine ⟨hgives.inv, ?_, fun u th' hu => ?_⟩
    · rw [hD.taken _ _ _ _ _ _ hexec, ← h.roles, advance, List.map_append, List.map_set,
        List.map_map]
      have hlt := (List.getElem?_eq_some_iff.mp hth).1
      congr 1
      · have hself := @List.set_getElem_self _ (s.threads.map Thread.proc) t
          (by simpa using hlt)
        simpa [(List.getElem?_eq_some_iff.mp hth).2] using hself
      · exact List.map_id _
    · rcases M.get_advance hth hu with ⟨rfl, rfl⟩ | ⟨hne, hu⟩ | ⟨q, hq, rfl⟩
      · exact ⟨halive, hsound.2 r w ⟨s.world, u, c, hD.refl _ _, h.inv, hexec⟩⟩
      · obtain ⟨halive', hsound'⟩ := h.thread u th' hu
        exact ⟨halive', hsound'.stable hD (hfin _)
          (hgives.rely _ (h.role_mem hu) (h.apart hD hth hu hne))⟩
      · exact ⟨rfl, hbody q _ (hgives.pre q hq)⟩
  | env henv =>
    obtain ⟨rfl, rfl, hinv, hroles, hrely⟩ := hD.act _ _ _ _ _ h.inv henv
    have hsame : M.after s.threads false [] = s.threads := by simp [after]
    rw [hsame]
    refine ⟨hinv, h.roles.trans hroles.symm, fun u th' hu => ?_⟩
    obtain ⟨halive, hsound⟩ := h.thread u th' hu
    exact ⟨halive, hsound.stable hD (hfin _) (hrely _ (h.role_mem hu))⟩

/-- From a settled state every run leads to settled states. -/
theorem Run.settled (hD : D.Lawful M)
    (hbody : ∀ q w, D.pre q w → D.Sound M q (M.body q) (fun _ => D.fin q) w)
    (h0 : Settled D M s) (hrun : M.Run C s s') : Settled D M s' :=
  Run.invariant (I := Settled D M) h0 (fun _ _ _ h _ hs => h.step hD hbody hs) hrun

/-- A thread that has ended stays as it is, and what it relies on goes on to hold. -/
theorem Settled.ended_step (hD : D.Lawful M) (h : Settled D M s) {l : Label Op Ret Env} {u : Nat}
    {th : Thread Op Ret Proc} (hth : s.threads[u]? = some th) (hend : th.prog = .ret ())
    (hs : M.Step s l s') : s'.threads[u]? = some th ∧ D.rely th.proc s.world s'.world := by
  cases hs with
  | @thread t th' o k c r w hth' _ hprog hexec =>
    have hne : u ≠ t := by
      rintro rfl
      cases hth.symm.trans hth'
      cases hend.symm.trans hprog
    have hsound := (h.thread t th' hth').2
    rw [hprog] at hsound
    have hgives := (hsound.1 s.world (hD.refl _ _) h.inv).2 t c r w hexec
    exact ⟨M.get_advance_ne hne hth, hgives.rely _ (h.role_mem hth) (h.apart hD hth' hth hne)⟩
  | env henv =>
    obtain ⟨rfl, rfl, -, -, hrely⟩ := hD.act _ _ _ _ _ h.inv henv
    exact ⟨by simpa [after] using hth, hrely _ (h.role_mem hth)⟩

/-- So it is along every run. -/
theorem Run.ended (hD : D.Lawful M)
    (hbody : ∀ q w, D.pre q w → D.Sound M q (M.body q) (fun _ => D.fin q) w)
    (h0 : Settled D M s) {u : Nat} {th : Thread Op Ret Proc} (hth : s.threads[u]? = some th)
    (hend : th.prog = .ret ()) (hrun : M.Run C s s') :
    s'.threads[u]? = some th ∧ D.rely th.proc s.world s'.world := by
  induction hrun with
  | refl => exact ⟨hth, hD.refl _ _⟩
  | tail hrun hs ih =>
    obtain ⟨l, -, hs⟩ := hs
    obtain ⟨hth', hrely⟩ := (Run.settled hD hbody h0 hrun).ended_step hD ih.1 hend hs
    exact ⟨hth', hD.trans _ _ _ _ ih.2 hrely⟩

end Machine
end Conc
end IncusDemo
