/-
  IncusDemo.Partition

  The statistics of `dbGetStats` by network and over all.  Without a network
  the database counts the rows; with one, the addresses of the rows are parsed
  and the network is asked.  Over networks that divide up all addresses the
  counts add up to the rows with an address, which are those that some client
  has requested.
-/

import IncusDemo.Identity
import Mathlib.Algebra.BigOperators.Ring.Finset

namespace IncusDemo

open Go Conc

-- ============================================================================
-- Counting by parts
-- ============================================================================

section Parts

variable {α ι : Type} {p : ι → α → Bool} {good : α → Bool}

/-- An element more counts once for every part that it is in. -/
theorem sum_countP_cons (parts : List ι) (p : ι → α → Bool) (a : α) (l : List α) :
    (parts.map fun i => (a :: l).countP (p i)).sum =
      (parts.map fun i => l.countP (p i)).sum + parts.countP (p · a) := by
  induction parts with
  | nil => rfl
  | cons i parts ih =>
    simp only [List.map_cons, List.sum_cons]
    rw [ih, List.countP_cons, List.countP_cons]
    omega

/-- Parts of which every good element is in exactly one, and no other element in any, have the
    good elements between them. -/
theorem sum_countP {parts : List ι} {l : List α}
    (h : ∀ a ∈ l, parts.countP (p · a) = if good a then 1 else 0) :
    (parts.map fun i => l.countP (p i)).sum = l.countP good := by
  induction l with
  | nil =>
    induction parts with
    | nil => rfl
    | cons i parts ih => simp
  | cons a l ih =>
    obtain ⟨ha, hl⟩ := List.forall_mem_cons.mp h
    rw [sum_countP_cons, ih hl, ha, List.countP_cons]

end Parts

-- ============================================================================
-- Networks
-- ============================================================================

/-- The networks divide up all addresses. -/
structure DividesAddresses (networks : List IPNet) : Prop where
  disjoint : networks.Pairwise fun m n => ∀ ip, ¬ (m.contains ip = true ∧ n.contains ip = true)
  cover : ∀ ip, ∃ n ∈ networks, n.contains ip = true

/-- Every address is in one of the networks. -/
theorem DividesAddresses.countP {networks : List IPNet} (h : DividesAddresses networks) (ip : IP) :
    networks.countP (·.contains ip) = 1 := by
  obtain ⟨n, hn, hip⟩ := h.cover ip
  obtain ⟨l₁, l₂, rfl⟩ := List.append_of_mem hn
  have hother : ∀ m ∈ l₁ ++ l₂, m.contains ip = false := by
    have hdisjoint := h.disjoint
    rw [List.pairwise_append, List.pairwise_cons] at hdisjoint
    intro m hm
    rw [← Bool.not_eq_true]
    intro hm'
    rcases List.mem_append.mp hm with hm | hm
    · exact hdisjoint.2.2 m hm n (List.mem_cons_self ..) ip ⟨hm', hip⟩
    · exact hdisjoint.2.1.1 m hm ip ⟨hip, hm'⟩
  have hzero : (l₁ ++ l₂).countP (·.contains ip) = 0 :=
    List.countP_eq_zero.mpr fun m hm => by simp [hother m hm]
  rw [List.countP_append] at hzero
  rw [List.countP_append, List.countP_cons, if_pos hip]
  omega

/-- The counts by network add up to the addresses among the texts. -/
theorem sum_inNetwork {networks : List IPNet} (h : DividesAddresses networks) (ips : List String) :
    (networks.map fun n => ips.countP (inNetwork n)).sum = ips.countP fun ip => (parseIP ip).isSome := by
  refine sum_countP fun ip _ => ?_
  unfold inNetwork
  cases parseIP ip with
  | none => exact List.countP_eq_zero.mpr fun _ _ => Bool.false_ne_true
  | some x => exact h.countP x

-- ============================================================================
-- Sums
-- ============================================================================

/-- What `dbGetStats` answers when no statement fails. -/
def statsOf (w : World) (period : String) (unique : Bool) (network : Option IPNet) : Option Int :=
  match server.value 0 .ok (dbGetStats period unique network) w with
  | some (.ok n, _) => some n
  | _ => none

theorem statsOf_eq (w : World) (period : String) (unique : Bool) (network : Option IPNet) :
    statsOf w period unique network =
      some (w.db.stats unique (statsWhereAt w.clock period) network) := by
  unfold statsOf
  rw [dbGetStats_value]

/-- The statistics of the networks add up to the statistics over all. -/
def AddsUp (w : World) (period : String) (unique : Bool) (networks : List IPNet) : Prop :=
  ∃ counts : List Int, (networks.map fun n => statsOf w period unique (some n)) = counts.map some ∧
    statsOf w period unique none = some counts.sum

theorem addsUp_iff_stats {w : World} {period : String} {unique : Bool} {networks : List IPNet} :
    AddsUp w period unique networks ↔
      (networks.map fun n => w.db.stats unique (statsWhereAt w.clock period) (some n)).sum =
        w.db.stats unique (statsWhereAt w.clock period) none := by
  unfold AddsUp
  simp only [statsOf_eq, Option.some.injEq]
  constructor
  · rintro ⟨counts, hcounts, hsum⟩
    rw [hsum]
    congr 1
    apply List.map_injective_iff.mpr (Option.some_injective Int)
    rw [← hcounts, List.map_map]
    rfl
  · intro hsum
    exact ⟨_, (List.map_map ..).symm, hsum.symm⟩

/-- The statistics add up exactly when every row of the period has an address. -/
theorem addsUp_iff_parse {w : World} {period : String} {unique : Bool} {networks : List IPNet}
    (h : DividesAddresses networks) : AddsUp w period unique networks ↔
      ∀ id a, w.db.Row id a → (statsWhereAt w.clock period).holds a = true →
        (parseIP a.requestIP).isSome = true := by
  rw [addsUp_iff_stats]
  have hsum : (networks.map fun n => w.db.stats unique (statsWhereAt w.clock period) (some n)).sum =
      ((w.db.requestIPs unique (statsWhereAt w.clock period)).countP
        fun ip => (parseIP ip).isSome : Nat) := by
    rw [← sum_inNetwork h, Nat.cast_list_sum, List.map_map]
    rfl
  rw [hsum]
  simp only [Db.stats]
  rw [Int.natCast_inj, List.countP_eq_length]
  constructor
  · exact fun hall id a ha hx => hall _ (mem_requestIPs.mpr ⟨id, a, ha, hx, rfl⟩)
  · intro hall ip hip
    obtain ⟨id, a, ha, hx, rfl⟩ := mem_requestIPs.mp hip
    exact hall id a ha hx

-- ============================================================================
-- Rows and addresses
-- ============================================================================

/-- A row that waits has no address, and every other row has one. -/
def FromClients (db : Db) : Prop :=
  ∀ id a, db.Row id a → (a.status = 2 ∧ a.requestIP = "") ∨
    (a.status ≠ 2 ∧ (parseIP a.requestIP).isSome = true)

theorem parse_of_startFrom {p : Proc} {ip : String} (h : StartFrom p ip) :
    (parseIP ip).isSome = true := by
  obtain ⟨r, protocol, -, h⟩ := h
  unfold restClientIP at h
  simp only at h
  split at h
  · cases h
  · rename_i x hx
    cases h
    rw [hx]
    rfl

theorem FromClients.threadStep {s s' : Sys} {t : Nat} {p : Proc} {l : Log} {e : Event}
    (hstarted : Started s) (h : FromClients s.world.db) (hm : ThreadStep s t p l e s') :
    FromClients s'.world.db := by
  intro id a ha
  cases row_after hm.did ha with
  | kept ha => exact h id a ha
  | inserted heq _ =>
    subst heq
    have hmay : MayInsert p l a := hm.allowed
    rcases hmay.kind with ⟨hstatus, hp, -⟩ | ⟨hstatus, hip, -⟩
    · exact .inr ⟨by rw [hstatus]; decide, parse_of_startFrom hp⟩
    · exact .inl ⟨hstatus, hip⟩
  | expired b heq hb hab =>
    -- the session has begun, so the row did not wait
    subst heq hab
    have hle := (begun_of_expires hstarted hm.runs.ran hm.allowed).status b hb
    rcases h id b hb with ⟨hstatus, -⟩ | ⟨-, hip⟩
    · rw [hstatus] at hle
      exact absurd hle (by decide)
    · exact .inr ⟨(by decide : 1 ≠ 2), hip⟩
  | claimed b expiry date ip terms heq _ hab =>
    subst heq hab
    have hmay : MayClaim p l expiry ip id := hm.allowed
    exact .inr ⟨(by decide : 0 ≠ 2), parse_of_startFrom hmay.request⟩

theorem fromClients_run {C : Sys → Label → Prop} {s₀ s : Sys} (h0 : Initial s₀)
    (hrows : FromClients s₀.world.db) (hrun : server.Run C s₀ s) : FromClients s.world.db := by
  refine (invariant_run (I := fun s => Started s ∧ FromClients s.world.db) h0.sound
    ⟨h0.started, hrows⟩ ?_ ?_ hrun).2.2
  · exact fun _ _ _ _ _ _ hs hI _ hm => ⟨hI.1.threadStep hs hm, hI.2.threadStep hI.1 hm⟩
  · intro s e s' hs hI _ hm
    refine ⟨hI.1.envStep hm, ?_⟩
    rw [hm.db]
    exact hI.2

/-- In every state of every run, and for networks that divide up all addresses, the statistics of
    the networks add up to the statistics over all exactly when no row that the period selects
    waits to be claimed. -/
theorem statistics_add_up_iff {s₀ s : Sys} (h0 : Initial s₀) (hrows : FromClients s₀.world.db)
    (hrun : server.Run Machine.anyStep s₀ s) {networks : List IPNet}
    (hnetworks : DividesAddresses networks) (period : String) (unique : Bool) :
    AddsUp s.world period unique networks ↔
      ∀ id a, s.world.db.Row id a → (statsWhereAt s.world.clock period).holds a = true →
        a.status ≠ 2 := by
  have hall := fromClients_run h0 hrows hrun
  rw [addsUp_iff_parse hnetworks]
  refine forall_congr' fun id => forall_congr' fun a => imp_congr_right fun ha =>
    imp_congr_right fun _ => ?_
  rcases hall id a ha with ⟨hstatus, hip⟩ | ⟨hstatus, hip⟩
  · rw [hip]
    exact iff_of_false (by decide) (not_not.mpr hstatus)
  · exact iff_of_true hip hstatus

/-- All IPv4 addresses, and all IPv6 addresses. -/
def bothFamilies : List IPNet := [⟨0xffff00000000, 96⟩, ⟨0, 0⟩]

example : (parseCIDR "0.0.0.0/0").toOption.toList ++ (parseCIDR "::/0").toOption.toList =
    bothFamilies := by decide

theorem bothFamilies_divide : DividesAddresses bothFamilies where
  disjoint := by
    have hone : ∀ ip : IP, ¬ (IPNet.contains ⟨0xffff00000000, 96⟩ ip = true ∧
        IPNet.contains ⟨0, 0⟩ ip = true) := by
      rintro ip ⟨h₁, h₂⟩
      have h₁ := (Bool.and_eq_true_iff.mp h₁).1
      have h₂ := (Bool.and_eq_true_iff.mp h₂).1
      cases h : isIPv4 ip <;> rw [h] at h₁ h₂ <;> contradiction
    simpa [bothFamilies] using hone
  cover := by
    intro ip
    cases h : isIPv4 ip with
    | true =>
      refine ⟨⟨0xffff00000000, 96⟩, by simp [bothFamilies], ?_⟩
      have hshift : ip >>> 32 = 0xffff := beq_iff_eq.mp h
      simp [IPNet.contains, h, hshift]
      decide
    | false =>
      refine ⟨⟨0, 0⟩, by simp [bothFamilies], ?_⟩
      have hfamily : isIPv4 ip = isIPv4 0 := h
      have hshift : ∀ x : IP, x >>> 128 = 0 := fun x => BitVec.ushiftRight_eq_zero (le_refl 128)
      simp [IPNet.contains, hfamily, hshift]

theorem emptyServer_fromClients (allocated : Int) : FromClients (emptyServer allocated).world.db :=
  fun _ _ h => absurd h List.not_mem_nil

/-- A client starts a session on an empty server. -/
theorem statistics_add_up_small : ∃ s : Sys, AddsUp s.world "total" true bothFamilies ∧
    s.world.db.sessions.rows.map (fun r => (r.2.status, r.2.requestIP)) = [(0, "192.0.2.1")] := by
  obtain ⟨s, hrun, hs⟩ := server.run_of_check Machine.noTest (fun _ _ _ => trivial) (emptyServer 0)
    (oks 0 14 ++ act (.request (startRequest "192.0.2.1")) ++ oks 2 57)
    (fun s => s.world.db.sessions.rows.map (fun r => (r.2.status, r.2.requestIP)) ==
      [(0, "192.0.2.1")]) (by decide +kernel)
  have hrows := beq_iff_eq.mp hs
  have hsmall := statistics_add_up_iff (emptyServer_initial 0) (emptyServer_fromClients 0) hrun
    bothFamilies_divide "total" true
  refine ⟨s, hsmall.mpr fun id a ha _ => ?_, hrows⟩
  have hmem := List.mem_map_of_mem (f := fun r : Nat × Session => (r.2.status, r.2.requestIP)) ha
  rw [hrows, List.mem_singleton] at hmem
  rw [(Prod.mk.inj hmem).1]
  decide

/-- A waiting row counts, but is of no network. -/
theorem waiting_row_miscounted : ¬ ∀ s₀ s networks, Initial s₀ → FromClients s₀.world.db →
    server.Run Machine.anyStep s₀ s → DividesAddresses networks →
    ∀ period ∈ periods, ∀ unique, AddsUp s.world period unique networks := by
  intro hall
  obtain ⟨s, hrun, hs⟩ := server.run_of_check Machine.noTest (fun _ _ _ => trivial) (emptyServer 1)
    (oks 0 47) (fun s => s.world.db.sessions.rows.any fun r => r.2.status == 2) (by decide +kernel)
  obtain ⟨⟨id, a⟩, ha, hstatus⟩ := List.any_eq_true.mp hs
  have hadds := hall _ s _ (emptyServer_initial 1) (emptyServer_fromClients 1) hrun bothFamilies_divide
    "total" (by decide) false
  have hfrom := fromClients_run (emptyServer_initial 1) (emptyServer_fromClients 1) hrun
  have hparse := (addsUp_iff_parse bothFamilies_divide).mp hadds id a ha rfl
  rcases hfrom id a ha with ⟨-, hip⟩ | ⟨hne, -⟩
  · rw [hip] at hparse
    cases hparse
  · exact hne (beq_iff_eq.mp hstatus)

end IncusDemo
