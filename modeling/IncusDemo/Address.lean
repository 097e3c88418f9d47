/-
  IncusDemo.Address

  The address that one round of `instanceStart` picks from the state of an
  instance.  The loop over the interfaces stops at the first one that has an
  address to offer, and Go visits them in any order.  A container has one
  interface that counts; a virtual machine may have two, and then the address is
  a matter of chance unless both offer the same.
-/

import IncusDemo.Instance
import IncusDemo.Go.Map

namespace IncusDemo

open Go

-- ============================================================================
-- What may be picked
-- ============================================================================

/-- The address can be used under a setting of `Session.Network`. -/
structure Usable (network : String) (a : Address) : Prop where
  given : a.address ≠ ""
  scope : a.scope = "global"
  ipv6 : network = "ipv6" → a.family = "inet6"
  ipv4 : network = "ipv4" → a.family = "inet"

theorem usable_iff {network : String} {a : Address} :
    Usable network a ↔ admittedAddress network a = true := by
  unfold admittedAddress
  simp only [Bool.and_eq_true, bne_iff_ne, beq_iff_eq, Bool.not_eq_true', Bool.and_eq_false_iff,
    beq_eq_false_iff_ne, bne_eq_false_iff_eq]
  constructor
  · rintro ⟨hgiven, hscope, hipv6, hipv4⟩
    exact ⟨⟨⟨hgiven, hscope⟩, Decidable.or_iff_not_imp_left.mpr fun h => hipv6 (not_not.mp h)⟩,
      Decidable.or_iff_not_imp_left.mpr fun h => hipv4 (not_not.mp h)⟩
  · rintro ⟨⟨⟨hgiven, hscope⟩, hipv6⟩, hipv4⟩
    exact ⟨hgiven, hscope, fun h => hipv6.resolve_left (not_not.mpr h),
      fun h => hipv4.resolve_left (not_not.mpr h)⟩

/-- An interface that counts offers `ip`. -/
def Offers (instanceType network : String) (net : Network) (ip : String) : Prop :=
  ∃ e ∈ net, admittedInterface instanceType e.1 = true ∧
    ∃ a ∈ e.2, Usable network a ∧ a.address = ip

/-- The address that the loop takes from an interface, if it takes one. -/
def interfaceAddress (instanceType network : String) (e : String × List Address) : Option String :=
  if admittedInterface instanceType e.1 then
    (e.2.find? (admittedAddress network)).map Address.address
  else none

section Rounds

variable {instanceType network ip : String} {net : Network} {e : String × List Address}

theorem interfaceAddress_eq_some : interfaceAddress instanceType network e = some ip ↔
    admittedInterface instanceType e.1 = true ∧
      ∃ a, e.2.find? (admittedAddress network) = some a ∧ a.address = ip := by
  unfold interfaceAddress
  split
  · rename_i hadmitted
    rw [Option.map_eq_some_iff]
    exact (and_iff_right hadmitted).symm
  · rename_i hadmitted
    exact iff_of_false (by simp) fun h => hadmitted h.1

/-- The round takes the first address that the loop comes to. -/
theorem selectAddress_eq (net : Network) : selectAddress instanceType network net =
    (net.findSome? (interfaceAddress instanceType network)).getD "" := by
  induction net with
  | nil => rfl
  | cons e net ih =>
    obtain ⟨netName, addresses⟩ := e
    unfold selectAddress interfaceAddress
    rw [List.findSome?_cons]
    split
    · cases addresses.find? (admittedAddress network) with
      | none => exact ih
      | some a => rfl
    · exact ih

theorem given_of_interfaceAddress (h : interfaceAddress instanceType network e = some ip) :
    ip ≠ "" := by
  obtain ⟨-, a, ha, rfl⟩ := interfaceAddress_eq_some.mp h
  exact (usable_iff.mpr (List.find?_some ha)).given

theorem offers_of_interfaceAddress (he : e ∈ net)
    (h : interfaceAddress instanceType network e = some ip) :
    Offers instanceType network net ip := by
  obtain ⟨hadmitted, a, ha, rfl⟩ := interfaceAddress_eq_some.mp h
  exact ⟨e, he, hadmitted, a, List.mem_of_find?_eq_some ha, usable_iff.mpr (List.find?_some ha), rfl⟩

/-- The round takes an address that is offered, if there is one. -/
theorem selectAddress_offered (h : Offers instanceType network net ip) :
    Offers instanceType network net (selectAddress instanceType network net) ∧
      selectAddress instanceType network net ≠ "" := by
  rw [selectAddress_eq]
  cases hfirst : net.findSome? (interfaceAddress instanceType network) with
  | none =>
    obtain ⟨e, he, hadmitted, a, ha, husable, -⟩ := h
    have hnone := List.findSome?_eq_none_iff.mp hfirst e he
    unfold interfaceAddress at hnone
    rw [if_pos hadmitted, Option.map_eq_none_iff, List.find?_eq_none] at hnone
    exact absurd (usable_iff.mp husable) (hnone a ha)
  | some first =>
    obtain ⟨e, he, hip⟩ := List.exists_of_findSome?_eq_some hfirst
    exact ⟨offers_of_interfaceAddress he hip, given_of_interfaceAddress hip⟩

theorem selectAddress_eq_empty_iff :
    selectAddress instanceType network net = "" ↔ ¬ ∃ ip, Offers instanceType network net ip := by
  constructor
  · rintro hempty ⟨ip, h⟩
    exact (selectAddress_offered h).2 hempty
  · intro hno
    rw [selectAddress_eq]
    cases hfirst : net.findSome? (interfaceAddress instanceType network) with
    | none => rfl
    | some ip =>
      obtain ⟨e, he, hip⟩ := List.exists_of_findSome?_eq_some hfirst
      exact absurd ⟨ip, offers_of_interfaceAddress he hip⟩ hno

/-- What is offered does not depend on the order of the interfaces. -/
theorem offers_perm {order : Network} (h : order.Perm net) :
    Offers instanceType network order ip ↔ Offers instanceType network net ip := by
  unfold Offers
  simp only [h.mem_iff]

end Rounds

-- ============================================================================
-- The order of the interfaces
-- ============================================================================

/-- The address that a round picks from the state is well defined: the same for every order of
    the interfaces, one that is offered if any is, and else none. -/
structure WellDefined (instanceType network : String) (net : Network) : Prop where
  same : ∀ order : Network, order.Perm net →
    selectAddress instanceType network order = selectAddress instanceType network net
  offered : ∀ order : Network, order.Perm net → (∃ ip, Offers instanceType network net ip) →
    Offers instanceType network net (selectAddress instanceType network order)
  none : ∀ order : Network, order.Perm net → (selectAddress instanceType network order = "" ↔
    ¬ ∃ ip, Offers instanceType network net ip)

/-- The two interfaces that a virtual machine may have, when both have a usable address, have the
    same one first. -/
def OneAddress (instanceType network : String) (net : Network) : Prop :=
  instanceType = "container" ∨ ∀ as bs a b, ("enp5s0", as) ∈ net → ("_venp5s0", bs) ∈ net →
    as.find? (admittedAddress network) = some a → bs.find? (admittedAddress network) = some b →
    a.address = b.address

section Orders

variable {instanceType network : String} {net : Network}

theorem getD_injective {x y : Option String} (hx : x ≠ some "") (hy : y ≠ some "") :
    x.getD "" = y.getD "" ↔ x = y := by
  cases x <;> cases y <;> simp_all [eq_comm]

theorem firstAddress_given (order : Network) :
    order.findSome? (interfaceAddress instanceType network) ≠ some "" := by
  intro h
  obtain ⟨e, -, he⟩ := List.exists_of_findSome?_eq_some h
  exact given_of_interfaceAddress he rfl

/-- Only the order of the interfaces is left to chance. -/
theorem wellDefined_iff_same : WellDefined instanceType network net ↔
    ∀ order : Network, order.Perm net → order.findSome? (interfaceAddress instanceType network) =
      net.findSome? (interfaceAddress instanceType network) := by
  have hsame : ∀ order : Network,
      selectAddress instanceType network order = selectAddress instanceType network net ↔
        order.findSome? (interfaceAddress instanceType network) =
          net.findSome? (interfaceAddress instanceType network) := fun order => by
    rw [selectAddress_eq, selectAddress_eq]
    exact getD_injective (firstAddress_given order) (firstAddress_given net)
  constructor
  · exact fun h order hperm => (hsame order).mp (h.same order hperm)
  · intro h
    refine ⟨fun order hperm => (hsame order).mpr (h order hperm), ?_, ?_⟩
    · rintro order hperm ⟨ip, hip⟩
      exact (offers_perm hperm).mp (selectAddress_offered ((offers_perm hperm).mpr hip)).1
    · intro order hperm
      rw [selectAddress_eq_empty_iff]
      simp only [offers_perm hperm]

/-- Two interfaces of one name are one. -/
theorem addresses_unique (h : (net.map Prod.fst).Nodup) {e e' : String × List Address}
    (he : e ∈ net) (he' : e' ∈ net) (hname : e.1 = e'.1) : e = e' :=
  List.inj_on_of_nodup_map h he he' hname

theorem oneAddress_iff (h : (net.map Prod.fst).Nodup) : OneAddress instanceType network net ↔
    ∀ e ∈ net, ∀ e' ∈ net, ∀ x y, interfaceAddress instanceType network e = some x →
      interfaceAddress instanceType network e' = some y → x = y := by
  by_cases htype : instanceType = "container"
  · refine iff_of_true (.inl htype) ?_
    intro e he e' he' x y hx hy
    have heth0 := (interfaceAddress_eq_some.mp hx).1
    have heth0' := (interfaceAddress_eq_some.mp hy).1
    unfold admittedInterface at heth0 heth0'
    rw [if_pos htype, beq_iff_eq] at heth0 heth0'
    cases addresses_unique h he he' (heth0.trans heth0'.symm)
    exact Option.some.inj (hx.symm.trans hy)
  · have hadmitted : ∀ {netName}, admittedInterface instanceType netName = true ↔
        netName = "enp5s0" ∨ netName = "_venp5s0" := by
      intro netName
      unfold admittedInterface
      rw [if_neg htype]
      simp
    constructor
    · intro hone
      have hone := hone.resolve_left htype
      rintro ⟨name, as⟩ he ⟨name', bs⟩ he' x y hx hy
      obtain ⟨hname, a, ha, rfl⟩ := interfaceAddress_eq_some.mp hx
      obtain ⟨hname', b, hb, rfl⟩ := interfaceAddress_eq_some.mp hy
      rcases hadmitted.mp hname with rfl | rfl
      · rcases hadmitted.mp hname' with rfl | rfl
        · cases addresses_unique h he he' rfl
          exact congrArg Address.address (Option.some.inj (ha.symm.trans hb))
        · exact hone as bs a b he he' ha hb
      · rcases hadmitted.mp hname' with rfl | rfl
        · exact (hone bs as b a he' he hb ha).symm
        · cases addresses_unique h he he' rfl
          exact congrArg Address.address (Option.some.inj (ha.symm.trans hb))
    · intro hall
      refine .inr fun as bs a b he he' ha hb => ?_
      exact hall _ he _ he' _ _
        (interfaceAddress_eq_some.mpr ⟨hadmitted.mpr (.inl rfl), a, ha, rfl⟩)
        (interfaceAddress_eq_some.mpr ⟨hadmitted.mpr (.inr rfl), b, hb, rfl⟩)

/-- The address of an instance is well defined exactly when it is a container, or its two
    interfaces do not offer two addresses. -/
theorem address_well_defined_iff (h : (net.map Prod.fst).Nodup) :
    WellDefined instanceType network net ↔ OneAddress instanceType network net := by
  rw [wellDefined_iff_same, findSome?_perm_iff, oneAddress_iff h]

end Orders

/-- A virtual machine with both interfaces. -/
def twoInterfaces : Network :=
  [("lo", [⟨"inet", "127.0.0.1", "local"⟩]), ("enp5s0", [⟨"inet", "10.0.0.1", "global"⟩]),
    ("_venp5s0", [⟨"inet6", "fe80::1", "link"⟩, ⟨"inet", "10.0.0.2", "global"⟩])]

/-- The second interface has no address yet but that of its link. -/
def oneUsable : Network :=
  [("lo", [⟨"inet", "127.0.0.1", "local"⟩]), ("enp5s0", [⟨"inet", "10.0.0.1", "global"⟩]),
    ("_venp5s0", [⟨"inet6", "fe80::1", "link"⟩])]

/-- With one usable address there is nothing to choose between. -/
theorem address_well_defined_small : WellDefined "virtual-machine" "" oneUsable ∧
    selectAddress "virtual-machine" "" oneUsable = "10.0.0.1" := by
  refine ⟨(address_well_defined_iff (by decide)).mpr (.inr ?_), by decide⟩
  intro as bs a b has hbs ha hb
  simp only [oneUsable, List.mem_cons, List.not_mem_nil, Prod.mk.injEq, or_false] at hbs
  rcases hbs with hbs | hbs | hbs
  · exact absurd hbs.1 (by decide)
  · exact absurd hbs.1 (by decide)
  · rw [hbs.2] at hb
    simp [admittedAddress] at hb

/-- The order of the interfaces decides which of the two addresses is stored. -/
theorem address_depends_on_order : ¬ ∀ instanceType network net, (net.map Prod.fst).Nodup →
    WellDefined instanceType network net := by
  intro hall
  have hsame := (hall "virtual-machine" "" twoInterfaces (by decide)).same twoInterfaces.reverse
    (List.reverse_perm _)
  revert hsame
  decide

end IncusDemo
