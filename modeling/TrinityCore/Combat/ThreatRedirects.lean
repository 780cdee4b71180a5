import Mathlib.Algebra.Order.Field.Power
import Mathlib.Tactic.FieldSimp
import Mathlib.Tactic.Linarith
import Mathlib.Algebra.Order.BigOperators.Group.List
import Mathlib.Algebra.Order.Field.Basic
import Mathlib.Tactic.Ring
import TrinityCore.Combat.ThreatRuns
import TrinityCore.Lib.TreeMapLists

/-!
# Threat redirection

The redirect registry of a `ThreatManager`, the list derived from it, and the shares that
`AddThreat` gives away by that list.
-/

namespace TrinityCore.Combat

open List TreeMapLists UInt32

/-! ### The registry -/

/-- The registry and the list of a `ThreatManager`: redirections by spell and victim, and the
current targets with their percentages. -/
structure Redirects where
  redirectRegistry : Std.ExtTreeMap UInt32 (Std.ExtTreeMap ObjectGuid UInt32) := ∅
  redirectInfo : List (ObjectGuid × UInt32) := []

/-- The order in which the hash maps of the registry yield their keys. -/
structure RedirectOrder where
  spells : List UInt32 → List UInt32 := fun keys => keys
  victims : UInt32 → List ObjectGuid → List ObjectGuid := fun _ keys => keys
  /-- Iterating yields every key once. -/
  spells_perm : ∀ keys, (spells keys).Perm keys := by
    exact fun keys => List.Perm.refl keys
  victims_perm : ∀ spell keys, (victims spell keys).Perm keys := by
    exact fun _ keys => List.Perm.refl keys

instance : Inhabited RedirectOrder := ⟨{}⟩

/-- What must not happen while the list is rebuilt. -/
inductive RedirectFault where
  /-- `100 - totalPct` wraps. -/
  | underflow
  /-- `ASSERT(totalPct <= 100)` fails. -/
  | assertion
  deriving DecidableEq, Repr

namespace RedirectOrder

variable (order : RedirectOrder)

/-- The registered victims of one spell with their percentages, as iterated. -/
def registrationsOf (spell : UInt32) (victims : Std.ExtTreeMap ObjectGuid UInt32) :
    List (ObjectGuid × UInt32) :=
  (order.victims spell victims.keys).filterMap fun victim =>
    victims[victim]?.map fun pct => (victim, pct)

/-- All registered victims with their percentages, as iterated. -/
def registrations
    (registry : Std.ExtTreeMap UInt32 (Std.ExtTreeMap ObjectGuid UInt32)) :
    List (ObjectGuid × UInt32) :=
  (order.spells registry.keys).flatMap fun spell =>
    match registry[spell]? with
    | none => []
    | some victims => order.registrationsOf spell victims

/-- Every order yields the same registrations. -/
theorem registrations_perm (order' : RedirectOrder)
    (registry : Std.ExtTreeMap UInt32 (Std.ExtTreeMap ObjectGuid UInt32)) :
    (order.registrations registry).Perm (order'.registrations registry) := by
  have hspells := (order.spells_perm registry.keys).trans (order'.spells_perm registry.keys).symm
  apply (hspells.flatMap_right _).trans
  apply List.Perm.flatMap_left
  intro spell _
  cases registry[spell]? with
  | none => rfl
  | some victims =>
    exact ((order.victims_perm spell victims.keys).trans
      (order'.victims_perm spell victims.keys).symm).filterMap _

end RedirectOrder

variable {redirects : Redirects}

namespace Redirects

/-- The loops of `UpdateRedirectInfo` over what is left of the registrations. -/
def fill : List (ObjectGuid × UInt32) → UInt32 → List (ObjectGuid × UInt32) →
    Except RedirectFault (List (ObjectGuid × UInt32))
  | [], _, info => .ok info
  | (victim, pct) :: rest, totalPct, info =>
    if 100 < totalPct then .error .underflow
    else
      let thisPct := min (100 - totalPct) pct
      if thisPct > 0 then
        let info := info ++ [(victim, thisPct)]
        let totalPct := totalPct + thisPct
        if ¬ totalPct ≤ 100 then .error .assertion
        else if totalPct = 100 then .ok info
        else fill rest totalPct info
      else fill rest totalPct info

/-- `UpdateRedirectInfo`. -/
def updateRedirectInfo (order : RedirectOrder) (redirects : Redirects) :
    Except RedirectFault Redirects := do
  let info ← fill (order.registrations redirects.redirectRegistry) 0 []
  return { redirects with redirectInfo := info }

/-- `RegisterRedirectThreat`. -/
def registerRedirectThreat (order : RedirectOrder) (redirects : Redirects) (spellId : UInt32)
    (victim : ObjectGuid) (pct : UInt32) : Except RedirectFault Redirects :=
  let victimMap := redirects.redirectRegistry.getD spellId ∅
  updateRedirectInfo order
    { redirects with
      redirectRegistry := redirects.redirectRegistry.insert spellId (victimMap.insert victim pct) }

/-- `UnregisterRedirectThreat` for all victims. -/
def unregisterRedirectThreat (order : RedirectOrder) (redirects : Redirects)
    (spellId : UInt32) : Except RedirectFault Redirects :=
  if redirects.redirectRegistry.contains spellId then
    updateRedirectInfo order
      { redirects with redirectRegistry := redirects.redirectRegistry.erase spellId }
  else .ok redirects

/-- `UnregisterRedirectThreat` for a specific victim. -/
def unregisterRedirectThreatOf (order : RedirectOrder) (redirects : Redirects)
    (spellId : UInt32) (victim : ObjectGuid) : Except RedirectFault Redirects :=
  match redirects.redirectRegistry[spellId]? with
  | none => .ok redirects
  | some victimMap =>
    if victimMap.contains victim then
      updateRedirectInfo order
        { redirects with
          redirectRegistry := redirects.redirectRegistry.insert spellId (victimMap.erase victim) }
    else .ok redirects

/-- The calls that edit the registry. -/
inductive Call where
  | register (spellId : UInt32) (victim : ObjectGuid) (pct : UInt32)
  | unregister (spellId : UInt32)
  | unregisterOf (spellId : UInt32) (victim : ObjectGuid)
  deriving DecidableEq, Repr

/-- What is registered for a spell and a victim. -/
def registered (redirects : Redirects) (spellId : UInt32) (victim : ObjectGuid) : Option UInt32 :=
  redirects.redirectRegistry[spellId]?.bind fun victimMap => victimMap[victim]?

/-- The last percentage that calls register and do not unregister, where each pair begins with
what is registered already. -/
def lastRegistered (registered : UInt32 → ObjectGuid → Option UInt32) :
    List Call → UInt32 → ObjectGuid → Option UInt32
  | [] => registered
  | call :: calls => lastRegistered (fun spellId victim =>
      match call with
      | .register spellId' victim' pct =>
        if spellId = spellId' ∧ victim = victim' then some pct else registered spellId victim
      | .unregister spellId' => if spellId = spellId' then none else registered spellId victim
      | .unregisterOf spellId' victim' =>
        if spellId = spellId' ∧ victim = victim' then none else registered spellId victim) calls

/-- What one call does when the maps iterate in the given order. -/
def step (redirects : Redirects) : RedirectOrder × Call → Except RedirectFault Redirects
  | (order, .register spellId victim pct) =>
    redirects.registerRedirectThreat order spellId victim pct
  | (order, .unregister spellId) => redirects.unregisterRedirectThreat order spellId
  | (order, .unregisterOf spellId victim) =>
    redirects.unregisterRedirectThreatOf order spellId victim

/-- A sequence of calls on a new manager. -/
def run (calls : List (RedirectOrder × Call)) : Except RedirectFault Redirects :=
  calls.foldlM step {}

/-! ### The derived list -/

/-- The sum of the percentages of a list. -/
def total (list : List (ObjectGuid × UInt32)) : Nat := (list.map fun pair => pair.2.toNat).sum

@[simp] theorem total_nil : total [] = 0 := rfl

@[simp] theorem total_cons (pair : ObjectGuid × UInt32) (rest : List (ObjectGuid × UInt32)) :
    total (pair :: rest) = pair.2.toNat + total rest := rfl

theorem total_perm {list list' : List (ObjectGuid × UInt32)} (h : list.Perm list') :
    total list = total list' := (h.map _).sum_eq

/-- The entry belongs to the registration and gives it no more than was registered. -/
def Within (entry registration : ObjectGuid × UInt32) : Prop :=
  entry.1 = registration.1 ∧ entry.2 ≤ registration.2

/-- What a list derived from registrations promises. -/
structure Derived (info registrations : List (ObjectGuid × UInt32)) : Prop where
  pct_pos : ∀ entry ∈ info, 0 < entry.2
  total_le : total info ≤ 100
  within : List.SublistForall₂ Within info registrations
  in_full : total registrations ≤ 100 → info = registrations.filter fun pair => 0 < pair.2

/-- No registration is left once nothing is registered. -/
theorem filter_of_total_eq_zero {registrations : List (ObjectGuid × UInt32)}
    (h : total registrations = 0) : (registrations.filter fun pair => 0 < pair.2) = [] := by
  rw [filter_eq_nil_iff]
  intro pair hpair
  have hle : pair.2.toNat ≤ total registrations :=
    single_le_sum (fun _ _ => Nat.zero_le _) _ (mem_map_of_mem hpair)
  simp only [decide_eq_true_eq, UInt32.lt_iff_toNat_lt, UInt32.toNat_zero]
  omega

/-- The next percentage, without wrapping. -/
theorem toNat_thisPct {totalPct : UInt32} (hle : totalPct.toNat ≤ 100) (pct : UInt32) :
    (min (100 - totalPct) pct).toNat = min (100 - totalPct.toNat) pct.toNat := by
  have hsub : (100 - totalPct).toNat = 100 - totalPct.toNat :=
    UInt32.toNat_sub_of_le _ _ (UInt32.le_iff_toNat_le.mpr hle)
  have hmin : min (100 - totalPct) pct = if 100 - totalPct ≤ pct then 100 - totalPct else pct := rfl
  rw [hmin]
  split
  · next h =>
    rw [le_iff_toNat_le, hsub] at h
    omega
  · next h =>
    rw [le_iff_toNat_le, hsub] at h
    omega

/-- From a total of at most 100 the loops append entries for the rest of the registrations,
without a fault and within what is left of the total. -/
theorem fill_spec (registrations : List (ObjectGuid × UInt32)) {totalPct : UInt32}
    (hle : totalPct.toNat ≤ 100) (info : List (ObjectGuid × UInt32)) :
    ∃ added, fill registrations totalPct info = .ok (info ++ added) ∧
      (∀ entry ∈ added, 0 < entry.2) ∧ totalPct.toNat + total added ≤ 100 ∧
      List.SublistForall₂ Within added registrations ∧
      (totalPct.toNat + total registrations ≤ 100 →
        added = registrations.filter fun pair => 0 < pair.2) := by
  induction registrations generalizing totalPct info with
  | nil =>
    refine ⟨[], ?_, ?_, hle, .nil, fun _ => rfl⟩
    · rw [fill, append_nil]
    · simp
  | cons registration rest ih =>
    obtain ⟨victim, pct⟩ := registration
    have hunder : ¬ 100 < totalPct := by
      rw [lt_iff_toNat_lt]
      exact Nat.not_lt.mpr hle
    have hthis := toNat_thisPct hle pct
    have hpct := pct.toNat_lt
    rw [fill, if_neg hunder]
    simp only [total_cons]
    generalize min (100 - totalPct) pct = thisPct at hthis ⊢
    by_cases hpos : 0 < thisPct
    · have hsum : (totalPct + thisPct).toNat = totalPct.toNat + thisPct.toNat := by
        rw [UInt32.toNat_add]
        omega
      have hsum_le : totalPct + thisPct ≤ 100 := by
        rw [le_iff_toNat_le, hsum]
        have hhundred : (100 : UInt32).toNat = 100 := rfl
        omega
      have hwithin : Within (victim, thisPct) (victim, pct) := by
        refine ⟨rfl, ?_⟩
        simp only [le_iff_toNat_le]
        omega
      have hpos' := hpos
      rw [UInt32.lt_iff_toNat_lt, UInt32.toNat_zero] at hpos
      -- the registration is honoured in full when the total leaves room for it
      have hfull : totalPct.toNat + pct.toNat ≤ 100 → thisPct = pct := by
        intro hroom
        apply UInt32.toNat_inj.mp
        omega
      rw [if_pos hpos', if_neg (not_not_intro hsum_le)]
      by_cases hdone : totalPct + thisPct = 100
      · rw [if_pos hdone]
        have hhundred : totalPct.toNat + thisPct.toNat = 100 := by
          rw [← hsum, hdone]
          rfl
        refine ⟨[(victim, thisPct)], rfl, ?_, ?_, .cons hwithin .nil, ?_⟩
        · simpa using hpos'
        · simp only [total_cons, total_nil]
          omega
        · intro hroom
          have hpct_eq := hfull (by omega)
          subst hpct_eq
          simp only [filter_cons, decide_eq_true hpos', if_true]
          rw [filter_of_total_eq_zero (by omega)]
      · rw [if_neg hdone]
        obtain ⟨added, hfill, hadded, htotal, hsub, hin⟩ := ih
          (by rw [le_iff_toNat_le] at hsum_le; exact hsum_le) (info ++ [(victim, thisPct)])
        refine ⟨(victim, thisPct) :: added, ?_, ?_, ?_, .cons hwithin hsub, ?_⟩
        · rw [hfill, append_assoc, singleton_append]
        · exact forall_mem_cons.mpr ⟨hpos', hadded⟩
        · simp only [total_cons]
          omega
        · intro hroom
          have hpct_eq := hfull (by omega)
          subst hpct_eq
          simp only [filter_cons, decide_eq_true hpos', if_true]
          rw [hin (by omega)]
    · rw [if_neg hpos]
      obtain ⟨added, hfill, hadded, htotal, hsub, hin⟩ := ih hle info
      refine ⟨added, hfill, hadded, htotal, .cons_right hsub, ?_⟩
      intro hroom
      rw [UInt32.lt_iff_toNat_lt, UInt32.toNat_zero] at hpos
      have hzero : ¬ 0 < pct := by
        rw [UInt32.lt_iff_toNat_lt, UInt32.toNat_zero]
        omega
      simp only [filter_cons, decide_eq_false hzero, Bool.false_eq_true, if_false]
      exact hin (by omega)

/-- The list is derived from the registry in some order. -/
def UpToDate (redirects : Redirects) : Prop :=
  ∃ order : RedirectOrder, Derived redirects.redirectInfo
    (order.registrations redirects.redirectRegistry)

/-- Rebuilding the list raises no fault, keeps the registry and brings the list up to date. -/
theorem updateRedirectInfo_spec (order : RedirectOrder) (redirects : Redirects) :
    ∃ redirects', redirects.updateRedirectInfo order = .ok redirects' ∧
      redirects'.redirectRegistry = redirects.redirectRegistry ∧ redirects'.UpToDate := by
  have hzero : (0 : UInt32).toNat ≤ 100 := Nat.zero_le 100
  obtain ⟨added, hfill, hadded, htotal, hsub, hin⟩ :=
    fill_spec (order.registrations redirects.redirectRegistry) hzero []
  rw [nil_append] at hfill
  refine ⟨{ redirects with redirectInfo := added }, ?_, rfl, order, hadded, ?_, hsub, ?_⟩
  · rw [updateRedirectInfo, hfill]
    rfl
  · simpa using htotal
  · simpa using hin

/-- A call raises no fault, registers what it says and leaves the list up to date. -/
theorem step_spec (h : redirects.UpToDate) (order : RedirectOrder) (call : Call) :
    ∃ redirects', redirects.step (order, call) = .ok redirects' ∧
      redirects'.registered = lastRegistered redirects.registered [call] ∧
      redirects'.UpToDate := by
  have hupdate (registry : Std.ExtTreeMap UInt32 (Std.ExtTreeMap ObjectGuid UInt32))
      (hregistry : registered { redirects with redirectRegistry := registry } =
        lastRegistered redirects.registered [call]) :
      ∃ redirects', updateRedirectInfo order { redirects with redirectRegistry := registry } =
          .ok redirects' ∧
        redirects'.registered = lastRegistered redirects.registered [call] ∧
        redirects'.UpToDate := by
    obtain ⟨redirects', hupdated, hsame, hup⟩ :=
      updateRedirectInfo_spec order { redirects with redirectRegistry := registry }
    refine ⟨redirects', hupdated, ?_, hup⟩
    rw [← hregistry]
    unfold registered
    rw [hsame]
  cases call with
  | register spellId victim pct =>
    apply hupdate
    funext spellId' victim'
    simp only [registered, lastRegistered, getElem?_insert_eq, Std.ExtTreeMap.getD_eq_getD_getElem?]
    by_cases hspell : spellId' = spellId
    · subst hspell
      cases redirects.redirectRegistry[spellId']? <;> simp [getElem?_insert_eq]
    · simp [hspell]
  | unregister spellId =>
    simp only [step, unregisterRedirectThreat]
    split
    · apply hupdate
      funext spellId' victim'
      simp only [registered, lastRegistered, getElem?_erase_eq]
      split <;> rfl
    · next hnone =>
      refine ⟨redirects, rfl, ?_, h⟩
      funext spellId' victim'
      simp only [lastRegistered]
      split
      · next heq => simp [heq, registered, Std.ExtTreeMap.getElem?_eq_none hnone]
      · rfl
  | unregisterOf spellId victim =>
    simp only [step, unregisterRedirectThreatOf]
    split
    · next hnone =>
      refine ⟨redirects, rfl, ?_, h⟩
      funext spellId' victim'
      simp only [lastRegistered]
      split
      · next heq => simp [heq.1, registered, hnone]
      · rfl
    next victimMap hspell =>
    split
    · apply hupdate
      funext spellId' victim'
      simp only [registered, lastRegistered, getElem?_insert_eq]
      by_cases heq : spellId' = spellId
      · simp [heq, hspell, getElem?_erase_eq]
      · simp [heq]
    · next hnone =>
      refine ⟨redirects, rfl, ?_, h⟩
      funext spellId' victim'
      simp only [lastRegistered]
      split
      · next heq => simp [heq, registered, hspell, Std.ExtTreeMap.getElem?_eq_none hnone]
      · rfl

/-- No sequence of calls raises a fault; what is registered is what the calls say, and the list
is up to date. -/
theorem run_spec (calls : List (RedirectOrder × Call)) (h : redirects.UpToDate) :
    ∃ redirects', calls.foldlM step redirects = .ok redirects' ∧
      redirects'.registered = lastRegistered redirects.registered (calls.map Prod.snd) ∧
      redirects'.UpToDate := by
  induction calls generalizing redirects with
  | nil => exact ⟨redirects, rfl, rfl, h⟩
  | cons call calls ih =>
    obtain ⟨next, hnext, hregistered, hup⟩ := step_spec h call.1 call.2
    obtain ⟨last, hlast, hregistered', hup'⟩ := ih hup
    refine ⟨last, ?_, ?_, hup'⟩
    · rw [foldlM_cons, hnext]
      exact hlast
    · rw [hregistered', hregistered]
      rfl

/-- All registered victims with their percentages, in one order. -/
def registrations (redirects : Redirects) : List (ObjectGuid × UInt32) :=
  RedirectOrder.registrations {} redirects.redirectRegistry

/-- What the list of a manager promises about its registry, whatever the order. -/
structure Sound (redirects : Redirects) : Prop where
  pct_range : ∀ entry ∈ redirects.redirectInfo, 1 ≤ entry.2.toNat ∧ entry.2.toNat ≤ 100
  total_le : total redirects.redirectInfo ≤ 100
  /-- Every entry goes back to a registration of its own. -/
  within : ∃ registrations, registrations.Perm redirects.registrations ∧
    List.SublistForall₂ Within redirects.redirectInfo registrations
  in_full : total redirects.registrations ≤ 100 →
    redirects.redirectInfo.Perm (redirects.registrations.filter fun pair => 0 < pair.2)

theorem UpToDate.sound (h : redirects.UpToDate) : redirects.Sound := by
  obtain ⟨order, hderived⟩ := h
  have hperm : (order.registrations redirects.redirectRegistry).Perm redirects.registrations :=
    order.registrations_perm {} redirects.redirectRegistry
  constructor
  · intro entry hentry
    have hpos := hderived.pct_pos entry hentry
    rw [UInt32.lt_iff_toNat_lt, UInt32.toNat_zero] at hpos
    have hle : entry.2.toNat ≤ total redirects.redirectInfo :=
      single_le_sum (fun _ _ => Nat.zero_le _) _ (mem_map_of_mem hentry)
    exact ⟨hpos, hle.trans hderived.total_le⟩
  · exact hderived.total_le
  · exact ⟨_, hperm, hderived.within⟩
  · intro htotal
    rw [← total_perm hperm] at htotal
    rw [hderived.in_full htotal]
    exact hperm.filter _

theorem upToDate_new : UpToDate {} := by
  refine ⟨{}, ?_, Nat.zero_le 100, ?_, fun _ => ?_⟩
  · nofun
  · exact .nil
  · rfl

end Redirects

/-! ### Shares -/

section

variable {R : Type} [Sub R]

/-- The amounts that `AddThreat` gives to the targets of its redirections. -/
def redirectedShares (calculatePct : R → UInt32 → R) (origAmount : R)
    (redirectInfo : List (ObjectGuid × UInt32)) : List (ObjectGuid × R) :=
  redirectInfo.map fun pair => (pair.1, calculatePct origAmount pair.2)

/-- What is left of an amount after the redirections. -/
def keptAmount (calculatePct : R → UInt32 → R) (origAmount : R)
    (redirectInfo : List (ObjectGuid × UInt32)) (amount : R) : R :=
  redirectInfo.foldl (fun amount pair => amount - calculatePct origAmount pair.2) amount

/-- How `AddThreat` divides an amount when it finds all targets: what goes to them, and what
is kept for its own target. Only an increase of threat is redirected. -/
def divideThreat [LT R] [DecidableLT R] [OfNat R 0] (calculatePct : R → UInt32 → R)
    (redirectInfo : List (ObjectGuid × UInt32)) (amount : R) : List (ObjectGuid × R) × R :=
  if amount > 0 then
    (redirectedShares calculatePct amount redirectInfo,
      keptAmount calculatePct amount redirectInfo amount)
  else ([], amount)

end

namespace World

variable {Heap : Type} (ops : HeapOps Heap) (env : Surroundings)

/-- The nested calls of `AddThreat` for the targets of its redirections. -/
def giveShares (owner : ObjectGuid) (spell : Option ThreatSpell)
    (shares : List (ObjectGuid × Float32)) (w : World Heap) : World Heap :=
  shares.foldl
    (fun w share => w.addThreatIgnoringRedirects ops env owner share.1 share.2 spell true) w

/-- A target that can be found is the unit of the redirection. -/
theorem redirTarget_eq {w : World Heap} (h : w.ledger.Consistent) {owner guid : ObjectGuid}
    (hfound : env.getUnit owner guid = true) : w.redirTarget env owner guid = some guid := by
  unfold redirTarget
  split
  · next id hid =>
    have hends := (h.threatLinked.threat owner guid id).mp hid
    obtain ⟨ref, href, hpair⟩ := Option.map_eq_some_iff.mp hends
    have href' : w.threatRef id = ref := by
      rw [threatRef, Std.ExtTreeMap.getD_eq_getD_getElem?, href, Option.getD_some]
    rw [href', (Prod.mk.inj hpair).2]
  · rw [if_pos hfound]

/-- The loop over redirections whose targets can all be found. -/
theorem redirectThreat_eq (owner : ObjectGuid) (origAmount : Float32) (spell : Option ThreatSpell)
    (redirects : List (ObjectGuid × UInt32))
    (hfound : ∀ pair ∈ redirects, env.getUnit owner pair.1 = true) {w : World Heap}
    (h : w.ledger.Consistent) (amount : Float32) :
    redirectThreat ops env owner origAmount spell redirects w amount =
      (w.giveShares ops env owner spell (redirectedShares calculatePct origAmount redirects),
        keptAmount calculatePct origAmount redirects amount) := by
  induction redirects generalizing w amount with
  | nil => rfl
  | cons pair rest ih =>
    obtain ⟨guid, pct⟩ := pair
    rw [forall_mem_cons] at hfound
    have hnext := consistent_addThreatIgnoringRedirects ops env h owner guid
      (calculatePct origAmount pct) spell true
    rw [redirectThreat, redirTarget_eq env h hfound.1]
    exact ih hfound.2 hnext _

/-- `AddThreat` hands out exactly what it takes away when all targets can be found. -/
theorem addThreat_eq {w : World Heap} (h : w.ledger.Consistent) {owner target : ObjectGuid}
    {spell : Option ThreatSpell} (hspell : causesNoThreat env owner spell = false)
    (hlist : (w.units owner).ownerCanHaveThreatList = true)
    (hfound : ∀ pair ∈ env.redirectInfo target, env.getUnit owner pair.1 = true)
    (amount : Float32) (ignoreModifiers : Bool) :
    w.addThreat ops env owner target amount spell ignoreModifiers false =
      let modified := if ignoreModifiers then amount else env.calculateModifiedThreat amount target
      let divided := divideThreat calculatePct (env.redirectInfo target) modified
      (w.giveShares ops env owner spell divided.1).applyThreat ops env owner target divided.2 := by
  simp only [addThreat, hspell, hlist, Bool.false_eq_true, if_false, Bool.not_true]
  generalize (if ignoreModifiers = true then amount else _) = modified
  unfold divideThreat
  split
  · rw [redirectThreat_eq ops env owner modified spell _ hfound h]
  · rfl

end World

/-! ### Conservation -/

/-- `CalculatePct` without rounding. -/
def exactPct (base : ℚ) (pct : UInt32) : ℚ := base * pct.toNat / 100

theorem sum_redirectedShares (origAmount : ℚ) (redirectInfo : List (ObjectGuid × UInt32)) :
    ((redirectedShares exactPct origAmount redirectInfo).map (·.2)).sum =
      exactPct origAmount 1 * Redirects.total redirectInfo := by
  induction redirectInfo with
  | nil => simp [redirectedShares]
  | cons pair rest ih =>
    have hcons : redirectedShares exactPct origAmount (pair :: rest) =
      (pair.1, exactPct origAmount pair.2) :: redirectedShares exactPct origAmount rest := rfl
    rw [hcons, map_cons, sum_cons, ih, Redirects.total_cons]
    simp only [exactPct, toNat_one]
    push_cast
    ring

theorem keptAmount_eq (origAmount : ℚ) (redirectInfo : List (ObjectGuid × UInt32)) (amount : ℚ) :
    keptAmount exactPct origAmount redirectInfo amount =
      amount - ((redirectedShares exactPct origAmount redirectInfo).map (·.2)).sum := by
  induction redirectInfo generalizing amount with
  | nil => simp [redirectedShares, keptAmount]
  | cons pair rest ih =>
    have hstep : keptAmount exactPct origAmount (pair :: rest) amount =
      keptAmount exactPct origAmount rest (amount - exactPct origAmount pair.2) := rfl
    have hcons : redirectedShares exactPct origAmount (pair :: rest) =
      (pair.1, exactPct origAmount pair.2) :: redirectedShares exactPct origAmount rest := rfl
    rw [hstep, ih, hcons, map_cons, sum_cons, sub_sub]

/-- The amount is divided without loss or gain, and nothing negative is handed out. -/
structure Conserves (divided : List (ObjectGuid × ℚ) × ℚ) (modified : ℚ) : Prop where
  sum_eq : (divided.1.map (·.2)).sum + divided.2 = modified
  share_nonneg : ∀ share ∈ divided.1, 0 ≤ share.2
  kept_nonneg : 0 ≤ divided.2 ↔ 0 ≤ modified

theorem conserves_divideThreat {redirectInfo : List (ObjectGuid × UInt32)}
    (htotal : Redirects.total redirectInfo ≤ 100) (modified : ℚ) :
    Conserves (divideThreat exactPct redirectInfo modified) modified := by
  unfold divideThreat
  split
  · next hpos =>
    have hkept := keptAmount_eq modified redirectInfo modified
    have hsum := sum_redirectedShares modified redirectInfo
    constructor
    · simp only [hkept]
      ring
    · intro share hshare
      obtain ⟨pair, -, rfl⟩ := mem_map.mp hshare
      simp only [exactPct]
      positivity
    · -- at most a hundred percent are gone
      have hle : exactPct modified 1 * Redirects.total redirectInfo ≤ modified := by
        have hcast : (Redirects.total redirectInfo : ℚ) ≤ 100 := by exact_mod_cast htotal
        simp only [exactPct, toNat_one]
        nlinarith
      simp only [hkept, hsum]
      exact ⟨fun _ => hpos.le, fun _ => sub_nonneg.mpr hle⟩
  · exact ⟨by simp, by simp, Iff.rfl⟩

/-- Redirection neither creates nor destroys threat: no sequence of calls raises a fault, what is
registered is what the calls say, the derived list is sound for it, and by that list every amount
is divided without loss. In every reachable world `AddThreat` gives to the targets that it finds,
and keeps for its own, what it so divides. -/
theorem redirection_conserves_threat (calls : List (RedirectOrder × Redirects.Call)) :
    ∃ redirects, Redirects.run calls = .ok redirects ∧
      redirects.registered = Redirects.lastRegistered (fun _ _ => none) (calls.map Prod.snd) ∧
      redirects.Sound ∧
      (∀ modified : ℚ, Conserves (divideThreat exactPct redirects.redirectInfo modified)
        modified) ∧
      ∀ (Heap : Type) (ops : HeapOps Heap) (canHaveThreatList : ObjectGuid → Bool)
        (events : List (Surroundings × ThreatCall)) (env : Surroundings)
        (owner target : ObjectGuid) (spell : Option World.ThreatSpell),
        env.redirectInfo target = redirects.redirectInfo →
        (∀ pair ∈ redirects.redirectInfo, env.getUnit owner pair.1 = true) →
        World.causesNoThreat env owner spell = false →
        ((threatRun ops canHaveThreatList events).units owner).ownerCanHaveThreatList = true →
        ∀ amount ignoreModifiers,
          (threatRun ops canHaveThreatList events).addThreat ops env owner target amount spell
              ignoreModifiers false =
            let modified :=
              if ignoreModifiers then amount else env.calculateModifiedThreat amount target
            let divided := divideThreat World.calculatePct redirects.redirectInfo modified
            ((threatRun ops canHaveThreatList events).giveShares ops env owner spell
              divided.1).applyThreat ops env owner target divided.2 := by
  obtain ⟨redirects, hrun, hregistered, hup⟩ := Redirects.run_spec calls Redirects.upToDate_new
  have hsound := hup.sound
  refine ⟨redirects, hrun, ?_, hsound, fun modified => ?_, ?_⟩
  · have hnew : Redirects.registered {} = fun _ _ => none := by
      funext spellId victim
      simp [Redirects.registered]
    rw [hregistered, hnew]
  · exact conserves_divideThreat hsound.total_le modified
  · intro Heap ops canHaveThreatList events env owner target spell hinfo hfound hspell hlist amount
      ignoreModifiers
    rw [← hinfo] at hfound ⊢
    exact World.addThreat_eq ops env (consistent_threatRun ops canHaveThreatList events) hspell
      hlist hfound amount ignoreModifiers

end TrinityCore.Combat
