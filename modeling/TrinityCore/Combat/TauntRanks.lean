import Mathlib.Tactic.Linarith
import TrinityCore.Combat.ThreatRuns

/-!
# The order of taunters

`TauntUpdate` counts taunt effects up and takes the count away from the number of their casters.
The states rank the casters by their last effects as long as no count gets ahead of the number of
casters for some of them only.
-/

namespace TrinityCore.Combat

open Option TreeMapLists

variable {Heap : Type}

variable {owner victim : ObjectGuid} {casters : List ObjectGuid}

namespace World

/-! ### What a taunt update writes -/

section

variable (ops : HeapOps Heap) (env : Surroundings)

/-- The state that `UpdateTauntState` settles on: a detaunt aura keeps a victim down. -/
def grantedState (owner victim : ObjectGuid) (state : UInt32) : UInt32 :=
  if state < tauntStateTaunt ∧ env.isDetaunting owner victim then tauntStateDetaunt else state

theorem threatRef_modifyThreatRef (w : World Heap) (id i : RefId)
    (f : ThreatReference → ThreatReference) {ref : ThreatReference}
    (hid : w.threatRefs[id]? = some ref) :
    (w.modifyThreatRef id f).threatRef i = if i = id then f ref else w.threatRef i := by
  simp only [threatRef, modifyThreatRef, Std.ExtTreeMap.getD_eq_getD_getElem?, getElem?_modify_eq]
  split
  · rw [hid]
    rfl
  · rfl

theorem threatRef_eq {w : World Heap} {id : RefId} {ref : ThreatReference}
    (hid : w.threatRefs[id]? = some ref) : w.threatRef id = ref := by
  rw [threatRef, Std.ExtTreeMap.getD_eq_getD_getElem?, hid, getD_some]

theorem taunted_updateTauntState (w : World Heap) {id : RefId}
    (hid : w.ledger.ends id = some (owner, victim)) (state : UInt32) (i : RefId) :
    ((w.updateTauntState ops env id state).threatRef i).taunted =
      if i = id then grantedState env owner victim state else (w.threatRef i).taunted := by
  obtain ⟨ref, href, hpair⟩ := map_eq_some_iff.mp hid
  obtain ⟨rfl, rfl⟩ := Prod.mk.inj hpair
  simp only [updateTauntState, threatRef_eq href, grantedState]
  generalize (if state < tauntStateTaunt ∧ env.isDetaunting _ _ then _ else _) = granted
  have hmodified : ((w.modifyThreatRef id fun ref => { ref with taunted := granted }).threatRef
      i).taunted = if i = id then granted else (w.threatRef i).taunted := by
    rw [threatRef_modifyThreatRef w id i _ href]
    split <;> rfl
  split
  · next heq =>
    split
    · next hi => rw [hi, threatRef_eq href, heq]
    · rfl
  split
  · exact hmodified
  · exact hmodified

theorem taunted_evaluateSuppressedRef (canExpire : Bool) (w : World Heap) (id i : RefId) :
    ((w.evaluateSuppressedRef ops env canExpire id).threatRef i).taunted =
      (w.threatRef i).taunted := by
  have honline (state : OnlineState) :
      ((w.modifyThreatRef id fun ref => { ref with online := state }).threatRef i).taunted =
        (w.threatRef i).taunted := by
    simp only [threatRef, modifyThreatRef, Std.ExtTreeMap.getD_eq_getD_getElem?, getElem?_modify_eq]
    split
    · next heq => cases hlookup : w.threatRefs[id]? <;> simp [heq, hlookup]
    · rfl
  simp only [evaluateSuppressedRef]
  split
  · exact honline _
  split
  · exact honline _
  · rfl

theorem taunted_evaluateSuppressed (w : World Heap) (who : ObjectGuid) (canExpire : Bool)
    (i : RefId) :
    ((w.evaluateSuppressed ops env who canExpire).threatRef i).taunted =
      (w.threatRef i).taunted := by
  unfold evaluateSuppressed
  generalize entriesOf env who .threatenedByMe (w.units who).threatenedByMe = entries
  induction entries generalizing w with
  | nil => rfl
  | cons entry rest ih => rw [List.foldl_cons, ih, taunted_evaluateSuppressedRef]

/-- The loop of `TauntUpdate` gives every reference on the list the state of its victim. -/
theorem taunted_foldl (state : ObjectGuid → UInt32) (owner : ObjectGuid)
    (entries : List (ObjectGuid × RefId)) (hkeys : entries.Pairwise fun a b => a.1 ≠ b.1)
    (w : World Heap) (hends : ∀ entry ∈ entries, w.ledger.ends entry.2 = some (owner, entry.1))
    (i : RefId) :
    ((entries.foldl (fun w entry => w.updateTauntState ops env entry.2 (state entry.1)) w).threatRef
      i).taunted =
        match entries.find? (·.2 == i) with
        | some entry => grantedState env owner entry.1 (state entry.1)
        | none => (w.threatRef i).taunted := by
  induction entries generalizing w with
  | nil => rfl
  | cons entry rest ih =>
    rw [List.pairwise_cons] at hkeys
    have hledger := ledger_updateTauntState ops env w entry.2 (state entry.1)
    have hhead := hends entry List.mem_cons_self
    rw [List.foldl_cons, ih hkeys.2 _ fun other hother => by
      rw [hledger]
      exact hends other (List.mem_cons_of_mem entry hother)]
    rw [taunted_updateTauntState ops env w hhead, List.find?_cons]
    by_cases hi : entry.2 = i
    · -- the other references have other victims, so none of them is this one
      have hrest : rest.find? (·.2 == i) = none := by
        rw [List.find?_eq_none]
        intro other hother heq
        have hothers := hends other (List.mem_cons_of_mem entry hother)
        rw [beq_iff_eq.mp heq, ← hi, hhead] at hothers
        exact hkeys.1 other hother (Prod.mk.inj (some.inj hothers)).2
      simp [hrest, hi]
    · have hbeq : (entry.2 == i) = false := beq_eq_false_iff_ne.mpr hi
      simp only [hbeq, if_neg (Ne.symm hi)]

/-- After `TauntUpdate` every reference on the list has the state of its victim. -/
theorem taunted_tauntUpdate {w : World Heap} (h : w.ledger.Consistent) {id : RefId}
    (hid : (w.units owner).myThreatListEntries[victim]? = some id) :
    ((w.tauntUpdate ops env owner).threatRef id).taunted =
      grantedState env owner victim (tauntStateOf (env.tauntEffects owner) victim) := by
  have hlinked := h.threatLinked.threat
  simp only [tauntUpdate, taunted_evaluateSuppressed]
  rw [taunted_foldl ops env _ owner _ (pairwise_entriesOf env owner _ _) w]
  · have hmem := (mem_entriesOf_iff env owner .myThreatListEntries
      (w.units owner).myThreatListEntries (victim, id)).mpr hid
    cases hfind : (entriesOf env owner .myThreatListEntries
        (w.units owner).myThreatListEntries).find? (·.2 == id) with
    | none => exact absurd (List.find?_eq_none.mp hfind (victim, id) hmem) (by simp)
    | some entry =>
      have hentry := mem_entriesOf (List.mem_of_find?_eq_some hfind)
      have hsame := List.find?_some hfind
      rw [beq_iff_eq] at hsame
      rw [hsame] at hentry
      have hends := ((hlinked owner entry.1 id).mp hentry).symm.trans
        ((hlinked owner victim id).mp hid)
      simp only [(Prod.mk.inj (some.inj hends)).2]
  · intro entry hentry
    exact (hlinked owner entry.1 entry.2).mp (mem_entriesOf hentry)

end

/-! ### The last effect of a caster -/

/-- The position of the caster's last effect on the list, from one; zero without any. -/
def lastEffect (casters : List ObjectGuid) (caster : ObjectGuid) : Nat :=
  casters.length - casters.reverse.idxOf caster

theorem lastEffect_concat (casters : List ObjectGuid) (last caster : ObjectGuid) :
    lastEffect (casters ++ [last]) caster =
      if last = caster then casters.length + 1 else lastEffect casters caster := by
  simp only [lastEffect, List.reverse_append, List.reverse_singleton, List.singleton_append,
    List.idxOf_cons, List.length_append, List.length_singleton]
  by_cases h : last = caster
  · simp [h]
  · simp only [beq_eq_false_iff_ne.mpr h, cond_false, if_neg h]
    omega

/-- The search of `TauntUpdate` finds the last effect. -/
theorem findRev?_zipIdx (casters : List ObjectGuid) (caster : ObjectGuid) :
    ((casters.zipIdx 1).findRev? fun effect => effect.1 = caster) =
      if caster ∈ casters then some (caster, lastEffect casters caster) else none := by
  induction casters using List.reverseRecOn with
  | nil => rfl
  | append_singleton casters last ih =>
    rw [List.findRev?_eq_find?_reverse] at ih ⊢
    rw [List.zipIdx_append, List.reverse_append, List.zipIdx_singleton, List.reverse_singleton,
      List.singleton_append, List.find?_cons, ih, lastEffect_concat]
    by_cases h : last = caster
    · simp [h, Nat.add_comm]
    · simp [h, Ne.symm h]

/-- How far the counter was ahead of the number of casters at the caster's last effect. -/
def ahead (casters : List ObjectGuid) (caster : ObjectGuid) : ℤ :=
  lastEffect casters caster - casters.dedup.length

/-- How often the state of the caster has run below zero. -/
def turns (casters : List ObjectGuid) (caster : ObjectGuid) : ℤ :=
  (ahead casters caster - 3) / 2 ^ 32

theorem tauntStateOf_of_mem (h : victim ∈ casters) :
    ((tauntStateOf casters victim).toNat : ℤ) = (2 - ahead casters victim) % 2 ^ 32 := by
  rw [tauntStateOf, findRev?_zipIdx, if_pos h]
  simp only [tauntStateTaunt, UInt32.toNat_sub, UInt32.toNat_add, UInt32.toNat_ofNat', ahead,
    UInt32.reduceToNat]
  omega

theorem tauntStateOf_of_notMem (h : victim ∉ casters) :
    tauntStateOf casters victim = tauntStateNone := by
  rw [tauntStateOf, findRev?_zipIdx, if_neg h]

/-! ### Ranks -/

/-- The list ranks the casters of the effects by their last effects, above everyone else. -/
structure RanksTaunters (w : World Heap) (owner : ObjectGuid) (casters : List ObjectGuid) :
    Prop where
  taunting : ∀ victim id, (w.units owner).myThreatListEntries[victim]? = some id →
    victim ∈ casters → tauntStateTaunt ≤ (w.threatRef id).taunted
  ranked : ∀ a b i j, (w.units owner).myThreatListEntries[a]? = some i →
    (w.units owner).myThreatListEntries[b]? = some j → a ∈ casters → b ∈ casters →
    lastEffect casters a < lastEffect casters b →
    (w.threatRef j).taunted < (w.threatRef i).taunted
  others : ∀ victim id, (w.units owner).myThreatListEntries[victim]? = some id →
    victim ∉ casters →
    (w.threatRef id).taunted = tauntStateNone ∨ (w.threatRef id).taunted = tauntStateDetaunt

/-- The counter stays in step with the number of casters: no last effect of a listed caster is
one or two ahead, up to wrapping, and later effects do not overtake earlier ones by wrapping. -/
structure InStep (listed : ObjectGuid → Prop) (casters : List ObjectGuid) : Prop where
  apart : ∀ v, listed v → v ∈ casters → ahead casters v % 2 ^ 32 ≠ 1 ∧ ahead casters v % 2 ^ 32 ≠ 2
  together : ∀ a b, listed a → listed b → a ∈ casters → b ∈ casters →
    lastEffect casters a < lastEffect casters b →
    2 ^ 32 * (turns casters b - turns casters a) <
      (lastEffect casters b : ℤ) - lastEffect casters a

section

variable (ops : HeapOps Heap) (env : Surroundings)

theorem taunting_grantedState (owner victim : ObjectGuid) (state : UInt32) :
    tauntStateTaunt ≤ grantedState env owner victim state ↔ tauntStateTaunt ≤ state := by
  unfold grantedState
  split
  · next h =>
    have hnot : ¬ tauntStateTaunt ≤ state := UInt32.not_le.mpr h.1
    exact ⟨fun hle => absurd hle (by decide), fun hle => absurd hle hnot⟩
  · rfl

theorem grantedState_of_taunting (owner victim : ObjectGuid) {state : UInt32}
    (h : tauntStateTaunt ≤ state) : grantedState env owner victim state = state :=
  if_neg fun hdown => UInt32.not_le.mpr hdown.1 h

theorem taunting_tauntStateOf (h : victim ∈ casters) :
    tauntStateTaunt ≤ tauntStateOf casters victim ↔
      ahead casters victim % 2 ^ 32 ≠ 1 ∧ ahead casters victim % 2 ^ 32 ≠ 2 := by
  have hstate := tauntStateOf_of_mem h
  have hlt := (tauntStateOf casters victim).toNat_lt
  rw [UInt32.le_iff_toNat_le, show tauntStateTaunt.toNat = 2 from rfl]
  omega

/-- Of two casters the earlier ranks higher when the later one has not overtaken it. -/
theorem tauntStateOf_lt {a b : ObjectGuid} (ha : a ∈ casters) (hb : b ∈ casters) :
    tauntStateOf casters b < tauntStateOf casters a ↔
      2 ^ 32 * (turns casters b - turns casters a) <
        (lastEffect casters b : ℤ) - lastEffect casters a := by
  have hstatea := tauntStateOf_of_mem ha
  have hstateb := tauntStateOf_of_mem hb
  rw [UInt32.lt_iff_toNat_lt]
  simp only [turns, ahead] at *
  omega

/-- `TauntUpdate` ranks the taunters if and only if the counter stays in step. -/
theorem ranksTaunters_iff {w : World Heap} (h : w.ledger.Consistent) (owner : ObjectGuid) :
    RanksTaunters (w.tauntUpdate ops env owner) owner (env.tauntEffects owner) ↔
      InStep (fun victim => victim ∈ (w.units owner).myThreatListEntries)
        (env.tauntEffects owner) := by
  have hentries (victim : ObjectGuid) (id : RefId) :
      ((w.tauntUpdate ops env owner).units owner).myThreatListEntries[victim]? = some id ↔
        (w.units owner).myThreatListEntries[victim]? = some id :=
    iff_of_eq (congrArg (fun l : Ledger => l.threat owner victim = some id)
      (ledger_tauntUpdate ops env w owner))
  have hlisted := mem_myThreatListEntries w owner
  have hstate {victim : ObjectGuid} {id : RefId}
      (hid : (w.units owner).myThreatListEntries[victim]? = some id) :=
    taunted_tauntUpdate ops env h hid
  constructor
  · intro hranks
    have htaunting : ∀ v id, (w.units owner).myThreatListEntries[v]? = some id →
        v ∈ env.tauntEffects owner →
        tauntStateTaunt ≤ tauntStateOf (env.tauntEffects owner) v := by
      intro v id hid hv
      have htaunts := hranks.taunting v id ((hentries v id).mpr hid) hv
      rw [hstate hid, taunting_grantedState] at htaunts
      exact htaunts
    constructor
    · intro v hv hmem
      obtain ⟨id, hid⟩ := (hlisted v).mp hv
      exact (taunting_tauntStateOf hmem).mp (htaunting v id hid hmem)
    · intro a b ha hb hamem hbmem hlt
      obtain ⟨i, hi⟩ := (hlisted a).mp ha
      obtain ⟨j, hj⟩ := (hlisted b).mp hb
      have hranked := hranks.ranked a b i j ((hentries a i).mpr hi) ((hentries b j).mpr hj)
        hamem hbmem hlt
      rw [hstate hi, hstate hj, grantedState_of_taunting env _ _ (htaunting a i hi hamem),
        grantedState_of_taunting env _ _ (htaunting b j hj hbmem)] at hranked
      exact (tauntStateOf_lt hamem hbmem).mp hranked
  · intro hstep
    have htaunting : ∀ v id, (w.units owner).myThreatListEntries[v]? = some id →
        v ∈ env.tauntEffects owner →
        tauntStateTaunt ≤ tauntStateOf (env.tauntEffects owner) v := by
      intro v id hid hv
      exact (taunting_tauntStateOf hv).mpr (hstep.apart v ((hlisted v).mpr ⟨id, hid⟩) hv)
    constructor
    · intro v id hid hv
      rw [hentries] at hid
      rw [hstate hid, taunting_grantedState]
      exact htaunting v id hid hv
    · intro a b i j hi hj hamem hbmem hlt
      rw [hentries] at hi hj
      rw [hstate hi, hstate hj, grantedState_of_taunting env _ _ (htaunting a i hi hamem),
        grantedState_of_taunting env _ _ (htaunting b j hj hbmem)]
      exact (tauntStateOf_lt hamem hbmem).mpr (hstep.together a b ((hlisted a).mpr ⟨i, hi⟩)
        ((hlisted b).mpr ⟨j, hj⟩) hamem hbmem hlt)
    · intro v id hid hv
      rw [hentries] at hid
      rw [hstate hid, tauntStateOf_of_notMem hv]
      unfold grantedState
      split
      · exact .inr rfl
      · exact .inl rfl

end

end World

/-- After every sequence of calls `TauntUpdate` ranks the taunters if and only if its counter
stays in step with the number of casters. -/
theorem ranksTaunters_threatRun_iff (ops : HeapOps Heap) (canHaveThreatList : ObjectGuid → Bool)
    (events : List (Surroundings × ThreatCall)) (env : Surroundings) (owner : ObjectGuid) :
    World.RanksTaunters ((threatRun ops canHaveThreatList events).tauntUpdate ops env owner) owner
        (env.tauntEffects owner) ↔
      World.InStep
        (fun victim =>
          victim ∈ ((threatRun ops canHaveThreatList events).units owner).myThreatListEntries)
        (env.tauntEffects owner) :=
  World.ranksTaunters_iff ops env (consistent_threatRun ops canHaveThreatList events) owner

/-- Two effects of one caster outrun the number of casters: the taunter is not above the rest. -/
theorem not_ranksTaunters_twice :
    ¬ ∀ (ops : HeapOps Unit) (events : List (Surroundings × ThreatCall)) (env : Surroundings),
      World.RanksTaunters ((threatRun ops (fun _ => true) events).tauntUpdate ops env 1) 1
        (env.tauntEffects 1) := by
  intro h
  let ops : HeapOps Unit := ⟨(), fun _ _ _ => (), fun _ _ _ => (), fun _ _ _ => (),
    fun _ _ _ => (), fun _ _ => []⟩
  obtain ⟨events, hlisted⟩ := exists_listed_threatRun ops (fun _ => true) {} 1 2 rfl (by decide)
  have hranks := h ops events { tauntEffects := fun _ => [2, 2] }
  rw [World.ranksTaunters_iff ops _ (consistent_threatRun ops _ events) 1] at hranks
  have hahead : World.ahead [2, 2] 2 % 2 ^ 32 = 1 := by
    rw [show World.ahead [2, 2] 2 = 1 by decide]
    norm_num
  have htwice : (2 : ObjectGuid) ∈ [2, 2] := List.mem_cons_self
  exact (hranks.apart 2 hlisted htwice).1 hahead

end TrinityCore.Combat
