import TrinityCore.Lib.SelfDelimiting
import TrinityCore.Magmaw.CoordinatorAssignments

/-!
# The roster fingerprint

The fingerprint is written in parts that can each be read back whatever follows, so it tells
all rosters apart that differ in what it is made from.
-/

namespace TrinityCore.Magmaw

open Encounter List SelfDelimiting

/-! ### Tokens -/

/-- The size of a text in bytes, character by character. -/
theorem utf8ByteSize_eq_sum (s : String) :
    s.utf8ByteSize = (s.toList.map Char.utf8Size).sum := by
  have hlist (cs : List Char) :
      (String.ofList cs).utf8ByteSize = (cs.map Char.utf8Size).sum := by
    induction cs with
    | nil => rfl
    | cons c cs ih =>
      have hcons : String.ofList (c :: cs) = String.singleton c ++ String.ofList cs := by
        rw [← String.toList_inj]
        simp
      rw [hcons, String.utf8ByteSize_append, String.utf8ByteSize_singleton, ih, map_cons,
        sum_cons]
  rw [← hlist, String.ofList_toList]

theorem toList_numberToken (n : Nat) :
    (numberToken n).toList = Nat.toDigits 10 n ++ [';'] := by
  simp [numberToken]

theorem reads_numberToken : Reads (fun n => (numberToken n).toList) id := by
  simp only [toList_numberToken]
  exact reads_decimal rfl

theorem reads_boolToken : Reads (fun b => (boolToken b).toList) id := by
  apply (reads_numberToken.comp fun b => if b = true then 1 else 0).map
  intro a b
  cases a <;> cases b <;> simp

theorem toList_token (s : String) :
    (token s).toList =
      Nat.toDigits 10 (s.toList.map Char.utf8Size).sum ++ [':'] ++ s.toList ++ [';'] := by
  rw [token, utf8ByteSize_eq_sum]
  simp

theorem reads_token : Reads (fun s => (token s).toList) id := by
  have hcolon : Char.isDigit ':' = false := rfl
  simp only [toList_token]
  apply Reads.map
  · exact ((reads_sized (reads_decimal hcolon) Char.utf8Size_pos).comp String.toList).append_const
      [';']
  · intro s t heq
    exact String.toList_inj.mp heq

/-! ### Scopes, members and rosters -/

theorem reads_scopeToken : Reads (fun scope => (scopeToken scope).toList) id := by
  simp only [scopeToken, String.toList_append]
  have hparts := (((((((((reads_numberToken.comp fun scope : Scope => scope.serverEpoch.toNat).append
      (reads_token.comp Scope.cohortId)).append
      (reads_numberToken.comp fun scope => scope.attemptId.toNat)).append
      (reads_numberToken.comp fun scope => scope.wipeGeneration.toNat)).append
      (reads_numberToken.comp fun scope => scope.routeGeneration.toNat)).append
      (reads_token.comp Scope.nodeId)).append
      (reads_numberToken.comp fun scope => scope.mapId.toNat)).append
      (reads_numberToken.comp fun scope => scope.instanceId.toNat)).append
      (reads_token.comp Scope.encounterId)).append
      (reads_numberToken.comp fun scope => scope.encounterEpoch.toNat)
  apply hparts.map
  intro a b heq
  simp only [id, Prod.mk.injEq, UInt64.toNat_inj, UInt32.toNat_inj] at heq
  cases a
  cases b
  simp_all

theorem reads_memberToken : Reads (fun member => (memberToken member).toList) id := by
  simp only [memberToken, String.toList_append]
  have hparts := (((((reads_numberToken.comp fun member : RosterMember => member.guid.toNat).append
      (reads_token.comp RosterMember.rosterSlotId)).append
      (reads_token.comp RosterMember.role)).append
      (reads_token.comp RosterMember.classSpec)).append
      (reads_boolToken.comp RosterMember.admitted)).append
      (reads_boolToken.comp RosterMember.leaseOwned)
  apply hparts.map
  intro a b heq
  simp only [id, Prod.mk.injEq, UInt64.toNat_inj] at heq
  cases a
  cases b
  simp_all

theorem toUnsigned_injective : Function.Injective RaidMode.toUnsigned := by
  intro a b h
  cases a <;> cases b <;> first | rfl | nomatch h

theorem toList_join_map (members : List RosterMember) :
    (String.join (members.map memberToken)).toList =
      members.flatMap fun member => (memberToken member).toList := by
  rw [String.toList_join, flatMap_map]

/-- The fingerprint of members in the order given shows all that it is made from. -/
theorem rosterFingerprint_inj {view view' : RosterView} {members members' : List RosterMember}
    (h : rosterFingerprint view members = rosterFingerprint view' members') :
    view.lifecycle = view'.lifecycle ∧ view.mode = view'.mode ∧
      view.expectedSize = view'.expectedSize ∧ view.authoritative = view'.authoritative ∧
        members = members' := by
  have hreads := ((((reads_scopeToken.comp
      fun roster : RosterView × List RosterMember => roster.1.lifecycle).append
      (reads_numberToken.comp fun roster => roster.1.mode.toUnsigned)).append
      (reads_numberToken.comp fun roster => roster.1.expectedSize.toNat)).append
      (reads_boolToken.comp fun roster => roster.1.authoritative)).append
      ((reads_counted reads_numberToken reads_memberToken).comp Prod.snd)
  have hlists := congrArg String.toList h
  simp only [rosterFingerprint, String.toList_append, toList_join_map, append_assoc] at hlists
  have hviews := hreads.eq (view, members) (view', members') (by
    simpa only [append_assoc] using hlists)
  simp only [id, map_id, Prod.mk.injEq, UInt32.toNat_inj] at hviews
  obtain ⟨⟨⟨⟨hlifecycle, hmode⟩, hsize⟩, hauthoritative⟩, hmembers⟩ := hviews
  exact ⟨hlifecycle, toUnsigned_injective hmode, hsize, hauthoritative, hmembers⟩

/-- The fingerprint of a canonical roster tells exactly scope, mode, expected size, authority
and the members, in any order, apart. -/
theorem rosterFingerprint_eq_iff (view view' : RosterView) :
    rosterFingerprint view (canonicalMembers view.members) =
        rosterFingerprint view' (canonicalMembers view'.members) ↔
      view.lifecycle = view'.lifecycle ∧ view.mode = view'.mode ∧
        view.expectedSize = view'.expectedSize ∧ view.authoritative = view'.authoritative ∧
          view.members.Perm view'.members := by
  constructor
  · intro h
    obtain ⟨hlifecycle, hmode, hsize, hauthoritative, hmembers⟩ := rosterFingerprint_inj h
    refine ⟨hlifecycle, hmode, hsize, hauthoritative, ?_⟩
    have hsorted : view.members.Perm (canonicalMembers view.members) :=
      (List.perm_insertionSort _ _).symm
    rw [hmembers] at hsorted
    exact hsorted.trans (List.perm_insertionSort _ _)
  · rintro ⟨hlifecycle, hmode, hsize, hauthoritative, hmembers⟩
    rw [canonicalMembers_perm hmembers]
    simp only [rosterFingerprint, hlifecycle, hmode, hsize, hauthoritative]

end TrinityCore.Magmaw
