import TrinityCore.DungeonFinding.GroupRoles

/-!
# The roles a group is given

`CheckGroupRoles` works on the map it is given: it takes a role from a player, calls itself, and
gives the role back when that failed. What it leaves in the map is a choice of one role for each
player, or the map as it was.
-/

namespace TrinityCore.DungeonFinding

open BitString List Option Std TreeMapLists

/-! ### `LFGMgr::CheckGroupRoles` in place -/

/-- What a test of a player's role comes to: `CheckGroupRoles` returns, or goes on counting. -/
inductive RoleTest
  | returns (result : Bool) (groles : LfgRolesMap)
  | goesOn (groles : LfgRolesMap) (count : LfgRole → UInt8)

/-- One of the three tests of a player's role. -/
def testRole (recur : LfgRolesMap → Option (Bool × LfgRolesMap)) (dungeon : LFGDungeonData)
    (guid : ObjectGuid) (role : UInt8) (r : LfgRole) : RoleTest → Option RoleTest
  | .returns result groles => some (.returns result groles)
  | .goesOn groles count =>
    if role &&& r.bit ≠ 0 then
      if role ≠ r.bit then
        (recur (groles.modify guid (· - r.bit))).map fun (result, groles) =>
          if result then .returns true groles
          else .goesOn (groles.modify guid (· + r.bit)) count
      else if (count r).toUInt32 = dungeon.required r then some (.returns false groles)
      else some (.goesOn groles fun s => if s = r then count r + 1 else count s)
    else some (.goesOn groles count)

/-- The three tests of a player's role. -/
def testRoles (recur : LfgRolesMap → Option (Bool × LfgRolesMap)) (dungeon : LFGDungeonData)
    (guid : ObjectGuid) (role : UInt8) (test : RoleTest) : Option RoleTest :=
  ((testRole recur dungeon guid role .damage test).bind
    (testRole recur dungeon guid role .healer)).bind (testRole recur dungeon guid role .tank)

/-- The loop over the players. -/
def testPlayers (recur : LfgRolesMap → Option (Bool × LfgRolesMap)) (dungeon : LFGDungeonData) :
    List ObjectGuid → LfgRolesMap → (LfgRole → UInt8) → Option (Bool × LfgRolesMap)
  | [], groles, count =>
    some ((count .tank).toNat + (count .healer).toNat + (count .damage).toNat =
      (UInt8.ofNat groles.size).toNat, groles)
  | guid :: rest, groles, count =>
    let role := groles.getD guid 0 &&& ~~~playerRoleLeader
    if role = 0 then some (false, groles)
    else
      (testRoles recur dungeon guid role (.goesOn groles count)).bind fun
        | .returns result groles => some (result, groles)
        | .goesOn groles count => testPlayers recur dungeon rest groles count

/-- `CheckGroupRoles`: its result and the map it leaves, or `none` when the calls are more than
`depth` deep. -/
def checkGroupRolesInPlace (dungeon : LFGDungeonData) :
    Nat → LfgRolesMap → Option (Bool × LfgRolesMap)
  | 0, _ => none
  | depth + 1, groles =>
    if groles.isEmpty then some (false, groles)
    else testPlayers (checkGroupRolesInPlace dungeon depth) dungeon groles.keys groles fun _ => 0

/-! ### The map is left as it was unless roles were assigned -/

/-- The result and the map left behind, for the roles assigned. -/
def outcome (groles : LfgRolesMap) : Option LfgRolesMap → Bool × LfgRolesMap
  | some assigned => (true, assigned)
  | none => (false, groles)

/-- A test on the map, for the test that assigns roles. -/
def toTest (groles : LfgRolesMap) :
    Except (Option LfgRolesMap) (LfgRole → UInt8) → RoleTest
  | .error assigned => .returns (outcome groles assigned).1 (outcome groles assigned).2
  | .ok count => .goesOn groles count

variable {recur' : LfgRolesMap → Option LfgRolesMap} {assigned groles : LfgRolesMap}

section

variable {dungeon : LFGDungeonData} {groles : LfgRolesMap} {guid : ObjectGuid} {value : UInt8}
  {count : LfgRole → UInt8}

theorem modify_eq_insert (h : groles[guid]? = some value) (f : UInt8 → UInt8) :
    groles.modify guid f = groles.insert guid (f value) := by
  apply ExtTreeMap.ext_getElem?
  intro other
  rw [ExtTreeMap.getElem?_modify, ExtTreeMap.getElem?_insert]
  split
  · next heq =>
    rw [h]
    rfl
  · rfl

/-- The role is given back. -/
theorem modify_add_modify_sub (h : groles[guid]? = some value) (bit : UInt8) :
    (groles.insert guid (value - bit)).modify guid (· + bit) = groles := by
  rw [modify_eq_insert ExtTreeMap.getElem?_insert_self]
  apply ExtTreeMap.ext_getElem?
  intro other
  simp only [ExtTreeMap.getElem?_insert, UInt8.sub_add_cancel]
  split
  · next heq => rw [← LawfulEqOrd.eq_of_compare heq, h]
  · rfl

variable {recur : LfgRolesMap → Option LfgRolesMap}
  {run : LfgRolesMap → Option (Bool × LfgRolesMap)}

theorem testRole_eq (dungeon : LFGDungeonData) (hvalue : groles[guid]? = some value)
    (hrun : ∀ r : LfgRole, value &&& r.bit ≠ 0 → run (groles.insert guid (value - r.bit)) =
      some (outcome (groles.insert guid (value - r.bit))
        (recur (groles.insert guid (value - r.bit)))))
    (r : LfgRole) (count : LfgRole → UInt8) :
    testRole run dungeon guid (value &&& ~~~playerRoleLeader) r (.goesOn groles count) =
      some (toTest groles (checkRole recur dungeon groles guid value r count)) := by
  rw [testRole, checkRole]
  simp only [and_leader_and_bit]
  by_cases hbit : value &&& r.bit ≠ 0
  · rw [if_pos hbit, if_pos hbit]
    split
    · rw [modify_eq_insert hvalue, hrun r hbit]
      cases recur (groles.insert guid (value - r.bit)) with
      | some assigned => rfl
      | none =>
        simp only [outcome, map_some, Bool.false_eq_true, if_false, toTest]
        rw [modify_add_modify_sub hvalue]
    · split <;> rfl
  · rw [if_neg hbit, if_neg hbit]
    rfl

theorem testRoles_eq (hvalue : groles[guid]? = some value)
    (hrun : ∀ r : LfgRole, value &&& r.bit ≠ 0 → run (groles.insert guid (value - r.bit)) =
      some (outcome (groles.insert guid (value - r.bit))
        (recur (groles.insert guid (value - r.bit))))) :
    testRoles run dungeon guid (value &&& ~~~playerRoleLeader) (.goesOn groles count) =
      some (toTest groles (checkRoles recur dungeon groles guid value count)) := by
  have htest := testRole_eq dungeon hvalue hrun
  rw [testRoles, checkRoles, htest, bind_some]
  cases checkRole recur dungeon groles guid value .damage count with
  | error assigned => rfl
  | ok count =>
    simp only [toTest, bind, Except.bind]
    rw [htest, bind_some]
    cases checkRole recur dungeon groles guid value .healer count with
    | error assigned => rfl
    | ok count => exact htest .tank count

/-- The loop assigns roles, or leaves the map as it was. -/
theorem testPlayers_eq
    (hrun : ∀ (guid : ObjectGuid) (value : UInt8) (r : LfgRole), groles[guid]? = some value →
      value &&& r.bit ≠ 0 → run (groles.insert guid (value - r.bit)) =
        some (outcome (groles.insert guid (value - r.bit))
          (recur (groles.insert guid (value - r.bit)))))
    {rest : List (ObjectGuid × UInt8)} (hrest : ∀ x ∈ rest, groles[x.1]? = some x.2)
    (count : LfgRole → UInt8) :
    testPlayers run dungeon (rest.map Prod.fst) groles count =
      some (outcome groles (checkPlayers recur dungeon groles rest count)) := by
  induction rest generalizing count with
  | nil =>
    rw [map_nil, testPlayers, checkPlayers]
    split
    · next heq => rw [decide_eq_true heq]; rfl
    · next hne => rw [decide_eq_false hne]; rfl
  | cons x rest ih =>
    obtain ⟨guid, value⟩ := x
    obtain ⟨hvalue, hrest⟩ := forall_mem_cons.mp hrest
    have hget : groles.getD guid 0 = value := by
      rw [ExtTreeMap.getD_eq_getD_getElem?, hvalue]
      rfl
    rw [map_cons, testPlayers, checkPlayers]
    simp only [hget]
    split
    · rfl
    · rw [testRoles_eq hvalue (fun r => hrun guid value r hvalue), bind_some]
      cases checkRoles recur dungeon groles guid value count with
      | error assigned => rfl
      | ok count => exact ih hrest count

theorem checkRoles_congr
    (h : ∀ r : LfgRole, value &&& r.bit ≠ 0 →
      recur (groles.insert guid (value - r.bit)) = recur' (groles.insert guid (value - r.bit)))
    (count : LfgRole → UInt8) :
    checkRoles recur dungeon groles guid value count =
      checkRoles recur' dungeon groles guid value count := by
  have htest (r : LfgRole) (count : LfgRole → UInt8) :
      checkRole recur dungeon groles guid value r count =
        checkRole recur' dungeon groles guid value r count := by
    simp only [checkRole, and_leader_and_bit]
    split
    · next hbit => rw [h r hbit]
    · rfl
  simp only [checkRoles, htest]

theorem checkPlayers_congr
    (h : ∀ (guid : ObjectGuid) (value : UInt8) (r : LfgRole), groles[guid]? = some value →
      value &&& r.bit ≠ 0 →
      recur (groles.insert guid (value - r.bit)) = recur' (groles.insert guid (value - r.bit)))
    {rest : List (ObjectGuid × UInt8)} (hrest : ∀ x ∈ rest, groles[x.1]? = some x.2)
    (count : LfgRole → UInt8) :
    checkPlayers recur dungeon groles rest count =
      checkPlayers recur' dungeon groles rest count := by
  induction rest generalizing count with
  | nil => rfl
  | cons x rest ih =>
    obtain ⟨guid, value⟩ := x
    obtain ⟨hvalue, hrest⟩ := forall_mem_cons.mp hrest
    simp only [checkPlayers, checkRoles_congr (fun r => h guid value r hvalue), ih hrest]

/-- A call that is deep enough does what any deeper one does. -/
theorem checkGroupRolesWithin_congr {depth depth' : Nat} (hdepth : chosenRoles groles < depth)
    (hdepth' : chosenRoles groles < depth') :
    checkGroupRolesWithin dungeon depth groles = checkGroupRolesWithin dungeon depth' groles := by
  induction depth generalizing depth' groles with
  | zero => omega
  | succ depth ih =>
    cases depth' with
    | zero => omega
    | succ depth' =>
      rw [checkGroupRolesWithin, checkGroupRolesWithin]
      split
      · rfl
      · apply checkPlayers_congr
        · intro guid value r hvalue hbit
          have hfewer := chosenRoles_insert_sub hvalue hbit
          apply ih <;> omega
        · intro x hx
          exact mem_toList_iff.mp hx

/-- The calls are no deeper than the players have roles. -/
theorem checkGroupRolesInPlace_eq {depth : Nat} (hdepth : chosenRoles groles < depth) :
    checkGroupRolesInPlace dungeon depth groles =
      some (outcome groles (checkGroupRolesWithin dungeon depth groles)) := by
  induction depth generalizing groles with
  | zero => omega
  | succ depth ih =>
    rw [checkGroupRolesInPlace, checkGroupRolesWithin]
    split
    · rfl
    · rw [← ExtTreeMap.map_fst_toList_eq_keys]
      apply testPlayers_eq
      · intro guid value r hvalue hbit
        apply ih
        have hfewer := chosenRoles_insert_sub hvalue hbit
        omega
      · intro x hx
        exact mem_toList_iff.mp hx

/-! ### The roles assigned -/

/-- Every player of the first map has the role chosen in the second one, and the leader bit it
had. -/
structure Gives (dungeon : LFGDungeonData) (groles assigned : LfgRolesMap)
    (f : ObjectGuid → LfgRole) : Prop where
  assigns : Assigns dungeon groles.toList f
  holds : ∀ guid, assigned[guid]? =
    groles[guid]?.map fun value => value &&& playerRoleLeader ||| (f guid).bit

theorem leader_sub_bit {r : LfgRole} (h : value &&& r.bit ≠ 0) :
    (value - r.bit) &&& playerRoleLeader = value &&& playerRoleLeader := by
  revert value
  apply forall_byte
  cases r <;> decide +kernel

theorem leader_or_bit (value : UInt8) :
    value &&& playerRoleLeader ||| value &&& ~~~playerRoleLeader = value := by
  revert value
  apply forall_byte
  decide +kernel

/-- A choice without the role taken away. -/
theorem Gives.of_insert_sub {f : ObjectGuid → LfgRole} {r : LfgRole}
    (hvalue : groles[guid]? = some value) (hbit : value &&& r.bit ≠ 0)
    (h : Gives dungeon (groles.insert guid (value - r.bit)) assigned f) :
    Gives dungeon groles assigned f where
  assigns := ((assigns_insert_sub_iff hvalue hbit).mp h.assigns).1
  holds other := by
    rw [h.holds, ExtTreeMap.getElem?_insert]
    split
    · next heq =>
      rw [← LawfulEqOrd.eq_of_compare heq, hvalue, map_some, map_some,
        leader_sub_bit hbit]
    · rfl

/-- When the loop ends well, every player had one role. -/
theorem gives_self {f : ObjectGuid → LfgRole} (hassigns : Assigns dungeon groles.toList f)
    (hsingle : ∀ x ∈ groles.toList, ∃ r, IsSingle x.2 r) : Gives dungeon groles groles f := by
  refine ⟨hassigns, fun guid => ?_⟩
  cases hvalue : groles[guid]? with
  | none => rfl
  | some value =>
    have hmem : (guid, value) ∈ groles.toList := mem_toList_iff.mpr hvalue
    obtain ⟨r, hr⟩ := hsingle _ hmem
    have hchosen : f guid = r := (allows_iff_of_isSingle hr _).mp (hassigns.allowed _ hmem)
    have hbits := leader_or_bit value
    rw [hr] at hbits
    rw [map_some, hchosen, hbits]

/-- What the loop assigns is a choice of roles, when that holds of the calls within. -/
theorem checkPlayers_eq_some (hsize : groles.size < 256)
    (hrec : ∀ (guid : ObjectGuid) (value : UInt8) (r : LfgRole), groles[guid]? = some value →
      value &&& r.bit ≠ 0 →
      ((recur (groles.insert guid (value - r.bit))).isSome ↔
      Assignable dungeon (groles.insert guid (value - r.bit)).toList))
    (hgives : ∀ (guid : ObjectGuid) (value : UInt8) (r : LfgRole) (assigned : LfgRolesMap),
      groles[guid]? = some value → value &&& r.bit ≠ 0 →
      recur (groles.insert guid (value - r.bit)) = some assigned →
      ∃ f, Gives dungeon (groles.insert guid (value - r.bit)) assigned f)
    (hassignable : Assignable dungeon groles.toList) {rest done : List (ObjectGuid × UInt8)}
    (hlist : groles.toList = done ++ rest) (hcounted : Counted dungeon groles done count)
    (h : checkPlayers recur dungeon groles rest count = some assigned) :
    ∃ f, Gives dungeon groles assigned f := by
  have hlength : groles.toList.length = groles.size := groles.length_toList
  induction rest generalizing done count with
  | nil =>
    rw [append_nil] at hlist
    rw [checkPlayers] at h
    split at h
    · next hsum =>
      cases h
      have hall := (countP_isSingle done).2
      rw [← hcounted.counts, ← hcounted.counts, ← hcounted.counts, ← hlist, hlength, hsum] at hall
      exact hassignable.imp fun f hf =>
        gives_self hf (hall.mp (UInt8.toNat_ofNat_of_lt hsize))
    · cases h
  | cons x rest ih =>
    obtain ⟨guid, value⟩ := x
    have hmem : (guid, value) ∈ groles.toList := by
      rw [hlist]
      exact mem_append_right _ mem_cons_self
    have hvalue : groles[guid]? = some value := mem_toList_iff.mp hmem
    have hnext : groles.toList = done ++ [(guid, value)] ++ rest := by
      rw [hlist, append_assoc]
      rfl
    have hdone : done.length < 255 := by
      rw [hlist, length_append, length_cons] at hlength
      omega
    rw [checkPlayers] at h
    split at h
    · cases h
    · by_cases hsingle : ∃ r, IsSingle value r
      · obtain ⟨r, hr⟩ := hsingle
        rw [checkRoles_of_isSingle hr] at h
        split at h
        · next hchecked =>
          split at hchecked
          · cases hchecked
            cases h
          · cases hchecked
        · next hchecked =>
          split at hchecked
          · cases hchecked
          · next hroom =>
            cases hchecked
            apply ih hnext _ h
            apply hcounted.concat_single hr _ hdone
            intro heq
            apply hroom
            rwa [← UInt32.toNat_inj, UInt8.toNat_toUInt32]
      · have hopen (r : LfgRole) : ¬ IsSingle value r := fun hr => hsingle ⟨r, hr⟩
        rcases checkRoles_of_not_isSingle recur dungeon groles guid count hopen with
          ⟨_, hnone⟩ | ⟨r, given, hbit, hsome, hchecked⟩
        · exact absurd hassignable (not_assignable_of_stuck hvalue hopen
            (fun r => hrec guid value r hvalue) hnone)
        · rw [hchecked] at h
          cases h
          obtain ⟨f, hf⟩ := hgives guid value r assigned hvalue hbit hsome
          exact ⟨f, hf.of_insert_sub hvalue hbit⟩

end

/-- What `CheckGroupRoles` assigns is a choice of roles. -/
theorem checkGroupRolesWithin_eq_some {dungeon : LFGDungeonData} {depth : Nat}
    (hsize : groles.size < 256) (hdepth : chosenRoles groles < depth)
    (h : checkGroupRolesWithin dungeon depth groles = some assigned) :
    ∃ f, Gives dungeon groles assigned f := by
  induction depth generalizing groles assigned with
  | zero => omega
  | succ depth ih =>
    have hne : ¬ groles.isEmpty := by
      intro hempty
      rw [checkGroupRolesWithin, if_pos hempty] at h
      cases h
    have hassignable : Assignable dungeon groles.toList := by
      apply (isSome_checkGroupRolesWithin hne hsize hdepth).mp
      rw [h]
      rfl
    have hinsert (guid : ObjectGuid) (value : UInt8) (r : LfgRole)
        (hvalue : groles[guid]? = some value) (hbit : value &&& r.bit ≠ 0) :
        (groles.insert guid (value - r.bit)).size < 256 ∧
          chosenRoles (groles.insert guid (value - r.bit)) < depth := by
      have hmem : guid ∈ groles := ExtTreeMap.mem_iff_isSome_getElem?.mpr (by rw [hvalue]; rfl)
      have hfewer := chosenRoles_insert_sub hvalue hbit
      constructor
      · simpa [ExtTreeMap.size_insert, hmem] using hsize
      · omega
    rw [checkGroupRolesWithin, if_neg hne] at h
    apply checkPlayers_eq_some hsize _ _ hassignable (nil_append _).symm counted_nil h
    · intro guid value r hvalue hbit
      obtain ⟨hsmall, hfewer⟩ := hinsert guid value r hvalue hbit
      exact isSome_checkGroupRolesWithin (by simp) hsmall hfewer
    · intro guid value r given hvalue hbit hgiven
      obtain ⟨hsmall, hfewer⟩ := hinsert guid value r hvalue hbit
      exact ih hsmall hfewer hgiven

/-- `CheckGroupRoles` returns, and returns true exactly when every player can be given one of its
roles and no role more often than the dungeon needs it. Then the map holds such a choice, with
the leader bits as they were; else it is as it was. -/
theorem checkGroupRolesInPlace_solves (dungeon : LFGDungeonData) (groles : LfgRolesMap)
    (hne : 0 < groles.size) (hsize : groles.size < 256) :
    ∃ result left, (∀ depth, 3 * groles.size < depth →
        checkGroupRolesInPlace dungeon depth groles = some (result, left)) ∧
      (result = true ↔ Assignable dungeon groles.toList) ∧
      (result = true → ∃ f, Gives dungeon groles left f) ∧
      (result = false → left = groles) := by
  have hnonempty : ¬ groles.isEmpty := by
    rw [ExtTreeMap.isEmpty_eq_size_beq_zero, beq_iff_eq]
    omega
  have hchosen := chosenRoles_le groles
  have hiff : (checkGroupRoles dungeon groles).isSome ↔ Assignable dungeon groles.toList :=
    isSome_checkGroupRoles_iff hnonempty hsize
  refine ⟨(outcome groles (checkGroupRoles dungeon groles)).1,
    (outcome groles (checkGroupRoles dungeon groles)).2, ?_, ?_, ?_, ?_⟩
  · intro depth hdepth
    rw [checkGroupRolesInPlace_eq (by omega), checkGroupRoles,
      checkGroupRolesWithin_congr (by omega) (Nat.lt_succ_of_le hchosen)]
  · rw [← hiff]
    cases checkGroupRoles dungeon groles <;> simp [outcome]
  · intro hresult
    cases hassigned : checkGroupRoles dungeon groles with
    | none =>
      rw [hassigned] at hresult
      cases hresult
    | some assigned =>
      exact checkGroupRolesWithin_eq_some hsize (by omega) hassigned
  · intro hresult
    cases hassigned : checkGroupRoles dungeon groles with
    | none => rfl
    | some assigned =>
      rw [hassigned] at hresult
      cases hresult

/-- A tank who also deals damage and leads, and a tank. -/
def tankAndTank : LfgRolesMap := ((∅ : LfgRolesMap).insert 1 0x0B).insert 2 0x02

theorem checkGroupRolesInPlace_solves_tankAndTank :
    ∃ left, checkGroupRolesInPlace ⟨1, 0, 1⟩ 7 tankAndTank = some (true, left) ∧
      ∃ f, Gives ⟨1, 0, 1⟩ tankAndTank left f := by
  obtain ⟨result, left, hrun, _, hgives, _⟩ :=
    checkGroupRolesInPlace_solves ⟨1, 0, 1⟩ tankAndTank (by decide +kernel) (by decide +kernel)
  have hdepth : 3 * tankAndTank.size < 7 := by decide +kernel
  have hresult : (checkGroupRolesInPlace ⟨1, 0, 1⟩ 7 tankAndTank).map Prod.fst = some true := by
    decide +kernel
  rw [hrun 7 hdepth] at hresult
  cases hresult
  exact ⟨left, hrun 7 hdepth, hgives rfl⟩

end TrinityCore.DungeonFinding
