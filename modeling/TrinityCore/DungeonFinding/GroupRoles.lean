import Mathlib.Algebra.BigOperators.Group.List.Basic
import TrinityCore.DungeonFinding.LFGMgr
import TrinityCore.Lib.BitString
import TrinityCore.Lib.TreeMapLists

/-!
# The check of the roles of a group

`CheckGroupRoles` tries, for a player with several roles, all ways to take one of them away. It
succeeds exactly when every player can be given one of the roles chosen, and no role is given
to more players than the dungeon needs.
-/

namespace TrinityCore.DungeonFinding

open List

open BitString Std TreeMapLists

/-! ### One player -/

/-- The player has chosen the role, and nothing but roles. -/
def Allows (value : UInt8) (r : LfgRole) : Prop := value &&& 0xF0 = 0 ∧ value &&& r.bit ≠ 0

instance (value : UInt8) (r : LfgRole) : Decidable (Allows value r) :=
  inferInstanceAs (Decidable (_ ∧ _))

/-- The player has chosen this role alone. -/
def IsSingle (value : UInt8) (r : LfgRole) : Prop := value &&& ~~~playerRoleLeader = r.bit

instance (value : UInt8) (r : LfgRole) : Decidable (IsSingle value r) :=
  inferInstanceAs (Decidable (_ = _))

theorem and_leader_and_bit (value : UInt8) (r : LfgRole) :
    value &&& ~~~playerRoleLeader &&& r.bit = value &&& r.bit := by
  rw [UInt8.and_assoc]
  congr 1
  cases r <;> decide

variable {value : UInt8} {r : LfgRole} {guid : ObjectGuid} {groles : LfgRolesMap}
  {done rest : List (ObjectGuid × UInt8)} {x : ObjectGuid × UInt8}
  {recur : LfgRolesMap → Option LfgRolesMap}

theorem not_allows_of_none (h : value &&& ~~~playerRoleLeader = 0) (r : LfgRole) :
    ¬ Allows value r := by
  intro hallows
  apply hallows.2
  rw [← and_leader_and_bit, h, UInt8.zero_and]

theorem allows_iff_of_isSingle (h : IsSingle value r) (s : LfgRole) : Allows value s ↔ s = r := by
  revert value
  apply forall_byte
  cases r <;> cases s <;> decide +kernel

theorem IsSingle.unique {s : LfgRole} (h : IsSingle value r) (h' : IsSingle value s) : r = s :=
  (allows_iff_of_isSingle h' r).mp ((allows_iff_of_isSingle h r).mpr rfl)

/-- To subtract the bit of a role that was chosen is to clear it. -/
theorem sub_bit (h : value &&& r.bit ≠ 0) : value - r.bit = value &&& ~~~r.bit := by
  revert value
  apply forall_byte
  cases r <;> decide +kernel

theorem sub_bit_and_bit (h : value &&& r.bit ≠ 0) (s : LfgRole) :
    value - r.bit &&& s.bit = if s = r then 0 else value &&& s.bit := by
  rw [sub_bit h, UInt8.and_assoc]
  by_cases hsame : s = r
  · rw [if_pos hsame, hsame]
    simp
  · have hbits : ~~~r.bit &&& s.bit = s.bit := by
      cases r <;> cases s <;> first | exact absurd rfl hsame | rfl
    rw [if_neg hsame, hbits]

/-- A role taken away. -/
theorem allows_sub_iff (h : value &&& r.bit ≠ 0) (s : LfgRole) :
    Allows (value - r.bit) s ↔ Allows value s ∧ s ≠ r := by
  have hhigh : value - r.bit &&& 0xF0 = value &&& 0xF0 := by
    have hbits : ~~~r.bit &&& 0xF0 = 0xF0 := by cases r <;> rfl
    rw [sub_bit h, UInt8.and_assoc, hbits]
  unfold Allows
  rw [hhigh, sub_bit_and_bit h]
  by_cases hsame : s = r
  · simp [hsame]
  · simp [hsame]

/-- A player with several roles has another one. -/
theorem exists_other_role (h : Allows value r) (hsingle : ¬ IsSingle value r) :
    ∃ s, s ≠ r ∧ value &&& s.bit ≠ 0 := by
  have hbytes : ∀ v : UInt8, Allows v r → IsSingle v r ∨
      ∃ s ∈ [LfgRole.tank, .healer, .damage], s ≠ r ∧ v &&& s.bit ≠ 0 := by
    apply forall_byte
    cases r <;> decide +kernel
  rcases hbytes value h with hr | ⟨s, _, hs⟩
  · exact absurd hr hsingle
  · exact ⟨s, hs⟩

/-- How many roles a player has chosen. -/
def chosen (value : UInt8) : Nat :=
  (if value &&& LfgRole.tank.bit ≠ 0 then 1 else 0) +
    (if value &&& LfgRole.healer.bit ≠ 0 then 1 else 0) +
      (if value &&& LfgRole.damage.bit ≠ 0 then 1 else 0)

theorem chosen_le (value : UInt8) : chosen value ≤ 3 := by
  unfold chosen
  split <;> split <;> split <;> omega

theorem chosen_sub (h : value &&& r.bit ≠ 0) : chosen (value - r.bit) + 1 = chosen value := by
  unfold chosen
  simp only [sub_bit_and_bit h]
  cases r with
  | tank => simp [h]; omega
  | healer => simp [h]; omega
  | damage => simp [h]

/-! ### Assignments -/

/-- Every player is given a role it has chosen, none of them more often than needed. -/
structure Assigns (dungeon : LFGDungeonData) (players : List (ObjectGuid × UInt8))
    (f : ObjectGuid → LfgRole) : Prop where
  allowed : ∀ x ∈ players, Allows x.2 (f x.1)
  needed : ∀ r, (players.countP fun x => f x.1 = r) ≤ (dungeon.required r).toNat

/-- The players can be given roles. -/
def Assignable (dungeon : LFGDungeonData) (players : List (ObjectGuid × UInt8)) : Prop :=
  ∃ f, Assigns dungeon players f

section

variable {dungeon : LFGDungeonData} {players players' : List (ObjectGuid × UInt8)}
  {f : ObjectGuid → LfgRole}

theorem Assigns.perm (h : Assigns dungeon players f) (hperm : players.Perm players') :
    Assigns dungeon players' f := by
  constructor
  · intro x hx
    exact h.allowed x (hperm.mem_iff.mpr hx)
  · intro r
    rw [← hperm.countP_eq]
    exact h.needed r

/-- Fewer players can be given roles, too. -/
theorem Assigns.sublist (h : Assigns dungeon players f) (hsub : players'.Sublist players) :
    Assigns dungeon players' f := by
  constructor
  · intro x hx
    exact h.allowed x (hsub.subset hx)
  · intro r
    exact Nat.le_trans hsub.countP_le (h.needed r)

theorem Assignable.perm (h : Assignable dungeon players) (hperm : players.Perm players') :
    Assignable dungeon players' :=
  h.imp fun _ hf => hf.perm hperm

theorem Assignable.sublist (h : Assignable dungeon players) (hsub : players'.Sublist players) :
    Assignable dungeon players' :=
  h.imp fun _ hf => hf.sublist hsub

theorem assignable_perm_iff (hperm : players.Perm players') :
    Assignable dungeon players ↔ Assignable dungeon players' :=
  ⟨fun h => h.perm hperm, fun h => h.perm hperm.symm⟩

/-- A role taken away from a player is a role the player is not given. -/
theorem assigns_cons_sub_iff (h : value &&& r.bit ≠ 0) :
    Assigns dungeon ((guid, value - r.bit) :: players) f ↔
      Assigns dungeon ((guid, value) :: players) f ∧ f guid ≠ r := by
  have hcount (v : UInt8) (s : LfgRole) :
      ((guid, v) :: players).countP (fun x => f x.1 = s) =
        players.countP (fun x => f x.1 = s) + if f guid = s then 1 else 0 := by
    simp [countP_cons]
  constructor
  · intro hf
    obtain ⟨hhead, hrest⟩ := forall_mem_cons.mp hf.allowed
    obtain ⟨hvalue, hne⟩ := (allows_sub_iff h _).mp hhead
    refine ⟨⟨forall_mem_cons.mpr ⟨hvalue, hrest⟩, ?_⟩, hne⟩
    intro s
    have hneeded := hf.needed s
    rwa [hcount] at hneeded ⊢
  · rintro ⟨hf, hne⟩
    obtain ⟨hhead, hrest⟩ := forall_mem_cons.mp hf.allowed
    constructor
    · exact forall_mem_cons.mpr ⟨(allows_sub_iff h _).mpr ⟨hhead, hne⟩, hrest⟩
    · intro s
      have hneeded := hf.needed s
      rwa [hcount] at hneeded ⊢

/-- The same in a map of roles. -/
theorem assigns_insert_sub_iff (hvalue : groles[guid]? = some value) (h : value &&& r.bit ≠ 0) :
    Assigns dungeon (groles.insert guid (value - r.bit)).toList f ↔
      Assigns dungeon groles.toList f ∧ f guid ≠ r := by
  have hinsert := perm_toList_insert groles guid (value - r.bit)
  have hall := perm_toList_erase hvalue
  have hiff : Assigns dungeon ((guid, value - r.bit) :: (groles.erase guid).toList) f ↔
      Assigns dungeon ((guid, value) :: (groles.erase guid).toList) f ∧ f guid ≠ r :=
    assigns_cons_sub_iff h
  constructor
  · intro hf
    obtain ⟨hfall, hne⟩ := hiff.mp (hf.perm hinsert)
    exact ⟨hfall.perm hall.symm, hne⟩
  · rintro ⟨hf, hne⟩
    exact (hiff.mpr ⟨hf.perm hall, hne⟩).perm hinsert.symm

end

/-! ### The three tests -/

section

variable {recur : LfgRolesMap → Option LfgRolesMap} {dungeon : LFGDungeonData}
  {groles : LfgRolesMap} {guid : ObjectGuid} {value : UInt8} {count : LfgRole → UInt8}

theorem checkRole_of_not_chosen (h : value &&& r.bit = 0) :
    checkRole recur dungeon groles guid value r count = .ok count := by
  simp only [checkRole, and_leader_and_bit, h, ne_eq, not_true_eq_false, if_false]

/-- A player with one role is counted. -/
theorem checkRoles_of_isSingle (h : IsSingle value r) :
    checkRoles recur dungeon groles guid value count =
      if (count r).toUInt32 = dungeon.required r then .error none
      else .ok fun s => if s = r then count r + 1 else count s := by
  have hother {s : LfgRole} (hne : s ≠ r) (count : LfgRole → UInt8) :
      checkRole recur dungeon groles guid value s count = .ok count := by
    apply checkRole_of_not_chosen
    rw [← and_leader_and_bit, h]
    cases r <;> cases s <;> first | rfl | exact absurd rfl hne
  have hcounted : checkRole recur dungeon groles guid value r count =
      if (count r).toUInt32 = dungeon.required r then .error none
      else .ok fun s => if s = r then count r + 1 else count s := by
    have hbit : r.bit &&& r.bit ≠ 0 := by cases r <;> decide
    simp only [checkRole]
    rw [h, if_pos hbit, if_neg (not_not.mpr rfl)]
  have hskip {s : LfgRole} (hne : s ≠ r) :
      checkRole recur dungeon groles guid value s = pure :=
    funext (hother hne)
  have hcounts : checkRoles recur dungeon groles guid value count =
      checkRole recur dungeon groles guid value r count := by
    cases r with
    | damage =>
      have hhealer := hskip (s := .healer) (by decide)
      have htank := hskip (s := .tank) (by decide)
      simp only [checkRoles, hhealer, htank, bind_pure]
    | healer =>
      have hdamage := hskip (s := .damage) (by decide)
      have htank := hskip (s := .tank) (by decide)
      simp only [checkRoles, hdamage, htank, pure_bind, bind_pure]
    | tank =>
      have hdamage := hskip (s := .damage) (by decide)
      have hhealer := hskip (s := .healer) (by decide)
      simp only [checkRoles, hdamage, hhealer, pure_bind]
  rw [hcounts, hcounted]

variable (recur dungeon groles guid count)

/-- One test of a player with several roles. -/
theorem checkRole_of_not_isSingle (h : ¬ IsSingle value r) :
    (checkRole recur dungeon groles guid value r count = .ok count ∧
        (value &&& r.bit ≠ 0 → recur (groles.insert guid (value - r.bit)) = none)) ∨
      ∃ assigned, value &&& r.bit ≠ 0 ∧
        recur (groles.insert guid (value - r.bit)) = some assigned ∧
          checkRole recur dungeon groles guid value r count = .error (some assigned) := by
  by_cases hbit : value &&& r.bit = 0
  · exact .inl ⟨checkRole_of_not_chosen hbit, fun hne => absurd hbit hne⟩
  · have hmulti : value &&& ~~~playerRoleLeader ≠ r.bit := h
    simp only [checkRole, and_leader_and_bit, ne_eq, hbit, not_false_eq_true, if_true, hmulti]
    cases hrec : recur (groles.insert guid (value - r.bit)) with
    | none => exact .inl ⟨rfl, fun _ => rfl⟩
    | some assigned => exact .inr ⟨assigned, trivial, rfl, rfl⟩

/-- A player with several roles: each of them is taken away in turn. -/
theorem checkRoles_of_not_isSingle (h : ∀ r, ¬ IsSingle value r) :
    (checkRoles recur dungeon groles guid value count = .ok count ∧
        ∀ r : LfgRole, value &&& r.bit ≠ 0 → recur (groles.insert guid (value - r.bit)) = none) ∨
      ∃ (r : LfgRole) (assigned : LfgRolesMap), value &&& r.bit ≠ 0 ∧
        recur (groles.insert guid (value - r.bit)) = some assigned ∧
          checkRoles recur dungeon groles guid value count = .error (some assigned) := by
  have htest (r : LfgRole) := checkRole_of_not_isSingle recur dungeon groles guid count (h r)
  rcases htest .damage with ⟨hd, hdnone⟩ | ⟨m, hbit, hrec, hd⟩
  · rcases htest .healer with ⟨hh, hhnone⟩ | ⟨m, hbit, hrec, hh⟩
    · rcases htest .tank with ⟨ht, htnone⟩ | ⟨m, hbit, hrec, ht⟩
      · refine .inl ⟨?_, ?_⟩
        · simp only [checkRoles, bind, Except.bind, hd, hh, ht]
        · intro r
          cases r with
          | tank => exact htnone
          | healer => exact hhnone
          | damage => exact hdnone
      · refine .inr ⟨.tank, m, hbit, hrec, ?_⟩
        simp only [checkRoles, bind, Except.bind, hd, hh, ht]
    · refine .inr ⟨.healer, m, hbit, hrec, ?_⟩
      simp only [checkRoles, bind, Except.bind, hd, hh]
  · refine .inr ⟨.damage, m, hbit, hrec, ?_⟩
    simp only [checkRoles, bind, Except.bind, hd]

end

/-! ### The loop over the players -/

/-- How many of the players have one role alone. -/
theorem countP_isSingle (done : List (ObjectGuid × UInt8)) :
    (done.countP fun x => IsSingle x.2 .tank) + (done.countP fun x => IsSingle x.2 .healer) +
        (done.countP fun x => IsSingle x.2 .damage) ≤ done.length ∧
      ((done.countP fun x => IsSingle x.2 .tank) + (done.countP fun x => IsSingle x.2 .healer) +
          (done.countP fun x => IsSingle x.2 .damage) = done.length ↔
        ∀ x ∈ done, ∃ r, IsSingle x.2 r) := by
  induction done with
  | nil => simp
  | cons x done ih =>
    have hdisjoint {r s : LfgRole} (hr : IsSingle x.2 r) (hne : s ≠ r) : ¬ IsSingle x.2 s :=
      fun hs => hne (hs.unique hr)
    simp only [countP_cons, length_cons, forall_mem_cons, decide_eq_true_eq]
    by_cases hx : ∃ r, IsSingle x.2 r
    · have hone : (if IsSingle x.2 .tank then 1 else 0) + (if IsSingle x.2 .healer then 1 else 0) +
          (if IsSingle x.2 .damage then 1 else 0) = 1 := by
        obtain ⟨r, hr⟩ := hx
        cases r with
        | tank =>
          rw [if_pos hr, if_neg (hdisjoint hr (by decide)), if_neg (hdisjoint hr (by decide))]
        | healer =>
          rw [if_pos hr, if_neg (hdisjoint hr (by decide)), if_neg (hdisjoint hr (by decide))]
        | damage =>
          rw [if_pos hr, if_neg (hdisjoint hr (by decide)), if_neg (hdisjoint hr (by decide))]
      have hiff := ih.2
      constructor
      · omega
      · rw [and_iff_right hx, ← hiff]
        omega
    · have hnone (r : LfgRole) : ¬ IsSingle x.2 r := fun hr => hx ⟨r, hr⟩
      simp only [hnone, if_false, exists_false, false_and, iff_false]
      omega

/-- What the loop knows after some players: no role has been given too often, and there is no
assignment when a player with several roles has been left behind. -/
structure Counted (dungeon : LFGDungeonData) (groles : LfgRolesMap)
    (done : List (ObjectGuid × UInt8)) (count : LfgRole → UInt8) : Prop where
  counts : ∀ r, (count r).toNat = done.countP fun x => IsSingle x.2 r
  within : ∀ r, (count r).toNat ≤ (dungeon.required r).toNat
  stuck : (∃ x ∈ done, ∀ r, ¬ IsSingle x.2 r) → ¬ Assignable dungeon groles.toList

section

variable {dungeon : LFGDungeonData} {groles : LfgRolesMap} {count : LfgRole → UInt8}

theorem counted_nil : Counted dungeon groles [] fun _ => 0 where
  counts _ := rfl
  within _ := Nat.zero_le _
  stuck h := by
    obtain ⟨x, hx, _⟩ := h
    exact (not_mem_nil hx).elim

/-- Players with one role each are given that role. -/
theorem assignable_of_forall_isSingle
    (hsingle : ∀ x ∈ groles.toList, ∃ r, IsSingle x.2 r)
    (hneeded : ∀ r : LfgRole, (groles.toList.countP fun x => IsSingle x.2 r) ≤
      (dungeon.required r).toNat) :
    Assignable dungeon groles.toList := by
  obtain ⟨f, hf⟩ : ∃ f : ObjectGuid → LfgRole, ∀ x ∈ groles.toList, IsSingle x.2 (f x.1) := by
    have hchoice (guid : ObjectGuid) : ∃ r, ∀ value, groles[guid]? = some value →
        IsSingle value r := by
      cases hvalue : groles[guid]? with
      | none => exact ⟨.tank, fun value heq => nomatch heq⟩
      | some value =>
        obtain ⟨r, hr⟩ := hsingle (guid, value) (mem_toList_iff.mpr hvalue)
        refine ⟨r, ?_⟩
        intro value' heq
        cases heq
        exact hr
    obtain ⟨f, hf⟩ := Classical.axiom_of_choice hchoice
    exact ⟨f, fun x hx => hf x.1 x.2 (mem_toList_iff.mp hx)⟩
  refine ⟨f, ?_, ?_⟩
  · intro x hx
    exact (allows_iff_of_isSingle (hf x hx) _).mpr rfl
  · intro r
    apply Nat.le_trans _ (hneeded r)
    apply countP_mono_left
    intro x hx heq
    have hr : f x.1 = r := of_decide_eq_true heq
    exact decide_eq_true (hr ▸ hf x hx)

section

variable (h : Counted dungeon groles done count)
include h

/-- A player with one role too many of it. -/
theorem Counted.not_assignable_of_full
    (hlist : groles.toList = done ++ x :: rest) (hx : IsSingle x.2 r)
    (hfull : (count r).toNat = (dungeon.required r).toNat) :
    ¬ Assignable dungeon groles.toList := by
  rintro ⟨f, hf⟩
  have hmono : (groles.toList.countP fun x => IsSingle x.2 r) ≤
      groles.toList.countP fun x => f x.1 = r := by
    apply countP_mono_left
    intro y hy hsingle
    have hr := (allows_iff_of_isSingle (of_decide_eq_true hsingle) _).mp (hf.allowed y hy)
    exact decide_eq_true hr
  have hcount : (groles.toList.countP fun x => IsSingle x.2 r) =
      (count r).toNat + (rest.countP fun x => IsSingle x.2 r) + 1 := by
    rw [hlist, countP_append, countP_cons, if_pos (decide_eq_true hx), h.counts]
    omega
  have hneeded := hf.needed r
  omega

/-- One more player with one role. -/
theorem Counted.concat_single (hx : IsSingle x.2 r)
    (hroom : (count r).toNat ≠ (dungeon.required r).toNat) (hsmall : done.length < 255) :
    Counted dungeon groles (done ++ [x]) fun s => if s = r then count r + 1 else count s := by
  have hwithin := h.within r
  have hlt : (count r).toNat < 255 := by
    rw [h.counts]
    exact Nat.lt_of_le_of_lt countP_le_length hsmall
  have hnext : (count r + 1).toNat = (count r).toNat + 1 := by
    rw [UInt8.toNat_add]
    exact Nat.mod_eq_of_lt (by change (count r).toNat + 1 < 256; omega)
  constructor
  · intro s
    rw [countP_append, countP_singleton]
    by_cases hs : s = r
    · subst hs
      rw [if_pos rfl, hnext, h.counts, decide_eq_true hx]
      rfl
    · have hne : ¬ IsSingle x.2 s := fun hsingle => hs (hsingle.unique hx)
      rw [if_neg hs, h.counts, decide_eq_false hne]
      rfl
  · intro s
    by_cases hs : s = r
    · subst hs
      rw [if_pos rfl, hnext]
      omega
    · rw [if_neg hs]
      exact h.within s
  · rintro ⟨y, hy, hnone⟩
    rcases mem_append.mp hy with hmem | hmem
    · exact h.stuck ⟨y, hmem, hnone⟩
    · rw [mem_singleton] at hmem
      exact absurd hx (hmem ▸ hnone r)

/-- One more player with several roles. -/
theorem Counted.concat_open (hx : ∀ r, ¬ IsSingle x.2 r)
    (hstuck : ¬ Assignable dungeon groles.toList) : Counted dungeon groles (done ++ [x]) count := by
  constructor
  · intro r
    rw [countP_append, countP_singleton, h.counts, decide_eq_false (hx r)]
    rfl
  · exact h.within
  · exact fun _ => hstuck

end

/-- A player with several roles, none of which can be taken away: an assignment would leave one
unused. -/
theorem not_assignable_of_stuck (hvalue : groles[guid]? = some value)
    (hopen : ∀ r, ¬ IsSingle value r)
    (hrec : ∀ r : LfgRole, value &&& r.bit ≠ 0 →
      ((recur (groles.insert guid (value - r.bit))).isSome ↔
        Assignable dungeon (groles.insert guid (value - r.bit)).toList))
    (hnone : ∀ r : LfgRole, value &&& r.bit ≠ 0 →
      recur (groles.insert guid (value - r.bit)) = none) :
    ¬ Assignable dungeon groles.toList := by
  rintro ⟨f, hf⟩
  have hmem : (guid, value) ∈ groles.toList := mem_toList_iff.mpr hvalue
  have hallowed := hf.allowed _ hmem
  obtain ⟨s, hs, hbit⟩ := exists_other_role hallowed (hopen _)
  have hfewer := (assigns_insert_sub_iff hvalue hbit).mpr ⟨hf, hs.symm⟩
  have hsome := (hrec s hbit).mpr ⟨f, hfewer⟩
  rw [hnone s hbit] at hsome
  cases hsome

/-- The loop succeeds when the players can be given roles. -/
theorem isSome_checkPlayers (hsize : groles.size < 256)
    (hrec : ∀ (guid : ObjectGuid) (value : UInt8) (r : LfgRole), groles[guid]? = some value →
      value &&& r.bit ≠ 0 →
      ((recur (groles.insert guid (value - r.bit))).isSome ↔
      Assignable dungeon (groles.insert guid (value - r.bit)).toList))
    (hlist : groles.toList = done ++ rest) (h : Counted dungeon groles done count) :
    (checkPlayers recur dungeon groles rest count).isSome ↔ Assignable dungeon groles.toList := by
  have hlength : groles.toList.length = groles.size := groles.length_toList
  induction rest generalizing done count with
  | nil =>
    rw [append_nil] at hlist
    have hsum := countP_isSingle done
    rw [← h.counts, ← h.counts, ← h.counts, ← hlist, hlength] at hsum
    have hmod : (UInt8.ofNat groles.size).toNat = groles.size := UInt8.toNat_ofNat_of_lt hsize
    rw [checkPlayers, hmod]
    by_cases hall : ∀ x ∈ groles.toList, ∃ r, IsSingle x.2 r
    · rw [if_pos (hsum.2.mpr hall)]
      apply iff_of_true rfl
      apply assignable_of_forall_isSingle hall
      intro r
      rw [hlist, ← h.counts]
      exact h.within r
    · rw [if_neg (fun heq => hall (hsum.2.mp heq))]
      apply iff_of_false Bool.false_ne_true
      apply h.stuck
      simp only [not_forall, not_exists] at hall
      obtain ⟨x, hx, hnone⟩ := hall
      exact ⟨x, hlist ▸ hx, hnone⟩
  | cons x rest ih =>
    obtain ⟨guid, value⟩ := x
    have hmem : (guid, value) ∈ groles.toList := by
      rw [hlist]
      exact mem_append_right _ mem_cons_self
    have hvalue : groles[guid]? = some value := mem_toList_iff.mp hmem
    have hnext : groles.toList = done ++ [(guid, value)] ++ rest := by
      rw [hlist, append_assoc]
      rfl
    have hdone : done.length < 255 := by
      rw [hlist, length_append, length_cons] at hlength
      omega
    rw [checkPlayers]
    by_cases hzero : value &&& ~~~playerRoleLeader = 0
    · rw [if_pos hzero]
      apply iff_of_false Bool.false_ne_true
      rintro ⟨f, hf⟩
      exact not_allows_of_none hzero _ (hf.allowed _ hmem)
    · rw [if_neg hzero]
      by_cases hsingle : ∃ r, IsSingle value r
      · obtain ⟨r, hr⟩ := hsingle
        have hfull : (count r).toUInt32 = dungeon.required r ↔
            (count r).toNat = (dungeon.required r).toNat := by
          rw [← UInt32.toNat_inj, UInt8.toNat_toUInt32]
        rw [checkRoles_of_isSingle hr]
        by_cases hroom : (count r).toNat = (dungeon.required r).toNat
        · rw [if_pos (hfull.mpr hroom)]
          apply iff_of_false Bool.false_ne_true
          exact h.not_assignable_of_full hlist hr hroom
        · rw [if_neg (fun heq => hroom (hfull.mp heq))]
          exact ih hnext (h.concat_single hr hroom hdone)
      · have hopen (r : LfgRole) : ¬ IsSingle value r := fun hr => hsingle ⟨r, hr⟩
        rcases checkRoles_of_not_isSingle recur dungeon groles guid count hopen with
          ⟨hchecked, hnone⟩ | ⟨r, assigned, hbit, hsome, hchecked⟩
        · have hstuck := not_assignable_of_stuck hvalue hopen
            (fun r => hrec guid value r hvalue) hnone
          rw [hchecked]
          exact ih hnext (h.concat_open hopen hstuck)
        · rw [hchecked]
          apply iff_of_true rfl
          have hfewer := (hrec guid value r hvalue hbit).mp (by rw [hsome]; rfl)
          exact hfewer.imp fun f hf => ((assigns_insert_sub_iff hvalue hbit).mp hf).1

end

/-! ### The recursion -/

/-- How many roles all players have chosen. -/
def chosenRoles (groles : LfgRolesMap) : Nat := (groles.toList.map fun x => chosen x.2).sum

theorem chosenRoles_le (groles : LfgRolesMap) : chosenRoles groles ≤ 3 * groles.size := by
  have hlist (players : List (ObjectGuid × UInt8)) :
      (players.map fun x => chosen x.2).sum ≤ 3 * players.length := by
    induction players with
    | nil => exact Nat.le_refl 0
    | cons x players ih =>
      have hx := chosen_le x.2
      rw [map_cons, sum_cons, length_cons]
      omega
  have hsum := hlist groles.toList
  rwa [groles.length_toList] at hsum

/-- Each call within looks at a role less. -/
theorem chosenRoles_insert_sub (hvalue : groles[guid]? = some value) (h : value &&& r.bit ≠ 0) :
    chosenRoles (groles.insert guid (value - r.bit)) + 1 = chosenRoles groles := by
  have hinsert := ((perm_toList_insert groles guid (value - r.bit)).map fun x => chosen x.2).sum_eq
  have hall := ((perm_toList_erase hvalue).map fun x => chosen x.2).sum_eq
  have hone := chosen_sub h
  simp only [map_cons, sum_cons] at hinsert hall
  unfold chosenRoles
  omega

theorem isSome_checkGroupRolesWithin {dungeon : LFGDungeonData} {fuel : Nat}
    (hne : ¬ groles.isEmpty) (hsize : groles.size < 256) (hfuel : chosenRoles groles < fuel) :
    (checkGroupRolesWithin dungeon fuel groles).isSome ↔ Assignable dungeon groles.toList := by
  induction fuel generalizing groles with
  | zero => omega
  | succ fuel ih =>
    rw [checkGroupRolesWithin, if_neg hne]
    apply isSome_checkPlayers hsize _ (nil_append _).symm counted_nil
    intro guid value r hvalue hbit
    have hmem : guid ∈ groles := ExtTreeMap.mem_iff_isSome_getElem?.mpr (by rw [hvalue]; rfl)
    apply ih
    · simp
    · simpa [ExtTreeMap.size_insert, hmem] using hsize
    · have hfewer := chosenRoles_insert_sub hvalue hbit
      omega

/-- `CheckGroupRoles` succeeds when the players can be given roles. -/
theorem isSome_checkGroupRoles_iff {dungeon : LFGDungeonData} (hne : ¬ groles.isEmpty)
    (hsize : groles.size < 256) :
    (checkGroupRoles dungeon groles).isSome ↔ Assignable dungeon groles.toList :=
  isSome_checkGroupRolesWithin hne hsize (Nat.lt_succ_of_le (chosenRoles_le groles))

end TrinityCore.DungeonFinding
