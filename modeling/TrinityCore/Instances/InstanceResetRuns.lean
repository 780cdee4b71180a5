import TrinityCore.Instances.InstanceResetQueue
import TrinityCore.Lib.StateMachine

/-!
# Runs of the instance resets

Each round of the loop replaces the event at the front by the next one. A cancellation takes the
first event of the same instance id, and the events of all maps and difficulties have the same
one, so a forced reset takes those of others.
-/

namespace TrinityCore.Instances

open Function List

open StateMachine

/-- What happens to the queue. -/
inductive ResetRequest where
  | update (now : Int) (rounds : Nat)
  | forceGlobalReset (now : Int) (key : MapDiff)
  | schedule (time : Int) (key : MapDiff) (instanceId : Nat)
  | cancel (time : Int) (key : MapDiff) (instanceId : Nat)

namespace InstanceSaveManager

def step (c : ResetConfig) (s : InstanceSaveManager) : ResetRequest → InstanceSaveManager
  | .update now rounds => update c rounds { s with now }
  | .forceGlobalReset now key => forceGlobalReset c { s with now } key
  | .schedule time key instanceId =>
    s.scheduleReset time (InstResetEvent.new 0 key.mapid key.difficulty instanceId)
  | .cancel time key instanceId =>
    s.cancelReset time (InstResetEvent.new 0 key.mapid key.difficulty instanceId)

end InstanceSaveManager

/-- A reset is that of a forced one, or that of its own last event. -/
def GlobalReset.Caused (r : GlobalReset) : Prop :=
  match r.cause with
  | .forced key => key = r.key
  | .event due event => event.type = 4 ∧ event.mapDiff = r.key ∧ due = r.resetTime - 60

/-- The reset is one at its stored reset time. -/
def GlobalReset.Due (r : GlobalReset) : Prop :=
  match r.cause with
  | .forced _ => False
  | .event _ _ => True

/-- A cancellation takes the event it names out of the queue, if there is one, and no other. -/
def Cancellation.Right (x : Cancellation) : Prop :=
  match x.removed with
  | none => (∀ y ∈ x.before, ¬y.2.Same x.named) ∧ x.left = x.before
  | some removed => removed.2.Same x.named ∧ x.before.Perm (removed :: x.left)

/-- What has been processed is taken out of the queue, with the next type if it was a warning, and
nothing else. -/
def Taken.Right (x : Taken) : Prop :=
  x.before = (x.processed.1, { x.processed.2 with
    type := if x.processed.2.type = 0 ∨ x.processed.2.type = 4 then x.processed.2.type
      else x.processed.2.type + 1 }) :: x.left

/-- Resets are neither lost nor doubled. -/
structure InstanceSaveManager.Sound (c : ResetConfig) (s : InstanceSaveManager) : Prop where
  once : ∀ key ∈ c.globalResets, ∃ t type, s.resetTimes key = some t ∧ 1 ≤ type ∧ type ≤ 4 ∧
    s.queue.items.filter (fun x => x.2.IsGlobal key) =
      [(t - resetTimeDelay type, ⟨type, key.difficulty, key.mapid, 0⟩)]
  cancelled : ∀ x ∈ s.cancelled, x.Right
  taken : ∀ x ∈ s.taken, x.Right
  caused : ∀ r ∈ s.resets, r.Caused
  single : s.resets.Pairwise fun r later =>
    r.Due → later.Due → r.key = later.key → r.resetTime ≠ later.resetTime

/-- Individual instances have ids that fit, game times do not go back, and what is forced is the
reset of a map and difficulty with a reset time. -/
def ResetRequest.Called (c : ResetConfig) (s : InstanceSaveManager) : ResetRequest → Prop
  | .update now rounds => s.now ≤ now ∧
    ∀ r ∈ (s.step c (.update now rounds)).resets, r.Due → r.resetTime + DAY ≤ r.next
  | .forceGlobalReset now key => s.now ≤ now ∧ key ∈ c.globalResets
  | .schedule _ key instanceId | .cancel _ key instanceId =>
    key.mapid < 2 ^ 16 ∧ key.difficulty < 2 ^ 8 ∧ 0 < instanceId ∧ instanceId < 2 ^ 16

/-- A reset is forced only where there is no other map and difficulty with a reset time, and what a
cancellation finds first is of the map and difficulty that it names. -/
def ResetRequest.Fits (c : ResetConfig) (s : InstanceSaveManager) : ResetRequest → Prop
  | .forceGlobalReset _ key => c.globalResets = [key]
  | .cancel time key instanceId =>
    ∀ x, s.findEvent time instanceId = some x → x.2.mapDiff = key
  | _ => True

variable {now time : Int} {instances : List InstanceRow}

namespace InstanceSaveManager

variable {c : ResetConfig} {s t : InstanceSaveManager} {keys : List MapDiff} {key : MapDiff}

/-! ### What every step keeps -/

/-- The queue in order with all that has been done so far, and the stored reset times after all
resets that were due. -/
structure ResetIndex (c : ResetConfig) (s : InstanceSaveManager) : Prop
    extends QueueIndex c.globalResets s where
  cancelled : ∀ x ∈ s.cancelled, x.Right
  taken : ∀ x ∈ s.taken, x.Right
  caused : ∀ r ∈ s.resets, r.Caused
  single : s.resets.Pairwise fun r later =>
    r.Due → later.Due → r.key = later.key → r.resetTime ≠ later.resetTime
  now : 0 ≤ s.now
  positive : ∀ key ∈ c.globalResets, ∀ t, s.resetTimes key = some t → 0 ≤ t
  stored : ∀ r ∈ s.resets, r.Due → r.resetTime - 60 < s.now ∧
    ∀ t, s.resetTimes r.key = some t → r.resetTime < t

theorem ResetIndex.sound (h : ResetIndex c s) : s.Sound c :=
  ⟨fun _ hkey => h.filter_eq hkey, h.cancelled, h.taken, h.caused, h.single⟩

theorem ResetIndex.advance (h : ResetIndex c s) (hnow : s.now ≤ now) :
    ResetIndex c { s with now } := by
  have hold := h.now
  refine { h with now := Int.le_trans hold hnow, stored := ?_ }
  intro r hr hdue
  obtain ⟨hlt, hafter⟩ := h.stored r hr hdue
  exact ⟨Int.lt_of_lt_of_le hlt hnow, hafter⟩

/-- All instances of a map and difficulty are reset, and their entry replaced. -/
theorem ResetIndex.reset (h : ResetIndex c s) {x : Int × InstResetEvent} {resetTime : Int}
    {rest : List (Int × InstResetEvent)} {cause : ResetCause}
    (hbefore : s.queue.items.Perm (x :: rest)) (hx : x.2.instanceId = 0)
    (hcaused : GlobalReset.Caused
      ⟨x.2.mapDiff, resetTime, c.getSubsequentResetTime x.2.mapDiff resetTime, cause⟩)
    (hpos : 0 ≤ resetTime)
    (hnow : ∀ r ∈ s.resets, r.Due → r.key = x.2.mapDiff →
      r.resetTime < c.getSubsequentResetTime x.2.mapDiff resetTime)
    (hdue : GlobalReset.Due
        ⟨x.2.mapDiff, resetTime, c.getSubsequentResetTime x.2.mapDiff resetTime, cause⟩ →
      s.resetTimes x.2.mapDiff = some resetTime ∧ resetTime - 60 < s.now)
    (htimes : t.resetTimes = Function.update s.resetTimes x.2.mapDiff
      (some (c.getSubsequentResetTime x.2.mapDiff resetTime)))
    (hafter : t.queue.items.Perm
      ((c.getSubsequentResetTime x.2.mapDiff resetTime - 3600,
        ⟨1, x.2.difficulty, x.2.mapid, 0⟩) :: rest))
    (hresets : t.resets = s.resets ++
      [⟨x.2.mapDiff, resetTime, c.getSubsequentResetTime x.2.mapDiff resetTime, cause⟩])
    (hclock : t.now = s.now) (hcancelled : ∀ x ∈ t.cancelled, x.Right)
    (htaken : ∀ x ∈ t.taken, x.Right) : ResetIndex c t := by
  have hkey := (h.rest hbefore hx).1
  have hnext := lt_getSubsequentResetTime hkey resetTime
  unfold MINUTE at hnext
  generalize c.getSubsequentResetTime x.2.mapDiff resetTime = next at *
  have hqueue : QueueIndex c.globalResets t := by
    apply h.toQueueIndex.replace hbefore hx hafter rfl rfl (Nat.le_refl 1) (show 1 ≤ 4 by decide)
    · rw [htimes]
      change Function.update s.resetTimes x.2.mapDiff (some next) x.2.mapDiff = _
      rw [update_self]
      exact congrArg some (Int.sub_add_cancel next 3600).symm
    · intro key hne
      rw [htimes]
      exact update_of_ne hne _ _
  refine { hqueue with
    cancelled := hcancelled, taken := htaken, caused := ?_, single := ?_, now := hclock ▸ h.now,
    positive := ?_, stored := ?_ }
  · intro r hr
    rw [hresets] at hr
    rcases mem_append.mp hr with hold | hlast
    · exact h.caused r hold
    · rw [mem_singleton.mp hlast]
      exact hcaused
  · rw [hresets, pairwise_append]
    refine ⟨h.single, pairwise_singleton _ _, ?_⟩
    intro r hr later hlater
    rw [mem_singleton.mp hlater]
    intro hold hlast hsame
    have hlt := (h.stored r hr hold).2 resetTime (hsame ▸ (hdue hlast).1)
    exact Int.ne_of_lt hlt
  · intro key hin other hother
    rw [htimes, update_apply] at hother
    split at hother
    · cases hother
      omega
    · exact h.positive key hin other hother
  · intro r hr hdue'
    rw [hclock, htimes]
    rw [hresets] at hr
    rcases mem_append.mp hr with hold | hlast
    · obtain ⟨hlt, hstored⟩ := h.stored r hold hdue'
      refine ⟨hlt, fun other hother => ?_⟩
      rw [update_apply] at hother
      split at hother
      · next hsame =>
        cases hother
        exact hnow r hold hdue' hsame
      · exact hstored other hother
    · rw [mem_singleton.mp hlast] at hdue' ⊢
      refine ⟨(hdue hdue').2, fun other hother => ?_⟩
      dsimp only at hother
      rw [update_self] at hother
      cases hother
      dsimp only
      omega

/-! ### One round of the loop -/

theorem resetTimeDelay_succ {type : Nat} (hone : 1 ≤ type) (hthree : type ≤ 3) :
    resetTimeDelay (type + 1) ≤ resetTimeDelay type := by
  obtain rfl | rfl | rfl : type = 1 ∨ type = 2 ∨ type = 3 := by omega
  all_goals decide

theorem ResetIndex.processFront (h : ResetIndex c s) {due : Int} {event : InstResetEvent}
    {rest : List (Int × InstResetEvent)} (hitems : s.queue.items = (due, event) :: rest)
    (hnow : due < s.now)
    (hdaily : ∀ r ∈ (s.processFront c due event).resets, r.Due → r.resetTime + DAY ≤ r.next) :
    ResetIndex c (s.processFront c due event) := by
  have hmem : (due, event) ∈ s.queue.items := hitems ▸ mem_cons_self
  have hperm : s.queue.items.Perm ((due, event) :: rest) := hitems ▸ List.Perm.refl _
  rcases h.entries _ hmem with ⟨htype, hid⟩ | ⟨hid, hkey, hone, hfour, htime⟩
  · dsimp only at htype hid
    have hstep : s.processFront c due event = s.eraseBegin (due, event) := by
      unfold InstanceSaveManager.processFront
      rw [if_pos htype]
    rw [hstep]
    have hrest : (s.eraseBegin (due, event)).queue.items = rest := by
      unfold eraseBegin
      rw [MultiMap.items_eraseBegin, hitems, tail_cons]
    have hqueue : QueueIndex c.globalResets (s.eraseBegin (due, event)) :=
      h.toQueueIndex.of_individual rfl hid htype (.inl (hrest ▸ hperm))
    refine { hqueue, h with taken := ?_ }
    intro x hx
    rcases mem_append.mp hx with hold | hlast
    · exact h.taken x hold
    · rw [mem_singleton.mp hlast]
      unfold Taken.Right
      rw [MultiMap.items_eraseBegin, hitems, if_pos (Or.inl htype)]
      rfl
  · dsimp only at hid hkey hone hfour htime
    have hresetTime : s.getResetTimeFor event.mapDiff = due + resetTimeDelay event.type := by
      unfold getResetTimeFor
      rw [htime]
      rfl
    have hpos : 0 ≤ due + resetTimeDelay event.type := h.positive _ hkey _ htime
    by_cases hlast : event.type = 4
    · have hdelay : resetTimeDelay event.type = 60 := by
        rw [hlast]
        rfl
      rw [hdelay] at hresetTime htime hpos
      have hstep : s.processFront c due event =
          (s.resetOrWarnAll c event.mapDiff false (due + 60) (.event due event)).eraseBegin
            (due, event) := by
        unfold InstanceSaveManager.processFront
        rw [if_neg (by omega), hresetTime]
        simp only [hlast, ne_eq, not_true_eq_false, decide_false, if_false]
      rw [hstep, resetOrWarnAll_reset hkey hpos] at hdaily ⊢
      have hnext := hdaily _ (mem_append_right _ (mem_singleton_self _)) trivial
      dsimp only [DAY] at hnext
      have hinsert := MultiMap.insert_of_le (x := (c.getSubsequentResetTime event.mapDiff (due + 60) -
        3600, ⟨1, event.mapDiff.difficulty, event.mapDiff.mapid, 0⟩)) hitems (by dsimp only; omega)
      have hcaused : GlobalReset.Caused ⟨event.mapDiff, due + 60,
          c.getSubsequentResetTime event.mapDiff (due + 60), .event due event⟩ :=
        ⟨hlast, rfl, (Int.add_sub_cancel due 60).symm⟩
      refine h.reset hperm hid hcaused hpos ?_ ?_ rfl ?_ rfl rfl h.cancelled ?_
      · intro r hr hdue hsame
        have hlt := (h.stored r hr hdue).2 (due + 60) (hsame ▸ htime)
        dsimp only
        omega
      · exact fun _ => ⟨htime, by omega⟩
      · unfold eraseBegin
        rw [MultiMap.items_eraseBegin, hinsert, tail_cons]
        exact perm_insertLast _ _ rest
      · intro x hx
        rcases mem_append.mp hx with hold | hnew
        · exact h.taken x hold
        · rw [mem_singleton.mp hnew]
          unfold Taken.Right
          rw [MultiMap.items_eraseBegin, hinsert, if_pos (Or.inr hlast)]
          rfl
    · have hstep : s.processFront c due event =
          (({ s with queue := s.queue.modifyBegin fun _ => { event with type := event.type + 1 } } :
            InstanceSaveManager).scheduleReset
              (due + resetTimeDelay event.type - resetTimeDelay (event.type + 1))
              { event with type := event.type + 1 }).eraseBegin (due, event) := by
        unfold InstanceSaveManager.processFront
        rw [if_neg (by omega), hresetTime]
        simp only [hlast, ne_eq, not_false_eq_true, decide_true, if_true, resetOrWarnAll_warn]
      have hdelay := resetTimeDelay_succ hone (by omega)
      have hmodified : (s.queue.modifyBegin fun _ => { event with type := event.type + 1 }).items =
          (due, { event with type := event.type + 1 }) :: rest := by
        rw [MultiMap.items_modifyBegin, hitems]
        rfl
      have hinsert := MultiMap.insert_of_le
        (x := (due + resetTimeDelay event.type - resetTimeDelay (event.type + 1),
          { event with type := event.type + 1 })) hmodified (by dsimp only; omega)
      rw [hstep]
      have hqueue : QueueIndex c.globalResets
          ((({ s with queue := s.queue.modifyBegin fun _ => { event with type := event.type + 1 } } :
            InstanceSaveManager).scheduleReset
              (due + resetTimeDelay event.type - resetTimeDelay (event.type + 1))
              { event with type := event.type + 1 }).eraseBegin (due, event)) := by
        refine h.toQueueIndex.replace hperm hid
          (y := (due + resetTimeDelay event.type - resetTimeDelay (event.type + 1),
            { event with type := event.type + 1 })) ?_ hid rfl (by dsimp only; omega)
          (by dsimp only; omega) ?_ (fun _ _ => rfl)
        · unfold eraseBegin scheduleReset
          rw [MultiMap.items_eraseBegin, hinsert, tail_cons]
          exact perm_insertLast _ _ rest
        · rw [Int.sub_add_cancel]
          exact htime
      refine { hqueue, h with taken := ?_ }
      intro x hx
      rcases mem_append.mp hx with hold | hnew
      · exact h.taken x hold
      · rw [mem_singleton.mp hnew]
        have hwarning : ¬(event.type = 0 ∨ event.type = 4) := by omega
        unfold Taken.Right scheduleReset
        rw [MultiMap.items_eraseBegin, hinsert, if_neg hwarning]
        rfl

/-! ### The loop -/

theorem resets_resetOrWarnAll (warn : Bool) (resetTime : Int) (cause : ResetCause) :
    s.resets <+: (s.resetOrWarnAll c key warn resetTime cause).resets := by
  unfold resetOrWarnAll
  split
  · exact prefix_refl _
  · split
    · exact prefix_refl _
    · dsimp only
      split
      · exact prefix_refl _
      · exact prefix_append _ _

theorem resets_processFront (due : Int) (event : InstResetEvent) :
    s.resets <+: (s.processFront c due event).resets := by
  unfold InstanceSaveManager.processFront
  split
  · exact prefix_refl _
  · dsimp only
    split
    · exact resets_resetOrWarnAll _ _ _
    · exact resets_resetOrWarnAll _ _ _

theorem resets_update (rounds : Nat) : s.resets <+: (s.update c rounds).resets := by
  induction rounds generalizing s with
  | zero => exact prefix_refl _
  | succ rounds ih =>
    rw [update]
    split
    · exact prefix_refl _
    · split
      · exact prefix_refl _
      · exact (resets_processFront _ _).trans ih

theorem ResetIndex.update (h : ResetIndex c s) {rounds : Nat}
    (hdaily : ∀ r ∈ (s.update c rounds).resets, r.Due → r.resetTime + DAY ≤ r.next) :
    ResetIndex c (s.update c rounds) := by
  induction rounds generalizing s with
  | zero => exact h
  | succ rounds ih =>
    rw [InstanceSaveManager.update] at hdaily ⊢
    cases hbegin : s.queue.begin? with
    | none => exact h
    | some x =>
      obtain ⟨due, event⟩ := x
      rw [hbegin] at hdaily
      dsimp only at hdaily ⊢
      split
      · exact h
      · next hnow =>
        rw [if_neg hnow] at hdaily
        obtain ⟨rest, hitems⟩ := head?_eq_some_iff.mp hbegin
        apply ih _ hdaily
        apply h.processFront hitems (by omega)
        exact fun r hr => hdaily r ((resets_update rounds).subset hr)

/-! ### Requests -/

theorem ResetIndex.schedule (h : ResetIndex c s) {instanceId : Nat}
    (hcalled : (ResetRequest.schedule time key instanceId).Called c s) :
    ResetIndex c (s.step c (.schedule time key instanceId)) := by
  obtain ⟨hmapid, hdifficulty, hpos, hid⟩ := hcalled
  have hqueue : QueueIndex c.globalResets (s.step c (.schedule time key instanceId)) := by
    unfold InstanceSaveManager.step
    dsimp only
    rw [new_eq (by decide) hmapid hdifficulty hid]
    exact h.toQueueIndex.of_individual rfl (x := (time, ⟨0, key.difficulty, key.mapid, instanceId⟩))
      (Nat.ne_of_gt hpos) rfl (.inr (MultiMap.perm_insert _ _))
  exact { hqueue, h with }

theorem ResetIndex.cancel (h : ResetIndex c s) {instanceId : Nat}
    (hcalled : (ResetRequest.cancel time key instanceId).Called c s)
    (hfits : (ResetRequest.cancel time key instanceId).Fits c s) :
    ResetIndex c (s.step c (.cancel time key instanceId)) := by
  obtain ⟨hmapid, hdifficulty, hpos, hid⟩ := hcalled
  unfold InstanceSaveManager.step
  dsimp only
  rw [new_eq (by decide) hmapid hdifficulty hid]
  obtain ⟨hcancelled, hqueue⟩ := cancelReset_queue s time ⟨0, key.difficulty, key.mapid, instanceId⟩
  dsimp only at hcancelled hqueue
  have hindex : QueueIndex c.globalResets
      (s.cancelReset time ⟨0, key.difficulty, key.mapid, instanceId⟩) := by
    split at hqueue
    · next x hx =>
      obtain ⟨hmem, heq⟩ := findEvent_eq_some hx
      rcases h.entries x hmem with ⟨htype, hne⟩ | ⟨hzero, -⟩
      · exact h.toQueueIndex.of_individual rfl hne htype (.inl hqueue)
      · omega
    · exact h.toQueueIndex.congr hqueue rfl
  refine { hindex, h with cancelled := ?_ }
  rw [hcancelled]
  intro x hx
  rcases mem_append.mp hx with hold | hlast
  · exact h.cancelled x hold
  · rw [mem_singleton.mp hlast]
    unfold Cancellation.Right
    dsimp only
    split
    · next hnone =>
      rw [hnone] at hqueue
      exact ⟨fun y hy hsame => findEvent_eq_none hnone y hy hsame.2, hqueue⟩
    · next y hy =>
      rw [hy] at hqueue
      exact ⟨⟨hfits y hy, (findEvent_eq_some hy).2⟩, hqueue⟩

/-- A cancellation that finds another map and difficulty first takes a wrong event. -/
theorem not_sound_cancel {instanceId : Nat}
    (hcalled : (ResetRequest.cancel time key instanceId).Called c s)
    (hnot : ¬(ResetRequest.cancel time key instanceId).Fits c s) :
    ¬(s.step c (.cancel time key instanceId)).Sound c := by
  obtain ⟨hmapid, hdifficulty, -, hid⟩ := hcalled
  intro hsound
  apply hnot
  intro x hx
  unfold InstanceSaveManager.step at hsound
  dsimp only at hsound
  rw [new_eq (by decide) hmapid hdifficulty hid] at hsound
  have hlast := hsound.cancelled
  rw [(cancelReset_queue s time _).1] at hlast
  have hright := hlast _ (mem_append_right _ (mem_singleton_self _))
  unfold Cancellation.Right at hright
  dsimp only at hright
  rw [hx] at hright
  exact hright.1.1

/-! ### Forced resets -/

/-- The queue after the two cancellations of a forced reset. -/
def cancelGlobal (s : InstanceSaveManager) (key : MapDiff) : InstanceSaveManager :=
  (s.cancelReset 0 ⟨1, key.difficulty, key.mapid, 0⟩).cancelReset 0
    ⟨4, key.difficulty, key.mapid, 0⟩

theorem forceGlobalReset_eq (hkey : key ∈ c.globalResets) :
    s.forceGlobalReset c key =
      (s.cancelGlobal key).resetOrWarnAll c key false s.now (.forced key) := by
  obtain ⟨entry, hfind, hreset, rfl⟩ := mem_globalResets.mp hkey
  obtain ⟨hmapid, hdifficulty⟩ := c.fits entry (mem_mapDifficulties hfind)
  have hdown : c.getDownscaledMapDifficultyData entry.toMapDiff = some (entry, entry.toMapDiff) := by
    unfold ResetConfig.getDownscaledMapDifficultyData
    rw [hfind]
    rfl
  unfold forceGlobalReset
  rw [hdown]
  dsimp only
  rw [new_eq (by decide) hmapid hdifficulty (by decide),
    new_eq (by decide) hmapid hdifficulty (by decide)]
  rfl

/-- The first cancellation takes an entry of some map and difficulty, as there is one. -/
theorem QueueIndex.findEvent_zero (h : QueueIndex keys s) (hkey : key ∈ keys) :
    ∃ x, s.findEvent 0 0 = some x ∧ x ∈ s.queue.items ∧ x.2.instanceId = 0 := by
  cases hfound : s.findEvent 0 0 with
  | none =>
    obtain ⟨x, hmem, hid, -⟩ := h.exists_entry hkey
    exact absurd hid (findEvent_eq_none hfound x hmem)
  | some x => exact ⟨x, rfl, findEvent_eq_some hfound⟩

theorem ResetIndex.force (h : ResetIndex c s) (hglobal : c.globalResets = [key]) :
    ResetIndex c (s.forceGlobalReset c key) := by
  have hkey : key ∈ c.globalResets := hglobal ▸ mem_singleton_self key
  have honly : ∀ {other}, other ∈ c.globalResets → other = key := by
    intro other hother
    rw [hglobal] at hother
    exact mem_singleton.mp hother
  obtain ⟨x, hx, hmem, hid⟩ := h.toQueueIndex.findEvent_zero hkey
  obtain ⟨hfirst, hperm⟩ := cancelReset_queue s 0 ⟨1, key.difficulty, key.mapid, 0⟩
  dsimp only at hfirst hperm
  rw [hx] at hfirst hperm
  dsimp only at hperm
  obtain ⟨hin, hrest⟩ := h.toQueueIndex.rest hperm hid
  have hxkey := honly hin
  -- no entry of all instances is left, so the second cancellation finds none
  have hnone : ∀ y ∈ (s.cancelReset 0 ⟨1, key.difficulty, key.mapid, 0⟩).queue.items,
      y.2.instanceId ≠ 0 := by
    intro y hy hzero
    rcases h.entries y (hperm.mem_iff.mpr (mem_cons_of_mem x hy)) with ⟨-, hne⟩ | ⟨-, hkeys, -⟩
    · exact hne hzero
    · exact hrest y hy hzero ((honly hkeys).trans hxkey.symm)
  obtain ⟨hsecond, hqueue⟩ := cancelReset_queue
    (s.cancelReset 0 ⟨1, key.difficulty, key.mapid, 0⟩) 0 ⟨4, key.difficulty, key.mapid, 0⟩
  dsimp only at hsecond hqueue
  have hmissing : (s.cancelReset 0 ⟨1, key.difficulty, key.mapid, 0⟩).findEvent 0 0 = none := by
    cases hfound : (s.cancelReset 0 ⟨1, key.difficulty, key.mapid, 0⟩).findEvent 0 0 with
    | none => rfl
    | some y =>
      obtain ⟨hy, hzero⟩ := findEvent_eq_some hfound
      exact absurd hzero (hnone y hy)
  rw [hmissing] at hsecond hqueue
  dsimp only at hqueue
  rw [hfirst] at hsecond
  have hpos := h.now
  have hlater := lt_getSubsequentResetTime hkey s.now
  rw [forceGlobalReset_eq hkey, resetOrWarnAll_reset hkey hpos]
  unfold MINUTE at hlater
  subst hxkey
  have hcaused : GlobalReset.Caused ⟨x.2.mapDiff, s.now,
      c.getSubsequentResetTime x.2.mapDiff s.now, .forced x.2.mapDiff⟩ := rfl
  refine h.reset hperm hid hcaused hpos ?_ nofun rfl ?_ rfl rfl ?_ h.taken
  · intro r hr hdue _
    have hlt := (h.stored r hr hdue).1
    omega
  · refine (MultiMap.perm_insert _ _).trans (List.Perm.cons _ ?_)
    exact hqueue ▸ List.Perm.refl _
  · intro y hy
    have hy : y ∈ ((s.cancelReset 0 ⟨1, x.2.mapDiff.difficulty, x.2.mapDiff.mapid, 0⟩).cancelReset 0
      ⟨4, x.2.mapDiff.difficulty, x.2.mapDiff.mapid, 0⟩).cancelled := hy
    rw [hsecond, append_assoc, mem_append] at hy
    rcases hy with hold | hnew
    · exact h.cancelled y hold
    · rcases mem_cons.mp hnew with rfl | hlast
      · exact ⟨⟨rfl, hid⟩, hperm⟩
      · rw [mem_singleton.mp hlast]
        exact ⟨fun z hz hsame => hnone z hz hsame.2, hqueue⟩

/-- With other reset times in the queue, one of the two cancellations takes a wrong event. -/
theorem ResetIndex.not_sound_force (h : ResetIndex c s) (hkey : key ∈ c.globalResets)
    (hnot : c.globalResets ≠ [key]) : ¬(s.forceGlobalReset c key).Sound c := by
  intro hsound
  obtain ⟨other, hother, hne⟩ : ∃ other ∈ c.globalResets, other ≠ key := by
    by_contra hall
    push Not at hall
    apply hnot
    have hlength := eq_replicate_of_mem hall
    have hnodup := nodup_globalResets c
    rw [hlength, nodup_replicate] at hnodup
    have hpos := length_pos_of_mem hkey
    rw [hlength, show c.globalResets.length = 1 by omega]
    rfl
  obtain ⟨x, hx, -, hid⟩ := h.toQueueIndex.findEvent_zero hkey
  obtain ⟨hfirst, hperm⟩ := cancelReset_queue s 0 ⟨1, key.difficulty, key.mapid, 0⟩
  obtain ⟨hsecond, -⟩ := cancelReset_queue
    (s.cancelReset 0 ⟨1, key.difficulty, key.mapid, 0⟩) 0 ⟨4, key.difficulty, key.mapid, 0⟩
  dsimp only at hfirst hperm hsecond
  rw [hx] at hfirst hperm
  rw [hfirst] at hsecond
  dsimp only at hperm
  have hright : ∀ y ∈ (s.cancelGlobal key).cancelled, y.Right := by
    intro y hy
    apply hsound.cancelled y
    rw [forceGlobalReset_eq hkey, resetOrWarnAll_reset hkey h.now]
    exact hy
  unfold cancelGlobal at hright
  rw [hsecond] at hright
  have hxright := hright _ (mem_append_left _ (mem_append_right _
    (mem_singleton_self _)))
  have hxkey : x.2.mapDiff = key := hxright.1.1
  -- the entry of the other map and difficulty is still there, and found
  obtain ⟨y, hy, hyid, hykey⟩ := h.toQueueIndex.exists_entry hother
  have hleft : y ∈ (s.cancelReset 0 ⟨1, key.difficulty, key.mapid, 0⟩).queue.items := by
    rcases mem_cons.mp (hperm.mem_iff.mp hy) with rfl | hmem
    · exact absurd (hykey.symm.trans hxkey) hne
    · exact hmem
  have hlast := hright _ (mem_append_right _ (mem_singleton_self _))
  unfold Cancellation.Right at hlast
  dsimp only at hlast
  cases hfound : (s.cancelReset 0 ⟨1, key.difficulty, key.mapid, 0⟩).findEvent 0 0 with
  | none => exact findEvent_eq_none hfound y hleft hyid
  | some z =>
    rw [hfound] at hlast
    obtain ⟨hz, hzid⟩ := findEvent_eq_some hfound
    exact (h.toQueueIndex.rest hperm hid).2 z hz hzid (hlast.1.1.trans hxkey.symm)

/-! ### Loading -/

/-- What has been loaded so far: nothing has happened yet, and no time is before the first. -/
structure LoadIndex (now : Int) (keys : List MapDiff) (s : InstanceSaveManager) : Prop
    extends QueueIndex keys s where
  now : s.now = now
  positive : ∀ key t, s.resetTimes key = some t → 0 ≤ t
  resets : s.resets = []
  cancelled : s.cancelled = []
  taken : s.taken = []

theorem LoadIndex.instanceRow (h : LoadIndex now keys s) {row : InstanceRow} (hpos : 0 < row.id)
    (hid : row.id < 2 ^ 16) : LoadIndex now keys (s.loadInstanceRow row) := by
  unfold loadInstanceRow
  split
  · have hne : (InstResetEvent.new 0 row.mapid row.difficulty row.id).instanceId ≠ 0 := by
      unfold InstResetEvent.new
      dsimp only
      omega
    have hqueue : QueueIndex keys (s.scheduleReset row.resettime
        (InstResetEvent.new 0 row.mapid row.difficulty row.id)) :=
      h.toQueueIndex.of_individual rfl hne rfl (.inr (MultiMap.perm_insert _ _))
    exact { hqueue, h with }
  · exact h

theorem LoadIndex.resetRow (h : LoadIndex now [] s) (row : ResetRow) :
    LoadIndex now [] (s.loadResetRow c row) := by
  unfold loadResetRow
  split
  · exact h
  · have hqueue : QueueIndex []
        (s.setResetTimeFor row.mapDiff (row.resettime / DAY * DAY + c.diff)) := by
      refine ⟨fun x hx => ?_, nofun⟩
      rcases h.entries x hx with hindividual | ⟨-, hin, -⟩
      · exact .inl hindividual
      · contradiction
    refine { hqueue, h with positive := ?_ }
    intro key t ht
    unfold setResetTimeFor at ht
    dsimp only at ht
    rw [update_apply] at ht
    split at ht
    · cases ht
      unfold ResetConfig.diff DAY HOUR
      omega
    · exact h.positive key t ht

theorem firstType_bounds (now t : Int) : 1 ≤ firstType now t ∧ firstType now t ≤ 4 := by
  unfold firstType
  split
  · decide
  · split
    · decide
    · split <;> decide

theorem firstResetTime_nonneg (hpositive : ∀ key t, s.resetTimes key = some t → 0 ≤ t)
    (hnow : 0 ≤ s.now) (entry : MapDifficulty) : 0 ≤ s.firstResetTime c entry := by
  have hperiod := day_le_period entry
  have hstored : 0 ≤ s.getResetTimeFor entry.toMapDiff := by
    unfold getResetTimeFor
    cases htime : s.resetTimes entry.toMapDiff with
    | none => exact Int.le_refl 0
    | some t => exact hpositive _ t htime
  unfold firstResetTime ResetConfig.diff
  unfold DAY HOUR at *
  dsimp only
  generalize ht : (if s.getResetTimeFor entry.toMapDiff = 0 then _ else _ : Int) = t
  have hfirst : 0 ≤ t := by
    rw [← ht]
    split <;> omega
  split
  · next hlt =>
    have hquotient : 0 ≤ (s.now / 86400 * 86400 - t / 86400 * 86400) / ResetConfig.period entry :=
      Int.ediv_nonneg (by omega) (by omega)
    have hproduct := Int.mul_nonneg (Int.add_nonneg hquotient Int.one_nonneg)
      (show (0 : Int) ≤ ResetConfig.period entry by omega)
    omega
  · exact hfirst

/-- A map and difficulty with a reset time gets its entry. -/
theorem LoadIndex.mapDifficulty (h : LoadIndex now keys s) (hnow : 0 ≤ now) {entry : MapDifficulty}
    (hmem : entry ∈ c.mapDifficulties) (hreset : entry.resetTime ≠ 0)
    (hnew : entry.toMapDiff ∉ keys) (hrows : ∀ row ∈ instances, row.mapDiff ≠ entry.toMapDiff) :
    LoadIndex now (keys ++ [entry.toMapDiff]) (s.loadMapDifficulty c instances entry) := by
  obtain ⟨hmapid, hdifficulty⟩ := c.fits entry hmem
  have hnone : instances.filter (·.mapDiff = entry.toMapDiff) = [] := by
    rw [filter_eq_nil_iff]
    intro row hrow
    simpa using hrows row hrow
  have htime := @firstResetTime_nonneg c s h.positive (h.now ▸ hnow) entry
  unfold loadMapDifficulty
  rw [if_neg hreset, hnone]
  dsimp only [foldl_nil]
  generalize s.firstResetTime c entry = t at htime ⊢
  obtain ⟨hone, hfour⟩ := firstType_bounds s.now t
  generalize firstType s.now t = type at hone hfour ⊢
  rw [@new_eq entry.toMapDiff type 0 (by omega) hmapid hdifficulty (by decide)]
  have hqueue : QueueIndex (keys ++ [entry.toMapDiff])
      ((s.setResetTimeFor entry.toMapDiff t).scheduleReset (t - resetTimeDelay type)
        ⟨type, entry.difficulty, entry.mapid, 0⟩) := by
    refine h.toQueueIndex.add hnew (MultiMap.perm_insert _ _) rfl rfl hone hfour ?_ ?_
    · dsimp only
      rw [Int.sub_add_cancel]
      exact update_self _ _ _
    · intro other hne
      exact update_of_ne hne _ _
  refine { hqueue, h with positive := ?_ }
  intro key u hu
  unfold scheduleReset setResetTimeFor at hu
  dsimp only at hu
  rw [update_apply] at hu
  split at hu
  · cases hu
    exact htime
  · exact h.positive key u hu

/-- The maps and difficulties with a reset time get their entries one after the other. -/
theorem LoadIndex.mapDifficulties (h : LoadIndex now keys s) (hnow : 0 ≤ now)
    {entries : List MapDifficulty} (hmem : ∀ entry ∈ entries, entry ∈ c.mapDifficulties)
    (hnodup : (keys ++ (entries.filter (·.resetTime ≠ 0)).map MapDifficulty.toMapDiff).Nodup)
    (hrows : ∀ row ∈ instances, row.mapDiff ∉ c.globalResets) :
    LoadIndex now (keys ++ (entries.filter (·.resetTime ≠ 0)).map MapDifficulty.toMapDiff)
      (entries.foldl (loadMapDifficulty c instances) s) := by
  induction entries generalizing s keys with
  | nil => simpa using h
  | cons entry entries ih =>
    have hin := hmem entry mem_cons_self
    have hlater := fun other hother => hmem other (mem_cons_of_mem entry hother)
    rw [foldl_cons]
    by_cases hreset : entry.resetTime = 0
    · have hskip : s.loadMapDifficulty c instances entry = s := by
        unfold loadMapDifficulty
        rw [if_pos hreset]
      rw [filter_cons_of_neg (by simp [hreset])] at hnodup ⊢
      rw [hskip]
      exact ih h hlater hnodup
    · rw [filter_cons_of_pos (by simp [hreset]), map_cons, append_cons] at hnodup ⊢
      apply ih _ hlater hnodup
      apply h.mapDifficulty hnow hin hreset
      · intro hold
        rw [append_assoc] at hnodup
        exact (nodup_append.mp hnodup).2.2 _ hold _ mem_cons_self rfl
      · intro row hrow heq
        apply hrows row hrow
        rw [heq]
        exact mem_map_of_mem (mem_filter.mpr ⟨hin, by simpa using hreset⟩)

theorem loadResetTimes_index {rows : List ResetRow}
    (hnow : 0 ≤ now) (hrows : ∀ row ∈ instances, row.resettime ≠ 0 →
      row.mapDiff ∉ c.globalResets ∧ 0 < row.id ∧ row.id < 2 ^ 16) :
    ResetIndex c (loadResetTimes c now instances rows) := by
  have hinstances : ∀ row ∈ instances.filter (·.resettime ≠ 0),
      row.mapDiff ∉ c.globalResets ∧ 0 < row.id ∧ row.id < 2 ^ 16 := by
    intro row hrow
    obtain ⟨hmem, hreset⟩ := mem_filter.mp hrow
    exact hrows row hmem (of_decide_eq_true hreset)
  have hempty : LoadIndex now [] { now } := ⟨⟨nofun, nofun⟩, rfl, nofun, rfl, rfl, rfl⟩
  have hfirst : LoadIndex now []
      ((instances.filter (·.resettime ≠ 0)).foldl loadInstanceRow { now }) :=
    foldlRecOn _ _ hempty fun _ h row hrow =>
      h.instanceRow (hinstances row hrow).2.1 (hinstances row hrow).2.2
  have hsecond := foldlRecOn (motive := fun s => LoadIndex now [] s) rows (loadResetRow c) hfirst
    fun _ h row _ => h.resetRow row
  have hglobal : LoadIndex now c.globalResets (loadResetTimes c now instances rows) :=
    hsecond.mapDifficulties hnow (fun _ hmem => hmem) (nodup_globalResets c)
      fun row hrow => (hinstances row hrow).1
  refine { hglobal with
    cancelled := ?_, taken := ?_, caused := ?_, single := ?_, now := ?_,
    positive := fun key _ => hglobal.positive key, stored := ?_ }
  · rw [hglobal.cancelled]
    nofun
  · rw [hglobal.taken]
    nofun
  · rw [hglobal.resets]
    nofun
  · rw [hglobal.resets]
    exact List.Pairwise.nil
  · rw [hglobal.now]
    exact hnow
  · rw [hglobal.resets]
    nofun

/-! ### Runs -/

theorem ResetIndex.step (h : ResetIndex c s) {request : ResetRequest}
    (hcalled : request.Called c s) (hfits : request.Fits c s) : ResetIndex c (s.step c request) := by
  cases request with
  | update now rounds => exact (h.advance hcalled.1).update hcalled.2
  | forceGlobalReset now key => exact (h.advance hcalled.1).force hfits
  | schedule time key instanceId => exact h.schedule hcalled
  | cancel time key instanceId => exact h.cancel hcalled hfits

theorem ResetIndex.not_sound (h : ResetIndex c s) {request : ResetRequest}
    (hcalled : request.Called c s) (hnot : ¬request.Fits c s) : ¬(s.step c request).Sound c := by
  cases request with
  | update now rounds => exact absurd trivial hnot
  | forceGlobalReset now key => exact (h.advance hcalled.1).not_sound_force hcalled.2 hnot
  | schedule time key instanceId => exact absurd trivial hnot
  | cancel time key instanceId => exact not_sound_cancel hcalled hnot

/-- Resets are neither lost nor doubled in a run exactly when none is forced while other maps and
difficulties have reset times, and no cancellation finds an event of another map and difficulty. -/
theorem sound_iff_fits {now : Int} {instances : List InstanceRow} {rows : List ResetRow}
    (hnow : 0 ≤ now) (hrows : ∀ row ∈ instances, row.resettime ≠ 0 →
      row.mapDiff ∉ c.globalResets ∧ 0 < row.id ∧ row.id < 2 ^ 16) {requests : List ResetRequest}
    (hcalled : Admits (step c) (fun s request => request.Called c s)
      (loadResetTimes c now instances rows) requests) :
    (∀ before, before <+: requests →
        (run (step c) (loadResetTimes c now instances rows) before).Sound c) ↔
      Admits (step c) (fun s request => request.Fits c s) (loadResetTimes c now instances rows)
        requests :=
  run_prefixes_iff_of_invariant (loadResetTimes_index hnow hrows) (fun _ h => h.sound)
    (fun _ _ h => h.step) (fun _ _ h => h.not_sound) hcalled

/-- Two raids that are reset every week. -/
def twoRaids : ResetConfig where
  mapDifficulties := [⟨⟨249, 0⟩, 604800, 604800⟩, ⟨⟨533, 0⟩, 604800, 604800⟩]
  resetTimeHour := 4
  instanceable := fun _ => true
  keys := by decide
  fits := by decide
  maps := fun _ _ _ => rfl

/-- An instance gets a reset, both raids are warned and reset, and the instance loses its reset. -/
def oneWeek : List ResetRequest :=
  [.schedule 700000 ⟨33, 0⟩ 7, .update 620000 8, .cancel 700000 ⟨33, 0⟩ 7]

theorem sound_iff_fits_twoRaids :
    (∀ before, before <+: oneWeek →
        (run (step twoRaids) (loadResetTimes twoRaids 0 [] []) before).Sound twoRaids) ↔
      Admits (step twoRaids) (fun s request => request.Fits twoRaids s)
        (loadResetTimes twoRaids 0 [] []) oneWeek :=
  have hids : 33 < 2 ^ 16 ∧ 0 < 2 ^ 8 ∧ 0 < 7 ∧ 7 < 2 ^ 16 := by decide
  have hdaily : ∀ r ∈ (run (step twoRaids) (loadResetTimes twoRaids 0 [] [])
      (oneWeek.take 2)).resets, r.resetTime + DAY ≤ r.next := by decide +kernel
  sound_iff_fits (by decide) (forall_mem_nil _)
    ⟨hids, ⟨by decide, fun r hr _ => hdaily r hr⟩, hids, trivial⟩

theorem sound_fails_twoRaids :
    ¬∀ (c : ResetConfig) (now : Int) (instances : List InstanceRow) (rows : List ResetRow)
      (requests : List ResetRequest), 0 ≤ now →
      (∀ row ∈ instances, row.resettime ≠ 0 →
        row.mapDiff ∉ c.globalResets ∧ 0 < row.id ∧ row.id < 2 ^ 16) →
      Admits (step c) (fun s request => request.Called c s) (loadResetTimes c now instances rows)
        requests →
      ∀ before, before <+: requests →
        (run (step c) (loadResetTimes c now instances rows) before).Sound c := by
  intro hall
  have hcalled : (ResetRequest.forceGlobalReset 10 ⟨533, 0⟩).Called twoRaids
      (loadResetTimes twoRaids 0 [] []) := ⟨show (0 : Int) ≤ 10 by decide, by decide⟩
  have hsound := hall twoRaids 0 [] [] [.forceGlobalReset 10 ⟨533, 0⟩] (by decide) (forall_mem_nil _)
    ⟨hcalled, trivial⟩ _ (prefix_refl _)
  have hindex : ResetIndex twoRaids (loadResetTimes twoRaids 0 [] []) :=
    loadResetTimes_index (by decide) (forall_mem_nil _)
  have hother : twoRaids.globalResets ≠ [⟨533, 0⟩] := by decide
  exact hindex.not_sound hcalled hother hsound

end InstanceSaveManager

end TrinityCore.Instances
