import Mathlib.Data.List.Nodup
import Mathlib.Data.List.Perm.Subperm
import Mathlib.Order.Nat
import TrinityCore.Magmaw.TransferLaneShadow

/-!
# How a transfer-lane shadow evolves

Every helper of `Reconcile` either continues a live task under its identity, retires it, or
creates one with the next generation. That relation between two shadows composes. Terminal
states are kept by every helper but the one that suspends the task of an actor that is not
observed.
-/

namespace TrinityCore.Magmaw.TransferLane

open List

open Encounter StateMachine

/-! ### The retired list -/

/-- The newest retired tasks. -/
def newest (retired : List RetiredTask) : List RetiredTask :=
  retired.drop (retired.length - retiredCapacity)

/-- A list within the capacity is kept whole. -/
theorem newest_of_le {retired : List RetiredTask} (h : retired.length ≤ retiredCapacity) :
    newest retired = retired := by
  rw [newest, Nat.sub_eq_zero_of_le h, drop_zero]

/-- What is kept is within the capacity. -/
theorem length_newest_le (retired : List RetiredTask) :
    (newest retired).length ≤ retiredCapacity := by
  rw [newest, length_drop]
  omega

/-- Dropping old entries early makes no difference. -/
theorem newest_append (as bs : List RetiredTask) :
    newest (newest as ++ bs) = newest (as ++ bs) := by
  have hdrop : newest as ++ bs = (as ++ bs).drop (as.length - retiredCapacity) := by
    rw [newest, drop_append_of_le_length (Nat.sub_le _ _)]
  rw [newest, hdrop, newest, drop_drop, length_drop, length_append]
  congr 1
  omega

/-- The entries appended last are kept, as many as the capacity allows. -/
theorem mem_newest_append {as bs : List RetiredTask} (h : bs.length ≤ retiredCapacity)
    {r : RetiredTask} (hr : r ∈ bs) : r ∈ newest (as ++ bs) := by
  have hle : (as ++ bs).length - retiredCapacity ≤ as.length := by
    rw [length_append]
    omega
  rw [newest, drop_append_of_le_length hle]
  exact mem_append_right _ hr

/-- Retiring tasks one after the other keeps the newest records. -/
theorem foldl_retireTask (reason : Retirement) (revision : UInt64) (tasks : List Task)
    {retired : List RetiredTask} (h : retired.length ≤ retiredCapacity) :
    tasks.foldl (fun retired task => retireTask task reason revision retired) retired =
      newest (retired ++ tasks.map fun task => retiredRecord task reason revision) := by
  induction tasks generalizing retired with
  | nil => rw [foldl_nil, map_nil, append_nil, newest_of_le h]
  | cons task tasks ih =>
    have hone : retireTask task reason revision retired =
        newest (retired ++ [retiredRecord task reason revision]) := rfl
    rw [foldl_cons, hone, ih (length_newest_le _), map_cons]
    rw [newest_append, append_assoc, singleton_append]

/-! ### Identity and state of a single task -/

/-- A retired task keeps its identity. -/
@[simp] theorem retiredRecord_id (task : Task) (reason : Retirement) (revision : UInt64) :
    (retiredRecord task reason revision).task.id = task.id := rfl

variable {task t : Task} {guid : ObjectGuid} {s s' s'' : Shadow}

/-- A terminal task is retired in its state. -/
theorem retiredRecord_state (h : isTerminal task.state = true) (reason : Retirement)
    (revision : UInt64) : (retiredRecord task reason revision).task.state = task.state := by
  rw [retiredRecord]
  exact if_pos h

variable {hypot : Float32 → Float32 → Float32}

private theorem noteNativeOutcome_id (task : Task) (movement : ExecutionObservation)
    (revision : UInt64) : (noteNativeOutcome task movement revision).id = task.id := by
  unfold noteNativeOutcome
  split
  · rfl
  split
  · rfl
  split
  · rfl
  split
  · rfl
  · rfl

private theorem observeNativeOutcome_id (task : Task) (actor : ActorObservation)
    (board : Blackboard) : (observeNativeOutcome hypot task actor board).id = task.id := by
  unfold observeNativeOutcome
  split
  · rfl
  split
  · rfl
  · exact noteNativeOutcome_id _ _ _

private theorem observeDistance_id (task : Task) (actor : ActorObservation)
    (board : Blackboard) : (observeDistance hypot task actor board).1.id = task.id := by
  unfold observeDistance noteDistance
  simp only
  split
  · rfl
  split
  · rfl
  · rfl

private theorem settle_id (task : Task) (arrived : Bool) (board : Blackboard) :
    (settle task arrived board).id = task.id := by
  unfold settle
  split
  · rfl
  split
  · rfl
  · rfl

/-- Observing a task keeps its identity. -/
theorem observe_id (task : Task) (actor : ActorObservation) (board : Blackboard) :
    (observe hypot task actor board).id = task.id := by
  unfold observe
  split
  · rfl
  simp only
  split
  · exact observeNativeOutcome_id task actor board
  split
  · change (observeDistance hypot _ actor board).1.id = task.id
    rw [observeDistance_id]
    exact observeNativeOutcome_id task actor board
  · rw [settle_id, observeDistance_id]
    exact observeNativeOutcome_id task actor board

/-- A terminal task is not advanced. -/
theorem observe_of_terminal (h : isTerminal task.state = true) (actor : ActorObservation)
    (board : Blackboard) : observe hypot task actor board = task := by
  unfold observe
  exact if_pos h

/-- Writing through the pointer keeps the identities, if what is written does. -/
theorem map_id_modifyTask {f : Task → Task} (hf : ∀ task, (f task).id = task.id)
    (guid : ObjectGuid) (tasks : List Task) :
    (modifyTask guid f tasks).map (·.id) = tasks.map (·.id) := by
  induction tasks with
  | nil => rfl
  | cons task tasks ih =>
    rw [modifyTask]
    split
    · rw [map_cons, hf, map_cons]
    · rw [map_cons, ih, map_cons]

/-- A task after writing is one from before, or one of the actor written to. -/
theorem mem_modifyTask {f : Task → Task} {tasks : List Task} (h : t ∈ modifyTask guid f tasks) :
    t ∈ tasks ∨ ∃ task ∈ tasks, task.id.actorGuid = guid ∧ t = f task := by
  induction tasks with
  | nil => exact .inl h
  | cons task tasks ih =>
    rw [modifyTask] at h
    split at h
    · next hguid =>
      rcases mem_cons.mp h with rfl | h
      · exact .inr ⟨task, mem_cons_self, beq_iff_eq.mp hguid, rfl⟩
      · exact .inl (mem_cons_of_mem task h)
    · rcases mem_cons.mp h with rfl | h
      · exact .inl mem_cons_self
      · rcases ih h with hmem | ⟨old, hold, hguid, heq⟩
        · exact .inl (mem_cons_of_mem task hmem)
        · exact .inr ⟨old, mem_cons_of_mem task hold, hguid, heq⟩

/-! ### Shadows -/

/-- The identities of the live and the retired tasks. -/
def Shadow.identities (s : Shadow) : List TaskIdentity :=
  s.tasks.map (·.id) ++ s.retired.map (·.task.id)

/-- What holds of every published shadow. -/
structure Sound (s : Shadow) : Prop where
  actors : (s.tasks.map (·.id.actorGuid)).Nodup
  generations : (s.identities.map (·.taskGeneration)).Nodup
  issued : ∀ id ∈ s.identities, id.taskGeneration ≤ s.nextTaskGeneration
  episodeIssued : ∀ e, s.episode = some e → e.id.episodeGeneration ≤ s.nextEpisodeGeneration
  capped : s.retired.length ≤ retiredCapacity
  baiters : ∀ e, s.episode = some e → e.fireMageGuid ≠ e.hunterGuid
  assigned : ∀ task ∈ s.tasks, ∃ e, s.episode = some e ∧
    (task.id.actorGuid = e.fireMageGuid ∨ task.id.actorGuid = e.hunterGuid)

/-- Nothing is issued before the first observation. -/
theorem sound_init : Sound {} where
  actors := nodup_nil
  generations := nodup_nil
  issued := by simp [Shadow.identities]
  episodeIssued := by simp
  capped := Nat.zero_le _
  baiters := by simp
  assigned := by simp

/-- `t` goes on with a live task of `s` under its identity, in its state if that is terminal
and terminal states are `kept`; or its generation is newer than all of `s`. -/
def Continues (kept : Prop) (s : Shadow) (t : Task) : Prop :=
  (∃ task ∈ s.tasks, t.id = task.id ∧
    (kept → isTerminal task.state = true → t.state = task.state)) ∨
  s.nextTaskGeneration < t.id.taskGeneration

/-- How a shadow may become another one. -/
structure Evolves (kept : Prop) (s s' : Shadow) : Prop where
  issued : s.nextTaskGeneration ≤ s'.nextTaskGeneration
  episodeIssued : s.nextEpisodeGeneration ≤ s'.nextEpisodeGeneration
  episode : ∀ e, s'.episode = some e →
    s.episode = some e ∨ s.nextEpisodeGeneration < e.id.episodeGeneration
  tasks : ∀ t ∈ s'.tasks, Continues kept s t
  retired : ∀ r ∈ s'.retired, r ∈ s.retired ∨ Continues kept s r.task

variable (kept : Prop)

/-- A live task continues itself. -/
theorem continues_self (h : t ∈ s.tasks) : Continues kept s t := .inl ⟨t, h, rfl, fun _ _ => rfl⟩

/-- A shadow evolves from itself. -/
theorem Evolves.refl (s : Shadow) : Evolves kept s s where
  issued := le_rfl
  episodeIssued := le_rfl
  episode _ he := .inl he
  tasks _ ht := continues_self kept ht
  retired _ hr := .inl hr

/-- A task that continues a later shadow continues the earlier one. -/
theorem Continues.trans {kept : Prop} (h : Evolves kept s s') (ht : Continues kept s' t) :
    Continues kept s t := by
  rcases ht with ⟨mid, hmid, hid, hstate⟩ | hnew
  · rcases h.tasks mid hmid with ⟨old, hold, hid', hstate'⟩ | hnew
    · refine .inl ⟨old, hold, hid.trans hid', fun hkept hterminal => ?_⟩
      have hmidState := hstate' hkept hterminal
      rw [hstate hkept (hmidState ▸ hterminal), hmidState]
    · exact .inr (hid ▸ hnew)
  · exact .inr (lt_of_le_of_lt h.issued hnew)

/-- Evolutions compose. -/
theorem Evolves.trans {kept : Prop} {s s' s'' : Shadow} (h : Evolves kept s s')
    (h' : Evolves kept s' s'') : Evolves kept s s'' where
  issued := h.issued.trans h'.issued
  episodeIssued := h.episodeIssued.trans h'.episodeIssued
  episode e he := by
    rcases h'.episode e he with hsame | hnew
    · exact h.episode e hsame
    · exact .inr (lt_of_le_of_lt h.episodeIssued hnew)
  tasks t ht := (h'.tasks t ht).trans h
  retired r hr := by
    rcases h'.retired r hr with hsame | hcont
    · exact h.retired r hsame
    · exact .inr (hcont.trans h)

/-- At most `n` tasks are retired on the way, and every live task stays live or is one of
them. -/
def Retires (n : Nat) (s s' : Shadow) : Prop :=
  ∃ retiring : List RetiredTask, retiring.length ≤ n ∧
    s'.retired = newest (s.retired ++ retiring) ∧
    ∀ task ∈ s.tasks, (∃ t ∈ s'.tasks, t.id = task.id) ∨ ∃ r ∈ retiring, r.task.id = task.id

/-- Retirements compose. -/
theorem Retires.trans {n m : Nat} (h : Retires n s s') (h' : Retires m s' s'') :
    Retires (n + m) s s'' := by
  obtain ⟨first, hfirst, hretired, hkept⟩ := h
  obtain ⟨second, hsecond, hretired', hkept'⟩ := h'
  refine ⟨first ++ second, by rw [length_append]; omega, ?_, ?_⟩
  · rw [hretired', hretired, newest_append, append_assoc]
  · intro task htask
    rcases hkept task htask with ⟨t, ht, hid⟩ | ⟨r, hr, hid⟩
    · rcases hkept' t ht with ⟨t', ht', hid'⟩ | ⟨r, hr, hid'⟩
      · exact .inl ⟨t', ht', hid'.trans hid⟩
      · exact .inr ⟨r, mem_append_right _ hr, hid'.trans hid⟩
    · exact .inr ⟨r, mem_append_left _ hr, hid⟩

/-- A helper of `Reconcile` takes a sound shadow to a sound one it evolves to. -/
structure Advances (kept : Prop) (n : Nat) (s s' : Shadow) : Prop where
  sound : Sound s'
  evolves : Evolves kept s s'
  retires : Retires n s s'

/-- Advances compose. -/
theorem Advances.trans {kept : Prop} {n m : Nat} (h : Advances kept n s s')
    (h' : Advances kept m s' s'') : Advances kept (n + m) s s'' :=
  ⟨h'.sound, h.evolves.trans h'.evolves, h.retires.trans h'.retires⟩

/-- Nothing happens. -/
theorem Advances.refl (h : Sound s) : Advances kept 0 s s :=
  ⟨h, Evolves.refl kept s, [], le_rfl,
    by rw [append_nil, newest_of_le h.capped], fun task ht => .inl ⟨task, ht, rfl⟩⟩

/-! ### The episode -/

/-- Retiring the episode retires its tasks. -/
theorem retireEpisode_advances (h : Sound s) (reason : Retirement) (revision : UInt64) :
    Advances kept s.tasks.length s (retireEpisode s reason revision) := by
  have hretired : (retireEpisode s reason revision).retired =
      newest (s.retired ++ s.tasks.map fun task => retiredRecord task reason revision) :=
    foldl_retireTask reason revision s.tasks h.capped
  have hids : (retireEpisode s reason revision).identities.Subperm s.identities := by
    have hsub : (newest (s.retired ++
        s.tasks.map fun task => retiredRecord task reason revision)).Sublist
        (s.retired ++ s.tasks.map fun task => retiredRecord task reason revision) :=
      drop_sublist _ _
    rw [Shadow.identities, Shadow.identities, hretired]
    refine (hsub.map (·.task.id)).subperm.trans ?_
    rw [map_append, map_map]
    exact perm_append_comm.subperm
  refine ⟨?_, ?_, ?_⟩
  · exact
      { actors := nodup_nil
        generations := by
          obtain ⟨ids, hperm, hsub⟩ := hids
          exact (hperm.map _).nodup_iff.mp (h.generations.sublist (hsub.map _))
        issued := fun id hid => h.issued id (hids.subset hid)
        episodeIssued := fun e he => nomatch he
        capped := by
          rw [hretired]
          exact length_newest_le _
        baiters := fun e he => nomatch he
        assigned := fun task ht => absurd ht not_mem_nil }
  · exact
      { issued := le_rfl
        episodeIssued := le_rfl
        episode := fun e he => nomatch he
        tasks := fun t ht => absurd ht not_mem_nil
        retired := by
          intro r hr
          rw [hretired] at hr
          rcases mem_append.mp (mem_of_mem_drop hr) with hr | hr
          · exact .inl hr
          · obtain ⟨task, htask, rfl⟩ := mem_map.mp hr
            exact .inr (.inl ⟨task, htask, rfl, fun _ hterminal =>
              retiredRecord_state hterminal reason revision⟩) }
  · refine ⟨s.tasks.map fun task => retiredRecord task reason revision,
      (length_map _).le, hretired, fun task htask => .inr ?_⟩
    exact ⟨_, mem_map_of_mem htask, rfl⟩

/-- A desired episode has two different baiters. -/
theorem desiredEpisode_baiters {o : Observation} {e : Episode}
    (h : desiredEpisode hypot o = some e) : e.fireMageGuid ≠ e.hunterGuid := by
  unfold desiredEpisode at h
  split at h
  · split at h
    · cases h
    next hgate =>
    split at h
    · cases h
    split at h
    · cases h
    split at h
    · cases h
    cases Option.some.inj h
    simp only [Bool.or_eq_true, not_or, beq_iff_eq] at hgate
    exact hgate.2
  · cases h

/-- Beginning an episode issues the next episode generation. -/
theorem beginEpisode_advances (h : Sound s) {desired : Option Episode}
    (hdesired : ∀ e, desired = some e → e.fireMageGuid ≠ e.hunterGuid) :
    Advances kept 0 s (beginEpisode s desired) := by
  unfold beginEpisode
  split
  · next nextEpisode hnone =>
    have htasks : s.tasks = [] := by
      rw [eq_nil_iff_forall_not_mem]
      intro task htask
      obtain ⟨e, he, -⟩ := h.assigned task htask
      rw [hnone] at he
      cases he
    refine ⟨?_, ?_, [], le_rfl, ?_, fun task ht => .inl ⟨task, ht, rfl⟩⟩
    · exact
        { actors := h.actors
          generations := h.generations
          issued := h.issued
          episodeIssued := by
            intro e he
            cases Option.some.inj he
            exact le_rfl
          capped := h.capped
          baiters := by
            intro e he
            cases Option.some.inj he
            exact hdesired nextEpisode rfl
          assigned := by
            intro task htask
            change task ∈ s.tasks at htask
            rw [htasks] at htask
            exact absurd htask not_mem_nil }
    · exact
        { issued := le_rfl
          episodeIssued := Nat.le_succ _
          episode := by
            intro e he
            cases Option.some.inj he
            exact .inr (Nat.lt_succ_self _)
          tasks := fun t ht => continues_self kept ht
          retired := fun r hr => .inl hr }
    · rw [append_nil, newest_of_le h.capped]
  · exact Advances.refl kept h

/-- An episode has at most two live tasks. -/
theorem length_tasks_le (h : Sound s) : s.tasks.length ≤ 2 := by
  cases htasks : s.tasks with
  | nil => exact Nat.zero_le _
  | cons task rest =>
    obtain ⟨e, he, -⟩ := h.assigned task (htasks ▸ mem_cons_self)
    have hsub : s.tasks.map (·.id.actorGuid) ⊆ [e.fireMageGuid, e.hunterGuid] := by
      intro guid hguid
      obtain ⟨t, ht, rfl⟩ := mem_map.mp hguid
      obtain ⟨e', he', hbaiter⟩ := h.assigned t ht
      obtain rfl : e = e' := Option.some.inj (he.symm.trans he')
      rcases hbaiter with heq | heq
      · rw [heq]
        exact mem_cons_self
      · rw [heq]
        exact mem_cons_of_mem _ mem_cons_self
    have hle := (h.actors.subperm hsub).length_le
    rw [length_map, htasks] at hle
    exact hle

variable (hypot) in
/-- `ReconcileEpisode`. -/
theorem reconcileEpisode_advances (h : Sound s) (o : Observation) :
    Advances kept 2 s (reconcileEpisode s (desiredEpisode hypot o) o) := by
  have hbegin (t : Shadow) (ht : Sound t) :
      Advances kept 0 t (beginEpisode t (desiredEpisode hypot o)) :=
    beginEpisode_advances kept ht fun _ he => desiredEpisode_baiters he
  have hweaken {n m : Nat} {t t' : Shadow} (hle : n ≤ m) (ht : Advances kept n t t') :
      Advances kept m t t' := by
    obtain ⟨retiring, hlen, hrest⟩ := ht.retires
    exact ⟨ht.sound, ht.evolves, retiring, hlen.trans hle, hrest⟩
  unfold reconcileEpisode
  simp only
  split
  · exact hweaken (Nat.zero_le 2) (hbegin s h)
  split
  · exact hweaken (Nat.zero_le 2) (hbegin s h)
  · next reason _ =>
    have hretire := retireEpisode_advances kept h reason o.board.revision
    exact hweaken (length_tasks_le h) (hretire.trans (hbegin _ hretire.sound))

/-! ### The tasks of one actor -/

/-- The task `FindTask` finds is live and the actor's. -/
theorem findTask_some {tasks : List Task} (h : findTask tasks guid = some task) :
    task ∈ tasks ∧ task.id.actorGuid = guid := by
  refine ⟨mem_of_find?_eq_some h, ?_⟩
  have hguid := find?_some h
  exact beq_iff_eq.mp hguid

/-- With one task for each actor, the found task is the only one that is filtered out. -/
theorem findTask_perm {tasks : List Task} (hactors : (tasks.map (·.id.actorGuid)).Nodup)
    (h : findTask tasks guid = some task) :
    tasks.Perm (task :: tasks.filter (·.id.actorGuid != guid)) := by
  induction tasks with
  | nil => cases h
  | cons first rest ih =>
    rw [map_cons, nodup_cons] at hactors
    rw [findTask, find?_cons] at h
    split at h
    · next hguid =>
      cases Option.some.inj h
      rw [beq_iff_eq] at hguid
      have hrest : rest.filter (·.id.actorGuid != guid) = rest := by
        rw [filter_eq_self]
        intro other hother
        rw [bne_iff_ne]
        intro heq
        exact hactors.1 (mem_map.mpr ⟨other, hother, heq.trans hguid.symm⟩)
      rw [filter_cons_of_neg (by simp [hguid]), hrest]
    · next hguid =>
      have hfirst : (first.id.actorGuid != guid) = true := by simpa using hguid
      rw [filter_cons, if_pos hfirst]
      exact ((ih hactors.2 h).cons first).trans (List.Perm.swap _ _ _)

/-- Retiring an actor's task. -/
theorem retireActorTask_advances (h : Sound s) (guid : ObjectGuid) (actor : Option ActorObservation)
    (board : Blackboard) : Advances kept 1 s (retireActorTask s guid actor board) := by
  have hrefl : Advances kept 1 s s := by
    obtain ⟨retiring, hlen, hrest⟩ := (Advances.refl kept h).retires
    exact ⟨h, Evolves.refl kept s, retiring, hlen.trans (Nat.zero_le 1), hrest⟩
  unfold retireActorTask
  split
  · next task actor hfind =>
    simp only
    split
    · obtain ⟨htask, -⟩ := findTask_some hfind
      have hperm := findTask_perm h.actors hfind
      have hsub : (s.tasks.filter (·.id.actorGuid != guid)).Sublist s.tasks := filter_sublist
      generalize hrecord : retiredRecord task
        (if (!actor.alive) = true then .actorDied else .actorLifeChanged) board.revision = record
      have hid : record.task.id = task.id := by rw [← hrecord, retiredRecord_id]
      have hretired : retireTask task
          (if (!actor.alive) = true then .actorDied else .actorLifeChanged)
          board.revision s.retired = newest (s.retired ++ [record]) := by
        rw [← hrecord]
        rfl
      rw [hretired]
      have hids : ((s.tasks.filter (·.id.actorGuid != guid)).map (·.id) ++
          (newest (s.retired ++ [record])).map (·.task.id)).Subperm s.identities := by
        have hdrop : (newest (s.retired ++ [record])).Sublist (s.retired ++ [record]) :=
          drop_sublist _ _
        refine ((hdrop.map (·.task.id)).append_left _).subperm.trans (List.Perm.subperm ?_)
        rw [map_append, map_singleton, hid, Shadow.identities]
        refine List.Perm.trans ?_ ((hperm.map (·.id)).append_right _).symm
        rw [← append_assoc]
        exact perm_append_comm
      refine ⟨?_, ?_, ?_⟩
      · exact
          { actors := h.actors.sublist (hsub.map _)
            generations := by
              obtain ⟨ids, hp, hs⟩ := hids
              exact (hp.map _).nodup_iff.mp (h.generations.sublist (hs.map _))
            issued := fun id hmem => h.issued id (hids.subset hmem)
            episodeIssued := h.episodeIssued
            capped := length_newest_le _
            baiters := h.baiters
            assigned := fun t ht => h.assigned t (hsub.subset ht) }
      · exact
          { issued := le_rfl
            episodeIssued := le_rfl
            episode := fun e he => .inl he
            tasks := fun t ht => continues_self kept (hsub.subset ht)
            retired := by
              intro r hr
              rcases mem_append.mp (mem_of_mem_drop hr) with hr | hr
              · exact .inl hr
              · obtain rfl := mem_singleton.mp hr
                refine .inr (.inl ⟨task, htask, hid, fun _ hterminal => ?_⟩)
                rw [← hrecord]
                exact retiredRecord_state hterminal _ _ }
      · refine ⟨[record], le_rfl, rfl, fun t ht => ?_⟩
        rcases mem_cons.mp (hperm.mem_iff.mp ht) with rfl | ht
        · exact .inr ⟨record, mem_singleton_self _, hid⟩
        · exact .inl ⟨t, ht, rfl⟩
    · exact hrefl
  · exact hrefl

variable (hypot) in
/-- Creating a task for one of the episode's baiters issues the next generation. -/
theorem createActorTask_advances (h : Sound s) {episode : Episode}
    (hepisode : s.episode = some episode)
    (hguid : guid = episode.fireMageGuid ∨ guid = episode.hunterGuid)
    (actor : Option ActorObservation) (board : Blackboard) :
    Advances kept 0 s (createActorTask hypot s episode guid actor board) := by
  unfold createActorTask
  split
  · next actor hnone =>
    split
    · generalize hnew : createdTask hypot episode guid (s.nextTaskGeneration + 1) actor board =
        created
      have hid : created.id = ⟨episode.id, guid, actor.life, s.nextTaskGeneration + 1⟩ := by
        rw [← hnew]
        rfl
      have hids : ((s.tasks ++ [created]).map (·.id) ++ s.retired.map (·.task.id)).Perm
          (created.id :: s.identities) := by
        rw [map_append, map_singleton, append_assoc]
        exact perm_middle
      have hfresh : ∀ id ∈ s.identities, id.taskGeneration < created.id.taskGeneration := by
        intro id hmem
        rw [hid]
        exact Nat.lt_succ_of_le (h.issued id hmem)
      refine ⟨?_, ?_, [], le_rfl, ?_, fun t ht => .inl ⟨t, mem_append_left _ ht, rfl⟩⟩
      · exact
          { actors := by
              rw [map_append, map_singleton, hid]
              rw [nodup_append]
              refine ⟨h.actors, nodup_singleton _, fun g hg g' hg' heq => ?_⟩
              obtain ⟨t, ht, rfl⟩ := mem_map.mp hg
              rw [mem_singleton.mp hg'] at heq
              exact find?_eq_none.mp hnone t ht (beq_iff_eq.mpr heq)
            generations := by
              change (((s.tasks ++ [created]).map (·.id) ++ s.retired.map (·.task.id)).map
                (·.taskGeneration)).Nodup
              rw [(hids.map _).nodup_iff, map_cons, nodup_cons]
              refine ⟨fun hmem => ?_, h.generations⟩
              obtain ⟨id, hidMem, heq⟩ := mem_map.mp hmem
              exact absurd heq (hfresh id hidMem).ne
            issued := by
              intro id hmem
              rcases mem_cons.mp (hids.mem_iff.mp hmem) with rfl | hmem
              · rw [hid]
              · exact Nat.le_succ_of_le (h.issued id hmem)
            episodeIssued := h.episodeIssued
            capped := h.capped
            baiters := h.baiters
            assigned := by
              intro t ht
              rcases mem_append.mp ht with ht | ht
              · exact h.assigned t ht
              · rw [mem_singleton.mp ht, hid]
                exact ⟨episode, hepisode, hguid⟩ }
      · exact
          { issued := Nat.le_succ _
            episodeIssued := le_rfl
            episode := fun e he => .inl he
            tasks := by
              intro t ht
              rcases mem_append.mp ht with ht | ht
              · exact continues_self kept ht
              · rw [mem_singleton.mp ht]
                right
                rw [hid]
                exact Nat.lt_succ_self _
            retired := fun r hr => .inl hr }
      · rw [append_nil, newest_of_le h.capped]
    · exact Advances.refl kept h
  · exact Advances.refl kept h

variable (hypot) in
/-- Advancing or suspending an actor's task keeps terminal states, if an actor with a
terminal task is observed. -/
theorem advanceActorTask_advances (h : Sound s) (guid : ObjectGuid)
    (actor : Option ActorObservation) (board : Blackboard)
    (hkept : kept → ∀ task ∈ s.tasks, task.id.actorGuid = guid →
      isTerminal task.state = true → actor.isSome = true) :
    Advances kept 0 s (advanceActorTask hypot s guid actor board) := by
  obtain ⟨f, hresult, hid, hobserved⟩ : ∃ f, advanceActorTask hypot s guid actor board =
      { s with tasks := modifyTask guid f s.tasks } ∧ (∀ task, (f task).id = task.id) ∧
      ∀ task, isTerminal task.state = true → actor.isSome = true →
        (f task).state = task.state := by
    cases actor with
    | none => exact ⟨suspendUnobserved board, rfl, fun _ => rfl, fun _ _ h => Bool.noConfusion h⟩
    | some actor =>
      exact ⟨fun task => observe hypot task actor board, rfl,
        fun task => observe_id task actor board,
        fun _ hterminal _ => congrArg Task.state (observe_of_terminal hterminal actor board)⟩
  have hstate : ∀ task ∈ s.tasks, task.id.actorGuid = guid → kept →
      isTerminal task.state = true → (f task).state = task.state := by
    intro task htask hguid hk hterminal
    exact hobserved task hterminal (hkept hk task htask hguid hterminal)
  have hmap := map_id_modifyTask hid guid s.tasks
  have hactors : (modifyTask guid f s.tasks).map (·.id.actorGuid) =
      s.tasks.map (·.id.actorGuid) := by
    have := congrArg (map TaskIdentity.actorGuid) hmap
    rwa [map_map, map_map] at this
  have hids : Shadow.identities { s with tasks := modifyTask guid f s.tasks } =
      s.identities := by
    rw [Shadow.identities, Shadow.identities, hmap]
  rw [hresult]
  refine ⟨?_, ?_, [], le_rfl, ?_, ?_⟩
  · exact
      { actors := by
          rw [hactors]
          exact h.actors
        generations := by
          rw [hids]
          exact h.generations
        issued := by
          rw [hids]
          exact h.issued
        episodeIssued := h.episodeIssued
        capped := h.capped
        baiters := h.baiters
        assigned := by
          intro t ht
          rcases mem_modifyTask ht with ht | ⟨task, htask, -, rfl⟩
          · exact h.assigned t ht
          · rw [hid]
            exact h.assigned task htask }
  · exact
      { issued := le_rfl
        episodeIssued := le_rfl
        episode := fun e he => .inl he
        tasks := by
          intro t ht
          rcases mem_modifyTask ht with ht | ⟨task, htask, hguid, rfl⟩
          · exact continues_self kept ht
          · exact .inl ⟨task, htask, hid task, hstate task htask hguid⟩
        retired := fun r hr => .inl hr }
  · rw [append_nil, newest_of_le h.capped]
  · intro task htask
    left
    have hmem : task.id ∈ (modifyTask guid f s.tasks).map (·.id) := by
      rw [hmap]
      exact mem_map_of_mem htask
    obtain ⟨t, ht, heq⟩ := mem_map.mp hmem
    exact ⟨t, ht, heq⟩

/-! ### Observations -/

variable (hypot) in
/-- The helpers for one actor leave the episode alone. -/
theorem reconcileActorTask_episode (episode : Episode) (actors : List ActorObservation)
    (board : Blackboard) (s : Shadow) (guid : ObjectGuid) :
    (reconcileActorTask hypot episode actors board s guid).episode = s.episode := by
  have hretire (t : Shadow) (actor : Option ActorObservation) :
      (retireActorTask t guid actor board).episode = t.episode := by
    unfold retireActorTask
    split
    · simp only
      split
      · rfl
      · rfl
    · rfl
  have hcreate (t : Shadow) (actor : Option ActorObservation) :
      (createActorTask hypot t episode guid actor board).episode = t.episode := by
    unfold createActorTask
    split
    · split
      · rfl
      · rfl
    · rfl
  unfold reconcileActorTask
  exact (hcreate _ _).trans (hretire _ _)

/-- The tasks of other actors are left alone. -/
theorem mem_reconcileActorTask_other {episode : Episode} {actors : List ActorObservation}
    {board : Blackboard} (h : t ∈ (reconcileActorTask hypot episode actors board s guid).tasks)
    (hother : t.id.actorGuid ≠ guid) : t ∈ s.tasks := by
  have hretire (actor : Option ActorObservation)
      (ht : t ∈ (retireActorTask s guid actor board).tasks) : t ∈ s.tasks := by
    unfold retireActorTask at ht
    split at ht
    · simp only at ht
      split at ht
      · exact mem_of_mem_filter ht
      · exact ht
    · exact ht
  have hcreate (u : Shadow) (actor : Option ActorObservation)
      (ht : t ∈ (createActorTask hypot u episode guid actor board).tasks) : t ∈ u.tasks := by
    unfold createActorTask at ht
    split at ht
    · split at ht
      · rcases mem_append.mp ht with ht | ht
        · exact ht
        · rw [mem_singleton.mp ht] at hother
          exact absurd rfl hother
      · exact ht
    · exact ht
  unfold reconcileActorTask at h
  simp only at h
  rcases mem_modifyTask h with h | ⟨task, -, hguid, heq⟩
  · exact hretire _ (hcreate _ _ h)
  · have hid : t.id = task.id := by
      rw [heq]
      cases findActor actors guid with
      | none => rfl
      | some actor => exact observe_id task actor board
    exact absurd (hid ▸ hguid) hother

variable (hypot) in
/-- `ReconcileActorTask` for one of the episode's baiters. -/
theorem reconcileActorTask_advances (h : Sound s) {episode : Episode}
    (hepisode : s.episode = some episode)
    (hguid : guid = episode.fireMageGuid ∨ guid = episode.hunterGuid)
    (actors : List ActorObservation) (board : Blackboard)
    (hkept : kept → ∀ task ∈ s.tasks, task.id.actorGuid = guid →
      isTerminal task.state = true → (findActor actors guid).isSome = true) :
    Advances kept 2 s (reconcileActorTask hypot episode actors board s guid) := by
  unfold reconcileActorTask
  simp only
  have hfirst := retireActorTask_advances kept h guid (findActor actors guid) board
  have hepisode' : (retireActorTask s guid (findActor actors guid) board).episode =
      some episode := by
    rw [← hepisode]
    unfold retireActorTask
    split
    · simp only
      split
      · rfl
      · rfl
    · rfl
  have hsecond := createActorTask_advances hypot kept hfirst.sound hepisode' hguid
    (findActor actors guid) board
  have hthird := advanceActorTask_advances hypot kept hsecond.sound guid
    (findActor actors guid) board (by
      intro hk task htask hactor hterminal
      cases hfind : findActor actors guid with
      | some actor => rfl
      | none =>
        -- nothing was retired or created: the task is one of `s`
        rw [hfind] at htask
        have hmem : task ∈ s.tasks := by
          unfold createActorTask retireActorTask at htask
          simp only at htask
          split at htask
          · next heq => cases heq
          · split at htask
            · next heq => cases heq
            · exact htask
        have hsome := hkept hk task hmem hactor hterminal
        rw [hfind] at hsome
        exact hsome)
  obtain ⟨retiring, hlen, hrest⟩ := (hfirst.trans (hsecond.trans hthird)).retires
  exact ⟨hthird.sound, hfirst.evolves.trans (hsecond.evolves.trans hthird.evolves), retiring,
    hlen.trans (by omega), hrest⟩

/-- No terminal task is left unobserved: on a new revision that does not retire the episode,
the actor of every terminal live task is among the observed actors. -/
def TerminalsObserved (hypot : Float32 → Float32 → Float32) (current : Option Shadow)
    (o : Observation) : Prop :=
  ∀ s, current = some s → s.sourceRevision ≠ o.facts.observationRevision →
    ∀ episode, s.episode = some episode →
      retirementReason episode (desiredEpisode hypot o) o.facts o.plan = none →
      ∀ task ∈ s.tasks, isTerminal task.state = true →
        (findActor o.actors task.id.actorGuid).isSome = true

/-- Without a retirement the episode's tasks go on as they are. -/
theorem reconcileEpisode_tasks {desired : Option Episode} {o : Observation}
    (h : task ∈ (reconcileEpisode s desired o).tasks) (hsound : Sound s) :
    task ∈ s.tasks ∧ ∃ episode, s.episode = some episode ∧
      retirementReason episode desired o.facts o.plan = none := by
  have hbegin (t : Shadow) : (beginEpisode t desired).tasks = t.tasks := by
    unfold beginEpisode
    split
    · rfl
    · rfl
  unfold reconcileEpisode at h
  simp only at h
  rw [hbegin] at h
  split at h
  · next hnone =>
    obtain ⟨e, he, -⟩ := hsound.assigned task h
    rw [hnone] at he
    cases he
  next episode hepisode =>
  split at h
  · next hreason => exact ⟨h, episode, hepisode, hreason⟩
  · exact nomatch h

variable (hypot) in
/-- `Reconcile` on a new revision. -/
theorem advanceShadow_advances (h : Sound s) (o : Observation)
    (hkept : kept → ∀ episode, s.episode = some episode →
      retirementReason episode (desiredEpisode hypot o) o.facts o.plan = none →
      ∀ task ∈ s.tasks, isTerminal task.state = true →
        (findActor o.actors task.id.actorGuid).isSome = true) :
    Advances kept 6 s (advanceShadow hypot s o) := by
  have hrevision : Advances kept 0 s { s with sourceRevision := o.facts.observationRevision } := by
    refine ⟨⟨h.actors, h.generations, h.issued, h.episodeIssued, h.capped, h.baiters,
      h.assigned⟩, ?_, [], le_rfl, ?_, fun task ht => .inl ⟨task, ht, rfl⟩⟩
    · exact ⟨le_rfl, le_rfl, fun e he => .inl he, fun t ht => continues_self kept ht,
        fun r hr => .inl hr⟩
    · rw [append_nil, newest_of_le h.capped]
  have hepisode := reconcileEpisode_advances hypot kept hrevision.sound o
  have hstart := hrevision.trans hepisode
  unfold advanceShadow
  simp only
  split
  · obtain ⟨retiring, hlen, hrest⟩ := hstart.retires
    exact ⟨hstart.sound, hstart.evolves, retiring, hlen.trans (by omega), hrest⟩
  next episode hcurrent =>
  generalize hs : reconcileEpisode { s with sourceRevision := o.facts.observationRevision }
    (desiredEpisode hypot o) o = t at hstart hcurrent
  have hterminal : kept → ∀ task ∈ t.tasks, isTerminal task.state = true →
      (findActor o.actors task.id.actorGuid).isSome = true := by
    intro hk task htask hterm
    rw [← hs] at htask
    obtain ⟨hmem, e, he, hnone⟩ := reconcileEpisode_tasks htask hrevision.sound
    exact hkept hk e he hnone task hmem hterm
  have hmage := reconcileActorTask_advances hypot kept hstart.sound hcurrent (.inl rfl)
    o.actors o.board (fun hk task htask hguid hterm => hguid ▸ hterminal hk task htask hterm)
  have hcurrent' := (reconcileActorTask_episode hypot episode o.actors o.board t
    episode.fireMageGuid).trans hcurrent
  have hhunter := reconcileActorTask_advances hypot kept hmage.sound hcurrent'
    (.inr rfl) o.actors o.board (by
      intro hk task htask hguid hterm
      have hne := hstart.sound.baiters episode hcurrent
      have hmem := mem_reconcileActorTask_other htask (by
        rw [hguid]
        exact hne.symm)
      exact hguid ▸ hterminal hk task hmem hterm)
  exact hstart.trans (hmage.trans hhunter)

variable (hypot) in
/-- `Reconcile`. -/
theorem reconcile_advances {current : Option Shadow} (h : Sound (current.getD {})) (o : Observation)
    (hkept : kept → TerminalsObserved hypot current o) :
    Advances kept 6 (current.getD {}) (reconcile hypot current o) := by
  cases current with
  | none =>
    apply advanceShadow_advances hypot kept h o
    intro hk episode hepisode
    cases hepisode
  | some s =>
    change Advances kept 6 s (if s.sourceRevision == o.facts.observationRevision then s
      else advanceShadow hypot s o)
    split
    · obtain ⟨retiring, hlen, hrest⟩ := (Advances.refl kept h).retires
      exact ⟨h, Evolves.refl kept s, retiring, hlen.trans (Nat.zero_le 6), hrest⟩
    · next hnew =>
      apply advanceShadow_advances hypot kept h o
      exact fun hk => hkept hk s rfl (fun heq => hnew (beq_iff_eq.mpr heq))

end TrinityCore.Magmaw.TransferLane
