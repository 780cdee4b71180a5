import TrinityCore.Magmaw.TransferLaneEvolution

/-!
# Identity and terminal states of transfer-lane tasks

Between any two shadows of a run every live task keeps its identity, generations are issued
once and in order, and terminal states stay as they are until one terminal task is left
unobserved.
-/

namespace TrinityCore.Magmaw.TransferLane

open List

open Encounter StateMachine

/-! ### Runs -/

/-- The shadow published after these observations. -/
def shadowAfter (hypot : Float32 → Float32 → Float32) (observations : List Observation) :
    Shadow := (run (step hypot) none observations).getD {}

/-- A run from a sound shadow ends in a sound one it evolves to. -/
theorem run_evolves (hypot : Float32 → Float32 → Float32) (kept : Prop)
    (observations : List Observation) (current : Option Shadow)
    (h : Sound (current.getD {}))
    (hkept : kept → Admits (step hypot) (TerminalsObserved hypot) current observations) :
    Sound ((run (step hypot) current observations).getD {}) ∧
      Evolves kept (current.getD {}) ((run (step hypot) current observations).getD {}) := by
  induction observations generalizing current with
  | nil => exact ⟨h, Evolves.refl kept _⟩
  | cons o observations ih =>
    have hone := reconcile_advances hypot kept h o fun hk => (hkept hk).1
    obtain ⟨hsound, hevolves⟩ := ih (step hypot current o) hone.sound
      fun hk => (hkept hk).2
    exact ⟨hsound, hone.evolves.trans hevolves⟩

/-- Generations are issued once, in increasing order, between an earlier and a later shadow. -/
structure FreshIdentities (earlier later : Shadow) : Prop where
  taskNew : ∀ t ∈ later.tasks, (∃ task ∈ earlier.tasks, task.id = t.id) ∨
    ∀ id ∈ earlier.identities, id.taskGeneration < t.id.taskGeneration
  taskReused : ∀ id ∈ earlier.identities, ∀ id' ∈ later.identities,
    id'.taskGeneration = id.taskGeneration → id' = id
  episodeNew : ∀ e e', earlier.episode = some e → later.episode = some e' →
    e' = e ∨ e.id.episodeGeneration < e'.id.episodeGeneration

/-- A task that is terminal in the earlier shadow has its state in the later one, live or
retired, and the retired list does not rewrite its records. -/
structure KeepsTerminal (earlier later : Shadow) : Prop where
  live : ∀ task ∈ earlier.tasks, isTerminal task.state = true → ∀ t ∈ later.tasks,
    t.id.taskGeneration = task.id.taskGeneration → t.state = task.state
  retiring : ∀ task ∈ earlier.tasks, isTerminal task.state = true → ∀ r ∈ later.retired,
    r.task.id.taskGeneration = task.id.taskGeneration → r.task.state = task.state
  retired : ∀ r ∈ earlier.retired, ∀ r' ∈ later.retired,
    r'.task.id.taskGeneration = r.task.id.taskGeneration → r' = r

variable {s : Shadow}

/-- A task known to a sound shadow is found by its generation. -/
private theorem identity_unique (h : Sound s) {id id' : TaskIdentity} (hid : id ∈ s.identities)
    (hid' : id' ∈ s.identities) (heq : id'.taskGeneration = id.taskGeneration) : id' = id :=
  inj_on_of_nodup_map h.generations hid' hid heq

private theorem mem_identities_task {task : Task} (h : task ∈ s.tasks) : task.id ∈ s.identities :=
  mem_append_left _ (mem_map_of_mem h)

private theorem mem_identities_retired {r : RetiredTask} (h : r ∈ s.retired) :
    r.task.id ∈ s.identities :=
  mem_append_right _ (mem_map_of_mem (f := fun r : RetiredTask => r.task.id) h)

/-- A task that continues an earlier shadow has the identity issued for its generation. -/
private theorem continues_identity {kept : Prop} (h : Sound s) {t : Task} (ht : Continues kept s t)
    {id : TaskIdentity} (hid : id ∈ s.identities) (heq : t.id.taskGeneration = id.taskGeneration) :
    ∃ task ∈ s.tasks, t.id = task.id ∧ task.id = id ∧
      (kept → isTerminal task.state = true → t.state = task.state) := by
  rcases ht with ⟨task, htask, hsame, hstate⟩ | hnew
  · have hunique := identity_unique h hid (mem_identities_task htask) (hsame ▸ heq)
    exact ⟨task, htask, hsame, hunique, hstate⟩
  · have hle := h.issued id hid
    omega

/-- An evolution issues generations once. -/
theorem Evolves.freshIdentities {kept : Prop} {s s' : Shadow} (h : Evolves kept s s')
    (hs : Sound s) : FreshIdentities s s' where
  taskNew := by
    intro t ht
    rcases h.tasks t ht with ⟨task, htask, hid, -⟩ | hnew
    · exact .inl ⟨task, htask, hid.symm⟩
    · exact .inr fun id hid => lt_of_le_of_lt (hs.issued id hid) hnew
  taskReused := by
    intro id hid id' hid' heq
    rcases mem_append.mp hid' with hlive | hretired
    · obtain ⟨t, ht, rfl⟩ := mem_map.mp hlive
      obtain ⟨task, -, hsame, hunique, -⟩ := continues_identity hs (h.tasks t ht) hid heq
      exact hsame.trans hunique
    · obtain ⟨r, hr, rfl⟩ := mem_map.mp hretired
      rcases h.retired r hr with hr | hcont
      · exact identity_unique hs hid (mem_identities_retired hr) heq
      · obtain ⟨task, -, hsame, hunique, -⟩ := continues_identity hs hcont hid heq
        exact hsame.trans hunique
  episodeNew := by
    intro e e' he he'
    rcases h.episode e' he' with hsame | hnew
    · exact .inl (Option.some.inj (hsame.symm.trans he))
    · exact .inr (lt_of_le_of_lt (hs.episodeIssued e he) hnew)

/-- A live and a retired task have different generations. -/
private theorem live_ne_retired (h : Sound s) {task : Task} (htask : task ∈ s.tasks)
    {r : RetiredTask} (hr : r ∈ s.retired) : r.task.id.taskGeneration ≠ task.id.taskGeneration := by
  have hnodup := h.generations
  rw [Shadow.identities, map_append, nodup_append] at hnodup
  have hlive : task.id.taskGeneration ∈ (s.tasks.map (·.id)).map (·.taskGeneration) :=
    mem_map_of_mem (mem_map_of_mem htask)
  have hretired : r.task.id.taskGeneration ∈
      (s.retired.map (·.task.id)).map (·.taskGeneration) :=
    mem_map_of_mem (mem_map_of_mem (f := fun r : RetiredTask => r.task.id) hr)
  exact fun heq => hnodup.2.2 _ hlive _ hretired heq.symm

/-- An evolution that keeps terminal states. -/
theorem Evolves.keepsTerminal {s' : Shadow} (h : Evolves True s s') (hs : Sound s) :
    KeepsTerminal s s' := by
  have hcontinued {task t : Task} (htask : task ∈ s.tasks)
      (hterminal : isTerminal task.state = true) (ht : Continues True s t)
      (heq : t.id.taskGeneration = task.id.taskGeneration) : t.state = task.state := by
    obtain ⟨old, hold, -, hunique, hstate⟩ :=
      continues_identity hs ht (mem_identities_task htask) heq
    have hsame : old = task := by
      apply inj_on_of_nodup_map hs.actors hold htask
      rw [hunique]
    rw [hsame] at hstate
    exact hstate trivial hterminal
  constructor
  · intro task htask hterminal t ht heq
    exact hcontinued htask hterminal (h.tasks t ht) heq
  · intro task htask hterminal r hr heq
    rcases h.retired r hr with hr | hcont
    · exact absurd heq (live_ne_retired hs htask hr)
    · exact hcontinued htask hterminal hcont heq
  · intro r hr r' hr' heq
    rcases h.retired r' hr' with hr' | hcont
    · have hnodup := hs.generations
      rw [Shadow.identities, map_append, nodup_append, map_map, map_map] at hnodup
      exact inj_on_of_nodup_map hnodup.2.1 hr' hr heq
    · obtain ⟨task, htask, hsame, -, -⟩ :=
        continues_identity hs hcont (mem_identities_retired hr) heq
      exact absurd (heq.symm.trans (congrArg TaskIdentity.taskGeneration hsame))
        (live_ne_retired hs htask hr)

/-- After every run there is one live task for an actor, no two tasks share a generation,
generations are fresh since every earlier shadow, and a live task is at the next observation
live or retired. In a run that leaves no terminal task unobserved, terminal tasks keep their
state, live or retired. -/
theorem transfer_lane_tasks (hypot : Float32 → Float32 → Float32)
    (observations : List Observation) :
    ((shadowAfter hypot observations).tasks.map (·.id.actorGuid)).Nodup ∧
    ((shadowAfter hypot observations).identities.map (·.taskGeneration)).Nodup ∧
    (∀ before, before <+: observations →
      FreshIdentities (shadowAfter hypot before) (shadowAfter hypot observations)) ∧
    (∀ before o, before ++ [o] <+: observations → ∀ task ∈ (shadowAfter hypot before).tasks,
      (∃ t ∈ (shadowAfter hypot (before ++ [o])).tasks, t.id = task.id) ∨
      ∃ r ∈ (shadowAfter hypot (before ++ [o])).retired, r.task.id = task.id) ∧
    (Admits (step hypot) (TerminalsObserved hypot) none observations →
      ∀ before, before <+: observations →
        KeepsTerminal (shadowAfter hypot before) (shadowAfter hypot observations)) := by
  have hsound (observations : List Observation) : Sound (shadowAfter hypot observations) :=
    (run_evolves hypot False observations none sound_init False.elim).1
  refine ⟨(hsound _).actors, (hsound _).generations, ?_, ?_, ?_⟩
  · rintro before ⟨rest, rfl⟩
    have hlater := run_evolves hypot False rest (run (step hypot) none before) (hsound before)
      False.elim
    rw [shadowAfter, shadowAfter, run_append]
    exact hlater.2.freshIdentities (hsound before)
  · intro before o _ task htask
    have hone := reconcile_advances hypot False (hsound before) o False.elim
    obtain ⟨retiring, hlen, hretired, hkept⟩ := hone.retires
    rw [shadowAfter, run_concat]
    rcases hkept task htask with hlive | ⟨r, hr, hid⟩
    · exact .inl hlive
    · refine .inr ⟨r, ?_, hid⟩
      change r ∈ (reconcile hypot (run (step hypot) none before) o).retired
      rw [hretired]
      exact mem_newest_append (hlen.trans (by decide)) hr
  · rintro hadmits before ⟨rest, rfl⟩
    have hlater := run_evolves hypot True rest (run (step hypot) none before) (hsound before)
      fun _ => ((admits_append before rest).mp hadmits).2
    rw [shadowAfter, shadowAfter, run_append]
    exact hlater.2.keepsTerminal (hsound before)

/-! ### A terminal task left unobserved -/

/-- The observation of a pillar with the mage at `x` in the room, the two baiters assigned. -/
private def pillarAt (revision : UInt64) (x : Float32) (actors : List ActorObservation) :
    Observation :=
  { facts :=
      { nativeEncounter := some {}
        observationRevision := revision
        lifecycleAuthoritative := true
        bosses := [⟨0, 0, 210⟩]
        pillar :=
          { active := .true, authoritative := true, generationKind := .observationEdge,
            generationValue := 1 } }
    board :=
      { revision := revision
        observedAtMs := 1000 * revision
        players := [{ guid := 7, kind := .player, alive := true, position := ⟨x, -30, 210⟩ }]
        navigationHints := [⟨0, -60, 210⟩] }
    plan :=
      { authoritative := true
        fireMageBaiter := { assigneeGuid := 7, epoch := 1, nonce := 1 }
        marksmanshipHunterBaiter := { assigneeGuid := 8, epoch := 1, nonce := 1 } }
    actors := actors }

/-- The mage observed at `x` in the room. -/
private def mageAt (x : Float32) : ActorObservation :=
  { guid := 7, life := { authoritative := true }, position := ⟨x, -30, 210⟩,
    positionObserved := true, alive := true }

/-- The Euclidean length, where it does not overflow. -/
private def length2d (x y : Float32) : Float32 := (x * x + y * y).sqrt

/-- The mage crosses to the other lane and arrives. -/
private def arrival : List Observation :=
  [pillarAt 1 (-18) [mageAt (-18)], pillarAt 2 18 [mageAt 18]]

/-- Then the mage stays where it is. -/
private def stays : List Observation := arrival ++ [pillarAt 3 18 [mageAt 18]]

theorem transfer_lane_tasks_arrival :
    (shadowAfter length2d stays).tasks.map (fun t => (t.id.taskGeneration, t.state)) =
      [(1, .succeeded)] ∧ KeepsTerminal (shadowAfter length2d arrival) (shadowAfter length2d stays) := by
  have hobserved : ∀ {current : Option Shadow} {o : Observation}, (∀ task ∈ (current.getD {}).tasks,
      (findActor o.actors task.id.actorGuid).isSome = true) →
        TerminalsObserved length2d current o := by
    intro current o h s hs _ _ _ _ task htask _
    rw [hs] at h
    exact h task htask
  have hadmits : Admits (step length2d) (TerminalsObserved length2d) none stays :=
    ⟨hobserved (by decide +kernel), hobserved (by decide +kernel), hobserved (by decide +kernel),
      trivial⟩
  exact ⟨by decide +kernel,
    (transfer_lane_tasks length2d stays).2.2.2.2 hadmits arrival (prefix_append _ _)⟩

/-- Then one observation lacks the mage. -/
private def unobserved : List Observation := arrival ++ [pillarAt 3 18 []]

/-- A succeeded task is suspended when its actor is not observed. -/
theorem succeeded_task_suspended :
    (shadowAfter length2d arrival).tasks.map (fun t => (t.id.taskGeneration, t.state)) =
      [(1, .succeeded)] ∧
    ¬ KeepsTerminal (shadowAfter length2d arrival) (shadowAfter length2d unobserved) := by
  have hbefore : (shadowAfter length2d arrival).tasks.map
      (fun t => (t.id.taskGeneration, t.state)) = [(1, .succeeded)] := by decide +kernel
  have hafter : (shadowAfter length2d unobserved).tasks.map
      (fun t => (t.id.taskGeneration, t.state)) = [(1, .suspended)] := by decide +kernel
  refine ⟨hbefore, fun hkeeps => ?_⟩
  obtain ⟨task, htask, hpair⟩ : ∃ task ∈ (shadowAfter length2d arrival).tasks,
      (task.id.taskGeneration, task.state) = (1, .succeeded) :=
    mem_map.mp (hbefore ▸ mem_singleton_self _)
  obtain ⟨t, ht, hpair'⟩ : ∃ t ∈ (shadowAfter length2d unobserved).tasks,
      (t.id.taskGeneration, t.state) = (1, .suspended) :=
    mem_map.mp (hafter ▸ mem_singleton_self _)
  obtain ⟨hgeneration, hstate⟩ := Prod.mk.inj hpair
  obtain ⟨hgeneration', hstate'⟩ := Prod.mk.inj hpair'
  have hterminal : isTerminal task.state = true := by
    rw [hstate]
    rfl
  have hsame := hkeeps.live task htask hterminal t ht (hgeneration'.trans hgeneration.symm)
  rw [hstate, hstate'] at hsame
  exact PersistentTaskState.noConfusion hsame

end TrinityCore.Magmaw.TransferLane
