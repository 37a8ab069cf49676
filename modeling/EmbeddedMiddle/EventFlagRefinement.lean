import EmbeddedMiddle.EventFlagThreads

/-!
# Critical sections as single steps

The program with mutex and condition variable refines the one in which each
critical section is one step: what the threads do to the flags and see of them
under the mutex happens in one order, and this order is a run of critical
sections with the same return values.
-/

namespace EmbeddedMiddle

open Foundation

universe u

namespace FlagPlace

/-- The critical sections of a step. -/
def shows : FlagPlace → FlagAction → List EventAction
  | .outside _, .wait wait => [.call wait]
  | .waitTesting _, .leave => [.observe]
  | .waitTesting _, .sleep => [.sleep]
  | .waitTesting _, .fail => [.sleep, .fail]
  | .waitAsleep _, .timeout => [.timeout]
  | .resetLocked _, .store => [.reset]
  | .setLocked flags, .store => [.set flags]
  | .clearLocked, .store => [.clear]
  | _, _ => []

/-- Where a thread is between its critical sections. -/
def Refines : FlagPlace → EventPlace → Prop
  | .outside ret, place => place = .outside ret
  | .waitCalled wait, place => place = .waiting wait false
  | .waitTesting wait, place => ∃ asleep, place = .waiting wait asleep
  | .waitAsleep wait, place => place = .waiting wait true
  | .waitTimedOut _, place => place = .outside emErrTimeout
  | .waitEnding wait ret, place => place =
      if ret = emSuccess ∧ wait.resetFlag = true then .resetting wait.flags
      else .outside ret
  | .resetCalled flags, place | .resetLocked flags, place =>
      place = .resetting flags
  | .resetEnding, place | .setStored, place | .setEnding, place
  | .clearEnding, place => place = .outside emSuccess
  | .setCalled _, place | .setLocked _, place | .clearCalled, place
  | .clearLocked, place => ∃ ret, place = .outside ret

end FlagPlace

namespace FlagThreads

variable {Thread : Type u}

/-- A step with its critical sections. -/
abbrev Label (Thread : Type u) := (Thread × FlagAction) × List EventAction

def sections (label : Label Thread) : List (Thread × EventAction) :=
  label.2.map (label.1.1, ·)

structure Refines (state : FlagThreads Thread) (coarse : EventThreads Thread) :
    Prop where
  ef_eq : coarse.shared.ef = state.shared.ef
  places : ∀ thread, (state.place thread).Refines (coarse.place thread)

variable [DecidableEq Thread]

def SeenStep (before : FlagThreads Thread) (label : Label Thread)
    (after : FlagThreads Thread) : Prop :=
  before.Step label.1 after ∧
    label.2 = (before.place label.1.1).shows label.1.2

namespace Refines

variable {shared next : FlagShared Thread} {place : Thread → FlagPlace}
  {thread : Thread} {new : FlagPlace} {coarse : EventThreads Thread}

theorem silent (refines : Refines ⟨shared, place⟩ coarse)
    (ef_eq : next.ef = shared.ef) (moved : new.Refines (coarse.place thread)) :
    Refines ⟨next, Function.update place thread new⟩ coarse := by
  refine ⟨refines.ef_eq.trans ef_eq.symm, ?_⟩
  exact (Function.forall_update_iff place fun other place =>
    place.Refines (coarse.place other)).mpr
      ⟨moved, fun other _ => refines.places other⟩

theorem moved (refines : Refines ⟨shared, place⟩ coarse)
    {watching : EventShared Thread} {there : EventPlace}
    (ef_eq : watching.ef = next.ef) (moved : new.Refines there) :
    Refines ⟨next, Function.update place thread new⟩
      ⟨watching, Function.update coarse.place thread there⟩ := by
  refine ⟨ef_eq, ?_⟩
  intro other
  dsimp only
  by_cases mover : other = thread
  · subst mover
    rwa [Function.update_self, Function.update_self]
  · rw [Function.update_of_ne mover, Function.update_of_ne mover]
    exact refines.places other

end Refines

/-- One critical section of a thread. -/
theorem run_section {coarse : EventThreads Thread} {thread : Thread}
    {there new : EventPlace} {action : EventAction}
    {watching : EventShared Thread} (here : coarse.place thread = there)
    (taken : EventProgram thread coarse.shared there action watching new) :
    Run EventThreads.Step coarse [(thread, action)]
      ⟨watching, Function.update coarse.place thread new⟩ := by
  subst here
  exact .cons (.move taken) .nil

theorem Refines.step {before after : FlagThreads Thread}
    {coarse : EventThreads Thread} (refines : Refines before coarse)
    {label : Label Thread} (taken : SeenStep before label after) :
    ∃ coarseAfter, Run EventThreads.Step coarse (sections label)
        coarseAfter ∧ Refines after coarseAfter := by
  obtain ⟨⟨thread, action⟩, shown⟩ := label
  obtain ⟨moved, isShown⟩ := taken
  obtain ⟨⟨ef, holder, asleep⟩, places⟩ := before
  obtain ⟨⟨watched, watcher⟩, coarsePlaces⟩ := coarse
  dsimp only at moved isShown
  obtain rfl : watched = ef := refines.ef_eq
  have there := refines.places thread
  dsimp only at there
  subst isShown
  cases moved with
  | move moved =>
      dsimp only at moved
      generalize here : places thread = old at moved there
      have silent : ∀ {next new}, next.ef = watched →
          new.Refines (coarsePlaces thread) →
          ∃ coarseAfter, Run EventThreads.Step
            ⟨⟨watched, watcher⟩, coarsePlaces⟩ [] coarseAfter ∧
            Refines ⟨next, Function.update places thread new⟩ coarseAfter :=
        fun same moved => ⟨_, .nil, refines.silent same moved⟩
      simp only [sections]
      cases moved with
      | wait =>
          exact ⟨_, run_section there .call, refines.moved rfl rfl⟩
      | waitLock => exact silent rfl ⟨false, there⟩
      | waitLeave ready =>
          obtain ⟨asleep, there⟩ := there
          refine ⟨_, run_section there (.observe ready), refines.moved rfl ?_⟩
          simp [FlagPlace.Refines]
      | waitSleep notReady =>
          obtain ⟨asleep, there⟩ := there
          exact ⟨_, run_section there (.sleep notReady),
            refines.moved rfl rfl⟩
      | @waitFail _ _ _ wait notReady =>
          obtain ⟨asleep, there⟩ := there
          have fallen : Run EventThreads.Step
              ⟨⟨watched, watcher⟩, coarsePlaces⟩ [(thread, .sleep)]
              ⟨⟨watched, watcher⟩, Function.update coarsePlaces thread
                (.waiting wait true)⟩ :=
            run_section there (.sleep notReady)
          have both := fallen.append
            (run_section (Function.update_self ..) .fail)
          rw [Function.update_idem] at both
          exact ⟨_, both, refines.moved rfl rfl⟩
      | waitWake => exact silent rfl there
      | waitRelock _ => exact silent rfl ⟨true, there⟩
      | waitTimeout limited _ =>
          exact ⟨_, run_section there (.timeout limited),
            refines.moved rfl rfl⟩
      | waitTimedOut => exact silent rfl there
      | waitUnlock =>
          apply silent rfl
          rw [there]
          split_ifs <;> rfl
      | resetLock => exact silent rfl there
      | resetStore =>
          exact ⟨_, run_section there .reset, refines.moved rfl rfl⟩
      | resetUnlock => exact silent rfl there
      | set => exact silent rfl ⟨_, there⟩
      | setLock => exact silent rfl there
      | setStore =>
          obtain ⟨ret, there⟩ := there
          exact ⟨_, run_section there .set, refines.moved rfl rfl⟩
      | setBroadcast => exact silent rfl there
      | setUnlock => exact silent rfl there
      | clear => exact silent rfl ⟨_, there⟩
      | clearLock => exact silent rfl there
      | clearStore =>
          obtain ⟨ret, there⟩ := there
          exact ⟨_, run_section there .clear, refines.moved rfl rfl⟩
      | clearUnlock => exact silent rfl there

end FlagThreads

/-- Every run of the threads with mutex and condition variable is a run of
critical sections: in the same order, with the same flags, and every call that
has returned has the same return value in both. -/
theorem flags_refine_sections {Thread : Type u} [DecidableEq Thread]
    {labels : List (FlagThreads.Label Thread)} {state : FlagThreads Thread}
    (run : Run FlagThreads.SeenStep FlagThreads.start labels state) :
    ∃ coarse : EventThreads Thread,
      Run EventThreads.Step EventThreads.start
          (labels.flatMap FlagThreads.sections) coarse ∧
        coarse.shared.ef = state.shared.ef ∧
        ∀ thread,
          (state.place thread).Refines (coarse.place thread) := by
  have start : FlagThreads.Refines (FlagThreads.start : FlagThreads Thread)
      EventThreads.start := ⟨rfl, fun _ => rfl⟩
  obtain ⟨coarse, coarseRun, refines⟩ := run.refine FlagThreads.sections
    FlagThreads.Refines start
    (fun _ _ _ _ refines taken => refines.step taken)
  exact ⟨coarse, coarseRun, refines.ef_eq, refines.places⟩

/-- A thread sets the bit for which the other one sleeps. -/
theorem flags_refine_sections_two :
    ∃ (labels : List (FlagThreads.Label (Fin 2)))
      (state : FlagThreads (Fin 2)) (coarse : EventThreads (Fin 2)),
      Run FlagThreads.SeenStep FlagThreads.start labels state ∧
        Run EventThreads.Step EventThreads.start
          [(0, .call ⟨1#32, emNoTimeout, true⟩), (0, .sleep), (1, .set 1#32),
            (0, .observe)] coarse := by
  have run : ∃ state : FlagThreads (Fin 2),
      Run FlagThreads.SeenStep FlagThreads.start
        [((0, .wait ⟨1#32, emNoTimeout, true⟩),
            [.call ⟨1#32, emNoTimeout, true⟩]),
          ((0, .lock), []), ((0, .sleep), [.sleep]), ((1, .set 1#32), []),
          ((1, .lock), []), ((1, .store), [.set 1#32]),
          ((1, .broadcast), []), ((1, .unlock), []), ((0, .lock), []),
          ((0, .leave), [.observe])] state :=
    ⟨_, .cons ⟨.move .wait, rfl⟩ (.cons ⟨.move .waitLock, rfl⟩
      (.cons ⟨.move (.waitSleep (by decide)), rfl⟩
      (.cons ⟨.move .set, rfl⟩ (.cons ⟨.move .setLock, rfl⟩
      (.cons ⟨.move .setStore, rfl⟩ (.cons ⟨.move .setBroadcast, rfl⟩
      (.cons ⟨.move .setUnlock, rfl⟩
      (.cons ⟨.move (.waitRelock rfl), rfl⟩
      (.cons ⟨.move (.waitLeave (by decide)), rfl⟩ .nil)))))))))⟩
  obtain ⟨state, run⟩ := run
  obtain ⟨coarse, coarseRun, _⟩ := flags_refine_sections run
  exact ⟨_, state, coarse, run, coarseRun⟩

end EmbeddedMiddle
