import EmbeddedMiddle.CommonDefs
import EmbeddedMiddle.Foundation.Interleaving
import EmbeddedMiddle.Foundation.WatchedBits

/-!
# Event flags

The event flags of `em_eventflag.c` under any number of threads.  A waiting
call with reset observes its condition in one critical section and takes its
bits away in a second one.
-/

namespace EmbeddedMiddle

open Foundation

universe u

structure EmEventflg where
  flags : BitVec 32
  deriving DecidableEq, Inhabited

def emEventflagInit : EmEventflg := ⟨0#32⟩

/-! ## Critical sections -/

/-- The loop of `em_eventflag_wait` ends when this holds. -/
def emEventflagReady (ef : EmEventflg) (flags : BitVec 32) : Bool :=
  ef.flags &&& flags != 0#32

/-- The second critical section of `em_eventflag_wait`. -/
def emEventflagReset (ef : EmEventflg) (flags : BitVec 32) : EmEventflg :=
  { ef with flags := ef.flags &&& ~~~flags }

def emEventflagSet (ef : EmEventflg) (flags : BitVec 32) : EmEventflg :=
  { ef with flags := ef.flags ||| flags }

def emEventflagClear (ef : EmEventflg) : EmEventflg :=
  { ef with flags := 0#32 }

/-! ## Threads -/

/-- The arguments of `em_eventflag_wait`. -/
structure EventWait where
  flags : BitVec 32
  timeoutMs : ℤ
  resetFlag : Bool

/-- A thread is outside, with the return value of its last call; in a waiting
call before the lock or, asleep, in the wait for the condition variable; or
between the two critical sections. -/
inductive EventPlace where
  | outside (ret : ℤ)
  | waiting (wait : EventWait) (asleep : Bool)
  | resetting (flags : BitVec 32)

inductive EventAction where
  | call (wait : EventWait)
  | sleep
  | observe
  | timeout
  | fail
  | reset
  | set (flags : BitVec 32)
  | clear

/-- The flags, and for each thread what it saw when it last observed its
condition, with the bits set since then. -/
structure EventShared (Thread : Type u) where
  ef : EmEventflg
  watcher : Thread → Observation 32

section Program

variable {Thread : Type u} [DecidableEq Thread]

/-- One critical section of a thread, or a step without the mutex.  A thread
that sleeps may wake up at any time. -/
inductive EventProgram (thread : Thread) :
    EventShared Thread → EventPlace → EventAction →
      EventShared Thread → EventPlace → Prop where
  | call {shared ret wait} :
      EventProgram thread shared (.outside ret) (.call wait)
        shared (.waiting wait false)
  | sleep {shared wait asleep} :
      emEventflagReady shared.ef wait.flags = false →
      EventProgram thread shared (.waiting wait asleep) .sleep
        shared (.waiting wait true)
  | observe {ef watcher wait asleep} :
      emEventflagReady ef wait.flags = true →
      EventProgram thread ⟨ef, watcher⟩ (.waiting wait asleep) .observe
        ⟨ef, Function.update watcher thread (.observe wait.flags ef.flags)⟩
        (if wait.resetFlag then .resetting wait.flags
          else .outside emSuccess)
  | timeout {shared wait} :
      wait.timeoutMs ≠ emNoTimeout →
      EventProgram thread shared (.waiting wait true) .timeout
        shared (.outside emErrTimeout)
  | fail {shared wait} :
      EventProgram thread shared (.waiting wait true) .fail
        shared (.outside emError)
  | reset {ef watcher flags} :
      EventProgram thread ⟨ef, watcher⟩ (.resetting flags) .reset
        ⟨emEventflagReset ef flags,
          fun other => (watcher other).without (watcher thread).takes⟩
        (.outside emSuccess)
  | set {ef watcher ret flags} :
      EventProgram thread ⟨ef, watcher⟩ (.outside ret) (.set flags)
        ⟨emEventflagSet ef flags, fun other => (watcher other).set flags⟩
        (.outside emSuccess)
  | clear {ef watcher ret} :
      EventProgram thread ⟨ef, watcher⟩ (.outside ret) .clear
        ⟨emEventflagClear ef, fun other => (watcher other).without ef.flags⟩
        (.outside emSuccess)

end Program

abbrev EventThreads (Thread : Type u) :=
  Threads Thread (EventShared Thread) EventPlace

namespace EventThreads

variable {Thread : Type u} [DecidableEq Thread]

abbrev Step : EventThreads Thread → Thread × EventAction →
    EventThreads Thread → Prop :=
  Threads.Step EventProgram

/-- Nobody has called yet. -/
def start : EventThreads Thread :=
  ⟨⟨emEventflagInit, fun _ => .observe 0#32 0#32⟩,
    fun _ => .outside emSuccess⟩

/-- A reset takes only bits that the thread may take, as it saw them, and every
bit set since it saw them is set afterwards, unless somebody who had seen it
took it away. -/
def KeepsEvents (before : EventThreads Thread)
    (label : Thread × EventAction) (after : EventThreads Thread) : Prop :=
  label.2 = .reset →
    BitsIn (before.shared.ef.flags &&& ~~~after.shared.ef.flags)
        (before.shared.watcher label.1).takes ∧
      BitsIn (before.shared.watcher label.1).fresh after.shared.ef.flags

/-- None of the bits that the thread is about to take has been set since the
thread observed its condition. -/
def Stale (before : EventThreads Thread) (label : Thread × EventAction) :
    Prop :=
  label.2 = .reset →
    (before.shared.watcher label.1).fresh &&&
      (before.shared.watcher label.1).mask = 0#32

/-- Every thread's observation fits the flags; a thread that is about to reset
has the mask of its call. -/
structure Watched (state : EventThreads Thread) : Prop where
  tracks : ∀ thread,
    (state.shared.watcher thread).Tracks state.shared.ef.flags
  mask : ∀ thread flags, state.place thread = .resetting flags →
    (state.shared.watcher thread).mask = flags

namespace Watched

omit [DecidableEq Thread] in
theorem start : (start : EventThreads Thread).Watched := by
  constructor
  · intro thread
    exact Observation.tracks_observe _ _
  · intro thread flags there
    cases there

/-- The moved thread goes where it may reset with its mask, if at all; the
masks of the others stay. -/
theorem move {ef next : EmEventflg} {watcher new : Thread → Observation 32}
    {place : Thread → EventPlace} {thread : Thread} {target : EventPlace}
    (watched : Watched ⟨⟨ef, watcher⟩, place⟩)
    (tracks : ∀ other, (new other).Tracks next.flags)
    (others : ∀ other, other ≠ thread →
      (new other).mask = (watcher other).mask)
    (own : ∀ flags, target = .resetting flags → (new thread).mask = flags) :
    Watched ⟨⟨next, new⟩, Function.update place thread target⟩ := by
  refine ⟨tracks, ?_⟩
  intro other flags there
  change Function.update place thread target other = _ at there
  rcases update_eq_cases there with ⟨same, isNew⟩ | ⟨different, before⟩
  · rw [same]
    exact own flags isNew
  · exact (others other different).trans (watched.mask other flags before)

variable {before after : EventThreads Thread}
  {label : Thread × EventAction}

/-- The guard tells exactly which resets lose nothing. -/
theorem keepsEvents_iff (watched : before.Watched)
    (taken : EventThreads.Step before label after) :
    before.KeepsEvents label after ↔ before.Stale label := by
  obtain ⟨⟨ef, watcher⟩, place⟩ := before
  cases taken with
  | @move thread action shared target moved =>
      dsimp only at moved
      generalize here : place thread = old at moved
      cases moved with
      | reset =>
          have isMask := watched.mask thread _ here
          have tracks := watched.tracks thread
          dsimp only at isMask tracks
          simp only [KeepsEvents, Stale, forall_true_left, emEventflagReset]
          rw [← isMask]
          exact tracks.stale_iff
      | call | sleep _ | observe _ | timeout _ | fail | set | clear =>
          simp [KeepsEvents, Stale]

theorem step (watched : before.Watched)
    (taken : Guarded Stale EventThreads.Step before label after) :
    after.Watched := by
  obtain ⟨stale, taken⟩ := taken
  obtain ⟨⟨ef, watcher⟩, place⟩ := before
  have tracks := watched.tracks
  dsimp only at tracks
  cases taken with
  | @move thread action shared target moved =>
      dsimp only at moved
      generalize here : place thread = old at moved
      cases moved with
      | call =>
          exact watched.move tracks (fun _ _ => rfl) (by simp)
      | sleep _ =>
          exact watched.move tracks (fun _ _ => rfl) (by simp)
      | @observe _ _ wait _ _ =>
          refine watched.move ?_ ?_ ?_
          · intro other
            by_cases same : other = thread
            · subst same
              rw [Function.update_self]
              exact Observation.tracks_observe _ _
            · rw [Function.update_of_ne same]
              exact tracks other
          · intro other different
            rw [Function.update_of_ne different]
          · intro flags isResetting
            split_ifs at isResetting
            cases isResetting
            rw [Function.update_self]
            rfl
      | timeout _ =>
          exact watched.move tracks (fun _ _ => rfl) (by simp)
      | fail =>
          exact watched.move tracks (fun _ _ => rfl) (by simp)
      | reset =>
          have isMask := watched.mask thread _ here
          dsimp only at isMask
          have noneFresh := stale rfl
          dsimp only at noneFresh
          rw [← isMask]
          exact watched.move
            (fun other => (tracks other).take (tracks thread) noneFresh)
            (fun _ _ => rfl) (by simp)
      | set =>
          exact watched.move (fun other => (tracks other).set _)
            (fun _ _ => rfl) (by simp)
      | clear =>
          exact watched.move (fun other => (tracks other).clear)
            (fun _ _ => rfl) (by simp)

end Watched

/-- The runs in which no reset loses a set are those in which, whenever a
thread resets, none of its bits has been set since it observed them. -/
theorem eventflag_sets_kept_iff (labels : List (Thread × EventAction))
    (state : EventThreads Thread) :
    Run (Upholding KeepsEvents EventThreads.Step) EventThreads.start labels
        state ↔
      Run (Guarded Stale EventThreads.Step) EventThreads.start labels
        state := by
  apply Run.upholding_iff Watched
  · exact Watched.start
  · intro before label after watched taken
    exact watched.step taken
  · intro before label after watched taken
    exact watched.keepsEvents_iff taken

/-- A waiter for two bits sees the first one; the second is set before it
resets, and is gone. -/
theorem eventflag_set_lost :
    ∃ labels, ∃ state after : EventThreads (Fin 2),
      Run EventThreads.Step EventThreads.start labels state ∧
        EventThreads.Step state (0, .reset) after ∧
        ¬ state.KeepsEvents (0, .reset) after := by
  refine ⟨[(1, .set 1#32), (0, .call ⟨3#32, emNoTimeout, true⟩),
      (0, .observe), (1, .set 2#32)], _, _,
    .cons (.move .set) <| .cons (.move .call) <|
      .cons (.move (.observe (by decide))) <| .cons (.move .set) .nil,
    .move .reset, ?_⟩
  intro kept
  exact absurd (kept rfl).2 (by decide)

end EventThreads

end EmbeddedMiddle
