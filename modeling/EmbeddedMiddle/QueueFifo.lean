import EmbeddedMiddle.Queue
import EmbeddedMiddle.Foundation.BoundedFifo
import EmbeddedMiddle.Foundation.CircularWindow

/-!
# The message queue as a bounded channel

The blocks between `tail_ptr` and `head_ptr` are the values of a bounded
first-in first-out channel, in order.
-/

namespace EmbeddedMiddle

open Foundation

namespace EmQueue

/-- The three counters of a queue of `capacity` blocks fit together. -/
structure Ring (qu : EmQueue) (blockSize capacity : ℕ) : Prop where
  numMax_eq : qu.numMax = capacity
  blockSize_eq : qu.blockSize = blockSize
  blockPtr_eq : ∀ slot, slot < capacity → qu.blockPtr slot = blockSize * slot
  used_le : qu.numUsed ≤ capacity
  tail_lt : qu.tailPtr < capacity
  head_eq : qu.headPtr = (qu.tailPtr + qu.numUsed) % capacity

def slot (qu : EmQueue) (index : ℕ) : List UInt8 :=
  qu.rawdata.read (qu.blockPtr index) qu.blockSize

/-- The blocks that wait to be delivered, oldest first. -/
def contents (qu : EmQueue) : List (List UInt8) :=
  window qu.slot qu.numMax qu.tailPtr qu.numUsed

variable {qu : EmQueue} {blockSize capacity : ℕ}

@[simp] theorem length_contents : qu.contents.length = qu.numUsed :=
  length_window

/-! ## Creation -/

theorem created_ring (qu : EmQueue) (blockPtr : ℕ → ℕ)
    (rawdata : Bytes) (positive : 0 < capacity) :
    (emQueueCreateWithMem qu blockSize capacity blockPtr rawdata).Ring
        blockSize capacity ∧
      (emQueueCreateWithMem qu blockSize capacity blockPtr rawdata).contents =
        [] := by
  simp only [emQueueCreateWithMem, foldl_blockPtr, Int.toNat_natCast]
  refine ⟨⟨rfl, rfl, ?_, Nat.zero_le _, positive, ?_⟩, rfl⟩
  · intro slot below
    exact if_pos below
  · exact (Nat.zero_mod capacity).symm

/-! ## The bodies -/

namespace Ring

theorem wrap_succ (ring : qu.Ring blockSize capacity) {ptr : ℕ}
    (below : ptr < capacity) : qu.wrap (ptr + 1) = (ptr + 1) % capacity := by
  rw [wrap, ring.numMax_eq]
  split_ifs with atEnd
  · have same : ptr + 1 = capacity := Nat.le_antisymm below atEnd
    rw [same, Nat.sub_self, Nat.mod_self]
  · exact (Nat.mod_eq_of_lt (Nat.not_le.mp atEnd)).symm

theorem head_lt (ring : qu.Ring blockSize capacity) :
    qu.headPtr < capacity := by
  rw [ring.head_eq]
  exact Nat.mod_lt _ (Nat.zero_lt_of_lt ring.tail_lt)

theorem enqueue_full (ring : qu.Ring blockSize capacity)
    (full : qu.numUsed = capacity) (data : Bytes) :
    emEnqueueBody qu data = (-1, qu) := by
  have noRoom : qu.numMax ≤ qu.numUsed := by rw [ring.numMax_eq, full]
  simp only [emEnqueueBody, emEnqueueGetDataptr, if_pos noRoom]

theorem enqueue_room (ring : qu.Ring blockSize capacity)
    (room : qu.numUsed < capacity) (data : Bytes) :
    ∃ after, emEnqueueBody qu data = (0, after) ∧
      after.Ring blockSize capacity ∧
      after.contents = qu.contents ++ [data.read 0 blockSize] := by
  have hasRoom : ¬ qu.numMax ≤ qu.numUsed := by
    rw [ring.numMax_eq]
    exact Nat.not_le.mpr room
  refine ⟨{ qu with
    rawdata := qu.rawdata.copy (qu.blockPtr qu.headPtr) data qu.blockSize
    numUsed := qu.numUsed + 1
    headPtr := qu.wrap (qu.headPtr + 1) }, ?_, ?_, ?_⟩
  · simp only [emEnqueueBody, emEnqueueGetDataptr, emEnqueueIncrement,
      if_neg hasRoom]
    rfl
  · refine ⟨ring.numMax_eq, ring.blockSize_eq, ring.blockPtr_eq, room,
      ring.tail_lt, ?_⟩
    simp only
    rw [ring.wrap_succ ring.head_lt, ring.head_eq, Nat.mod_add_mod,
      Nat.add_assoc]
  · simp only [contents, ring.numMax_eq]
    rw [@window_append _ qu.slot _ _ _ _ room]
    · rw [← ring.head_eq]
      simp only [slot, ring.blockSize_eq, Bytes.read_copy_self]
    · intro index below different
      rw [← ring.head_eq] at different
      simp only [slot, ring.blockSize_eq]
      apply Bytes.read_copy_of_disjoint
      rw [ring.blockPtr_eq index below, ring.blockPtr_eq _ ring.head_lt]
      exact slots_apart blockSize different

theorem dequeue_empty (empty : qu.numUsed = 0) :
    emDequeueBody qu = (.error emErrOther, qu) := by
  have noData : qu.numUsed ≤ 0 := Nat.le_of_eq empty
  simp only [emDequeueBody, emDequeueGetDataptr, if_pos noData]

theorem dequeue_some (ring : qu.Ring blockSize capacity)
    (nonempty : 0 < qu.numUsed) :
    ∃ data after, emDequeueBody qu = (.ok data, after) ∧
      after.Ring blockSize capacity ∧ qu.contents = data :: after.contents := by
  have hasData : ¬ qu.numUsed ≤ 0 := Nat.not_le.mpr nonempty
  obtain ⟨used, isSucc⟩ := Nat.exists_eq_succ_of_ne_zero nonempty.ne'
  refine ⟨qu.slot qu.tailPtr, { qu with
    numUsed := qu.numUsed - 1
    tailPtr := qu.wrap (qu.tailPtr + 1) }, ?_, ?_, ?_⟩
  · simp only [emDequeueBody, emDequeueGetDataptr, emDequeueIncrement,
      if_neg hasData]
    rfl
  · refine ⟨ring.numMax_eq, ring.blockSize_eq, ring.blockPtr_eq,
      (Nat.sub_le _ _).trans ring.used_le, ?_, ?_⟩
    · simp only
      rw [ring.wrap_succ ring.tail_lt]
      exact Nat.mod_lt _ (Nat.zero_lt_of_lt ring.tail_lt)
    · simp only
      rw [ring.wrap_succ ring.tail_lt, ring.head_eq, isSucc, Nat.mod_add_mod]
      congr 1
      omega
  · simp only [contents, ring.numMax_eq]
    rw [ring.wrap_succ ring.tail_lt, isSucc, Nat.succ_sub_one,
      window_succ, Nat.mod_eq_of_lt ring.tail_lt]
    rfl

end Ring

end EmQueue

/-! ## Runs of the bodies -/

/-- The bodies, in any order. -/
inductive EmQueue.Step :
    EmQueue → FifoEvent (List UInt8) → EmQueue → Prop where
  | enqueue {qu after : EmQueue} {data : Bytes} {ret : ℤ} :
      emEnqueueBody qu data = (ret, after) →
      Step qu (.push (data.read 0 qu.blockSize) (decide (ret = 0))) after
  | dequeue {qu after : EmQueue} {result : Except ℤ (List UInt8)} :
      emDequeueBody qu = (result, after) → Step qu (.pop result.toOption) after

namespace EmQueue

variable {blockSize capacity : ℕ}

/-- A queue with the counters in order that holds the items of a channel. -/
structure Shows (qu : EmQueue) (blockSize : ℕ)
    (fifo : BoundedFifo (List UInt8) capacity) : Prop where
  ring : qu.Ring blockSize capacity
  contents_eq : qu.contents = fifo.items

/-- Every body is the call of the channel with the same label. -/
theorem Shows.step {before after : EmQueue}
    {fifo : BoundedFifo (List UInt8) capacity}
    {event : FifoEvent (List UInt8)}
    (shows : before.Shows blockSize fifo) (taken : before.Step event after) :
    ∃ next, BoundedFifo.Step fifo event next ∧ after.Shows blockSize next := by
  obtain ⟨ring, contents_eq⟩ := shows
  have held : fifo.items.length = before.numUsed := by
    rw [← contents_eq, length_contents]
  cases taken with
  | enqueue called =>
      rename_i data ret
      rcases ring.used_le.eq_or_lt with full | room
      · obtain ⟨rfl, rfl⟩ :=
          Prod.mk.inj ((ring.enqueue_full full data).symm.trans called)
        exact ⟨fifo, .full (held.trans full), ring, contents_eq⟩
      · obtain ⟨reached, returned, kept, grown⟩ := ring.enqueue_room room data
        obtain ⟨rfl, rfl⟩ := Prod.mk.inj (returned.symm.trans called)
        rw [ring.blockSize_eq]
        refine ⟨_, .push (held ▸ room), kept, ?_⟩
        rw [grown, contents_eq]
        rfl
  | dequeue called =>
      rcases Nat.eq_zero_or_pos before.numUsed with empty | nonempty
      · obtain ⟨rfl, rfl⟩ :=
          Prod.mk.inj ((Ring.dequeue_empty empty).symm.trans called)
        refine ⟨fifo, .empty ?_, ring, contents_eq⟩
        exact List.length_eq_zero_iff.mp (held.trans empty)
      · obtain ⟨data, reached, returned, kept, shrunk⟩ :=
          ring.dequeue_some nonempty
        obtain ⟨rfl, rfl⟩ := Prod.mk.inj (returned.symm.trans called)
        rw [contents_eq] at shrunk
        refine ⟨fifo.rest, .pop ?_, kept, ?_⟩
        · rw [shrunk]
          rfl
        · exact (congrArg List.tail shrunk).symm

end EmQueue

/-- In every run of the bodies the `k`-th delivery is the `k`-th block
accepted, and what is accepted and not delivered is held in the ring. -/
theorem queue_is_fifo (memory : EmQueue) (blockSize blockNum : ℕ)
    (blockPtr : ℕ → ℕ) (rawdata : Bytes) (nonempty : 1 ≤ blockNum)
    {events : List (FifoEvent (List UInt8))} {qu : EmQueue}
    (run : Run EmQueue.Step
      (emQueueCreateWithMem memory blockSize blockNum blockPtr rawdata)
      events qu) :
    (∀ k, k < (FifoEvent.delivered events).length →
      (FifoEvent.accepted events)[k]? = (FifoEvent.delivered events)[k]?) ∧
      FifoEvent.accepted events =
        FifoEvent.delivered events ++ qu.contents ∧
      qu.numMax = blockNum ∧
      (FifoEvent.accepted events).length =
        (FifoEvent.delivered events).length + qu.numUsed ∧
      qu.numUsed ≤ qu.numMax ∧
      qu.headPtr = (qu.tailPtr + qu.numUsed) % qu.numMax ∧
      qu.headPtr < qu.numMax ∧ qu.tailPtr < qu.numMax := by
  obtain ⟨created, noContents⟩ :=
    @EmQueue.created_ring blockSize blockNum memory blockPtr rawdata
      nonempty
  have start : EmQueue.Shows
      (emQueueCreateWithMem memory blockSize blockNum blockPtr rawdata)
      blockSize (@BoundedFifo.empty _ blockNum) := ⟨created, noContents⟩
  obtain ⟨fifo, fifoRun, ring, contents_eq⟩ := run.simulate
    (fun qu fifo => qu.Shows blockSize fifo) start
    (fun _ _ _ _ shows taken => shows.step taken)
  have balance := BoundedFifo.accepted_eq fifoRun
  rw [← contents_eq] at balance
  refine ⟨fun k bound => BoundedFifo.delivered_eq fifoRun bound, balance,
    ring.numMax_eq, ?_, ?_, ?_, ?_, ?_⟩
  · rw [balance, List.length_append, EmQueue.length_contents]
  · exact ring.numMax_eq ▸ ring.used_le
  · exact ring.numMax_eq ▸ ring.head_eq
  · exact ring.numMax_eq ▸ ring.head_lt
  · exact ring.numMax_eq ▸ ring.tail_lt

/-- Two blocks of one byte go through a ring of two, one comes out. -/
theorem queue_is_fifo_three_calls :
    ∃ qu, Run EmQueue.Step
        (emQueueCreateWithMem default 1 2 default default)
        [.push [7] true, .push [8] true, .pop (some [7])] qu ∧
      qu.contents = [[8]] := by
  have run : ∃ qu, Run EmQueue.Step
      (emQueueCreateWithMem default 1 2 default default)
      [.push [7] true, .push [8] true, .pop (some [7])] qu :=
    ⟨_, .cons (@EmQueue.Step.enqueue _ _ (fun _ => 7) 0 rfl)
      (.cons (@EmQueue.Step.enqueue _ _ (fun _ => 8) 0 rfl)
        (.cons (@EmQueue.Step.dequeue _ _ (.ok [7]) rfl) .nil))⟩
  obtain ⟨qu, run⟩ := run
  obtain ⟨_, balance, _⟩ := queue_is_fifo default 1 2 default default
    (by decide) run
  exact ⟨qu, run, (List.cons.inj balance).2.symm⟩

end EmbeddedMiddle
