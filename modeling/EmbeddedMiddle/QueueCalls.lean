import EmbeddedMiddle.QueueFifo

/-!
# Whole calls on a message queue

A call of `em_enqueue` that returns 0 appends its block to what the queue
holds, a call of `em_dequeue` that returns 0 takes the oldest block, and any
other call leaves the blocks as they are.
-/

namespace EmbeddedMiddle

open Foundation

namespace EmQueue

/-- A queue as it was created and used: a ring, or without any block. -/
inductive Ready (qu : EmQueue) (blockSize : ℕ) : Prop where
  | ring {capacity : ℕ} : qu.Ring blockSize capacity → Ready qu blockSize
  | noBlocks : qu.numMax = 0 → qu.numUsed = 0 → Ready qu blockSize

variable {qu after : EmQueue} {blockSize : ℕ}

theorem created_ready (qu : EmQueue) (blockNum : ℤ) (blockPtr : ℕ → ℕ)
    (rawdata : Bytes) :
    (emQueueCreate qu blockSize blockNum blockPtr rawdata).Ready blockSize ∧
      (emQueueCreate qu blockSize blockNum blockPtr rawdata).contents = [] := by
  rcases lt_or_ge 0 blockNum with positive | atMost
  · obtain ⟨capacity, rfl⟩ := Int.eq_ofNat_of_zero_le positive.le
    obtain ⟨ring, empty⟩ := @created_ring blockSize capacity qu blockPtr
      rawdata (Int.natCast_pos.mp positive)
    exact ⟨.ring ring, empty⟩
  · have none := Int.toNat_of_nonpos atMost
    simp only [emQueueCreate, emQueueCreateWithMem, foldl_blockPtr, none]
    exact ⟨.noBlocks rfl rfl, rfl⟩

/-- The semaphores are no part of the ring. -/
theorem Ready.sems (ready : qu.Ready blockSize) (semIn semOut : EmSem) :
    ({ qu with semIn, semOut } : EmQueue).Ready blockSize := by
  cases ready with
  | ring ring => exact .ring { ring with }
  | noBlocks none unused => exact .noBlocks none unused

theorem Ready.enqueueBody (ready : qu.Ready blockSize) {data : Bytes}
    {ret : ℤ} (called : emEnqueueBody qu data = (ret, after)) :
    after.Ready blockSize ∧
      after.contents = qu.contents ++
        if ret = 0 then [data.read 0 blockSize] else [] := by
  cases ready with
  | ring ring =>
      rcases ring.used_le.eq_or_lt with full | room
      · rw [ring.enqueue_full full] at called
        obtain ⟨rfl, rfl⟩ := Prod.mk.inj called
        exact ⟨.ring ring, (List.append_nil _).symm⟩
      · obtain ⟨reached, returned, kept, grown⟩ := ring.enqueue_room room data
        rw [returned] at called
        obtain ⟨rfl, rfl⟩ := Prod.mk.inj called
        exact ⟨.ring kept, grown⟩
  | noBlocks none unused =>
      have noRoom : qu.numMax ≤ qu.numUsed := none.trans_le (Nat.zero_le _)
      simp only [emEnqueueBody, emEnqueueGetDataptr, if_pos noRoom] at called
      obtain ⟨rfl, rfl⟩ := Prod.mk.inj called
      exact ⟨.noBlocks none unused, (List.append_nil _).symm⟩

theorem Ready.dequeueBody (ready : qu.Ready blockSize)
    {result : Except ℤ (List UInt8)}
    (called : emDequeueBody qu = (result, after)) :
    after.Ready blockSize ∧
      qu.contents = result.toOption.toList ++ after.contents := by
  rcases Nat.eq_zero_or_pos qu.numUsed with empty | nonempty
  · rw [Ring.dequeue_empty empty] at called
    obtain ⟨rfl, rfl⟩ := Prod.mk.inj called
    exact ⟨ready, rfl⟩
  · cases ready with
    | ring ring =>
        obtain ⟨data, reached, returned, kept, shrunk⟩ :=
          ring.dequeue_some nonempty
        rw [returned] at called
        obtain ⟨rfl, rfl⟩ := Prod.mk.inj called
        exact ⟨.ring kept, shrunk⟩
    | noBlocks none unused => exact absurd unused nonempty.ne'

theorem Ready.enqueue (ready : qu.Ready blockSize) {data : Bytes}
    {timeoutMs ret : ℤ}
    (called : emEnqueue qu data timeoutMs = some (ret, after)) :
    after.Ready blockSize ∧
      after.contents = qu.contents ++
        if ret = 0 then [data.read 0 blockSize] else [] := by
  unfold emEnqueue at called
  split at called
  · cases called
  · rename_i waitRet semIn waited
    have waiting := ready.sems semIn qu.semOut
    split_ifs at called with failed
    · obtain ⟨rfl, rfl⟩ := Prod.mk.inj (Option.some.inj called)
      exact ⟨waiting, (List.append_nil _).symm⟩
    · dsimp only at called
      generalize body : emEnqueueBody _ data = outcome at called
      obtain ⟨bodyRet, reached⟩ := outcome
      obtain ⟨kept, contents⟩ := waiting.enqueueBody body
      split_ifs at called with fatal
      · obtain ⟨rfl, rfl⟩ := Prod.mk.inj (Option.some.inj called)
        rw [if_neg fatal] at contents
        exact ⟨kept.sems _ _, contents⟩
      · obtain ⟨rfl, rfl⟩ := Prod.mk.inj (Option.some.inj called)
        rw [if_pos (not_not.mp fatal)] at contents
        exact ⟨kept.sems _ _, contents⟩

theorem Ready.dequeue (ready : qu.Ready blockSize) {timeoutMs : ℤ}
    {result : Except ℤ (List UInt8)}
    (called : emDequeue qu timeoutMs = some (result, after)) :
    after.Ready blockSize ∧
      qu.contents = result.toOption.toList ++ after.contents := by
  unfold emDequeue at called
  split at called
  · cases called
  · rename_i waitRet semOut waited
    have waiting := ready.sems qu.semIn semOut
    split_ifs at called with failed
    · obtain ⟨rfl, rfl⟩ := Prod.mk.inj (Option.some.inj called)
      exact ⟨waiting, rfl⟩
    · dsimp only at called
      split at called
      · rename_i code reached body
        obtain ⟨kept, contents⟩ := waiting.dequeueBody body
        obtain ⟨rfl, rfl⟩ := Prod.mk.inj (Option.some.inj called)
        exact ⟨kept.sems _ _, contents⟩
      · rename_i data reached body
        obtain ⟨kept, contents⟩ := waiting.dequeueBody body
        obtain ⟨rfl, rfl⟩ := Prod.mk.inj (Option.some.inj called)
        exact ⟨kept.sems _ _, contents⟩

end EmQueue

end EmbeddedMiddle
