import EmbeddedMiddle.TaskDeletion

/-!
# Failed creations of tasks

`em_task_create` makes the queue and enters the task into the table before the
thread is started.  What a failure of the start leaves behind.
-/

namespace EmbeddedMiddle

open Foundation

/-- The table has the entries it had, no slot is taken, and nothing can be sent
to the task if it was unknown. -/
structure EmTaskmng.Undone (before after : EmTaskmng)
    (tasksetting : EmTasksetting) : Prop where
  entries : ∀ id, emIdatamngGetData after.taskinfoMng id =
    emIdatamngGetData before.taskinfoMng id
  slots : after.taskinfoMng.mp.numUsed = before.taskinfoMng.mp.numUsed
  unsent : emIdatamngGetData before.taskinfoMng
      (ulongOfTaskid tasksetting.taskId) = none →
    ∀ msgdata timeoutMs,
      emMsgSend after tasksetting.taskId msgdata timeoutMs = some (-1, after)

section Calls

variable {params : DatamngParams} {tm : EmTaskmng}
  {table : UInt64 → Option EmTaskinfo}

theorem emTaskCreate_failed (room : tm.full = false)
    (tasksetting : EmTasksetting) (memory : TaskMemory) :
    emTaskCreate tm tasksetting none memory =
      (-1, (emTaskCreateMsgqueue tm tasksetting memory).2) := by
  rw [emTaskCreate, if_neg (by simp [room])]
  cases emTaskCreateMsgqueue tm tasksetting memory with
  | mk ret next =>
      have failed : emTaskStartTask next tasksetting none memory =
          (-1, next) := ite_self _
      simp only [failed]
      rw [if_pos (show (-1 : ℤ) ≠ 0 by decide), ite_self]

theorem emMsgSend_unknown (holds : tm.taskinfoMng.Table params table)
    {taskId : EmTaskid} (unused : table (ulongOfTaskid taskId) = none)
    (msgdata : Bytes) (timeoutMs : ℤ) :
    emMsgSend tm taskId msgdata timeoutMs = some (-1, tm) := by
  have noQueue : emMsgmngGetQueue tm taskId = none :=
    holds.getDataPtr_none unused
  rw [emMsgSend, noQueue]

theorem undone_refl (holds : tm.taskinfoMng.Table params table)
    (tasksetting : EmTasksetting) : tm.Undone tm tasksetting := by
  refine ⟨fun _ => rfl, rfl, ?_⟩
  intro unknown
  rw [holds.getData_eq] at unknown
  exact emMsgSend_unknown holds unknown

theorem emQueueCreate_rawdata (qu : EmQueue) (blockSize : ℕ) (blockNum : ℤ)
    (blockPtr : ℕ → ℕ) (rawdata : Bytes) :
    (emQueueCreate qu blockSize blockNum blockPtr rawdata).rawdata =
      rawdata := by
  simp only [emQueueCreate, emQueueCreateWithMem, foldl_blockPtr]

/-- The queue of a known task is lost: the new one has other memory. -/
theorem emTaskCreateMsgqueue_replaces
    (holds : tm.taskinfoMng.Table params table)
    (available : 0 < tm.msgdataSize) {tasksetting : EmTasksetting}
    {old : EmTaskinfo}
    (registered : table (ulongOfTaskid tasksetting.taskId) = some old) :
    ∃ memory found,
      emIdatamngGetData
          (emTaskCreateMsgqueue tm tasksetting memory).2.taskinfoMng
          (ulongOfTaskid tasksetting.taskId) = some found ∧
        found ≠ old := by
  obtain ⟨ptr, pointer, content, written⟩ := holds.getDataPtr_some registered
  let memory : TaskMemory :=
    { (default : TaskMemory) with
      rawdata := fun position =>
        if old.msgqueue.rawdata position = 0 then 1 else 0 }
  refine ⟨memory, { old with
    msgqueue := emQueueCreate old.msgqueue tm.msgdataSize.toNat
      tasksetting.mqueueSize memory.blockPtr memory.rawdata }, ?_, ?_⟩
  · rw [emTaskCreateMsgqueue, if_neg (Int.not_le.mpr available)]
    simp only [pointer, content]
    exact ((written _).getData_eq _).trans (Function.update_self ..)
  · intro same
    have bytes := congrFun (congrArg
      (fun info => info.msgqueue.rawdata) same) 0
    rw [emQueueCreate_rawdata] at bytes
    simp only [memory] at bytes
    split_ifs at bytes with zero
    · rw [zero] at bytes
      exact absurd bytes (by decide)
    · exact zero bytes.symm

/-- An unknown task has an entry afterwards. -/
theorem emTaskCreateMsgqueue_enters
    (holds : tm.taskinfoMng.Table params table) (room : tm.full = false)
    (available : 0 < tm.msgdataSize) (tasksetting : EmTasksetting)
    (memory : TaskMemory) :
    emIdatamngGetData
      (emTaskCreateMsgqueue tm tasksetting memory).2.taskinfoMng
      (ulongOfTaskid tasksetting.taskId) ≠ none := by
  obtain ⟨dm, entry, queued, kept, present, _⟩ :=
    emTaskCreateMsgqueue_room holds room tasksetting memory
  rw [queued, kept.getData_eq, Function.update_self]
  exact present available

end Calls

/-- Whatever the memory holds that the call is given, a creation that returns
-1 leaves the table as it was, if and only if the table is full, there are no
messages, or the thread can be started. -/
theorem task_create_undone_iff {params : DatamngParams} {tm : EmTaskmng}
    {table : UInt64 → Option EmTaskinfo}
    (holds : tm.taskinfoMng.Table params table) (tasksetting : EmTasksetting)
    (created : Option UInt64) :
    (∀ memory after, emTaskCreate tm tasksetting created memory = (-1, after) →
      tm.Undone after tasksetting) ↔
      tm.full = true ∨ tm.msgdataSize ≤ 0 ∨ created ≠ none := by
  constructor
  · intro undone
    by_contra fails
    simp only [not_or, Bool.not_eq_true, not_le, ne_eq, not_not] at fails
    obtain ⟨room, available, rfl⟩ := fails
    cases entry : table (ulongOfTaskid tasksetting.taskId) with
    | none =>
        have kept := (undone default _
          (emTaskCreate_failed room tasksetting default)).entries
          (ulongOfTaskid tasksetting.taskId)
        rw [holds.getData_eq, entry] at kept
        exact emTaskCreateMsgqueue_enters holds room available tasksetting
          default kept
    | some old =>
        obtain ⟨memory, found, isFound, different⟩ :=
          emTaskCreateMsgqueue_replaces holds available entry
        have kept := (undone memory _
          (emTaskCreate_failed room tasksetting memory)).entries
          (ulongOfTaskid tasksetting.taskId)
        rw [holds.getData_eq, entry, isFound] at kept
        exact different (Option.some.inj kept)
  · intro condition memory after called
    cases full : tm.full with
    | true =>
        rw [emTaskCreate_full full] at called
        obtain ⟨_, rfl⟩ := Prod.mk.inj called
        exact undone_refl holds tasksetting
    | false =>
        cases created with
        | none =>
            have unavailable : tm.msgdataSize ≤ 0 := by
              simpa [full] using condition
            rw [emTaskCreate_failed full, emTaskCreateMsgqueue,
              if_pos unavailable] at called
            obtain ⟨_, rfl⟩ := Prod.mk.inj called
            exact undone_refl holds tasksetting
        | some thread =>
            obtain ⟨ret, reached, _, succeeded, _, _, _, success, _⟩ :=
              emTaskCreate_room holds full tasksetting (some thread) memory
            rw [succeeded] at called
            have failed := (Prod.mk.inj called).1
            rw [(success thread rfl).1] at failed
            exact absurd failed (by decide)

/-- Without messages a failed start leaves nothing behind. -/
theorem task_create_undone_no_messages :
    ∃ after, emTaskCreate (emTaskmngInit default 2 0 200 default 1000).2
        ⟨[116], 1, 2⟩ none default = (-1, after) ∧
      EmTaskmng.Undone (emTaskmngInit default 2 0 200 default 1000).2 after
        ⟨[116], 1, 2⟩ := by
  have valid : (taskTable 2 200 1000).Valid :=
    ⟨⟨by decide, by decide⟩, by decide, by decide, by decide⟩
  have called := @emTaskCreate_failed
    (emTaskmngInit default 2 0 200 default 1000).2 rfl ⟨[116], 1, 2⟩ default
  exact ⟨_, called, (task_create_undone_iff
    (valid.created_table ⟨rfl, rfl, rfl⟩ _ _) ⟨[116], 1, 2⟩ none).mpr
      (.inr (.inl (by decide))) default _ called⟩

/-- With messages the task stays in the table. -/
theorem task_create_left_behind :
    ¬ ∀ (params : DatamngParams) (tm : EmTaskmng)
        (table : UInt64 → Option EmTaskinfo),
      tm.taskinfoMng.Table params table →
      ∀ tasksetting created memory after,
        emTaskCreate tm tasksetting created memory = (-1, after) →
          tm.Undone after tasksetting := by
  intro always
  have valid : (taskTable 2 200 1000).Valid :=
    ⟨⟨by decide, by decide⟩, by decide, by decide, by decide⟩
  have undone := always (taskTable 2 200 1000)
    (emTaskmngInit default 2 1 200 default 1000).2 (fun _ => none)
    (valid.created_table ⟨rfl, rfl, rfl⟩ _ _) ⟨[116], 1, 2⟩ none default _
    (emTaskCreate_failed rfl _ _)
  have taken : (emTaskCreateMsgqueue
      (emTaskmngInit default 2 1 200 default 1000).2 ⟨[116], 1, 2⟩
        default).2.taskinfoMng.mp.numUsed = 1 := rfl
  exact absurd (taken.symm.trans undone.slots) (by decide)

end EmbeddedMiddle
