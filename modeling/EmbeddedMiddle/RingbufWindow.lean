import EmbeddedMiddle.Ringbuf
import EmbeddedMiddle.Foundation.CircularWindow
import EmbeddedMiddle.Foundation.SlidingWindow

/-!
# Ring buffers as sliding windows

The blocks between `tail_ptr` and `head_ptr` are the part of the pushed values
that lies inside a sliding window.
-/

namespace EmbeddedMiddle

open Foundation

/-- What a ring keeps from its creation on. -/
structure RingParams where
  blockSize : ℕ
  capacity : ℕ
  overrideMode : OverrideMode

/-- The sizes and modes that a ring can work with. -/
structure RingParams.Valid (params : RingParams) : Prop where
  nonempty : 0 < params.capacity
  indexed : params.capacity ≤ 2147483648
  fits : params.blockSize * params.capacity < 4294967296
  mode : params.overrideMode = .error ∨ params.overrideMode = .update

def RingParams.overwrites (params : RingParams) : Bool :=
  params.overrideMode == .update

namespace EmRing

/-- The counters of a ring fit together. -/
structure Wound (params : RingParams) (rb : EmRing) : Prop where
  valid : params.Valid
  numMax_eq : rb.numMax = params.capacity
  blockSize_eq : rb.blockSize = params.blockSize
  overrideMode_eq : rb.overrideMode = params.overrideMode
  blockPtr_eq : ∀ slot, slot < params.capacity →
    rb.blockPtr slot = params.blockSize * slot
  used_le : rb.numUsed ≤ params.capacity
  tail_lt : rb.tailPtr < params.capacity
  head_eq : rb.headPtr = (rb.tailPtr + rb.numUsed) % params.capacity

def slot (rb : EmRing) (index : ℕ) : List UInt8 :=
  rb.rawdata.read (rb.blockPtr index) rb.blockSize

/-- The live blocks, oldest first. -/
def contents (rb : EmRing) : List (List UInt8) :=
  window rb.slot rb.numMax rb.tailPtr rb.numUsed

variable {params : RingParams} {rb : EmRing}

@[simp] theorem length_contents : rb.contents.length = rb.numUsed :=
  length_window

/-! ## Creation -/

theorem created_wound (valid : params.Valid) (rawdata : Bytes)
    (blockPtr : ℕ → ℕ) :
    Wound params (emRingCreate params.blockSize params.capacity
        params.overrideMode rawdata blockPtr) ∧
      (emRingCreate params.blockSize params.capacity params.overrideMode
        rawdata blockPtr).contents = [] := by
  simp only [emRingCreate, foldl_ring_blockPtr]
  refine ⟨⟨valid, rfl, rfl, rfl, ?_, Nat.zero_le _, valid.nonempty, ?_⟩, rfl⟩
  · intro slot below
    have bound := slot_bound params.blockSize below
    have fits := valid.fits
    simp only [if_pos below]
    exact uint32_of_lt (by omega)
  · exact (Nat.zero_mod _).symm

/-! ## The calls -/

namespace Wound

theorem head_lt (wound : rb.Wound params) : rb.headPtr < params.capacity := by
  rw [wound.head_eq]
  exact Nat.mod_lt _ wound.valid.nonempty

/-- No sum of two indices overflows, so moving an index is addition modulo the
number of blocks. -/
theorem wrap_eq (wound : rb.Wound params) {ptr moved : ℕ}
    (below : ptr < params.capacity) (atMost : moved ≤ params.capacity) :
    rb.wrap (uint32 (ptr + moved)) = (ptr + moved) % params.capacity := by
  have indexed := wound.valid.indexed
  rw [uint32_of_lt (by omega), wrap, wound.numMax_eq]
  split_ifs with outside
  · rfl
  · exact (Nat.mod_eq_of_lt (Nat.not_le.mp outside)).symm

theorem getDataptrTail (wound : rb.Wound params) {offset : ℕ}
    (live : offset < rb.numUsed) :
    emRingGetDataptrTail rb offset =
      some (rb.blockPtr ((rb.tailPtr + offset) % params.capacity)) := by
  have used := wound.used_le
  have indexed := wound.valid.indexed
  have inside : ¬ rb.numUsed < uint32 (offset + 1) := by
    rw [uint32_of_lt (by omega)]
    omega
  rw [emRingGetDataptrTail, if_neg inside,
    wound.wrap_eq wound.tail_lt (live.le.trans used)]

/-- Reading through `em_ring_get_dataptr_tail` reads the live blocks. -/
theorem read_tail (wound : rb.Wound params) :
    (List.range rb.numUsed).map (fun offset =>
        (emRingGetDataptrTail rb offset).map
          (fun ptr => rb.rawdata.read ptr rb.blockSize)) =
      rb.contents.map some := by
  rw [contents, window, List.map_map, wound.numMax_eq]
  apply List.map_congr_left
  intro offset inRange
  rw [wound.getDataptrTail (List.mem_range.mp inRange)]
  rfl

theorem deleteTaildata_invalid {delNum : ℕ}
    (wrong : delNum = 0 ∨ rb.numUsed < delNum) :
    emRingDeleteTaildata rb delNum = (-1, rb) :=
  if_pos wrong

/-- Only the counters at the tail change. -/
theorem deleteTaildata_eq (wound : rb.Wound params) {delNum : ℕ}
    (nonzero : delNum ≠ 0) (enough : delNum ≤ rb.numUsed) :
    emRingDeleteTaildata rb delNum =
        (0, { rb with
          numUsed := rb.numUsed - delNum
          tailPtr := (rb.tailPtr + delNum) % params.capacity }) ∧
      Wound params { rb with
        numUsed := rb.numUsed - delNum
        tailPtr := (rb.tailPtr + delNum) % params.capacity } := by
  have valid : ¬(delNum = 0 ∨ rb.numUsed < delNum) := by
    rintro (zero | tooMany)
    · exact nonzero zero
    · exact absurd tooMany (Nat.not_lt.mpr enough)
  have moved := wound.wrap_eq wound.tail_lt (enough.trans wound.used_le)
  rw [emRingDeleteTaildata, if_neg valid, moved]
  refine ⟨rfl, ⟨wound.valid, wound.numMax_eq, wound.blockSize_eq,
    wound.overrideMode_eq, wound.blockPtr_eq, ?_, ?_, ?_⟩⟩
  · exact (Nat.sub_le _ _).trans wound.used_le
  · exact Nat.mod_lt _ wound.valid.nonempty
  · simp only
    rw [wound.head_eq, Nat.mod_add_mod, Nat.add_assoc,
      Nat.add_sub_cancel' enough]

theorem deleteTaildata (wound : rb.Wound params) {delNum : ℕ}
    (nonzero : delNum ≠ 0) (enough : delNum ≤ rb.numUsed) :
    ∃ after, emRingDeleteTaildata rb delNum = (0, after) ∧
      after.Wound params ∧ after.contents = rb.contents.drop delNum ∧
      after.numUsed = rb.numUsed - delNum := by
  obtain ⟨called, kept⟩ := wound.deleteTaildata_eq nonzero enough
  refine ⟨_, called, kept, ?_, rfl⟩
  simp only [contents, wound.numMax_eq]
  exact window_drop delNum

/-- Only the counters at the head change. -/
theorem addNewdata_eq (wound : rb.Wound params)
    (room : rb.numUsed < params.capacity) :
    emRingAddNewdata rb =
        (0, { rb with
          numUsed := rb.numUsed + 1
          headPtr := (rb.headPtr + 1) % params.capacity }) ∧
      Wound params { rb with
        numUsed := rb.numUsed + 1
        headPtr := (rb.headPtr + 1) % params.capacity } := by
  have indexed := wound.valid.indexed
  have hasRoom : ¬ rb.numMax ≤ rb.numUsed := by
    rw [wound.numMax_eq]
    exact Nat.not_le.mpr room
  have moved := wound.wrap_eq wound.head_lt wound.valid.nonempty
  have counted : uint32 (rb.numUsed + 1) = rb.numUsed + 1 :=
    uint32_of_lt (by omega)
  rw [emRingAddNewdata, if_neg hasRoom, counted, moved]
  refine ⟨rfl, ⟨wound.valid, wound.numMax_eq, wound.blockSize_eq,
    wound.overrideMode_eq, wound.blockPtr_eq, room, wound.tail_lt, ?_⟩⟩
  simp only
  rw [wound.head_eq, Nat.mod_add_mod, Nat.add_assoc]

/-- The slot handed out is free, and registering it appends what was written
there. -/
theorem addNewdata (wound : rb.Wound params)
    (room : rb.numUsed < params.capacity) (val : Bytes) :
    ∃ after, emRingAddNewdata
        { rb with
          rawdata := rb.rawdata.copy (rb.blockPtr rb.headPtr) val
            rb.blockSize } = (0, after) ∧
      after.Wound params ∧
      after.contents = rb.contents ++ [val.read 0 params.blockSize] := by
  have written : Wound params { rb with
      rawdata := rb.rawdata.copy (rb.blockPtr rb.headPtr) val
        rb.blockSize } :=
    ⟨wound.valid, wound.numMax_eq, wound.blockSize_eq, wound.overrideMode_eq,
      wound.blockPtr_eq, wound.used_le, wound.tail_lt, wound.head_eq⟩
  obtain ⟨called, kept⟩ := written.addNewdata_eq room
  refine ⟨_, called, kept, ?_⟩
  simp only [contents, wound.numMax_eq]
  rw [@window_append _ rb.slot _ _ _ _ room]
  · rw [← wound.head_eq]
    simp only [slot, wound.blockSize_eq, Bytes.read_copy_self]
  · intro index below different
    rw [← wound.head_eq] at different
    simp only [slot, wound.blockSize_eq]
    apply Bytes.read_copy_of_disjoint
    rw [wound.blockPtr_eq index below, wound.blockPtr_eq _ wound.head_lt]
    exact slots_apart params.blockSize different

theorem getDataptrNew_room (wound : rb.Wound params)
    (room : rb.numUsed < params.capacity) :
    emRingGetDataptrNew rb = (some (rb.blockPtr rb.headPtr), rb) := by
  rw [emRingGetDataptrNew, wound.numMax_eq, if_neg (Nat.not_le.mpr room)]

theorem getDataptrNew_refused (wound : rb.Wound params)
    (full : rb.numUsed = params.capacity)
    (mode : params.overrideMode = .error) :
    emRingGetDataptrNew rb = (none, rb) := by
  rw [emRingGetDataptrNew, wound.numMax_eq, if_pos full.ge,
    wound.overrideMode_eq, mode]

/-- On a full ring the oldest block gives up its slot. -/
theorem getDataptrNew_overwrites (wound : rb.Wound params)
    (full : rb.numUsed = params.capacity)
    (mode : params.overrideMode = .update) :
    ∃ after,
      emRingGetDataptrNew rb =
        (some (after.blockPtr after.headPtr), after) ∧
      after.Wound params ∧ after.contents = rb.contents.drop 1 ∧
      after.numUsed < params.capacity := by
  have nonempty := wound.valid.nonempty
  obtain ⟨after, called, kept, shrunk, used⟩ :=
    wound.deleteTaildata Nat.one_ne_zero (full ▸ nonempty)
  refine ⟨after, ?_, kept, shrunk, by omega⟩
  rw [emRingGetDataptrNew, wound.numMax_eq, if_pos full.ge,
    wound.overrideMode_eq, mode]
  simp only [called]

/-- Whatever slot is handed out is the one behind the live blocks of a ring
with room. -/
theorem getDataptrNew_some (wound : rb.Wound params) {ptr : ℕ}
    {after : EmRing} (called : emRingGetDataptrNew rb = (some ptr, after)) :
    after.Wound params ∧ after.numUsed < params.capacity ∧
      ptr = after.blockPtr after.headPtr := by
  rcases wound.used_le.lt_or_eq with room | full
  · rw [wound.getDataptrNew_room room] at called
    obtain ⟨isPtr, rfl⟩ := Prod.mk.inj called
    exact ⟨wound, room, (Option.some.inj isPtr).symm⟩
  · rcases wound.valid.mode with mode | mode
    · rw [wound.getDataptrNew_refused full mode] at called
      cases (Prod.mk.inj called).1
    · obtain ⟨reached, returned, kept, _, room⟩ :=
        wound.getDataptrNew_overwrites full mode
      rw [returned] at called
      obtain ⟨isPtr, rfl⟩ := Prod.mk.inj called
      exact ⟨kept, room, (Option.some.inj isPtr).symm⟩

/-- The slot behind the live blocks does not meet any of them. -/
theorem head_apart (wound : rb.Wound params)
    (room : rb.numUsed < params.capacity) {offset live : ℕ}
    (inside : offset < rb.numUsed)
    (isLive : emRingGetDataptrTail rb offset = some live) :
    rb.blockPtr rb.headPtr + params.blockSize ≤ live ∨
      live + params.blockSize ≤ rb.blockPtr rb.headPtr := by
  rw [wound.getDataptrTail inside] at isLive
  have bound := Nat.mod_lt (rb.tailPtr + offset) wound.valid.nonempty
  have different : rb.headPtr ≠ (rb.tailPtr + offset) % params.capacity := by
    rw [wound.head_eq]
    exact (wrapped_ne inside room).symm
  rw [← Option.some.inj isLive, wound.blockPtr_eq _ wound.head_lt,
    wound.blockPtr_eq _ bound]
  exact slots_apart params.blockSize different

end Wound

end EmRing

/-! ## Runs of pushes and deletions -/

inductive EmRing.Step : EmRing → WindowEvent (List UInt8) → EmRing → Prop where
  | push {rb after : EmRing} {val : Bytes} {ret : ℤ} :
      addBuf rb val = (ret, after) →
      Step rb (.push (val.read 0 rb.blockSize) (decide (ret = 0))) after
  | delete {rb after : EmRing} {delNum : ℕ} {ret : ℤ} :
      emRingDeleteTaildata rb delNum = (ret, after) →
      Step rb (.delete delNum (decide (ret = 0))) after

namespace EmRing

/-- A ring with its counters in order that holds the items of a window. -/
structure Shows (params : RingParams) (rb : EmRing)
    (window : SlidingWindow (List UInt8) params.capacity) : Prop where
  wound : rb.Wound params
  contents_eq : rb.contents = window.items

namespace Shows

variable {params : RingParams} {rb : EmRing}
  {window : SlidingWindow (List UInt8) params.capacity}

theorem length_eq (shows : rb.Shows params window) :
    window.items.length = rb.numUsed := by
  rw [← shows.contents_eq, length_contents]

/-- A push with a slot at hand. -/
theorem push_room (shows : rb.Shows params window)
    (room : window.items.length < params.capacity) (val : Bytes) :
    ∃ after,
      emRingAddNewdata
        { rb with
          rawdata := rb.rawdata.copy (rb.blockPtr rb.headPtr) val
            rb.blockSize } = (0, after) ∧
      after.Shows params
        (window.push (val.read 0 params.blockSize) room) := by
  obtain ⟨after, called, kept, grown⟩ :=
    shows.wound.addNewdata (shows.length_eq ▸ room) val
  refine ⟨after, called, kept, ?_⟩
  rw [grown, shows.contents_eq, SlidingWindow.items_push]

theorem addBuf_eq (shows : rb.Shows params window) (val : Bytes) :
    ∃ accepted after next,
      addBuf rb val = (retOf accepted, after) ∧
        SlidingWindow.Step params.overwrites window
          (.push (val.read 0 params.blockSize) accepted) next ∧
        after.Shows params next := by
  have wound := shows.wound
  rcases wound.used_le.lt_or_eq with room | full
  · have hasRoom : window.items.length < params.capacity :=
      shows.length_eq ▸ room
    obtain ⟨after, called, kept⟩ := shows.push_room hasRoom val
    refine ⟨true, after, _, ?_, .push hasRoom, kept⟩
    rw [addBuf, wound.getDataptrNew_room room]
    exact called
  · have isFull := shows.length_eq.trans full
    rcases wound.valid.mode with mode | mode
    · refine ⟨false, rb, window, ?_, .refused isFull ?_, shows⟩
      · rw [addBuf, wound.getDataptrNew_refused full mode]
        rfl
      · rw [RingParams.overwrites, mode]
        rfl
    · have nonempty : 1 ≤ window.items.length := by
        rw [isFull]
        exact wound.valid.nonempty
      obtain ⟨given, handed, kept, shrunk, _⟩ :=
        wound.getDataptrNew_overwrites full mode
      have givenShows : given.Shows params (window.delete 1 nonempty) := by
        refine ⟨kept, ?_⟩
        rw [shrunk, shows.contents_eq, SlidingWindow.items_delete]
      obtain ⟨after, called, pushed⟩ :=
        givenShows.push_room (window.room_of_delete nonempty) val
      refine ⟨true, after, _, ?_, .overwritten nonempty isFull ?_, pushed⟩
      · rw [addBuf, handed]
        exact called
      · rw [RingParams.overwrites, mode]
        rfl

theorem deleteTaildata_eq (shows : rb.Shows params window) (delNum : ℕ) :
    ∃ done after next,
      emRingDeleteTaildata rb delNum = (retOf done, after) ∧
        SlidingWindow.Step params.overwrites window
          (.delete delNum done) next ∧
        after.Shows params next := by
  by_cases wrong : delNum = 0 ∨ rb.numUsed < delNum
  · exact ⟨false, rb, window, Wound.deleteTaildata_invalid wrong,
      .invalid (shows.length_eq ▸ wrong), shows⟩
  · obtain ⟨nonzero, enough⟩ := not_or.mp wrong
    rw [Nat.not_lt] at enough
    obtain ⟨after, called, kept, shrunk, _⟩ :=
      shows.wound.deleteTaildata nonzero enough
    refine ⟨true, after, _, called,
      .delete (shows.length_eq ▸ enough) nonzero, kept, ?_⟩
    rw [shrunk, shows.contents_eq, SlidingWindow.items_delete]

/-- Every call is the call of the window with the same label. -/
theorem step (shows : rb.Shows params window)
    {event : WindowEvent (List UInt8)} {after : EmRing}
    (taken : rb.Step event after) :
    ∃ next, SlidingWindow.Step params.overwrites window event next ∧
      after.Shows params next := by
  cases taken with
  | push called =>
      rename_i val ret
      obtain ⟨accepted, reached, next, returned, step, kept⟩ :=
        shows.addBuf_eq val
      obtain ⟨rfl, rfl⟩ := Prod.mk.inj (returned.symm.trans called)
      refine ⟨next, ?_, kept⟩
      rw [shows.wound.blockSize_eq]
      cases accepted <;> exact step
  | delete called =>
      rename_i delNum ret
      obtain ⟨done, reached, next, returned, step, kept⟩ :=
        shows.deleteTaildata_eq delNum
      obtain ⟨rfl, rfl⟩ := Prod.mk.inj (returned.symm.trans called)
      refine ⟨next, ?_, kept⟩
      cases done <;> exact step

end Shows

end EmRing

/-- A ring is a sliding window over the values pushed: reading from the tail
gives the values inside the window; the slot handed out for the next value
meets no live block. -/
theorem ring_is_sliding_window (params : RingParams) (valid : params.Valid)
    (rawdata : Bytes) (blockPtr : ℕ → ℕ)
    {events : List (WindowEvent (List UInt8))} {rb : EmRing}
    (run : Run EmRing.Step
      (emRingCreate params.blockSize params.capacity params.overrideMode
        rawdata blockPtr) events rb) :
    ∃ window : SlidingWindow (List UInt8) params.capacity,
      Run (SlidingWindow.Step params.overwrites) .empty events window ∧
      window.pushed = WindowEvent.accepted events ∧
      (List.range rb.numUsed).map (fun offset =>
          (emRingGetDataptrTail rb offset).map
            (fun ptr => rb.rawdata.read ptr rb.blockSize)) =
        window.items.map some ∧
      (params.overrideMode = .update →
        ∀ val, ∃ after, addBuf rb val = (0, after)) ∧
      (params.overrideMode = .error → rb.numUsed = rb.numMax →
        emRingGetDataptrNew rb = (none, rb)) ∧
      (∀ ptr after, emRingGetDataptrNew rb = (some ptr, after) →
        ∀ offset live, offset < after.numUsed →
          emRingGetDataptrTail after offset = some live →
            ptr + params.blockSize ≤ live ∨
              live + params.blockSize ≤ ptr) ∧
      (∀ delNum, (emRingDeleteTaildata rb delNum).1 = -1 ↔
        delNum = 0 ∨ rb.numUsed < delNum) ∧
      (∀ delNum, delNum = 0 ∨ rb.numUsed < delNum →
        emRingDeleteTaildata rb delNum = (-1, rb)) := by
  have start : EmRing.Shows params
      (emRingCreate params.blockSize params.capacity params.overrideMode
        rawdata blockPtr) .empty := by
    obtain ⟨wound, noContents⟩ := EmRing.created_wound valid rawdata blockPtr
    exact ⟨wound, noContents⟩
  obtain ⟨window, windowRun, shows⟩ := run.simulate
    (fun rb window => rb.Shows params window) start
    (fun _ _ _ _ shows taken => shows.step taken)
  have wound := shows.wound
  refine ⟨window, windowRun, SlidingWindow.pushed_eq windowRun, ?_, ?_, ?_,
    ?_, ?_, ?_⟩
  · rw [wound.read_tail, shows.contents_eq]
  · intro mode val
    obtain ⟨accepted, after, next, called, step, _⟩ := shows.addBuf_eq val
    cases accepted with
    | true => exact ⟨after, called⟩
    | false =>
        cases step with
        | refused _ keeps =>
            rw [RingParams.overwrites, mode] at keeps
            cases keeps
  · intro mode full
    exact wound.getDataptrNew_refused (full.trans wound.numMax_eq) mode
  · intro ptr after called offset live inside isLive
    obtain ⟨kept, room, rfl⟩ := wound.getDataptrNew_some called
    exact kept.head_apart room inside isLive
  · intro delNum
    constructor
    · intro failed
      by_contra valid
      obtain ⟨nonzero, enough⟩ := not_or.mp valid
      obtain ⟨after, called, _⟩ :=
        wound.deleteTaildata nonzero (Nat.not_lt.mp enough)
      rw [called] at failed
      cases failed
    · intro wrong
      rw [EmRing.Wound.deleteTaildata_invalid wrong]
  · intro delNum wrong
    exact EmRing.Wound.deleteTaildata_invalid wrong

/-- Three bytes pushed into a ring of two: the first one is overwritten. -/
theorem ring_is_sliding_window_overwritten :
    ∃ rb, Run EmRing.Step (emRingCreate 1 2 .update default default)
        [.push [7] true, .push [8] true, .push [9] true,
          .delete 3 false] rb ∧
      ∃ window : SlidingWindow (List UInt8) 2,
        window.pushed = [[7], [8], [9]] ∧
        (List.range rb.numUsed).map (fun offset =>
            (emRingGetDataptrTail rb offset).map
              (fun ptr => rb.rawdata.read ptr rb.blockSize)) =
          window.items.map some := by
  have run : ∃ rb, Run EmRing.Step (emRingCreate 1 2 .update default default)
      [.push [7] true, .push [8] true, .push [9] true, .delete 3 false] rb :=
    ⟨_, .cons (@EmRing.Step.push _ _ (fun _ => 7) 0 rfl)
      (.cons (@EmRing.Step.push _ _ (fun _ => 8) 0 rfl)
        (.cons (@EmRing.Step.push _ _ (fun _ => 9) 0 rfl)
          (.cons (@EmRing.Step.delete _ _ 3 (-1) rfl) .nil)))⟩
  obtain ⟨rb, run⟩ := run
  obtain ⟨window, _, pushed, reads, _⟩ := ring_is_sliding_window
    ⟨1, 2, .update⟩ ⟨by decide, by decide, by decide, by decide⟩ default
    default run
  exact ⟨rb, run, window, pushed, reads⟩

end EmbeddedMiddle
