import EmbeddedMiddle.Ringbuf
import EmbeddedMiddle.Foundation.CircularWindow
import EmbeddedMiddle.Foundation.SlidingWindow

/-!
# Newest first and oldest first

The slots of a ring are taken in turn.  `em_ring_get_dataptr_head` looks for
the slot of a recent element below `head_ptr`, `em_ring_get_dataptr_tail` above
`tail_ptr`; both compute with 32 bits.
-/

namespace EmbeddedMiddle

open Foundation

namespace EmRing

variable {rb : EmRing} {offset : ℕ}

/-- The index into `block_ptr` that `em_ring_get_dataptr_head` computes. -/
def headIdx (rb : EmRing) (offset : ℕ) : ℤ :=
  let idx := toInt32 ((rb.headPtr : ℤ) - 1 - offset)
  if idx < 0 then toInt32 (intToUint32 idx % rb.numMax : ℕ) else idx

/-- The index into `block_ptr` that `em_ring_get_dataptr_tail` computes. -/
def tailIdx (rb : EmRing) (offset : ℕ) : ℕ :=
  rb.wrap (uint32 (rb.tailPtr + offset))

theorem getDataptrHead_eq (inside : ¬ rb.numUsed < uint32 (offset + 1)) :
    emRingGetDataptrHead rb offset =
      some (rb.blockPtr (rb.headIdx offset).toNat) :=
  if_neg inside

theorem getDataptrTail_eq (inside : ¬ rb.numUsed < uint32 (offset + 1)) :
    emRingGetDataptrTail rb offset =
      some (rb.blockPtr (rb.tailIdx offset)) :=
  if_neg inside

/-- The slot as many places below `head_ptr` as the element is old. -/
def recentSlot (rb : EmRing) (offset : ℕ) : ℕ :=
  (rb.headPtr + rb.numMax - 1 - offset) % rb.numMax

/-! ## The arithmetic of the two indices -/

/-- The difference is an `int` that is not negative, or reducing it as a `uint`
does no harm. -/
structure HeadExact (rb : EmRing) (offset : ℕ) : Prop where
  reduced : rb.numMax ∣ 4294967296 ∨
    (offset < rb.headPtr ∧ rb.headPtr - 1 - offset ≤ intMax)

/-- No carry is lost when the index is counted from the tail. -/
structure TailExact (rb : EmRing) (offset : ℕ) : Prop where
  summed : (uint32 (rb.tailPtr + (rb.numUsed - 1 - offset)) + 1 + offset) %
    rb.numMax = rb.headPtr

theorem recentSlot_above (below : rb.headPtr < rb.numMax)
    (inside : offset < rb.headPtr) :
    rb.recentSlot offset = rb.headPtr - 1 - offset := by
  have split : rb.headPtr + rb.numMax - 1 - offset =
      rb.headPtr - 1 - offset + rb.numMax := by omega
  rw [recentSlot, split, Nat.add_mod_right]
  exact Nat.mod_eq_of_lt (lt_of_le_of_lt (by omega) below)

theorem recentSlot_below (behind : rb.headPtr ≤ offset)
    (inside : offset < rb.numMax) :
    rb.recentSlot offset = rb.headPtr + rb.numMax - 1 - offset :=
  Nat.mod_eq_of_lt (by omega)

/-- Counting down from `head_ptr` without passing slot 0. -/
theorem headIdx_above (unsigned : rb.numMax < 4294967296)
    (below : rb.headPtr < rb.numMax) (inside : offset < rb.headPtr) :
    rb.headIdx offset = rb.recentSlot offset ↔
      rb.headPtr - 1 - offset ≤ intMax := by
  rw [recentSlot_above below inside]
  obtain ⟨difference, isDifference⟩ :
      ∃ difference, difference = rb.headPtr - 1 - offset := ⟨_, rfl⟩
  have cast : (rb.headPtr : ℤ) - 1 - offset = (difference : ℤ) := by omega
  rw [← isDifference, headIdx, cast]
  have small : difference < rb.numMax := by omega
  by_cases range : difference ≤ intMax
  · refine iff_of_true ?_ range
    rw [toInt32_natCast range]
    exact if_neg (not_lt.mpr (Int.natCast_nonneg difference))
  · refine iff_of_false ?_ range
    have large : (2147483647 : ℤ) < difference := by
      unfold intMax at range
      omega
    have wrapped := toInt32_of_large large (by omega)
    have back : intToUint32 ((difference : ℤ) - 4294967296) = difference := by
      have := @intToUint32_of_neg ((difference : ℤ) - 4294967296)
        (by omega) (by omega)
      omega
    rw [wrapped]
    simp only [if_pos (show (difference : ℤ) - 4294967296 < 0 by omega)]
    rw [back, Nat.mod_eq_of_lt small, wrapped]
    omega

/-- Counting down from `head_ptr` past slot 0. -/
theorem headIdx_below (unsigned : rb.numMax < 4294967296)
    (behind : rb.headPtr ≤ offset) (inside : offset < rb.numMax) :
    rb.headIdx offset = rb.recentSlot offset ↔
      rb.numMax ∣ 4294967296 := by
  rw [recentSlot_below behind inside]
  obtain ⟨deficit, isDeficit⟩ :
      ∃ deficit, deficit = offset + 1 - rb.headPtr := ⟨_, rfl⟩
  have cast : (rb.headPtr : ℤ) - 1 - offset = -(deficit : ℤ) := by omega
  have slot : rb.headPtr + rb.numMax - 1 - offset = rb.numMax - deficit := by
    omega
  have positive : 1 ≤ deficit := by omega
  have atMost : deficit ≤ rb.numMax := by omega
  rw [slot, headIdx, cast]
  by_cases large : 2147483648 < deficit
  · -- The difference is below every `int` and comes out positive.
    have wrapped := @toInt32_of_small (-(deficit : ℤ)) (by omega) (by omega)
    rw [wrapped]
    simp only [if_neg (show ¬ -(deficit : ℤ) + 4294967296 < 0 by omega)]
    refine iff_of_false (by omega) ?_
    exact not_dvd_of_large (by omega) unsigned
  · have unchanged : toInt32 (-(deficit : ℤ)) = -(deficit : ℤ) :=
      toInt32_of_range (by omega) (by omega)
    have asUint := @intToUint32_of_neg (-(deficit : ℤ)) (by omega) (by omega)
    obtain ⟨word, isWord⟩ : ∃ word, word = 4294967296 := ⟨_, rfl⟩
    have back : intToUint32 (-(deficit : ℤ)) = word - deficit := by omega
    have reduced : (word - deficit) % rb.numMax < rb.numMax :=
      Nat.mod_lt _ (by omega)
    rw [unchanged]
    simp only [if_pos (show -(deficit : ℤ) < 0 by omega)]
    rw [back, ← isWord]
    by_cases range : (word - deficit) % rb.numMax ≤ intMax
    · rw [toInt32_natCast range, Int.natCast_inj]
      exact sub_mod_eq_iff positive atMost (by omega)
    · obtain ⟨index, isIndex⟩ :
          ∃ index, index = (word - deficit) % rb.numMax := ⟨_, rfl⟩
      rw [← isIndex] at range reduced ⊢
      have large : (2147483647 : ℤ) < index := by
        unfold intMax at range
        omega
      rw [toInt32_of_large large (by omega)]
      refine iff_of_false (by omega) ?_
      exact not_dvd_of_large (by omega) (by omega)

theorem headIdx_eq_iff (unsigned : rb.numMax < 4294967296)
    (below : rb.headPtr < rb.numMax) (inside : offset < rb.numMax) :
    rb.headIdx offset = rb.recentSlot offset ↔ rb.HeadExact offset := by
  by_cases above : offset < rb.headPtr
  · rw [headIdx_above unsigned below above]
    constructor
    · exact fun range => ⟨.inr ⟨above, range⟩⟩
    · rintro ⟨divides | ⟨_, range⟩⟩
      · -- A power of two that is no `int` does not fit in a `uint`.
        by_contra large
        refine not_dvd_of_large ?_ unsigned divides
        unfold intMax at large
        omega
      · exact range
  · rw [headIdx_below unsigned (Nat.not_lt.mp above) inside]
    constructor
    · exact fun divides => ⟨.inl divides⟩
    · rintro ⟨divides | ⟨inFront, _⟩⟩
      · exact divides
      · exact absurd inFront above

theorem wrap_eq_mod (rb : EmRing) (ptr : ℕ) :
    rb.wrap ptr = ptr % rb.numMax := by
  rw [wrap]
  split_ifs with outside
  · rfl
  · exact (Nat.mod_eq_of_lt (Nat.not_le.mp outside)).symm

theorem tailIdx_eq_iff (below : rb.headPtr < rb.numMax)
    (inside : offset < rb.numMax) :
    rb.tailIdx (rb.numUsed - 1 - offset) = rb.recentSlot offset ↔
      rb.TailExact offset := by
  have turn : (rb.headPtr + rb.numMax - 1 - offset + 1 + offset) % rb.numMax =
      rb.headPtr := by
    have split : rb.headPtr + rb.numMax - 1 - offset + 1 + offset =
        rb.headPtr + rb.numMax := by omega
    rw [split, Nat.add_mod_right, Nat.mod_eq_of_lt below]
  rw [tailIdx, wrap_eq_mod, recentSlot]
  constructor
  · intro same
    constructor
    have shifted := Nat.ModEq.add_right (1 + offset) same
    rw [← Nat.add_assoc, ← Nat.add_assoc] at shifted
    exact Eq.trans shifted turn
  · rintro ⟨summed⟩
    have shifted := summed.trans turn.symm
    rw [Nat.add_assoc _ 1, Nat.add_assoc
      (rb.headPtr + rb.numMax - 1 - offset) 1] at shifted
    exact Nat.ModEq.add_right_cancel' (1 + offset) shifted

/-! ## Pushes and deletions -/

/-- The calls on a ring, labelled with the slot that a push takes. -/
inductive SlotStep : EmRing → WindowEvent ℕ → EmRing → Prop where
  | push {rb after : EmRing} {val : Bytes} {ret : ℤ} :
      addBuf rb val = (ret, after) →
      SlotStep rb (.push rb.headPtr (decide (ret = 0))) after
  | delete {rb after : EmRing} {delNum : ℕ} {ret : ℤ} :
      emRingDeleteTaildata rb delNum = (ret, after) →
      SlotStep rb (.delete delNum (decide (ret = 0))) after

/-- The counters of a ring against the slots taken since its creation.  The
tail is only followed where adding two indices cannot overflow. -/
structure Counted (overrideMode : OverrideMode) {capacity : ℕ} (rb : EmRing)
    (window : SlidingWindow ℕ capacity) : Prop where
  numMax_eq : rb.numMax = capacity
  overrideMode_eq : rb.overrideMode = overrideMode
  used_eq : rb.numUsed = window.items.length
  pushed_eq : window.pushed =
    (List.range window.pushed.length).map (· % capacity)
  head_eq : rb.headPtr = window.pushed.length % capacity
  tail_eq : capacity ≤ 2147483648 → rb.tailPtr = window.deleted % capacity

namespace Counted

variable {overrideMode : OverrideMode} {capacity : ℕ}
  {window : SlidingWindow ℕ capacity}

theorem used_le (counted : rb.Counted overrideMode window) :
    rb.numUsed ≤ capacity := by
  have total := window.length_items
  have bounded := window.bounded
  rw [counted.used_eq]
  omega

theorem deleteTaildata (counted : rb.Counted overrideMode window)
    (nonempty : 0 < capacity) {delNum : ℕ}
    (nonzero : delNum ≠ 0) (enough : delNum ≤ window.items.length) :
    ∃ after, emRingDeleteTaildata rb delNum = (0, after) ∧
      after.headPtr = rb.headPtr ∧
      after.Counted overrideMode (window.delete delNum enough) := by
  have used := counted.used_le
  have total := window.length_items
  have invalid : ¬ (delNum = 0 ∨ rb.numUsed < delNum) := by
    rw [counted.used_eq]
    omega
  rw [emRingDeleteTaildata, if_neg invalid]
  refine ⟨_, rfl, rfl, ⟨counted.numMax_eq, counted.overrideMode_eq, ?_,
    counted.pushed_eq, counted.head_eq, ?_⟩⟩
  · rw [SlidingWindow.items_delete, List.length_drop, ← counted.used_eq]
  · intro indexed
    have tail := counted.tail_eq indexed
    have below : rb.tailPtr < capacity := tail ▸ Nat.mod_lt _ nonempty
    rw [← counted.used_eq] at enough
    simp only
    rw [wrap_eq_mod, counted.numMax_eq, uint32_of_lt (by omega), tail,
      Nat.mod_add_mod]
    rfl

/-- A slot is taken when there is room. -/
theorem addNewdata (counted : rb.Counted overrideMode window)
    (unsigned : capacity < 4294967296)
    (room : window.items.length < capacity) (rawdata : Bytes) :
    ∃ after, emRingAddNewdata { rb with rawdata } = (0, after) ∧
      after.Counted overrideMode (window.push rb.headPtr room) := by
  have full : ¬ rb.numMax ≤ rb.numUsed := by
    rw [counted.numMax_eq, counted.used_eq]
    exact Nat.not_le.mpr room
  have below : rb.headPtr < capacity := by
    rw [counted.head_eq]
    exact Nat.mod_lt _ (by omega)
  have counts : uint32 (rb.numUsed + 1) = rb.numUsed + 1 := by
    rw [counted.used_eq]
    exact uint32_of_lt (by omega)
  have moves : uint32 (rb.headPtr + 1) = rb.headPtr + 1 :=
    uint32_of_lt (by omega)
  rw [emRingAddNewdata, if_neg full, counts, moves]
  refine ⟨_, rfl, ⟨counted.numMax_eq, counted.overrideMode_eq, ?_, ?_, ?_,
    counted.tail_eq⟩⟩
  · rw [SlidingWindow.items_push, List.length_append, ← counted.used_eq]
    rfl
  · simp only [SlidingWindow.push, List.length_append, List.length_singleton,
      List.range_succ, List.map_append, ← counted.pushed_eq, counted.head_eq,
      List.map_singleton]
  · simp only [SlidingWindow.push, List.length_append, List.length_singleton]
    change rb.wrap _ = _
    rw [wrap_eq_mod, counted.numMax_eq, counted.head_eq, Nat.mod_add_mod]

theorem isFull (counted : rb.Counted overrideMode window)
    (full : window.items.length = capacity) : rb.numMax ≤ rb.numUsed := by
  rw [counted.numMax_eq, counted.used_eq, full]

/-- A full ring gives up its oldest slot. -/
theorem addBuf_update (counted : rb.Counted .update window)
    (nonempty : 0 < capacity) (unsigned : capacity < 4294967296)
    (full : window.items.length = capacity) (val : Bytes) :
    ∃ after next,
      addBuf rb val = (0, after) ∧
        SlidingWindow.Step true window (.push rb.headPtr true) next ∧
        after.Counted .update next := by
  have one : 1 ≤ window.items.length := nonempty.trans_eq full.symm
  obtain ⟨given, deleted, sameHead, givenCounted⟩ :=
    counted.deleteTaildata nonempty Nat.one_ne_zero one
  obtain ⟨after, called, kept⟩ := givenCounted.addNewdata unsigned
    (window.room_of_delete one)
    (given.rawdata.copy (given.blockPtr given.headPtr) val given.blockSize)
  rw [sameHead] at kept
  refine ⟨after, _, ?_, .overwritten one full rfl, kept⟩
  rw [addBuf, emRingGetDataptrNew, if_pos (counted.isFull full),
    counted.overrideMode_eq]
  simp only [deleted]
  exact called

/-- In a mode that the ring does not know the slot is handed out, but the push
fails behind it. -/
theorem addBuf_other (counted : rb.Counted .other window)
    (full : window.items.length = capacity) (val : Bytes) :
    ∃ after, addBuf rb val = (-1, after) ∧ after.Counted .other window := by
  have isFull := counted.isFull full
  have handed : emRingGetDataptrNew rb =
      (some (rb.blockPtr rb.headPtr), rb) := by
    rw [emRingGetDataptrNew, if_pos isFull, counted.overrideMode_eq]
  refine ⟨{ rb with
      rawdata := rb.rawdata.copy (rb.blockPtr rb.headPtr) val rb.blockSize },
    ?_, ⟨counted.numMax_eq, counted.overrideMode_eq, counted.used_eq,
      counted.pushed_eq, counted.head_eq, counted.tail_eq⟩⟩
  rw [addBuf, handed]
  exact if_pos isFull

/-- A push in each mode; whether it takes a slot is up to the mode when the
ring is full. -/
theorem addBuf_eq (counted : rb.Counted overrideMode window)
    (nonempty : 0 < capacity) (unsigned : capacity < 4294967296)
    (val : Bytes) :
    ∃ accepted after next,
      addBuf rb val = (retOf accepted, after) ∧
        SlidingWindow.Step (overrideMode == .update) window
          (.push rb.headPtr accepted) next ∧
        after.Counted overrideMode next := by
  have used := counted.used_le
  rw [counted.used_eq] at used
  rcases used.lt_or_eq with room | full
  · have hasRoom : ¬ rb.numMax ≤ rb.numUsed := by
      rw [counted.numMax_eq, counted.used_eq]
      exact Nat.not_le.mpr room
    obtain ⟨after, called, kept⟩ := counted.addNewdata unsigned room
      (rb.rawdata.copy (rb.blockPtr rb.headPtr) val rb.blockSize)
    refine ⟨true, after, _, ?_, .push room, kept⟩
    rw [addBuf, emRingGetDataptrNew, if_neg hasRoom]
    exact called
  · cases overrideMode with
    | error =>
        refine ⟨false, rb, window, ?_, .refused full rfl, counted⟩
        rw [addBuf, emRingGetDataptrNew, if_pos (counted.isFull full),
          counted.overrideMode_eq]
        rfl
    | update =>
        obtain ⟨after, next, called, taken, kept⟩ :=
          counted.addBuf_update nonempty unsigned full val
        exact ⟨true, after, next, called, taken, kept⟩
    | other =>
        obtain ⟨after, called, kept⟩ := counted.addBuf_other full val
        exact ⟨false, after, window, called, .refused full rfl, kept⟩

theorem step (counted : rb.Counted overrideMode window)
    (nonempty : 0 < capacity) (unsigned : capacity < 4294967296)
    {event : WindowEvent ℕ} {after : EmRing}
    (taken : rb.SlotStep event after) :
    ∃ next, SlidingWindow.Step (overrideMode == .update) window event next ∧
      after.Counted overrideMode next := by
  cases taken with
  | push called =>
      rename_i val ret
      obtain ⟨accepted, reached, next, returned, step, kept⟩ :=
        counted.addBuf_eq nonempty unsigned val
      obtain ⟨rfl, rfl⟩ := Prod.mk.inj (returned.symm.trans called)
      refine ⟨next, ?_, kept⟩
      cases accepted <;> exact step
  | delete called =>
      rename_i delNum ret
      by_cases wrong : delNum = 0 ∨ rb.numUsed < delNum
      · rw [emRingDeleteTaildata, if_pos wrong] at called
        obtain ⟨rfl, rfl⟩ := Prod.mk.inj called
        exact ⟨window, .invalid (counted.used_eq ▸ wrong), counted⟩
      · obtain ⟨nonzero, enough⟩ := not_or.mp wrong
        rw [Nat.not_lt, counted.used_eq] at enough
        obtain ⟨reached, returned, _, kept⟩ :=
          counted.deleteTaildata nonempty nonzero enough
        obtain ⟨rfl, rfl⟩ := Prod.mk.inj (returned.symm.trans called)
        exact ⟨_, .delete enough nonzero, kept⟩

/-- The live slots in the order of the pushes, counted from the last one. -/
theorem recent_eq (counted : rb.Counted overrideMode window)
    (live : offset < rb.numUsed) :
    window.items.reverse[offset]? = some (rb.recentSlot offset) := by
  have total := window.length_items
  have bounded := window.bounded
  rw [counted.used_eq] at live
  have fromEnd : window.items.length - 1 - offset + window.deleted =
      window.pushed.length - 1 - offset := by omega
  have inPushed : window.pushed.length - 1 - offset < window.pushed.length := by
    omega
  have element : window.pushed[window.pushed.length - 1 - offset]? =
      some ((window.pushed.length - 1 - offset) % capacity) := by
    rw [counted.pushed_eq, List.getElem?_map]
    simp [inPushed]
  rw [List.getElem?_reverse live, SlidingWindow.items, List.getElem?_drop,
    ← SlidingWindow.items, Nat.add_comm, fromEnd, element, recentSlot,
    counted.head_eq, counted.numMax_eq]
  congr 1
  have turn : window.pushed.length % capacity + capacity - 1 - offset =
      window.pushed.length % capacity + (capacity - 1 - offset) := by omega
  have whole : window.pushed.length + (capacity - 1 - offset) =
      window.pushed.length - 1 - offset + capacity := by omega
  rw [turn, Nat.mod_add_mod, whole, Nat.add_mod_right]

/-- With at most `2 ^ 31` slots no carry is lost at the tail. -/
theorem tailExact (counted : rb.Counted overrideMode window)
    (nonempty : 0 < capacity) (indexed : capacity ≤ 2147483648)
    (live : offset < rb.numUsed) : rb.TailExact offset := by
  have total := window.length_items
  have used := counted.used_le
  have tail := counted.tail_eq indexed
  have below : rb.tailPtr < capacity := tail ▸ Nat.mod_lt _ nonempty
  constructor
  rw [uint32_of_lt (by omega), counted.numMax_eq, counted.head_eq, tail]
  have sum : window.deleted % capacity + (rb.numUsed - 1 - offset) + 1 +
      offset = window.deleted % capacity + rb.numUsed := by omega
  rw [sum, Nat.mod_add_mod, counted.used_eq, Nat.add_comm, total]

end Counted

theorem created_counted (blockSize capacity : ℕ) (overrideMode : OverrideMode)
    (rawdata : Bytes) (blockPtr : ℕ → ℕ) :
    (emRingCreate blockSize capacity overrideMode rawdata blockPtr).Counted
      overrideMode (.empty : SlidingWindow ℕ capacity) := by
  simp only [emRingCreate, foldl_ring_blockPtr]
  exact ⟨rfl, rfl, rfl, rfl, (Nat.zero_mod _).symm,
    fun _ => (Nat.zero_mod _).symm⟩

/-- `slot` is in the ring, and both ways lead to it. -/
structure FoundAt (rb : EmRing) (offset slot : ℕ) : Prop where
  inside : slot < rb.numMax
  headIdx_eq : rb.headIdx offset = slot
  head : emRingGetDataptrHead rb offset = some (rb.blockPtr slot)
  tailIdx_eq : rb.tailIdx (rb.numUsed - 1 - offset) = slot
  tail : emRingGetDataptrTail rb (rb.numUsed - 1 - offset) =
    some (rb.blockPtr slot)

theorem foundAt_iff (unsigned : rb.numMax < 4294967296)
    (below : rb.headPtr < rb.numMax) (used : rb.numUsed ≤ rb.numMax)
    (live : offset < rb.numUsed) :
    rb.FoundAt offset (rb.recentSlot offset) ↔
      rb.HeadExact offset ∧ rb.TailExact offset := by
  have inside : offset < rb.numMax := live.trans_le used
  rw [← headIdx_eq_iff unsigned below inside, ← tailIdx_eq_iff below inside]
  constructor
  · intro found
    exact ⟨found.headIdx_eq, found.tailIdx_eq⟩
  · rintro ⟨headIdx, tailIdx⟩
    have atHead : ¬ rb.numUsed < uint32 (offset + 1) := by
      rw [uint32_of_lt (by omega)]
      omega
    have atTail : ¬ rb.numUsed < uint32 (rb.numUsed - 1 - offset + 1) := by
      rw [uint32_of_lt (by omega)]
      omega
    refine ⟨Nat.mod_lt _ (by omega), headIdx, ?_, tailIdx, ?_⟩
    · rw [getDataptrHead_eq atHead, headIdx, Int.toNat_natCast]
    · rw [getDataptrTail_eq atTail, tailIdx]

end EmRing

/-- In every ring and after any pushes and deletions, the element that was
pushed `offset` pushes before the last is found from the head and from the
tail if and only if the index can be computed with 32 bits on either way. -/
theorem ring_head_eq_tail_iff (blockSize capacity : ℕ)
    (overrideMode : OverrideMode) (rawdata : Bytes) (blockPtr : ℕ → ℕ)
    (nonempty : 1 ≤ capacity) (unsigned : capacity < 4294967296)
    {events : List (WindowEvent ℕ)} {rb : EmRing}
    (run : Run EmRing.SlotStep
      (emRingCreate blockSize capacity overrideMode rawdata blockPtr)
      events rb) :
    ∃ window : SlidingWindow ℕ capacity,
      Run (SlidingWindow.Step (overrideMode == .update)) .empty events
        window ∧
      window.items.length = rb.numUsed ∧
      ∀ offset, offset < rb.numUsed →
        ((∃ slot, window.items.reverse[offset]? = some slot ∧
            rb.FoundAt offset slot) ↔
          rb.HeadExact offset ∧ rb.TailExact offset) ∧
        (capacity ≤ 2147483648 → rb.TailExact offset) := by
  obtain ⟨window, windowRun, counted⟩ := run.simulate
    (fun rb window => rb.Counted overrideMode window)
    (EmRing.created_counted blockSize capacity overrideMode rawdata blockPtr)
    (fun _ _ _ _ counted taken => counted.step nonempty unsigned taken)
  refine ⟨window, windowRun, counted.used_eq.symm, ?_⟩
  intro offset live
  have below : rb.headPtr < rb.numMax := by
    rw [counted.head_eq, counted.numMax_eq]
    exact Nat.mod_lt _ nonempty
  have exactly := EmRing.foundAt_iff (counted.numMax_eq ▸ unsigned) below
    (counted.numMax_eq ▸ counted.used_le) live
  refine ⟨?_, fun indexed => counted.tailExact nonempty indexed live⟩
  rw [← exactly, counted.recent_eq live]
  constructor
  · rintro ⟨slot, ⟨⟩, found⟩
    exact found
  · exact fun found => ⟨_, rfl, found⟩

/-- Four pushes into a ring of three slots. -/
def fourPushes : List (WindowEvent ℕ) :=
  [.push 0 true, .push 1 true, .push 2 true, .push 0 true]

theorem exists_fourPushes :
    ∃ rb, Run EmRing.SlotStep (emRingCreate 1 3 .update default default)
        fourPushes rb ∧
      rb.numMax = 3 ∧ rb.numUsed = 3 ∧ rb.headPtr = 1 ∧
        emRingGetDataptrHead rb 1 = some 0 ∧
        emRingGetDataptrTail rb 1 = some 2 :=
  ⟨_, .cons (@EmRing.SlotStep.push _ _ default 0 rfl)
    (.cons (@EmRing.SlotStep.push _ _ default 0 rfl)
      (.cons (@EmRing.SlotStep.push _ _ default 0 rfl)
        (.cons (@EmRing.SlotStep.push _ _ default 0 rfl) .nil))),
    rfl, rfl, rfl, rfl, rfl⟩

theorem ring_head_eq_tail_newest :
    ∃ rb, Run EmRing.SlotStep (emRingCreate 1 3 .update default default)
        fourPushes rb ∧ ∃ slot, rb.FoundAt 0 slot := by
  obtain ⟨rb, run, numMax, used, head, _, _⟩ := exists_fourPushes
  obtain ⟨window, _, _, found⟩ := ring_head_eq_tail_iff 1 3 .update default
    default (by decide) (by decide) run
  obtain ⟨exactly, tailExact⟩ := found 0 (by rw [used]; decide)
  have headExact : rb.HeadExact 0 :=
    ⟨.inr ⟨by rw [head]; decide, by rw [head]; decide⟩⟩
  obtain ⟨slot, _, foundAt⟩ :=
    exactly.mpr ⟨headExact, tailExact (by decide)⟩
  exact ⟨rb, run, slot, foundAt⟩

/-- Past slot 0 the head path ends up in another slot than the tail path. -/
theorem ring_head_other_slot :
    ¬ ∀ (blockSize capacity : ℕ) (overrideMode : OverrideMode)
        (rawdata : Bytes) (blockPtr : ℕ → ℕ) (events : List (WindowEvent ℕ))
        (rb : EmRing),
      1 ≤ capacity → capacity < 4294967296 →
      Run EmRing.SlotStep
        (emRingCreate blockSize capacity overrideMode rawdata blockPtr)
        events rb →
      ∀ offset, offset < rb.numUsed →
        emRingGetDataptrHead rb offset =
          emRingGetDataptrTail rb (rb.numUsed - 1 - offset) := by
  intro always
  obtain ⟨rb, run, _, used, _, head, tail⟩ := exists_fourPushes
  have same := always 1 3 .update default default _ rb (by decide) (by decide)
    run 1 (by rw [used]; decide)
  rw [used, head, tail] at same
  exact absurd same (by decide)

/-! ## Offsets behind the last element -/

namespace EmRing

variable {rb : EmRing} {offset : ℕ}

/-- Both ways refuse the offset. -/
structure Rejected (rb : EmRing) (offset : ℕ) : Prop where
  head : emRingGetDataptrHead rb offset = none
  tail : emRingGetDataptrTail rb offset = none

theorem rejected_iff : rb.Rejected offset ↔
    rb.numUsed < uint32 (offset + 1) := by
  constructor
  · intro rejected
    by_contra inside
    have found := getDataptrHead_eq inside
    rw [rejected.head] at found
    cases found
  · intro outside
    exact ⟨if_pos outside, if_pos outside⟩

end EmRing

/-- Of the offsets behind the last element exactly the largest one is not
refused, in whatever state the ring is. -/
theorem ring_offset_rejected_iff (rb : EmRing) (offset : ℕ)
    (outside : rb.numUsed ≤ offset) (unsigned : offset < 4294967296) :
    rb.Rejected offset ↔ offset ≠ 4294967295 := by
  rw [EmRing.rejected_iff]
  constructor
  · intro rejected isLargest
    subst isLargest
    exact Nat.not_lt_zero _ rejected
  · intro smaller
    rw [uint32_of_lt (by omega)]
    omega

theorem ring_offset_rejected_empty :
    (emRingCreate 1 3 .update default default).Rejected 4294967294 :=
  (ring_offset_rejected_iff _ _ (Nat.zero_le _) (by decide)).mpr (by decide)

/-- An empty ring hands out a slot. -/
theorem ring_offset_accepted_empty :
    ¬ ∀ (blockSize capacity : ℕ) (overrideMode : OverrideMode)
        (rawdata : Bytes) (blockPtr : ℕ → ℕ) (events : List (WindowEvent ℕ))
        (rb : EmRing),
      1 ≤ capacity → capacity < 4294967296 →
      Run EmRing.SlotStep
        (emRingCreate blockSize capacity overrideMode rawdata blockPtr)
        events rb →
      ∀ offset, rb.numUsed ≤ offset → offset < 4294967296 →
        rb.Rejected offset := by
  intro rejected
  have none := (rejected 1 3 .update default default [] _ (by decide)
    (by decide) .nil 4294967295 (Nat.zero_le _) (by decide)).head
  cases none

end EmbeddedMiddle
