import EmbeddedMiddle.Upload
import EmbeddedMiddle.RingbufWindow

/-!
# The buffers of an upload

The registered buffers are the live part of the ring, and the buffer that is
being filled lies behind them.  The ring has to keep a slot for it.
-/

namespace EmbeddedMiddle

open Foundation

/-- The parameters of the ring of an upload manager. -/
def uploadRing (uldataSendbufNum sizeofUldata : ℕ) : RingParams :=
  ⟨sizeofUldata, uldataSendbufNum, .error⟩

namespace EmUpload

/-- The structure in a slot of the ring. -/
def uldataAt (ul : EmUpload) (index : ℕ) : EmUldata :=
  ul.slots (ul.rbUldata.blockPtr index)

/-- The registered buffers, oldest first. -/
def pending (ul : EmUpload) : List EmUldata :=
  window ul.uldataAt ul.rbUldata.numMax ul.rbUldata.tailPtr
    ul.rbUldata.numUsed

/-- The buffer behind the registered ones. -/
def current (ul : EmUpload) : EmUldata := ul.uldataAt ul.rbUldata.headPtr

/-- What `em_uldata_init` has set up and nobody has destroyed. -/
structure Initialised (ul : EmUpload) (ud : EmUldata) : Prop where
  name : ud.dataName = ul.uldataName.getD uldataNoName
  capacity : ud.buf.bufCapacity = ul.uldataBufCapacity
  alive : ud.buf.data ≠ none

/-- The counters of ring and manager agree, and a slot is left for the buffer
that is being filled. -/
structure Ordered (params : RingParams) (ul : EmUpload) : Prop where
  wound : ul.rbUldata.Wound params
  mode : params.overrideMode = .error
  positive : 0 < params.blockSize
  counted : params.capacity ≤ intMax
  named : (ul.uldataName.getD uldataNoName).length < sizeofDataName
  room : ul.rbUldata.numUsed < params.capacity
  uldata_eq : ul.uldata = some (ul.rbUldata.blockPtr ul.rbUldata.headPtr)
  numSendbuf_eq : ul.numSendbuf = ul.rbUldata.numUsed
  maxSendbuf_eq : ul.maxSendbuf = params.capacity
  initialised : ul.Initialised ul.current

namespace Ordered

variable {params : RingParams} {ul : EmUpload}

theorem toNat_numSendbuf (ordered : ul.Ordered params) :
    ul.numSendbuf.toNat = ul.rbUldata.numUsed := by
  rw [ordered.numSendbuf_eq, Int.toNat_natCast]

theorem uint_numSendbuf (ordered : ul.Ordered params) :
    intToUint32 ul.numSendbuf = ul.rbUldata.numUsed := by
  rw [ordered.numSendbuf_eq]
  exact intToUint32_natCast (ordered.room.le.trans ordered.counted)

/-- Different slots have different addresses. -/
theorem blockPtr_ne (ordered : ul.Ordered params) {left right : ℕ}
    (leftBelow : left < params.capacity)
    (rightBelow : right < params.capacity) (different : left ≠ right) :
    ul.rbUldata.blockPtr left ≠ ul.rbUldata.blockPtr right := by
  rw [ordered.wound.blockPtr_eq left leftBelow,
    ordered.wound.blockPtr_eq right rightBelow]
  intro same
  exact different (Nat.eq_of_mul_eq_mul_left ordered.positive same)

/-- A registered buffer is not the one that is being filled. -/
theorem pending_ne (ordered : ul.Ordered params) {offset : ℕ}
    (registered : offset < ul.rbUldata.numUsed) :
    (ul.rbUldata.tailPtr + offset) % params.capacity ≠
      ul.rbUldata.headPtr := by
  rw [ordered.wound.head_eq]
  exact wrapped_ne registered ordered.room

theorem tail_lt (ordered : ul.Ordered params) (offset : ℕ) :
    (ul.rbUldata.tailPtr + offset) % params.capacity < params.capacity :=
  Nat.mod_lt _ ordered.wound.valid.nonempty

/-! ## Filling the buffer -/

/-- Writing the current structure leaves the registered ones alone. -/
theorem fill (ordered : ul.Ordered params) {ud : EmUldata}
    (initialised : ul.Initialised ud) :
    Ordered params { ul with
        slots := Function.update ul.slots
          (ul.rbUldata.blockPtr ul.rbUldata.headPtr) ud } ∧
      pending { ul with
        slots := Function.update ul.slots
          (ul.rbUldata.blockPtr ul.rbUldata.headPtr) ud } = ul.pending ∧
      current { ul with
        slots := Function.update ul.slots
          (ul.rbUldata.blockPtr ul.rbUldata.headPtr) ud } = ud := by
  have isCurrent : current { ul with
      slots := Function.update ul.slots
        (ul.rbUldata.blockPtr ul.rbUldata.headPtr) ud } = ud :=
    Function.update_self _ _ _
  refine ⟨⟨ordered.wound, ordered.mode, ordered.positive, ordered.counted,
    ordered.named, ordered.room, ordered.uldata_eq, ordered.numSendbuf_eq,
    ordered.maxSendbuf_eq, ?_⟩, ?_, isCurrent⟩
  · rw [isCurrent]
    exact ⟨initialised.name, initialised.capacity, initialised.alive⟩
  · apply window_congr
    intro offset registered
    simp only [ordered.wound.numMax_eq]
    apply Function.update_of_ne
    exact ordered.blockPtr_ne (ordered.tail_lt offset) ordered.wound.head_lt
      (ordered.pending_ne registered)

theorem append_eq (ordered : ul.Ordered params) (data : Bytes)
    (length : ℤ) :
    emUploadAppendBuf ul data length =
      some ((emUldataAppendBuf ul.current data length).1, { ul with
        slots := Function.update ul.slots
          (ul.rbUldata.blockPtr ul.rbUldata.headPtr)
          (emUldataAppendBuf ul.current data length).2 }) := by
  rw [emUploadAppendBuf, ordered.uldata_eq]
  rfl

theorem append_initialised {ud : EmUldata}
    (initialised : ul.Initialised ud) (data : Bytes) (length : ℤ) :
    ul.Initialised (emUldataAppendBuf ud data length).2 := by
  obtain ⟨bytes, isData⟩ := Option.ne_none_iff_exists'.mp initialised.alive
  simp only [emUldataAppendBuf, emBufAppend, isData]
  split_ifs
  · exact ⟨initialised.name, initialised.capacity, by simp [isData]⟩
  · exact ⟨initialised.name, initialised.capacity, by simp⟩

/-! ## Registering the buffer -/

theorem add_below (ordered : ul.Ordered params) :
    ¬ ul.maxSendbuf ≤ ul.numSendbuf := by
  rw [ordered.maxSendbuf_eq, ordered.numSendbuf_eq]
  have room := ordered.room
  omega

/-- The ring has one more, and the next slot has a new structure. -/
def registered (ul : EmUpload) (ring : EmRing) (fresh : EmUldata) :
    EmUpload :=
  { ul with
    uldata := some (ring.blockPtr ring.headPtr)
    rbUldata := ring
    slots := Function.update ul.slots (ring.blockPtr ring.headPtr) fresh
    numSendbuf := ul.rbUldata.numUsed + 1 }

theorem registered_current (ul : EmUpload) (ring : EmRing)
    (fresh : EmUldata) : (registered ul ring fresh).current = fresh :=
  Function.update_self _ _ _

/-- The new structure overwrites none that is registered. -/
theorem registered_pending (ordered : ul.Ordered params) {ring : EmRing}
    (grown : ring.Wound params)
    (used : ring.numUsed = ul.rbUldata.numUsed + 1)
    (sameTail : ring.tailPtr = ul.rbUldata.tailPtr)
    (sameBlocks : ring.blockPtr = ul.rbUldata.blockPtr)
    (left : ul.rbUldata.numUsed + 1 < params.capacity) (fresh : EmUldata) :
    (registered ul ring fresh).pending = ul.pending ++ [ul.current] := by
  have behind : (ul.rbUldata.tailPtr + ul.rbUldata.numUsed) %
      params.capacity = ul.rbUldata.headPtr := ordered.wound.head_eq.symm
  have unwritten : ∀ offset, offset < ul.rbUldata.numUsed + 1 →
      (registered ul ring fresh).uldataAt
        ((ul.rbUldata.tailPtr + offset) % params.capacity) =
      ul.uldataAt ((ul.rbUldata.tailPtr + offset) % params.capacity) := by
    intro offset inside
    simp only [registered, uldataAt, sameBlocks]
    apply Function.update_of_ne
    apply ordered.blockPtr_ne (ordered.tail_lt offset) grown.head_lt
    rw [grown.head_eq, sameTail, used]
    exact wrapped_ne inside left
  change window (registered ul ring fresh).uldataAt ring.numMax ring.tailPtr
    ring.numUsed = _
  rw [used, sameTail, grown.numMax_eq, window_congr unwritten,
    window_append ordered.room (fun _ _ _ => rfl), behind, pending,
    ordered.wound.numMax_eq]
  rfl

/-- With a slot left the ring grows by one, and the slot it then hands out
gets a new structure. -/
theorem add_eq (ordered : ul.Ordered params)
    (left : ul.rbUldata.numUsed + 1 < params.capacity) (memory : Bytes) :
    ∃ ring fresh,
      emUldataInit ul.uldataName (intToUint32 ul.uldataVer) ul.uldataType
          ul.uldataBufCapacity memory = some fresh ∧
        emUploadAddUldata ul memory = some (0, registered ul ring fresh) ∧
        ring.Wound params ∧ ring.numUsed = ul.rbUldata.numUsed + 1 ∧
        ring.tailPtr = ul.rbUldata.tailPtr ∧
        ring.blockPtr = ul.rbUldata.blockPtr ∧
        ul.Initialised fresh := by
  have counted := ordered.counted
  have below := ordered.add_below
  obtain ⟨added, grown⟩ := ordered.wound.addNewdata_eq ordered.room
  generalize isRing : ({ ul.rbUldata with
    numUsed := ul.rbUldata.numUsed + 1
    headPtr := (ul.rbUldata.headPtr + 1) % params.capacity } : EmRing) =
      ring at added grown
  have used : ring.numUsed = ul.rbUldata.numUsed + 1 := by rw [← isRing]
  have sameTail : ring.tailPtr = ul.rbUldata.tailPtr := by rw [← isRing]
  have sameBlocks : ring.blockPtr = ul.rbUldata.blockPtr := by rw [← isRing]
  have handed := grown.getDataptrNew_room (used ▸ left)
  have initialised := emUldataInit_fits ordered.named
    (intToUint32 ul.uldataVer) ul.uldataType ul.uldataBufCapacity memory
  have sum : toInt32 (ul.numSendbuf + 1) = ul.rbUldata.numUsed + 1 := by
    rw [ordered.numSendbuf_eq]
    unfold intMax at counted
    exact toInt32_of_range (by omega) (by omega)
  refine ⟨ring, _, initialised, ?_, grown, used, sameTail, sameBlocks, rfl,
    rfl, by simp [emBufInit]⟩
  simp only [emUploadAddUldata, if_neg below, added, handed, initUldata,
    initialised, Option.map_some, sum]
  rfl

/-- With a slot left for the next buffer the current one is registered. -/
theorem add_room (ordered : ul.Ordered params)
    (left : ul.rbUldata.numUsed + 1 < params.capacity) (memory : Bytes) :
    ∃ after, emUploadAddUldata ul memory = some (0, after) ∧
      after.Ordered params ∧
      after.pending = ul.pending ++ [ul.current] ∧
      some after.current = emUldataInit ul.uldataName
        (intToUint32 ul.uldataVer) ul.uldataType ul.uldataBufCapacity memory ∧
      after.hc = ul.hc ∧ after.uldataName = ul.uldataName ∧
      after.uldataVer = ul.uldataVer ∧ after.uldataType = ul.uldataType ∧
      after.uldataBufCapacity = ul.uldataBufCapacity := by
  obtain ⟨ring, fresh, created, added, grown, used, sameTail, sameBlocks,
    initialised⟩ := ordered.add_eq left memory
  refine ⟨registered ul ring fresh, added, ?_,
    ordered.registered_pending grown used sameTail sameBlocks left fresh, ?_,
    rfl, rfl, rfl, rfl, rfl⟩
  · refine ⟨grown, ordered.mode, ordered.positive, ordered.counted,
      ordered.named, used ▸ left, rfl, ?_, ordered.maxSendbuf_eq, ?_⟩
    · simp [registered, used]
    · rw [registered_current]
      exact ⟨initialised.name, initialised.capacity, initialised.alive⟩
  · rw [created, registered_current]

/-- Without one, NULL is used. -/
theorem add_last (ordered : ul.Ordered params)
    (last : ul.rbUldata.numUsed + 1 = params.capacity) (memory : Bytes) :
    emUploadAddUldata ul memory = none := by
  have below := ordered.add_below
  obtain ⟨added, grown⟩ := ordered.wound.addNewdata_eq ordered.room
  have refused := grown.getDataptrNew_refused last ordered.mode
  simp only [emUploadAddUldata, if_neg below, added, refused, initUldata]

/-! ## Sending -/

/-- The pointer to a registered structure. -/
def pointer (params : RingParams) (ul : EmUpload) (offset : ℕ) : ℕ :=
  ul.rbUldata.blockPtr ((ul.rbUldata.tailPtr + offset) % params.capacity)

theorem fillSendbuf_eq (ordered : ul.Ordered params) {offset : ℕ}
    (registered : offset < ul.rbUldata.numUsed) :
    ul.fillSendbuf.sendbuf offset = some (pointer params ul offset) := by
  simp only [fillSendbuf, ordered.toNat_numSendbuf, foldl_update,
    if_pos registered]
  exact ordered.wound.getDataptrTail registered

theorem mapM_eq_some {Item Result : Type} {items : List Item}
    {look : Item → Option Result} {found : Item → Result}
    (given : ∀ item ∈ items, look item = some (found item)) :
    items.mapM look = some (items.map found) := by
  induction items with
  | nil => rfl
  | cons item items induction =>
      have following := induction (fun other member =>
        given other (List.mem_cons_of_mem _ member))
      rw [List.mapM_cons, given item List.mem_cons_self, following]
      rfl

/-- The parts are those of the registered structures, in their order. -/
theorem multi_eq (ordered : ul.Ordered params) (transfer : CurlTransfer) :
    emUploadMulti ul.fillSendbuf ul.fillSendbuf.sendbuf
        (intToUint32 ul.numSendbuf) transfer =
      some (emHttpcPostMultipart ul.hc ul.serverUrl
        (ul.pending.map EmUldata.httppart) transfer) := by
  have pointers : (List.range ul.rbUldata.numUsed).mapM
      ul.fillSendbuf.sendbuf =
        some ((List.range ul.rbUldata.numUsed).map (pointer params ul)) := by
    apply mapM_eq_some
    intro offset inRange
    exact ordered.fillSendbuf_eq (List.mem_range.mp inRange)
  simp only [emUploadMulti, ordered.uint_numSendbuf, pointers]
  simp only [pending, window, ordered.wound.numMax_eq, List.map_map]
  rfl

/-- Destroying the registered structures leaves the current one alone. -/
theorem destroySendbuf_current (ordered : ul.Ordered params) :
    ul.fillSendbuf.destroySendbuf.slots
        (ul.rbUldata.blockPtr ul.rbUldata.headPtr) = ul.current := by
  have given : ∀ offset ∈ List.range ul.rbUldata.numUsed,
      ul.fillSendbuf.sendbuf offset = some (pointer params ul offset) ∧
        pointer params ul offset ≠
          ul.rbUldata.blockPtr ul.rbUldata.headPtr := by
    intro offset inRange
    have registered := List.mem_range.mp inRange
    exact ⟨ordered.fillSendbuf_eq registered,
      ordered.blockPtr_ne (ordered.tail_lt offset) ordered.wound.head_lt
        (ordered.pending_ne registered)⟩
  have sameNumber : ul.fillSendbuf.numSendbuf.toNat = ul.rbUldata.numUsed :=
    ordered.toNat_numSendbuf
  simp only [destroySendbuf, sameNumber]
  change List.foldl _ ul.slots _ _ =
    ul.slots (ul.rbUldata.blockPtr ul.rbUldata.headPtr)
  generalize ul.slots = slots
  generalize List.range ul.rbUldata.numUsed = offsets at given
  induction offsets generalizing slots with
  | nil => rfl
  | cons offset offsets induction =>
      obtain ⟨isPointer, apart⟩ := given offset (List.mem_cons_self)
      rw [List.foldl_cons, induction _ (fun other member =>
        given other (List.mem_cons_of_mem _ member)), isPointer]
      exact Function.update_of_ne apart.symm _ _

/-- All registered structures are taken off the ring. -/
theorem deleteTaildata_all (ordered : ul.Ordered params) :
    ∃ ring,
      (emRingDeleteTaildata ul.rbUldata (intToUint32 ul.numSendbuf)).2 =
        ring ∧
      ring.Wound params ∧ ring.blockPtr = ul.rbUldata.blockPtr ∧
      ring.headPtr = ul.rbUldata.headPtr ∧ ring.numUsed = 0 := by
  rw [ordered.uint_numSendbuf]
  by_cases empty : ul.rbUldata.numUsed = 0
  · rw [EmRing.Wound.deleteTaildata_invalid (.inl empty)]
    exact ⟨_, rfl, ordered.wound, rfl, rfl, empty⟩
  · obtain ⟨deleted, kept⟩ := ordered.wound.deleteTaildata_eq empty le_rfl
    rw [deleted]
    exact ⟨_, rfl, kept, rfl, rfl, Nat.sub_self _⟩

/-- A successful post takes all registered buffers off the ring, a failed one
leaves everything. -/
theorem send_eq (ordered : ul.Ordered params) (transfer : CurlTransfer) :
    ∃ ret after, emUploadSendbuf ul transfer =
        some (ret, (emHttpcPostMultipart ul.hc ul.serverUrl
          (ul.pending.map EmUldata.httppart) transfer).calls, after) ∧
      (ret = 0 ↔ transfer.ok = true) ∧
      after.Ordered params ∧
      after.pending = (if transfer.ok = true then [] else ul.pending) ∧
      after.current = ul.current ∧ after.uldataName = ul.uldataName ∧
      after.uldataVer = ul.uldataVer ∧ after.uldataType = ul.uldataType ∧
      after.uldataBufCapacity = ul.uldataBufCapacity := by
  have posted := ordered.multi_eq transfer
  have returned := emHttpcPostMultipart_ret ul.hc ul.serverUrl
    (ul.pending.map EmUldata.httppart) transfer
  generalize emHttpcPostMultipart ul.hc ul.serverUrl
    (ul.pending.map EmUldata.httppart) transfer = result at posted returned
  have posted' : emUploadMulti ul.fillSendbuf ul.fillSendbuf.sendbuf
      (intToUint32 ul.fillSendbuf.numSendbuf) transfer = some result := posted
  cases isOk : transfer.ok with
  | false =>
      have failed : result.ret = -1 := by simpa [isOk] using returned
      refine ⟨-1, { ul.fillSendbuf with hc := result.hc }, ?_, by simp, ?_,
        rfl, rfl, rfl, rfl, rfl, rfl⟩
      · simp [emUploadSendbuf, posted', failed]
      · exact ⟨ordered.wound, ordered.mode, ordered.positive,
          ordered.counted, ordered.named, ordered.room, ordered.uldata_eq,
          ordered.numSendbuf_eq, ordered.maxSendbuf_eq,
          ⟨ordered.initialised.name, ordered.initialised.capacity,
            ordered.initialised.alive⟩⟩
  | true =>
      have succeeded : result.ret = 0 := by simpa [isOk] using returned
      obtain ⟨ring, isRing, wound, sameBlocks, sameHead, noneUsed⟩ :=
        ordered.deleteTaildata_all
      have isCurrent : ul.fillSendbuf.destroySendbuf.slots
          (ring.blockPtr ring.headPtr) = ul.current := by
        rw [sameBlocks, sameHead]
        exact ordered.destroySendbuf_current
      refine ⟨0, { ul.fillSendbuf.destroySendbuf with
          hc := result.hc, rbUldata := ring, numSendbuf := 0 }, ?_, by simp,
        ?_, ?_, isCurrent, rfl, rfl, rfl, rfl⟩
      · simp only [emUploadSendbuf, posted', succeeded, ne_eq,
          not_true_eq_false, if_false, ← isRing]
        rfl
      · refine ⟨wound, ordered.mode, ordered.positive, ordered.counted,
          ordered.named, ?_, ?_, ?_, ordered.maxSendbuf_eq, ?_⟩
        · simp only [noneUsed]
          exact wound.valid.nonempty
        · simp only [sameBlocks, sameHead]
          exact ordered.uldata_eq
        · simp [noneUsed]
        · rw [show current { ul.fillSendbuf.destroySendbuf with
            hc := result.hc, rbUldata := ring, numSendbuf := 0 } =
              ul.current from isCurrent]
          exact ⟨ordered.initialised.name, ordered.initialised.capacity,
            ordered.initialised.alive⟩
      · simp only [pending, noneUsed, window_zero, if_true]

end Ordered

end EmUpload

/-! ## Runs -/

/-- A call with its arguments; what `alloc_func` gives to a new buffer and what
happens to a request are arguments, too. -/
inductive UploadCall where
  | append (data : Bytes) (length : ℤ)
  | add (memory : Bytes)
  | send (transfer : CurlTransfer)

namespace EmUpload

/-- `none` is the state after the use of NULL, in which nothing is promised. -/
inductive Step : Option EmUpload → UploadCall → Option EmUpload → Prop where
  | append {ul : EmUpload} {data : Bytes} {length : ℤ} :
      0 ≤ length →
      Step (some ul) (.append data length)
        ((emUploadAppendBuf ul data length).map Prod.snd)
  | add {ul : EmUpload} {memory : Bytes} :
      Step (some ul) (.add memory)
        ((emUploadAddUldata ul memory).map Prod.snd)
  | send {ul : EmUpload} {transfer : CurlTransfer} :
      Step (some ul) (.send transfer)
        ((emUploadSendbuf ul transfer).map (fun result => result.2.2))

/-- `uldata` points to an initialised slot of the ring, which is none of the
registered ones, and the two counts of these agree. -/
structure HasBuffer (ul : EmUpload) : Prop where
  current : ∃ ptr index, ul.uldata = some ptr ∧
    index < ul.rbUldata.numMax ∧ ptr = ul.rbUldata.blockPtr index ∧
    ul.Initialised (ul.slots ptr) ∧
    ∀ offset : ℕ, (offset : ℤ) < ul.numSendbuf →
      ∃ registered,
        emRingGetDataptrTail ul.rbUldata offset = some registered ∧
          registered ≠ ptr
  counted : ul.numSendbuf = ul.rbUldata.numUsed

/-- There is a buffer after the call; registering one succeeds or changes
nothing. -/
def KeepsBuffer (before : Option EmUpload) (call : UploadCall)
    (after : Option EmUpload) : Prop :=
  ∃ ul, after = some ul ∧ ul.HasBuffer ∧
    match call with
    | .add memory =>
        ∀ old, before = some old →
          ∃ ret, emUploadAddUldata old memory = some (ret, ul) ∧
            (ret = 0 ∨ ret = -1 ∧ ul = old)
    | _ => True

/-- The buffer that is registered does not lie in the last free slot. -/
def LeavesSlot (before : Option EmUpload) (call : UploadCall) : Prop :=
  match before, call with
  | some ul, .add _ => ul.numSendbuf + 1 ≠ ul.maxSendbuf
  | _, _ => True

namespace Ordered

variable {params : RingParams} {ul : EmUpload}

theorem hasBuffer (ordered : ul.Ordered params) : ul.HasBuffer := by
  refine ⟨⟨_, ul.rbUldata.headPtr, ordered.uldata_eq, ?_, rfl,
    ordered.initialised, ?_⟩, ordered.numSendbuf_eq⟩
  · rw [ordered.wound.numMax_eq]
    exact ordered.wound.head_lt
  · intro offset registered
    rw [ordered.numSendbuf_eq, Nat.cast_lt] at registered
    refine ⟨_, ordered.wound.getDataptrTail registered, ?_⟩
    exact ordered.blockPtr_ne (ordered.tail_lt offset) ordered.wound.head_lt
      (ordered.pending_ne registered)

theorem leavesSlot_iff (ordered : ul.Ordered params) (memory : Bytes) :
    LeavesSlot (some ul) (.add memory) ↔
      ul.rbUldata.numUsed + 1 < params.capacity := by
  have room := ordered.room
  rw [LeavesSlot, ordered.numSendbuf_eq, ordered.maxSendbuf_eq]
  omega

theorem append (ordered : ul.Ordered params) (data : Bytes) (length : ℤ) :
    ∃ after, (emUploadAppendBuf ul data length).map Prod.snd =
      some after ∧ after.Ordered params := by
  have kept := append_initialised ordered.initialised data length
  rw [ordered.append_eq]
  exact ⟨_, rfl, (ordered.fill kept).1⟩

theorem send (ordered : ul.Ordered params) (transfer : CurlTransfer) :
    ∃ after, (emUploadSendbuf ul transfer).map (fun result => result.2.2) =
      some after ∧ after.Ordered params := by
  obtain ⟨ret, after, sent, _, kept, _⟩ := ordered.send_eq transfer
  rw [sent]
  exact ⟨after, rfl, kept⟩

/-- Every call keeps the order, if it leaves a slot. -/
theorem step (ordered : ul.Ordered params) {call : UploadCall}
    {after : Option EmUpload}
    (taken : Guarded LeavesSlot Step (some ul) call after) :
    ∃ next, after = some next ∧ next.Ordered params := by
  obtain ⟨leaves, taken⟩ := taken
  cases taken with
  | append _ => exact ordered.append _ _
  | add =>
      obtain ⟨next, added, kept, _⟩ :=
        ordered.add_room ((ordered.leavesSlot_iff _).mp leaves) _
      rw [added]
      exact ⟨next, rfl, kept⟩
  | send => exact ordered.send _

theorem keepsBuffer_iff (ordered : ul.Ordered params) {call : UploadCall}
    {after : Option EmUpload} (taken : Step (some ul) call after) :
    KeepsBuffer (some ul) call after ↔ LeavesSlot (some ul) call := by
  cases taken with
  | append _ =>
      obtain ⟨next, appended, kept⟩ := ordered.append _ _
      rw [appended]
      exact iff_of_true ⟨next, rfl, kept.hasBuffer, trivial⟩ trivial
  | @add _ memory =>
      constructor
      · rintro ⟨next, reached, _⟩
        rw [ordered.leavesSlot_iff]
        by_contra noSlot
        have room := ordered.room
        rw [ordered.add_last (by omega)] at reached
        cases reached
      · intro leaves
        obtain ⟨next, added, kept, _⟩ :=
          ordered.add_room ((ordered.leavesSlot_iff _).mp leaves) memory
        rw [added]
        refine ⟨next, rfl, kept.hasBuffer, ?_⟩
        intro old isOld
        cases isOld
        exact ⟨0, added, .inl rfl⟩
  | send =>
      obtain ⟨next, sent, kept⟩ := ordered.send _
      rw [sent]
      exact iff_of_true ⟨next, rfl, kept.hasBuffer, trivial⟩ trivial

end Ordered

/-- A fresh manager with at least one slot. -/
theorem init_ordered (memory : EmUpload) (serverUrl : List UInt8)
    (uldataName : Option (List UInt8))
    (uldataType uldataVer uldataBufCapacity : ℕ)
    {uldataSendbufNum sizeofUldata : ℕ} (hcMemory bufMemory : Bytes)
    (nonempty : 0 < uldataSendbufNum) (sized : 1 < sizeofUldata)
    (fits : sizeofUldata * uldataSendbufNum < 4294967296)
    (named : (uldataName.getD uldataNoName).length < sizeofDataName) :
    ∃ ul, emUploadInit memory serverUrl uldataName uldataType uldataVer
        uldataBufCapacity uldataSendbufNum sizeofUldata hcMemory bufMemory =
        some ul ∧
      ul.Ordered (uploadRing uldataSendbufNum sizeofUldata) ∧
      ul.pending = [] ∧
      some ul.current = emUldataInit uldataName
        (intToUint32 (toInt32 uldataVer)) uldataType uldataBufCapacity
        bufMemory ∧
      ul.uldataName = uldataName ∧ ul.uldataVer = toInt32 uldataVer ∧
      ul.uldataType = uldataType ∧
      ul.uldataBufCapacity = uldataBufCapacity := by
  have counted : uldataSendbufNum ≤ intMax := by
    have doubled : 2 * uldataSendbufNum ≤ sizeofUldata * uldataSendbufNum :=
      Nat.mul_le_mul_right _ sized
    unfold intMax
    omega
  have valid : (uploadRing uldataSendbufNum sizeofUldata).Valid :=
    ⟨nonempty, counted.trans (by decide), fits, .inl rfl⟩
  obtain ⟨wound, _⟩ := EmRing.created_wound valid memory.rbUldata.rawdata
    memory.rbUldata.blockPtr
  change EmRing.Wound _ (emRingCreate sizeofUldata uldataSendbufNum .error
    memory.rbUldata.rawdata memory.rbUldata.blockPtr) at wound
  obtain ⟨ring, isRing⟩ : ∃ ring, emRingCreate sizeofUldata uldataSendbufNum
    .error memory.rbUldata.rawdata memory.rbUldata.blockPtr = ring := ⟨_, rfl⟩
  have noneUsed : ring.numUsed = 0 := by
    rw [← isRing, emRingCreate, foldl_ring_blockPtr]
  rw [isRing] at wound
  have handed := wound.getDataptrNew_room (noneUsed ▸ nonempty)
  have initialised := emUldataInit_fits named
    (intToUint32 (toInt32 uldataVer)) uldataType uldataBufCapacity bufMemory
  refine ⟨_, by
      simp only [emUploadInit, isRing, handed, initUldata, initialised,
        Option.map_some]
      rfl, ?_, ?_, ?_, rfl, by dsimp only, rfl, rfl⟩
  · refine ⟨wound, rfl, Nat.zero_lt_of_lt sized, counted, named,
      ?_, rfl, ?_, ?_, ?_⟩
    · rw [noneUsed]
      exact nonempty
    · rw [noneUsed]
      rfl
    · exact toInt32_natCast counted
    · simp only [current, uldataAt, Function.update_self]
      exact ⟨rfl, rfl, by simp [emBufInit]⟩
  · simp only [pending, noneUsed, window_zero]
  · rw [initialised]
    simp only [current, uldataAt, Function.update_self]

/-- An upload manager has a buffer from the start; the runs in which it always
has one are those in which no buffer is registered in the last free slot. -/
theorem upload_has_buffer_iff (memory : EmUpload) (serverUrl : List UInt8)
    (uldataName : Option (List UInt8))
    (uldataType uldataVer uldataBufCapacity uldataSendbufNum : ℕ)
    (sizeofUldata : ℕ) (hcMemory bufMemory : Bytes)
    (nonempty : 0 < uldataSendbufNum) (sized : 1 < sizeofUldata)
    (fits : sizeofUldata * uldataSendbufNum < 4294967296)
    (named : (uldataName.getD uldataNoName).length < sizeofDataName) :
    ∃ start, emUploadInit memory serverUrl uldataName uldataType uldataVer
        uldataBufCapacity uldataSendbufNum sizeofUldata hcMemory bufMemory =
        some start ∧
      start.HasBuffer ∧
      ∀ calls state,
        Run (Upholding KeepsBuffer Step) (some start) calls state ↔
          Run (Guarded LeavesSlot Step) (some start) calls state := by
  obtain ⟨start, created, ordered, _⟩ := init_ordered memory serverUrl
    uldataName uldataType uldataVer uldataBufCapacity hcMemory bufMemory
    nonempty sized fits named
  refine ⟨start, created, ordered.hasBuffer, ?_⟩
  intro calls state
  apply Run.upholding_iff (fun state => ∃ ul, state = some ul ∧
    ul.Ordered (uploadRing uldataSendbufNum sizeofUldata))
  · exact ⟨start, rfl, ordered⟩
  · rintro before call after ⟨ul, rfl, holds⟩ taken
    exact holds.step taken
  · rintro before call after ⟨ul, rfl, holds⟩ taken
    exact holds.keepsBuffer_iff taken

theorem upload_has_buffer_two_slots :
    ∃ start, emUploadInit default [] none 2 0 4 2 72 default default =
        some start ∧
      start.HasBuffer ∧
      ∀ calls state,
        Run (Upholding KeepsBuffer Step) (some start) calls state ↔
          Run (Guarded LeavesSlot Step) (some start) calls state :=
  upload_has_buffer_iff default [] none 2 0 4 2 72 default default
    (by decide) (by decide) (by decide) (by decide)

/-- With one slot the first registration uses NULL. -/
theorem upload_without_buffer :
    ∃ start after, emUploadInit default [] none 2 0 4 1 72 default default =
        some start ∧
      Step (some start) (.add default) after ∧
        ¬ KeepsBuffer (some start) (.add default) after := by
  refine ⟨_, _, rfl, .add, ?_⟩
  rintro ⟨ul, reached, _⟩
  cases reached

end EmUpload

end EmbeddedMiddle
