import EmbeddedMiddle.UploadSlots
import EmbeddedMiddle.Foundation.RegionHeap

/-!
# The regions of an upload manager

What `em_upload.c` obtains from `alloc_func`, uses, and passes to `free_func`.
The buffer that is being filled is released at the end and the registered ones
after a post, so those that are still registered at the end are not.
-/

namespace EmbeddedMiddle

open Foundation

/-- The manager with its pointers to regions: `sendbuf`, the data of `hc.buf`,
`rawdata` and `block_ptr` of the ring and, for the structure in each slot, the
data of its buffer. -/
structure UploadHeld where
  ul : EmUpload
  sendbuf : Option ℕ
  hcData : Option ℕ
  rawdata : Option ℕ
  blockPtr : Option ℕ
  bufData : ℕ → Option ℕ
  heap : RegionHeap

namespace UploadHeld

/-- `em_uldata_init` writes the structure in its slot and two bytes of its new
region. -/
def emUldataInit (held : UploadHeld) (ptr : ℕ) : UploadHeld :=
  let heap := held.heap.use held.rawdata
  { held with
    bufData := Function.update held.bufData ptr heap.alloc.1
    heap := heap.alloc.2.use heap.alloc.1 }

/-- `em_uldata_destroy`. -/
def emUldataDestroy (held : UploadHeld) (ptr : ℕ) : UploadHeld :=
  { held with
    bufData := Function.update held.bufData ptr none
    heap := (held.heap.use held.rawdata).free (held.bufData ptr) }

/-- `none` is the use of NULL, here as below. -/
def initUldata (held : UploadHeld) : Option UploadHeld :=
  held.ul.uldata.map held.emUldataInit

/-- The regions of `sendbuf`, of the buffer of the client and of the ring, in
the order of the requests. -/
def emUploadInit (memory : EmUpload) (serverUrl : List UInt8)
    (uldataName : Option (List UInt8))
    (uldataType uldataVer uldataBufCapacity uldataSendbufNum : ℕ)
    (sizeofUldata : ℕ) (hcMemory bufMemory : Bytes) (heap : RegionHeap) :
    Option UploadHeld :=
  match EmbeddedMiddle.emUploadInit memory serverUrl uldataName uldataType
      uldataVer uldataBufCapacity uldataSendbufNum sizeofUldata hcMemory
      bufMemory with
  | none => none
  | some ul =>
      let (sendbuf, heap) := heap.alloc
      let (hcData, heap) := heap.alloc
      let heap := heap.use hcData
      let (rawdata, heap) := heap.alloc
      let (blockPtr, heap) := heap.alloc
      let heap := heap.use blockPtr
      initUldata
        { ul, sendbuf, hcData, rawdata, blockPtr, bufData := fun _ => none,
          heap }

/-- The data of the buffer are written only by an append that succeeds. -/
def emUploadAppendBuf (held : UploadHeld) (data : Bytes) (length : ℤ) :
    Option (ℤ × UploadHeld) :=
  match held.ul.uldata,
      EmbeddedMiddle.emUploadAppendBuf held.ul data length with
  | some ptr, some (ret, ul) =>
      let heap := held.heap.use held.rawdata
      some (ret, { held with
        ul
        heap := if ret = 0 then heap.use (held.bufData ptr) else heap })
  | _, _ => none

def emUploadAddUldata (held : UploadHeld) (memory : Bytes) :
    Option (ℤ × UploadHeld) :=
  match EmbeddedMiddle.emUploadAddUldata held.ul memory with
  | none => none
  | some (ret, ul) =>
      if ret ≠ 0 then some (ret, { held with ul })
      else
        ({ held with ul, heap := held.heap.use held.blockPtr } :
          UploadHeld).initUldata.map (fun held => (ret, held))

/-- The pointers that the first loop of `em_upload_sendbuf` finds. -/
def registered (held : UploadHeld) : List ℕ :=
  (List.range held.ul.numSendbuf.toNat).filterMap
    (emRingGetDataptrTail held.ul.rbUldata)

/-- The loops write `sendbuf`, read it and the structures, and the post reads
the data of the buffers and writes those of the client.  Parts of an unknown
type are not read; the buffers count as read nevertheless. -/
def useSendbuf (held : UploadHeld) : RegionHeap :=
  let heap := held.registered.foldl
    (fun heap _ => (heap.use held.blockPtr).use held.sendbuf) held.heap
  let heap := held.registered.foldl
    (fun heap _ => (heap.use held.sendbuf).use held.rawdata) heap
  held.registered.foldl (fun heap ptr => heap.use (held.bufData ptr))
    (heap.use held.hcData)

/-- The second loop of `em_upload_sendbuf`. -/
def destroySendbuf (held : UploadHeld) (registered : List ℕ) : UploadHeld :=
  registered.foldl
    (fun held ptr =>
      { held with heap := held.heap.use held.sendbuf : UploadHeld
        }.emUldataDestroy ptr)
    held

def emUploadSendbuf (held : UploadHeld) (transfer : CurlTransfer) :
    Option (ℤ × UploadHeld) :=
  match EmbeddedMiddle.emUploadSendbuf held.ul transfer with
  | none => none
  | some (ret, _, ul) =>
      let after : UploadHeld := { held with ul, heap := held.useSendbuf }
      if ret ≠ 0 then some (ret, after)
      else some (ret, after.destroySendbuf held.registered)

/-- Only the buffer that is being filled is destroyed. -/
def emUploadDestroy (held : UploadHeld) : Option RegionHeap :=
  match held.ul.uldata with
  | none => none
  | some ptr =>
      let held : UploadHeld :=
        { held with heap := held.heap.free held.sendbuf, sendbuf := none }
      let held := held.emUldataDestroy ptr
      let heap := held.heap.free held.hcData
      let heap := heap.free held.blockPtr
      some (heap.free held.rawdata)

/-- A buffer is registered only where one more stays below the capacity. -/
inductive Step : UploadHeld → UploadCall → UploadHeld → Prop where
  | append {held after : UploadHeld} {data : Bytes} {length ret : ℤ} :
      held.emUploadAppendBuf data length = some (ret, after) →
      Step held (.append data length) after
  | add {held after : UploadHeld} {memory : Bytes} {ret : ℤ} :
      held.ul.numSendbuf + 1 < held.ul.maxSendbuf →
      held.emUploadAddUldata memory = some (ret, after) →
      Step held (.add memory) after
  | send {held after : UploadHeld} {transfer : CurlTransfer} {ret : ℤ} :
      held.emUploadSendbuf transfer = some (ret, after) →
      Step held (.send transfer) after

/-! ## What the manager holds -/

/-- The regions that stay until the manager is destroyed. -/
structure Places where
  sendbuf : ℕ
  hcData : ℕ
  rawdata : ℕ
  blockPtr : ℕ

/-- All regions: those, the data of the current buffer, and the data of the
registered ones. -/
def Places.regions (places : Places) (current : ℕ) (pending : List ℕ) :
    List ℕ :=
  [places.sendbuf, places.hcData, places.rawdata, places.blockPtr] ++
    current :: pending

/-- The pointers to the registered structures. -/
def pointers (params : RingParams) (ul : EmUpload) : List ℕ :=
  (List.range ul.rbUldata.numUsed).map (EmUpload.Ordered.pointer params ul)

/-- The manager holds exactly its regions, besides those of others. -/
structure Keeps (params : RingParams) (origin : RegionHeap)
    (outer : Finset ℕ) (held : UploadHeld) (places : Places) (current : ℕ)
    (pending : List ℕ) : Prop where
  ordered : held.ul.Ordered params
  sendbuf_eq : held.sendbuf = some places.sendbuf
  hcData_eq : held.hcData = some places.hcData
  rawdata_eq : held.rawdata = some places.rawdata
  blockPtr_eq : held.blockPtr = some places.blockPtr
  current_eq : held.bufData
    (held.ul.rbUldata.blockPtr held.ul.rbUldata.headPtr) = some current
  pending_eq : (pointers params held.ul).map held.bufData =
    pending.map some
  distinct : (places.regions current pending).Nodup
  apart : ∀ region ∈ places.regions current pending, region ∉ outer
  sound : held.heap.Sound ((places.regions current pending).toFinset ∪ outer)
  later : origin.next ≤ held.heap.next

namespace Keeps

variable {params : RingParams} {origin : RegionHeap} {outer : Finset ℕ}
  {held after : UploadHeld} {places : Places} {current : ℕ}
  {pending : List ℕ}

theorem length_pending
    (keeps : Keeps params origin outer held places current pending) :
    pending.length = held.ul.rbUldata.numUsed := by
  have lengths := congrArg List.length keeps.pending_eq
  simpa [pointers] using lengths.symm

theorem registered_eq
    (keeps : Keeps params origin outer held places current pending) :
    held.registered = pointers params held.ul := by
  rw [registered, keeps.ordered.toNat_numSendbuf, pointers,
    ← List.filterMap_eq_map]
  apply List.filterMap_congr
  intro offset inRange
  exact keeps.ordered.wound.getDataptrTail (List.mem_range.mp inRange)

theorem regions_add {new : ℕ} :
    (places.regions new (pending ++ [current])).Perm
      (new :: places.regions current pending) := by
  have moved : (new :: (pending ++ [current])).Perm
      (new :: current :: pending) :=
    .cons new (List.perm_append_singleton current pending)
  exact (moved.append_left _).trans List.perm_middle

theorem insert_regions {new : ℕ} :
    insert new ((places.regions current pending).toFinset ∪ outer) =
      (places.regions new (pending ++ [current])).toFinset ∪ outer := by
  ext region
  simp only [Finset.mem_union, Finset.mem_insert, List.mem_toFinset,
    regions_add.mem_iff, List.mem_cons]
  tauto

theorem regions_eq : places.regions current pending =
    places.regions current [] ++ pending := by
  simp [Places.regions]

/-- A use of one of the regions. -/
theorem use {region : ℕ} (member : region ∈ places.regions current pending)
    {heap : RegionHeap}
    (sound : heap.Sound
      ((places.regions current pending).toFinset ∪ outer)) :
    (heap.use (some region)).Sound
      ((places.regions current pending).toFinset ∪ outer) :=
  sound.use (Finset.mem_union_left _ (List.mem_toFinset.mpr member))

theorem sendbuf_mem : places.sendbuf ∈ places.regions current pending := by
  simp [Places.regions]

theorem hcData_mem : places.hcData ∈ places.regions current pending := by
  simp [Places.regions]

theorem rawdata_mem : places.rawdata ∈ places.regions current pending := by
  simp [Places.regions]

theorem blockPtr_mem : places.blockPtr ∈ places.regions current pending := by
  simp [Places.regions]

theorem current_mem : current ∈ places.regions current pending := by
  simp [Places.regions]

/-! ## The calls -/

theorem append (keeps : Keeps params origin outer held places current pending)
    {data : Bytes} {length ret : ℤ}
    (called : held.emUploadAppendBuf data length = some (ret, after)) :
    Keeps params origin outer after places current pending := by
  have ordered := keeps.ordered
  have initialised := EmUpload.Ordered.append_initialised ordered.initialised
    data length
  obtain ⟨kept, _⟩ := ordered.fill initialised
  rw [emUploadAppendBuf, ordered.uldata_eq, ordered.append_eq] at called
  cases called
  refine ⟨kept, keeps.sendbuf_eq, keeps.hcData_eq, keeps.rawdata_eq,
    keeps.blockPtr_eq, keeps.current_eq, keeps.pending_eq, keeps.distinct,
    keeps.apart, ?_, ?_⟩
  · have read := use rawdata_mem keeps.sound
    simp only [keeps.rawdata_eq, keeps.current_eq]
    split_ifs
    · exact use current_mem read
    · exact read
  · have later := keeps.later
    split_ifs
    · simpa using later
    · simpa using later

/-- The pointers after a buffer was registered. -/
theorem pointers_add {ul : EmUpload} (ordered : ul.Ordered params)
    {ring : EmRing} {fresh : EmUldata}
    (used : ring.numUsed = ul.rbUldata.numUsed + 1)
    (sameTail : ring.tailPtr = ul.rbUldata.tailPtr)
    (sameBlocks : ring.blockPtr = ul.rbUldata.blockPtr) :
    pointers params (EmUpload.Ordered.registered ul ring fresh) =
      pointers params ul ++
        [ul.rbUldata.blockPtr ul.rbUldata.headPtr] := by
  have behind : (ul.rbUldata.tailPtr + ul.rbUldata.numUsed) %
      params.capacity = ul.rbUldata.headPtr := ordered.wound.head_eq.symm
  have same : EmUpload.Ordered.pointer params
      (EmUpload.Ordered.registered ul ring fresh) =
        EmUpload.Ordered.pointer params ul := by
    funext offset
    simp only [EmUpload.Ordered.pointer, EmUpload.Ordered.registered, sameTail,
      sameBlocks]
  rw [pointers, same]
  simp only [EmUpload.Ordered.registered, used, List.range_succ,
    List.map_append, List.map_cons, List.map_nil, pointers]
  rw [EmUpload.Ordered.pointer, behind]

/-- The pointer handed out next is none of them. -/
theorem pointers_ne_next {ul : EmUpload} (ordered : ul.Ordered params)
    {ring : EmRing} (grown : ring.Wound params)
    (used : ring.numUsed = ul.rbUldata.numUsed + 1)
    (sameTail : ring.tailPtr = ul.rbUldata.tailPtr)
    (sameBlocks : ring.blockPtr = ul.rbUldata.blockPtr)
    (left : ul.rbUldata.numUsed + 1 < params.capacity) {ptr : ℕ}
    (member : ptr ∈ pointers params ul ++
      [ul.rbUldata.blockPtr ul.rbUldata.headPtr]) :
    ptr ≠ ring.blockPtr ring.headPtr := by
  have offsets : ∀ offset, offset < ul.rbUldata.numUsed + 1 →
      ul.rbUldata.blockPtr
          ((ul.rbUldata.tailPtr + offset) % params.capacity) ≠
        ring.blockPtr ring.headPtr := by
    intro offset inside
    rw [sameBlocks]
    apply ordered.blockPtr_ne (ordered.tail_lt offset) grown.head_lt
    rw [grown.head_eq, sameTail, used]
    exact wrapped_ne inside left
  rcases List.mem_append.mp member with registered | isHead
  · obtain ⟨offset, inRange, rfl⟩ := List.mem_map.mp registered
    have inside := List.mem_range.mp inRange
    exact offsets offset (by omega)
  · rw [List.mem_singleton.mp isHead, ordered.wound.head_eq]
    exact offsets ul.rbUldata.numUsed (Nat.lt_succ_self _)

/-- The current buffer is the last one registered; that of the next structure
is written. -/
theorem pending_add
    (keeps : Keeps params origin outer held places current pending)
    {ring : EmRing} {fresh : EmUldata} {data : Option ℕ}
    (grown : ring.Wound params)
    (used : ring.numUsed = held.ul.rbUldata.numUsed + 1)
    (sameTail : ring.tailPtr = held.ul.rbUldata.tailPtr)
    (sameBlocks : ring.blockPtr = held.ul.rbUldata.blockPtr)
    (left : held.ul.rbUldata.numUsed + 1 < params.capacity) :
    (pointers params (EmUpload.Ordered.registered held.ul ring fresh)).map
        (Function.update held.bufData (ring.blockPtr ring.headPtr) data) =
      (pending ++ [current]).map some := by
  have ordered := keeps.ordered
  rw [pointers_add ordered used sameTail sameBlocks]
  have unwritten : ∀ ptr ∈ pointers params held.ul ++
      [held.ul.rbUldata.blockPtr held.ul.rbUldata.headPtr],
      Function.update held.bufData (ring.blockPtr ring.headPtr) data ptr =
        held.bufData ptr := by
    intro ptr member
    exact Function.update_of_ne (pointers_ne_next ordered grown used
      sameTail sameBlocks left member) _ _
  refine (List.map_congr_left unwritten).trans ?_
  rw [List.map_append, List.map_append, keeps.pending_eq]
  simp only [List.map_cons, List.map_nil, keeps.current_eq]

theorem add (keeps : Keeps params origin outer held places current pending)
    {memory : Bytes} {ret : ℤ}
    (below : held.ul.numSendbuf + 1 < held.ul.maxSendbuf)
    (called : held.emUploadAddUldata memory = some (ret, after)) :
    Keeps params origin outer after places held.heap.next
      (pending ++ [current]) := by
  have ordered := keeps.ordered
  have left : held.ul.rbUldata.numUsed + 1 < params.capacity := by
    rw [ordered.numSendbuf_eq, ordered.maxSendbuf_eq] at below
    omega
  obtain ⟨ring, fresh, _, added, grown, used, sameTail, sameBlocks, _⟩ :=
    ordered.add_eq left memory
  obtain ⟨ul, added', kept, _⟩ := ordered.add_room left memory
  obtain rfl : EmUpload.Ordered.registered held.ul ring fresh = ul := by
    rw [added] at added'
    exact (Prod.mk.inj (Option.some.inj added')).2
  have created : held.emUploadAddUldata memory = some (0,
      { held with
        ul := EmUpload.Ordered.registered held.ul ring fresh
        bufData := Function.update held.bufData (ring.blockPtr ring.headPtr)
          (some held.heap.next)
        heap := ((held.heap.use (some places.blockPtr)).use
          (some places.rawdata)).alloc.2.use (some held.heap.next) }) := by
    simp only [emUploadAddUldata, added, ne_eq, not_true_eq_false, if_false,
      initUldata, kept.uldata_eq, Option.map_some, keeps.blockPtr_eq,
      emUldataInit, keeps.rawdata_eq, RegionHeap.alloc_fst,
      RegionHeap.use_next]
    rfl
  rw [created] at called
  cases called
  have blocksRead := use blockPtr_mem keeps.sound
  have written := use rawdata_mem blocksRead
  have next : ((held.heap.use (some places.blockPtr)).use
      (some places.rawdata)).next = held.heap.next := by
    rw [RegionHeap.use_next, RegionHeap.use_next]
  have unused := written.next_not_mem
  have requested := written.alloc
  rw [next] at unused requested
  rw [insert_regions] at requested
  refine ⟨kept, keeps.sendbuf_eq, keeps.hcData_eq, keeps.rawdata_eq,
    keeps.blockPtr_eq, ?_, ?_, ?_, ?_, ?_, ?_⟩
  · exact Function.update_self _ _ _
  · exact keeps.pending_add grown used sameTail sameBlocks left
  · rw [regions_add.nodup_iff, List.nodup_cons]
    refine ⟨?_, keeps.distinct⟩
    intro known
    exact unused (Finset.mem_union_left _ (List.mem_toFinset.mpr known))
  · intro region member
    rcases List.mem_cons.mp (regions_add.mem_iff.mp member) with rfl | known
    · exact fun foreign => unused (Finset.mem_union_right _ foreign)
    · exact keeps.apart region known
  · exact use current_mem requested
  · have later := keeps.later
    simp only [RegionHeap.use_next, RegionHeap.alloc_next]
    omega

/-- The second loop releases the data of the structures it meets. -/
theorem destroySendbuf_sound {registered regions : List ℕ}
    {owned : Finset ℕ} (sound : held.heap.Sound owned)
    (sendbuf_eq : held.sendbuf = some places.sendbuf)
    (rawdata_eq : held.rawdata = some places.rawdata)
    (sendbufOwned : places.sendbuf ∈ owned)
    (rawdataOwned : places.rawdata ∈ owned)
    (data : registered.map held.bufData = regions.map some)
    (distinct : (places.sendbuf :: places.rawdata :: regions).Nodup)
    (isOwned : ∀ region ∈ regions, region ∈ owned) :
    (held.destroySendbuf registered).heap.Sound
      (owned \ regions.toFinset) := by
  induction registered generalizing held regions owned with
  | nil =>
      obtain rfl : regions = [] := List.map_eq_nil_iff.mp data.symm
      simpa [destroySendbuf] using sound
  | cons ptr registered induction =>
      obtain ⟨region, rest, rfl, first, others⟩ :=
        List.map_eq_cons_iff.mp data.symm
      have member := isOwned region List.mem_cons_self
      simp only [List.nodup_cons, List.mem_cons, not_or] at distinct
      have ptrDistinct : (ptr :: registered).Nodup := by
        apply List.Nodup.of_map held.bufData
        rw [data]
        exact (List.nodup_cons.mpr ⟨distinct.2.2.1, distinct.2.2.2⟩).map
          (Option.some_injective ℕ)
      have released : ({ held with heap := held.heap.use held.sendbuf } :
          UploadHeld).emUldataDestroy ptr =
            { held with
              bufData := Function.update held.bufData ptr none
              heap := ((held.heap.use (some places.sendbuf)).use
                (some places.rawdata)).free (some region) } := by
        simp only [emUldataDestroy, sendbuf_eq, rawdata_eq, ← first]
      have kept : registered.map
          (Function.update held.bufData ptr none) = rest.map some := by
        rw [others]
        apply List.map_congr_left
        intro other isOther
        apply Function.update_of_ne
        rintro rfl
        exact (List.nodup_cons.mp ptrDistinct).1 isOther
      have remaining : owned \ (region :: rest).toFinset =
          owned.erase region \ rest.toFinset := by
        rw [List.toFinset_cons, Finset.sdiff_insert, Finset.erase_sdiff_comm]
      rw [destroySendbuf, List.foldl_cons, released, remaining]
      apply @induction
        { held with
          bufData := Function.update held.bufData ptr none
          heap := ((held.heap.use (some places.sendbuf)).use
            (some places.rawdata)).free (some region) }
        rest (owned.erase region)
        (((sound.use sendbufOwned).use rawdataOwned).free member) sendbuf_eq
        rawdata_eq
      · exact Finset.mem_erase.mpr ⟨distinct.1.2.1, sendbufOwned⟩
      · exact Finset.mem_erase.mpr ⟨distinct.2.1.1, rawdataOwned⟩
      · exact kept
      · simp only [List.nodup_cons, List.mem_cons, not_or]
        exact ⟨⟨distinct.1.1, distinct.1.2.2⟩, distinct.2.1.2,
          distinct.2.2.2⟩
      · intro other isOther
        refine Finset.mem_erase.mpr ⟨?_, isOwned other
          (List.mem_cons_of_mem region isOther)⟩
        rintro rfl
        exact distinct.2.2.1 isOther

/-- It leaves all else alone. -/
theorem destroySendbuf_fields (held : UploadHeld) (registered : List ℕ) :
    ∃ bufData heap,
      held.destroySendbuf registered = { held with bufData, heap } ∧
        (∀ ptr, ptr ∉ registered → bufData ptr = held.bufData ptr) ∧
        heap.next = held.heap.next := by
  induction registered generalizing held with
  | nil => exact ⟨held.bufData, held.heap, rfl, fun _ _ => rfl, rfl⟩
  | cons ptr registered induction =>
      obtain ⟨bufData, heap, called, kept, next⟩ := induction
        ({ held with heap := held.heap.use held.sendbuf : UploadHeld
          }.emUldataDestroy ptr)
      refine ⟨bufData, heap, ?_, ?_, ?_⟩
      · rw [destroySendbuf, List.foldl_cons]
        exact called
      · intro other absent
        rw [List.mem_cons, not_or] at absent
        rw [kept other absent.2]
        exact Function.update_of_ne absent.1 _ _
      · rw [next]
        simp [emUldataDestroy]

/-- All that a post uses is live. -/
theorem useSendbuf_sound
    (keeps : Keeps params origin outer held places current pending) :
    held.useSendbuf.Sound
        ((places.regions current pending).toFinset ∪ outer) ∧
      held.useSendbuf.next = held.heap.next := by
  constructor
  · simp only [useSendbuf, keeps.blockPtr_eq, keeps.sendbuf_eq,
      keeps.rawdata_eq, keeps.hcData_eq]
    apply RegionHeap.Sound.foldl
    · apply use hcData_mem
      apply RegionHeap.Sound.foldl
      · apply RegionHeap.Sound.foldl keeps.sound
        intro _ _ heap sound
        exact use sendbuf_mem (use blockPtr_mem sound)
      · intro _ _ heap sound
        exact use rawdata_mem (use sendbuf_mem sound)
    · intro ptr isRegistered heap sound
      rw [keeps.registered_eq] at isRegistered
      have isPending : held.bufData ptr ∈ pending.map some := by
        rw [← keeps.pending_eq]
        exact List.mem_map_of_mem isRegistered
      obtain ⟨region, member, isRegion⟩ := List.mem_map.mp isPending
      rw [← isRegion]
      exact use (by simp [Places.regions, member]) sound
  · simp only [useSendbuf]
    rw [RegionHeap.foldl_next (fun heap ptr => RegionHeap.use_next),
      RegionHeap.use_next, RegionHeap.foldl_next (fun heap ptr => by simp),
      RegionHeap.foldl_next (fun heap ptr => by simp)]

/-- The ring after a post. -/
theorem sendbuf_ring {ul next : EmUpload} {transfer : CurlTransfer} {ret : ℤ}
    {calls : List CurlCall}
    (sent : EmbeddedMiddle.emUploadSendbuf ul transfer =
      some (ret, calls, next)) :
    (ret ≠ 0 ∧ next.rbUldata = ul.rbUldata) ∨
      (ret = 0 ∧ next.rbUldata = (emRingDeleteTaildata ul.rbUldata
        (intToUint32 ul.numSendbuf)).2) := by
  simp only [EmbeddedMiddle.emUploadSendbuf] at sent
  split at sent
  · cases sent
  · split_ifs at sent with failed
    · cases sent
      exact .inl ⟨by decide, rfl⟩
    · cases sent
      exact .inr ⟨rfl, rfl⟩

theorem pointers_congr {ul other : EmUpload}
    (same : other.rbUldata = ul.rbUldata) :
    pointers params other = pointers params ul := by
  rw [pointers, pointers, same]
  apply List.map_congr_left
  intro offset _
  rw [EmUpload.Ordered.pointer, EmUpload.Ordered.pointer, same]

/-- The current buffer is not registered. -/
theorem current_not_registered
    (keeps : Keeps params origin outer held places current pending) :
    held.ul.rbUldata.blockPtr held.ul.rbUldata.headPtr ∉
      pointers params held.ul := by
  intro isRegistered
  have isPending : some current ∈ pending.map some := by
    rw [← keeps.pending_eq, ← keeps.current_eq]
    exact List.mem_map_of_mem isRegistered
  obtain ⟨region, member, isRegion⟩ := List.mem_map.mp isPending
  cases isRegion
  have distinct := (List.nodup_append.mp keeps.distinct).2.1
  exact (List.nodup_cons.mp distinct).1 member

theorem fixed_not_pending
    (keeps : Keeps params origin outer held places current pending)
    {region : ℕ} (isFixed : region ∈ places.regions current []) :
    region ∉ pending.toFinset ∪ outer := by
  have distinct := keeps.distinct
  have apart := keeps.apart region
  rw [regions_eq] at distinct apart
  obtain ⟨_, _, different⟩ := List.nodup_append.mp distinct
  intro member
  rcases Finset.mem_union.mp member with isPending | foreign
  · exact different _ isFixed _ (List.mem_toFinset.mp isPending) rfl
  · exact apart (List.mem_append_left _ isFixed) foreign

/-- Without the data of the registered buffers. -/
theorem regions_sdiff
    (keeps : Keeps params origin outer held places current pending) :
    ((places.regions current pending).toFinset ∪ outer) \
        pending.toFinset = (places.regions current []).toFinset ∪ outer := by
  ext region
  have notPending : region ∈ places.regions current [] →
      region ∉ pending.toFinset ∪ outer := keeps.fixed_not_pending
  have notOuter := keeps.apart region
  rw [regions_eq, List.mem_append] at notOuter
  simp only [Finset.mem_union, List.mem_toFinset, not_or] at notPending
  simp only [Finset.mem_sdiff, Finset.mem_union, List.mem_toFinset]
  rw [regions_eq, List.mem_append]
  constructor
  · rintro ⟨(isFixed | isPending) | foreign, unregistered⟩
    · exact .inl isFixed
    · exact absurd isPending unregistered
    · exact .inr foreign
  · rintro (isFixed | foreign)
    · exact ⟨.inl (.inl isFixed), (notPending isFixed).1⟩
    · exact ⟨.inr foreign, fun isPending => notOuter (.inr isPending) foreign⟩

/-- The second loop releases the data of all registered buffers. -/
theorem destroySendbuf_all
    (keeps : Keeps params origin outer held places current pending)
    (ul : EmUpload) :
    ({ held with ul, heap := held.useSendbuf }.destroySendbuf
      (pointers params held.ul)).heap.Sound
        ((places.regions current []).toFinset ∪ outer) := by
  have owned : ∀ region ∈ places.regions current pending,
      region ∈ (places.regions current pending).toFinset ∪ outer :=
    fun region member =>
      Finset.mem_union_left _ (List.mem_toFinset.mpr member)
  have distinct : (places.sendbuf :: places.rawdata :: pending).Nodup := by
    have all := keeps.distinct
    simp only [Places.regions, List.cons_append, List.nil_append,
      List.nodup_cons, List.mem_cons, not_or] at all ⊢
    exact ⟨⟨all.1.2.1, all.1.2.2.2.2⟩, all.2.2.1.2.2, all.2.2.2.2.2⟩
  rw [← keeps.regions_sdiff]
  refine @destroySendbuf_sound { held with ul, heap := held.useSendbuf }
    places (pointers params held.ul) pending _ keeps.useSendbuf_sound.1
    keeps.sendbuf_eq keeps.rawdata_eq (owned _ sendbuf_mem)
    (owned _ rawdata_mem) keeps.pending_eq distinct ?_
  intro region member
  refine owned region ?_
  rw [regions_eq]
  exact List.mem_append_right _ member

theorem send (keeps : Keeps params origin outer held places current pending)
    {transfer : CurlTransfer} {ret : ℤ}
    (called : held.emUploadSendbuf transfer = some (ret, after)) :
    Keeps params origin outer after places current pending ∨
      Keeps params origin outer after places current [] := by
  have ordered := keeps.ordered
  obtain ⟨result, ul, sent, _, kept, _⟩ := ordered.send_eq transfer
  obtain ⟨used, next⟩ := keeps.useSendbuf_sound
  have later := keeps.later
  rw [emUploadSendbuf, sent] at called
  rcases sendbuf_ring sent with failed | succeeded
  · left
    obtain ⟨failed, sameRing⟩ := failed
    simp only [if_pos failed] at called
    cases called
    refine ⟨kept, keeps.sendbuf_eq, keeps.hcData_eq, keeps.rawdata_eq,
      keeps.blockPtr_eq, ?_, ?_, keeps.distinct, keeps.apart, used, ?_⟩
    · simp only [sameRing]
      exact keeps.current_eq
    · simp only [pointers_congr sameRing]
      exact keeps.pending_eq
    · simp only [next]
      exact later
  · right
    obtain ⟨rfl, isRing⟩ := succeeded
    obtain ⟨ring, isDeleted, _, sameBlocks, sameHead, noneUsed⟩ :=
      ordered.deleteTaildata_all
    rw [isDeleted] at isRing
    simp only [ne_eq, not_true_eq_false, if_false] at called
    have released := keeps.destroySendbuf_all ul
    have distinct := keeps.distinct
    rw [regions_eq] at distinct
    obtain ⟨bufData, heap, destroyed, unwritten, sameNext⟩ :=
      destroySendbuf_fields { held with ul, heap := held.useSendbuf }
        (pointers params held.ul)
    rw [keeps.registered_eq, destroyed] at called
    rw [destroyed] at released
    cases called
    refine ⟨kept, keeps.sendbuf_eq, keeps.hcData_eq, keeps.rawdata_eq,
      keeps.blockPtr_eq, ?_, ?_, ?_, ?_, released, ?_⟩
    · simp only [isRing, sameBlocks, sameHead]
      rw [unwritten _ keeps.current_not_registered]
      exact keeps.current_eq
    · simp [pointers, isRing, noneUsed]
    · exact (List.nodup_append.mp distinct).1
    · intro region member
      apply keeps.apart
      rw [regions_eq]
      exact List.mem_append_left _ member
    · simp only [sameNext, next]
      exact later

/-- What `em_upload_destroy` leaves behind are the data of the registered
buffers. -/
theorem destroy (keeps : Keeps params origin outer held places current
    pending) :
    ∃ heap, held.emUploadDestroy = some heap ∧
      heap.Sound (pending.toFinset ∪ outer) ∧
      origin.next ≤ heap.next := by
  have distinct := keeps.distinct
  have sendbufGone := keeps.fixed_not_pending sendbuf_mem
  have hcDataGone := keeps.fixed_not_pending hcData_mem
  have rawdataGone := keeps.fixed_not_pending rawdata_mem
  have blockPtrGone := keeps.fixed_not_pending blockPtr_mem
  have currentGone := keeps.fixed_not_pending current_mem
  obtain ⟨sendbuf, hcData, rawdata, blockPtr⟩ := places
  have called : held.emUploadDestroy =
      some ((((((held.heap.free (some sendbuf)).use (some rawdata)).free
        (some current)).free (some hcData)).free (some blockPtr)).free
          (some rawdata)) := by
    simp only [emUploadDestroy, keeps.ordered.uldata_eq, emUldataDestroy,
      keeps.sendbuf_eq, keeps.rawdata_eq, keeps.current_eq, keeps.hcData_eq,
      keeps.blockPtr_eq]
  -- The regions in the order in which they are released.
  have owned : (Places.regions ⟨sendbuf, hcData, rawdata, blockPtr⟩ current
      pending).toFinset ∪ outer = insert sendbuf (insert current (insert hcData
        (insert blockPtr (insert rawdata (pending.toFinset ∪ outer))))) := by
    ext region
    simp [Places.regions, or_comm, or_left_comm]
  have sound := keeps.sound
  rw [owned] at sound
  generalize pending.toFinset ∪ outer = rest at *
  simp only [Places.regions, List.cons_append, List.nil_append,
    List.nodup_cons, List.mem_cons, not_or] at distinct
  obtain ⟨⟨sendbufHc, sendbufRaw, sendbufPtr, sendbufCurrent, _⟩,
    ⟨hcRaw, hcPtr, hcCurrent, _⟩, ⟨rawPtr, rawCurrent, _⟩,
    ⟨ptrCurrent, _⟩, _, _⟩ := distinct
  refine ⟨_, called, ?_, ?_⟩
  · have noSendbuf := sound.free_insert
      (by simp [sendbufCurrent, sendbufHc, sendbufPtr, sendbufRaw,
        sendbufGone])
    have read := @RegionHeap.Sound.use _ rawdata _ noSendbuf (by simp)
    have noCurrent := read.free_insert
      (by simp [Ne.symm hcCurrent, Ne.symm ptrCurrent, Ne.symm rawCurrent,
        currentGone])
    have noClient := noCurrent.free_insert (by simp [hcPtr, hcRaw, hcDataGone])
    have noPointers := noClient.free_insert
      (by simp [Ne.symm rawPtr, blockPtrGone])
    exact noPointers.free_insert rawdataGone
  · simpa using keeps.later

end Keeps

/-! ## Runs -/

variable {params : RingParams} {origin : RegionHeap} {outer : Finset ℕ}
  {held after : UploadHeld}

/-- Every call keeps the account of the regions. -/
theorem Keeps.step {places : Places} {current : ℕ} {pending : List ℕ}
    {call : UploadCall}
    (keeps : Keeps params origin outer held places current pending)
    (taken : Step held call after) :
    ∃ current pending,
      Keeps params origin outer after places current pending := by
  cases taken with
  | append called => exact ⟨_, _, keeps.append called⟩
  | add below called => exact ⟨_, _, keeps.add below called⟩
  | send called =>
      rcases keeps.send called with failed | succeeded
      · exact ⟨_, _, failed⟩
      · exact ⟨_, _, succeeded⟩

/-- The regions of a new manager. -/
theorem init_keeps (memory : EmUpload) (serverUrl : List UInt8)
    (uldataName : Option (List UInt8))
    (uldataType uldataVer uldataBufCapacity : ℕ)
    {uldataSendbufNum sizeofUldata : ℕ} (hcMemory bufMemory : Bytes)
    (nonempty : 0 < uldataSendbufNum) (sized : 1 < sizeofUldata)
    (fits : sizeofUldata * uldataSendbufNum < 4294967296)
    (named : (uldataName.getD uldataNoName).length < sizeofDataName)
    (sound : origin.Sound outer) :
    ∃ start places current,
      emUploadInit memory serverUrl uldataName uldataType uldataVer
        uldataBufCapacity uldataSendbufNum sizeofUldata hcMemory bufMemory
        origin = some start ∧
      Keeps (uploadRing uldataSendbufNum sizeofUldata) origin outer start
        places current [] := by
  obtain ⟨ul, created, ordered, pending, _⟩ := EmUpload.init_ordered memory
    serverUrl uldataName uldataType uldataVer uldataBufCapacity hcMemory
    bufMemory nonempty sized fits named
  have noneUsed : ul.rbUldata.numUsed = 0 := by
    have length := congrArg List.length pending
    simpa [EmUpload.pending, window] using length
  have client := sound.alloc.alloc.use (Finset.mem_insert_self _ _)
  have ring := client.alloc.alloc.use (Finset.mem_insert_self _ _)
  have written := @RegionHeap.Sound.use _ (origin.next + 2) _ ring (by simp)
  have buffer := written.alloc.use (Finset.mem_insert_self _ _)
  have fresh : ∀ region ∈ outer, region < origin.next :=
    fun region member => sound.lt_next member
  refine ⟨_, ⟨origin.next, origin.next + 1, origin.next + 2,
    origin.next + 3⟩, origin.next + 4, by
      simp only [emUploadInit, created, initUldata, ordered.uldata_eq,
        Option.map_some]
      rfl, ordered, rfl, rfl, rfl, rfl, ?_, ?_, ?_, ?_, ?_, ?_⟩
  · exact Function.update_self _ _ _
  · change List.map _ (List.map _ (List.range ul.rbUldata.numUsed)) = _
    rw [noneUsed]
    rfl
  · simp [Places.regions]
  · intro region member foreign
    have below := fresh region foreign
    simp [Places.regions] at member
    omega
  · have owned : (Places.regions ⟨origin.next, origin.next + 1,
        origin.next + 2, origin.next + 3⟩ (origin.next + 4) []).toFinset ∪
          outer = insert (origin.next + 4) (insert (origin.next + 3)
            (insert (origin.next + 2) (insert (origin.next + 1)
              (insert origin.next outer)))) := by
      ext region
      simp [Places.regions]
      tauto
    rw [owned]
    exact buffer
  · change origin.next ≤ origin.next + 1 + 1 + 1 + 1 + 1
    omega

/-- In every run below capacity no region is used or released after it was
released.  With `em_upload_destroy` at its end every region obtained has been
released exactly once, and no other, if and only if no buffer is registered at
that moment. -/
theorem upload_released_iff (memory : EmUpload) (serverUrl : List UInt8)
    (uldataName : Option (List UInt8))
    (uldataType uldataVer uldataBufCapacity uldataSendbufNum : ℕ)
    (sizeofUldata : ℕ) (hcMemory bufMemory : Bytes)
    (nonempty : 0 < uldataSendbufNum) (sized : 1 < sizeofUldata)
    (fits : sizeofUldata * uldataSendbufNum < 4294967296)
    (named : (uldataName.getD uldataNoName).length < sizeofDataName)
    (heap : RegionHeap) (owned : Finset ℕ) (sound : heap.Sound owned) :
    ∃ start, emUploadInit memory serverUrl uldataName uldataType uldataVer
        uldataBufCapacity uldataSendbufNum sizeofUldata hcMemory bufMemory
        heap = some start ∧
      ∀ calls held, Run Step start calls held →
        ∃ last, held.emUploadDestroy = some last ∧ last.Lawful ∧
          (RegionHeap.GivesBack heap last ↔ held.ul.numSendbuf = 0) := by
  obtain ⟨start, places, current, created, keeps⟩ := init_keeps memory
    serverUrl uldataName uldataType uldataVer uldataBufCapacity hcMemory
    bufMemory nonempty sized fits named sound
  refine ⟨start, created, ?_⟩
  intro calls held run
  obtain ⟨current, pending, keeps⟩ := run.invariant
    (fun held => ∃ current pending,
      Keeps (uploadRing uldataSendbufNum sizeofUldata) heap owned held places
        current pending)
    ⟨current, [], keeps⟩ (fun _ _ _ holds taken => by
      obtain ⟨current, pending, holds⟩ := holds
      exact holds.step taken)
  obtain ⟨last, destroyed, left, later⟩ := keeps.destroy
  refine ⟨last, destroyed, left.lawful, ?_⟩
  rw [sound.givesBack_iff left later, keeps.ordered.numSendbuf_eq,
    ← keeps.length_pending]
  have distinct := (List.nodup_append.mp keeps.distinct).2.1
  constructor
  · intro same
    cases pending with
    | nil => rfl
    | cons region rest =>
        have member : region ∈ owned := by
          rw [← same]
          simp
        have notOuter := keeps.apart region (by simp [Places.regions])
        exact absurd member notOuter
  · intro none
    have noPending : pending = [] := by simpa using none
    simp [noPending]

theorem upload_released_two_slots :
    ∃ start, emUploadInit default [] none 2 0 4 2 72 default default ⟨0, []⟩ =
        some start ∧
      ∀ calls held, Run Step start calls held →
        ∃ last, held.emUploadDestroy = some last ∧ last.Lawful ∧
          (RegionHeap.GivesBack ⟨0, []⟩ last ↔ held.ul.numSendbuf = 0) :=
  upload_released_iff default [] none 2 0 4 2 72 default default (by decide)
    (by decide) (by decide) (by decide) ⟨0, []⟩ ∅ .empty

/-- The data of a buffer that is registered at the end are never released. -/
theorem upload_registered_lost :
    ∃ start held last,
      emUploadInit default [] none 2 0 4 2 72 default default ⟨0, []⟩ =
          some start ∧
        Run Step start [.add default] held ∧
        held.emUploadDestroy = some last ∧ last.freed 4 = 0 ∧
        ¬ RegionHeap.GivesBack ⟨0, []⟩ last := by
  refine ⟨_, _, _, rfl, .cons (.add ?_ rfl) .nil, rfl, ?_, ?_⟩
  · decide +kernel
  · decide +kernel
  · intro given
    exact absurd (given 4) (by decide +kernel)

end UploadHeld

end EmbeddedMiddle
