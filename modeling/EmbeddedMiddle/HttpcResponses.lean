import EmbeddedMiddle.Httpc
import EmbeddedMiddle.Foundation.Transition

/-!
# Responses of the HTTP client

All requests of a client write their response into one buffer.  Each write
terminates what it appends, but a request only resets the size: a response
without chunks leaves the text of an earlier one.
-/

namespace EmbeddedMiddle

open Foundation

/-! ## The write function -/

namespace EmBuf

variable {buf : EmBuf} {content : List UInt8} {memory : Bytes}

/-- The buffer ends its contents with a zero. -/
theorem Holds.terminate (holds : buf.Holds content memory) :
    EmBuf.Holds { buf with
        data := buf.data.map
          (fun data => Function.update data buf.dataSize 0) }
      content (Function.update memory content.length 0) := by
  refine ⟨?_, holds.dataSize_eq, holds.fits⟩
  simp only [holds.data_eq, holds.dataSize_eq, Option.map_some]
  congr 1
  funext position
  simp only [Bytes.startingWith, Function.update_apply]
  split_ifs with isEnd
  · rw [isEnd, List.getD_eq_default _ _ le_rfl]
  · rfl

end EmBuf

section Writer

variable {buf : EmBuf} {content : List UInt8} {memory : Bytes}

theorem emBufferWriter_room (holds : buf.Holds content memory)
    (below : buf.bufCapacity < 4294967296) {chunk : List UInt8}
    (isInt : chunk.length ≤ intMax)
    (room : content.length + chunk.length ≤ buf.bufCapacity) :
    ∃ after next,
      emBufferWriter buf (.ofList chunk) chunk.length =
          (chunk.length, after) ∧
        after.Holds (content ++ chunk) next ∧
        next (content ++ chunk).length = 0 ∧
        after.bufCapacity = buf.bufCapacity := by
  obtain ⟨appended, called, kept, capacity⟩ :=
    holds.append below isInt room (.ofList chunk)
  rw [Bytes.read_ofList] at kept
  refine ⟨_, _, ?_, kept.terminate, Function.update_self .., capacity⟩
  simp only [emBufferWriter, toInt32_natCast isInt, called]
  rw [if_neg (by decide), intToSize_natCast isInt]

theorem emBufferWriter_full (holds : buf.Holds content memory)
    {chunk : List UInt8} (isInt : chunk.length ≤ intMax)
    (noWrap : content.length + chunk.length < 4294967296)
    (tooLong : buf.bufCapacity < content.length + chunk.length) :
    emBufferWriter buf (.ofList chunk) chunk.length =
      (curlWritefuncPause, buf) := by
  have refused := holds.append_refused isInt noWrap tooLong (.ofList chunk)
  simp only [emBufferWriter, toInt32_natCast isInt, refused]
  rw [if_pos (by decide)]

/-- A chunk that is no `int` is written with another length. -/
theorem emBufferWriter_no_int {chunk : Bytes} {length : ℕ}
    (noInt : intMax < length) (bound : length < 4294967296) :
    (emBufferWriter buf chunk length).1 = curlWritefuncPause ∨
      (emBufferWriter buf chunk length).1 ≠ length := by
  unfold emBufferWriter
  dsimp only
  split_ifs
  · exact Or.inl rfl
  · right
    unfold intToSize toInt32
    unfold intMax at noInt
    dsimp only
    omega

/-- Whatever is written, the buffer stays one of its capacity. -/
structure EmBuf.Usable (buf : EmBuf) (bufSize : ℕ) : Prop where
  data : ∃ data, buf.data = some data
  capacity : buf.bufCapacity = bufSize

theorem emBufAppend_usable {bufSize : ℕ} (usable : buf.Usable bufSize)
    (chunk : Bytes) (length : ℤ) :
    (emBufAppend buf chunk length).2.Usable bufSize := by
  obtain ⟨data, isData⟩ := usable.data
  unfold emBufAppend
  rw [isData]
  dsimp only
  split_ifs
  · exact usable
  · exact ⟨⟨_, rfl⟩, usable.capacity⟩

theorem emBufferWriter_usable {bufSize : ℕ} (usable : buf.Usable bufSize)
    (chunk : Bytes) (length : ℕ) :
    (emBufferWriter buf chunk length).2.Usable bufSize := by
  have appended := emBufAppend_usable usable chunk (toInt32 length)
  unfold emBufferWriter
  dsimp only
  generalize emBufAppend buf chunk (toInt32 length) = result at appended ⊢
  obtain ⟨ret, after⟩ := result
  obtain ⟨⟨data, isData⟩, capacity⟩ := appended
  split_ifs
  · exact ⟨⟨data, isData⟩, capacity⟩
  · exact ⟨⟨_, congrArg (Option.map _) isData⟩, capacity⟩

end Writer

section Deliver

theorem curlDeliver_cons (buf : EmBuf) (chunk : List UInt8)
    (chunks : List (List UInt8)) :
    let written := emBufferWriter buf (.ofList chunk) chunk.length
    curlDeliver buf (chunk :: chunks) =
      if written.1 = chunk.length ∧ written.1 ≠ curlWritefuncPause then
        curlDeliver written.2 chunks
      else (false, written.2) := rfl

theorem curlDeliver_usable {bufSize : ℕ} (chunks : List (List UInt8)) :
    ∀ {buf : EmBuf}, buf.Usable bufSize →
      (curlDeliver buf chunks).2.Usable bufSize := by
  induction chunks with
  | nil => exact fun usable => usable
  | cons chunk chunks induction =>
      intro buf usable
      have written := emBufferWriter_usable usable (.ofList chunk)
        chunk.length
      rw [curlDeliver_cons]
      split_ifs
      · exact induction written
      · exact written

/-- A chunk that is taken as a whole. -/
theorem emBufferWriter_taken {buf : EmBuf} {content chunk : List UInt8}
    {memory : Bytes} (holds : buf.Holds content memory)
    (noWrap : content.length + chunk.length < 4294967296)
    (taken : (emBufferWriter buf (.ofList chunk) chunk.length).1 =
        chunk.length ∧
      (emBufferWriter buf (.ofList chunk) chunk.length).1 ≠
        curlWritefuncPause) :
    chunk.length ≤ intMax ∧
      content.length + chunk.length ≤ buf.bufCapacity := by
  rcases Nat.lt_or_ge intMax chunk.length with noInt | isInt
  · have written := @emBufferWriter_no_int buf (.ofList chunk) _ noInt
      (by omega)
    rcases written with paused | other
    · exact absurd paused taken.2
    · exact absurd taken.1 other
  · refine ⟨isInt, ?_⟩
    by_contra tooLong
    have full := emBufferWriter_full holds isInt noWrap (not_le.mp tooLong)
    rw [full] at taken
    exact taken.2 rfl

/-- When every chunk is taken the buffer holds all of them, and ends with a
zero if there was one at all. -/
theorem curlDeliver_accepted (chunks : List (List UInt8)) :
    ∀ {buf : EmBuf} {content : List UInt8} {memory : Bytes},
      buf.Holds content memory →
      buf.bufCapacity < 4294967296 →
      (content ++ chunks.flatten).length < 4294967296 →
      (curlDeliver buf chunks).1 = true →
      ∃ next, (curlDeliver buf chunks).2.Holds
          (content ++ chunks.flatten) next ∧
        (chunks = [] ∧ next = memory ∨
          next (content ++ chunks.flatten).length = 0) := by
  induction chunks with
  | nil =>
      intro buf content memory holds below noWrap accepted
      refine ⟨memory, ?_, Or.inl ⟨rfl, rfl⟩⟩
      rw [List.flatten_nil, List.append_nil]
      exact holds
  | cons chunk chunks induction =>
      intro buf content memory holds below noWrap accepted
      simp only [List.flatten_cons, List.length_append] at noWrap
      rw [curlDeliver_cons] at accepted ⊢
      split_ifs at accepted ⊢ with taken
      · obtain ⟨isInt, room⟩ :=
          emBufferWriter_taken holds (by omega) taken
        obtain ⟨after, next, written, kept, ends, capacity⟩ :=
          emBufferWriter_room holds below isInt room
        rw [written] at accepted ⊢
        obtain ⟨last, full, stopped⟩ := induction kept
          (by rw [capacity]; exact below)
          (by simp only [List.length_append]; omega) accepted
        rw [List.append_assoc] at full stopped
        refine ⟨last, full, Or.inr ?_⟩
        rcases stopped with ⟨rfl, rfl⟩ | stopped
        · simpa using ends
        · exact stopped

end Deliver

/-! ## Runs -/

namespace EmHttpc

/-- What the chunks of a transfer do to the buffer of a new request. -/
def delivered (hc : EmHttpc) (transfer : CurlTransfer) : Bool × EmBuf :=
  curlDeliver { hc.buf with dataSize := 0 } transfer.chunks

/-- A request, what libcurl does for it, and the body of the response. -/
abbrev Exchange := HttpcRequest × CurlTransfer × List UInt8

/-- libcurl reports success only when the write function took every chunk, and
the chunks are those of the body. -/
def Step (before : EmHttpc) (label : Exchange) (after : EmHttpc) : Prop :=
  let (request, transfer, body) := label
  (transfer.ok = true →
    transfer.chunks.flatten = body ∧
      (before.delivered transfer).1 = true) ∧
  after = (request.call before transfer).hc

/-- A request that returns 0 shows the body of its own response, which fits
the buffer. -/
def Answers (before : EmHttpc) (label : Exchange) (_ : EmHttpc) : Prop :=
  let (request, transfer, body) := label
  let result := request.call before transfer
  result.ret = 0 →
    body.length ≤ before.buf.bufCapacity ∧
      ∃ response data, result.response = some response ∧
        response.data = some data ∧
        response.dataSize = body.length ∧
        (0 ∉ body → data.cString (before.buf.bufCapacity + 1) = body)

/-- A successful transfer brings fewer than 2^32 bytes, and, when it brings
no chunk at all, finds the buffer with an empty text. -/
def Fresh (before : EmHttpc) (label : Exchange) : Prop :=
  let (request, transfer, body) := label
  request.Accepted → transfer.ok = true →
    body.length < 4294967296 ∧
      (transfer.chunks = [] → ∀ data, before.buf.data = some data →
        data 0 = 0)

variable {before after : EmHttpc} {request : HttpcRequest}
  {transfer : CurlTransfer} {body : List UInt8} {bufSize : ℕ}

theorem delivered_usable (transfer : CurlTransfer)
    (usable : before.buf.Usable bufSize) :
    (before.delivered transfer).2.Usable bufSize :=
  curlDeliver_usable transfer.chunks ⟨usable.data, usable.capacity⟩

theorem call_hc_usable (usable : before.buf.Usable bufSize) :
    (request.call before transfer).hc.buf.Usable bufSize := by
  by_cases accepted : request.Accepted
  · obtain ⟨prepared, release, called⟩ :=
      request.call_accepted accepted before transfer
    have written := delivered_usable transfer usable
    rw [called, perform]
    split_ifs
    · exact written
    · exact written
  · rw [request.call_rejected accepted]
    exact usable

/-- The buffer shows `body` as a text when a zero follows it. -/
theorem cString_startingWith_iff {memory : Bytes} {length : ℕ}
    (fits : body.length ≤ length) :
    (memory.startingWith body).cString (length + 1) = body ↔
      0 ∉ body ∧ memory body.length = 0 := by
  obtain ⟨behind, rfl⟩ := Nat.exists_eq_add_of_le fits
  have split : ∃ rest, memory.read body.length (behind + 1) =
      memory body.length :: rest := by
    have shifted := (memory.shift body.length).read_succ behind
    rw [Bytes.read_shift] at shifted
    exact ⟨_, shifted⟩
  obtain ⟨rest, isRest⟩ := split
  rw [Bytes.cString, Nat.add_assoc, Bytes.read_startingWith_behind, isRest]
  exact zeroTerminated_append_iff

/-- A successful transfer is answered exactly when it was fresh. -/
theorem delivered_iff (usable : before.buf.Usable bufSize)
    (below : bufSize < 4294967296)
    (split : transfer.chunks.flatten = body)
    (taken : (before.delivered transfer).1 = true) :
    (body.length ≤ before.buf.bufCapacity ∧
      ∃ data, (before.delivered transfer).2.data = some data ∧
        (before.delivered transfer).2.dataSize = body.length ∧
        (0 ∉ body →
          data.cString (before.buf.bufCapacity + 1) = body)) ↔
      body.length < 4294967296 ∧
        (transfer.chunks = [] → ∀ data, before.buf.data = some data →
          data 0 = 0) := by
  obtain ⟨memory, isData⟩ := usable.data
  have holds : EmBuf.Holds { before.buf with dataSize := 0 } [] memory :=
    ⟨by simp [isData], rfl, Nat.zero_le _⟩
  rw [← usable.capacity] at below
  constructor
  · rintro ⟨fits, data, found, size, text⟩
    refine ⟨by omega, ?_⟩
    intro nothing other isOther
    rw [nothing] at split
    obtain rfl : [] = body := split
    rw [delivered, nothing] at found
    have same : memory = data := by
      have unchanged : before.buf.data = some data := found
      rw [isData] at unchanged
      exact Option.some.inj unchanged
    have ends := text (List.not_mem_nil)
    rw [← same, ← Bytes.startingWith_nil memory,
      cString_startingWith_iff (Nat.zero_le _)] at ends
    rw [isData] at isOther
    rw [← Option.some.inj isOther]
    exact ends.2
  · rintro ⟨short, fresh⟩
    obtain ⟨next, kept, ends⟩ := curlDeliver_accepted transfer.chunks holds
      below (by rw [split]; exact short) taken
    rw [split, List.nil_append] at kept ends
    have fits : body.length ≤ before.buf.bufCapacity := by
      have capacity := (delivered_usable transfer usable).capacity
      rw [usable.capacity, ← capacity]
      exact kept.fits
    have terminated : next body.length = 0 := by
      rcases ends with ⟨nothing, rfl⟩ | ends
      · rw [nothing] at split
        obtain rfl : [] = body := split
        exact fresh nothing next isData
      · exact ends
    refine ⟨fits, _, kept.data_eq, kept.dataSize_eq, ?_⟩
    intro noZero
    exact (cString_startingWith_iff fits).mpr ⟨noZero, terminated⟩

theorem answers_iff {label : Exchange}
    (usable : before.buf.Usable bufSize) (below : bufSize < 4294967296)
    (taken : before.Step label after) :
    before.Answers label after ↔ before.Fresh label := by
  obtain ⟨request, transfer, body⟩ := label
  obtain ⟨libcurl, _⟩ := taken
  by_cases accepted : request.Accepted
  · obtain ⟨prepared, release, called⟩ :=
      request.call_accepted accepted before transfer
    simp only [Answers, Fresh, called, perform, accepted, forall_true_left]
    cases ok : transfer.ok with
    | false => simp
    | true =>
        obtain ⟨split, written⟩ := libcurl ok
        have decided := delivered_iff usable below split written
        simpa [delivered, emCurlInit] using decided
  · simp [Answers, Fresh, request.call_rejected accepted, accepted]

end EmHttpc

/-- The runs in which every request is answered with its own body are those
in which no successful transfer without a chunk finds an old text. -/
theorem httpc_answers_iff (hc : EmHttpc) {bufSize : ℕ} (memory : Bytes)
    (below : bufSize + 1 < 4294967296) (labels : List EmHttpc.Exchange)
    (state : EmHttpc) :
    Run (Upholding EmHttpc.Answers EmHttpc.Step)
        (emHttpcInit hc bufSize memory) labels state ↔
      Run (Guarded EmHttpc.Fresh EmHttpc.Step)
        (emHttpcInit hc bufSize memory) labels state := by
  apply Run.upholding_iff (fun hc => hc.buf.Usable bufSize)
  · exact ⟨⟨_, rfl⟩, rfl⟩
  · rintro before label after usable ⟨_, _, rfl⟩
    exact EmHttpc.call_hc_usable usable
  · intro before label after usable taken
    exact EmHttpc.answers_iff usable (by omega) taken

/-- A request whose response arrives in the given chunks. -/
def plainGet (chunks : List (List UInt8)) : EmHttpc.Exchange :=
  (.get [] none true, ⟨1, 0, chunks, true, 200⟩, chunks.flatten)

/-- The second response is shorter than the first one. -/
theorem httpc_answers_two_requests :
    ∃ state, Run (Upholding EmHttpc.Answers EmHttpc.Step)
      (emHttpcInit default 3 (fun _ => 1))
      [plainGet [[65, 66], [67]], plainGet [[68]]] state := by
  have run : ∃ state, Run (Guarded EmHttpc.Fresh EmHttpc.Step)
      (emHttpcInit default 3 (fun _ => 1))
      [plainGet [[65, 66], [67]], plainGet [[68]]] state :=
    ⟨_, .cons ⟨fun _ _ => ⟨by decide, nofun⟩, fun _ => ⟨rfl, rfl⟩, rfl⟩ <|
      .cons ⟨fun _ _ => ⟨by decide, nofun⟩, fun _ => ⟨rfl, rfl⟩, rfl⟩ .nil⟩
  obtain ⟨state, run⟩ := run
  exact ⟨state, (httpc_answers_iff default _ (by decide) _ state).mpr run⟩

/-- An empty response after one of a byte: the old text is shown. -/
theorem httpc_shows_old_response :
    ∃ state after, Run EmHttpc.Step (emHttpcInit default 3 (fun _ => 1))
        [plainGet [[65]]] state ∧
      state.Step (plainGet []) after ∧
      ¬ state.Answers (plainGet []) after := by
  refine ⟨_, _, .cons ⟨fun _ => ⟨rfl, rfl⟩, rfl⟩ .nil,
    ⟨fun _ => ⟨rfl, rfl⟩, rfl⟩, ?_⟩
  intro answers
  obtain ⟨_, response, data, isResponse, isData, _, text⟩ := answers rfl
  cases isResponse
  cases isData
  exact absurd (text List.not_mem_nil) (by decide)

end EmbeddedMiddle
