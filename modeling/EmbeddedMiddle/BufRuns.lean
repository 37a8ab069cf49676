import EmbeddedMiddle.Upload
import EmbeddedMiddle.Foundation.Transition

/-!
# Runs on a byte buffer

Appends and clearings of one buffer after its initialisation, with a ledger of
the bytes that were accepted since the last clearing.
-/

namespace EmbeddedMiddle

open Foundation

inductive BufEvent where
  | append (source : Bytes) (length ret : ℤ)
  | clear

/-- A buffer with the bytes that the appends since the last clearing reported
as taken. -/
structure BufLedger where
  buf : EmBuf
  content : List UInt8

namespace BufLedger

def start (capacity : ℕ) (memory : Bytes) : BufLedger :=
  ⟨emBufInit capacity memory, []⟩

def append (ledger : BufLedger) (source : Bytes) (length : ℤ) : BufLedger where
  buf := (emBufAppend ledger.buf source length).2
  content :=
    if (emBufAppend ledger.buf source length).1 = 0 then
      ledger.content ++ source.read 0 length.toNat
    else ledger.content

/-- The length is an `int`. -/
inductive Step : BufLedger → BufEvent → BufLedger → Prop where
  | append {ledger : BufLedger} {source : Bytes} {length : ℤ} :
      -2147483648 ≤ length →
      length ≤ intMax →
      Step ledger
        (.append source length (emBufAppend ledger.buf source length).1)
        (ledger.append source length)
  | clear {ledger : BufLedger} :
      Step ledger .clear ⟨emBufClear ledger.buf, []⟩

/-- The buffer holds what the ledger says, within its capacity. -/
def Faithful (ledger : BufLedger) : Prop :=
  ledger.buf.dataSize ≤ ledger.buf.bufCapacity ∧
    ∃ data, ledger.buf.data = some data ∧
      data.read 0 ledger.buf.dataSize = ledger.content

/-- An append is taken exactly when the bytes fit, in exact integers, and
changes nothing otherwise. -/
def Exact (before : BufLedger) (event : BufEvent) (after : BufLedger) :
    Prop :=
  match event with
  | .append _ length ret =>
      (ret = 0 ↔ 0 ≤ length ∧
        before.buf.dataSize + length ≤ before.buf.bufCapacity) ∧
        (ret ≠ 0 → after.buf = before.buf) ∧ after.Faithful
  | .clear => after.Faithful

/-- The sum that is compared is the exact one, or a negative one that becomes
larger than the capacity. -/
def Unwrapped (before : BufLedger) : BufEvent → Prop
  | .append _ length _ =>
      (0 ≤ length ∧ before.buf.dataSize + length < 4294967296) ∨
        (before.buf.dataSize + length < 0 ∧
          before.buf.bufCapacity < before.buf.dataSize + length + 4294967296)
  | .clear => True

variable {ledger after : BufLedger} {event : BufEvent} {capacity : ℕ}
  {memory : Bytes}

/-- The invariant of the runs whose sums do not wrap. -/
def Sound (ledger : BufLedger) (capacity : ℕ) : Prop :=
  ledger.buf.bufCapacity = capacity ∧
    ∃ memory, ledger.buf.Holds ledger.content memory

theorem start_sound : (start capacity memory).Sound capacity :=
  ⟨rfl, _, EmBuf.init_holds capacity memory⟩

theorem clear_holds {bf : EmBuf} {data : Bytes}
    (isData : bf.data = some data) :
    (emBufClear bf).Holds [] (Function.update data 0 0) := by
  refine ⟨?_, rfl, Nat.zero_le _⟩
  rw [emBufClear, isData, Bytes.startingWith_nil]
  rfl

theorem Sound.faithful (sound : ledger.Sound capacity) : ledger.Faithful := by
  obtain ⟨-, memory, holds⟩ := sound
  refine ⟨holds.dataSize_eq.trans_le holds.fits, _, holds.data_eq, ?_⟩
  rw [holds.dataSize_eq, Bytes.read_startingWith]

/-! ## One append -/

/-- The size that is compared with the capacity. -/
def sizeAfter (ledger : BufLedger) (length : ℤ) : ℕ :=
  uint32 (ledger.buf.dataSize + intToUint32 length)

theorem sizeAfter_eq (ledger : BufLedger) (length : ℤ) :
    (ledger.sizeAfter length : ℤ) =
      (ledger.buf.dataSize + length) % 4294967296 := by
  unfold sizeAfter uint32 intToUint32
  omega

theorem append_of_le {data : Bytes} {length : ℤ} (source : Bytes)
    (isData : ledger.buf.data = some data)
    (fits : ledger.sizeAfter length ≤ ledger.buf.bufCapacity) :
    emBufAppend ledger.buf source length = (0, { ledger.buf with
      data := some (data.copy ledger.buf.dataSize source (intToSize length))
      dataSize := ledger.sizeAfter length }) := by
  rw [emBufAppend, isData]
  exact if_neg (Nat.not_lt.mpr fits)

theorem append_of_lt {data : Bytes} {length : ℤ} (source : Bytes)
    (isData : ledger.buf.data = some data)
    (tooLong : ledger.buf.bufCapacity < ledger.sizeAfter length) :
    emBufAppend ledger.buf source length = (-2, ledger.buf) := by
  rw [emBufAppend, isData]
  exact if_pos tooLong

theorem append_ret_iff {data : Bytes} {length : ℤ} {source : Bytes}
    (isData : ledger.buf.data = some data) :
    (emBufAppend ledger.buf source length).1 = 0 ↔
      ledger.sizeAfter length ≤ ledger.buf.bufCapacity := by
  rcases Nat.lt_or_ge ledger.buf.bufCapacity (ledger.sizeAfter length) with
    tooLong | fits
  · simp [append_of_lt source isData tooLong, tooLong]
  · simp [append_of_le source isData fits, fits]

theorem append_unchanged {data : Bytes} {length : ℤ} {source : Bytes}
    (isData : ledger.buf.data = some data)
    (refused : (emBufAppend ledger.buf source length).1 ≠ 0) :
    ledger.append source length = ledger := by
  have tooLong := Nat.not_le.mp (mt (append_ret_iff isData).mpr refused)
  rw [append, append_of_lt source isData tooLong]
  rfl

/-- Which appends are taken as they should be. -/
theorem unwrapped_iff {source : Bytes} {length ret : ℤ}
    (lower : -2147483648 ≤ length) (upper : length ≤ intMax)
    (below : ledger.buf.bufCapacity < 4294967295)
    (fits : ledger.buf.dataSize ≤ ledger.buf.bufCapacity) :
    (ledger.sizeAfter length ≤ ledger.buf.bufCapacity ↔
      0 ≤ length ∧ ledger.buf.dataSize + length ≤ ledger.buf.bufCapacity) ↔
      ledger.Unwrapped (.append source length ret) := by
  have size := ledger.sizeAfter_eq length
  unfold intMax at upper
  simp only [Unwrapped]
  constructor
  · intro exactly
    by_contra wraps
    omega
  · intro unwrapped
    omega

theorem Sound.append {source : Bytes} {length : ℤ}
    (sound : ledger.Sound capacity) (below : capacity < 4294967295)
    (upper : length ≤ intMax) (nonneg : 0 ≤ length)
    (room : ledger.buf.dataSize + length ≤ ledger.buf.bufCapacity) :
    (ledger.append source length).Sound capacity := by
  obtain ⟨rfl, memory, holds⟩ := sound
  obtain ⟨length, rfl⟩ := Int.eq_ofNat_of_zero_le nonneg
  rw [holds.dataSize_eq] at room
  obtain ⟨after, called, kept, same⟩ := holds.append (by omega)
    (Int.ofNat_le.mp upper) (by exact_mod_cast room) source
  rw [BufLedger.append, called]
  exact ⟨same, memory, kept⟩

theorem Sound.step (sound : ledger.Sound capacity)
    (below : capacity < 4294967295)
    (taken : Guarded Unwrapped Step ledger event after) :
    after.Sound capacity := by
  obtain ⟨unwrapped, taken⟩ := taken
  obtain ⟨rfl, memory, holds⟩ := sound
  cases taken with
  | clear =>
      exact ⟨rfl, _, clear_holds holds.data_eq⟩
  | @append source length lower upper =>
      have exactly := (unwrapped_iff lower upper below
        (holds.dataSize_eq.trans_le holds.fits)).mpr unwrapped
      by_cases returned : (emBufAppend ledger.buf source length).1 = 0
      · have room := exactly.mp ((append_ret_iff holds.data_eq).mp returned)
        exact Sound.append ⟨rfl, memory, holds⟩ below upper room.1 room.2
      · rw [append_unchanged holds.data_eq returned]
        exact ⟨rfl, memory, holds⟩

theorem Step.exact_iff (taken : Step ledger event after)
    (below : capacity < 4294967295) (sound : ledger.Sound capacity) :
    Exact ledger event after ↔ Unwrapped ledger event := by
  have kept : Unwrapped ledger event → after.Faithful :=
    fun unwrapped => (sound.step below ⟨unwrapped, taken⟩).faithful
  obtain ⟨rfl, memory, holds⟩ := sound
  cases taken with
  | clear => exact iff_of_true (kept trivial) trivial
  | @append source length lower upper =>
      have decided := @unwrapped_iff ledger source length
        (emBufAppend ledger.buf source length).1 lower upper below
        (holds.dataSize_eq.trans_le holds.fits)
      rw [← append_ret_iff holds.data_eq] at decided
      constructor
      · rintro ⟨exactly, -, -⟩
        exact decided.mp exactly
      · intro unwrapped
        refine ⟨decided.mpr unwrapped, ?_, kept unwrapped⟩
        intro refused
        rw [append_unchanged holds.data_eq refused]

end BufLedger

/-! ## Exact appends -/

/-- A buffer takes what fits and holds what it took, in the runs whose sums do
not wrap, and only in these. -/
theorem buf_exact_iff {capacity : ℕ} (below : capacity ≤ 4294967294)
    (memory : Bytes) {events : List BufEvent} {ledger : BufLedger} :
    Run (Upholding BufLedger.Exact BufLedger.Step)
        (.start capacity memory) events ledger ↔
      Run (Guarded BufLedger.Unwrapped BufLedger.Step)
        (.start capacity memory) events ledger := by
  have bound : capacity < 4294967295 := Nat.lt_succ_of_le below
  apply Run.upholding_iff (fun ledger => ledger.Sound capacity)
  · exact BufLedger.start_sound
  · intro before event after sound taken
    exact sound.step bound taken
  · intro before event after sound taken
    exact taken.exact_iff bound sound

/-- Two bytes are taken, three more are not. -/
theorem buf_exact_two_appends :
    ∃ ledger, Run (Upholding BufLedger.Exact BufLedger.Step)
      (.start 4 (fun _ => 7))
      [.append (.ofList [1, 2]) 2 0, .append (.ofList [3, 4, 5]) 3 (-2)]
      ledger := by
  have run : ∃ ledger, Run (Guarded BufLedger.Unwrapped BufLedger.Step)
      (.start 4 (fun _ => 7))
      [.append (.ofList [1, 2]) 2 0, .append (.ofList [3, 4, 5]) 3 (-2)]
      ledger :=
    ⟨_, .cons ⟨.inl (by decide), .append (by decide) (by decide)⟩
      (.cons ⟨.inl (by decide), .append (by decide) (by decide)⟩ .nil)⟩
  obtain ⟨ledger, run⟩ := run
  exact ⟨ledger, (buf_exact_iff (by decide) _).mpr run⟩

/-- A negative length that stays above the start of the buffer is taken: the
size shrinks, and `memcpy` gets almost 2^64 bytes to copy. -/
theorem buf_takes_negative_length :
    let before := (BufLedger.start 4 (fun _ => 7)).append (.ofList [1, 2]) 2
    let source := Bytes.ofList [3]
    Run BufLedger.Step (.start 4 (fun _ => 7)) [.append (.ofList [1, 2]) 2 0]
        before ∧
      BufLedger.Step before (.append source (-1) 0)
        (before.append source (-1)) ∧
      (before.append source (-1)).buf.dataSize = 1 ∧
      ¬ BufLedger.Exact before (.append source (-1) 0)
        (before.append source (-1)) := by
  intro before source
  have returned : (emBufAppend before.buf source (-1)).1 = 0 := by
    decide +kernel
  refine ⟨.cons (.append (by decide) (by decide)) .nil,
    returned ▸ .append (by decide) (by decide), by decide +kernel, ?_⟩
  rintro ⟨exactly, -, -⟩
  exact absurd (exactly.mp rfl).1 (by decide)

/-! ## Terminators -/

namespace BufLedger

variable {ledger after : BufLedger} {event : BufEvent} {capacity : ℕ}
  {memory : Bytes}

def Nonnegative (_ : BufLedger) : BufEvent → Prop
  | .append _ length _ => 0 ≤ length
  | .clear => True

/-- A zero follows the bytes of the buffer. -/
def Terminated (ledger : BufLedger) : Prop :=
  ∃ data, ledger.buf.data = some data ∧ data ledger.buf.dataSize = 0

/-- The append is refused, or where it ends there is a zero already. -/
def ZeroBehind (before : BufLedger) : BufEvent → Prop
  | .append _ length _ =>
      before.buf.bufCapacity < before.sizeAfter length ∨
        ∃ data, before.buf.data = some data ∧
          data (before.sizeAfter length) = 0
  | .clear => True

/-- The invariant of the runs that find their zeros: a buffer without a zero
in it is the one of the ledger. -/
structure Closed (ledger : BufLedger) (capacity : ℕ) : Prop where
  capacity_eq : ledger.buf.bufCapacity = capacity
  dataSize_lt : ledger.buf.dataSize < 4294967296
  terminated : ledger.Terminated
  held : 0 ∉ ledger.content →
    ∃ memory, ledger.buf.Holds ledger.content memory

theorem start_closed : (start capacity memory).Closed capacity := by
  refine ⟨rfl, Nat.succ_pos _, ⟨_, rfl, ?_⟩,
    fun _ => ⟨_, EmBuf.init_holds capacity memory⟩⟩
  change Function.update (Function.update memory 0 0) capacity 0 0 = 0
  by_cases empty : 0 = capacity
  · rw [empty, Function.update_self]
  · rw [Function.update_of_ne empty, Function.update_self]

/-- No byte that is copied lies where the buffer ends afterwards. -/
theorem copy_sizeAfter {data source : Bytes} {length : ℤ}
    (small : ledger.buf.dataSize < 4294967296) (nonneg : 0 ≤ length)
    (upper : length ≤ intMax) :
    data.copy ledger.buf.dataSize source (intToSize length)
        (ledger.sizeAfter length) =
      data (ledger.sizeAfter length) := by
  have size := ledger.sizeAfter_eq length
  unfold intMax at upper
  unfold intToSize
  rw [Bytes.copy, if_neg]
  omega

theorem Step.terminated_iff (taken : Step ledger event after)
    (nonneg : ledger.Nonnegative event) (closed : ledger.Closed capacity) :
    after.Terminated ↔ ledger.ZeroBehind event := by
  obtain ⟨data, isData, isZero⟩ := closed.terminated
  cases taken with
  | clear =>
      refine iff_of_true ⟨_, by rw [emBufClear, isData]; rfl, ?_⟩ trivial
      exact Function.update_self ..
  | @append source length lower upper =>
      rcases Nat.lt_or_ge ledger.buf.bufCapacity (ledger.sizeAfter length) with
        tooLong | fits
      · rw [BufLedger.append, append_of_lt source isData tooLong]
        exact iff_of_true ⟨data, isData, isZero⟩ (.inl tooLong)
      · rw [BufLedger.append, append_of_le source isData fits]
        simp only [Terminated, ZeroBehind, isData, Option.some.injEq,
          exists_eq_left', Nat.not_lt.mpr fits, false_or]
        rw [copy_sizeAfter closed.dataSize_lt nonneg upper]

/-- A sum that wraps ends inside the buffer, where a zero was taken for the
terminator. -/
theorem Closed.held_append {source : Bytes} {length : ℤ}
    (closed : ledger.Closed capacity) (below : capacity < 4294967295)
    (nonneg : 0 ≤ length) (upper : length ≤ intMax)
    (zeroBehind : ledger.ZeroBehind (.append source length 0))
    (noZero : 0 ∉ (ledger.append source length).content) :
    ∃ memory, (ledger.append source length).buf.Holds
      (ledger.append source length).content memory := by
  obtain ⟨data, isData, -⟩ := closed.terminated
  by_cases returned : (emBufAppend ledger.buf source length).1 = 0
  · have earlier : 0 ∉ ledger.content := by
      rw [append, if_pos returned] at noZero
      exact fun among => noZero (List.mem_append_left _ among)
    obtain ⟨memory, holds⟩ := closed.held earlier
    have fits := (append_ret_iff isData).mp returned
    have size := ledger.sizeAfter_eq length
    unfold intMax at upper
    by_cases exactly : ledger.buf.dataSize + length < 4294967296
    · have sound : ledger.Sound capacity := ⟨closed.capacity_eq, memory, holds⟩
      exact (sound.append below upper nonneg (by omega)).2
    · have inside : ledger.sizeAfter length < ledger.content.length := by
        have small := closed.dataSize_lt
        rw [← holds.dataSize_eq]
        omega
      obtain tooLong | ⟨zeroed, isZeroed, isZero⟩ := zeroBehind
      · exact absurd fits (Nat.not_le.mpr tooLong)
      · obtain rfl := Option.some.inj (holds.data_eq.symm.trans isZeroed)
        rw [Bytes.startingWith, List.getD_eq_getElem _ _ inside] at isZero
        exact absurd (isZero ▸ List.getElem_mem inside) earlier
  · rw [append_unchanged isData returned] at noZero ⊢
    exact closed.held noZero

theorem Closed.step (closed : ledger.Closed capacity)
    (below : capacity < 4294967295)
    (taken : Guarded ZeroBehind (Guarded Nonnegative Step) ledger event
      after) :
    after.Closed capacity := by
  obtain ⟨zeroBehind, nonneg, taken⟩ := taken
  have terminated := (taken.terminated_iff nonneg closed).mpr zeroBehind
  obtain ⟨data, isData, -⟩ := closed.terminated
  cases taken with
  | clear =>
      exact ⟨closed.capacity_eq, Nat.succ_pos _, terminated,
        fun _ => ⟨_, clear_holds isData⟩⟩
  | @append source length lower upper =>
      refine ⟨?_, ?_, terminated,
        closed.held_append below nonneg upper zeroBehind⟩
      · rcases Nat.lt_or_ge ledger.buf.bufCapacity
          (ledger.sizeAfter length) with tooLong | fits
        · rw [BufLedger.append, append_of_lt source isData tooLong]
          exact closed.capacity_eq
        · rw [BufLedger.append, append_of_le source isData fits]
          exact closed.capacity_eq
      · rcases Nat.lt_or_ge ledger.buf.bufCapacity
          (ledger.sizeAfter length) with tooLong | fits
        · rw [BufLedger.append, append_of_lt source isData tooLong]
          exact closed.dataSize_lt
        · rw [BufLedger.append, append_of_le source isData fits]
          exact Nat.mod_lt _ (by decide)

/-- Behind the bytes of the ledger `libcurl` finds the zero. -/
theorem Closed.zeroTerminated (closed : ledger.Closed capacity)
    (noZero : 0 ∉ ledger.content) {ud : EmUldata}
    (isBuf : ud.buf = ledger.buf) :
    EmbeddedMiddle.zeroTerminated ud.httppart.data = ledger.content := by
  obtain ⟨memory, holds⟩ := closed.held noZero
  obtain ⟨data, isData, isZero⟩ := closed.terminated
  obtain rfl := Option.some.inj (holds.data_eq.symm.trans isData)
  obtain ⟨behind, isBehind⟩ := Nat.exists_eq_add_of_le holds.fits
  have region : ud.httppart.data = ledger.content ++
      memory ledger.content.length ::
        (memory.read (ledger.content.length + 1) behind) := by
    have size : ledger.buf.bufCapacity + 1 =
        ledger.content.length + (behind + 1) := by omega
    rw [EmUldata.httppart, isBuf, holds.data_eq, Option.getD_some, size,
      Bytes.read_startingWith_behind]
    simp [Bytes.read, List.range_succ_eq_map, Nat.add_assoc, Nat.add_comm 1]
  rw [region]
  refine zeroTerminated_append_iff.mpr ⟨noZero, ?_⟩
  rw [holds.dataSize_eq, Bytes.startingWith,
    List.getD_eq_default _ _ (Nat.le_refl _)] at isZero
  exact isZero

end BufLedger

/-- The buffer stays terminated exactly in the runs in which every append that
is taken ends where there is a zero already; in these a part of type `STRING`
sends the bytes that were taken, if none of them is zero. -/
theorem buf_terminated_iff {capacity : ℕ} (below : capacity ≤ 4294967294)
    (memory : Bytes) {events : List BufEvent} {ledger : BufLedger} :
    (Run (Upholding (fun _ _ after => after.Terminated)
          (Guarded BufLedger.Nonnegative BufLedger.Step))
        (.start capacity memory) events ledger ↔
      Run (Guarded BufLedger.ZeroBehind
          (Guarded BufLedger.Nonnegative BufLedger.Step))
        (.start capacity memory) events ledger) ∧
    (Run (Guarded BufLedger.ZeroBehind
          (Guarded BufLedger.Nonnegative BufLedger.Step))
        (.start capacity memory) events ledger →
      0 ∉ ledger.content → ∀ ud : EmUldata, ud.buf = ledger.buf →
        ud.dataType = emHttpPartTypeString → ∀ hc url transfer,
          CurlCall.postedForms
              (emHttpcPostMultipart hc url [ud.httppart] transfer).calls =
            [[⟨ud.dataName, some "text/plain", .data ledger.content⟩]]) := by
  have bound : capacity < 4294967295 := Nat.lt_succ_of_le below
  constructor
  · apply Run.upholding_iff (fun ledger => ledger.Closed capacity)
    · exact BufLedger.start_closed
    · intro before event after closed taken
      exact closed.step bound taken
    · rintro before event after closed ⟨nonneg, taken⟩
      exact taken.terminated_iff nonneg closed
  · intro run noZero ud isBuf isString hc url transfer
    have closed := run.invariant (fun ledger => ledger.Closed capacity)
      BufLedger.start_closed
      (fun _ _ _ closed taken => closed.step bound taken)
    have isType : ud.httppart.dataType = emHttpPartTypeString := isString
    have isPart : ud.httppart.mimepart =
        some ⟨ud.dataName, some "text/plain", .data ledger.content⟩ := by
      rw [EmHttppart.mimepart, if_pos isType,
        closed.zeroTerminated noZero isBuf]
      rfl
    rw [emHttpcPostMultipart_postedForms, List.filterMap_cons, isPart]
    rfl

/-- Memory that was zero before. -/
theorem buf_terminated_fresh_memory :
    ∃ ledger, Run (Upholding (fun _ _ after => after.Terminated)
        (Guarded BufLedger.Nonnegative BufLedger.Step))
      (.start 4 (fun _ => 0)) [.append (.ofList [1, 2]) 2 0] ledger ∧
      ∀ hc url transfer, CurlCall.postedForms
          (emHttpcPostMultipart hc url
            [(⟨[110], emHttpPartTypeString, 0, 0, ledger.buf⟩ :
              EmUldata).httppart] transfer).calls =
        [[⟨[110], some "text/plain", .data [1, 2]⟩]] := by
  let source := Bytes.ofList [1, 2]
  let ledger := (BufLedger.start 4 (fun _ => 0)).append source 2
  have run : Run (Guarded BufLedger.ZeroBehind
      (Guarded BufLedger.Nonnegative BufLedger.Step))
      (.start 4 (fun _ => 0)) [.append source 2 0] ledger :=
    .cons ⟨.inr ⟨_, rfl, rfl⟩, Int.natCast_nonneg 2,
      .append (by decide) (by decide)⟩ .nil
  have results := @buf_terminated_iff 4 (by decide) (fun _ => 0)
    [.append source 2 0] ledger
  exact ⟨ledger, results.1.mpr run, fun hc url transfer =>
    results.2 run (by decide) _ rfl rfl hc url transfer⟩

/-- Over old memory the bytes are not terminated, and the part sends what lies
behind them. -/
theorem buf_not_terminated :
    let source := Bytes.ofList [1, 2]
    let before := BufLedger.start 4 (fun _ => 7)
    let after := before.append source 2
    Guarded BufLedger.Nonnegative BufLedger.Step before (.append source 2 0)
        after ∧
      ¬ after.Terminated ∧
      after.content = [1, 2] ∧
      zeroTerminated (⟨[110], emHttpPartTypeString, 0, 0, after.buf⟩ :
        EmUldata).httppart.data = [1, 2, 7, 7] := by
  intro source before after
  refine ⟨⟨Int.natCast_nonneg 2, .append (by decide) (by decide)⟩, ?_, rfl, by
    decide +kernel⟩
  rintro ⟨data, isData, isZero⟩
  obtain rfl := Option.some.inj isData
  exact absurd isZero (by decide)

end EmbeddedMiddle
