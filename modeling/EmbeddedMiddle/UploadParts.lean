import EmbeddedMiddle.UploadSlots
import Mathlib.Data.List.Forall2

/-!
# What an upload sends

A ledger has the bytes that were accepted for each registered buffer.  A post
has to carry them, as parts of the configured type, and to lose none when it
fails.
-/

namespace EmbeddedMiddle

open Foundation

/-! ## The ledger -/

/-- The accepted bytes of a buffer, and what `alloc_func` gave for it. -/
structure UploadEntry where
  data : List UInt8
  memory : Bytes

structure UploadLedger where
  registered : List UploadEntry
  current : UploadEntry

namespace UploadLedger

def append (ledger : UploadLedger) (bytes : List UInt8) : UploadLedger :=
  { ledger with
    current := { ledger.current with data := ledger.current.data ++ bytes } }

def add (ledger : UploadLedger) (memory : Bytes) : UploadLedger :=
  ⟨ledger.registered ++ [ledger.current], ⟨[], memory⟩⟩

def sent (ledger : UploadLedger) : UploadLedger :=
  { ledger with registered := [] }

end UploadLedger

/-- The part that carries the bytes of a buffer. -/
def uploadPart (name : List UInt8) (uldataType : ℕ) (data : List UInt8) :
    CurlMimepart :=
  if (uldataType : ℤ) = emHttpPartTypeString then
    ⟨name, some "text/plain", .data data⟩
  else if (uldataType : ℤ) = emHttpPartTypeBinary then
    ⟨name, some "binary/octet-stream", .data data⟩
  else ⟨name, none, .filedata data⟩

/-- The types that `em_httpc.h` names. -/
def KnownPartType (uldataType : ℕ) : Prop :=
  (uldataType : ℤ) = emHttpPartTypeString ∨
    (uldataType : ℤ) = emHttpPartTypeBinary ∨
    (uldataType : ℤ) = emHttpPartTypeFile

/-- Binary data has a length that an `int` can hold.  Other data is read up to
the first zero: it has none, and the byte behind it is zero. -/
def UploadEntry.Readable (entry : UploadEntry) (uldataType capacity : ℕ) :
    Prop :=
  if (uldataType : ℤ) = emHttpPartTypeBinary then
    entry.data.length ≤ intMax
  else
    0 ∉ entry.data ∧
      EmBuf.clearedRegion capacity entry.memory entry.data.length = 0

/-! ## Runs -/

structure UploadAccount where
  ul : EmUpload
  ledger : UploadLedger

namespace UploadAccount

/-- A length is a non-negative `int`; a buffer is registered only below
capacity. -/
inductive Step : UploadAccount → UploadCall → UploadAccount → Prop where
  | append {account : UploadAccount} {data : Bytes} {length : ℕ} {ret : ℤ}
      {ul : EmUpload} :
      length ≤ intMax →
      emUploadAppendBuf account.ul data length = some (ret, ul) →
      Step account (.append data length)
        ⟨ul, account.ledger.append
          (if ret = 0 then data.read 0 length else [])⟩
  | add {account : UploadAccount} {memory : Bytes} {ret : ℤ}
      {ul : EmUpload} :
      account.ul.numSendbuf + 1 < account.ul.maxSendbuf →
      emUploadAddUldata account.ul memory = some (ret, ul) →
      Step account (.add memory)
        ⟨ul, if ret = 0 then account.ledger.add memory else account.ledger⟩
  | send {account : UploadAccount} {transfer : CurlTransfer} {ret : ℤ}
      {calls : List CurlCall} {ul : EmUpload} :
      emUploadSendbuf account.ul transfer = some (ret, calls, ul) →
      Step account (.send transfer)
        ⟨ul, if ret = 0 then account.ledger.sent else account.ledger⟩

/-- A buffer has the bytes accepted for it.  A post carries one part for each
registered buffer; afterwards no buffer is pending, or all are if the transfer
has failed. -/
def Delivers (before : UploadAccount) (call : UploadCall)
    (after : UploadAccount) : Prop :=
  match call with
  | .append _ _ =>
      after.ul.current.buf.dataSize = after.ledger.current.data.length ∧
        (after.ul.current.buf.data.getD default).read 0
          after.ledger.current.data.length = after.ledger.current.data
  | .add _ => after.ul.pending = before.ul.pending ++ [before.ul.current]
  | .send transfer =>
      ∃ ret calls, emUploadSendbuf before.ul transfer =
          some (ret, calls, after.ul) ∧
        CurlCall.postedForms calls =
          [before.ledger.registered.map (fun entry =>
            uploadPart (before.ul.uldataName.getD uldataNoName)
              before.ul.uldataType entry.data)] ∧
        after.ul.pending =
          if transfer.ok = true then [] else before.ul.pending

/-- An append does not make the size wrap.  Where buffers are pending the
version is the type, and their data can be read back. -/
def Faithful (account : UploadAccount) : UploadCall → Prop
  | .append _ length =>
      account.ledger.current.data.length + length < 4294967296
  | .add _ => True
  | .send _ => ∀ entry ∈ account.ledger.registered,
      account.ul.uldataVer = account.ul.uldataType ∧
        entry.Readable account.ul.uldataType account.ul.uldataBufCapacity

end UploadAccount

/-! ## One part -/

/-- The structure of a buffer with the bytes of an entry. -/
structure EmUldata.Carries (ul : EmUpload) (ud : EmUldata)
    (entry : UploadEntry) : Prop where
  name : ud.dataName = ul.uldataName.getD uldataNoName
  dataType : ud.dataType = ul.uldataVer
  capacity : ud.buf.bufCapacity = ul.uldataBufCapacity
  holds : ud.buf.Holds entry.data
    (EmBuf.clearedRegion ul.uldataBufCapacity entry.memory)

namespace EmUldata.Carries

variable {ul : EmUpload} {ud : EmUldata} {entry : UploadEntry}

theorem fits (carries : ud.Carries ul entry) :
    entry.data.length ≤ ul.uldataBufCapacity := by
  rw [← carries.capacity]
  exact carries.holds.fits

/-- The region of the part: the bytes of the entry, at least one more, and its
size in all. -/
theorem httppart_data (carries : ud.Carries ul entry) :
    ∃ rest, ud.httppart.data = entry.data ++
        EmBuf.clearedRegion ul.uldataBufCapacity entry.memory
          entry.data.length :: rest ∧
      ud.httppart.data.length = ul.uldataBufCapacity + 1 := by
  have fits := carries.fits
  obtain ⟨behind, isBehind⟩ := Nat.exists_eq_add_of_le fits
  refine ⟨(EmBuf.clearedRegion ul.uldataBufCapacity entry.memory).read
    (entry.data.length + 1) behind, ?_, ?_⟩
  · have size : ul.uldataBufCapacity + 1 =
        entry.data.length + (behind + 1) := by omega
    simp only [httppart, carries.holds.data_eq, carries.capacity,
      Option.getD_some]
    rw [size, Bytes.read_startingWith_behind]
    simp [Bytes.read, List.range_succ_eq_map, Nat.add_assoc, Nat.add_comm 1]
  · simp [httppart, carries.capacity]

/-- The data of a binary part is cut off at its length, as an `int` has it. -/
theorem take_eq_iff (carries : ud.Carries ul entry)
    (below : ul.uldataBufCapacity < 4294967295) :
    ud.httppart.data.take (intToSize ud.httppart.dataLength) = entry.data ↔
      entry.data.length ≤ intMax := by
  have fits := carries.fits
  obtain ⟨rest, isData, size⟩ := carries.httppart_data
  have isLength : ud.httppart.dataLength = toInt32 entry.data.length := by
    rw [httppart, carries.holds.dataSize_eq]
  constructor
  · intro same
    by_contra tooLong
    have lengths := congrArg List.length same
    rw [List.length_take, size, isLength] at lengths
    unfold intToSize toInt32 at lengths
    unfold intMax at tooLong
    omega
  · intro isInt
    rw [isLength, toInt32_natCast isInt, intToSize_natCast isInt, isData]
    exact List.take_left

/-- A part carries the bytes exactly if the version is the type and the bytes
can be read back. -/
theorem mimepart_eq_iff (carries : ud.Carries ul entry)
    (below : ul.uldataBufCapacity < 4294967295)
    (known : KnownPartType ul.uldataType) :
    ud.httppart.mimepart = some (uploadPart
        (ul.uldataName.getD uldataNoName) ul.uldataType entry.data) ↔
      ul.uldataVer = ul.uldataType ∧
        entry.Readable ul.uldataType ul.uldataBufCapacity := by
  obtain ⟨rest, isData, _⟩ := carries.httppart_data
  have binary := carries.take_eq_iff below
  have text : zeroTerminated ud.httppart.data = entry.data ↔
      0 ∉ entry.data ∧ EmBuf.clearedRegion ul.uldataBufCapacity entry.memory
        entry.data.length = 0 := by
    rw [isData]
    exact zeroTerminated_append_iff
  have isType : ud.httppart.dataType = ul.uldataVer := carries.dataType
  have isName : ud.httppart.name = ul.uldataName.getD uldataNoName :=
    carries.name
  rw [EmHttppart.mimepart, isType, isName, uploadPart,
    UploadEntry.Readable]
  -- For each type: the version is the type, or the part is another one.
  rcases known with isKnown | isKnown | isKnown
  · rw [isKnown]
    by_cases same : ul.uldataVer = emHttpPartTypeString
    · simp [same, text, emHttpPartTypeBinary, emHttpPartTypeString]
    · simp only [same, if_false, if_true, false_and, iff_false]
      split_ifs <;> simp
  · rw [isKnown]
    by_cases same : ul.uldataVer = emHttpPartTypeBinary
    · simp [same, binary, emHttpPartTypeBinary, emHttpPartTypeString]
    · simp only [same, if_false, if_true, false_and, iff_false]
      split_ifs <;> simp_all [emHttpPartTypeBinary, emHttpPartTypeString]
  · rw [isKnown]
    by_cases same : ul.uldataVer = emHttpPartTypeFile
    · simp [same, text, emHttpPartTypeFile, emHttpPartTypeBinary,
        emHttpPartTypeString]
    · simp only [same, if_false, false_and, iff_false]
      split_ifs <;> simp_all [emHttpPartTypeFile, emHttpPartTypeBinary,
        emHttpPartTypeString]

/-- Only the settings of the manager count. -/
theorem congr {other : EmUpload} (carries : ud.Carries ul entry)
    (name : other.uldataName = ul.uldataName)
    (ver : other.uldataVer = ul.uldataVer)
    (capacity : other.uldataBufCapacity = ul.uldataBufCapacity) :
    ud.Carries other entry := by
  refine ⟨?_, ?_, ?_, ?_⟩
  · rw [name]
    exact carries.name
  · rw [ver]
    exact carries.dataType
  · rw [capacity]
    exact carries.capacity
  · rw [capacity]
    exact carries.holds

theorem init (named : (ul.uldataName.getD uldataNoName).length <
      sizeofDataName)
    (lower : -2147483648 ≤ ul.uldataVer) (upper : ul.uldataVer ≤ 2147483647)
    {memory : Bytes}
    (isInit : some ud = emUldataInit ul.uldataName (intToUint32 ul.uldataVer)
      ul.uldataType ul.uldataBufCapacity memory) :
    ud.Carries ul ⟨[], memory⟩ := by
  rw [emUldataInit_fits named] at isInit
  cases isInit
  exact ⟨rfl, toInt32_intToUint32 lower upper, rfl,
    EmBuf.init_holds ul.uldataBufCapacity memory⟩

/-- An append that does not wrap adds what it accepts. -/
theorem append (carries : ud.Carries ul entry)
    (below : ul.uldataBufCapacity < 4294967295) {length : ℕ}
    (isInt : length ≤ intMax)
    (noWrap : entry.data.length + length < 4294967296) (data : Bytes) :
    (emUldataAppendBuf ud data length).2.Carries ul { entry with
      data := entry.data ++
        if (emUldataAppendBuf ud data length).1 = 0 then data.read 0 length
        else [] } := by
  have capacity := carries.capacity
  by_cases room : entry.data.length + length ≤ ul.uldataBufCapacity
  · obtain ⟨buf, appended, holds, sameCapacity⟩ := carries.holds.append
      (by omega) isInt (capacity ▸ room) data
    simp only [emUldataAppendBuf, appended, if_true]
    exact ⟨carries.name, carries.dataType, sameCapacity.trans capacity,
      holds⟩
  · have refused := carries.holds.append_refused isInt noWrap
      (by rw [capacity]; omega) data
    simp only [emUldataAppendBuf, refused]
    rw [if_neg (by decide), List.append_nil]
    exact carries

end EmUldata.Carries

/-! ## The parts of a form -/

/-- As many values come out as go in only if none is dropped. -/
theorem filterMap_eq_map_iff {Left Right Value : Type*}
    {read : Left → Option Value} {write : Right → Value}
    {lefts : List Left} {rights : List Right}
    (lengths : lefts.length = rights.length) :
    lefts.filterMap read = rights.map write ↔
      List.Forall₂ (fun left right => read left = some (write right))
        lefts rights := by
  induction lefts generalizing rights with
  | nil =>
      cases rights with
      | nil => simp
      | cons right rights => cases lengths
  | cons left lefts induction =>
      cases rights with
      | nil => cases lengths
      | cons right rights =>
          have rest := Nat.succ.inj lengths
          rw [List.forall₂_cons, List.map_cons]
          cases isRead : read left with
          | none =>
              rw [List.filterMap_cons_none isRead]
              constructor
              · intro same
                have dropped := List.length_filterMap_le read lefts
                rw [same, List.length_cons, List.length_map] at dropped
                omega
              · rintro ⟨isSome, _⟩
                cases isSome
          | some value =>
              rw [List.filterMap_cons_some isRead, List.cons.injEq,
                induction rest, Option.some.injEq]

namespace UploadAccount

/-- The buffers of the manager carry what the ledger has. -/
structure Matches (params : RingParams) (account : UploadAccount) :
    Prop where
  ordered : account.ul.Ordered params
  known : KnownPartType account.ul.uldataType
  below : account.ul.uldataBufCapacity < 4294967295
  lower : -2147483648 ≤ account.ul.uldataVer
  upper : account.ul.uldataVer ≤ 2147483647
  current : account.ul.current.Carries account.ul account.ledger.current
  registered : List.Forall₂ (EmUldata.Carries account.ul)
    account.ul.pending account.ledger.registered

namespace Matches

variable {params : RingParams} {account after : UploadAccount}
  {call : UploadCall}

/-- The form has all parts exactly if all buffers can be read back. -/
theorem parts_eq_iff (matching : account.Matches params) :
    (account.ul.pending.map EmUldata.httppart).filterMap
        EmHttppart.mimepart =
        account.ledger.registered.map (fun entry =>
          uploadPart (account.ul.uldataName.getD uldataNoName)
            account.ul.uldataType entry.data) ↔
      ∀ entry ∈ account.ledger.registered,
        account.ul.uldataVer = account.ul.uldataType ∧
          entry.Readable account.ul.uldataType
            account.ul.uldataBufCapacity := by
  rw [List.filterMap_map,
    filterMap_eq_map_iff matching.registered.length_eq]
  have carried := matching.registered
  generalize account.ul.pending = pending at carried ⊢
  generalize account.ledger.registered = registered at carried ⊢
  induction carried with
  | nil => simp
  | cons carries _ induction =>
      rw [List.forall₂_cons, List.forall_mem_cons]
      exact and_congr
        (carries.mimepart_eq_iff matching.below matching.known) induction

/-- The settings and the buffers stay as the ledger has them. -/
theorem keep (matching : account.Matches params) {ul : EmUpload}
    {ledger : UploadLedger} (ordered : ul.Ordered params)
    (name : ul.uldataName = account.ul.uldataName)
    (ver : ul.uldataVer = account.ul.uldataVer)
    (type : ul.uldataType = account.ul.uldataType)
    (capacity : ul.uldataBufCapacity = account.ul.uldataBufCapacity)
    (current : ul.current.Carries account.ul ledger.current)
    (registered : List.Forall₂ (EmUldata.Carries account.ul) ul.pending
      ledger.registered) :
    Matches params ⟨ul, ledger⟩ := by
  refine ⟨ordered, ?_, ?_, ?_, ?_, current.congr name ver capacity,
    registered.imp (fun _ _ carries => carries.congr name ver capacity)⟩
  · rw [type]
    exact matching.known
  · rw [capacity]
    exact matching.below
  · rw [ver]
    exact matching.lower
  · rw [ver]
    exact matching.upper

/-! ## The calls -/

theorem append (matching : account.Matches params) {data : Bytes}
    {length : ℕ} {ret : ℤ} {ul : EmUpload} (isInt : length ≤ intMax)
    (noWrap : account.ledger.current.data.length + length < 4294967296)
    (called : emUploadAppendBuf account.ul data length = some (ret, ul)) :
    Matches params ⟨ul, account.ledger.append
      (if ret = 0 then data.read 0 length else [])⟩ := by
  have initialised := EmUpload.Ordered.append_initialised
    matching.ordered.initialised data length
  have carries := matching.current.append matching.below isInt noWrap data
  rw [matching.ordered.append_eq] at called
  obtain ⟨isRet, isUl⟩ := Prod.mk.inj (Option.some.inj called)
  rw [isRet] at carries
  obtain ⟨ordered, samePending, isCurrent⟩ :=
    matching.ordered.fill initialised
  rw [isUl] at ordered samePending isCurrent
  have name : ul.uldataName = account.ul.uldataName := by rw [← isUl]
  have ver : ul.uldataVer = account.ul.uldataVer := by rw [← isUl]
  have type : ul.uldataType = account.ul.uldataType := by rw [← isUl]
  have capacity : ul.uldataBufCapacity = account.ul.uldataBufCapacity := by
    rw [← isUl]
  apply matching.keep ordered name ver type capacity
  · rw [isCurrent]
    exact carries
  · rw [samePending]
    exact matching.registered

/-- A sum that wraps is accepted, and the buffer gets shorter. -/
theorem append_wrapped (matching : account.Matches params) {data : Bytes}
    {length : ℕ} {ret : ℤ} {ul : EmUpload} (isInt : length ≤ intMax)
    (wraps : 4294967296 ≤ account.ledger.current.data.length + length)
    (called : emUploadAppendBuf account.ul data length = some (ret, ul)) :
    ret = 0 ∧ ul.current.buf.dataSize <
      account.ledger.current.data.length := by
  have below := matching.below
  have capacity := matching.current.capacity
  obtain ⟨accepted, smaller⟩ := matching.current.holds.append_wrapped
    (by omega) isInt wraps data
  have initialised := EmUpload.Ordered.append_initialised
    matching.ordered.initialised data length
  obtain ⟨_, _, isCurrent⟩ := matching.ordered.fill initialised
  rw [matching.ordered.append_eq] at called
  obtain ⟨isRet, isUl⟩ := Prod.mk.inj (Option.some.inj called)
  rw [isUl] at isCurrent
  rw [← isRet, isCurrent]
  exact ⟨accepted, smaller⟩

theorem add (matching : account.Matches params) {memory : Bytes} {ret : ℤ}
    {ul : EmUpload}
    (below : account.ul.numSendbuf + 1 < account.ul.maxSendbuf)
    (called : emUploadAddUldata account.ul memory = some (ret, ul)) :
    Matches params ⟨ul,
        if ret = 0 then account.ledger.add memory else account.ledger⟩ ∧
      ul.pending = account.ul.pending ++ [account.ul.current] := by
  have ordered := matching.ordered
  have left : account.ul.rbUldata.numUsed + 1 < params.capacity := by
    rw [ordered.numSendbuf_eq, ordered.maxSendbuf_eq] at below
    omega
  obtain ⟨after, added, kept, pending, isCurrent, _, name, ver, type,
    capacity⟩ := ordered.add_room left memory
  obtain ⟨rfl, rfl⟩ := Prod.mk.inj (Option.some.inj (called.symm.trans added))
  refine ⟨?_, pending⟩
  rw [if_pos rfl]
  apply matching.keep kept name ver type capacity
  · exact EmUldata.Carries.init ordered.named matching.lower matching.upper
      isCurrent
  · rw [pending]
    exact List.rel_append matching.registered
      (.cons matching.current .nil)

theorem send (matching : account.Matches params) {transfer : CurlTransfer}
    {ret : ℤ} {calls : List CurlCall} {ul : EmUpload}
    (called : emUploadSendbuf account.ul transfer = some (ret, calls, ul)) :
    Matches params ⟨ul,
        if ret = 0 then account.ledger.sent else account.ledger⟩ ∧
      CurlCall.postedForms calls =
        [(account.ul.pending.map EmUldata.httppart).filterMap
          EmHttppart.mimepart] ∧
      ul.pending =
        if transfer.ok = true then [] else account.ul.pending := by
  obtain ⟨code, after, sent, success, kept, pending, isCurrent, name, ver,
    type, capacity⟩ := matching.ordered.send_eq transfer
  obtain ⟨rfl, rest⟩ :=
    Prod.mk.inj (Option.some.inj (called.symm.trans sent))
  obtain ⟨rfl, rfl⟩ := Prod.mk.inj rest
  refine ⟨?_, emHttpcPostMultipart_postedForms _ _ _ _, pending⟩
  have current : ul.current.Carries account.ul account.ledger.current := by
    rw [isCurrent]
    exact matching.current
  by_cases isOk : transfer.ok = true
  · have sentCurrent : ul.current.Carries account.ul
        account.ledger.sent.current := current
    rw [if_pos (success.mpr isOk)]
    apply matching.keep kept name ver type capacity sentCurrent
    rw [pending, if_pos isOk]
    exact .nil
  · rw [if_neg (fun zero => isOk (success.mp zero))]
    apply matching.keep kept name ver type capacity current
    rw [pending, if_neg isOk]
    exact matching.registered

theorem step (matching : account.Matches params)
    (taken : Guarded Faithful Step account call after) :
    after.Matches params := by
  obtain ⟨faithful, taken⟩ := taken
  cases taken with
  | append isInt called =>
      refine matching.append isInt ?_ called
      dsimp only [Faithful] at faithful
      omega
  | add below called => exact (matching.add below called).1
  | send called => exact (matching.send called).1

/-- The condition tells exactly which calls deliver. -/
theorem delivers_iff (matching : account.Matches params)
    (taken : Step account call after) :
    account.Delivers call after ↔ account.Faithful call := by
  cases taken with
  | @append data length ret ul isInt called =>
      dsimp only [Delivers, Faithful]
      constructor
      · rintro ⟨size, _⟩
        by_contra wraps
        obtain ⟨accepted, smaller⟩ := matching.append_wrapped isInt
          (by omega) called
        rw [size, if_pos accepted] at smaller
        simp [UploadLedger.append] at smaller
      · intro noWrap
        have kept := matching.append isInt (by omega) called
        have holds := kept.current.holds
        refine ⟨holds.dataSize_eq, ?_⟩
        rw [holds.data_eq, Option.getD_some]
        exact Bytes.read_startingWith _ _
  | add below called =>
      exact iff_of_true (matching.add below called).2 trivial
  | send called =>
      obtain ⟨_, posted, pending⟩ := matching.send called
      dsimp only [Delivers, Faithful]
      rw [← matching.parts_eq_iff]
      constructor
      · rintro ⟨ret, calls, sent, carried, _⟩
        rw [called] at sent
        cases sent
        rw [posted] at carried
        exact List.cons.inj carried |>.1
      · intro same
        refine ⟨_, _, called, ?_, pending⟩
        rw [posted, same]

end Matches

theorem init_matches (memory : EmUpload) (serverUrl : List UInt8)
    {uldataName : Option (List UInt8)}
    {uldataType : ℕ} (uldataVer : ℕ)
    {uldataBufCapacity uldataSendbufNum sizeofUldata : ℕ}
    (hcMemory bufMemory : Bytes)
    (known : KnownPartType uldataType)
    (nonempty : 0 < uldataSendbufNum) (sized : 1 < sizeofUldata)
    (fits : sizeofUldata * uldataSendbufNum < 4294967296)
    (named : (uldataName.getD uldataNoName).length < sizeofDataName)
    (below : uldataBufCapacity < 4294967295) :
    ∃ start, emUploadInit memory serverUrl uldataName uldataType uldataVer
        uldataBufCapacity uldataSendbufNum sizeofUldata hcMemory bufMemory =
        some start ∧
      Matches (uploadRing uldataSendbufNum sizeofUldata)
        ⟨start, ⟨[], ⟨[], bufMemory⟩⟩⟩ ∧
      start.pending = [] ∧ start.uldataVer = toInt32 uldataVer ∧
      start.uldataType = uldataType := by
  obtain ⟨start, created, ordered, pending, isCurrent, name, ver, type,
    capacity⟩ := EmUpload.init_ordered memory serverUrl uldataName uldataType
      uldataVer uldataBufCapacity hcMemory bufMemory nonempty sized fits named
  obtain ⟨lower, upper⟩ := toInt32_range uldataVer
  rw [← ver] at lower upper
  refine ⟨start, created, ⟨ordered, type ▸ known, capacity ▸ below, lower,
    upper, ?_, ?_⟩, pending, ver, type⟩
  · apply EmUldata.Carries.init ordered.named lower upper
    rw [name, ver, type, capacity]
    exact isCurrent
  · rw [pending]
    exact .nil

/-- The runs in which every post carries the bytes accepted for the registered
buffers are those in which no size wraps and in which, whenever buffers are
sent, the version is the type and their bytes can be read back. -/
theorem upload_delivers_iff (memory : EmUpload) (serverUrl : List UInt8)
    (uldataName : Option (List UInt8))
    (uldataType uldataVer uldataBufCapacity uldataSendbufNum : ℕ)
    (sizeofUldata : ℕ) (hcMemory bufMemory : Bytes)
    (known : KnownPartType uldataType)
    (nonempty : 0 < uldataSendbufNum) (sized : 1 < sizeofUldata)
    (fits : sizeofUldata * uldataSendbufNum < 4294967296)
    (named : (uldataName.getD uldataNoName).length < sizeofDataName)
    (below : uldataBufCapacity < 4294967295) :
    ∃ start, emUploadInit memory serverUrl uldataName uldataType uldataVer
        uldataBufCapacity uldataSendbufNum sizeofUldata hcMemory bufMemory =
        some start ∧
      ∀ calls account,
        Run (Upholding Delivers Step) ⟨start, ⟨[], ⟨[], bufMemory⟩⟩⟩ calls
            account ↔
          Run (Guarded Faithful Step) ⟨start, ⟨[], ⟨[], bufMemory⟩⟩⟩ calls
            account := by
  obtain ⟨start, created, matching, _⟩ := init_matches memory serverUrl
    uldataVer hcMemory bufMemory known nonempty sized fits named below
  refine ⟨start, created, ?_⟩
  intro calls account
  apply Run.upholding_iff
    (Matches (uploadRing uldataSendbufNum sizeofUldata))
  · exact matching
  · intro before call after holds taken
    exact holds.step taken
  · intro before call after holds taken
    exact holds.delivers_iff taken

theorem upload_delivers_binary :
    ∃ start, emUploadInit default [] none 2 2 4 3 72 default default =
        some start ∧
      ∀ calls account,
        Run (Upholding Delivers Step) ⟨start, ⟨[], ⟨[], default⟩⟩⟩ calls
            account ↔
          Run (Guarded Faithful Step) ⟨start, ⟨[], ⟨[], default⟩⟩⟩ calls
            account :=
  upload_delivers_iff default [] none 2 2 4 3 72 default default
    (.inr (.inl rfl)) (by decide) (by decide) (by decide) (by decide)
    (by decide)

/-- With version 0 a binary buffer is sent as a part of type 0: it is left out,
and the post succeeds. -/
theorem upload_drops_data :
    ∃ start account after,
      emUploadInit default [] none 2 0 4 3 72 default default = some start ∧
      Run Step ⟨start, ⟨[], ⟨[], default⟩⟩⟩
        [.append (fun _ => 7) 1, .add default] account ∧
      Step account (.send ⟨0, 0, [], true, 200⟩) after ∧
      ¬ Delivers account (.send ⟨0, 0, [], true, 200⟩) after := by
  obtain ⟨start, created, matching, pending, ver, type⟩ :=
    @init_matches default [] none 2 0 4 3 72 default default (.inr (.inl rfl))
      (by decide) (by decide) (by decide) (by decide) (by decide)
  have noneUsed : start.rbUldata.numUsed = 0 := by
    simpa [EmUpload.pending] using congrArg List.length pending
  -- One buffer is filled and registered.
  have appended := matching.ordered.append_eq (fun _ => 7) (1 : ℕ)
  have first : Step ⟨start, ⟨[], ⟨[], default⟩⟩⟩ (.append (fun _ => 7) 1) _ :=
    .append (by decide) appended
  have filled := matching.append (by decide) (by simp) appended
  have left : start.rbUldata.numUsed + 1 < (uploadRing 3 72).capacity := by
    rw [noneUsed]
    decide
  obtain ⟨registered, added, _, _, _, _, _, sameVer, sameType, _⟩ :=
    filled.ordered.add_room left default
  have room : start.numSendbuf + 1 < start.maxSendbuf := by
    rw [matching.ordered.numSendbuf_eq, matching.ordered.maxSendbuf_eq]
    exact_mod_cast left
  have second := Step.add room added
  have matchingAdded := (filled.add room added).1
  -- The version is not the type.
  obtain ⟨ret, after, sent, _⟩ := matchingAdded.ordered.send_eq
    ⟨0, 0, [], true, 200⟩
  refine ⟨start, _, _, created, .cons first (.cons second .nil), .send sent,
    ?_⟩
  intro delivers
  have faithful := (matchingAdded.delivers_iff (.send sent)).mp delivers
  have same := (faithful _ (List.mem_cons_self)).1
  rw [sameVer, sameType] at same
  change start.uldataVer = start.uldataType at same
  rw [ver, type] at same
  exact absurd same (by decide)

end UploadAccount

end EmbeddedMiddle
