import EmbeddedMiddle.Httpc
import EmbeddedMiddle.Ringbuf

/-!
# Uploads

The functions of `em_upload.c`: buffers are filled one after another in the
slots of a ring, and sent together in one form.
-/

namespace EmbeddedMiddle

open Foundation

/-- `dataName` has the bytes before the terminating NUL. -/
structure EmUldata where
  dataName : List UInt8
  dataType : ℤ
  dataVer : ℤ
  dataNum : ℤ
  buf : EmBuf
  deriving Inhabited

/-- A pointer to an `em_uldata_t` is its offset in the ring; `slots` has the
structures there. -/
structure EmUpload where
  serverUrl : List UInt8
  uldataName : Option (List UInt8)
  uldataVer : ℤ
  uldataType : ℕ
  uldataBufCapacity : ℕ
  uldata : Option ℕ
  rbUldata : EmRing
  numSendbuf : ℤ
  maxSendbuf : ℤ
  sendbuf : ℕ → Option ℕ
  hc : EmHttpc
  slots : ℕ → EmUldata
  deriving Inhabited

/-! ## Upload data -/

/-- "NoName". -/
def uldataNoName : List UInt8 := [78, 111, 78, 97, 109, 101]

/-- The size of `data_name`. -/
def sizeofDataName : ℕ := 32

/-- `memory` is what `alloc_func` gives for the buffer.  `none` is a `strcpy`
past the end of `data_name`. -/
def emUldataInit (dataName : Option (List UInt8)) (dataType dataVer : ℕ)
    (bufCapacity : ℕ) (memory : Bytes) : Option EmUldata :=
  let dataName := dataName.getD uldataNoName
  if sizeofDataName ≤ dataName.length then none
  else
    some
      { dataName
        dataVer := toInt32 dataVer
        dataType := toInt32 dataType
        dataNum := 0
        buf := emBufInit bufCapacity memory }

theorem emUldataInit_fits {dataName : Option (List UInt8)}
    (named : (dataName.getD uldataNoName).length < sizeofDataName)
    (dataType dataVer bufCapacity : ℕ) (memory : Bytes) :
    emUldataInit dataName dataType dataVer bufCapacity memory =
      some ⟨dataName.getD uldataNoName, toInt32 dataType, toInt32 dataVer, 0,
        emBufInit bufCapacity memory⟩ :=
  if_neg (Nat.not_le.mpr named)

def emUldataDestroy (ud : EmUldata) : EmUldata :=
  { ud with buf := emBufDestroy ud.buf }

def emUldataAppendBuf (ud : EmUldata) (data : Bytes) (length : ℤ) :
    ℤ × EmUldata :=
  match emBufAppend ud.buf data length with
  | (ret, buf) => (ret, { ud with buf })

/-! ## The upload manager -/

/-- `em_uldata_init` through the pointer `uldata`, with the arguments in the
order of the two calls in `em_upload.c`.  `none` is also the use of NULL. -/
def EmUpload.initUldata (ul : EmUpload) (memory : Bytes) : Option EmUpload :=
  match ul.uldata with
  | none => none
  | some ptr =>
      (emUldataInit ul.uldataName (intToUint32 ul.uldataVer) ul.uldataType
        ul.uldataBufCapacity memory).map
        (fun ud => { ul with slots := Function.update ul.slots ptr ud })

/-- `ul` is the memory of the structure, `hcMemory` and `memory` are the
regions of the two buffers. -/
def emUploadInit (ul : EmUpload) (serverUrl : List UInt8)
    (uldataName : Option (List UInt8))
    (uldataType uldataVer uldataBufCapacity uldataSendbufNum : ℕ)
    (sizeofUldata : ℕ) (hcMemory memory : Bytes) : Option EmUpload :=
  let ul := { ul with
    serverUrl
    uldataName
    uldataVer := toInt32 uldataVer
    uldataType
    uldataBufCapacity
    numSendbuf := 0
    maxSendbuf := toInt32 uldataSendbufNum
    hc := emHttpcInit ul.hc (16 * 1024) hcMemory
    rbUldata := emRingCreate sizeofUldata uldataSendbufNum .error
      ul.rbUldata.rawdata ul.rbUldata.blockPtr }
  match emRingGetDataptrNew ul.rbUldata with
  | (uldata, rbUldata) =>
      { ul with uldata, rbUldata : EmUpload }.initUldata memory

def emUploadAppendBuf (ul : EmUpload) (data : Bytes) (length : ℤ) :
    Option (ℤ × EmUpload) :=
  match ul.uldata with
  | none => none
  | some ptr =>
      match emUldataAppendBuf (ul.slots ptr) data length with
      | (ret, ud) =>
          some (ret, { ul with slots := Function.update ul.slots ptr ud })

/-- The result of `em_ring_add_newdata` is not looked at. -/
def emUploadAddUldata (ul : EmUpload) (memory : Bytes) :
    Option (ℤ × EmUpload) :=
  if ul.maxSendbuf ≤ ul.numSendbuf then some (-1, ul)
  else
    let rbUldata := (emRingAddNewdata ul.rbUldata).2
    match emRingGetDataptrNew rbUldata with
    | (uldata, rbUldata) =>
        match { ul with uldata, rbUldata : EmUpload }.initUldata memory with
        | none => none
        | some ul =>
            some (0, { ul with numSendbuf := toInt32 (ul.numSendbuf + 1) })

def EmUldata.httppart (ud : EmUldata) : EmHttppart :=
  { name := ud.dataName
    dataType := ud.dataType
    data := (ud.buf.data.getD default).read 0 (ud.buf.bufCapacity + 1)
    dataLength := toInt32 ud.buf.dataSize }

/-- `none` is the use of NULL in the array. -/
def emUploadMulti (ul : EmUpload) (uldata : ℕ → Option ℕ) (uldataNum : ℕ)
    (transfer : CurlTransfer) : Option HttpcResult :=
  match (List.range uldataNum).mapM uldata with
  | none => none
  | some pointers =>
      some (emHttpcPostMultipart ul.hc ul.serverUrl
        (pointers.map (fun ptr => (ul.slots ptr).httppart)) transfer)

/-- The first loop of `em_upload_sendbuf`. -/
def EmUpload.fillSendbuf (ul : EmUpload) : EmUpload :=
  { ul with
    sendbuf := (List.range ul.numSendbuf.toNat).foldl
      (fun sendbuf i => Function.update sendbuf i
        (emRingGetDataptrTail ul.rbUldata i)) ul.sendbuf }

/-- The second loop of `em_upload_sendbuf`. -/
def EmUpload.destroySendbuf (ul : EmUpload) : EmUpload :=
  { ul with
    slots := (List.range ul.numSendbuf.toNat).foldl
      (fun slots i =>
        match ul.sendbuf i with
        | none => slots
        | some ptr => Function.update slots ptr (emUldataDestroy (slots ptr)))
      ul.slots }

/-- The return value, the calls on libcurl, and the manager afterwards.  The
result of `em_ring_delete_taildata` is not looked at. -/
def emUploadSendbuf (ul : EmUpload) (transfer : CurlTransfer) :
    Option (ℤ × List CurlCall × EmUpload) :=
  let ul := ul.fillSendbuf
  match emUploadMulti ul ul.sendbuf (intToUint32 ul.numSendbuf) transfer with
  | none => none
  | some result =>
      let ul := { ul with hc := result.hc }
      if result.ret ≠ 0 then some (-1, result.calls, ul)
      else
        let ul := ul.destroySendbuf
        some (0, result.calls, { ul with
          rbUldata := (emRingDeleteTaildata ul.rbUldata
            (intToUint32 ul.numSendbuf)).2
          numSendbuf := 0 })

end EmbeddedMiddle
