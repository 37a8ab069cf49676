import EmbeddedMiddle.Buf
import EmbeddedMiddle.Foundation.CString

/-!
# The HTTP client

The functions of `em_httpc.c`.  Each gives the calls on libcurl that it makes,
in order; what libcurl does in a transfer is an argument.
-/

namespace EmbeddedMiddle

open Foundation

/-! ## Calls on libcurl -/

abbrev CurlHandle := ℕ

abbrev CurlForm := ℕ

def curloptSslVerifypeer : ℤ := 64

def curlWritefuncPause : ℕ := 0x10000001

/-- The options that the client sets. -/
inductive CurlOption where
  | writedata
  | writefunction
  | timeout (seconds : ℤ)
  | url (url : List UInt8)
  | httpheader (headerSlist : List (List UInt8))
  | sslVerifypeer (value : ℤ)
  | post (value : ℤ)
  | postfields (postdata : Bytes)
  | postfieldsize (size : ℤ)
  | mimepost (form : CurlForm)

/-- The data of a part: bytes, or the contents of a file. -/
inductive CurlMimedata where
  | data (bytes : List UInt8)
  | filedata (filename : List UInt8)
  deriving DecidableEq, Repr

/-- A part of a form, with its `curl_mime_type` if one is set. -/
structure CurlMimepart where
  name : List UInt8
  type : Option String
  data : CurlMimedata
  deriving DecidableEq, Repr

/-- `mimeAddpart` stands for `curl_mime_addpart` and the calls that fill in the
new part. -/
inductive CurlCall where
  | easyInit (curl : CurlHandle)
  | easySetopt (curl : CurlHandle) (option : CurlOption)
  | easyPerform (curl : CurlHandle)
  | easyGetinfo (curl : CurlHandle)
  | easyCleanup (curl : CurlHandle)
  | mimeInit (curl : CurlHandle) (form : CurlForm)
  | mimeAddpart (form : CurlForm) (part : CurlMimepart)
  | mimeFree (form : CurlForm)

/-- What libcurl does for one request: the handle and the form it gives, the
chunks that it passes to the write function as long as they are accepted,
whether `curl_easy_perform` returns `CURLE_OK`, and the response code. -/
structure CurlTransfer where
  curl : CurlHandle
  form : CurlForm
  chunks : List (List UInt8)
  ok : Bool
  responseCode : ℤ
  deriving Inhabited

/-! ## The client -/

/-- `header_slist` is NULL when it is empty. -/
structure EmHttpc where
  curl : CurlHandle
  headerSlist : List (List UInt8)
  buf : EmBuf
  deriving Inhabited

/-- `data` points to the bytes of the client's buffer. -/
structure EmHttpres where
  statusCode : ℤ
  dataSize : ℕ
  data : Option Bytes

/-- `data` has the bytes from the pointer to the end of their region. -/
structure EmHttppart where
  name : List UInt8
  dataType : ℤ
  data : List UInt8
  dataLength : ℤ
  deriving DecidableEq, Repr

def emHttpPartTypeString : ℤ := 1
def emHttpPartTypeBinary : ℤ := 2
def emHttpPartTypeFile : ℤ := 3

/-- The return value, the client afterwards, the calls on libcurl, and the
response if one is written. -/
structure HttpcResult where
  ret : ℤ
  hc : EmHttpc
  calls : List CurlCall
  response : Option EmHttpres

/-- `size * nitems` as an `int`; the return value is converted back. -/
def emBufferWriter (buf : EmBuf) (buffer : Bytes) (length : ℕ) :
    ℕ × EmBuf :=
  let block := toInt32 length
  match emBufAppend buf buffer block with
  | (ret, buf) =>
      if ret ≠ 0 then (curlWritefuncPause, buf)
      else
        (intToSize block, { buf with
          data := buf.data.map
            (fun data => Function.update data buf.dataSize 0) })

/-- libcurl passes chunk after chunk to the write function, until one is not
taken as a whole. -/
def curlDeliver (buf : EmBuf) : List (List UInt8) → Bool × EmBuf
  | [] => (true, buf)
  | chunk :: chunks =>
      match emBufferWriter buf (.ofList chunk) chunk.length with
      | (written, buf) =>
          if written = chunk.length ∧ written ≠ curlWritefuncPause then
            curlDeliver buf chunks
          else (false, buf)

def emCurlInit (hc : EmHttpc) (curl : CurlHandle) :
    EmHttpc × List CurlCall :=
  ({ hc with curl, buf := { hc.buf with dataSize := 0 } },
    [.easyInit curl, .easySetopt curl .writedata,
      .easySetopt curl .writefunction, .easySetopt curl (.timeout 10)])

/-- `hc` is the memory of the structure; `curl` keeps what it has there. -/
def emHttpcInit (hc : EmHttpc) (bufSize : ℕ) (memory : Bytes) : EmHttpc :=
  { hc with headerSlist := [], buf := emBufInit bufSize memory }

def emHttpcDestroy (hc : EmHttpc) : EmHttpc :=
  { hc with buf := emBufDestroy hc.buf }

def emHttpcAddHeader (hc : EmHttpc) (headerStr : List UInt8) : HttpcResult :=
  let hc := { hc with headerSlist := hc.headerSlist ++ [headerStr] }
  ⟨0, hc, [.easySetopt hc.curl (.httpheader hc.headerSlist)], none⟩

def emHttpcResetHeader (hc : EmHttpc) : EmHttpc := { hc with headerSlist := [] }

def emHttpcSetopt (hc : EmHttpc) (opt optValue : ℤ) : HttpcResult :=
  if opt = curloptSslVerifypeer then
    ⟨0, hc, [.easySetopt hc.curl (.sslVerifypeer optValue)], none⟩
  else ⟨0, hc, [], none⟩

/-- The headers of a request, or else the common ones. -/
def EmHttpc.headerCalls (hc : EmHttpc)
    (headers : Option (List (List UInt8))) : List CurlCall :=
  match headers with
  | some headers => [.easySetopt hc.curl (.httpheader headers)]
  | none =>
      if hc.headerSlist ≠ [] then
        [.easySetopt hc.curl (.httpheader hc.headerSlist)]
      else []

/-- How the three requests end.  After a failed transfer nothing is released;
`release` is the form of a multipart request. -/
def EmHttpc.perform (hc : EmHttpc) (transfer : CurlTransfer)
    (prepared release : List CurlCall) : HttpcResult :=
  let hc := { hc with buf := (curlDeliver hc.buf transfer.chunks).2 }
  if transfer.ok = false then
    ⟨-1, hc, prepared ++ [.easyPerform hc.curl], none⟩
  else
    ⟨0, hc,
      prepared ++ [.easyPerform hc.curl, .easyGetinfo hc.curl] ++ release ++
        [.easyCleanup hc.curl],
      some ⟨transfer.responseCode, hc.buf.dataSize, hc.buf.data⟩⟩

/-- `response` tells whether there is a structure for the response. -/
def emHttpcGet (hc : EmHttpc) (url : List UInt8)
    (headers : Option (List (List UInt8))) (response : Bool)
    (transfer : CurlTransfer) : HttpcResult :=
  if response = false then ⟨-1, hc, [], none⟩
  else
    match emCurlInit hc transfer.curl with
    | (hc, calls) =>
        hc.perform transfer
          (calls ++ [.easySetopt hc.curl (.url url)] ++
            hc.headerCalls headers) []

def emHttpcPost (hc : EmHttpc) (url : List UInt8)
    (headers : Option (List (List UInt8))) (postdata : Option Bytes)
    (postdataSize : ℤ) (transfer : CurlTransfer) : HttpcResult :=
  match postdata with
  | none => ⟨-1, hc, [], none⟩
  | some postdata =>
      if postdataSize ≤ 0 then ⟨-1, hc, [], none⟩
      else
        match emCurlInit hc transfer.curl with
        | (hc, calls) =>
            hc.perform transfer
              (calls ++
                [.easySetopt hc.curl (.url url),
                  .easySetopt hc.curl (.post 1),
                  .easySetopt hc.curl (.postfields postdata),
                  .easySetopt hc.curl (.postfieldsize postdataSize)] ++
                hc.headerCalls headers) []

/-- `CURL_ZERO_TERMINATED` reads up to the first zero. -/
def zeroTerminated (bytes : List UInt8) : List UInt8 :=
  bytes.takeWhile (fun byte => byte ≠ 0)

/-- Behind the text comes a byte and whatever follows. -/
theorem zeroTerminated_append_iff {text rest : List UInt8} {next : UInt8} :
    zeroTerminated (text ++ next :: rest) = text ↔
      0 ∉ text ∧ next = 0 := by
  induction text with
  | nil =>
      by_cases ends : next = 0
      · simp [zeroTerminated, ends]
      · simp [zeroTerminated, ends]
  | cons byte text induction =>
      by_cases zero : byte = 0
      · simp [zeroTerminated, zero]
      · have unfolded : zeroTerminated ((byte :: text) ++ next :: rest) =
            byte :: zeroTerminated (text ++ next :: rest) := by
          simp [zeroTerminated, zero]
        rw [unfolded, List.cons.injEq, induction]
        simp [Ne.symm zero]

/-- A part of an unknown type is only reported. -/
def EmHttppart.mimepart (part : EmHttppart) : Option CurlMimepart :=
  if part.dataType = emHttpPartTypeString then
    some ⟨part.name, some "text/plain", .data (zeroTerminated part.data)⟩
  else if part.dataType = emHttpPartTypeBinary then
    some ⟨part.name, some "binary/octet-stream",
      .data (part.data.take (intToSize part.dataLength))⟩
  else if part.dataType = emHttpPartTypeFile then
    some ⟨part.name, none, .filedata (zeroTerminated part.data)⟩
  else none

/-- The headers of the argument are not looked at. -/
def emHttpcPostMultipart (hc : EmHttpc) (url : List UInt8)
    (parts : List EmHttppart) (transfer : CurlTransfer) : HttpcResult :=
  match emCurlInit hc transfer.curl with
  | (hc, calls) =>
      hc.perform transfer
        (calls ++
          [.easySetopt hc.curl (.url url), .mimeInit hc.curl transfer.form] ++
          (parts.filterMap EmHttppart.mimepart).map
            (.mimeAddpart transfer.form) ++
          [.easySetopt hc.curl (.mimepost transfer.form)])
        [.mimeFree transfer.form]

/-- A multipart request fails exactly when the transfer does. -/
theorem emHttpcPostMultipart_ret (hc : EmHttpc) (url : List UInt8)
    (parts : List EmHttppart) (transfer : CurlTransfer) :
    (emHttpcPostMultipart hc url parts transfer).ret =
      if transfer.ok = true then 0 else -1 := by
  simp only [emHttpcPostMultipart, EmHttpc.perform]
  cases transfer.ok with
  | true => rfl
  | false => rfl

/-! ## Forms -/

/-- The parts of a form. -/
def CurlCall.formParts (calls : List CurlCall) (form : CurlForm) :
    List CurlMimepart :=
  calls.filterMap (fun call =>
    match call with
    | .mimeAddpart target part => if target = form then some part else none
    | _ => none)

/-- The forms that are posted, with their parts. -/
def CurlCall.postedForms (calls : List CurlCall) :
    List (List CurlMimepart) :=
  calls.filterMap (fun call =>
    match call with
    | .easySetopt _ (.mimepost form) => some (formParts calls form)
    | _ => none)

/-- A multipart request posts one form, with the parts of known types. -/
theorem emHttpcPostMultipart_postedForms (hc : EmHttpc) (url : List UInt8)
    (parts : List EmHttppart) (transfer : CurlTransfer) :
    CurlCall.postedForms
        (emHttpcPostMultipart hc url parts transfer).calls =
      [parts.filterMap EmHttppart.mimepart] := by
  simp only [emHttpcPostMultipart, EmHttpc.perform, emCurlInit]
  generalize parts.filterMap EmHttppart.mimepart = given
  cases transfer.ok <;>
    simp [CurlCall.postedForms, CurlCall.formParts, List.filterMap_append,
      List.filterMap_map]

/-! ## Requests -/

inductive HttpcRequest where
  | get (url : List UInt8) (headers : Option (List (List UInt8)))
      (response : Bool)
  | post (url : List UInt8) (headers : Option (List (List UInt8)))
      (postdata : Option Bytes) (postdataSize : ℤ)
  | postMultipart (url : List UInt8) (parts : List EmHttppart)

namespace HttpcRequest

def call (request : HttpcRequest) (hc : EmHttpc) (transfer : CurlTransfer) :
    HttpcResult :=
  match request with
  | get url headers response => emHttpcGet hc url headers response transfer
  | post url headers postdata postdataSize =>
      emHttpcPost hc url headers postdata postdataSize transfer
  | postMultipart url parts => emHttpcPostMultipart hc url parts transfer

/-- The parameters are accepted, so that there is a transfer. -/
def Accepted : HttpcRequest → Prop
  | get _ _ response => response = true
  | post _ _ postdata postdataSize => postdata ≠ none ∧ 0 < postdataSize
  | postMultipart _ _ => True

instance : DecidablePred Accepted
  | get _ _ response => inferInstanceAs (Decidable (response = true))
  | post _ _ postdata postdataSize =>
      inferInstanceAs (Decidable (postdata ≠ none ∧ 0 < postdataSize))
  | postMultipart _ _ => inferInstanceAs (Decidable True)

variable {request : HttpcRequest}

theorem call_rejected (rejected : ¬ request.Accepted) (hc : EmHttpc)
    (transfer : CurlTransfer) :
    request.call hc transfer = ⟨-1, hc, [], none⟩ := by
  cases request with
  | get url headers response =>
      have noResponse : response = false := by simpa [Accepted] using rejected
      simp [call, emHttpcGet, noResponse]
  | post url headers postdata postdataSize =>
      cases postdata with
      | none => rfl
      | some postdata =>
          have noData : postdataSize ≤ 0 := by simpa [Accepted] using rejected
          simp [call, emHttpcPost, noData]
  | postMultipart url parts => exact absurd trivial rejected

/-- Every accepted request is performed on the handle it creates. -/
theorem call_accepted (accepted : request.Accepted) (hc : EmHttpc)
    (transfer : CurlTransfer) :
    ∃ prepared release,
      request.call hc transfer =
        (emCurlInit hc transfer.curl).1.perform transfer prepared release := by
  cases request with
  | get url headers response =>
      obtain rfl : response = true := accepted
      exact ⟨_, _, rfl⟩
  | post url headers postdata postdataSize =>
      obtain ⟨present, positive⟩ := accepted
      cases postdata with
      | none => exact absurd rfl present
      | some postdata =>
          exact ⟨_, _, if_neg (not_le.mpr positive)⟩
  | postMultipart url parts => exact ⟨_, _, rfl⟩

end HttpcRequest

end EmbeddedMiddle
