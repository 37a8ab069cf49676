import EmbeddedMiddle.Httpc
import EmbeddedMiddle.Foundation.ResourceUse
import EmbeddedMiddle.Foundation.Transition

/-!
# Handles of the HTTP client

Every request creates a handle, which it cleans up only when its transfer
succeeds; the functions between requests use the handle that the last request
has left in the structure.
-/

namespace EmbeddedMiddle

open Foundation

inductive CurlResource where
  | handle (curl : CurlHandle)
  | form (form : CurlForm)
  deriving DecidableEq

abbrev CurlEvent := ResourceEvent CurlResource

namespace CurlCall

def events : CurlCall → List CurlEvent
  | easyInit curl => [.create (.handle curl)]
  | easySetopt curl (.mimepost form) =>
      [.use (.handle curl), .use (.form form)]
  | easySetopt curl _ => [.use (.handle curl)]
  | easyPerform curl => [.use (.handle curl)]
  | easyGetinfo curl => [.use (.handle curl)]
  | easyCleanup curl => [.release (.handle curl)]
  | mimeInit curl form => [.use (.handle curl), .create (.form form)]
  | mimeAddpart form _ => [.use (.form form)]
  | mimeFree form => [.release (.form form)]

def allEvents (calls : List CurlCall) : List CurlEvent :=
  calls.flatMap events

@[simp] theorem allEvents_nil : allEvents [] = [] := rfl

@[simp] theorem allEvents_cons (call : CurlCall) (calls : List CurlCall) :
    allEvents (call :: calls) = call.events ++ allEvents calls := rfl

@[simp] theorem allEvents_append (calls more : List CurlCall) :
    allEvents (calls ++ more) = allEvents calls ++ allEvents more :=
  List.flatMap_append

end CurlCall

/-! ## One request -/

section Request

variable {hc : EmHttpc} {transfer : CurlTransfer}
  {live next : Finset CurlResource} {prepared release : List CurlCall}

open CurlCall ResourceEvent

/-- Headers are set on the handle of the client. -/
theorem headerCalls_lawful (isLive : .handle hc.curl ∈ live)
    (headers : Option (List (List UInt8))) :
    AllLawful live (allEvents (hc.headerCalls headers)) ∧
      allAfter live (allEvents (hc.headerCalls headers)) = live := by
  apply uses_lawful
  intro event member
  refine ⟨_, isLive, ?_⟩
  unfold EmHttpc.headerCalls at member
  split at member
  · simpa [events] using member
  · split_ifs at member
    · simpa [events] using member
    · cases member

/-- A transfer that fails leaves what has been prepared. -/
theorem perform_lawful
    (fresh : .handle hc.curl ∉ live)
    (lawful : AllLawful live (allEvents prepared))
    (reached : allAfter live (allEvents prepared) = next)
    (isLive : .handle hc.curl ∈ next)
    (freed : AllLawful next (allEvents release))
    (back : allAfter next (allEvents release) =
      insert (.handle hc.curl) live) :
    AllLawful live (allEvents (hc.perform transfer prepared release).calls) ∧
      allAfter live (allEvents (hc.perform transfer prepared release).calls) =
        if transfer.ok then live else next := by
  cases ok : transfer.ok with
  | false =>
      simp [EmHttpc.perform, ok, lawful, reached, events, AllLawful, Lawful,
        allAfter, after, isLive]
  | true =>
      simp [EmHttpc.perform, ok, lawful, reached, events, AllLawful, Lawful,
        allAfter, after, isLive, freed, back, Finset.erase_insert fresh]

/-- A request that has only its handle. -/
theorem perform_plain_lawful (curl : CurlHandle)
    (fresh : .handle curl ∉ live) (url : List UInt8)
    (options : List CurlCall) (headers : Option (List (List UInt8)))
    (uses : ∀ event ∈ allEvents options, event = .use (.handle curl)) :
    let started := emCurlInit hc curl
    let result := started.1.perform transfer
      (started.2 ++ (.easySetopt curl (.url url) :: options) ++
        started.1.headerCalls headers) []
    AllLawful live (allEvents result.calls) ∧
      allAfter live (allEvents result.calls) =
        if transfer.ok then live else insert (.handle curl) live := by
  have isLive : CurlResource.handle curl ∈
      insert (.handle curl) live := Finset.mem_insert_self ..
  have optionsLawful := @uses_lawful _ _
    (insert (CurlResource.handle curl) live) (allEvents options)
    (fun event member => ⟨_, isLive, uses event member⟩)
  have headersLawful :=
    @headerCalls_lawful (emCurlInit hc curl).1 _ isLive headers
  apply perform_lawful fresh
  · simp [emCurlInit, events, AllLawful, Lawful, after, fresh,
      optionsLawful]
    exact headersLawful.1
  · simp [emCurlInit, events, allAfter, after, optionsLawful]
    exact headersLawful.2
  · exact isLive
  · trivial
  · rfl

/-- A multipart request has a form as well. -/
theorem perform_multipart_lawful (curl : CurlHandle) (form : CurlForm)
    (fresh : .handle curl ∉ live) (freshForm : .form form ∉ live)
    (url : List UInt8) (parts : List CurlMimepart) :
    let started := emCurlInit hc curl
    let result := started.1.perform transfer
      (started.2 ++ [.easySetopt curl (.url url), .mimeInit curl form] ++
        parts.map (.mimeAddpart form) ++
        [.easySetopt curl (.mimepost form)])
      [.mimeFree form]
    AllLawful live (allEvents result.calls) ∧
      allAfter live (allEvents result.calls) =
        if transfer.ok then live
        else insert (.form form) (insert (.handle curl) live) := by
  have newForm : CurlResource.form form ∉ insert (.handle curl) live := by
    simp [freshForm]
  have isLive : CurlResource.handle curl ∈
      insert (.form form) (insert (.handle curl) live) :=
    Finset.mem_insert_of_mem (Finset.mem_insert_self ..)
  have formLive : CurlResource.form form ∈
      insert (.form form) (insert (.handle curl) live) :=
    Finset.mem_insert_self ..
  have partsLawful := @uses_lawful _ _
    (insert (.form form) (insert (.handle curl) live))
    (allEvents (parts.map (.mimeAddpart form))) (by
      intro event member
      refine ⟨_, formLive, ?_⟩
      simp [allEvents, events, List.flatMap_map] at member
      exact member.2)
  apply perform_lawful fresh
  · simp [emCurlInit, events, AllLawful, Lawful, after, fresh, freshForm,
      partsLawful]
  · simp [emCurlInit, events, after, allAfter, partsLawful]
  · exact isLive
  · exact ⟨formLive, trivial⟩
  · exact Finset.erase_insert newForm

theorem perform_curl :
    (hc.perform transfer prepared release).hc.curl = hc.curl := by
  unfold EmHttpc.perform
  split_ifs
  · rfl
  · rfl

theorem request_lawful {request : HttpcRequest}
    (accepted : request.Accepted)
    (handle : .handle transfer.curl ∉ live)
    (form : .form transfer.form ∉ live) :
    ∃ next, .handle transfer.curl ∈ next ∧
      AllLawful live (allEvents (request.call hc transfer).calls) ∧
      allAfter live (allEvents (request.call hc transfer).calls) =
        (if transfer.ok then live else next) ∧
      (request.call hc transfer).hc.curl = transfer.curl := by
  cases request with
  | get url headers response =>
      obtain rfl : response = true := accepted
      have lawful := @perform_plain_lawful hc transfer live transfer.curl
        handle url [] headers nofun
      exact ⟨_, Finset.mem_insert_self .., lawful.1, lawful.2, perform_curl⟩
  | post url headers postdata postdataSize =>
      obtain ⟨present, positive⟩ := accepted
      cases postdata with
      | none => exact absurd rfl present
      | some postdata =>
          rw [show (HttpcRequest.post url headers (some postdata)
              postdataSize).call hc transfer = _ from
            if_neg (not_le.mpr positive)]
          have lawful := @perform_plain_lawful hc transfer live transfer.curl
            handle url
            [.easySetopt transfer.curl (.post 1),
              .easySetopt transfer.curl (.postfields postdata),
              .easySetopt transfer.curl (.postfieldsize postdataSize)]
            headers (by simp [events])
          exact ⟨_, Finset.mem_insert_self .., lawful.1, lawful.2,
            perform_curl⟩
  | postMultipart url parts =>
      have lawful := @perform_multipart_lawful hc transfer live transfer.curl
        transfer.form handle form url
        (parts.filterMap EmHttppart.mimepart)
      exact ⟨_, Finset.mem_insert_of_mem (Finset.mem_insert_self ..),
        lawful.1, lawful.2, perform_curl⟩

end Request

/-! ## Runs -/

inductive HttpcCall where
  | init (bufSize : ℕ) (memory : Bytes)
  | addHeader (headerStr : List UInt8)
  | resetHeader
  | setopt (opt optValue : ℤ)
  | request (request : HttpcRequest) (transfer : CurlTransfer)
  | destroy

/-- The client after a call, and the calls on libcurl. -/
def HttpcCall.call (call : HttpcCall) (hc : EmHttpc) :
    EmHttpc × List CurlCall :=
  match call with
  | init bufSize memory => (emHttpcInit hc bufSize memory, [])
  | addHeader headerStr =>
      let result := emHttpcAddHeader hc headerStr
      (result.hc, result.calls)
  | resetHeader => (emHttpcResetHeader hc, [])
  | setopt opt optValue =>
      let result := emHttpcSetopt hc opt optValue
      (result.hc, result.calls)
  | request asked transfer =>
      let result := asked.call hc transfer
      (result.hc, result.calls)
  | destroy => (emHttpcDestroy hc, [])

/-- The client, everything that has been done with handles and forms, and, for
the record, whether the last accepted request has failed, and whether any has.
-/
structure HttpcHandles where
  hc : EmHttpc
  events : List CurlEvent
  lastFailed : Bool
  anyFailed : Bool

namespace HttpcHandles

open CurlCall ResourceEvent

def start (hc : EmHttpc) : HttpcHandles := ⟨hc, [], false, false⟩

def live (state : HttpcHandles) : Finset CurlResource :=
  allAfter ∅ state.events

def next (state : HttpcHandles) (call : HttpcCall) : HttpcHandles :=
  let (hc, calls) := call.call state.hc
  let events := state.events ++ allEvents calls
  match call with
  | .request asked transfer =>
      if asked.Accepted then
        ⟨hc, events, !transfer.ok, state.anyFailed || !transfer.ok⟩
      else ⟨hc, events, state.lastFailed, state.anyFailed⟩
  | _ => ⟨hc, events, state.lastFailed, state.anyFailed⟩

/-- libcurl gives handles and forms that are not in use. -/
def Step (before : HttpcHandles) (call : HttpcCall) (after : HttpcHandles) :
    Prop :=
  (∀ asked transfer, call = .request asked transfer →
    .handle transfer.curl ∉ before.live ∧
      .form transfer.form ∉ before.live) ∧
  after = before.next call

/-- Only handles in use have been used or cleaned up, and when the client is
destroyed everything has been cleaned up as often as it was created. -/
def Clean (_ : HttpcHandles) (call : HttpcCall) (after : HttpcHandles) :
    Prop :=
  AllLawful ∅ after.events ∧ (call = .destroy → Balanced after.events)

/-- An option is set while the handle of a failed request is there; the client
is destroyed when no request has failed. -/
def Allowed (before : HttpcHandles) : HttpcCall → Prop
  | .addHeader _ => before.lastFailed = true
  | .setopt opt _ => opt = curloptSslVerifypeer → before.lastFailed = true
  | .destroy => before.anyFailed = false
  | _ => True

/-- Handles stay in use exactly when their requests failed. -/
structure Tracked (state : HttpcHandles) : Prop where
  lawful : AllLawful ∅ state.events
  last : state.lastFailed = true ↔ .handle state.hc.curl ∈ state.live
  any : state.anyFailed = false ↔ state.live = ∅

namespace Tracked

variable {before after : HttpcHandles} {call : HttpcCall}

theorem start (hc : EmHttpc) : (start hc).Tracked := by
  refine ⟨trivial, ?_, ?_⟩
  · simp [HttpcHandles.start, live, allAfter]
  · simp [HttpcHandles.start, live, allAfter]

/-- A call that leaves the handle where it is and does nothing with it. -/
theorem idle (tracked : before.Tracked) {hc : EmHttpc}
    (curl : hc.curl = before.hc.curl) :
    Tracked ⟨hc, before.events ++ allEvents [], before.lastFailed,
      before.anyFailed⟩ := by
  rw [allEvents_nil, List.append_nil]
  refine ⟨tracked.lawful, ?_, tracked.any⟩
  change _ ↔ CurlResource.handle hc.curl ∈ before.live
  rw [curl]
  exact tracked.last

/-- Setting an option is lawful exactly while the handle is in use, and
changes nothing then. -/
theorem use_iff (tracked : before.Tracked) {option : CurlOption}
    (noForm : CurlCall.events (.easySetopt before.hc.curl option) =
      [.use (.handle before.hc.curl)]) :
    AllLawful ∅ (before.events ++
        allEvents [.easySetopt before.hc.curl option]) ↔
      before.lastFailed = true := by
  rw [allLawful_append, allEvents_cons, noForm, tracked.last]
  simp [AllLawful, Lawful, tracked.lawful, live]

theorem use (tracked : before.Tracked) {hc : EmHttpc} {option : CurlOption}
    (curl : hc.curl = before.hc.curl)
    (noForm : CurlCall.events (.easySetopt before.hc.curl option) =
      [.use (.handle before.hc.curl)])
    (failed : before.lastFailed = true) :
    Tracked ⟨hc, before.events ++
        allEvents [.easySetopt before.hc.curl option],
      before.lastFailed, before.anyFailed⟩ := by
  have same : allAfter ∅ (before.events ++
      allEvents [.easySetopt before.hc.curl option]) = before.live := by
    rw [allAfter_append, allEvents_cons, noForm]
    rfl
  refine ⟨(tracked.use_iff noForm).mpr failed, ?_, ?_⟩
  · change _ ↔ CurlResource.handle hc.curl ∈ allAfter _ _
    rw [same, curl]
    exact tracked.last
  · change _ ↔ allAfter _ _ = ∅
    rw [same]
    exact tracked.any

theorem request (tracked : before.Tracked) {asked : HttpcRequest}
    {transfer : CurlTransfer}
    (handle : .handle transfer.curl ∉ before.live)
    (form : .form transfer.form ∉ before.live) :
    (before.next (.request asked transfer)).Tracked := by
  by_cases accepted : asked.Accepted
  · obtain ⟨next, isLive, lawful, reached, curl⟩ :=
      @request_lawful before.hc transfer before.live asked accepted handle form
    have isNext : before.next (.request asked transfer) =
        ⟨(asked.call before.hc transfer).hc,
          before.events ++ allEvents (asked.call before.hc transfer).calls,
          !transfer.ok, before.anyFailed || !transfer.ok⟩ := if_pos accepted
    have afterwards : (before.next (.request asked transfer)).live =
        if transfer.ok then before.live else next := by
      rw [live, isNext, ← reached]
      exact allAfter_append
    refine ⟨?_, ?_, ?_⟩
    · rw [isNext]
      exact allLawful_append.mpr ⟨tracked.lawful, lawful⟩
    · rw [afterwards, isNext]
      dsimp only
      rw [curl]
      cases transfer.ok with
      | true => simpa using handle
      | false => simpa using isLive
    · rw [afterwards, isNext]
      cases transfer.ok with
      | true => simpa using tracked.any
      | false =>
          have notEmpty : next ≠ ∅ := Finset.ne_empty_of_mem isLive
          simpa using notEmpty
  · have isNext : before.next (.request asked transfer) =
        ⟨(asked.call before.hc transfer).hc,
          before.events ++ allEvents (asked.call before.hc transfer).calls,
          before.lastFailed, before.anyFailed⟩ := if_neg accepted
    rw [isNext, asked.call_rejected accepted]
    exact tracked.idle rfl

theorem next_setopt (opt optValue : ℤ) :
    before.next (.setopt opt optValue) =
      ⟨before.hc,
        before.events ++ allEvents
          (if opt = curloptSslVerifypeer then
            [.easySetopt before.hc.curl (.sslVerifypeer optValue)]
          else []),
        before.lastFailed, before.anyFailed⟩ := by
  by_cases verifypeer : opt = curloptSslVerifypeer
  · simp [next, HttpcCall.call, emHttpcSetopt, verifypeer]
  · simp [next, HttpcCall.call, emHttpcSetopt, verifypeer]

theorem step (tracked : before.Tracked)
    (taken : before.Step call after) (allowed : before.Allowed call) :
    after.Tracked := by
  obtain ⟨fresh, rfl⟩ := taken
  cases call with
  | init bufSize memory => exact tracked.idle rfl
  | addHeader headerStr => exact tracked.use rfl rfl allowed
  | resetHeader => exact tracked.idle rfl
  | setopt opt optValue =>
      rw [next_setopt]
      split_ifs with verifypeer
      · exact tracked.use rfl rfl (allowed verifypeer)
      · exact tracked.idle rfl
  | request asked transfer =>
      obtain ⟨handle, form⟩ := fresh asked transfer rfl
      exact tracked.request handle form
  | destroy => exact tracked.idle rfl

theorem clean_iff (tracked : before.Tracked)
    (taken : before.Step call after) :
    before.Clean call after ↔ before.Allowed call := by
  have step := tracked.step taken
  obtain ⟨_, rfl⟩ := taken
  constructor
  · rintro ⟨lawful, cleaned⟩
    cases call with
    | addHeader headerStr => exact (tracked.use_iff rfl).mp lawful
    | setopt opt optValue =>
        intro verifypeer
        rw [next_setopt, if_pos verifypeer] at lawful
        exact (tracked.use_iff rfl).mp lawful
    | destroy =>
        have empty := (balanced_iff lawful).mp (cleaned rfl)
        apply tracked.any.mpr
        change allAfter ∅ (before.events ++ []) = ∅ at empty
        rwa [List.append_nil] at empty
    | init _ _ | resetHeader | request _ _ => trivial
  · intro allowed
    have lawful := (step allowed).lawful
    refine ⟨lawful, ?_⟩
    rintro rfl
    apply (balanced_iff lawful).mpr
    change allAfter ∅ (before.events ++ []) = ∅
    rw [List.append_nil]
    exact tracked.any.mp allowed

end Tracked

/-- The runs in which only handles in use are used, and nothing is left when
the client is destroyed, are those in which options are set after a failed
request only and the client is destroyed when no request has failed. -/
theorem httpc_handles_iff (hc : EmHttpc) (bufSize : ℕ) (memory : Bytes)
    (calls : List HttpcCall) (state : HttpcHandles) :
    Run (Upholding Clean Step) (start (emHttpcInit hc bufSize memory)) calls
        state ↔
      Run (Guarded Allowed Step) (start (emHttpcInit hc bufSize memory)) calls
        state := by
  apply Run.upholding_iff Tracked
  · exact Tracked.start _
  · intro before call after tracked taken
    exact tracked.step taken.2 taken.1
  · intro before call after tracked taken
    exact tracked.clean_iff taken

/-- The first header is added to a handle that nobody has created. -/
theorem httpc_uses_no_handle :
    ∃ after, Step (start (emHttpcInit default 3 (fun _ => 0)))
        (.addHeader [65]) after ∧
      ¬ Clean (start (emHttpcInit default 3 (fun _ => 0)))
        (.addHeader [65]) after := by
  refine ⟨_, ⟨nofun, rfl⟩, ?_⟩
  intro clean
  have unused := clean.1.1
  cases unused

end HttpcHandles

end EmbeddedMiddle
