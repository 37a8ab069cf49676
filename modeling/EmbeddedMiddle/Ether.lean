import EmbeddedMiddle.CommonDefs
import EmbeddedMiddle.Foundation.AckedStream
import EmbeddedMiddle.Foundation.Transition

/-!
# TCP sockets

`em_tcp_send` and `em_tcp_recv` of `em_ether.c` on a connected pair.  What the
kernel answers to `select`, `send` and `recv` is given from outside: `send`
may take any part of the buffer and `recv` may return any part of what is in
flight.
-/

namespace EmbeddedMiddle

open Foundation

structure EmSocket where
  isConnected : Bool
  deriving DecidableEq, Repr

/-- The answers of the kernel during one call: `ready` is what `select` sees,
`length` the number of bytes that `send` or `recv` moves, `none` if it fails. -/
structure SocketAnswer where
  ready : Bool
  length : Option ℕ
  deriving DecidableEq, Repr

/-- The result, and the bytes that `send` has taken. -/
def emTcpSend (sk : EmSocket) (sendBuf : List UInt8) (timeoutMs : ℤ)
    (answer : SocketAnswer) : ℤ × List UInt8 :=
  if sk.isConnected = false then (-1, [])
  else if timeoutMs ≠ emNoTimeout ∧ answer.ready = false then
    (emErrTimeout, [])
  else
    match answer.length with
    | none => (-1, [])
    | some len => (0, sendBuf.take len)

/-- The result, and the bytes that `recv` has written to the buffer. -/
def emTcpRecv (sk : EmSocket) (flight : List UInt8) (timeoutMs : ℤ)
    (answer : SocketAnswer) : ℤ × List UInt8 :=
  if sk.isConnected = false then (-1, [])
  else if timeoutMs ≠ emNoTimeout ∧ answer.ready = false then
    (emErrTimeout, [])
  else
    match answer.length with
    | none => (-1, [])
    | some len => (len, flight.take len)

/-! ## One call -/

/-- The call gets as far as `send` or `recv`. -/
def SocketAnswer.Reached (answer : SocketAnswer) (timeoutMs : ℤ) : Prop :=
  timeoutMs = emNoTimeout ∨ answer.ready = true

theorem emTcpSend_reached {sk : EmSocket} {timeoutMs : ℤ}
    {answer : SocketAnswer} {len : ℕ} (sendBuf : List UInt8)
    (connected : sk.isConnected = true)
    (reached : answer.Reached timeoutMs)
    (taken : answer.length = some len) :
    emTcpSend sk sendBuf timeoutMs answer = (0, sendBuf.take len) := by
  unfold emTcpSend
  rw [if_neg (by simp [connected]), if_neg, taken]
  rintro ⟨limited, notReady⟩
  rcases reached with unlimited | ready
  · exact limited unlimited
  · rw [ready] at notReady
    cases notReady

theorem emTcpSend_cases (sk : EmSocket) (sendBuf : List UInt8)
    (timeoutMs : ℤ) (answer : SocketAnswer) :
    ((emTcpSend sk sendBuf timeoutMs answer).1 ≠ 0 ∧
      (emTcpSend sk sendBuf timeoutMs answer).2 = []) ∨
    ∃ len, answer.Reached timeoutMs ∧ answer.length = some len ∧
      emTcpSend sk sendBuf timeoutMs answer = (0, sendBuf.take len) := by
  obtain ⟨ready, length⟩ := answer
  by_cases connected : sk.isConnected = true
  · by_cases reached : (⟨ready, length⟩ : SocketAnswer).Reached timeoutMs
    · cases length with
      | none =>
          left
          unfold emTcpSend
          split_ifs <;> simp [emErrTimeout]
      | some len =>
          exact .inr ⟨len, reached, rfl,
            emTcpSend_reached sendBuf connected reached rfl⟩
    · have timedOut : timeoutMs ≠ emNoTimeout ∧ ready = false := by
        simpa [SocketAnswer.Reached] using reached
      left
      simp [emTcpSend, connected, timedOut, emErrTimeout]
  · left
    simp [emTcpSend, connected]

/-- What is delivered comes from the front of what is in flight. -/
theorem emTcpRecv_received (sk : EmSocket) (flight : List UInt8)
    (timeoutMs : ℤ) (answer : SocketAnswer) :
    ∃ len, (emTcpRecv sk flight timeoutMs answer).2 = flight.take len := by
  unfold emTcpRecv
  split_ifs with connected timedOut
  · exact ⟨0, rfl⟩
  · exact ⟨0, rfl⟩
  · cases answer.length with
    | none => exact ⟨0, rfl⟩
    | some len => exact ⟨len, rfl⟩

/-! ## A connected pair -/

inductive TcpSide where
  | client
  | server
  deriving DecidableEq, Repr

def TcpSide.peer : TcpSide → TcpSide
  | .client => .server
  | .server => .client

/-- `stream side` is what `side` sends to its peer: the buffers for which
`em_tcp_send` returned 0, the bytes that `em_tcp_recv` has delivered at the
other end, and the bytes under way. -/
structure TcpPair where
  socket : TcpSide → EmSocket
  stream : TcpSide → AckedStream UInt8

def TcpPair.connected : TcpPair where
  socket := fun _ => ⟨true⟩
  stream := fun _ => .empty

inductive TcpCall where
  | send (side : TcpSide) (sendBuf : List UInt8) (timeoutMs : ℤ)
      (answer : SocketAnswer)
  | recv (side : TcpSide) (size : ℕ) (timeoutMs : ℤ)
      (answer : SocketAnswer)

namespace TcpPair

def setStream (pair : TcpPair) (side : TcpSide)
    (stream : AckedStream UInt8) : TcpPair :=
  { pair with stream := Function.update pair.stream side stream }

def after (pair : TcpPair) : TcpCall → TcpPair
  | .send side sendBuf timeoutMs answer =>
      let (ret, taken) :=
        emTcpSend (pair.socket side) sendBuf timeoutMs answer
      let stream := pair.stream side
      pair.setStream side
        { stream with
          acknowledged :=
            stream.acknowledged ++ if ret = 0 then sendBuf else []
          flight := stream.flight ++ taken }
  | .recv side _ timeoutMs answer =>
      let stream := pair.stream side.peer
      let (_, received) :=
        emTcpRecv (pair.socket side) stream.flight timeoutMs answer
      pair.setStream side.peer
        { stream with
          delivered := stream.delivered ++ received
          flight := stream.flight.drop received.length }

/-- A reliable socket: `send` takes at least one byte of a buffer and `recv`
returns at least one of the bytes that are there, neither more than asked. -/
def Answered (pair : TcpPair) : TcpCall → Prop
  | .send _ sendBuf _ answer =>
      sendBuf.length ≤ intMax ∧
      ∀ len, answer.length = some len →
        len ≤ sendBuf.length ∧ (sendBuf ≠ [] → 1 ≤ len)
  | .recv side size _ answer =>
      size ≤ intMax ∧
      ∀ len, answer.length = some len →
        len ≤ size ∧ len ≤ (pair.stream side.peer).flight.length ∧
          (size ≠ 0 → 1 ≤ len)

def Step (pair : TcpPair) (call : TcpCall) (next : TcpPair) : Prop :=
  pair.Answered call ∧ next = pair.after call

end TcpPair

/-- `send` does not stop short of the end of the buffer. -/
def TcpCall.SendsWhole : TcpCall → Prop
  | .send _ sendBuf timeoutMs answer =>
      answer.Reached timeoutMs →
        ∀ len, answer.length = some len → len = sendBuf.length
  | .recv .. => True

namespace TcpPair

variable {pair next : TcpPair} {call : TcpCall} {calls : List TcpCall}
  {side : TcpSide}

/-- Every side is told only of bytes that were taken, and all of them. -/
def Whole (pair : TcpPair) : Prop := ∀ side, (pair.stream side).Whole

@[simp] theorem setStream_self (side : TcpSide) :
    pair.setStream side (pair.stream side) = pair := by
  simp [setStream]

@[simp] theorem setStream_stream (stream : AckedStream UInt8) :
    (pair.setStream side stream).stream side = stream := by
  simp [setStream]

theorem after_send (pair : TcpPair) (side : TcpSide) (sendBuf : List UInt8)
    (timeoutMs : ℤ) (answer : SocketAnswer) :
    pair.after (.send side sendBuf timeoutMs answer) = pair ∨
    ∃ len, answer.Reached timeoutMs ∧ answer.length = some len ∧
      pair.after (.send side sendBuf timeoutMs answer) =
        pair.setStream side ((pair.stream side).write sendBuf len) := by
  rcases emTcpSend_cases (pair.socket side) sendBuf timeoutMs answer with
    ⟨failed, nothing⟩ | ⟨len, reached, taken, result⟩
  · left
    simp only [after, failed, nothing, if_false, List.append_nil]
    exact setStream_self side
  · right
    refine ⟨len, reached, taken, ?_⟩
    simp [after, result, AckedStream.write]

theorem after_recv (pair : TcpPair) (side : TcpSide) (size : ℕ)
    (timeoutMs : ℤ) (answer : SocketAnswer) :
    ∃ len, pair.after (.recv side size timeoutMs answer) =
      pair.setStream side.peer ((pair.stream side.peer).read len) := by
  obtain ⟨len, received⟩ := emTcpRecv_received (pair.socket side)
    (pair.stream side.peer).flight timeoutMs answer
  refine ⟨len, ?_⟩
  simp only [after, received, AckedStream.read, List.length_take]
  congr 2
  rcases le_total len (pair.stream side.peer).flight.length with inside | past
  · rw [min_eq_left inside]
  · rw [min_eq_right past, List.drop_length, List.drop_of_length_le past]

theorem Whole.setStream (whole : pair.Whole) {stream : AckedStream UInt8}
    (intact : stream.Whole) : (pair.setStream side stream).Whole := by
  intro other
  by_cases same : other = side
  · subst same
    simpa [TcpPair.setStream] using intact
  · simpa [TcpPair.setStream, same] using whole other

theorem Whole.step (whole : pair.Whole) (sendsWhole : call.SendsWhole)
    (step : pair.Step call next) : next.Whole := by
  obtain ⟨_, rfl⟩ := step
  cases call with
  | send side sendBuf timeoutMs answer =>
      rcases pair.after_send side sendBuf timeoutMs answer with
        unchanged | ⟨len, reached, taken, result⟩
      · rwa [unchanged]
      · rw [result, sendsWhole reached len taken]
        exact whole.setStream ((whole side).write sendBuf)
  | recv side size timeoutMs answer =>
      obtain ⟨len, result⟩ := pair.after_recv side size timeoutMs answer
      rw [result]
      exact whole.setStream ((whole side.peer).read len)

/-! ## Falling behind -/

theorem socket_step (step : pair.Step call next) :
    next.socket = pair.socket := by
  obtain ⟨_, rfl⟩ := step
  cases call <;> rfl

theorem behind_step (behind : (pair.stream side).Behind)
    (step : pair.Step call next) : (next.stream side).Behind := by
  have moved : ∀ (other : TcpSide) (stream : AckedStream UInt8),
      (other = side → stream.Behind) →
        ((pair.setStream other stream).stream side).Behind := by
    intro other stream holds
    by_cases same : side = other
    · subst same
      simpa [setStream] using holds rfl
    · simpa [setStream, same] using behind
  obtain ⟨_, rfl⟩ := step
  cases call with
  | send other sendBuf timeoutMs answer =>
      rcases pair.after_send other sendBuf timeoutMs answer with
        unchanged | ⟨len, _, _, result⟩
      · rwa [unchanged]
      · rw [result]
        apply moved
        rintro rfl
        exact behind.write sendBuf len
  | recv other size timeoutMs answer =>
      obtain ⟨len, result⟩ := pair.after_recv other size timeoutMs answer
      rw [result]
      apply moved
      intro same
      rw [same]
      exact behind.read len

/-- After a short write more is acknowledged than the peer will ever get. -/
theorem Whole.behind_of_short (whole : pair.Whole)
    (connected : ∀ side, (pair.socket side).isConnected = true)
    (short : ¬ call.SendsWhole) (step : pair.Step call next) :
    ∃ side, (next.stream side).Behind := by
  cases call with
  | recv => exact absurd trivial short
  | send side sendBuf timeoutMs answer =>
      simp only [TcpCall.SendsWhole, not_forall] at short
      obtain ⟨reached, len, taken, different⟩ := short
      obtain ⟨answered, rfl⟩ := step
      have within : len ≤ sendBuf.length := (answered.2 len taken).1
      have fewer : len < sendBuf.length := lt_of_le_of_ne within different
      refine ⟨side, ?_⟩
      have sent := emTcpSend_reached sendBuf (connected side) reached taken
      have written : (pair.after
          (.send side sendBuf timeoutMs answer)).stream side =
            (pair.stream side).write sendBuf len := by
        simp [after, sent, AckedStream.write]
      rw [written]
      exact (whole side).behind_of_short fewer

/-! ## Reading everything -/

/-- Steps in which no write is short. -/
abbrev WholeStep : TcpPair → TcpCall → TcpPair → Prop :=
  Guarded (fun _ call => call.SendsWhole) Step

theorem peer_peer (side : TcpSide) : side.peer.peer = side := by
  cases side <;> rfl

/-- The call in which one byte is asked for and one byte comes. -/
def recvByte (side : TcpSide) : TcpCall :=
  .recv side.peer 1 emNoTimeout ⟨true, some 1⟩

theorem recvByte_step (connected : (pair.socket side.peer).isConnected = true)
    (some : 1 ≤ (pair.stream side).flight.length) :
    WholeStep pair (recvByte side)
      (pair.setStream side ((pair.stream side).read 1)) := by
  refine ⟨trivial, ⟨by decide, ?_⟩, ?_⟩
  · rintro len ⟨⟩
    rw [peer_peer]
    exact ⟨le_rfl, some, fun _ => le_rfl⟩
  · have received : emTcpRecv (pair.socket side.peer)
        (pair.stream side).flight emNoTimeout ⟨true, Option.some 1⟩ =
          (1, (pair.stream side).flight.take 1) := by
      simp [emTcpRecv, connected]
    simp only [recvByte, after, peer_peer, received, AckedStream.read,
      List.length_take, min_eq_left some]

/-- What is in flight can be read up to the last byte. -/
theorem exists_drained (behind : (pair.stream side).Behind)
    (connected : ∀ side, (pair.socket side).isConnected = true) :
    ∃ calls later, Run WholeStep pair calls later ∧
      (later.stream side).Behind ∧ (later.stream side).flight = [] ∧
      ∀ side, (later.socket side).isConnected = true := by
  generalize count : (pair.stream side).flight.length = length
  induction length generalizing pair with
  | zero =>
      exact ⟨[], pair, .nil, behind, List.length_eq_zero_iff.mp count,
        connected⟩
  | succ length induction =>
      have some : 1 ≤ (pair.stream side).flight.length := by omega
      have step := recvByte_step (connected side.peer) some
      have fewer : ((pair.setStream side ((pair.stream side).read 1)).stream
          side).flight.length = length := by
        simp [setStream, AckedStream.read, count]
      obtain ⟨calls, later, run, rest⟩ :=
        induction (behind_step behind step.2) connected fewer
      exact ⟨_, later, run.cons step, rest⟩

/-- The call that sends one byte. -/
def sendByte (side : TcpSide) (byte : UInt8) : TcpCall :=
  .send side [byte] emNoTimeout ⟨true, some 1⟩

theorem sendByte_step (connected : (pair.socket side).isConnected = true)
    (byte : UInt8) :
    WholeStep pair (sendByte side byte)
      (pair.setStream side ((pair.stream side).write [byte] 1)) := by
  refine ⟨?_, ⟨?_, ?_⟩, ?_⟩
  · rintro _ len ⟨⟩
    rfl
  · exact (by decide : 1 ≤ intMax)
  · rintro len ⟨⟩
    exact ⟨le_rfl, fun _ => le_rfl⟩
  · have sent : emTcpSend (pair.socket side) [byte] emNoTimeout
        ⟨true, some 1⟩ = (0, [byte].take 1) :=
      emTcpSend_reached [byte] connected (.inl rfl) rfl
    simp [sendByte, after, sent, AckedStream.write]

/-- Once behind, one more byte sent and everything read shows the loss. -/
theorem exists_not_isPrefix (behind : (pair.stream side).Behind)
    (connected : ∀ side, (pair.socket side).isConnected = true) :
    ∃ calls later, Run WholeStep pair calls later ∧
      ¬ (later.stream side).delivered <+: (later.stream side).acknowledged := by
  obtain ⟨calls, drained, run, behindStill, nothing, connectedStill⟩ :=
    exists_drained behind connected
  obtain ⟨lost, overtaking⟩ := behindStill.exists_overtaking nothing
  obtain ⟨byte, different⟩ : ∃ byte, byte ≠ lost := by
    by_cases zero : lost = 0
    · exact ⟨1, by rw [zero]; decide⟩
    · exact ⟨0, fun same => zero same.symm⟩
  have sent := sendByte_step (connectedStill side) byte
  have underway : 1 ≤ ((drained.setStream side
      ((drained.stream side).write [byte] 1)).stream side).flight.length := by
    simp [AckedStream.write]
  have connectedSent : ((drained.setStream side
      ((drained.stream side).write [byte] 1)).socket side.peer).isConnected =
        true := connectedStill side.peer
  have received := recvByte_step connectedSent underway
  refine ⟨_, _, (run.snoc sent).snoc received, ?_⟩
  simpa using overtaking byte different

/-! ## Runs -/

theorem whole_of_run (run : Run Step connected calls pair)
    (sendsWhole : ∀ call ∈ calls, call.SendsWhole) : pair.Whole := by
  refine run.history_invariant
    (fun calls pair => (∀ call ∈ calls, call.SendsWhole) → pair.Whole)
    (fun _ _ => AckedStream.whole_empty) ?_ sendsWhole
  intro calls before call after whole step sends
  refine (whole fun other earlier => sends other ?_).step
    (sends call ?_) step
  · simp [earlier]
  · simp

theorem connected_of_run (run : Run Step connected calls pair) :
    ∀ side, (pair.socket side).isConnected = true := by
  refine run.invariant
    (fun pair => ∀ side, (pair.socket side).isConnected = true)
    (fun _ => rfl) ?_
  intro before call after holds step side
  rw [socket_step step]
  exact holds side

theorem whole_or_behind (run : Run Step connected calls pair) :
    ((∀ call ∈ calls, call.SendsWhole) ∧ pair.Whole) ∨
      ∃ side, (pair.stream side).Behind := by
  induction run with
  | nil => exact .inl ⟨by simp, fun _ => AckedStream.whole_empty⟩
  | @snoc calls before after call earlier step induction =>
      rcases induction with ⟨sends, whole⟩ | ⟨side, behind⟩
      · by_cases now : call.SendsWhole
        · refine .inl ⟨?_, whole.step now step⟩
          intro other member
          rcases List.mem_append.mp member with before | last
          · exact sends other before
          · rwa [List.mem_singleton.mp last]
        · exact .inr
            (whole.behind_of_short (connected_of_run earlier) now step)
      · exact .inr ⟨side, behind_step behind step⟩

/-- The bytes delivered stay a prefix of the buffers that were acknowledged,
here and as long as no later write is short, if and only if no write of the
run was short. -/
theorem delivered_prefix_iff (run : Run Step connected calls pair) :
    (∀ more later, Run WholeStep pair more later →
      ∀ side, (later.stream side).delivered <+:
        (later.stream side).acknowledged) ↔
      ∀ call ∈ calls, call.SendsWhole := by
  constructor
  · intro always
    rcases whole_or_behind run with ⟨sends, _⟩ | ⟨side, behind⟩
    · exact sends
    · obtain ⟨more, later, onward, broken⟩ :=
        exists_not_isPrefix behind (connected_of_run run)
      exact absurd (always more later onward side) broken
  · intro sends more later onward side
    have whole : later.Whole :=
      onward.invariant Whole (whole_of_run run sends)
        fun before call after holds step => holds.step step.1 step.2
    exact (whole side).delivered_isPrefix

theorem delivered_prefix_one_send :
    ∃ pair, Run Step connected [.send .client [1, 2] 10 ⟨true, some 2⟩] pair ∧
      ∀ more later, Run WholeStep pair more later →
        ∀ side, (later.stream side).delivered <+:
          (later.stream side).acknowledged := by
  have run : Run Step connected [.send .client [1, 2] 10 ⟨true, some 2⟩]
      (connected.after (.send .client [1, 2] 10 ⟨true, some 2⟩)) := by
    refine .cons ⟨⟨by decide, ?_⟩, rfl⟩ .nil
    rintro len ⟨⟩
    exact ⟨by decide, by decide⟩
  refine ⟨_, run, (delivered_prefix_iff run).mpr ?_⟩
  intro call member
  rw [List.mem_singleton.mp member]
  rintro _ len ⟨⟩
  rfl

/-- Two bytes are sent and only the first is taken, then a third is sent. -/
def shortWrite : List TcpCall :=
  [.send .client [1, 2] emNoTimeout ⟨true, some 1⟩,
    .send .client [3] emNoTimeout ⟨true, some 1⟩,
    .recv .server 8 emNoTimeout ⟨true, some 2⟩]

theorem short_write_overtaken :
    ¬ ∀ calls pair, Run Step connected calls pair →
      ∀ side, (pair.stream side).delivered <+:
        (pair.stream side).acknowledged := by
  intro always
  have run : Run Step connected shortWrite
      (((connected.after shortWrite[0]).after shortWrite[1]).after
        shortWrite[2]) := by
    refine .cons ⟨⟨by decide, ?_⟩, rfl⟩
      (.cons ⟨⟨by decide, ?_⟩, rfl⟩ (.cons ⟨⟨by decide, ?_⟩, rfl⟩ .nil))
    · rintro len ⟨⟩
      exact ⟨by decide, by decide⟩
    · rintro len ⟨⟩
      exact ⟨by decide, by decide⟩
    · rintro len ⟨⟩
      exact ⟨by decide, by decide, by decide⟩
  exact absurd (always _ _ run .client) (by decide)

end TcpPair

end EmbeddedMiddle
