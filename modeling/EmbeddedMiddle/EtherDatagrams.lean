import EmbeddedMiddle.EtherSockets
import EmbeddedMiddle.Foundation.ByteMemory

/-!
# Datagrams

`em_udp_send`, `em_udp_send2` and `em_udp_recv` of `em_ether.c` over a network
that may lose, repeat and reorder what is sent.  The network and the kernel
answer from outside.
-/

namespace EmbeddedMiddle

open Foundation

/-! ## Packets -/

/-- `unsigned char data[1500]`. -/
def sizeofPacketData : ℕ := 1500

/-- `data` goes on behind the array. -/
structure EmEthpacket where
  length : ℤ
  data : Bytes
  srcAddr : SockaddrIn

structure Datagram where
  src : SockaddrIn
  dst : SockaddrIn
  payload : List UInt8
  deriving DecidableEq

namespace EmEthpacket

/-- What `sendto` reads. -/
def payload (packet : EmEthpacket) : List UInt8 :=
  packet.data.read 0 packet.length.toNat

/-- The packet in which `recvfrom` has put a datagram: what does not fit is
cut off. -/
def received (datagram : Datagram) : EmEthpacket where
  length := (datagram.payload.take sizeofPacketData).length
  data := .ofList (datagram.payload.take sizeofPacketData)
  srcAddr := datagram.src

/-- The packet has the whole datagram, zeros behind it, and its sender. -/
structure Carries (packet : EmEthpacket) (datagram : Datagram) : Prop where
  length : packet.length = datagram.payload.length
  data : packet.data.read 0 sizeofPacketData =
    datagram.payload ++
      List.replicate (sizeofPacketData - datagram.payload.length) 0
  source : packet.srcAddr = datagram.src

theorem received_carries_iff (datagram : Datagram) :
    (received datagram).Carries datagram ↔
      datagram.payload.length ≤ sizeofPacketData := by
  constructor
  · intro carries
    have same : ((datagram.payload.take sizeofPacketData).length : ℤ) =
        datagram.payload.length := carries.length
    rw [List.length_take] at same
    omega
  · intro fits
    have whole : datagram.payload.take sizeofPacketData = datagram.payload :=
      List.take_of_length_le fits
    have zeros (start count : ℕ) :
        Bytes.read (fun _ => 0) start count = List.replicate count 0 := by
      simp [Bytes.read]
    refine ⟨by simp [received, whole], ?_, rfl⟩
    calc
      (received datagram).data.read 0 sizeofPacketData =
          Bytes.read (.ofList datagram.payload) 0
            (datagram.payload.length +
              (sizeofPacketData - datagram.payload.length)) := by
        rw [Nat.add_sub_cancel' fits, received, whole]
      _ = datagram.payload ++ Bytes.read (fun _ => 0) datagram.payload.length
            (sizeofPacketData - datagram.payload.length) :=
        Bytes.read_startingWith_behind _ _ _
      _ = _ := by rw [zeros]

end EmEthpacket

/-! ## Calls -/

/-- The call gets past `select`. -/
def SelectPassed (timeoutMs : ℤ) (ready : Bool) : Prop :=
  timeoutMs = emNoTimeout ∨ ready = true

instance (timeoutMs : ℤ) (ready : Bool) :
    Decidable (SelectPassed timeoutMs ready) :=
  inferInstanceAs (Decidable (_ ∨ _))

section Calls

variable (inetAddr : List UInt8 → UInt32)

/-- The result, and the datagram if `sendto` takes it; `taken` is then the
address that the kernel puts on it.  The result of `sendto` is not looked at. -/
def emUdpSend (sk : SocketRecord) (packet : EmEthpacket) (timeoutMs : ℤ)
    (ready : Bool) (taken : Option SockaddrIn) : ℤ × Option Datagram :=
  if ¬ SelectPassed timeoutMs ready then (emErrTimeout, none)
  else (0, taken.map fun src => ⟨src, sk.remoteAddr, packet.payload⟩)

/-- Unlike `em_socket_set_destination` this accepts an empty string. -/
def emUdpSend2 (packet : EmEthpacket) (destIp : IpString)
    (destPort : UInt16) (timeoutMs : ℤ) (ready : Bool)
    (taken : Option SockaddrIn) : ℤ × Option Datagram :=
  match destIp with
  | none => (emErrParam, none)
  | some ip =>
      if destPort = 0 then (emErrParam, none)
      else if ¬ SelectPassed timeoutMs ready then (emErrTimeout, none)
      else
        (0, taken.map fun src =>
          ⟨src, ⟨htons destPort, inetAddr ip⟩, packet.payload⟩)

/-- `datagram` is `none` when `recvfrom` fails; the packet is then zeroed. -/
def emUdpRecv (packet : EmEthpacket) (timeoutMs : ℤ) (ready : Bool)
    (datagram : Option Datagram) : ℤ × EmEthpacket :=
  if ¬ SelectPassed timeoutMs ready then (emErrTimeout, packet)
  else
    match datagram with
    | none => (-1, ⟨0, fun _ => 0, ⟨0, 0⟩⟩)
    | some datagram => (0, .received datagram)

end Calls

/-! ## The network -/

/-- `sent` has every datagram of a call that returned 0 and whose `sendto` took
it, `flight` those that may still come, and `received` the packets of the calls
of `em_udp_recv` that returned 0. -/
structure UdpNetwork (Var : Type) where
  sk : Var → SocketRecord
  flight : List Datagram
  sent : List Datagram
  received : List (Var × EmEthpacket)

inductive UdpEvent (Var : Type) where
  | setDestination (sk : Var) (destIp : IpString) (destPort : UInt16)
  | send (sk : Var) (packet : EmEthpacket) (timeoutMs : ℤ) (ready : Bool)
      (taken : Option SockaddrIn)
  | send2 (sk : Var) (packet : EmEthpacket) (destIp : IpString)
      (destPort : UInt16) (timeoutMs : ℤ) (ready : Bool)
      (taken : Option SockaddrIn)
  | recv (sk : Var) (packet : EmEthpacket) (timeoutMs : ℤ) (ready : Bool)
      (datagram : Option Datagram)
  | lose (datagram : Datagram)

namespace UdpNetwork

variable {Var : Type} [DecidableEq Var]

def start (sk : Var → SocketRecord) : UdpNetwork Var := ⟨sk, [], [], []⟩

def post (network : UdpNetwork Var) (made : ℤ × Option Datagram) :
    UdpNetwork Var :=
  { network with
    flight := network.flight ++ made.2.toList
    sent := network.sent ++ made.2.toList }

def after (inetAddr : List UInt8 → UInt32) (network : UdpNetwork Var) :
    UdpEvent Var → UdpNetwork Var
  | .setDestination sk destIp destPort =>
      { network with
        sk := Function.update network.sk sk
          (emSocketSetDestination inetAddr (network.sk sk) destIp
            destPort).2 }
  | .send sk packet timeoutMs ready taken =>
      network.post (emUdpSend (network.sk sk) packet timeoutMs ready taken)
  | .send2 _ packet destIp destPort timeoutMs ready taken =>
      network.post (emUdpSend2 inetAddr packet destIp destPort timeoutMs ready
        taken)
  | .recv sk packet timeoutMs ready datagram =>
      let (ret, packet) := emUdpRecv packet timeoutMs ready datagram
      if ret = 0 then
        { network with received := network.received ++ [(sk, packet)] }
      else network
  | .lose datagram =>
      { network with flight := network.flight.erase datagram }

section Runs

variable (inetAddr : List UInt8 → UInt32)
  -- Which sockets the kernel gives a datagram to.
  (Reaches : Datagram → Var → Prop)

/-- `sendto` does not take a negative length, and what comes is under way.  It
may come again. -/
def Answered (network : UdpNetwork Var) : UdpEvent Var → Prop
  | .send _ packet _ _ taken => taken ≠ none → 0 ≤ packet.length
  | .send2 _ packet _ _ _ _ taken => taken ≠ none → 0 ≤ packet.length
  | .recv sk _ _ _ datagram =>
      ∀ came, datagram = some came → came ∈ network.flight ∧ Reaches came sk
  | _ => True

def Step (before : UdpNetwork Var) (event : UdpEvent Var)
    (next : UdpNetwork Var) : Prop :=
  before.Answered Reaches event ∧ next = before.after inetAddr event

/-- What was received is what was sent, whole and to this socket, and so will
be what comes next. -/
structure Sound (network : UdpNetwork Var) : Prop where
  received : ∀ sk packet, (sk, packet) ∈ network.received →
    ∃ datagram ∈ network.sent, Reaches datagram sk ∧ packet.Carries datagram
  coming : ∀ datagram ∈ network.flight, datagram ∈ network.sent ∧
    (EmEthpacket.received datagram).Carries datagram

/-- No packet is sent with more than its array. -/
def Careful (_ : UdpNetwork Var) : UdpEvent Var → Prop
  | .send _ packet timeoutMs ready taken =>
      SelectPassed timeoutMs ready → taken ≠ none →
        packet.length ≤ sizeofPacketData
  | .send2 _ packet destIp destPort timeoutMs ready taken =>
      destIp ≠ none → destPort ≠ 0 → SelectPassed timeoutMs ready →
        taken ≠ none → packet.length ≤ sizeofPacketData
  | _ => True

end Runs

/-! ## One call -/

variable {inetAddr : List UInt8 → UInt32} {Reaches : Datagram → Var → Prop}
  {network before next : UdpNetwork Var} {event : UdpEvent Var}

theorem payload_length (packet : EmEthpacket) (nonneg : 0 ≤ packet.length) :
    (packet.payload.length : ℤ) = packet.length := by
  simp [EmEthpacket.payload, nonneg]

namespace Sound

omit [DecidableEq Var] in
/-- A datagram that is posted must fit into a packet. -/
theorem post_iff (sound : network.Sound Reaches)
    (made : ℤ × Option Datagram) :
    (network.post made).Sound Reaches ↔
      ∀ datagram, made.2 = some datagram →
        datagram.payload.length ≤ sizeofPacketData := by
  constructor
  · intro kept datagram posted
    have there : datagram ∈ network.flight ++ made.2.toList := by
      simp [posted]
    exact (EmEthpacket.received_carries_iff datagram).mp
      (kept.coming datagram there).2
  · intro fits
    refine ⟨?_, ?_⟩
    · intro sk packet member
      obtain ⟨datagram, sent, carried⟩ := sound.received sk packet member
      exact ⟨datagram, List.mem_append_left _ sent, carried⟩
    · intro datagram member
      rcases List.mem_append.mp member with earlier | posted
      · obtain ⟨sent, carries⟩ := sound.coming datagram earlier
        exact ⟨List.mem_append_left _ sent, carries⟩
      · refine ⟨List.mem_append_right _ posted, ?_⟩
        apply (EmEthpacket.received_carries_iff datagram).mpr
        exact fits datagram (Option.mem_toList.mp posted)

omit [DecidableEq Var] in
theorem send_iff (sound : network.Sound Reaches) {sk : SocketRecord}
    {packet : EmEthpacket} {timeoutMs : ℤ} {ready : Bool}
    {taken : Option SockaddrIn} (nonneg : taken ≠ none → 0 ≤ packet.length) :
    (network.post
        (emUdpSend sk packet timeoutMs ready taken)).Sound Reaches ↔
      (SelectPassed timeoutMs ready → taken ≠ none →
        packet.length ≤ sizeofPacketData) := by
  rw [sound.post_iff]
  by_cases passed : SelectPassed timeoutMs ready
  · cases taken with
    | none => simp [emUdpSend, passed]
    | some src =>
        have length := payload_length packet (nonneg nofun)
        have same : packet.payload.length ≤ sizeofPacketData ↔
            packet.length ≤ sizeofPacketData := by
          omega
        simpa [emUdpSend, passed] using same
  · simp [emUdpSend, passed]

omit [DecidableEq Var] in
theorem send2_iff (sound : network.Sound Reaches) {packet : EmEthpacket}
    {destIp : IpString} {destPort : UInt16} {timeoutMs : ℤ} {ready : Bool}
    {taken : Option SockaddrIn} (nonneg : taken ≠ none → 0 ≤ packet.length) :
    (network.post (emUdpSend2 inetAddr packet destIp destPort timeoutMs ready
        taken)).Sound Reaches ↔
      (destIp ≠ none → destPort ≠ 0 → SelectPassed timeoutMs ready →
        taken ≠ none → packet.length ≤ sizeofPacketData) := by
  cases destIp with
  | none =>
      rw [sound.post_iff]
      simp [emUdpSend2]
  | some ip =>
      by_cases zero : destPort = 0
      · rw [sound.post_iff]
        simp [emUdpSend2, zero]
      · have same : ∀ sk : SocketRecord,
            sk.remoteAddr = ⟨htons destPort, inetAddr ip⟩ →
            emUdpSend2 inetAddr packet (some ip) destPort timeoutMs ready
                taken =
              emUdpSend sk packet timeoutMs ready taken := by
          intro sk remote
          simp only [emUdpSend2, emUdpSend, if_neg zero, remote]
        rw [same ⟨⟨false⟩, 0, ⟨0, 0⟩, ⟨htons destPort, inetAddr ip⟩⟩ rfl,
          sound.send_iff nonneg]
        simp [zero]

theorem recv (sound : network.Sound Reaches) {sk : Var}
    {packet : EmEthpacket} {timeoutMs : ℤ} {ready : Bool}
    {datagram : Option Datagram}
    (answered : network.Answered Reaches
      (.recv sk packet timeoutMs ready datagram)) :
    (network.after inetAddr
      (.recv sk packet timeoutMs ready datagram)).Sound Reaches := by
  by_cases passed : SelectPassed timeoutMs ready
  · cases datagram with
    | none => simpa [after, emUdpRecv, passed] using sound
    | some came =>
        obtain ⟨underway, reaches⟩ := answered came rfl
        obtain ⟨sent, carries⟩ := sound.coming came underway
        simp only [after, emUdpRecv, passed, not_true, if_false, if_true]
        refine ⟨?_, sound.coming⟩
        intro other delivered member
        rcases List.mem_append.mp member with earlier | last
        · exact sound.received other delivered earlier
        · obtain ⟨rfl, rfl⟩ := Prod.mk.inj (List.mem_singleton.mp last)
          exact ⟨came, sent, reaches, carries⟩
  · simpa [after, emUdpRecv, passed, emErrTimeout] using sound

theorem step_iff (sound : before.Sound Reaches)
    (step : before.Step inetAddr Reaches event next) :
    next.Sound Reaches ↔ before.Careful event := by
  obtain ⟨answered, rfl⟩ := step
  cases event with
  | setDestination =>
      exact iff_of_true ⟨sound.received, sound.coming⟩ trivial
  | send => exact sound.send_iff answered
  | send2 => exact sound.send2_iff answered
  | recv => exact iff_of_true (sound.recv answered) trivial
  | lose datagram =>
      refine iff_of_true ⟨sound.received, ?_⟩ trivial
      intro other member
      exact sound.coming other (List.mem_of_mem_erase member)

end Sound

/-- Whatever the network does, every packet that is received is, with its
length and sender and nothing behind it, one that was sent, if and only if no
packet is sent with more than its array. -/
theorem datagrams_whole_iff {sk : Var → SocketRecord}
    {events : List (UdpEvent Var)} {network : UdpNetwork Var} :
    Run (Upholding (fun _ _ next => next.Sound Reaches)
        (Step inetAddr Reaches)) (start sk) events network ↔
      Run (Guarded Careful (Step inetAddr Reaches)) (start sk) events
        network := by
  apply Run.upholding_iff (fun network => network.Sound Reaches)
  · exact ⟨nofun, nofun⟩
  · rintro before event next sound ⟨careful, step⟩
    exact (sound.step_iff step).mpr careful
  · intro before event next sound step
    exact sound.step_iff step

end UdpNetwork

end EmbeddedMiddle
