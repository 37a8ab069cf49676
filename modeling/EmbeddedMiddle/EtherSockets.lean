import EmbeddedMiddle.Ether
import EmbeddedMiddle.Foundation.NamedHandles

/-!
# Opening and closing sockets

The functions of `em_ether.c` that open and close, on all the socket variables
of a program and the descriptors that these functions have open.  What the
kernel answers is given from outside.
-/

namespace EmbeddedMiddle

open Foundation

/-! ## One socket -/

def emEtherTypeUdp : ℤ := 1
def emEtherTypeTcp : ℤ := 2

/-- Network byte order on a little endian machine. -/
def htons (port : UInt16) : UInt16 := port <<< 8 ||| port >>> 8

/-- `sin_family` is always `AF_INET`. -/
structure SockaddrIn where
  sinPort : UInt16
  sAddr : UInt32
  deriving DecidableEq, Repr

/-- All of `em_socket_t` that is read or written. -/
structure SocketRecord extends EmSocket where
  sock : ℤ
  localAddr : SockaddrIn
  remoteAddr : SockaddrIn
  deriving DecidableEq, Repr

/-- The answers of the kernel while a socket is opened: the descriptors of
`socket` and `accept`, the peer that was accepted, and whether `bind`,
`connect` and `listen` return 0. -/
structure OpeningAnswer where
  socket : Option ℤ
  bound : Bool
  connected : Bool
  listening : Bool
  accepted : Option (ℤ × SockaddrIn)
  deriving DecidableEq, Repr

/-- A string of the caller or `NULL`, without the final `'\0'`. -/
abbrev IpString := Option (List UInt8)

section Calls

variable (inetAddr : List UInt8 → UInt32)

/-- The descriptors that are open are read and written as well. -/
def emSocketInit (sk : SocketRecord) (type : ℤ) (localIp : IpString)
    (localPort : UInt16) (answer : OpeningAnswer) (live : Finset ℤ) :
    ℤ × SocketRecord × Finset ℤ :=
  let sk := { sk with isConnected := false }
  if type ≠ emEtherTypeUdp ∧ type ≠ emEtherTypeTcp then (emErrParam, sk, live)
  else
    match answer.socket with
    | none => (-1, { sk with sock := -1 }, live)
    | some sock =>
        let sk := { sk with sock }
        let live := insert sock live
        match localIp with
        | none => (0, sk, live)
        | some ip =>
            let sk := { sk with localAddr := ⟨htons localPort, inetAddr ip⟩ }
            if answer.bound = false then (-1, sk, live.erase sock)
            else (0, sk, live)

def emSocketClose (sk : SocketRecord) (live : Finset ℤ) : Finset ℤ :=
  live.erase sk.sock

def emSocketSetDestination (sk : SocketRecord) (destIp : IpString)
    (destPort : UInt16) : ℤ × SocketRecord :=
  match destIp with
  | none => (emErrParam, sk)
  | some ip =>
      if ip = [] ∨ destPort = 0 then (emErrParam, sk)
      else (0, { sk with remoteAddr := ⟨htons destPort, inetAddr ip⟩ })

def emUdpTxInit (sk : SocketRecord) (localIp : IpString) (localPort : UInt16)
    (destIp : IpString) (destPort : UInt16) (answer : OpeningAnswer)
    (live : Finset ℤ) : ℤ × SocketRecord × Finset ℤ :=
  let (ret, sk, live) :=
    emSocketInit inetAddr sk emEtherTypeUdp localIp localPort answer live
  if ret ≠ 0 then (-1, sk, live)
  else
    let (ret, sk) := emSocketSetDestination inetAddr sk destIp destPort
    if ret ≠ 0 then (-2, sk, live) else (0, sk, live)

def emUdpRxInit (sk : SocketRecord) (localIp : IpString) (localPort : UInt16)
    (answer : OpeningAnswer) (live : Finset ℤ) :
    ℤ × SocketRecord × Finset ℤ :=
  let (ret, sk, live) :=
    emSocketInit inetAddr sk emEtherTypeUdp localIp localPort answer live
  (if ret ≠ 0 then -1 else 0, sk, live)

def emTcpConnectClient (sk : SocketRecord) (localIp : IpString)
    (localPort : UInt16) (destIp : IpString) (destPort : UInt16)
    (answer : OpeningAnswer) (live : Finset ℤ) :
    ℤ × SocketRecord × Finset ℤ :=
  let (ret, sk) := emSocketSetDestination inetAddr sk destIp destPort
  if ret ≠ 0 then (ret, sk, live)
  else
    let (ret, sk, live) :=
      emSocketInit inetAddr sk emEtherTypeTcp localIp localPort answer live
    if ret ≠ 0 then (ret, sk, live)
    else if answer.connected = false then (-1, sk, live.erase sk.sock)
    else (0, { sk with isConnected := true }, live)

/-- `shutdown` answers what it wants. -/
def emTcpDisconnect (sk : SocketRecord) (live : Finset ℤ) :
    SocketRecord × Finset ℤ :=
  let sk := { sk with isConnected := false }
  (sk, emSocketClose sk live)

end Calls

/-! ## What opening does -/

/-- New descriptors are not those that are open. -/
def OpeningAnswer.Fresh (answer : OpeningAnswer) (live : Finset ℤ) : Prop :=
  (∀ sock, answer.socket = some sock → 0 ≤ sock ∧ sock ∉ live) ∧
  ∀ sock addr, answer.accepted = some (sock, addr) →
    0 ≤ sock ∧ sock ∉ live ∧ answer.socket ≠ some sock

/-- `socket` and `bind` succeed. -/
def OpeningAnswer.Opens (answer : OpeningAnswer) (localIp : IpString) : Prop :=
  answer.socket ≠ none ∧ (localIp ≠ none → answer.bound = true)

/-- `listen` and `accept` succeed as well. -/
def OpeningAnswer.Serves (answer : OpeningAnswer) (localIp : IpString) :
    Prop :=
  answer.Opens localIp ∧ answer.listening = true ∧ answer.accepted ≠ none

def KnownType (type : ℤ) : Prop :=
  type = emEtherTypeUdp ∨ type = emEtherTypeTcp

def ValidDestination (destIp : IpString) (destPort : UInt16) : Prop :=
  destIp ≠ none ∧ destIp ≠ some [] ∧ destPort ≠ 0

section Calls

variable {inetAddr : List UInt8 → UInt32} {sk : SocketRecord} {type : ℤ}
  {localIp destIp : IpString} {localPort destPort : UInt16}
  {answer : OpeningAnswer} {live : Finset ℤ}

theorem emSocketInit_unknown (unknown : ¬ KnownType type) :
    emSocketInit inetAddr sk type localIp localPort answer live =
      (emErrParam, { sk with isConnected := false }, live) := by
  have neither : type ≠ emEtherTypeUdp ∧ type ≠ emEtherTypeTcp :=
    not_or.mp unknown
  unfold emSocketInit
  rw [if_pos neither]

theorem emSocketInit_opens (known : KnownType type)
    (fresh : answer.Fresh live) (opens : answer.Opens localIp) :
    ∃ new : SocketRecord,
      0 ≤ new.sock ∧ new.sock ∉ live ∧ new.isConnected = false ∧
      answer.socket = some new.sock ∧
      emSocketInit inetAddr sk type localIp localPort answer live =
        (0, new, insert new.sock live) := by
  have notNeither : ¬ (type ≠ emEtherTypeUdp ∧ type ≠ emEtherTypeTcp) :=
    fun neither => not_or.mpr neither known
  obtain ⟨sock, made⟩ := Option.ne_none_iff_exists'.mp opens.1
  obtain ⟨nonneg, new⟩ := fresh.1 sock made
  unfold emSocketInit
  rw [if_neg notNeither, made]
  cases localIp with
  | none => exact ⟨_, nonneg, new, rfl, rfl, rfl⟩
  | some ip =>
      have bound : answer.bound = true := opens.2 nofun
      refine ⟨{ sk with
        isConnected := false
        sock
        localAddr := ⟨htons localPort, inetAddr ip⟩ },
        nonneg, new, rfl, rfl, ?_⟩
      simp [bound]

/-- What is left in the variable is then no open descriptor. -/
theorem emSocketInit_fails (known : KnownType type)
    (invalid : -1 ∉ live) (fresh : answer.Fresh live)
    (fails : ¬ answer.Opens localIp) :
    ∃ new : SocketRecord, new.sock ∉ live ∧ new.isConnected = false ∧
      emSocketInit inetAddr sk type localIp localPort answer live =
        (-1, new, live) := by
  have notNeither : ¬ (type ≠ emEtherTypeUdp ∧ type ≠ emEtherTypeTcp) :=
    fun neither => not_or.mpr neither known
  unfold emSocketInit
  rw [if_neg notNeither]
  cases made : answer.socket with
  | none => exact ⟨_, invalid, rfl, rfl⟩
  | some sock =>
      obtain ⟨_, new⟩ := fresh.1 sock made
      cases localIp with
      | none => exact absurd ⟨by simp [made], nofun⟩ fails
      | some ip =>
          have notBound : answer.bound = false := by
            by_contra bound
            refine fails ⟨by simp [made], fun _ => ?_⟩
            simpa using bound
          refine ⟨{ sk with
            isConnected := false
            sock
            localAddr := ⟨htons localPort, inetAddr ip⟩ }, new, rfl, ?_⟩
          simp [notBound, Finset.erase_insert new]

/-- The only failure has the same return value. -/
theorem emUdpRxInit_eq :
    emUdpRxInit inetAddr sk localIp localPort answer live =
      emSocketInit inetAddr sk emEtherTypeUdp localIp localPort answer
        live := by
  unfold emUdpRxInit emSocketInit
  cases answer.socket with
  | none => rfl
  | some sock =>
      cases localIp with
      | none => rfl
      | some ip => cases answer.bound <;> rfl

theorem emSocketSetDestination_valid
    (valid : ValidDestination destIp destPort) :
    ∃ remoteAddr, emSocketSetDestination inetAddr sk destIp destPort =
      (0, { sk with remoteAddr }) := by
  obtain ⟨given, notEmpty, port⟩ := valid
  cases destIp with
  | none => exact absurd rfl given
  | some ip =>
      have accepted : ¬ (ip = [] ∨ destPort = 0) := by
        rintro (rfl | zero)
        · exact notEmpty rfl
        · exact port zero
      exact ⟨_, if_neg accepted⟩

theorem emSocketSetDestination_invalid
    (invalid : ¬ ValidDestination destIp destPort) :
    emSocketSetDestination inetAddr sk destIp destPort = (emErrParam, sk) := by
  cases destIp with
  | none => rfl
  | some ip =>
      refine if_pos ?_
      by_contra accepted
      obtain ⟨notEmpty, port⟩ := not_or.mp accepted
      exact invalid ⟨nofun, by simpa using notEmpty, port⟩

/-! ### Only descriptors are open -/

theorem emSocketInit_valid (invalid : -1 ∉ live)
    (fresh : answer.Fresh live) :
    -1 ∉ (emSocketInit inetAddr sk type localIp localPort answer
      live).2.2 := by
  by_cases known : KnownType type
  · by_cases opens : answer.Opens localIp
    · obtain ⟨new, nonneg, _, _, _, made⟩ :=
        @emSocketInit_opens inetAddr sk _ _ localPort _ _ known fresh opens
      rw [made]
      dsimp only
      rw [Finset.mem_insert, not_or]
      exact ⟨by omega, invalid⟩
    · obtain ⟨new, _, _, made⟩ :=
        @emSocketInit_fails inetAddr sk _ _ localPort _ _ known invalid fresh
          opens
      rwa [made]
  · rwa [emSocketInit_unknown known]

theorem emUdpTxInit_valid (invalid : -1 ∉ live)
    (fresh : answer.Fresh live) :
    -1 ∉ (emUdpTxInit inetAddr sk localIp localPort destIp destPort answer
      live).2.2 := by
  have initialized := @emSocketInit_valid inetAddr sk emEtherTypeUdp localIp
    localPort answer live invalid fresh
  unfold emUdpTxInit
  dsimp only
  split_ifs <;> exact initialized

theorem emTcpConnectClient_valid (invalid : -1 ∉ live)
    (fresh : answer.Fresh live) :
    -1 ∉ (emTcpConnectClient inetAddr sk localIp localPort destIp destPort
      answer live).2.2 := by
  have initialized := @emSocketInit_valid inetAddr
    (emSocketSetDestination inetAddr sk destIp destPort).2 emEtherTypeTcp
    localIp localPort answer live invalid fresh
  unfold emTcpConnectClient
  dsimp only
  split_ifs
  · exact invalid
  · exact initialized
  · exact fun open' => initialized (Finset.mem_of_mem_erase open')
  · exact initialized

end Calls

/-! ## All sockets -/

/-- The socket variables, the descriptors that are open, and the variables
whose opening call has returned 0 and that were not closed since. -/
structure Sockets (Var : Type) where
  sk : Var → SocketRecord
  live : Finset ℤ
  held : Finset Var

inductive SocketCall (Var : Type) where
  | socketInit (sk : Var) (type : ℤ) (localIp : IpString)
      (localPort : UInt16) (answer : OpeningAnswer)
  | socketClose (sk : Option Var)
  | socketSetDestination (sk : Var) (destIp : IpString) (destPort : UInt16)
  | udpTxInit (sk : Var) (localIp : IpString) (localPort : UInt16)
      (destIp : IpString) (destPort : UInt16) (answer : OpeningAnswer)
  | udpRxInit (sk : Var) (localIp : IpString) (localPort : UInt16)
      (answer : OpeningAnswer)
  | tcpConnectClient (sk : Var) (localIp : IpString) (localPort : UInt16)
      (destIp : IpString) (destPort : UInt16) (answer : OpeningAnswer)
  | tcpConnectServer (skListen skClient : Var) (localIp : IpString)
      (localPort : UInt16) (answer : OpeningAnswer)
  | tcpDisconnect (sk : Option Var)

namespace Sockets

variable {Var : Type} [DecidableEq Var]

/-- A call that opens one socket has returned and written this. -/
def put (sockets : Sockets Var) (var : Var)
    (made : ℤ × SocketRecord × Finset ℤ) : Sockets Var where
  sk := Function.update sockets.sk var made.2.1
  live := made.2.2
  held := if made.1 = 0 then insert var sockets.held else sockets.held

section Calls

variable (inetAddr : List UInt8 → UInt32)

/-- The two variables may be one. -/
def emTcpConnectServer (sockets : Sockets Var) (skListen skClient : Var)
    (localIp : IpString) (localPort : UInt16) (answer : OpeningAnswer) :
    ℤ × Sockets Var :=
  let (ret, listen, live) := emSocketInit inetAddr (sockets.sk skListen)
    emEtherTypeTcp localIp localPort answer sockets.live
  let sockets := { sockets with
    sk := Function.update sockets.sk skListen listen
    live }
  if ret ≠ 0 then (-1, sockets)
  else if answer.listening = false then
    (-1, { sockets with live := live.erase listen.sock })
  else
    match answer.accepted with
    | none => (-1, { sockets with live := live.erase listen.sock })
    | some (sock, remoteAddr) =>
        let client := { sockets.sk skClient with
          sock
          isConnected := true
          localAddr := listen.localAddr
          remoteAddr }
        (0, { sk := Function.update sockets.sk skClient client
              live := insert sock live
              held := insert skClient (insert skListen sockets.held) })

def after (sockets : Sockets Var) : SocketCall Var → Sockets Var
  | .socketInit sk type localIp localPort answer =>
      sockets.put sk (emSocketInit inetAddr (sockets.sk sk) type localIp
        localPort answer sockets.live)
  | .socketClose none => sockets
  | .socketClose (some sk) =>
      { sockets with
        live := emSocketClose (sockets.sk sk) sockets.live
        held := sockets.held.erase sk }
  | .socketSetDestination sk destIp destPort =>
      { sockets with
        sk := Function.update sockets.sk sk
          (emSocketSetDestination inetAddr (sockets.sk sk) destIp
            destPort).2 }
  | .udpTxInit sk localIp localPort destIp destPort answer =>
      sockets.put sk (emUdpTxInit inetAddr (sockets.sk sk) localIp localPort
        destIp destPort answer sockets.live)
  | .udpRxInit sk localIp localPort answer =>
      sockets.put sk (emUdpRxInit inetAddr (sockets.sk sk) localIp localPort
        answer sockets.live)
  | .tcpConnectClient sk localIp localPort destIp destPort answer =>
      sockets.put sk (emTcpConnectClient inetAddr (sockets.sk sk) localIp
        localPort destIp destPort answer sockets.live)
  | .tcpConnectServer skListen skClient localIp localPort answer =>
      (sockets.emTcpConnectServer inetAddr skListen skClient localIp
        localPort answer).2
  | .tcpDisconnect none => sockets
  | .tcpDisconnect (some sk) =>
      let (record, live) := emTcpDisconnect (sockets.sk sk) sockets.live
      { sk := Function.update sockets.sk sk record
        live
        held := sockets.held.erase sk }

end Calls

/-- Fresh descriptors for a call that asks for some. -/
def Answered (sockets : Sockets Var) : SocketCall Var → Prop
  | .socketInit _ _ _ _ answer => answer.Fresh sockets.live
  | .udpTxInit _ _ _ _ _ answer => answer.Fresh sockets.live
  | .udpRxInit _ _ _ answer => answer.Fresh sockets.live
  | .tcpConnectClient _ _ _ _ _ answer => answer.Fresh sockets.live
  | .tcpConnectServer _ _ _ _ answer => answer.Fresh sockets.live
  | _ => True

def Step (inetAddr : List UInt8 → UInt32) (before : Sockets Var)
    (call : SocketCall Var) (next : Sockets Var) : Prop :=
  before.Answered call ∧ next = before.after inetAddr call

section Server

variable {sockets : Sockets Var} {inetAddr : List UInt8 → UInt32}
  {localIp : IpString} {localPort : UInt16} {answer : OpeningAnswer}

theorem emTcpConnectServer_fails (fails : ¬ answer.Serves localIp)
    (skListen skClient : Var)
    (invalid : -1 ∉ sockets.live) (fresh : answer.Fresh sockets.live) :
    ∃ new : SocketRecord,
      new.sock ∉ sockets.live ∧ new.isConnected = false ∧
      sockets.emTcpConnectServer inetAddr skListen skClient localIp localPort
        answer = (-1, sockets.put skListen (-1, new, sockets.live)) := by
  have known : KnownType emEtherTypeTcp := .inr rfl
  by_cases opens : answer.Opens localIp
  · obtain ⟨new, _, isNew, closed, same, made⟩ :=
      @emSocketInit_opens inetAddr (sockets.sk skListen) _ _ localPort _ _
        known fresh opens
    refine ⟨new, isNew, closed, ?_⟩
    simp only [emTcpConnectServer, made, ne_eq, not_true, if_false,
      Finset.erase_insert isNew]
    by_cases listening : answer.listening = true
    · have notAccepted : answer.accepted = none := by
        by_contra accepted
        exact fails ⟨opens, listening, accepted⟩
      simp [listening, notAccepted, put]
    · simp [listening, put]
  · obtain ⟨new, dead, closed, made⟩ :=
      @emSocketInit_fails inetAddr (sockets.sk skListen) _ _ localPort _ _
        known invalid fresh opens
    refine ⟨new, dead, closed, ?_⟩
    simp [emTcpConnectServer, made, put]

theorem emTcpConnectServer_serves (serves : answer.Serves localIp)
    (skListen skClient : Var)
    (fresh : answer.Fresh sockets.live) :
    ∃ listen client : SocketRecord,
      0 ≤ listen.sock ∧ listen.sock ∉ sockets.live ∧ 0 ≤ client.sock ∧
      client.sock ∉ insert listen.sock sockets.live ∧
      listen.isConnected = false ∧
      sockets.emTcpConnectServer inetAddr skListen skClient localIp localPort
        answer =
          (0, { sk := Function.update
                  (Function.update sockets.sk skListen listen) skClient client
                live := insert client.sock (insert listen.sock sockets.live)
                held := insert skClient (insert skListen sockets.held) }) := by
  have known : KnownType emEtherTypeTcp := .inr rfl
  obtain ⟨opens, listening, accepts⟩ := serves
  obtain ⟨⟨sock, remoteAddr⟩, accepted⟩ :=
    Option.ne_none_iff_exists'.mp accepts
  obtain ⟨listen, nonneg, isNew, closed, same, made⟩ :=
    @emSocketInit_opens inetAddr (sockets.sk skListen) _ _ localPort _ _
      known fresh opens
  obtain ⟨otherNonneg, otherNew, different⟩ :=
    fresh.2 sock remoteAddr accepted
  have fresher : sock ∉ insert listen.sock sockets.live := by
    rw [Finset.mem_insert, not_or]
    refine ⟨?_, otherNew⟩
    rintro rfl
    exact different same
  refine ⟨listen, { Function.update sockets.sk skListen listen skClient with
    sock
    isConnected := true
    localAddr := listen.localAddr
    remoteAddr }, nonneg, isNew, otherNonneg, fresher, closed, ?_⟩
  simp [emTcpConnectServer, made, listening, accepted]

end Server

/-! ## Who owns the descriptors -/

def handles (records : Var → SocketRecord) (var : Var) : ℤ :=
  (records var).sock

theorem handles_update (records : Var → SocketRecord) (var : Var)
    (new : SocketRecord) :
    handles (Function.update records var new) =
      Function.update (handles records) var new.sock := by
  funext other
  exact Function.apply_update (fun _ record => record.sock) records var new
    other

/-- No descriptor is lost or closed under a variable in use, and what says that
it is connected is in use. -/
structure Sound (sockets : Sockets Var) : Prop where
  named : Named (handles sockets.sk) sockets.held sockets.live
  connected : ∀ var, (sockets.sk var).isConnected = true → var ∈ sockets.held

namespace Sound

variable {sockets : Sockets Var} {var : Var} {new : SocketRecord} {ret : ℤ}

theorem connected_update (sound : sockets.Sound)
    (closed : new.isConnected = false) (other : Var)
    (connected :
      (Function.update sockets.sk var new other).isConnected = true) :
    other ∈ sockets.held := by
  by_cases here : other = var
  · rw [here, Function.update_self, closed] at connected
    cases connected
  · rw [Function.update_of_ne here] at connected
    exact sound.connected other connected

theorem rewritten (sound : sockets.Sound)
    (same : new.sock = (sockets.sk var).sock)
    (fewer : new.isConnected = true →
      (sockets.sk var).isConnected = true) :
    Sound { sockets with sk := Function.update sockets.sk var new } where
  named := by
    have unmoved : handles (Function.update sockets.sk var new) =
        handles sockets.sk := by
      rw [handles_update, same]
      exact Function.update_eq_self var (handles sockets.sk)
    rw [unmoved]
    exact sound.named
  connected := by
    intro other connected
    dsimp only at connected ⊢
    by_cases here : other = var
    · rw [here, Function.update_self] at connected
      rw [here]
      exact sound.connected var (fewer connected)
    · rw [Function.update_of_ne here] at connected
      exact sound.connected other connected

theorem put_refused (sound : sockets.Sound) (refused : ret ≠ 0)
    (same : new.sock = (sockets.sk var).sock)
    (fewer : new.isConnected = true →
      (sockets.sk var).isConnected = true) :
    (sockets.put var (ret, new, sockets.live)).Sound := by
  have records := sound.rewritten same fewer
  simpa [put, refused] using records

/-- What is no open descriptor may be written where none is in use. -/
theorem put_failed_iff (sound : sockets.Sound) (failed : ret ≠ 0)
    (dead : new.sock ∉ sockets.live) (closed : new.isConnected = false) :
    (sockets.put var (ret, new, sockets.live)).Sound ↔
      var ∉ sockets.held := by
  rw [← sound.named.update_iff dead, ← handles_update]
  simp only [put, if_neg failed]
  constructor
  · intro kept
    exact kept.named
  · intro named
    exact ⟨named, sound.connected_update closed⟩

theorem put_opened_iff (sound : sockets.Sound)
    (fresh : new.sock ∉ sockets.live) :
    (sockets.put var (0, new, insert new.sock sockets.live)).Sound ↔
      var ∉ sockets.held := by
  rw [← sound.named.acquire_iff fresh, ← handles_update]
  simp only [put, if_true]
  constructor
  · intro kept
    exact kept.named
  · intro named
    refine ⟨named, ?_⟩
    intro other connected
    dsimp only at connected ⊢
    by_cases here : other = var
    · rw [here]
      exact Finset.mem_insert_self _ _
    · rw [Function.update_of_ne here] at connected
      exact Finset.mem_insert_of_mem (sound.connected other connected)

/-- A descriptor that is left open by a call that fails is lost. -/
theorem not_put_lost (sound : sockets.Sound) (failed : ret ≠ 0)
    (fresh : new.sock ∉ sockets.live) :
    ¬ (sockets.put var (ret, new, insert new.sock sockets.live)).Sound := by
  intro kept
  have named := kept.named
  simp only [put, if_neg failed] at named
  exact sound.named.not_more fresh named

/-! ## One call -/

variable {inetAddr : List UInt8 → UInt32} {type : ℤ}
  {localIp destIp : IpString} {localPort destPort : UInt16}
  {answer : OpeningAnswer}

theorem put_init_iff (sound : sockets.Sound) (invalid : -1 ∉ sockets.live)
    (fresh : answer.Fresh sockets.live) (known : KnownType type) :
    (sockets.put var (emSocketInit inetAddr (sockets.sk var) type localIp
        localPort answer sockets.live)).Sound ↔ var ∉ sockets.held := by
  by_cases opens : answer.Opens localIp
  · obtain ⟨new, _, isNew, _, _, made⟩ :=
      @emSocketInit_opens inetAddr (sockets.sk var) _ _ localPort _ _ known
        fresh opens
    rw [made]
    exact sound.put_opened_iff isNew
  · obtain ⟨new, dead, closed, made⟩ :=
      @emSocketInit_fails inetAddr (sockets.sk var) _ _ localPort _ _ known
        invalid fresh opens
    rw [made]
    exact sound.put_failed_iff (by decide) dead closed

theorem socketInit_iff (sound : sockets.Sound) (invalid : -1 ∉ sockets.live)
    (fresh : answer.Fresh sockets.live) :
    (sockets.after inetAddr
        (.socketInit var type localIp localPort answer)).Sound ↔
      (KnownType type → var ∉ sockets.held) := by
  by_cases known : KnownType type
  · rw [imp_iff_right known]
    exact sound.put_init_iff invalid fresh known
  · simp only [after, emSocketInit_unknown known]
    refine iff_of_true ?_ (fun other => absurd other known)
    exact sound.put_refused (by decide) rfl nofun

/-- The socket stays open when the destination is refused after it was
opened. -/
theorem udpTxInit_iff (sound : sockets.Sound) (invalid : -1 ∉ sockets.live)
    (fresh : answer.Fresh sockets.live) :
    (sockets.after inetAddr
        (.udpTxInit var localIp localPort destIp destPort answer)).Sound ↔
      var ∉ sockets.held ∧
        (answer.Opens localIp → ValidDestination destIp destPort) := by
  have known : KnownType emEtherTypeUdp := .inl rfl
  by_cases opens : answer.Opens localIp
  · obtain ⟨new, _, isNew, _, _, made⟩ :=
      @emSocketInit_opens inetAddr (sockets.sk var) _ _ localPort _ _ known
        fresh opens
    rw [imp_iff_right opens]
    by_cases valid : ValidDestination destIp destPort
    · obtain ⟨remoteAddr, accepted⟩ :=
        @emSocketSetDestination_valid inetAddr new _ _ valid
      simp only [after, emUdpTxInit, made, accepted, ne_eq, not_true,
        if_false, and_iff_left valid]
      exact @put_opened_iff _ _ _ _ { new with remoteAddr } sound isNew
    · simp only [after, emUdpTxInit, made,
        emSocketSetDestination_invalid valid, ne_eq, not_true, if_false]
      rw [if_pos (by decide)]
      refine iff_of_false (sound.not_put_lost (by decide) isNew) ?_
      rintro ⟨_, accepted⟩
      exact valid accepted
  · obtain ⟨new, dead, closed, made⟩ :=
      @emSocketInit_fails inetAddr (sockets.sk var) _ _ localPort _ _ known
        invalid fresh opens
    simp only [after, emUdpTxInit, made]
    rw [if_pos (by decide), and_iff_left (fun other => absurd other opens)]
    exact sound.put_failed_iff (by decide) dead closed

theorem udpRxInit_iff (sound : sockets.Sound) (invalid : -1 ∉ sockets.live)
    (fresh : answer.Fresh sockets.live) :
    (sockets.after inetAddr
        (.udpRxInit var localIp localPort answer)).Sound ↔
      var ∉ sockets.held := by
  simp only [after, emUdpRxInit_eq]
  exact sound.put_init_iff invalid fresh (.inl rfl)

theorem tcpConnectClient_iff (sound : sockets.Sound)
    (invalid : -1 ∉ sockets.live) (fresh : answer.Fresh sockets.live) :
    (sockets.after inetAddr (.tcpConnectClient var localIp localPort destIp
        destPort answer)).Sound ↔
      (ValidDestination destIp destPort → var ∉ sockets.held) := by
  have known : KnownType emEtherTypeTcp := .inr rfl
  by_cases valid : ValidDestination destIp destPort
  · obtain ⟨remoteAddr, accepted⟩ :=
      @emSocketSetDestination_valid inetAddr (sockets.sk var) _ _ valid
    rw [imp_iff_right valid]
    by_cases opens : answer.Opens localIp
    · obtain ⟨new, _, isNew, closed, _, made⟩ :=
        @emSocketInit_opens inetAddr { sockets.sk var with remoteAddr } _ _
          localPort _ _ known fresh opens
      simp only [after, emTcpConnectClient, accepted, made, ne_eq, not_true,
        if_false]
      by_cases connects : answer.connected = false
      · rw [if_pos connects, Finset.erase_insert isNew]
        exact sound.put_failed_iff (by decide) isNew closed
      · rw [if_neg connects]
        exact @put_opened_iff _ _ _ _ { new with isConnected := true } sound
          isNew
    · obtain ⟨new, dead, closed, made⟩ :=
        @emSocketInit_fails inetAddr { sockets.sk var with remoteAddr } _ _
          localPort _ _ known invalid fresh opens
      simp only [after, emTcpConnectClient, accepted, made, ne_eq, not_true,
        if_false]
      rw [if_pos (by decide)]
      exact sound.put_failed_iff (by decide) dead closed
  · simp only [after, emTcpConnectClient,
      emSocketSetDestination_invalid valid]
    rw [if_pos (by decide)]
    refine iff_of_true ?_ (fun other => absurd other valid)
    exact sound.put_refused (by decide) rfl id

theorem tcpConnectServer_iff {skListen skClient : Var}
    (sound : sockets.Sound) (invalid : -1 ∉ sockets.live)
    (fresh : answer.Fresh sockets.live) :
    (sockets.after inetAddr (.tcpConnectServer skListen skClient localIp
        localPort answer)).Sound ↔
      skListen ∉ sockets.held ∧
        (answer.Serves localIp →
          skClient ∉ insert skListen sockets.held) := by
  by_cases serves : answer.Serves localIp
  · rw [imp_iff_right serves]
    obtain ⟨listen, client, _, isNew, _, fresher, closed, made⟩ :=
      @emTcpConnectServer_serves _ _ sockets inetAddr _ localPort _ serves
        skListen skClient fresh
    rw [← sound.named.acquire_two_iff isNew fresher, ← handles_update,
      ← handles_update]
    simp only [after, made]
    constructor
    · intro kept
      exact kept.named
    · intro named
      refine ⟨named, ?_⟩
      intro other connected
      dsimp only at connected ⊢
      by_cases here : other = skClient
      · rw [here]
        exact Finset.mem_insert_self _ _
      · rw [Function.update_of_ne here] at connected
        exact Finset.mem_insert_of_mem (Finset.mem_insert_of_mem
          (sound.connected_update closed other connected))
  · obtain ⟨new, dead, closed, made⟩ :=
      @emTcpConnectServer_fails _ _ sockets inetAddr _ localPort _ serves
        skListen skClient invalid fresh
    rw [and_iff_left (fun other => absurd other serves)]
    simp only [after, made]
    exact sound.put_failed_iff (by decide) dead closed

/-- A variable that is closed keeps what it says of the connection. -/
theorem socketClose_iff (sound : sockets.Sound) :
    (sockets.after inetAddr (.socketClose (some var))).Sound ↔
      (var ∈ sockets.held ∨ (sockets.sk var).sock ∉ sockets.live) ∧
        (sockets.sk var).isConnected = false := by
  have owned : Named (handles sockets.sk) (sockets.held.erase var)
      (sockets.live.erase (sockets.sk var).sock) ↔
        var ∈ sockets.held ∨ (sockets.sk var).sock ∉ sockets.live :=
    sound.named.release_iff
  rw [← owned]
  simp only [after, emSocketClose]
  constructor
  · intro kept
    refine ⟨kept.named, ?_⟩
    by_contra connected
    have member := kept.connected var (by simpa using connected)
    exact Finset.notMem_erase var sockets.held member
  · rintro ⟨named, closed⟩
    refine ⟨named, ?_⟩
    intro other connected
    refine Finset.mem_erase.mpr ⟨?_, sound.connected other connected⟩
    rintro rfl
    exact Bool.false_ne_true (closed.symm.trans connected)

theorem tcpDisconnect_iff (sound : sockets.Sound) :
    (sockets.after inetAddr (.tcpDisconnect (some var))).Sound ↔
      var ∈ sockets.held ∨ (sockets.sk var).sock ∉ sockets.live := by
  let closed : SocketRecord := { sockets.sk var with isConnected := false }
  have records : Sound { sockets with
      sk := Function.update sockets.sk var closed } :=
    sound.rewritten rfl nofun
  have unsaid : ({ sockets with
      sk := Function.update sockets.sk var closed } : Sockets Var).sk var =
        closed := Function.update_self _ _ _
  have same : sockets.after inetAddr (.tcpDisconnect (some var)) =
      Sockets.after inetAddr { sockets with
        sk := Function.update sockets.sk var closed }
        (.socketClose (some var)) := by
    simp [after, emTcpDisconnect, emSocketClose, closed]
  rw [same, records.socketClose_iff, unsaid]
  exact and_iff_left rfl

theorem setDestination (sound : sockets.Sound) :
    (sockets.after inetAddr
      (.socketSetDestination var destIp destPort)).Sound := by
  by_cases valid : ValidDestination destIp destPort
  · obtain ⟨remoteAddr, accepted⟩ :=
      @emSocketSetDestination_valid inetAddr (sockets.sk var) _ _ valid
    simp only [after, accepted]
    exact sound.rewritten rfl id
  · simp only [after, emSocketSetDestination_invalid valid]
    exact sound.rewritten rfl id

end Sound

/-! ## Runs -/

/-- A variable in use is not opened again, a destination is valid when a UDP
socket is opened for it, and what is closed is in use or no open descriptor. -/
def Careful (sockets : Sockets Var) : SocketCall Var → Prop
  | .socketInit sk type _ _ _ => KnownType type → sk ∉ sockets.held
  | .socketClose none => True
  | .socketClose (some sk) =>
      (sk ∈ sockets.held ∨ (sockets.sk sk).sock ∉ sockets.live) ∧
        (sockets.sk sk).isConnected = false
  | .socketSetDestination .. => True
  | .udpTxInit sk localIp _ destIp destPort answer =>
      sk ∉ sockets.held ∧
        (answer.Opens localIp → ValidDestination destIp destPort)
  | .udpRxInit sk _ _ _ => sk ∉ sockets.held
  | .tcpConnectClient sk _ _ destIp destPort _ =>
      ValidDestination destIp destPort → sk ∉ sockets.held
  | .tcpConnectServer skListen skClient localIp _ answer =>
      skListen ∉ sockets.held ∧
        (answer.Serves localIp → skClient ∉ insert skListen sockets.held)
  | .tcpDisconnect none => True
  | .tcpDisconnect (some sk) =>
      sk ∈ sockets.held ∨ (sockets.sk sk).sock ∉ sockets.live

variable {inetAddr : List UInt8 → UInt32} {before next : Sockets Var}
  {call : SocketCall Var}

theorem Sound.step_iff (sound : before.Sound) (invalid : -1 ∉ before.live)
    (step : Step inetAddr before call next) :
    next.Sound ↔ before.Careful call := by
  obtain ⟨answered, rfl⟩ := step
  cases call with
  | socketInit => exact sound.socketInit_iff invalid answered
  | socketClose sk =>
      cases sk with
      | none => exact iff_of_true sound trivial
      | some var => exact sound.socketClose_iff
  | socketSetDestination => exact iff_of_true sound.setDestination trivial
  | udpTxInit => exact sound.udpTxInit_iff invalid answered
  | udpRxInit => exact sound.udpRxInit_iff invalid answered
  | tcpConnectClient => exact sound.tcpConnectClient_iff invalid answered
  | tcpConnectServer => exact sound.tcpConnectServer_iff invalid answered
  | tcpDisconnect sk =>
      cases sk with
      | none => exact iff_of_true sound trivial
      | some var => exact sound.tcpDisconnect_iff

theorem valid_step (invalid : -1 ∉ before.live)
    (step : Step inetAddr before call next) : -1 ∉ next.live := by
  obtain ⟨answered, rfl⟩ := step
  cases call with
  | socketInit => exact emSocketInit_valid invalid answered
  | socketClose sk =>
      cases sk with
      | none => exact invalid
      | some var => exact fun member => invalid (Finset.mem_of_mem_erase member)
  | socketSetDestination => exact invalid
  | udpTxInit => exact emUdpTxInit_valid invalid answered
  | udpRxInit =>
      simp only [after, put, emUdpRxInit_eq]
      exact emSocketInit_valid invalid answered
  | tcpConnectClient => exact emTcpConnectClient_valid invalid answered
  | tcpConnectServer skListen skClient localIp localPort answer =>
      by_cases serves : answer.Serves localIp
      · obtain ⟨listen, client, nonneg, _, otherNonneg, _, _, made⟩ :=
          @emTcpConnectServer_serves _ _ before inetAddr _ localPort _ serves
            skListen skClient answered
        simp only [after, made, Finset.mem_insert, not_or]
        exact ⟨by omega, by omega, invalid⟩
      · obtain ⟨new, _, _, made⟩ :=
          @emTcpConnectServer_fails _ _ before inetAddr _ localPort _ serves
            skListen skClient invalid answered
        simpa only [after, made, put] using invalid
  | tcpDisconnect sk =>
      cases sk with
      | none => exact invalid
      | some var => exact fun member => invalid (Finset.mem_of_mem_erase member)

/-- Nothing is open, and no variable says that it is connected. -/
def start (records : Var → SocketRecord) : Sockets Var := ⟨records, ∅, ∅⟩

/-- Each open descriptor belongs to one variable in use after every call of a
run if and only if every call was a careful one. -/
theorem sockets_owned_iff {records : Var → SocketRecord}
    {calls : List (SocketCall Var)} {sockets : Sockets Var}
    (unconnected : ∀ var, (records var).isConnected = false) :
    Run (Upholding (fun _ _ next => next.Sound) (Step inetAddr))
        (start records) calls sockets ↔
      Run (Guarded Careful (Step inetAddr)) (start records) calls sockets := by
  have initially : (start records).Sound := by
    refine ⟨Named.empty, ?_⟩
    intro var connected
    exact absurd connected (by simp [start, unconnected])
  apply Run.upholding_iff (fun sockets => sockets.Sound ∧ -1 ∉ sockets.live)
  · exact ⟨initially, Finset.notMem_empty _⟩
  · rintro before call next ⟨sound, invalid⟩ ⟨careful, step⟩
    exact ⟨(sound.step_iff invalid step).mpr careful,
      valid_step invalid step⟩
  · rintro before call next ⟨sound, invalid⟩ step
    exact sound.step_iff invalid step

/-- A server takes a client, both sockets are closed, and a socket for sending
is opened under the variable of the client. -/
def serverRun : List (SocketCall Bool) :=
  [.tcpConnectServer false true (some [48]) 80
      ⟨some 3, true, false, true, some (4, ⟨0, 0⟩)⟩,
    .tcpDisconnect (some true), .socketClose (some false),
    .udpTxInit true none 0 (some [49]) 7 ⟨some 3, true, false, false, none⟩]

theorem sockets_owned_server :
    ∃ sockets, Run (Upholding (fun _ _ next => next.Sound)
      (Step fun _ => 0)) (start fun _ => ⟨⟨false⟩, 0, ⟨0, 0⟩, ⟨0, 0⟩⟩)
        serverRun sockets := by
  obtain ⟨sockets, run⟩ : ∃ sockets, Run (Guarded Careful (Step fun _ => 0))
      (start fun _ => ⟨⟨false⟩, 0, ⟨0, 0⟩, ⟨0, 0⟩⟩) serverRun sockets := by
    refine ⟨_, .cons ⟨?_, ?_, rfl⟩ (.cons ⟨?_, trivial, rfl⟩
      (.cons ⟨?_, trivial, rfl⟩ (.cons ⟨?_, ?_, rfl⟩ .nil)))⟩
    · simp [Careful, start]
    · simp [Answered, OpeningAnswer.Fresh, start]
    · exact .inl (by decide +kernel)
    · exact ⟨.inl (by decide +kernel), by decide +kernel⟩
    · exact ⟨by decide +kernel, fun _ => ⟨nofun, by decide, by decide⟩⟩
    · refine ⟨?_, nofun⟩
      rintro sock ⟨⟩
      decide +kernel
  exact ⟨sockets, (sockets_owned_iff fun _ => rfl).mpr run⟩

end Sockets

end EmbeddedMiddle
