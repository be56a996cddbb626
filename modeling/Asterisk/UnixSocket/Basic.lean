import Mathlib.Data.List.Basic
import Asterisk.Vfs

/-! # The Unix-domain socket provider of `unixsocket.c`

A socket is a record of the fields the provider reads and writes: its bound name, the
`SO_ACCEPTCONN` bit, the `accept_queue`, the peer `connection`, the input FIFO `buffer_in` and the
`disconnected` flag. The sockets live in `g_socket_list`; as in `SharedMemory.Basic`, a socket is
its position in the list, and the list only grows (`syscall_socket` appends).

Each function is one section run with interrupts off, so one atomic step:

* **`unixsocketBind`, `unixsocketListen`** — whole calls;
* **`unixsocketConnect`** — the call up to its wait loop: it either returns at once or leaves the
  connector enqueued, its thread then polling `connection` (`connectPoll`);
* **`unixsocketAcceptStep`** — one turn of accept's loop, with the outcome of `syscall_socket`;
* **`unixsocketSend`, `unixsocketRecv`** — one turn of their loops; `none` is "wait and retry".

`SockStep` interleaves the turns of any number of threads. `socket.c` (creation, close) and
`fifobuffer.c` are not in `src/`: socket creation, close and the FIFO are modelled from the spec. -/

namespace Asterisk.UnixSocket

/-! ## (1) State -/

/-- A `Socket` with its `UnixSocket`: the fields the provider uses. -/
structure Socket where
  name : String
  listening : Bool
  acceptQueue : List Nat
  connection : Option Nat
  bufferIn : List UInt8
  disconnected : Bool
  deriving DecidableEq, Repr

/-- Modelled from the spec: a socket as `syscall_socket` creates it, zeroed by `memset`. -/
def Socket.fresh : Socket := ⟨"", false, [], none, [], false⟩

/-- `g_socket_list`. -/
structure SockState where
  sockets : List Socket
  deriving DecidableEq, Repr

/-- Replace the socket at position `i` by `f` of it. -/
def SockState.modifySocket (s : SockState) (i : Nat) (f : Socket → Socket) : SockState :=
  ⟨s.sockets.modify f i⟩

/-- Modelled from the spec: `EINVAL` of `errno.h`, which is not in `src/`; the value is Linux's. -/
def EINVAL : Int := 22

/-- Modelled from the spec: `EADDRINUSE` of `errno.h`; the value is Linux's. -/
def EADDRINUSE : Int := 98

/-- Modelled from the spec: `EISCONN` of `errno.h`; the value is Linux's. -/
def EISCONN : Int := 106

/-! ## (2) The functions of `unixsocket.c` -/

section Functions

/- `SOCKET_NAME_SIZE`, the size of `UnixSocket.name`; its header is not in `src/`. -/
variable (nameSize : Nat)

/-- The position of the first socket named `addr`: the scan of `unixsocket_connect`. -/
def findByName (s : SockState) (addr : String) : Option Nat :=
  s.sockets.findIdx? fun t => addr = t.name

/-- `unixsocket_bind` of the socket at position `i` to `addr`. The name is stored by
`sprintf(name, SOCKET_NAME_SIZE, addr)`, the address being the format and no argument passed: the
model prints the address as its own text, which is what the format produces when the address has
no `%`; a `%` directive would read an argument that is not there, and is outside the model. -/
def unixsocketBind (s : SockState) (i : Nat) (addr : String) : SockState × Int :=
  match s.sockets[i]? with
  | none => (s, -EINVAL)
  | some sock =>
    if 0 < sock.name.length then (s, -EINVAL)
    else if addr.length = 0 then (s, -EINVAL)
    else if s.sockets.any (fun t => addr = t.name) then (s, -EADDRINUSE)
    else (s.modifySocket i fun t => { t with name := sprintf nameSize addr }, 0)

end Functions

/-- `unixsocket_listen`: set `SO_ACCEPTCONN`. -/
def unixsocketListen (s : SockState) (i : Nat) : SockState :=
  s.modifySocket i fun t => { t with listening := true }

/-- `unixsocket_connect` of socket `c` to `addr` up to its wait loop: a result returned at once, or
`none` with `c` enqueued on the listener named `addr`. -/
def unixsocketConnect (s : SockState) (c : Nat) (addr : String) : SockState × Option Int :=
  if addr.length = 0 then (s, some (-EINVAL))
  else match s.sockets[c]? with
    | none => (s, some (-EINVAL))
    | some sock =>
      if sock.connection ≠ none then (s, some (-EISCONN))
      else match findByName s addr with
        | some l =>
          if (s.sockets[l]?.map Socket.listening) = some true then
            (s.modifySocket l fun t => { t with acceptQueue := t.acceptQueue ++ [c] }, none)
          else (s, some (-1))
        | none => (s, some (-1))

/-- One turn of the loop of `unixsocket_accept` on listener `l`. `created` is whether
`syscall_socket` returned a valid descriptor with a file; the new socket is appended to
`g_socket_list` and cross-linked with the dequeued connector. `none` is "wait and retry". -/
def unixsocketAcceptStep (s : SockState) (l : Nat) (created : Bool) : SockState × Option Nat :=
  match s.sockets[l]? with
  | none => (s, none)
  | some lsock =>
    match lsock.acceptQueue with
    | [] => (s, none)
    | c :: rest =>
      let s := s.modifySocket l fun t => { t with acceptQueue := rest }
      if created then
        let n := s.sockets.length
        (⟨(s.sockets ++ [{ Socket.fresh with connection := some c }]).modify
          (fun t => { t with connection := some n }) c⟩, some n)
      else (s, none)

section Stream

/- Modelled from the spec: the capacity of a socket's input FIFO. -/
variable (capacity : Nat)

/-- One turn of the loop of `unixsocket_send` on socket `a` with the bytes `buf`: the number of
bytes written to the peer's FIFO, `-1`, or `none` (the FIFO is full: wait and retry). -/
def unixsocketSend (s : SockState) (a : Nat) (buf : List UInt8) : SockState × Option Int :=
  if buf.length = 0 then (s, some (-1))
  else match (s.sockets[a]?).bind Socket.connection with
    | none => (s, some (-1))
    | some b =>
      match s.sockets[b]? with
      | none => (s, some (-1))
      | some peer =>
        let free := capacity - peer.bufferIn.length
        if 0 < free then
          let smaller := min free buf.length
          (s.modifySocket b fun t => { t with bufferIn := t.bufferIn ++ buf.take smaller },
            some smaller)
        else (s, none)

/-- `unixsocket_fs_write` of a file on the node of socket `a`: one turn of `unixsocket_send`. -/
def unixsocketFsWrite (s : SockState) (a : Nat) (buf : List UInt8) : SockState × Option Int :=
  unixsocketSend capacity s a buf

end Stream

/-- One turn of the loop of `unixsocket_recv` on socket `b` for `len` bytes: the count and the bytes
read, `-1` or `0`, or `none` (the FIFO is empty: wait and retry). -/
def unixsocketRecv (s : SockState) (b : Nat) (len : Nat) : SockState × Option (Int × List UInt8) :=
  if len = 0 then (s, some (-1, []))
  else match s.sockets[b]? with
    | none => (s, some (-1, []))
    | some sock =>
      if sock.disconnected then (s, some (0, []))
      else
        let size := sock.bufferIn.length
        if 0 < size then
          let smaller := min size len
          (s.modifySocket b fun t => { t with bufferIn := t.bufferIn.drop smaller },
            some (smaller, sock.bufferIn.take smaller))
        else (s, none)

/-- `unixsocket_fs_read` of a file on the node of socket `b`: one turn of `unixsocket_recv`. -/
def unixsocketFsRead (s : SockState) (b len : Nat) : SockState × Option (Int × List UInt8) :=
  unixsocketRecv s b len

/-- Modelled from the spec: closing socket `a` marks its peer `disconnected` and clears the
peer's `connection` (the generic socket teardown); `a` keeps no peer. -/
def socketClose (s : SockState) (a : Nat) : SockState :=
  let s' := s.modifySocket a fun t => { t with connection := none }
  match (s.sockets[a]?).bind Socket.connection with
  | some b => s'.modifySocket b fun t => { t with disconnected := true, connection := none }
  | none => s'

/-! ## (3) Threads -/

/-- Where a thread stands: outside the provider, in connect's wait loop on socket `c`, or in
accept's loop on listener `l`. -/
inductive Thread where
  | idle
  | connecting (c : Nat)
  | accepting (l : Nat)
  deriving DecidableEq, Repr

/-- The sockets and the threads that use them. -/
structure SockSystem where
  state : SockState
  threads : List Thread
  deriving DecidableEq, Repr

/-- Set the program point of thread `t`. -/
def SockSystem.setThread (sys : SockSystem) (t : Nat) (th : Thread) : SockSystem :=
  { sys with threads := sys.threads.set t th }

/-- **One atomic step** of one thread: an interrupts-off section of bind, listen, connect or
accept, with any outcome of `syscall_socket`, or the creation of a socket. -/
inductive SockStep (nameSize : Nat) : SockSystem → SockSystem → Prop
  | create (sys : SockSystem) :
      SockStep nameSize sys { sys with state := ⟨sys.state.sockets ++ [Socket.fresh]⟩ }
  | bind (sys : SockSystem) (t i : Nat) (addr : String) :
      sys.threads[t]? = some .idle →
      SockStep nameSize sys { sys with state := (unixsocketBind nameSize sys.state i addr).1 }
  | listen (sys : SockSystem) (t i : Nat) :
      sys.threads[t]? = some .idle →
      SockStep nameSize sys { sys with state := unixsocketListen sys.state i }
  | connect (sys : SockSystem) (t c : Nat) (addr : String) :
      sys.threads[t]? = some .idle →
      SockStep nameSize sys
        (match unixsocketConnect sys.state c addr with
          | (s, none) => ⟨s, sys.threads.set t (.connecting c)⟩
          | (s, some _) => { sys with state := s })
  | connectPoll (sys : SockSystem) (t c : Nat) :
      sys.threads[t]? = some (.connecting c) →
      (sys.state.sockets[c]?.bind Socket.connection).isSome →
      SockStep nameSize sys (sys.setThread t .idle)
  | acceptEnter (sys : SockSystem) (t l : Nat) :
      sys.threads[t]? = some .idle →
      (sys.state.sockets[l]?.map Socket.listening) = some true →
      SockStep nameSize sys (sys.setThread t (.accepting l))
  | acceptStep (sys : SockSystem) (t l : Nat) (created : Bool) :
      sys.threads[t]? = some (.accepting l) →
      SockStep nameSize sys
        (match unixsocketAcceptStep sys.state l created with
          | (s, none) => { sys with state := s }
          | (s, some _) => ⟨s, sys.threads.set t .idle⟩)

/-- `threads` idle threads and no socket. -/
def SockSystem.init (threads : Nat) : SockSystem := ⟨⟨[]⟩, List.replicate threads .idle⟩

/-- The systems reachable from `SockSystem.init` by `SockStep`. -/
inductive SockReachable (nameSize : Nat) : SockSystem → Prop
  | init (threads : Nat) : SockReachable nameSize (SockSystem.init threads)
  | step {sys sys' : SockSystem} :
      SockReachable nameSize sys → SockStep nameSize sys sys' → SockReachable nameSize sys'

/-- A step whose target is given by an equation. -/
theorem SockReachable.step_eq {nameSize : Nat} {sys sys' sys'' : SockSystem}
    (h : SockReachable nameSize sys) (hs : SockStep nameSize sys sys') (he : sys' = sys'') :
    SockReachable nameSize sys'' := he ▸ h.step hs

end Asterisk.UnixSocket
