import Asterisk.UnixSocket.Stream

/-! # Readiness of a socket

`unixsocket_fs_read_test_ready` is what `poll` and `select` ask of a socket. It is `TRUE` when the
accept queue or the input FIFO is non-empty, or when the socket is disconnected. It stands for the
two loops that can wait on a socket:

* **a recv of at least one byte** returns at once exactly when the socket is disconnected or its
  FIFO holds a byte (`unixsocketRecv_returns`);
* **a turn of accept** returns exactly when it dequeues a connector and `syscall_socket`
  succeeds (`unixsocketAcceptStep_returns`).

Over any interleaving of bind, listen, connect, accept, send, recv and close (`SocketReachable`),
only a listener has a non-empty accept queue (`QueuedListening`). So readiness agrees with the two
loops whenever `syscall_socket` succeeds. When it fails, a listener with a queued connector is
ready, yet its accept consumes the connector and waits (`read_test_ready_exact_unless_socket_fails`). -/

namespace Asterisk.UnixSocket

/-! ## (1) Readiness and the loops it stands for -/

/-- `unixsocket_fs_read_test_ready` of the socket at position `i`. -/
def unixsocketFsReadTestReady (s : SockState) (i : Nat) : Bool :=
  match s.sockets[i]? with
  | none => false
  | some sock =>
    if sock.acceptQueue ≠ [] then true
    else if 0 < sock.bufferIn.length then true
    else if sock.disconnected then true
    else false

section Loops

variable {s : SockState} {i : Nat} {sock : Socket}

theorem unixsocketFsReadTestReady_iff (h : s.sockets[i]? = some sock) :
    unixsocketFsReadTestReady s i = true ↔
      sock.acceptQueue ≠ [] ∨ sock.bufferIn ≠ [] ∨ sock.disconnected = true := by
  simp only [unixsocketFsReadTestReady, h, List.length_pos]
  split_ifs <;> simp_all

/-- **A recv of at least one byte returns at once** exactly when the socket is disconnected or
its FIFO holds a byte; otherwise the turn waits. -/
theorem unixsocketRecv_returns (h : s.sockets[i]? = some sock) {len : Nat} (hlen : 0 < len) :
    (unixsocketRecv s i len).2.isSome ↔ sock.disconnected = true ∨ sock.bufferIn ≠ [] := by
  simp only [unixsocketRecv, Nat.pos_iff_ne_zero.1 hlen, h, List.length_pos]
  split_ifs <;> simp_all

/-- **A turn of accept returns** exactly when it dequeues a connector and `syscall_socket`
succeeds. -/
theorem unixsocketAcceptStep_returns (h : s.sockets[i]? = some sock) (created : Bool) :
    (unixsocketAcceptStep s i created).2.isSome ↔ created = true ∧ sock.acceptQueue ≠ [] := by
  simp only [unixsocketAcceptStep, h]
  rcases sock.acceptQueue with _ | ⟨c, rest⟩ <;> cases created <;> simp

end Loops

/-! ## (2) Any interleaving of the socket calls -/

section Ops

variable (nameSize capacity : Nat)

/-- **One call, or one turn of a loop**, on any socket with any arguments: bind, listen, connect up
to its wait loop, a turn of accept on a listener with either outcome of `syscall_socket`, a turn of
send or recv, close, or the creation of a socket. -/
inductive SocketOp : SockState → SockState → Prop
  | create (s : SockState) : SocketOp s ⟨s.sockets ++ [Socket.fresh]⟩
  | bind (s : SockState) (i : Nat) (addr : String) :
      SocketOp s (unixsocketBind nameSize s i addr).1
  | listen (s : SockState) (i : Nat) : SocketOp s (unixsocketListen s i)
  | connect (s : SockState) (c : Nat) (addr : String) : SocketOp s (unixsocketConnect s c addr).1
  | accept (s : SockState) (l : Nat) (created : Bool) :
      (s.sockets[l]?.map Socket.listening) = some true →
      SocketOp s (unixsocketAcceptStep s l created).1
  | send (s : SockState) (a : Nat) (buf : List UInt8) :
      SocketOp s (unixsocketSend capacity s a buf).1
  | recv (s : SockState) (b len : Nat) : SocketOp s (unixsocketRecv s b len).1
  | close (s : SockState) (a : Nat) : SocketOp s (socketClose s a)

/-- The socket lists reachable from an empty `g_socket_list`. -/
inductive SocketReachable : SockState → Prop
  | init : SocketReachable ⟨[]⟩
  | step {s s' : SockState} : SocketReachable s → SocketOp nameSize capacity s s' →
      SocketReachable s'

variable {nameSize capacity}

/-- A step whose target is given by an equation. -/
theorem SocketReachable.step_eq {s s' s'' : SockState} (h : SocketReachable nameSize capacity s)
    (hs : SocketOp nameSize capacity s s') (he : s' = s'') : SocketReachable nameSize capacity s'' :=
  he ▸ h.step hs

end Ops

/-! ## (3) Only a listener has connectors waiting -/

section Frame

variable {P : Socket → Prop} {s : SockState}

/-- A property of every socket survives a change of one socket that keeps it. -/
theorem SockState.forall_modifySocket
    (h : ∀ (i : Nat) (sock : Socket), s.sockets[i]? = some sock → P sock) {j : Nat}
    {f : Socket → Socket} (hf : ∀ sock, s.sockets[j]? = some sock → P (f sock)) :
    ∀ (i : Nat) (sock : Socket), (s.modifySocket j f).sockets[i]? = some sock → P sock := by
  intro i sock hi
  rw [SockState.modifySocket, List.getElem?_modify, Option.map_eq_map] at hi
  obtain ⟨t, ht, rfl⟩ := Option.map_eq_some'.1 hi
  split
  · subst_vars; exact hf t ht
  · exact h i t ht

/-- A property of every socket survives the creation of a socket that has it. -/
theorem SockState.forall_append
    (h : ∀ (i : Nat) (sock : Socket), s.sockets[i]? = some sock → P sock) {x : Socket} (hx : P x) :
    ∀ (i : Nat) (sock : Socket), (s.sockets ++ [x])[i]? = some sock → P sock := by
  intro i sock hi
  rw [List.getElem?_append] at hi
  split at hi
  · exact h i sock hi
  · obtain rfl := List.mem_singleton.1 (List.getElem?_mem hi)
    exact hx

end Frame

/-- **Only a listener has connectors waiting**: a socket with a non-empty accept queue has
`SO_ACCEPTCONN` set. -/
def QueuedListening (s : SockState) : Prop :=
  ∀ (i : Nat) (sock : Socket), s.sockets[i]? = some sock → sock.acceptQueue ≠ [] →
    sock.listening = true

section Queued

variable {s : SockState}

/-- A change that keeps the accept queue and the `SO_ACCEPTCONN` bit keeps `QueuedListening`. -/
theorem QueuedListening.modify (h : QueuedListening s) {j : Nat} {f : Socket → Socket}
    (hq : ∀ t, (f t).acceptQueue = t.acceptQueue) (hl : ∀ t, (f t).listening = t.listening) :
    QueuedListening (s.modifySocket j f) :=
  SockState.forall_modifySocket h fun t ht => by rw [hq, hl]; exact h j t ht

theorem QueuedListening.bind (h : QueuedListening s) (nameSize i : Nat) (addr : String) :
    QueuedListening (unixsocketBind nameSize s i addr).1 := by
  unfold unixsocketBind
  split
  · exact h
  · split_ifs
    exacts [h, h, h, h.modify (fun _ => rfl) fun _ => rfl]

theorem QueuedListening.connect (h : QueuedListening s) (c : Nat) (addr : String) :
    QueuedListening (unixsocketConnect s c addr).1 := by
  unfold unixsocketConnect
  split_ifs
  · exact h
  · split
    · exact h
    · split_ifs
      · exact h
      · split
        · next l _ =>
          split_ifs with hl
          · exact SockState.forall_modifySocket h fun t ht _ => by simpa [ht] using hl
          · exact h
        · exact h

/-- A turn of accept dequeues from a listener and creates a socket with an empty queue. -/
theorem QueuedListening.accept (h : QueuedListening s) (l : Nat) (created : Bool) :
    QueuedListening (unixsocketAcceptStep s l created).1 := by
  unfold unixsocketAcceptStep
  split
  · exact h
  · next lsock hl =>
    split
    · exact h
    · next c rest hq =>
      have h₁ : QueuedListening (s.modifySocket l fun t => { t with acceptQueue := rest }) :=
        SockState.forall_modifySocket h fun t ht hne =>
          h l t ht (by rw [← Option.some.inj (hl.symm.trans ht), hq]; exact List.cons_ne_nil _ _)
      split
      · exact (show QueuedListening ⟨_ ++ [_]⟩ from SockState.forall_append h₁ fun h => absurd rfl h).modify
          (fun _ => rfl) fun _ => rfl
      · exact h₁

theorem QueuedListening.send (h : QueuedListening s) (capacity a : Nat) (buf : List UInt8) :
    QueuedListening (unixsocketSend capacity s a buf).1 := by
  dsimp only [unixsocketSend]
  repeat' split
  all_goals first | exact h | exact h.modify (fun _ => rfl) fun _ => rfl

theorem QueuedListening.recv (h : QueuedListening s) (b len : Nat) :
    QueuedListening (unixsocketRecv s b len).1 := by
  dsimp only [unixsocketRecv]
  repeat' split
  all_goals first | exact h | exact h.modify (fun _ => rfl) fun _ => rfl

theorem QueuedListening.close (h : QueuedListening s) (a : Nat) :
    QueuedListening (socketClose s a) := by
  have h₁ := h.modify (j := a) (f := fun t => { t with connection := none }) (fun _ => rfl)
    fun _ => rfl
  unfold socketClose
  split
  · exact h₁.modify (fun _ => rfl) fun _ => rfl
  · exact h₁

theorem queuedListening_of_reachable {nameSize capacity : Nat}
    (hs : SocketReachable nameSize capacity s) : QueuedListening s := by
  induction hs with
  | init => exact fun _ _ h => by simp at h
  | step _ hop ih =>
    cases hop with
    | create => exact SockState.forall_append ih fun h => absurd rfl h
    | bind i addr => exact ih.bind nameSize i addr
    | listen i => exact SockState.forall_modifySocket ih fun _ _ _ => rfl
    | connect c addr => exact ih.connect c addr
    | accept l created _ => exact ih.accept l created
    | send a buf => exact ih.send capacity a buf
    | recv b len => exact ih.recv b len
    | close a => exact ih.close a

end Queued

/-! ## (4) Readiness against the loops -/

/-- A listener bound to `"s"` with socket `1` waiting in its accept queue, reached by creating two
sockets, binding and listening on the first, and connecting the second. -/
theorem reachable_queued_listener {nameSize : Nat} (capacity : Nat) (hN : 2 ≤ nameSize) :
    SocketReachable nameSize capacity
      ⟨[{ Socket.fresh with name := "s", listening := true, acceptQueue := [1] }, Socket.fresh]⟩ := by
  have h2 := ((@SocketReachable.init nameSize capacity).step (.create _)).step (.create _)
  have hs : "s".length = 1 := rfl
  have hb : SocketReachable nameSize capacity ⟨[{ Socket.fresh with name := "s" }, Socket.fresh]⟩ :=
    h2.step_eq (.bind _ 0 "s") (by
      simp [unixsocketBind, Socket.fresh, SockState.modifySocket, hs,
        sprintf_of_length_lt (show "s".length < nameSize by omega)])
  exact (hb.step (.listen _ 0)).step_eq (.connect _ 1 "s") (by decide)

/-- **Readiness is exact unless `syscall_socket` fails**: at every state reached by any
interleaving of the socket calls, a socket is ready exactly when a recv of at least one byte
returns at once or it listens and a turn of accept whose `syscall_socket` succeeds returns. When
`syscall_socket` fails this breaks: a listener with a queued connector is ready, while a recv
waits and the turn of accept consumes the connector and waits. -/
theorem read_test_ready_exact_unless_socket_fails (nameSize capacity : Nat) (hN : 2 ≤ nameSize) :
    (∀ s, SocketReachable nameSize capacity s → ∀ i sock len, s.sockets[i]? = some sock →
      0 < len → (unixsocketFsReadTestReady s i = true ↔
        (unixsocketRecv s i len).2.isSome ∨
          (sock.listening = true ∧ (unixsocketAcceptStep s i true).2.isSome))) ∧
    ∃ s, SocketReachable nameSize capacity s ∧ ∃ i, unixsocketFsReadTestReady s i = true ∧
      (∀ len, 0 < len → (unixsocketRecv s i len).2 = none) ∧
      (unixsocketAcceptStep s i false).2 = none := by
  refine ⟨fun s hs i sock len hi hlen => ?_, _, reachable_queued_listener capacity hN, 0, rfl,
    fun len hlen => by simp [unixsocketRecv, Socket.fresh, Nat.pos_iff_ne_zero.1 hlen], rfl⟩
  have hl := queuedListening_of_reachable hs i sock hi
  rw [unixsocketFsReadTestReady_iff hi, unixsocketRecv_returns hi hlen,
    unixsocketAcceptStep_returns hi]
  tauto

theorem read_test_ready_exact_unless_socket_fails_14 :
    2 ≤ 14 ∧
    (∀ s, SocketReachable 14 4096 s → ∀ i sock len, s.sockets[i]? = some sock →
      0 < len → (unixsocketFsReadTestReady s i = true ↔
        (unixsocketRecv s i len).2.isSome ∨
          (sock.listening = true ∧ (unixsocketAcceptStep s i true).2.isSome))) ∧
    ∃ s, SocketReachable 14 4096 s ∧ ∃ i, unixsocketFsReadTestReady s i = true ∧
      (∀ len, 0 < len → (unixsocketRecv s i len).2 = none) ∧
      (unixsocketAcceptStep s i false).2 = none :=
  ⟨by decide, read_test_ready_exact_unless_socket_fails 14 4096 (by decide)⟩

end Asterisk.UnixSocket
