import Asterisk.UnixSocket.Basic

/-! # The connect/accept rendezvous

Two laws a rendezvous should keep at every reachable state: pairing is symmetric
(`PairingSymmetric`), and a socket whose `unixsocket_connect` has not returned is waiting in a
listener's `accept_queue` exactly once or is already paired (`ConnectorsTracked`).

`unixsocket_accept` breaks the second: it dequeues a connector before `syscall_socket`, and when
that fails it only waits again, so the connector is in no queue and never paired while its thread
polls forever (`connector_dropped`). It also breaks the first: a socket connected by two
threads before it is paired is enqueued twice, and each turn of accept pairs it with a new
socket (`paired_twice`). -/

namespace Asterisk.UnixSocket

/-- The connection of the socket at position `a`, if any. -/
def SockState.peer (s : SockState) (a : Nat) : Option Nat := (s.sockets[a]?).bind Socket.connection

/-- **Symmetric pairing**: a socket's peer has it as peer. -/
def PairingSymmetric (s : SockState) : Prop := ∀ a b, s.peer a = some b → s.peer b = some a

/-- **No connector is lost**: a socket whose connect has not returned is paired or waits exactly
once in the accept queues. -/
def ConnectorsTracked (sys : SockSystem) : Prop :=
  ∀ t c : Nat, sys.threads[t]? = some (.connecting c) →
    (sys.state.peer c).isSome ∨ ((sys.state.sockets.map Socket.acceptQueue).flatten.count c = 1)

/-! ## (1) The runs -/

section Runs

variable {nameSize : Nat}

/-- Two fresh sockets, the first bound to `"s"` and listening, reached by `k + 1` threads. -/
theorem reachable_listener (hN : 2 ≤ nameSize) (k : Nat) :
    SockReachable nameSize
      ⟨⟨[{ Socket.fresh with name := "s", listening := true }, Socket.fresh]⟩,
        List.replicate (k + 1) .idle⟩ := by
  have h2 := (((@SockReachable.init nameSize (k + 1)).step (.create _)).step (.create _))
  have hs : "s".length = 1 := rfl
  have hb : SockReachable nameSize ⟨⟨[{ Socket.fresh with name := "s" }, Socket.fresh]⟩,
      List.replicate (k + 1) .idle⟩ :=
    h2.step_eq (.bind _ 0 0 "s" (by simp [SockSystem.init])) (by
      simp [unixsocketBind, SockSystem.init, Socket.fresh, SockState.modifySocket, hs,
        sprintf_of_length_lt (show "s".length < nameSize by omega)])
  exact hb.step_eq (.listen _ 0 0 (by simp)) rfl

/-- **A dropped connector**: accept waits on the listener, a thread connects socket `1`, and the
`syscall_socket` of accept fails. Socket `1` is then in no accept queue and unpaired while its
thread still waits in connect. -/
theorem connector_dropped (hN : 2 ≤ nameSize) :
    ∃ sys, SockReachable nameSize sys ∧ ¬ ConnectorsTracked sys := by
  have h := reachable_listener hN 1
  have h1 := h.step (.acceptEnter _ 0 0 rfl rfl)
  have h2 := h1.step (.connect _ 1 1 "s" rfl)
  have h3 := h2.step (.acceptStep _ 0 0 false (by decide))
  refine ⟨_, h3, fun ht => ?_⟩
  unfold ConnectorsTracked at ht
  have := ht 1 1 (by decide)
  revert this
  decide

/-- **A socket paired twice**: two threads connect socket `1` before accept runs, so it is
enqueued twice; two successful turns of accept pair it with sockets `2` and then `3`, and socket
`2` keeps socket `1` as peer while socket `1` has socket `3`. -/
theorem paired_twice (hN : 2 ≤ nameSize) :
    ∃ sys, SockReachable nameSize sys ∧ ¬ PairingSymmetric sys.state := by
  have h := reachable_listener hN 2
  have h1 := (h.step (.connect _ 1 1 "s" rfl)).step (.connect _ 2 1 "s" rfl)
  have h2 := (h1.step (.acceptEnter _ 0 0 rfl rfl)).step (.acceptStep _ 0 0 true (by decide))
  have h3 := (h2.step (.acceptEnter _ 0 0 (by decide) (by decide))).step
    (.acceptStep _ 0 0 true (by decide))
  refine ⟨_, h3, fun hs => ?_⟩
  unfold PairingSymmetric at hs
  have := hs 2 1 (by decide)
  revert this
  decide

end Runs

/-- **The rendezvous breaks both laws** for every `SOCKET_NAME_SIZE` that holds the name `"s"`:
an accept whose `syscall_socket` fails drops its connector, and a socket connected twice is
paired twice. -/
theorem rendezvous_loses_or_doubles (nameSize : Nat) (hN : 2 ≤ nameSize) :
    (∃ sys, SockReachable nameSize sys ∧ ¬ ConnectorsTracked sys) ∧
      ∃ sys, SockReachable nameSize sys ∧ ¬ PairingSymmetric sys.state :=
  ⟨connector_dropped hN, paired_twice hN⟩

theorem rendezvous_loses_or_doubles_14 :
    2 ≤ 14 ∧ (∃ sys, SockReachable 14 sys ∧ ¬ ConnectorsTracked sys) ∧
      ∃ sys, SockReachable 14 sys ∧ ¬ PairingSymmetric sys.state :=
  ⟨by decide, rendezvous_loses_or_doubles 14 (by decide)⟩

end Asterisk.UnixSocket
