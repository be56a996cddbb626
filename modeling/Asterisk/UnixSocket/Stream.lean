import Asterisk.UnixSocket.Rendezvous

/-! # The byte stream of a connected pair

For a connected pair `(a, b)`, any interleaving of turns of `unixsocket_send` on `a`, of
`unixsocket_recv` on `b` and a close of `a` keeps the stream law: the bytes `b`'s recvs returned,
followed by `b`'s FIFO, are the bytes `a`'s sends accepted (`StreamInv`, `streamInv_of_reachable`).

`unixsocket_recv` tests `disconnected` before it looks at its FIFO, so after `a` closes, a recv
on `b` returns `0`, the end of the stream, with accepted bytes still in the FIFO
(`recv_eof_with_bytes`). -/

namespace Asterisk.UnixSocket

/-- The input FIFO of the socket at position `b`. -/
def SockState.bufferOf (s : SockState) (b : Nat) : List UInt8 :=
  ((s.sockets[b]?).map Socket.bufferIn).getD []

/-! ## (1) One socket changed -/

section Modify

variable {s : SockState} {i j : Nat} {f : Socket → Socket}

theorem SockState.peer_modifySocket (hf : ∀ t, (f t).connection = t.connection) :
    (s.modifySocket i f).peer j = s.peer j := by
  by_cases h : i = j
  · subst h
    simp only [SockState.peer, SockState.modifySocket, List.getElem?_modify_eq]
    cases s.sockets[i]? <;> simp [hf]
  · simp [SockState.peer, SockState.modifySocket, List.getElem?_modify_ne _ _ h]

theorem SockState.peer_modifySocket_ne (h : i ≠ j) : (s.modifySocket i f).peer j = s.peer j := by
  simp [SockState.peer, SockState.modifySocket, List.getElem?_modify_ne _ _ h]

theorem SockState.bufferOf_modifySocket (hf : ∀ t, (f t).bufferIn = t.bufferIn) :
    (s.modifySocket i f).bufferOf j = s.bufferOf j := by
  by_cases h : i = j
  · subst h
    simp only [SockState.bufferOf, SockState.modifySocket, List.getElem?_modify_eq]
    cases s.sockets[i]? <;> simp [hf]
  · simp [SockState.bufferOf, SockState.modifySocket, List.getElem?_modify_ne _ _ h]

theorem SockState.bufferOf_modifySocket_self {t : Socket} (ht : s.sockets[i]? = some t) :
    (s.modifySocket i f).bufferOf i = (f t).bufferIn := by
  simp [SockState.bufferOf, SockState.modifySocket, List.getElem?_modify_eq, ht]

@[simp] theorem SockState.length_modifySocket :
    (s.modifySocket i f).sockets.length = s.sockets.length := List.length_modify _ _ _

end Modify

/-! ## (2) The stream law -/

/-- The sockets with the bytes accepted by `a`'s sends and those returned by `b`'s recvs. -/
structure StreamState where
  state : SockState
  sent : List UInt8
  received : List UInt8
  deriving DecidableEq, Repr

section Stream

variable (capacity a b : Nat)

/-- **One atomic step** of the pair: a turn of send on `a` (the bytes it accepts are the first
`written` of the buffer), a turn of recv on `b` (the bytes it returns), or the close of `a`. -/
inductive StreamStep : StreamState → StreamState → Prop
  | send (p : StreamState) (buf : List UInt8) :
      StreamStep p ⟨(unixsocketSend capacity p.state a buf).1,
        p.sent ++ buf.take ((unixsocketSend capacity p.state a buf).2.getD 0).toNat, p.received⟩
  | recv (p : StreamState) (len : Nat) :
      StreamStep p ⟨(unixsocketRecv p.state b len).1, p.sent,
        p.received ++ (((unixsocketRecv p.state b len).2.map Prod.snd).getD [])⟩
  | close (p : StreamState) : StreamStep p ⟨socketClose p.state a, p.sent, p.received⟩

/-- A freshly connected pair: `a` has peer `b`, whose FIFO is empty, and nothing was sent. -/
structure StreamInit (p : StreamState) : Prop where
  ne : a ≠ b
  b_lt : b < p.state.sockets.length
  peer_a : p.state.peer a = some b
  empty : p.state.bufferOf b = []
  sent : p.sent = []
  received : p.received = []

/-- The states reached from a freshly connected pair. -/
inductive StreamReachable : StreamState → Prop
  | init {p : StreamState} : StreamInit a b p → StreamReachable p
  | step {p p' : StreamState} : StreamReachable p → StreamStep capacity a b p p' →
      StreamReachable p'

/-- **The stream law**: `b`'s received bytes followed by its FIFO are `a`'s accepted bytes; the FIFO
holds at most `capacity` bytes, and `a`'s peer is `b` until `a` closes. -/
structure StreamInv (p : StreamState) : Prop where
  ne : a ≠ b
  b_lt : b < p.state.sockets.length
  peer_a : p.state.peer a = some b ∨ p.state.peer a = none
  delivered : p.received ++ p.state.bufferOf b = p.sent
  bounded : (p.state.bufferOf b).length ≤ capacity

variable {capacity a b}

theorem StreamInv.send {p : StreamState} (h : StreamInv capacity a b p) (buf : List UInt8) :
    StreamInv capacity a b ⟨(unixsocketSend capacity p.state a buf).1,
      p.sent ++ buf.take ((unixsocketSend capacity p.state a buf).2.getD 0).toNat,
      p.received⟩ := by
  unfold unixsocketSend
  split
  · simpa using h
  · have hpeer : p.state.peer a = (p.state.sockets[a]?).bind Socket.connection := rfl
    split
    · simpa using h
    · next b' hb' =>
      obtain rfl : b' = b := by
        rcases h.peer_a with h' | h' <;> rw [← hpeer, h'] at hb'
        · exact (Option.some.inj hb').symm
        · cases hb'
      obtain ⟨peer, hpb⟩ : ∃ peer, p.state.sockets[b']? = some peer :=
        ⟨_, List.getElem?_eq_getElem h.b_lt⟩
      rw [hpb]
      have hbuf : p.state.bufferOf b' = peer.bufferIn := by simp [SockState.bufferOf, hpb]
      dsimp only
      split
      · next hfree =>
        have hd := h.delivered
        have hb := h.bounded
        refine ⟨h.ne, by simpa using h.b_lt, ?_, ?_, ?_⟩ <;> dsimp only
        · rw [SockState.peer_modifySocket]; exacts [h.peer_a, fun _ => rfl]
        · rw [SockState.bufferOf_modifySocket_self hpb, ← hd, hbuf]
          simp only [Option.getD_some, Int.toNat_ofNat, List.append_assoc]
        · rw [SockState.bufferOf_modifySocket_self hpb]
          simp only [List.length_append, List.length_take]
          rw [hbuf] at hb
          omega
      · simpa using h

theorem StreamInv.recv {p : StreamState} (h : StreamInv capacity a b p) (len : Nat) :
    StreamInv capacity a b ⟨(unixsocketRecv p.state b len).1, p.sent,
      p.received ++ (((unixsocketRecv p.state b len).2.map Prod.snd).getD [])⟩ := by
  unfold unixsocketRecv
  split
  · simpa using h
  · split
    · simpa using h
    · next sock hb =>
      have hbuf : p.state.bufferOf b = sock.bufferIn := by simp [SockState.bufferOf, hb]
      dsimp only
      split
      · simpa using h
      · split
        · have hd := h.delivered
          have hbd := h.bounded
          refine ⟨h.ne, by simpa using h.b_lt, ?_, ?_, ?_⟩ <;> dsimp only
          · rw [SockState.peer_modifySocket]; exacts [h.peer_a, fun _ => rfl]
          · rw [SockState.bufferOf_modifySocket_self hb, ← hd, hbuf]; simp
          · rw [SockState.bufferOf_modifySocket_self hb]
            rw [hbuf] at hbd
            simp only [List.length_drop]
            omega
        · simpa using h

theorem StreamInv.close {p : StreamState} (h : StreamInv capacity a b p) :
    StreamInv capacity a b ⟨socketClose p.state a, p.sent, p.received⟩ := by
  have hpeer : p.state.peer a = (p.state.sockets[a]?).bind Socket.connection := rfl
  have hnone : ((p.state.modifySocket a fun t => { t with connection := none }).peer a) = none := by
    simp only [SockState.peer, SockState.modifySocket, List.getElem?_modify_eq]
    cases p.state.sockets[a]? <;> rfl
  unfold socketClose
  split
  · next b' hb' =>
    have hba : b' ≠ a := by
      rcases h.peer_a with h' | h' <;> rw [← hpeer, h'] at hb'
      · exact (Option.some.inj hb') ▸ h.ne.symm
      · cases hb'
    refine ⟨h.ne, by simp [h.b_lt], .inr ?_, ?_, ?_⟩
    · rw [SockState.peer_modifySocket_ne hba, hnone]
    · rw [SockState.bufferOf_modifySocket, SockState.bufferOf_modifySocket]
      exacts [h.delivered, fun _ => rfl, fun _ => rfl]
    · rw [SockState.bufferOf_modifySocket, SockState.bufferOf_modifySocket]
      exacts [h.bounded, fun _ => rfl, fun _ => rfl]
  · refine ⟨h.ne, by simp [h.b_lt], .inr hnone, ?_, ?_⟩
    · rw [SockState.bufferOf_modifySocket]; exacts [h.delivered, fun _ => rfl]
    · rw [SockState.bufferOf_modifySocket]; exacts [h.bounded, fun _ => rfl]

end Stream

/-! ## (3) End of stream before the bytes -/

/-- The pair `0 ↔ 1` right after accept. -/
def connectedPair : StreamState :=
  ⟨⟨[{ Socket.fresh with connection := some 1 }, { Socket.fresh with connection := some 0 }]⟩,
    [], []⟩

theorem streamInit_connectedPair : StreamInit 0 1 connectedPair :=
  ⟨by decide, by decide, rfl, rfl, rfl, rfl⟩

/-- **A recv returns `0` with bytes in its FIFO**: `0` sends the byte `104` (`'h'`), which the FIFO
accepts, and closes; then a recv on `1` returns `0`, the end of the stream, while `104` waits in
its FIFO and was never returned. -/
theorem recv_eof_with_bytes (capacity : Nat) (hc : 0 < capacity) :
    ∃ p, StreamReachable capacity 0 1 p ∧ (unixsocketRecv p.state 1 1).2 = some (0, []) ∧
      p.state.bufferOf 1 = [104] ∧ p.received ≠ p.sent := by
  have h0 := @StreamReachable.init capacity 0 1 _ streamInit_connectedPair
  have hsend : (unixsocketSend capacity connectedPair.state 0 [104]) =
      (⟨[{ Socket.fresh with connection := some 1 },
        { Socket.fresh with connection := some 0, bufferIn := [104] }]⟩, some 1) := by
    have : 0 < capacity - 0 := by omega
    simp [unixsocketSend, connectedPair, Socket.fresh, SockState.modifySocket, this,
      Nat.pos_iff_ne_zero.1 hc,
      Nat.min_eq_right (Nat.one_le_iff_ne_zero.2 (Nat.pos_iff_ne_zero.1 hc))]
  have h1 := h0.step (.send connectedPair [104])
  rw [hsend] at h1
  have h2 := h1.step (.close _)
  exact ⟨_, h2, by decide, by decide, by decide⟩

theorem recv_eof_with_bytes_4096 :
    0 < 4096 ∧ ∃ p, StreamReachable 4096 0 1 p ∧ (unixsocketRecv p.state 1 1).2 = some (0, []) ∧
      p.state.bufferOf 1 = [104] ∧ p.received ≠ p.sent :=
  ⟨by decide, recv_eof_with_bytes 4096 (by decide)⟩

end Asterisk.UnixSocket
