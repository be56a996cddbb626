import Asterisk.UnixSocket.Wakeup
import Mathlib.Data.List.Nodup

/-! # No lost wakeup in recv and send

The invariant `WakeInv` of the threads and sockets of `Wakeup`, kept by every step
(`WakeInv.step`) and so true at every reachable state (`wakeInv_of_reachable`):

* **ownership** — a thread in a call on socket `i` is `last_thread` of `i`, so the wakeup a call
  sends to a socket's `last_thread` reaches every thread that can wait on it;
* **waits** — a thread in `TS_WAITIO` in recv has an empty FIFO, in send a full peer FIFO, and in
  accept, when `syscall_socket` cannot fail, an empty queue;
* **the rendezvous** — pairing is symmetric, and a queued connector is unpaired, queued once, and
  its thread polls in connect: so accept pairs two unpaired sockets, and the peer of a socket
  whose thread waits in send stays its peer.

With one thread per socket no wakeup of recv or send is lost, whatever `syscall_socket` does; a
lost wakeup of accept needs a failed `syscall_socket` (`suspended_acceptor_misses_connector`). -/

namespace Asterisk.UnixSocket

/-! ## (1) The socket lists -/

/-- The accept queue of the socket at position `l`. -/
def SockState.queueOf (s : SockState) (l : Nat) : List Nat :=
  ((s.sockets[l]?).map Socket.acceptQueue).getD []

/-- Reading a list extended by one element. -/
theorem getElem?_append_singleton {α : Type} (l : List α) (x : α) (j : Nat) :
    (l ++ [x])[j]? = if j = l.length then some x else l[j]? := by
  split_ifs with h
  · subst h; exact List.getElem?_concat_length l x
  · rcases Nat.lt_or_gt_of_ne h with hlt | hgt
    · exact List.getElem?_append_left hlt
    · rw [List.getElem?_eq_none (by simp; omega), List.getElem?_eq_none (by omega)]

section Frame

variable {s : SockState} {i j : Nat} {f : Socket → Socket}

theorem SockState.peer_eq_none_of_le (h : s.sockets.length ≤ j) : s.peer j = none := by
  simp [SockState.peer, List.getElem?_eq_none h]

theorem SockState.lt_of_peer {b : Nat} (h : s.peer j = some b) : j < s.sockets.length := by
  by_contra hj
  rw [peer_eq_none_of_le (by omega)] at h
  cases h

theorem SockState.peer_modifySocket_self {t : Socket} (ht : s.sockets[i]? = some t) :
    (s.modifySocket i f).peer i = (f t).connection := by
  simp [SockState.peer, SockState.modifySocket, ht]

theorem SockState.bufferOf_modifySocket_ne (h : i ≠ j) :
    (s.modifySocket i f).bufferOf j = s.bufferOf j := by
  simp [SockState.bufferOf, SockState.modifySocket, List.getElem?_modify_ne _ _ h]

theorem SockState.queueOf_modifySocket (hf : ∀ t, (f t).acceptQueue = t.acceptQueue) :
    (s.modifySocket i f).queueOf j = s.queueOf j := by
  by_cases h : i = j
  · subst h
    simp only [SockState.queueOf, SockState.modifySocket, List.getElem?_modify_eq]
    cases s.sockets[i]? <;> simp [hf]
  · simp [SockState.queueOf, SockState.modifySocket, List.getElem?_modify_ne _ _ h]

theorem SockState.queueOf_modifySocket_ne (h : i ≠ j) :
    (s.modifySocket i f).queueOf j = s.queueOf j := by
  simp [SockState.queueOf, SockState.modifySocket, List.getElem?_modify_ne _ _ h]

theorem SockState.queueOf_modifySocket_self {t : Socket} (ht : s.sockets[i]? = some t) :
    (s.modifySocket i f).queueOf i = (f t).acceptQueue := by
  simp [SockState.queueOf, SockState.modifySocket, ht]

theorem SockState.peer_append (x : Socket) (j : Nat) :
    (⟨s.sockets ++ [x]⟩ : SockState).peer j = if j = s.sockets.length then x.connection
      else s.peer j := by
  simp only [SockState.peer, getElem?_append_singleton]
  split_ifs <;> rfl

theorem SockState.bufferOf_append (x : Socket) (j : Nat) :
    (⟨s.sockets ++ [x]⟩ : SockState).bufferOf j = if j = s.sockets.length then x.bufferIn
      else s.bufferOf j := by
  simp only [SockState.bufferOf, getElem?_append_singleton]
  split_ifs <;> rfl

theorem SockState.queueOf_append (x : Socket) (j : Nat) :
    (⟨s.sockets ++ [x]⟩ : SockState).queueOf j = if j = s.sockets.length then x.acceptQueue
      else s.queueOf j := by
  simp only [SockState.queueOf, getElem?_append_singleton]
  split_ifs <;> rfl

end Frame

/-! ## (2) The thread lists -/

section Threads

variable {ts : List Task} {v : Nat} {x : Task}

/-- A thread after `List.modify` was a thread before, changed if it is the one modified. -/
theorem getElem?_modify_some {α : Type} {l : List α} {f : α → α} {t : Nat} {a : α}
    (h : (l.modify f t)[v]? = some a) : ∃ b, l[v]? = some b ∧ a = if t = v then f b else b := by
  rw [List.getElem?_modify, Option.map_eq_map] at h
  obtain ⟨b, hb, rfl⟩ := Option.map_eq_some'.1 h
  exact ⟨b, hb, rfl⟩

/-- A wakeup keeps every thread's place, and a thread still waiting after it was waiting before
and, if it is the target, in another function. -/
theorem resumeIf_some {u : Nat} {r : WaitReason} (h : (resumeIf ts u r)[v]? = some x) :
    ∃ y, ts[v]? = some y ∧ y.pc = x.pc ∧
      (x.waitIo = true → y = x ∧ (u = v → x.pc.reason ≠ some r)) := by
  obtain ⟨y, hy, rfl⟩ := getElem?_modify_some h
  refine ⟨y, hy, ?_, ?_⟩
  · split_ifs <;> rfl
  · split_ifs with huv hw <;> simp_all

/-- An external wakeup keeps every thread's place, and a thread still waiting was waiting. -/
theorem resume_some {t : Nat}
    (h : (ts.modify (fun th => { th with waitIo := false }) t)[v]? = some x) :
    ∃ y, ts[v]? = some y ∧ y.pc = x.pc ∧ (x.waitIo = true → y = x) := by
  obtain ⟨y, hy, rfl⟩ := getElem?_modify_some h
  refine ⟨y, hy, ?_, ?_⟩ <;> split_ifs <;> simp

/-- Suspending thread `t` keeps every thread's place and changes no other thread. -/
theorem suspend_some {t : Nat} (h : (suspend ts t)[v]? = some x) :
    ∃ y, ts[v]? = some y ∧ y.pc = x.pc ∧ (t ≠ v → y = x) := by
  obtain ⟨y, hy, rfl⟩ := getElem?_modify_some h
  refine ⟨y, hy, ?_, ?_⟩ <;> split_ifs <;> simp_all

/-- Moving thread `t` to `pc` changes no other thread. -/
theorem moveTo_some {t : Nat} {pc : Pc} (h : (moveTo ts t pc)[v]? = some x) :
    ∃ y, ts[v]? = some y ∧ (t = v → x = { y with pc := pc }) ∧ (t ≠ v → y = x) := by
  obtain ⟨y, hy, rfl⟩ := getElem?_modify_some h
  refine ⟨y, hy, ?_, ?_⟩ <;> split_ifs <;> simp_all

end Threads

/-! ## (3) What each section does -/

/-- The end of a successful turn of accept: the new socket, appended to `g_socket_list`, and the
connector `c` are made each other's `connection`. -/
def SockState.pairWithNew (s : SockState) (c : Nat) : SockState :=
  ⟨(s.sockets ++ [{ Socket.fresh with connection := some c }]).modify
    (fun u => { u with connection := some s.sockets.length }) c⟩

section Calls

variable {s : SockState}

/-- **Every outcome of connect**: it returns at once and changes nothing, or it appends the
unpaired socket `c` to the queue of a listener. -/
theorem unixsocketConnect_cases (c : Nat) (addr : String) :
    ((unixsocketConnect s c addr).1 = s ∧ (unixsocketConnect s c addr).2.isSome) ∨
    ∃ l lsock, findByName s addr = some l ∧ s.sockets[l]? = some lsock ∧ lsock.listening = true ∧
      s.peer c = none ∧ c < s.sockets.length ∧
      unixsocketConnect s c addr =
        (s.modifySocket l fun u => { u with acceptQueue := u.acceptQueue ++ [c] }, none) := by
  unfold unixsocketConnect
  split_ifs
  · exact .inl ⟨rfl, rfl⟩
  · split
    · exact .inl ⟨rfl, rfl⟩
    · next csock hc =>
      split_ifs with hconn
      · exact .inl ⟨rfl, rfl⟩
      · split
        · next l hl =>
          split_ifs with hls
          · obtain ⟨lsock, hlsock, hlis⟩ := Option.map_eq_some'.1 hls
            exact .inr ⟨l, lsock, hl, hlsock, hlis, by simpa [SockState.peer, hc] using hconn,
              (List.getElem?_eq_some_iff.1 hc).1, rfl⟩
          · exact .inl ⟨rfl, rfl⟩
        · exact .inl ⟨rfl, rfl⟩

/-- **Every outcome of a turn of accept**: the queue is empty and nothing changes; or the first
connector `c` is dequeued, and either `syscall_socket` fails or the new socket, appended, is
paired with `c`. -/
theorem unixsocketAcceptStep_cases (l : Nat) (created : Bool) :
    (s.queueOf l = [] ∧ unixsocketAcceptStep s l created = (s, none)) ∨
    ∃ lsock c rest, s.sockets[l]? = some lsock ∧ lsock.acceptQueue = c :: rest ∧
      ((created = false ∧ unixsocketAcceptStep s l created =
          (s.modifySocket l fun u => { u with acceptQueue := rest }, none)) ∨
        (created = true ∧ unixsocketAcceptStep s l created =
          ((s.modifySocket l fun u => { u with acceptQueue := rest }).pairWithNew c,
            some s.sockets.length))) := by
  unfold unixsocketAcceptStep
  split
  · next hl => exact .inl ⟨by simp [SockState.queueOf, hl], rfl⟩
  · next lsock hl =>
    split
    · next hq => exact .inl ⟨by simp [SockState.queueOf, hl, hq], rfl⟩
    · next c rest hq =>
      refine .inr ⟨lsock, c, rest, hl, hq, ?_⟩
      cases created
      · exact .inl ⟨rfl, rfl⟩
      · exact .inr ⟨rfl, Prod.ext rfl (by simp)⟩

/-- **Every outcome of a turn of send**: it returns `-1` and changes nothing; the peer's FIFO is
full and it waits; or it appends bytes to the peer's FIFO. -/
theorem unixsocketSend_cases (capacity a : Nat) (buf : List UInt8) :
    unixsocketSend capacity s a buf = (s, some (-1)) ∨
    (∃ b, s.peer a = some b ∧ capacity ≤ (s.bufferOf b).length ∧
      unixsocketSend capacity s a buf = (s, none)) ∨
    ∃ b bytes k, s.peer a = some b ∧ 0 < k ∧
      unixsocketSend capacity s a buf =
        (s.modifySocket b fun u => { u with bufferIn := u.bufferIn ++ bytes }, some k) := by
  unfold unixsocketSend
  split
  · exact .inl rfl
  · split
    · exact .inl rfl
    · next b hb =>
      split
      · exact .inl rfl
      · next peer hpeer =>
        dsimp only
        split
        · next hfree =>
          refine .inr (.inr ⟨b, _, _, hb, ?_, rfl⟩)
          have : 0 < buf.length := Nat.pos_of_ne_zero ‹_›
          exact_mod_cast Nat.lt_min.2 ⟨hfree, this⟩
        · next hfull =>
          exact .inr (.inl ⟨b, hb, by simp [SockState.bufferOf, hpeer]; omega, rfl⟩)

/-- **Every outcome of a turn of recv**: it returns `-1` or `0` and changes nothing; the FIFO is
empty and it waits; or it removes `k > 0` bytes from the FIFO. -/
theorem unixsocketRecv_cases (b len : Nat) :
    ((unixsocketRecv s b len).1 = s ∧ ∃ r, (unixsocketRecv s b len).2 = some r ∧ r.1 ≤ 0) ∨
    (b < s.sockets.length ∧ s.bufferOf b = [] ∧ unixsocketRecv s b len = (s, none)) ∨
    ∃ (k : Nat) (bytes : List UInt8), 0 < k ∧
      unixsocketRecv s b len =
        (s.modifySocket b fun u => { u with bufferIn := u.bufferIn.drop k }, some ((k : Int), bytes)) := by
  unfold unixsocketRecv
  split
  · exact .inl ⟨rfl, _, rfl, by decide⟩
  · split
    · exact .inl ⟨rfl, _, rfl, by decide⟩
    · next sock hb =>
      split
      · exact .inl ⟨rfl, _, rfl, by decide⟩
      · dsimp only
        split
        · next hsize => exact .inr (.inr ⟨_, _, Nat.lt_min.2 ⟨hsize, by omega⟩, rfl⟩)
        · next hsize =>
          refine .inr (.inl ⟨(List.getElem?_eq_some_iff.1 hb).1, ?_, rfl⟩)
          simpa [SockState.bufferOf, hb] using hsize

end Calls

section Sections

variable (capacity : Nat) (lastThread : Nat → Nat) (sys : WakeSystem) (t : Nat)

/-- **Every outcome of connect**, with its wakeup of the listener's thread. -/
theorem connectSection_cases (c : Nat) (addr : String) :
    connectSection lastThread sys t c addr = sys ∨
    ∃ l lsock, sys.state.sockets[l]? = some lsock ∧ lsock.listening = true ∧
      sys.state.peer c = none ∧ c < sys.state.sockets.length ∧
      connectSection lastThread sys t c addr =
        ⟨sys.state.modifySocket l fun u => { u with acceptQueue := u.acceptQueue ++ [c] },
          resumeIf (moveTo sys.threads t (.connecting c)) (lastThread l) .accept⟩ := by
  rcases unixsocketConnect_cases (s := sys.state) c addr with
    ⟨h1, h2⟩ | ⟨l, lsock, hf, hl, hls, hp, hc, he⟩
  · left
    unfold connectSection
    rcases h : unixsocketConnect sys.state c addr with ⟨s', _ | k⟩
    · simp [h] at h2
    · simp only [h] at h1
      subst h1
      rfl
  · exact .inr ⟨l, lsock, hl, hls, hp, hc, by simp only [connectSection, he, hf]⟩

/-- **Every outcome of a turn of accept**, with the thread waiting or returning. -/
theorem acceptSection_cases (l : Nat) (created : Bool) :
    (sys.state.queueOf l = [] ∧
      acceptSection sys t l created = ⟨sys.state, suspend sys.threads t⟩) ∨
    ∃ lsock c rest, sys.state.sockets[l]? = some lsock ∧ lsock.acceptQueue = c :: rest ∧
      ((created = false ∧ acceptSection sys t l created =
          ⟨sys.state.modifySocket l fun u => { u with acceptQueue := rest },
            suspend sys.threads t⟩) ∨
        (created = true ∧ acceptSection sys t l created =
          ⟨(sys.state.modifySocket l fun u => { u with acceptQueue := rest }).pairWithNew c,
            moveTo sys.threads t .idle⟩)) := by
  rcases unixsocketAcceptStep_cases (s := sys.state) l created with
    ⟨hq, he⟩ | ⟨lsock, c, rest, hl, hq, ⟨hc, he⟩ | ⟨hc, he⟩⟩
  · exact .inl ⟨hq, by simp only [acceptSection, he]⟩
  · exact .inr ⟨lsock, c, rest, hl, hq, .inl ⟨hc, by simp only [acceptSection, he]⟩⟩
  · exact .inr ⟨lsock, c, rest, hl, hq, .inr ⟨hc, by simp only [acceptSection, he]⟩⟩

/-- **Every outcome of a turn of send**, with its wakeup of the peer's thread. -/
theorem sendSection_cases (a : Nat) (buf : List UInt8) :
    sendSection capacity lastThread sys t a buf = ⟨sys.state, moveTo sys.threads t .idle⟩ ∨
    (∃ b, sys.state.peer a = some b ∧ capacity ≤ (sys.state.bufferOf b).length ∧
      sendSection capacity lastThread sys t a buf = ⟨sys.state, suspend sys.threads t⟩) ∨
    ∃ b bytes, sys.state.peer a = some b ∧
      sendSection capacity lastThread sys t a buf =
        ⟨sys.state.modifySocket b fun u => { u with bufferIn := u.bufferIn ++ bytes },
          resumeIf (moveTo sys.threads t .idle) (lastThread b) .recv⟩ := by
  rcases unixsocketSend_cases (s := sys.state) capacity a buf with
    he | ⟨b, hb, hfull, he⟩ | ⟨b, bytes, k, hb, hk, he⟩
  · left
    simp only [sendSection, he]
    split
    · rw [if_neg (by decide)]
    · rfl
  · exact .inr (.inl ⟨b, hb, hfull, by simp only [sendSection, he]⟩)
  · exact .inr (.inr ⟨b, bytes, hb, by simp only [sendSection, he, hb, if_pos hk]⟩)

/-- **Every outcome of a turn of recv**, with its wakeup of the peer's thread. -/
theorem recvSection_cases (b len : Nat) :
    recvSection lastThread sys t b len = ⟨sys.state, moveTo sys.threads t .idle⟩ ∨
    (b < sys.state.sockets.length ∧ sys.state.bufferOf b = [] ∧
      recvSection lastThread sys t b len = ⟨sys.state, suspend sys.threads t⟩) ∨
    ∃ k : Nat,
      (sys.state.peer b = none ∧ recvSection lastThread sys t b len =
        ⟨sys.state.modifySocket b fun u => { u with bufferIn := u.bufferIn.drop k },
          moveTo sys.threads t .idle⟩) ∨
      ∃ a, sys.state.peer b = some a ∧ recvSection lastThread sys t b len =
        ⟨sys.state.modifySocket b fun u => { u with bufferIn := u.bufferIn.drop k },
          resumeIf (moveTo sys.threads t .idle) (lastThread a) .send⟩ := by
  rcases unixsocketRecv_cases (s := sys.state) b len with
    ⟨h1, r, h2, hr⟩ | ⟨hb, hbuf, he⟩ | ⟨k, bytes, hk, he⟩
  · left
    unfold recvSection
    rcases h : unixsocketRecv sys.state b len with ⟨s', _ | ⟨k, bytes⟩⟩
    · simp [h] at h2
    · simp only [h, Option.some.injEq] at h1 h2
      subst h1 h2
      dsimp only
      split
      · rw [if_neg (by simp at hr; omega)]
      · rfl
  · exact .inr (.inl ⟨hb, hbuf, by simp only [recvSection, he]⟩)
  · right; right
    refine ⟨k, ?_⟩
    rcases hp : sys.state.peer b with _ | a
    · exact .inl ⟨rfl, by simp only [recvSection, he, hp]⟩
    · exact .inr ⟨a, rfl, by
      simp only [recvSection, he, hp, if_pos (show (0 : Int) < k by omega)]⟩

end Sections

/-! ## (4) The invariant -/

/-- **The invariant of the threads and sockets.** -/
structure WakeInv (capacity : Nat) (lastThread : Nat → Nat) (failures : Bool) (sys : WakeSystem) :
    Prop where
  /-- A thread in a call on socket `i` is the `last_thread` of `i`. -/
  owner : ∀ (t : Nat) (th : Task) (i : Nat), sys.threads[t]? = some th → th.pc.socket = some i →
    lastThread i = t
  /-- A thread in accept is in it on an existing socket. -/
  listener : ∀ (t : Nat) (th : Task) (l : Nat), sys.threads[t]? = some th →
    th.pc = .accepting l → l < sys.state.sockets.length
  /-- A thread waiting in recv on `b` has an empty FIFO. -/
  recvWait : ∀ (t b len : Nat), sys.threads[t]? = some ⟨.receiving b len, true⟩ →
    b < sys.state.sockets.length ∧ sys.state.bufferOf b = []
  /-- A thread waiting in send on `a` has a full peer FIFO. -/
  sendWait : ∀ (t a : Nat) (buf : List UInt8), sys.threads[t]? = some ⟨.sending a buf, true⟩ →
    ∃ b, sys.state.peer a = some b ∧ capacity ≤ (sys.state.bufferOf b).length
  /-- When `syscall_socket` cannot fail, a thread waiting in accept on `l` has an empty queue. -/
  acceptWait : failures = false → ∀ (t l : Nat), sys.threads[t]? = some ⟨.accepting l, true⟩ →
    sys.state.queueOf l = []
  symm : PairingSymmetric sys.state
  /-- A queued connector exists, is unpaired, and its thread polls in connect. -/
  queued : ∀ (l c : Nat), c ∈ sys.state.queueOf l → c < sys.state.sockets.length ∧
    sys.state.peer c = none ∧ (sys.threads[lastThread c]?).map Task.pc = some (.connecting c)
  /-- A connector is queued at most once. -/
  nodup : ∀ l, (sys.state.queueOf l).Nodup
  unique : ∀ (l l' c : Nat), c ∈ sys.state.queueOf l → c ∈ sys.state.queueOf l' → l = l'
  /-- No socket is disconnected: nothing closes. -/
  live : ∀ (i : Nat) (sock : Socket), sys.state.sockets[i]? = some sock →
    sock.disconnected = false

section Invariant

variable {capacity : Nat} {lastThread : Nat → Nat} {failures : Bool}

theorem wakeInv_init (n : Nat) : WakeInv capacity lastThread failures (WakeSystem.init n) := by
  have hth : ∀ (t : Nat) (th : Task), (WakeSystem.init n).threads[t]? = some th →
      th = ⟨.idle, false⟩ :=
    fun t th h => by
      simp only [WakeSystem.init, List.getElem?_replicate] at h
      split_ifs at h
      exact (Option.some.inj h).symm
  have hnil : ∀ j : Nat, (WakeSystem.init n).state.sockets[j]? = none := fun _ => by
    simp [WakeSystem.init]
  refine ⟨fun t th i h hi => ?_, fun t th l h hl => ?_, fun t b len h => ?_, fun t a buf h => ?_,
    fun _ t l h => ?_, fun a b h => ?_, fun l c h => ?_, fun l => ?_, fun l l' c h => ?_,
    fun i sock h => ?_⟩
  all_goals first
    | (obtain rfl := hth _ _ h; cases hi)
    | (obtain rfl := hth _ _ h; cases hl)
    | cases hth _ _ h
    | simp [SockState.peer, SockState.queueOf, hnil] at h ⊢
    | simp [SockState.queueOf, hnil]

/-- The thread moved by `moveTo` out of a record that does not wait is the only one changed. -/
theorem moveTo_some_of {ts : List Task} {t v : Nat} {p₀ p : Pc} {x : Task}
    (ht : ts[t]? = some ⟨p₀, false⟩) (h : (moveTo ts t p)[v]? = some x) :
    (t = v ∧ x = ⟨p, false⟩) ∨ (t ≠ v ∧ ts[v]? = some x) := by
  obtain ⟨y, hy, h₁, h₂⟩ := moveTo_some h
  by_cases htv : t = v
  · subst htv
    obtain rfl := Option.some.inj (ht.symm.trans hy)
    exact .inl ⟨rfl, h₁ rfl⟩
  · exact .inr ⟨htv, h₂ htv ▸ hy⟩

/-- A change of one thread that keeps its place keeps every thread's place. -/
theorem map_pc_modify {ts : List Task} {g : Task → Task} (hg : ∀ th, (g th).pc = th.pc)
    (t w : Nat) : (ts.modify g t)[w]?.map Task.pc = ts[w]?.map Task.pc := by
  rw [List.getElem?_modify, Option.map_eq_map]
  cases ts[w]? <;> simp only [Option.map_none', Option.map_some']
  split_ifs <;> simp [hg]

variable {sys : WakeSystem}

/-- **A thread enters or leaves a call**, the sockets unchanged: a thread moved out of a record
that does not wait keeps `WakeInv` when its new place is its own socket, an existing listener for
accept, and it stops polling in connect only once paired. -/
theorem WakeInv.move (h : WakeInv capacity lastThread failures sys) {t : Nat} {p₀ p : Pc}
    (ht : sys.threads[t]? = some ⟨p₀, false⟩) (hown : ∀ i, p.socket = some i → lastThread i = t)
    (hlis : ∀ l, p = .accepting l → l < sys.state.sockets.length)
    (hq : ∀ c, p₀ = .connecting c → (sys.state.peer c).isSome ∨ p = .connecting c) :
    WakeInv capacity lastThread failures ⟨sys.state, moveTo sys.threads t p⟩ := by
  have back := fun {v : Nat} {x : Task} (hx : (moveTo sys.threads t p)[v]? = some x) =>
    moveTo_some_of ht hx
  refine ⟨fun v x i hx hi => ?_, fun v x l hx hl => ?_, fun v b len hx => ?_,
    fun v a buf hx => ?_, fun hf v l hx => ?_, h.symm, fun l c hc => ?_, h.nodup, h.unique,
    h.live⟩
  · rcases back hx with ⟨rfl, rfl⟩ | ⟨-, hx⟩
    exacts [hown i hi, h.owner v x i hx hi]
  · rcases back hx with ⟨rfl, rfl⟩ | ⟨-, hx⟩
    exacts [hlis l hl, h.listener v x l hx hl]
  · rcases back hx with ⟨-, h'⟩ | ⟨-, hx⟩
    exacts [absurd h' (by simp), h.recvWait v b len hx]
  · rcases back hx with ⟨-, h'⟩ | ⟨-, hx⟩
    exacts [absurd h' (by simp), h.sendWait v a buf hx]
  · rcases back hx with ⟨-, h'⟩ | ⟨-, hx⟩
    exacts [absurd h' (by simp), h.acceptWait hf v l hx]
  · obtain ⟨hlt, hpc, hth⟩ := h.queued l c hc
    refine ⟨hlt, hpc, ?_⟩
    by_cases htc : t = lastThread c
    · subst htc
      rw [ht] at hth
      rcases hq c (by simpa using hth) with hsome | rfl
      · simp [hpc] at hsome
      · simp [SockState.modifySocket, moveTo, ht]
    · rwa [moveTo, List.getElem?_modify_ne _ _ htc]

/-- **An external wakeup** keeps `WakeInv`. -/
theorem WakeInv.resume (h : WakeInv capacity lastThread failures sys) (t : Nat) :
    WakeInv capacity lastThread failures
      ⟨sys.state, sys.threads.modify (fun th => { th with waitIo := false }) t⟩ := by
  refine ⟨fun v x i hx hi => ?_, fun v x l hx hl => ?_, fun v b len hx => ?_,
    fun v a buf hx => ?_, fun hf v l hx => ?_, h.symm, fun l c hc => ?_, h.nodup, h.unique,
    h.live⟩
  · obtain ⟨y, hy, hpc, -⟩ := resume_some hx
    exact h.owner v y i hy (hpc ▸ hi)
  · obtain ⟨y, hy, hpc, -⟩ := resume_some hx
    exact h.listener v y l hy (hpc ▸ hl)
  · obtain ⟨y, hy, -, hw⟩ := resume_some hx
    exact h.recvWait v b len (hw rfl ▸ hy)
  · obtain ⟨y, hy, -, hw⟩ := resume_some hx
    exact h.sendWait v a buf (hw rfl ▸ hy)
  · obtain ⟨y, hy, -, hw⟩ := resume_some hx
    exact h.acceptWait hf v l (hw rfl ▸ hy)
  · obtain ⟨hlt, hpc, hth⟩ := h.queued l c hc
    exact ⟨hlt, hpc, by
      rw [map_pc_modify (g := fun th => { th with waitIo := false }) (fun _ => rfl)]; exact hth⟩

/-- **A thread goes to `TS_WAITIO`** in the loop it is in, the sockets unchanged: `WakeInv` is
kept when what it waits for has not happened. -/
theorem WakeInv.wait (h : WakeInv capacity lastThread failures sys) {t : Nat} {p : Pc}
    (ht : sys.threads[t]? = some ⟨p, false⟩)
    (hr : ∀ b len, p = .receiving b len →
      b < sys.state.sockets.length ∧ sys.state.bufferOf b = [])
    (hs : ∀ a buf, p = .sending a buf →
      ∃ b, sys.state.peer a = some b ∧ capacity ≤ (sys.state.bufferOf b).length)
    (ha : ∀ l, p = .accepting l → failures = false → sys.state.queueOf l = []) :
    WakeInv capacity lastThread failures ⟨sys.state, suspend sys.threads t⟩ := by
  have back : ∀ {v : Nat} {x : Task}, (suspend sys.threads t)[v]? = some x →
      ∃ y, sys.threads[v]? = some y ∧ y.pc = x.pc ∧ (t = v → x.pc = p) ∧ (t ≠ v → y = x) :=
    fun hx => by
      obtain ⟨y, hy, hpc, hne⟩ := suspend_some hx
      refine ⟨y, hy, hpc, fun htv => ?_, hne⟩
      subst htv
      rw [← hpc, ← Option.some.inj (ht.symm.trans hy)]
  refine ⟨fun v x i hx hi => ?_, fun v x l hx hl => ?_, fun v b len hx => ?_,
    fun v a buf hx => ?_, fun hf v l hx => ?_, h.symm, fun l c hc => ?_, h.nodup, h.unique,
    h.live⟩
  · obtain ⟨y, hy, hpc, -⟩ := back hx
    exact h.owner v y i hy (hpc ▸ hi)
  · obtain ⟨y, hy, hpc, -⟩ := back hx
    exact h.listener v y l hy (hpc ▸ hl)
  · obtain ⟨y, hy, -, hself, hne⟩ := back hx
    by_cases htv : t = v
    exacts [hr b len (hself htv).symm, h.recvWait v b len (hne htv ▸ hy)]
  · obtain ⟨y, hy, -, hself, hne⟩ := back hx
    by_cases htv : t = v
    exacts [hs a buf (hself htv).symm, h.sendWait v a buf (hne htv ▸ hy)]
  · obtain ⟨y, hy, -, hself, hne⟩ := back hx
    by_cases htv : t = v
    exacts [ha l (hself htv).symm hf, h.acceptWait hf v l (hne htv ▸ hy)]
  · obtain ⟨hlt, hpc, hth⟩ := h.queued l c hc
    exact ⟨hlt, hpc, by
      rw [suspend, map_pc_modify (g := fun th => { th with waitIo := true }) (fun _ => rfl)]
      exact hth⟩

/-- A wakeup keeps every thread's place. -/
theorem resumeIf_map_pc {ts : List Task} {u : Nat} {r : WaitReason} (w : Nat) :
    (resumeIf ts u r)[w]?.map Task.pc = ts[w]?.map Task.pc :=
  map_pc_modify (fun th => by split_ifs <;> rfl) u w

/-- **A change of one socket that keeps its peer, FIFO, queue and `disconnected`**, as bind and
listen make, keeps `WakeInv`. -/
theorem WakeInv.modifySocket (h : WakeInv capacity lastThread failures sys) (i : Nat)
    {f : Socket → Socket} (hc : ∀ u, (f u).connection = u.connection)
    (hb : ∀ u, (f u).bufferIn = u.bufferIn) (hq : ∀ u, (f u).acceptQueue = u.acceptQueue)
    (hd : ∀ u, (f u).disconnected = u.disconnected) :
    WakeInv capacity lastThread failures ⟨sys.state.modifySocket i f, sys.threads⟩ := by
  have e₁ : ∀ j, (sys.state.modifySocket i f).peer j = sys.state.peer j :=
    fun _ => SockState.peer_modifySocket hc
  have e₂ : ∀ j, (sys.state.modifySocket i f).bufferOf j = sys.state.bufferOf j :=
    fun _ => SockState.bufferOf_modifySocket hb
  have e₃ : ∀ j, (sys.state.modifySocket i f).queueOf j = sys.state.queueOf j :=
    fun _ => SockState.queueOf_modifySocket hq
  exact ⟨h.owner, by simpa only [SockState.length_modifySocket] using h.listener,
    by simpa only [SockState.length_modifySocket, e₂] using h.recvWait,
    by simpa only [e₁, e₂] using h.sendWait, by simpa only [e₃] using h.acceptWait,
    fun a b hab => by rw [e₁] at hab ⊢; exact h.symm a b (by simpa only [e₁] using hab),
    by simpa only [SockState.length_modifySocket, e₁, e₃] using h.queued,
    by simpa only [e₃] using h.nodup, by simpa only [e₃] using h.unique,
    SockState.forall_modifySocket h.live fun u hu => (hd u).trans (h.live i u hu)⟩

/-- **The creation of a socket** keeps `WakeInv`: the fresh socket has no peer, queue or byte. -/
theorem WakeInv.create (h : WakeInv capacity lastThread failures sys) :
    WakeInv capacity lastThread failures ⟨⟨sys.state.sockets ++ [Socket.fresh]⟩, sys.threads⟩ := by
  have hlen : (⟨sys.state.sockets ++ [Socket.fresh]⟩ : SockState).sockets.length =
      sys.state.sockets.length + 1 := by simp
  have hpeer : ∀ {a b : Nat}, sys.state.peer a = some b →
      (⟨sys.state.sockets ++ [Socket.fresh]⟩ : SockState).peer a = some b := fun hab => by
    rw [SockState.peer_append, if_neg (ne_of_lt (SockState.lt_of_peer hab))]; exact hab
  have hbuf : ∀ {j : Nat}, j < sys.state.sockets.length →
      (⟨sys.state.sockets ++ [Socket.fresh]⟩ : SockState).bufferOf j = sys.state.bufferOf j :=
    fun hj => by rw [SockState.bufferOf_append, if_neg (ne_of_lt hj)]
  have hque : ∀ j, (⟨sys.state.sockets ++ [Socket.fresh]⟩ : SockState).queueOf j =
      if j = sys.state.sockets.length then [] else sys.state.queueOf j :=
    fun j => SockState.queueOf_append _ j
  refine ⟨h.owner, fun v x l hx hl => ?_, fun v b len hx => ?_, fun v a buf hx => ?_,
    fun hf v l hx => ?_, fun a b hab => ?_, fun l c hc => ?_, fun l => ?_, fun l l' c hc hc' => ?_,
    SockState.forall_append h.live rfl⟩
  · rw [hlen]; exact Nat.lt_succ_of_lt (h.listener v x l hx hl)
  · obtain ⟨hb, he⟩ := h.recvWait v b len hx
    exact ⟨by simp; omega, (hbuf hb).trans he⟩
  · obtain ⟨b, hab, hfull⟩ := h.sendWait v a buf hx
    exact ⟨b, hpeer hab, by rw [hbuf (SockState.lt_of_peer (h.symm a b hab))]; exact hfull⟩
  · rw [hque, if_neg (ne_of_lt (h.listener v _ l hx rfl))]
    exact h.acceptWait hf v l hx
  · rw [SockState.peer_append] at hab
    split_ifs at hab
    · cases hab
    · exact hpeer (h.symm a b hab)
  · rw [hque] at hc
    split_ifs at hc with hl
    · cases hc
    · obtain ⟨hlt, hpc, hth⟩ := h.queued l c hc
      exact ⟨by simp; omega, by rw [SockState.peer_append, if_neg (by omega)]; exact hpc, hth⟩
  · rw [hque]
    split_ifs
    exacts [List.nodup_nil, h.nodup l]
  · rw [hque] at hc hc'
    split_ifs at hc hc'
    all_goals first | cases hc | cases hc' | exact h.unique l l' c hc hc'

/-- **A turn of accept dequeues its first connector**: no other thread waits in accept on the
listener, its `last_thread` being the one running the turn. -/
theorem WakeInv.dequeue (h : WakeInv capacity lastThread failures sys) {l c : Nat} {lsock : Socket}
    {rest : List Nat} (hl : sys.state.sockets[l]? = some lsock) (hq : lsock.acceptQueue = c :: rest)
    (ht : ∀ th, sys.threads[lastThread l]? = some th → th.waitIo = false) :
    WakeInv capacity lastThread failures
      ⟨sys.state.modifySocket l fun u => { u with acceptQueue := rest }, sys.threads⟩ := by
  have hql : sys.state.queueOf l = c :: rest := by simp [SockState.queueOf, hl, hq]
  have hque : ∀ j, (sys.state.modifySocket l fun u => { u with acceptQueue := rest }).queueOf j =
      if j = l then rest else sys.state.queueOf j := fun j => by
    split_ifs with hj
    · subst hj; exact SockState.queueOf_modifySocket_self hl
    · exact SockState.queueOf_modifySocket_ne (Ne.symm hj)
  have hmem : ∀ j x, x ∈ (sys.state.modifySocket l fun u => { u with acceptQueue := rest }).queueOf j →
      x ∈ sys.state.queueOf j := fun j x hx => by
    rw [hque] at hx
    split_ifs at hx with hj
    · subst hj; rw [hql]; exact List.mem_cons_of_mem c hx
    · exact hx
  have e₁ : ∀ j, (sys.state.modifySocket l fun u => { u with acceptQueue := rest }).peer j =
      sys.state.peer j := fun _ => SockState.peer_modifySocket fun _ => rfl
  have e₂ : ∀ j, (sys.state.modifySocket l fun u => { u with acceptQueue := rest }).bufferOf j =
      sys.state.bufferOf j := fun _ => SockState.bufferOf_modifySocket fun _ => rfl
  refine ⟨h.owner, by simpa only [SockState.length_modifySocket] using h.listener,
    by simpa only [SockState.length_modifySocket, e₂] using h.recvWait,
    by simpa only [e₁, e₂] using h.sendWait, fun hf v l' hx => ?_,
    fun a b hab => by rw [e₁] at hab ⊢; exact h.symm a b hab,
    fun l' x hx => by simpa only [SockState.length_modifySocket, e₁] using h.queued l' x (hmem l' x hx),
    fun j => ?_, fun j j' x hx hx' => h.unique j j' x (hmem j x hx) (hmem j' x hx'),
    SockState.forall_modifySocket h.live fun u hu => h.live l u hu⟩
  · rw [hque]
    split_ifs with hj
    · subst hj
      have := ht _ (h.owner v _ l' hx rfl ▸ hx)
      cases this
    · exact h.acceptWait hf v l' hx
  · rw [hque]
    split_ifs with hj
    · have := h.nodup l; rw [hql] at this; exact this.of_cons
    · exact h.nodup j

/-- A socket's FIFO does not shrink when bytes are appended to one FIFO. -/
theorem SockState.bufferOf_length_le_append {s : SockState} (b j : Nat) (bytes : List UInt8) :
    (s.bufferOf j).length ≤
      ((s.modifySocket b fun u => { u with bufferIn := u.bufferIn ++ bytes }).bufferOf j).length := by
  by_cases hj : b = j
  · subst hj
    rcases hb : s.sockets[b]? with _ | u
    · simp [SockState.bufferOf, SockState.modifySocket, hb]
    · rw [SockState.bufferOf_modifySocket_self hb]
      simp [SockState.bufferOf, hb]
  · rw [SockState.bufferOf_modifySocket_ne hj]

section Pair

variable {s : SockState} {c : Nat}

theorem SockState.length_pairWithNew :
    (s.pairWithNew c).sockets.length = s.sockets.length + 1 := by
  simp [SockState.pairWithNew]

theorem SockState.bufferOf_pairWithNew (j : Nat) : (s.pairWithNew c).bufferOf j = s.bufferOf j := by
  show (SockState.modifySocket ⟨_⟩ c _).bufferOf j = _
  rw [SockState.bufferOf_modifySocket (f := fun u => { u with connection := some s.sockets.length })
    fun _ => rfl, SockState.bufferOf_append]
  split_ifs with hj
  · subst hj; simp [SockState.bufferOf, Socket.fresh]
  · rfl

theorem SockState.queueOf_pairWithNew (j : Nat) : (s.pairWithNew c).queueOf j = s.queueOf j := by
  show (SockState.modifySocket ⟨_⟩ c _).queueOf j = _
  rw [SockState.queueOf_modifySocket (f := fun u => { u with connection := some s.sockets.length })
    fun _ => rfl, SockState.queueOf_append]
  split_ifs with hj
  · subst hj; simp [SockState.queueOf, Socket.fresh]
  · rfl

/-- **The peers after a successful accept**: the connector `c` and the new socket are each
other's peer, every other socket keeps its peer. -/
theorem SockState.peer_pairWithNew (hc : c < s.sockets.length) (j : Nat) :
    (s.pairWithNew c).peer j = if j = c then some s.sockets.length
      else if j = s.sockets.length then some c else s.peer j := by
  show (SockState.modifySocket ⟨_⟩ c _).peer j = _
  split_ifs with hjc hjn
  · subst hjc
    rw [SockState.peer_modifySocket_self (List.getElem?_eq_getElem (by simp; omega))]
  · rw [SockState.peer_modifySocket_ne (Ne.symm hjc), SockState.peer_append, if_pos hjn]
  · rw [SockState.peer_modifySocket_ne (Ne.symm hjc), SockState.peer_append, if_neg hjn]

end Pair

/-- **A successful accept pairs the new socket with an unqueued, unpaired connector**, and keeps
`WakeInv`. -/
theorem WakeInv.pairWithNew (h : WakeInv capacity lastThread failures sys) {c : Nat}
    (hcq : ∀ l, c ∉ sys.state.queueOf l) (hpc : sys.state.peer c = none)
    (hclt : c < sys.state.sockets.length) :
    WakeInv capacity lastThread failures ⟨sys.state.pairWithNew c, sys.threads⟩ := by
  have hpeer : ∀ {a b : Nat}, sys.state.peer a = some b → (sys.state.pairWithNew c).peer a = some b :=
    fun {a b} hab => by
      have hac : a ≠ c := fun hac => by rw [hac, hpc] at hab; cases hab
      rw [SockState.peer_pairWithNew hclt, if_neg hac,
        if_neg (ne_of_lt (SockState.lt_of_peer hab))]
      exact hab
  refine ⟨h.owner, fun v x l hx hl => ?_, fun v b len hx => ?_, fun v a buf hx => ?_,
    fun hf v l hx => ?_, fun a b hab => ?_, fun l x hx => ?_, fun l => ?_, fun l l' x hx hx' => ?_,
    ?_⟩
  · rw [SockState.length_pairWithNew]; exact Nat.lt_succ_of_lt (h.listener v x l hx hl)
  · obtain ⟨hb, he⟩ := h.recvWait v b len hx
    exact ⟨by rw [SockState.length_pairWithNew]; omega, by rw [SockState.bufferOf_pairWithNew, he]⟩
  · obtain ⟨b, hab, hfull⟩ := h.sendWait v a buf hx
    exact ⟨b, hpeer hab, by rwa [SockState.bufferOf_pairWithNew]⟩
  · rw [SockState.queueOf_pairWithNew]; exact h.acceptWait hf v l hx
  · rw [SockState.peer_pairWithNew hclt] at hab
    split_ifs at hab with hac han
    · cases hab
      rw [SockState.peer_pairWithNew hclt, if_neg (by omega), if_pos rfl, hac]
    · cases hab
      rw [SockState.peer_pairWithNew hclt, if_pos rfl, han]
    · exact hpeer (h.symm a b hab)
  · rw [SockState.queueOf_pairWithNew] at hx
    obtain ⟨hlt, hpx, hth⟩ := h.queued l x hx
    have hxc : x ≠ c := fun hxc => hcq l (hxc ▸ hx)
    refine ⟨by rw [SockState.length_pairWithNew]; omega, ?_, hth⟩
    rw [SockState.peer_pairWithNew hclt, if_neg hxc, if_neg (by omega), hpx]
  · rw [SockState.queueOf_pairWithNew]; exact h.nodup l
  · rw [SockState.queueOf_pairWithNew] at hx hx'; exact h.unique l l' x hx hx'
  · exact SockState.forall_modifySocket (SockState.forall_append h.live rfl) fun u hu =>
      SockState.forall_append h.live rfl c u hu

/-- **Connect enqueues an unqueued, unpaired connector whose thread polls**, and resumes the
listener's `last_thread` if it waits in accept: `WakeInv` is kept. -/
theorem WakeInv.enqueue (h : WakeInv capacity lastThread failures sys) {l c : Nat} {lsock : Socket}
    (hl : sys.state.sockets[l]? = some lsock) (hpc : sys.state.peer c = none)
    (hclt : c < sys.state.sockets.length)
    (hth : (sys.threads[lastThread c]?).map Task.pc = some (.connecting c))
    (hcq : ∀ l', c ∉ sys.state.queueOf l') :
    WakeInv capacity lastThread failures
      ⟨sys.state.modifySocket l fun u => { u with acceptQueue := u.acceptQueue ++ [c] },
        resumeIf sys.threads (lastThread l) .accept⟩ := by
  have hql : sys.state.queueOf l = lsock.acceptQueue := by simp [SockState.queueOf, hl]
  have hque : ∀ j, (sys.state.modifySocket l fun u =>
      { u with acceptQueue := u.acceptQueue ++ [c] }).queueOf j =
      if j = l then sys.state.queueOf l ++ [c] else sys.state.queueOf j := fun j => by
    split_ifs with hj
    · subst hj; rw [SockState.queueOf_modifySocket_self hl, hql]
    · exact SockState.queueOf_modifySocket_ne (Ne.symm hj)
  have hmem : ∀ j x, x ∈ (sys.state.modifySocket l fun u =>
      { u with acceptQueue := u.acceptQueue ++ [c] }).queueOf j →
      x ∈ sys.state.queueOf j ∨ (j = l ∧ x = c) := fun j x hx => by
    rw [hque] at hx
    split_ifs at hx with hj
    · subst hj; simpa using hx
    · exact .inl hx
  have e₁ : ∀ j, (sys.state.modifySocket l fun u =>
      { u with acceptQueue := u.acceptQueue ++ [c] }).peer j = sys.state.peer j :=
    fun _ => SockState.peer_modifySocket fun _ => rfl
  have e₂ : ∀ j, (sys.state.modifySocket l fun u =>
      { u with acceptQueue := u.acceptQueue ++ [c] }).bufferOf j = sys.state.bufferOf j :=
    fun _ => SockState.bufferOf_modifySocket fun _ => rfl
  refine ⟨fun v x i hx hi => ?_, fun v x l' hx hl' => ?_, fun v b len hx => ?_,
    fun v a buf hx => ?_, fun hf v l' hx => ?_, fun a b hab => ?_, fun l' x hx => ?_,
    fun j => ?_, fun j j' x hx hx' => ?_, SockState.forall_modifySocket h.live fun u hu =>
      h.live l u hu⟩
  · obtain ⟨y, hy, hpc', -⟩ := resumeIf_some hx
    exact h.owner v y i hy (hpc' ▸ hi)
  · obtain ⟨y, hy, hpc', -⟩ := resumeIf_some hx
    simpa using h.listener v y l' hy (hpc' ▸ hl')
  · obtain ⟨y, hy, -, hw⟩ := resumeIf_some hx
    simpa [e₂] using h.recvWait v b len ((hw rfl).1 ▸ hy)
  · obtain ⟨y, hy, -, hw⟩ := resumeIf_some hx
    simpa [e₁, e₂] using h.sendWait v a buf ((hw rfl).1 ▸ hy)
  · obtain ⟨y, hy, -, hw⟩ := resumeIf_some hx
    obtain ⟨rfl, hr⟩ := hw rfl
    have hne : l' ≠ l := fun hl' => hr (by rw [← hl']; exact h.owner v _ l' hy rfl) rfl
    rw [hque, if_neg hne]
    exact h.acceptWait hf v l' hy
  · rw [e₁] at hab ⊢; exact h.symm a b hab
  · rcases hmem l' x hx with hx | ⟨-, rfl⟩
    · obtain ⟨hlt, hpx, hth'⟩ := h.queued l' x hx
      exact ⟨by simpa using hlt, by rw [e₁]; exact hpx, by rw [resumeIf_map_pc]; exact hth'⟩
    · exact ⟨by simpa using hclt, by rw [e₁]; exact hpc, by rw [resumeIf_map_pc]; exact hth⟩
  · rw [hque]
    split_ifs with hj
    · rw [← List.concat_eq_append]; exact (h.nodup l).concat (hcq l)
    · exact h.nodup j
  · rcases hmem j x hx with hx | ⟨hj, hxc⟩ <;> rcases hmem j' x hx' with hx' | ⟨hj', hxc'⟩
    · exact h.unique j j' x hx hx'
    · exact absurd (hxc' ▸ hx) (hcq j)
    · exact absurd (hxc ▸ hx') (hcq j')
    · rw [hj, hj']

/-- **Send appends bytes to a FIFO** and resumes its socket's `last_thread` if it waits in recv:
`WakeInv` is kept. -/
theorem WakeInv.write (h : WakeInv capacity lastThread failures sys) (b : Nat)
    (bytes : List UInt8) :
    WakeInv capacity lastThread failures
      ⟨sys.state.modifySocket b fun u => { u with bufferIn := u.bufferIn ++ bytes },
        resumeIf sys.threads (lastThread b) .recv⟩ := by
  have e₁ : ∀ j, (sys.state.modifySocket b fun u => { u with bufferIn := u.bufferIn ++ bytes }).peer j =
      sys.state.peer j := fun _ => SockState.peer_modifySocket fun _ => rfl
  have e₃ : ∀ j, (sys.state.modifySocket b fun u =>
      { u with bufferIn := u.bufferIn ++ bytes }).queueOf j = sys.state.queueOf j :=
    fun _ => SockState.queueOf_modifySocket fun _ => rfl
  refine ⟨fun v x i hx hi => ?_, fun v x l hx hl => ?_, fun v b' len hx => ?_,
    fun v a buf hx => ?_, fun hf v l hx => ?_, fun a b hab => ?_, fun l x hx => ?_,
    by simpa only [e₃] using h.nodup, by simpa only [e₃] using h.unique,
    SockState.forall_modifySocket h.live fun u hu => h.live b u hu⟩
  · obtain ⟨y, hy, hpc', -⟩ := resumeIf_some hx
    exact h.owner v y i hy (hpc' ▸ hi)
  · obtain ⟨y, hy, hpc', -⟩ := resumeIf_some hx
    simpa using h.listener v y l hy (hpc' ▸ hl)
  · obtain ⟨y, hy, -, hw⟩ := resumeIf_some hx
    obtain ⟨rfl, hr⟩ := hw rfl
    have hbb : b ≠ b' := fun hbb => hr (hbb ▸ h.owner v _ b' hy rfl) rfl
    obtain ⟨hlt, he⟩ := h.recvWait v b' len hy
    exact ⟨by simpa using hlt, by rw [SockState.bufferOf_modifySocket_ne hbb]; exact he⟩
  · obtain ⟨y, hy, -, hw⟩ := resumeIf_some hx
    obtain ⟨b', hab, hfull⟩ := h.sendWait v a buf ((hw rfl).1 ▸ hy)
    exact ⟨b', by rw [e₁]; exact hab,
      hfull.trans (SockState.bufferOf_length_le_append b b' bytes)⟩
  · obtain ⟨y, hy, -, hw⟩ := resumeIf_some hx
    rw [e₃]; exact h.acceptWait hf v l ((hw rfl).1 ▸ hy)
  · rw [e₁] at hab ⊢; exact h.symm a b hab
  · rw [e₃] at hx
    obtain ⟨hlt, hpx, hth⟩ := h.queued l x hx
    exact ⟨by simpa using hlt, by rw [e₁]; exact hpx, by rw [resumeIf_map_pc]; exact hth⟩

/-- **Recv removes bytes from the FIFO of `b`** while `b`'s `last_thread` runs outside the loop,
and resumes the peer's `last_thread` if it waits in send: `WakeInv` is kept. -/
theorem WakeInv.read (h : WakeInv capacity lastThread failures sys) {b k : Nat} {ts : List Task}
    (hidle : (sys.threads[lastThread b]?).map Task.pc = some .idle)
    (hts : (sys.state.peer b = none ∧ ts = sys.threads) ∨
      ∃ a, sys.state.peer b = some a ∧ ts = resumeIf sys.threads (lastThread a) .send) :
    WakeInv capacity lastThread failures
      ⟨sys.state.modifySocket b fun u => { u with bufferIn := u.bufferIn.drop k }, ts⟩ := by
  have back : ∀ {v : Nat} {x : Task}, ts[v]? = some x → ∃ y, sys.threads[v]? = some y ∧
      y.pc = x.pc ∧ (x.waitIo = true → y = x ∧
        ∀ a, sys.state.peer b = some a → lastThread a = v → x.pc.reason ≠ some .send) :=
    fun {v x} hx => by
      rcases hts with ⟨hp, rfl⟩ | ⟨a, hp, rfl⟩
      · exact ⟨x, hx, rfl, fun _ => ⟨rfl, fun a ha => by rw [hp] at ha; cases ha⟩⟩
      · obtain ⟨y, hy, hpc', hw⟩ := resumeIf_some hx
        refine ⟨y, hy, hpc', fun hxw => ⟨(hw hxw).1, fun a' ha' => ?_⟩⟩
        rw [hp] at ha'
        cases ha'
        exact (hw hxw).2
  have fwd : ∀ w, (ts[w]?).map Task.pc = (sys.threads[w]?).map Task.pc := fun w => by
    rcases hts with ⟨-, rfl⟩ | ⟨a, -, rfl⟩
    exacts [rfl, resumeIf_map_pc w]
  have e₁ : ∀ j, (sys.state.modifySocket b fun u => { u with bufferIn := u.bufferIn.drop k }).peer j =
      sys.state.peer j := fun _ => SockState.peer_modifySocket fun _ => rfl
  have e₃ : ∀ j, (sys.state.modifySocket b fun u =>
      { u with bufferIn := u.bufferIn.drop k }).queueOf j = sys.state.queueOf j :=
    fun _ => SockState.queueOf_modifySocket fun _ => rfl
  refine ⟨fun v x i hx hi => ?_, fun v x l hx hl => ?_, fun v b' len hx => ?_,
    fun v a buf hx => ?_, fun hf v l hx => ?_, fun a b hab => ?_, fun l x hx => ?_,
    by simpa only [e₃] using h.nodup, by simpa only [e₃] using h.unique,
    SockState.forall_modifySocket h.live fun u hu => h.live b u hu⟩
  · obtain ⟨y, hy, hpc', -⟩ := back hx
    exact h.owner v y i hy (hpc' ▸ hi)
  · obtain ⟨y, hy, hpc', -⟩ := back hx
    simpa using h.listener v y l hy (hpc' ▸ hl)
  · obtain ⟨y, hy, -, hw⟩ := back hx
    obtain ⟨rfl, -⟩ := hw rfl
    have hbb : b ≠ b' := fun hbb => by
      subst hbb
      rw [h.owner v _ b hy rfl, hy] at hidle
      cases hidle
    obtain ⟨hlt, he⟩ := h.recvWait v b' len hy
    exact ⟨by simpa using hlt, by rw [SockState.bufferOf_modifySocket_ne hbb]; exact he⟩
  · obtain ⟨y, hy, -, hw⟩ := back hx
    obtain ⟨rfl, hr⟩ := hw rfl
    obtain ⟨b', hab, hfull⟩ := h.sendWait v a buf hy
    have hbb : b ≠ b' := fun hbb => by
      subst hbb
      exact hr a (h.symm a b hab) (h.owner v _ a hy rfl) rfl
    exact ⟨b', by rw [e₁]; exact hab, by rwa [SockState.bufferOf_modifySocket_ne hbb]⟩
  · obtain ⟨y, hy, -, hw⟩ := back hx
    rw [e₃]; exact h.acceptWait hf v l ((hw rfl).1 ▸ hy)
  · rw [e₁] at hab ⊢; exact h.symm a b hab
  · rw [e₃] at hx
    obtain ⟨hlt, hpx, hth⟩ := h.queued l x hx
    exact ⟨by simpa using hlt, by rw [e₁]; exact hpx, by rw [fwd]; exact hth⟩

end Invariant

/-! ## (5) Every reachable state -/

section Steps

variable {nameSize capacity : Nat} {lastThread : Nat → Nat} {failures : Bool} {sys : WakeSystem}

/-- **Step lemma**: every step keeps `WakeInv`. -/
theorem WakeInv.step (h : WakeInv capacity lastThread failures sys) {sys' : WakeSystem}
    (hs : WakeStep nameSize capacity lastThread failures sys sys') :
    WakeInv capacity lastThread failures sys' := by
  cases hs with
  | create => exact h.create
  | bind t i addr =>
    show WakeInv _ _ _ ⟨(unixsocketBind nameSize sys.state i addr).1, sys.threads⟩
    unfold unixsocketBind
    split
    · exact h
    · split_ifs
      exacts [h, h, h, h.modifySocket i (fun _ => rfl) (fun _ => rfl) (fun _ => rfl) fun _ => rfl]
  | listen t i => exact h.modifySocket i (fun _ => rfl) (fun _ => rfl) (fun _ => rfl) fun _ => rfl
  | connect t c addr ht hown =>
    rcases connectSection_cases lastThread sys t c addr with
      he | ⟨l, lsock, hl, -, hpc, hclt, he⟩
    · rw [he]; exact h
    · rw [he]
      have hcq : ∀ l', c ∉ sys.state.queueOf l' := fun l' hc => by
        have := (h.queued l' c hc).2.2
        rw [hown, ht] at this
        cases this
      exact (h.move ht (p := .connecting c) (fun i hi => by cases hi; exact hown)
        (fun _ hl => by cases hl) (fun _ hc => by cases hc)).enqueue hl hpc hclt
        (by simp [moveTo, hown, ht]) hcq
  | connectPoll t c ht hsome =>
    exact h.move ht (fun _ hi => by cases hi) (fun _ hl => by cases hl)
      fun _ hc => .inl (by cases hc; exact hsome)
  | acceptEnter t l ht hown hlis =>
    refine h.move ht (fun i hi => by cases hi; exact hown) (fun l' hl' => ?_) fun _ hc => by cases hc
    cases hl'
    obtain ⟨u, hu, -⟩ := Option.map_eq_some'.1 hlis
    exact (List.getElem?_eq_some_iff.1 hu).1
  | accept t l created ht hfail =>
    have hown : lastThread l = t := h.owner t _ l ht rfl
    have hrun : ∀ th, sys.threads[lastThread l]? = some th → th.waitIo = false := fun th hth => by
      rw [hown, ht] at hth; cases hth; rfl
    rcases acceptSection_cases sys t l created with
      ⟨hq, he⟩ | ⟨lsock, c, rest, hl, hq, ⟨hc, he⟩ | ⟨hc, he⟩⟩
    · rw [he]
      exact h.wait ht (fun _ _ he' => by cases he') (fun _ _ he' => by cases he')
        fun _ hl' _ => by cases hl'; exact hq
    · rw [he]
      exact (h.dequeue hl hq hrun).wait ht (fun _ _ he' => by cases he')
        (fun _ _ he' => by cases he') fun _ _ hf => absurd (hfail hc) (by simp [hf])
    · rw [he]
      have hql : sys.state.queueOf l = c :: rest := by simp [SockState.queueOf, hl, hq]
      obtain ⟨hclt, hpc, -⟩ := h.queued l c (by rw [hql]; exact List.mem_cons_self c rest)
      have hcq : ∀ l', c ∉ (sys.state.modifySocket l fun u =>
          { u with acceptQueue := rest }).queueOf l' := fun l' hc' => by
        by_cases hl' : l = l'
        · subst hl'
          rw [SockState.queueOf_modifySocket_self hl] at hc'
          exact (List.nodup_cons.1 (hql ▸ h.nodup l)).1 hc'
        · rw [SockState.queueOf_modifySocket_ne hl'] at hc'
          exact hl' (h.unique l l' c (by rw [hql]; exact List.mem_cons_self c rest) hc')
      exact ((h.dequeue hl hq hrun).pairWithNew hcq
        ((SockState.peer_modifySocket (f := fun u => { u with acceptQueue := rest })
          fun _ => rfl).trans hpc) (by simpa using hclt)).move
        ht (fun _ hi => by cases hi) (fun _ hl' => by cases hl') fun _ hc' => by cases hc'
  | sendEnter t a buf ht hown =>
    exact h.move ht (fun i hi => by cases hi; exact hown) (fun _ hl => by cases hl)
      fun _ hc => by cases hc
  | send t a buf ht =>
    rcases sendSection_cases capacity lastThread sys t a buf with he | ⟨b, hb, hfull, he⟩ | ⟨b, bytes, hb, he⟩
    · rw [he]
      exact h.move ht (fun _ hi => by cases hi) (fun _ hl => by cases hl) fun _ hc => by cases hc
    · rw [he]
      exact h.wait ht (fun _ _ he' => by cases he') (fun _ _ he' => by cases he'; exact ⟨b, hb, hfull⟩)
        fun _ he' => by cases he'
    · rw [he]
      exact (h.move ht (fun _ hi => by cases hi) (fun _ hl => by cases hl)
        fun _ hc => by cases hc).write b bytes
  | recvEnter t b len ht hown =>
    exact h.move ht (fun i hi => by cases hi; exact hown) (fun _ hl => by cases hl)
      fun _ hc => by cases hc
  | recv t b len ht =>
    have hown : lastThread b = t := h.owner t _ b ht rfl
    have hm := h.move ht (p := .idle) (fun _ hi => by cases hi) (fun _ hl => by cases hl)
      fun _ hc => by cases hc
    have hidle : ((moveTo sys.threads t .idle)[lastThread b]?).map Task.pc = some .idle := by
      simp [moveTo, hown, ht]
    rcases recvSection_cases lastThread sys t b len with
      he | ⟨hb, hbuf, he⟩ | ⟨k, ⟨hp, he⟩ | ⟨a, hp, he⟩⟩
    · rw [he]; exact hm
    · rw [he]
      exact h.wait ht (fun _ _ he' => by cases he'; exact ⟨hb, hbuf⟩) (fun _ _ he' => by cases he')
        fun _ he' => by cases he'
    · rw [he]; exact hm.read hidle (.inl ⟨hp, rfl⟩)
    · rw [he]; exact hm.read hidle (.inr ⟨a, hp, rfl⟩)
  | resume t => exact h.resume t

/-- **Run lemma**: `WakeInv` holds at every reachable state. -/
theorem wakeInv_of_reachable (h : WakeReachable nameSize capacity lastThread failures sys) :
    WakeInv capacity lastThread failures sys := by
  induction h with
  | init n => exact wakeInv_init n
  | step _ hs ih => exact ih.step hs

/-- What `WakeInv` says of a waiting thread is `StillBlocked`, for accept when `syscall_socket`
cannot fail. -/
theorem WakeInv.stillBlocked (h : WakeInv capacity lastThread failures sys) {t : Nat} {th : Task}
    (ht : sys.threads[t]? = some th) (hw : th.waitIo = true)
    (hacc : failures = false ∨ th.pc.reason ≠ some .accept) :
    StillBlocked capacity sys.state th.pc := by
  obtain ⟨pc, _⟩ := th
  subst hw
  have hsock : ∀ {j : Nat}, j < sys.state.sockets.length →
      ∃ sock, sys.state.sockets[j]? = some sock ∧ sys.state.bufferOf j = sock.bufferIn ∧
        sys.state.queueOf j = sock.acceptQueue := fun hj =>
    ⟨_, List.getElem?_eq_getElem hj, by simp [SockState.bufferOf, List.getElem?_eq_getElem hj],
      by simp [SockState.queueOf, List.getElem?_eq_getElem hj]⟩
  cases pc with
  | idle | connecting _ => trivial
  | accepting l =>
    obtain ⟨sock, hs, -, hq⟩ := hsock (h.listener t _ l ht rfl)
    have hf : failures = false := hacc.resolve_right (by simp [Pc.reason])
    exact ⟨sock, hs, hq ▸ h.acceptWait hf t l ht⟩
  | sending a buf =>
    obtain ⟨b, hab, hfull⟩ := h.sendWait t a buf ht
    obtain ⟨peer, hp, hb, -⟩ := hsock (SockState.lt_of_peer (h.symm a b hab))
    exact ⟨b, peer, hab, hp, hb ▸ hfull⟩
  | receiving b len =>
    obtain ⟨hlt, he⟩ := h.recvWait t b len ht
    obtain ⟨sock, hs, hb, -⟩ := hsock hlt
    exact ⟨sock, hs, hb ▸ he, h.live b sock hs⟩

end Steps

/-- **No lost wakeup of recv or send; a lost wakeup of accept.** For any interleaving of the socket
calls by threads that each drive their own sockets, with or without external wakeups and whatever
`syscall_socket` does, a thread waiting in recv has an empty FIFO and a connected socket, and a
thread waiting in send has a full peer FIFO; a thread waiting in accept has an empty queue when
`syscall_socket` never fails. When it can fail, a thread waits in accept on a listener whose queue
holds a connector. -/
theorem suspended_acceptor_misses_connector (nameSize capacity : Nat) (hN : 2 ≤ nameSize) :
    (∀ (lastThread : Nat → Nat) (failures : Bool) (sys : WakeSystem),
      WakeReachable nameSize capacity lastThread failures sys →
      ∀ (t : Nat) (th : Task), sys.threads[t]? = some th → th.waitIo = true →
        (failures = false ∨ th.pc.reason ≠ some .accept) →
        StillBlocked capacity sys.state th.pc) ∧
    ∃ sys, WakeReachable nameSize capacity id true sys ∧
      ∃ (t : Nat) (th : Task), sys.threads[t]? = some th ∧ th.waitIo = true ∧
        ¬ StillBlocked capacity sys.state th.pc := by
  refine ⟨fun lastThread failures sys hs t th ht hw hacc =>
    (wakeInv_of_reachable hs).stillBlocked ht hw hacc, ?_⟩
  obtain ⟨sys, hs, ht, hq⟩ := accept_waits_with_queued_connector capacity hN
  refine ⟨sys, hs, 0, _, ht, rfl, fun ⟨sock, hsock, hempty⟩ => ?_⟩
  rw [hsock] at hq
  simp [hempty] at hq

theorem suspended_acceptor_misses_connector_14 :
    2 ≤ 14 ∧
    (∀ (lastThread : Nat → Nat) (failures : Bool) (sys : WakeSystem),
      WakeReachable 14 4096 lastThread failures sys →
      ∀ (t : Nat) (th : Task), sys.threads[t]? = some th → th.waitIo = true →
        (failures = false ∨ th.pc.reason ≠ some .accept) →
        StillBlocked 4096 sys.state th.pc) ∧
    ∃ sys, WakeReachable 14 4096 id true sys ∧
      ∃ (t : Nat) (th : Task), sys.threads[t]? = some th ∧ th.waitIo = true ∧
        ¬ StillBlocked 4096 sys.state th.pc :=
  ⟨by decide, suspended_acceptor_misses_connector 14 4096 (by decide)⟩

end Asterisk.UnixSocket
