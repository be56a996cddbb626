import Asterisk.UnixSocket.WakeInvariant
import Mathlib.Logic.Relation

/-! # Pairing when each socket has its own thread

In `Rendezvous` any thread may connect any socket, and a socket connected twice before it is
accepted is paired twice (`rendezvous_loses_or_doubles`). The kernel's threads drive their own
sockets: a socket is used by one thread, its `last_thread`. Under that discipline, and while no
socket closes, a pairing once made is neither undone nor replaced. A connector waits in at most
one accept queue, at most once, unpaired, with its thread polling in connect, and a turn of accept
pairs it only with the socket it creates (`pairing_permanent_of_reachable`). -/

namespace Asterisk.UnixSocket

section Steps

variable {nameSize capacity : Nat} {lastThread : Nat → Nat} {failures : Bool} {sys : WakeSystem}

/-- **Step lemma**: no step undoes or replaces a pairing. Accept pairs a queued connector, which
is unpaired, with the socket it appends; every other step keeps each `connection`. -/
theorem WakeInv.peer_step (h : WakeInv capacity lastThread failures sys) {sys' : WakeSystem}
    (hs : WakeStep nameSize capacity lastThread failures sys sys') {a b : Nat}
    (hab : sys.state.peer a = some b) : sys'.state.peer a = some b := by
  have hkeep : ∀ {i : Nat} {f : Socket → Socket}, (∀ u, (f u).connection = u.connection) →
      (sys.state.modifySocket i f).peer a = some b :=
    fun hf => (SockState.peer_modifySocket hf).trans hab
  cases hs with
  | create =>
    show (⟨sys.state.sockets ++ [Socket.fresh]⟩ : SockState).peer a = some b
    rw [SockState.peer_append, if_neg (ne_of_lt (SockState.lt_of_peer hab))]
    exact hab
  | bind t i addr =>
    show (unixsocketBind nameSize sys.state i addr).1.peer a = some b
    unfold unixsocketBind
    split
    · exact hab
    · split_ifs
      exacts [hab, hab, hab, hkeep fun _ => rfl]
  | listen => exact hkeep fun _ => rfl
  | connect t c addr =>
    rcases connectSection_cases lastThread sys t c addr with he | ⟨l, lsock, -, -, -, -, he⟩ <;>
      rw [he]
    exacts [hab, hkeep fun _ => rfl]
  | connectPoll | acceptEnter | sendEnter | recvEnter | resume => exact hab
  | accept t l created =>
    rcases acceptSection_cases sys t l created with
      ⟨-, he⟩ | ⟨lsock, c, rest, hl, hq, ⟨-, he⟩ | ⟨-, he⟩⟩ <;> rw [he]
    · exact hab
    · exact hkeep fun _ => rfl
    · have hql : sys.state.queueOf l = c :: rest := by simp [SockState.queueOf, hl, hq]
      obtain ⟨hclt, hpc, -⟩ := h.queued l c (by rw [hql]; exact List.mem_cons_self c rest)
      have hac : a ≠ c := by
        rintro rfl
        rw [hpc] at hab
        cases hab
      rw [SockState.peer_pairWithNew (by simpa using hclt), if_neg hac,
        if_neg (by simpa using ne_of_lt (SockState.lt_of_peer hab))]
      exact hkeep fun _ => rfl
  | send t a' buf =>
    rcases sendSection_cases capacity lastThread sys t a' buf with
      he | ⟨-, -, -, he⟩ | ⟨c, bytes, -, he⟩ <;> rw [he]
    exacts [hab, hab, hkeep fun _ => rfl]
  | recv t b' len =>
    rcases recvSection_cases lastThread sys t b' len with
      he | ⟨-, -, he⟩ | ⟨k, ⟨-, he⟩ | ⟨c, -, he⟩⟩ <;> rw [he]
    exacts [hab, hab, hkeep fun _ => rfl, hkeep fun _ => rfl]

/-- **Run lemma**: along any run from a state with `WakeInv`, every pairing is kept. -/
theorem WakeInv.peer_run (h : WakeInv capacity lastThread failures sys) {sys' : WakeSystem}
    (hr : Relation.ReflTransGen (WakeStep nameSize capacity lastThread failures) sys sys')
    {a b : Nat} (hab : sys.state.peer a = some b) : sys'.state.peer a = some b := by
  have key : WakeInv capacity lastThread failures sys' ∧ sys'.state.peer a = some b := by
    induction hr with
    | refl => exact ⟨h, hab⟩
    | tail _ hs ih => exact ⟨ih.1.step hs, ih.1.peer_step hs ih.2⟩
  exact key.2

end Steps

/-- **Pairings are symmetric and permanent when each socket has its own thread.** For any threads
that each drive their own sockets, any interleaving of bind, listen, connect, accept, send and
recv turns and of external wakeups, whatever `syscall_socket` does, at every reachable state: a
socket's peer has it as peer; a connector in an accept queue is unpaired and its thread polls in
connect; no queue holds a connector twice, and no two queues share one; and along every run from
there, every pairing made so far is kept. -/
theorem pairing_permanent_of_reachable (nameSize capacity : Nat) (lastThread : Nat → Nat)
    (failures : Bool) :
    ∀ sys, WakeReachable nameSize capacity lastThread failures sys →
      PairingSymmetric sys.state ∧
      (∀ l c, c ∈ sys.state.queueOf l → sys.state.peer c = none ∧
        (sys.threads[lastThread c]?).map Task.pc = some (.connecting c)) ∧
      (∀ l, (sys.state.queueOf l).Nodup) ∧
      (∀ l l' c, c ∈ sys.state.queueOf l → c ∈ sys.state.queueOf l' → l = l') ∧
      ∀ sys', Relation.ReflTransGen (WakeStep nameSize capacity lastThread failures) sys sys' →
        ∀ a b, sys.state.peer a = some b → sys'.state.peer a = some b := by
  intro sys hs
  have h := wakeInv_of_reachable hs
  exact ⟨h.symm, fun l c hc => (h.queued l c hc).2, h.nodup, h.unique,
    fun _ hr _ _ hab => h.peer_run hr hab⟩

/-- Four threads, each driving the socket of its number: `0` binds `"s"` and listens, `1` and `2`
connect, and a turn of accept pairs `1` with the socket `3` it creates, while `2` stays queued. -/
theorem pairing_permanent_of_reachable_paired :
    ∃ sys, WakeReachable 14 4096 id false sys ∧ sys.state.peer 1 = some 3 ∧
      sys.state.queueOf 0 = [2] ∧
      PairingSymmetric sys.state ∧
      (∀ l c, c ∈ sys.state.queueOf l → sys.state.peer c = none ∧
        (sys.threads[id c]?).map Task.pc = some (.connecting c)) ∧
      (∀ l, (sys.state.queueOf l).Nodup) ∧
      (∀ l l' c, c ∈ sys.state.queueOf l → c ∈ sys.state.queueOf l' → l = l') ∧
      ∀ sys', Relation.ReflTransGen (WakeStep 14 4096 id false) sys sys' →
        ∀ a b, sys.state.peer a = some b → sys'.state.peer a = some b :=
  have h3 := (((@WakeReachable.init 14 4096 id false 4).step (.create _)).step (.create _)).step
    (.create _)
  have h := ((((((h3.step (.bind _ 0 0 "s" rfl rfl)).step (.listen _ 0 0 rfl rfl)).step
    (.connect _ 1 1 "s" rfl rfl)).step (.connect _ 2 2 "s" rfl rfl)).step
    (.acceptEnter _ 0 0 rfl rfl rfl)).step (.accept _ 0 0 true rfl nofun))
  ⟨_, h, by decide, by decide, pairing_permanent_of_reachable 14 4096 id false _ h⟩

end Asterisk.UnixSocket
