import Asterisk.UnixSocket.Basic

/-! # Socket names

`unixsocket_bind` checks the address for a collision as given, then stores
`sprintf(name, SOCKET_NAME_SIZE, addr)`, the address cut to `SOCKET_NAME_SIZE - 1` characters;
`unixsocket_connect` looks a listener up by comparing the address as given with the stored names.
An address of `SOCKET_NAME_SIZE` characters or more is stored cut, so the socket is not named by
its address and no connect finds it (`bind_not_by_address`). For shorter addresses with no `%`
(the address is `sprintf`'s format, which prints itself only without a directive) the names stay
distinct, a bound socket is named exactly by its address, and connect finds it after any later
binds and socket creations (`bind_then_connect_finds`). -/

namespace Asterisk.UnixSocket

/-- **Distinct names**: two sockets with the same non-empty name are the same socket. -/
def NamesDistinct (s : SockState) : Prop :=
  ∀ (i j : Nat) (t u : Socket), s.sockets[i]? = some t → s.sockets[j]? = some u → t.name = u.name → t.name ≠ "" →
    i = j

/-- An operation that can change names: a bind, or the creation of a socket. -/
inductive NameOp where
  | bind (i : Nat) (addr : String)
  | create
  deriving DecidableEq, Repr

section Names

variable (nameSize : Nat)

/-- The state after an operation. -/
def NameOp.apply (s : SockState) : NameOp → SockState
  | .bind i addr => (unixsocketBind nameSize s i addr).1
  | .create => ⟨s.sockets ++ [Socket.fresh]⟩

/-- The state after a sequence of operations. -/
def nameRun (s : SockState) (ops : List NameOp) : SockState :=
  ops.foldl (NameOp.apply nameSize) s

/-- An address `unixsocket_bind` stores as given: shorter than `SOCKET_NAME_SIZE`, and with no `%`,
since bind passes the address to `sprintf` as the format. -/
def PlainAddress (addr : String) : Prop := addr.length < nameSize ∧ '%' ∉ addr.data

/-- The addresses of the binds of a sequence are plain. -/
def NameOp.Plain : NameOp → Prop
  | .bind _ addr => PlainAddress nameSize addr
  | .create => True

variable {nameSize}

/-! ## (1) One bind -/

/-- A C string of length `0` is empty. -/
theorem eq_empty_of_length_eq_zero {x : String} (h : x.length = 0) : x = "" := by
  cases x with
  | mk d => cases d with
    | nil => rfl
    | cons c d => simp [String.length] at h

/-- **Successful bind**: the socket held no name, the address is new and non-empty, and the
socket is renamed. -/
theorem unixsocketBind_eq_zero {s : SockState} {i : Nat} {addr : String}
    (h : (unixsocketBind nameSize s i addr).2 = 0) :
    ∃ t, s.sockets[i]? = some t ∧ t.name = "" ∧ addr ≠ "" ∧ (∀ u ∈ s.sockets, addr ≠ u.name) ∧
      (unixsocketBind nameSize s i addr).1 =
        s.modifySocket i fun t => { t with name := sprintf nameSize addr } := by
  unfold unixsocketBind at h ⊢
  split at h
  · simp [EINVAL] at h
  · next t ht =>
    split at h
    · simp [EINVAL] at h
    · next hn =>
      split at h
      · simp [EINVAL] at h
      · next ha =>
        split at h
        · simp [EADDRINUSE] at h
        · next hany =>
          refine ⟨t, ht, ?_, ?_, ?_, ?_⟩
          · exact eq_empty_of_length_eq_zero (by omega)
          · exact fun e => ha (e ▸ rfl)
          · simpa using hany
          · simp [hn, ha, hany]

/-- A failed bind changes nothing. -/
theorem unixsocketBind_of_ne_zero {s : SockState} {i : Nat} {addr : String}
    (h : (unixsocketBind nameSize s i addr).2 ≠ 0) : (unixsocketBind nameSize s i addr).1 = s := by
  unfold unixsocketBind at h ⊢
  split
  · rfl
  · split
    · rfl
    · split
      · rfl
      · split
        · rfl
        · next h1 h2 h3 => simp [unixsocketBind, *] at h

/-- The name a bind leaves on a socket: it was empty and becomes the stored address, or stays. -/
theorem name_after_bind {s : SockState} {i j : Nat} {addr : String} {t' : Socket}
    (h : (unixsocketBind nameSize s i addr).1.sockets[j]? = some t') :
    ∃ t, s.sockets[j]? = some t ∧ (t' = t ∨ (j = i ∧ t.name = "" ∧ addr ≠ "" ∧
      (∀ u ∈ s.sockets, addr ≠ u.name) ∧ t'.name = sprintf nameSize addr)) := by
  by_cases hok : (unixsocketBind nameSize s i addr).2 = 0
  · obtain ⟨t, ht, hn, ha, hany, he⟩ := unixsocketBind_eq_zero hok
    rw [he] at h
    simp only [SockState.modifySocket, List.getElem?_modify] at h
    by_cases hij : i = j
    · subst hij
      rw [ht] at h
      obtain rfl := (Option.some.inj (by simpa using h)).symm
      exact ⟨t, ht, .inr ⟨rfl, hn, ha, hany, rfl⟩⟩
    · obtain ⟨u, hu, rfl⟩ : ∃ u, s.sockets[j]? = some u ∧ u = t' := by
        simpa [hij] using h
      exact ⟨u, hu, .inl rfl⟩
  · rw [unixsocketBind_of_ne_zero hok] at h
    exact ⟨t', h, .inl rfl⟩

/-- **Bind keeps names distinct** for an address shorter than `SOCKET_NAME_SIZE`. -/
theorem NamesDistinct.bind {s : SockState} (hs : NamesDistinct s) (i : Nat) {addr : String}
    (hshort : addr.length < nameSize) : NamesDistinct (unixsocketBind nameSize s i addr).1 := by
  unfold NamesDistinct at hs ⊢
  intro j k t u hj hk htu hne
  obtain ⟨t0, ht0, ht⟩ := name_after_bind hj
  obtain ⟨u0, hu0, hu⟩ := name_after_bind hk
  rw [sprintf_of_length_lt hshort] at ht hu
  rcases ht with rfl | ⟨rfl, -, -, hnew, htn⟩ <;> rcases hu with rfl | ⟨rfl, -, -, hnew', hun⟩
  · exact hs j k t u ht0 hu0 htu hne
  · exact absurd (htu.trans hun) (hnew' t (List.getElem?_mem ht0)).symm
  · exact absurd (htn.symm.trans htu) (hnew u (List.getElem?_mem hu0))
  · rfl

theorem NamesDistinct.create {s : SockState} (hs : NamesDistinct s) :
    NamesDistinct ⟨s.sockets ++ [Socket.fresh]⟩ := by
  unfold NamesDistinct at hs ⊢
  intro j k t u hj hk htu hne
  have hold : ∀ {j : Nat} {t : Socket}, (s.sockets ++ [Socket.fresh])[j]? = some t →
      t.name ≠ "" → s.sockets[j]? = some t := fun {j t} h hn => by
    rw [List.getElem?_append] at h
    split at h
    · exact h
    · obtain rfl := List.mem_singleton.1 (List.getElem?_mem h); exact absurd rfl hn
  exact hs j k t u (hold hj hne) (hold hk (htu ▸ hne)) htu hne

/-- One fresh socket. -/
theorem namesDistinct_fresh : NamesDistinct ⟨[Socket.fresh]⟩ := by
  unfold NamesDistinct
  intro i j t u hi _ _ hn
  obtain ⟨hi', rfl⟩ := List.getElem?_eq_some_iff.1 hi
  simp [Socket.fresh] at hn

/-! ## (2) Runs -/

/-- A socket keeps a non-empty name through any operation. -/
theorem NameOp.apply_keeps_name {s : SockState} {i : Nat} {t : Socket} (ht : s.sockets[i]? = some t)
    (hn : t.name ≠ "") (op : NameOp) :
    ∃ t' : Socket, (op.apply nameSize s).sockets[i]? = some t' ∧ t'.name = t.name := by
  cases op with
  | bind j addr =>
    by_cases hok : (unixsocketBind nameSize s j addr).2 = 0
    · obtain ⟨t0, ht0, hn0, -, -, he⟩ := unixsocketBind_eq_zero hok
      refine ⟨t, ?_, rfl⟩
      have hij : j ≠ i := by rintro rfl; rw [ht] at ht0; cases ht0; exact hn hn0
      simp only [NameOp.apply, he, SockState.modifySocket, List.getElem?_modify_ne _ _ hij, ht]
    · exact ⟨t, by simp [NameOp.apply, unixsocketBind_of_ne_zero hok, ht], rfl⟩
  | create => exact ⟨t, List.getElem?_append_left (List.getElem?_eq_some_iff.1 ht).1 ▸ ht, rfl⟩

theorem nameRun_invariant {ops : List NameOp} (hops : ∀ op ∈ ops, op.Plain nameSize) :
    ∀ {s : SockState}, NamesDistinct s → NamesDistinct (nameRun nameSize s ops) ∧
      ∀ {i : Nat} {t : Socket}, s.sockets[i]? = some t → t.name ≠ "" →
        ∃ t' : Socket, (nameRun nameSize s ops).sockets[i]? = some t' ∧ t'.name = t.name := by
  induction ops with
  | nil => exact fun hs => ⟨hs, fun ht _ => ⟨_, ht, rfl⟩⟩
  | cons op ops ih =>
    intro s hs
    have hop : NamesDistinct (op.apply nameSize s) := by
      cases op with
      | bind j addr => exact hs.bind j (hops _ (List.mem_cons_self _ _)).1
      | create => exact hs.create
    obtain ⟨hd, hkeep⟩ := ih (fun op h => hops op (List.mem_cons_of_mem _ h)) hop
    refine ⟨hd, fun ht hn => ?_⟩
    obtain ⟨t1, ht1, hn1⟩ := NameOp.apply_keeps_name ht hn op
    obtain ⟨t2, ht2, hn2⟩ := hkeep ht1 (hn1 ▸ hn)
    exact ⟨t2, ht2, hn2.trans hn1⟩

/-- With distinct names, connect's scan finds the socket carrying a non-empty name. -/
theorem findByName_of_distinct {s : SockState} (hs : NamesDistinct s) {i : Nat} {t : Socket}
    (ht : s.sockets[i]? = some t) (hn : t.name ≠ "") : findByName s t.name = some i := by
  unfold NamesDistinct at hs
  obtain ⟨hi, rfl⟩ := List.getElem?_eq_some_iff.1 ht
  rw [findByName, List.findIdx?_eq_some_iff_getElem]
  refine ⟨hi, by simp, fun j hj hjn => ?_⟩
  have hjn : s.sockets[i].name = s.sockets[j].name := by simpa using hjn
  have := hs j i _ _ (List.getElem?_eq_getElem (hj.trans hi)) ht hjn.symm (hjn ▸ hn)
  omega

end Names

/-! ## (3) The laws -/

/-- **Bind and connect for plain addresses**: from distinct names, a successful bind of socket `i`
to an address shorter than `SOCKET_NAME_SIZE` and with no `%`, followed by any binds of such
addresses and any socket creations, leaves the names distinct, socket `i` named exactly by the
address, and connect's scan for the address selecting socket `i`. -/
theorem bind_then_connect_finds (nameSize : Nat) {s : SockState} (hs : NamesDistinct s)
    {i : Nat} {addr : String} (hplain : PlainAddress nameSize addr)
    (hok : (unixsocketBind nameSize s i addr).2 = 0) (ops : List NameOp)
    (hops : ∀ op ∈ ops, op.Plain nameSize) :
    NamesDistinct (nameRun nameSize (unixsocketBind nameSize s i addr).1 ops) ∧
      ((nameRun nameSize (unixsocketBind nameSize s i addr).1 ops).sockets[i]?.map
        Socket.name) = some addr ∧
      findByName (nameRun nameSize (unixsocketBind nameSize s i addr).1 ops) addr = some i := by
  obtain ⟨t, ht, -, hne, -, he⟩ := unixsocketBind_eq_zero hok
  have hb : (unixsocketBind nameSize s i addr).1.sockets[i]? =
      some { t with name := addr } := by
    simp [he, SockState.modifySocket, List.getElem?_modify_eq, ht, sprintf_of_length_lt hplain.1]
  obtain ⟨hd, hkeep⟩ := nameRun_invariant hops (hs.bind i hplain.1)
  obtain ⟨t', ht', hn'⟩ := hkeep hb hne
  refine ⟨hd, by simp [ht', hn'], ?_⟩
  have := findByName_of_distinct hd ht' (hn' ▸ hne)
  rwa [hn'] at this

theorem bind_then_connect_finds_s :
    NamesDistinct ⟨[Socket.fresh]⟩ ∧ PlainAddress 14 "s" ∧
      (unixsocketBind 14 ⟨[Socket.fresh]⟩ 0 "s").2 = 0 ∧
      (∀ op ∈ [NameOp.create, NameOp.bind 1 "t"], op.Plain 14) ∧
      (NamesDistinct (nameRun 14 (unixsocketBind 14 ⟨[Socket.fresh]⟩ 0 "s").1
        [NameOp.create, NameOp.bind 1 "t"]) ∧
      ((nameRun 14 (unixsocketBind 14 ⟨[Socket.fresh]⟩ 0 "s").1
        [NameOp.create, NameOp.bind 1 "t"]).sockets[0]?.map Socket.name) = some "s" ∧
      findByName (nameRun 14 (unixsocketBind 14 ⟨[Socket.fresh]⟩ 0 "s").1
        [NameOp.create, NameOp.bind 1 "t"]) "s" = some 0) := by
  have hd : NamesDistinct ⟨[Socket.fresh]⟩ := namesDistinct_fresh
  have hs : PlainAddress 14 "s" := ⟨by decide, by decide⟩
  have hok : (unixsocketBind 14 ⟨[Socket.fresh]⟩ 0 "s").2 = 0 := by decide
  have hops : ∀ op ∈ [NameOp.create, NameOp.bind 1 "t"], op.Plain 14 := by
    simp [NameOp.Plain, PlainAddress]; decide
  exact ⟨hd, hs, hok, hops, bind_then_connect_finds 14 hd hs hok _ hops⟩

/-- **No `SOCKET_NAME_SIZE` makes bind name a socket by its address**: for every size, binding a
fresh socket to an address of `SOCKET_NAME_SIZE` characters succeeds but stores the address cut,
so the socket is not named by it and connect's scan does not find it. -/
theorem bind_not_by_address :
    ¬ ∃ nameSize : Nat, ∀ (s : SockState) (i : Nat) (addr : String), NamesDistinct s →
      (unixsocketBind nameSize s i addr).2 = 0 →
      ((unixsocketBind nameSize s i addr).1.sockets[i]?.map Socket.name) = some addr ∧
        NamesDistinct (unixsocketBind nameSize s i addr).1 ∧
        findByName (unixsocketBind nameSize s i addr).1 addr = some i := by
  rintro ⟨nameSize, h⟩
  have hd : NamesDistinct ⟨[Socket.fresh]⟩ := namesDistinct_fresh
  let addr : String := ⟨List.replicate (nameSize + 1) 'a'⟩
  have hlen : addr.length = nameSize + 1 := List.length_replicate _ _
  have hok : (unixsocketBind nameSize ⟨[Socket.fresh]⟩ 0 addr).2 = 0 := by
    have hne : ¬ addr.length = 0 := by omega
    have hfresh : ¬ addr = "" := fun e => hne (by rw [e]; rfl)
    simp [unixsocketBind, Socket.fresh, hne, hfresh]
  have hname := (h _ 0 addr hd hok).1
  obtain ⟨_, -, -, -, -, he⟩ := unixsocketBind_eq_zero hok
  rw [he] at hname
  simp only [SockState.modifySocket, List.getElem?_modify_eq, List.getElem?_cons_zero,
    Option.map_eq_map, Option.map_some', Option.some.injEq] at hname
  have := congrArg String.length hname
  simp only [sprintf, hlen] at this
  change (List.take (nameSize - 1) (List.replicate (nameSize + 1) 'a')).length = _ at this
  simp at this
  omega

end Asterisk.UnixSocket
