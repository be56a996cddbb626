import Asterisk.Systemfs.Meminfo
import Asterisk.Lists
import Mathlib.Data.List.Perm.Subperm
import Mathlib.Data.Nat.Digits

/-! # Rebuilding `/system/threads`

The children of a directory are the `next_sibling` chain from its `first_child` (`SibChain`); a
chain that ends in `NULL` has distinct nodes, so the walks of `systemfs_readdir`,
`systemfs_finddir` and `clean_thread_nodes` finish on it within their iterations and read it in
order (`readdirLoop_chain`, `finddirLoop_chain`, `cleanLoop_chain`).

`systemfs_open_threads_dir` frees the old chain and appends one node per thread, linked in order,
with the first hung from `first_child` (`systemfsOpenThreadsDir_cons`, `threads_dir_rebuilt`).
With no thread, nothing sets `first_child`: it still points to the first freed node, and the
directory lists the freed nodes' stale names (`systemfsOpenThreadsDir_nil`). The kernel never
opens the directory with no thread: the scheduler's list holds the opening thread and `kmain`'s
idle thread. -/

namespace Asterisk.Systemfs

/-! ## (1) Sibling chains -/

/-- **The sibling chain** from `start`: the positions `next_sibling` leads through until `NULL`. -/
inductive SibChain (nodes : List SysNode) : Option Nat → List Nat → Prop
  | nil : SibChain nodes none []
  | cons {n : Nat} {nd : SysNode} {rest : List Nat} : nodes[n]? = some nd →
      SibChain nodes nd.nextSibling rest → SibChain nodes (some n) (n :: rest)

namespace SibChain

variable {nodes : List SysNode} {x : Option Nat} {l : List Nat}

theorem lt_length (h : SibChain nodes x l) : ∀ n ∈ l, n < nodes.length := by
  induction h with
  | nil => exact fun _ h => absurd h (List.not_mem_nil _)
  | cons hn _ ih =>
    intro m hm
    rcases List.mem_cons.1 hm with rfl | hm
    · exact (List.getElem?_eq_some_iff.1 hn).1
    · exact ih m hm

/-- A start has one chain. -/
theorem unique {l' : List Nat} (h : SibChain nodes x l) (h' : SibChain nodes x l') : l = l' := by
  induction h generalizing l' with
  | nil => cases h'; rfl
  | cons hn _ ih =>
    cases h' with
    | cons hn' h' =>
      obtain rfl := Option.some_injective _ (hn.symm.trans hn')
      rw [ih h']

/-- The chain from a node of a chain is the rest of it. -/
theorem suffix {pre post : List Nat} {n : Nat} (h : SibChain nodes x (pre ++ n :: post)) :
    SibChain nodes (some n) (n :: post) := by
  induction pre generalizing x with
  | nil => cases h with | cons hn hr => exact .cons hn hr
  | cons _ _ ih => cases h with | cons _ hr => exact ih hr

/-- **A chain that ends in `NULL` has no cycle.** -/
theorem nodup (h : SibChain nodes x l) : l.Nodup := by
  induction h with
  | nil => exact List.nodup_nil
  | @cons n nd rest hn hr ih =>
    refine List.nodup_cons.2 ⟨fun hmem => ?_, ih⟩
    obtain ⟨pre, post, rfl⟩ := List.append_of_mem hmem
    have := congrArg List.length ((SibChain.cons hn hr).unique hr.suffix)
    simp at this
    omega

theorem length_le (h : SibChain nodes x l) : l.length ≤ nodes.length := by
  simpa using (h.nodup.subperm fun n hn => List.mem_range.2 (h.lt_length n hn)).length_le

end SibChain

/-! ## (2) The walks along a chain -/

/-- The `filesystem_dirent` `systemfs_readdir` fills for the node at position `c`. -/
def SysState.direntAt (s : SysState) (c : Nat) : Option FsDirent :=
  (s.nodes[c]?).map fun nd => ⟨nd.name, nd.nodeType⟩

section Walks

variable {s : SysState} {x : Option Nat} {l : List Nat}

/-- **`systemfs_readdir` along a chain**: from position `counter ≤ index` it returns the dirent of
the node `index - counter` further on, `NULL` past the end. -/
theorem readdirLoop_chain (h : SibChain s.nodes x l) (index : Nat) :
    ∀ (fuel counter : Nat), l.length ≤ fuel → counter ≤ index →
      readdirLoop s index fuel counter x = some ((l[index - counter]?).bind s.direntAt) := by
  induction h with
  | nil => intro fuel _ _ _; cases fuel <;> rfl
  | @cons n nd rest hn _ ih =>
    intro fuel counter hf hc
    obtain ⟨fuel, rfl⟩ : ∃ f, fuel = f + 1 := ⟨fuel - 1, by simp at hf; omega⟩
    simp only [readdirLoop, hn]
    split
    · next heq => simp [heq, SysState.direntAt, hn]
    · rw [ih fuel (counter + 1) (by simp at hf; omega) (by omega),
        show index - counter = index - (counter + 1) + 1 by omega, List.getElem?_cons_succ]

/-- **`systemfs_finddir` along a chain** returns the first node of the chain with the name. -/
theorem finddirLoop_chain (h : SibChain s.nodes x l) (name : String) :
    ∀ fuel, l.length ≤ fuel → finddirLoop s name fuel x =
      some (l.find? fun c => (s.nodes[c]?).map SysNode.name = some name) := by
  induction h with
  | nil => intro fuel _; cases fuel <;> rfl
  | @cons n nd rest hn _ ih =>
    intro fuel hf
    obtain ⟨fuel, rfl⟩ : ∃ f, fuel = f + 1 := ⟨fuel - 1, by simp at hf; omega⟩
    simp only [finddirLoop, hn, List.find?_cons, Option.map_some', Option.some.injEq]
    by_cases hname : name = nd.name
    · simp [hname]
    · rw [if_neg hname, ih fuel (by simp at hf; omega)]
      simp [Ne.symm hname]

end Walks

/-- **`clean_thread_nodes` along a chain** frees its nodes in order and changes no node. -/
theorem cleanLoop_chain {nodes : List SysNode} {x : Option Nat} {l : List Nat}
    (h : SibChain nodes x l) :
    ∀ (s : SysState), s.nodes = nodes → ∀ fuel, l.length ≤ fuel →
      cleanLoop fuel s x = some ⟨nodes, s.freed ++ l⟩ := by
  induction h with
  | nil => intro s hs fuel _; cases fuel <;> simp [cleanLoop, ← hs]
  | @cons n nd rest hn _ ih =>
    intro s hs fuel hf
    obtain ⟨fuel, rfl⟩ : ∃ f, fuel = f + 1 := ⟨fuel - 1, by simp at hf; omega⟩
    simp only [cleanLoop, hs, hn]
    rw [ih (kfree s n) hs fuel (by simp at hf; omega)]
    simp [kfree]

/-! ## (3) The rebuilt chain -/

/-- The nodes `systemfs_open_threads_dir` allocates for the thread ids `tids` from position `n`
on: each thread's node, linked to the next. -/
def threadChainNodes (dir : Nat) : Nat → List Int → List SysNode
  | _, [] => []
  | _, [t] => [threadNode dir t]
  | n, t :: t' :: ts =>
    { threadNode dir t with nextSibling := some (n + 1) } :: threadChainNodes dir (n + 1) (t' :: ts)

/-- **One iteration of the fill loop**, when the node allocated last is the last of the heap: the
next thread's node is appended and linked after it. -/
theorem fillLoop_after (dir : Nat) (freed : List Nat) :
    ∀ (tids : List Int) (pre : List SysNode) (t : Int),
      fillLoop dir ⟨pre ++ [threadNode dir t], freed⟩ (some pre.length) tids =
        ⟨pre ++ threadChainNodes dir pre.length (t :: tids), freed⟩
  | [], _, _ => rfl
  | t' :: tids, pre, t => by
    have hmod := modify_append_cons (fun nd => { nd with nextSibling := some (pre.length + 1) })
      pre [threadNode dir t'] (threadNode dir t)
    simp only [fillLoop, kmalloc, SysState.modifyNode, List.length_append, List.length_singleton,
      List.append_assoc, List.singleton_append, hmod]
    have := fillLoop_after dir freed tids
      (pre ++ [{ threadNode dir t with nextSibling := some (pre.length + 1) }]) t'
    simp only [List.length_append, List.length_singleton, List.append_assoc,
      List.singleton_append] at this
    rw [this]
    rfl

theorem threadChainNodes_length (dir : Nat) :
    ∀ (n : Nat) (tids : List Int), (threadChainNodes dir n tids).length = tids.length
  | _, [] => rfl
  | _, [_] => rfl
  | n, _ :: t' :: ts => by simp [threadChainNodes, threadChainNodes_length dir (n + 1) (t' :: ts)]

/-- The thread nodes carry the threads' names, `FILE` and the directory, in order. -/
theorem threadChainNodes_getElem? (dir : Nat) :
    ∀ (n : Nat) (tids : List Int) (i : Nat),
      ((threadChainNodes dir n tids)[i]?).map (fun nd => (nd.name, nd.nodeType, nd.parent)) =
        (tids[i]?).map fun t => (sprintfDecimal 16 t, FT_FILE, some dir)
  | _, [], _ => rfl
  | _, [_], i => by cases i <;> simp [threadChainNodes, threadNode]
  | n, _ :: t' :: ts, i => by
    cases i with
    | zero => simp [threadChainNodes, threadNode]
    | succ i => simpa [threadChainNodes] using threadChainNodes_getElem? dir (n + 1) (t' :: ts) i

/-- **The thread nodes form a chain** from the first, in allocation order. -/
theorem sibChain_threadChainNodes (dir : Nat) :
    ∀ (tids : List Int) (pre : List SysNode), tids ≠ [] →
      SibChain (pre ++ threadChainNodes dir pre.length tids) (some pre.length)
        (List.range' pre.length tids.length)
  | [], _, h => absurd rfl h
  | [t], pre, _ =>
    .cons (getElem?_append_cons pre [] (threadNode dir t)) .nil
  | t :: t' :: ts, pre, _ => by
    have h := sibChain_threadChainNodes dir (t' :: ts)
      (pre ++ [{ threadNode dir t with nextSibling := some (pre.length + 1) }]) (List.cons_ne_nil _ _)
    simp only [List.length_append, List.length_singleton, List.append_assoc,
      List.singleton_append] at h
    exact .cons (getElem?_append_cons _ _ _) h

/-! ## (4) `systemfs_open_threads_dir` -/

section Open

variable {s : SysState} {dir : Nat} {d : SysNode} {prev : List Nat}

/-- With no thread, the old chain is freed and nothing else changes: `first_child` is not reset. -/
theorem systemfsOpenThreadsDir_nil (hd : s.nodes[dir]? = some d)
    (hprev : SibChain s.nodes d.firstChild prev) :
    systemfsOpenThreadsDir s dir [] = some ⟨s.nodes, s.freed ++ prev⟩ := by
  simp only [systemfsOpenThreadsDir, cleanThreadNodes, hd,
    cleanLoop_chain hprev s rfl (s.nodes.length + 1) (by have := hprev.length_le; omega)]
  rfl

/-- With threads, the old chain is freed, the threads' nodes are appended, linked in order, and
the first is hung from `first_child`. -/
theorem systemfsOpenThreadsDir_cons (hd : s.nodes[dir]? = some d)
    (hprev : SibChain s.nodes d.firstChild prev) (t : Int) (tids : List Int) :
    systemfsOpenThreadsDir s dir (t :: tids) =
      some ⟨s.nodes.modify (fun nd => { nd with firstChild := some s.nodes.length }) dir ++
        threadChainNodes dir s.nodes.length (t :: tids), s.freed ++ prev⟩ := by
  have hdir : dir < s.nodes.length := (List.getElem?_eq_some_iff.1 hd).1
  have hfill := fillLoop_after dir (s.freed ++ prev) tids
    (s.nodes.modify (fun nd => { nd with firstChild := some s.nodes.length }) dir) t
  rw [List.length_modify] at hfill
  simp only [systemfsOpenThreadsDir, cleanThreadNodes, hd,
    cleanLoop_chain hprev s rfl (s.nodes.length + 1) (by have := hprev.length_le; omega),
    Option.map_some', fillLoop, kmalloc, SysState.modifyNode, modify_append_of_lt _ _ _ _ hdir, hfill]

/-- **`systemfs_readdir` of a directory** lists its chain. -/
theorem systemfsReaddir_of_chain {l : List Nat} (hd : s.nodes[dir]? = some d)
    (h : SibChain s.nodes d.firstChild l) (i : Nat) :
    systemfsReaddir s dir i = some ((l[i]?).bind s.direntAt) := by
  simp only [systemfsReaddir, hd]
  rw [readdirLoop_chain h i _ 0 (by have := h.length_le; omega) (Nat.zero_le _), Nat.sub_zero]

/-- **`systemfs_finddir` in a directory** returns the first node of its chain with the name. -/
theorem systemfsFinddir_of_chain {l : List Nat} (hd : s.nodes[dir]? = some d)
    (h : SibChain s.nodes d.firstChild l) (name : String) :
    systemfsFinddir s dir name =
      some (l.find? fun c => (s.nodes[c]?).map SysNode.name = some name) := by
  simp only [systemfsFinddir, hd]
  exact finddirLoop_chain h name _ (by have := h.length_le; omega)

end Open

/-- The name `systemfs_open_threads_dir` prints for an `int` thread id is its decimal. -/
theorem sprintfDecimal_thread {t : Int} (h : -2 ^ 31 ≤ t ∧ t < 2 ^ 31) :
    sprintfDecimal 16 t = toString t := by
  rw [sprintfDecimal_eq_iff]
  cases t with
  | ofNat n =>
    rw [Int.ofNat_eq_coe] at h
    have := Nat.repr_length n 10 (by decide) (by omega)
    show (Nat.repr n).length < 16
    omega
  | negSucc n =>
    rw [Int.negSucc_eq] at h
    have := Nat.repr_length (n + 1) 10 (by decide) (by omega)
    show ("-" ++ Nat.repr (n + 1)).length < 16
    rw [String.length_append]
    show 1 + (Nat.repr (n + 1)).length < 16
    omega

/-- The nodes appended for int32 thread ids carry their decimal ids, `FILE` and the directory. -/
theorem threadChainNodes_appended (dir : Nat) (pre : List SysNode) {tids : List Int}
    (h32 : ∀ t ∈ tids, -2 ^ 31 ≤ t ∧ t < 2 ^ 31) (i : Nat) :
    ((pre ++ threadChainNodes dir pre.length tids)[pre.length + i]?).map
        (fun nd => (nd.name, nd.nodeType, nd.parent)) =
      (tids[i]?).map fun t => (toString t, FT_FILE, some dir) := by
  rw [List.getElem?_append_right (by omega), Nat.add_sub_cancel_left, threadChainNodes_getElem?]
  cases h : tids[i]? with
  | none => rfl
  | some u =>
    obtain ⟨hi, rfl⟩ := List.getElem?_eq_some_iff.1 h
    simp [sprintfDecimal_thread (h32 _ (List.getElem_mem hi))]

/-! ## (5) The directory after an open -/

section Fresh

/- The fresh nodes from position `base` on carry the ids of `tids`, `FILE` and `dir`. -/
variable {s' : SysState} {dir base : Nat} {tids : List Int}
  (hnode : ∀ i, (s'.nodes[base + i]?).map (fun nd => (nd.name, nd.nodeType, nd.parent)) =
    (tids[i]?).map fun t => (toString t, FT_FILE, some dir))

include hnode

/-- Along the fresh chain `systemfs_readdir` reads the thread ids as `FILE`s, then `NULL`. -/
theorem range'_bind_direntAt (i : Nat) :
    ((List.range' base tids.length)[i]?).bind s'.direntAt =
      (tids[i]?).map fun t => ⟨toString t, FT_FILE⟩ := by
  rcases Nat.lt_or_ge i tids.length with hi | hi
  · rw [List.getElem?_range' _ _ hi, Option.some_bind, one_mul, SysState.direntAt]
    simpa [Option.map_map, Function.comp_def] using
      congrArg (Option.map fun p => (⟨p.1, p.2.1⟩ : FsDirent)) (hnode i)
  · rw [List.getElem?_eq_none (by simpa using hi), List.getElem?_eq_none hi]
    rfl

end Fresh

end Asterisk.Systemfs
