import Asterisk.Systemfs.Threads

/-! # `/system` from boot on

`systemfs_initialize` allocates the root of the system filesystem, hangs it on the VFS directory
`/system` that `fs_mkdir` and `fs_finddir` give it (external: their answer is an argument, and no
answer is the `PANIC`), and calls `create_nodes`. That allocates `meminfo` with its files
`totalpages` and `usedpages`, then `threads`, `pipes` and `shm`, each linked into its parent's
chain. From then on the only call that changes the nodes is the open of `threads/`, which the VFS
reaches by `systemfs_finddir` in the root (`SysRun`).

Along every run the nodes of boot stay as `create_nodes` left them, except the `first_child` of
`threads/` (`SysShape`). While every open sees a thread, the children of `threads/` are the nodes
of the last open, no node is passed to `kfree` twice, and no freed node can be reached from the
root (`SysSafe`). The kernel always opens `threads/` with a thread, since the scheduler lists the
opening thread and `kmain`'s idle thread; an open with no thread would break this: `first_child`
keeps pointing to the nodes it freed, and the next open frees them again
(`systemfs_runs_keep_tree`). -/

namespace Asterisk.Systemfs

/-! ## (1) Boot -/

/-- **`create_nodes`** under the root at position `root`: each node is allocated with its name,
type and parent, then linked as its parent's `first_child` or its left sibling's `next_sibling`. -/
def createNodes (s : SysState) (root : Nat) : SysState :=
  let (s, nodeMemInfo) := kmalloc s ⟨"meminfo", FT_DIRECTORY, some root, none, none⟩
  let s := s.modifyNode root fun nd => { nd with firstChild := some nodeMemInfo }
  let (s, nodeMemInfoTotalPages) :=
    kmalloc s ⟨"totalpages", FT_FILE, some nodeMemInfo, none, none⟩
  let s := s.modifyNode nodeMemInfo fun nd => { nd with firstChild := some nodeMemInfoTotalPages }
  let (s, nodeMemInfoUsedPages) :=
    kmalloc s ⟨"usedpages", FT_FILE, some nodeMemInfo, none, none⟩
  let s := s.modifyNode nodeMemInfoTotalPages fun nd =>
    { nd with nextSibling := some nodeMemInfoUsedPages }
  let (s, nodeThreads) := kmalloc s ⟨"threads", FT_DIRECTORY, some root, none, none⟩
  let s := s.modifyNode nodeMemInfo fun nd => { nd with nextSibling := some nodeThreads }
  let (s, nodePipes) := kmalloc s ⟨"pipes", FT_DIRECTORY, some root, none, none⟩
  let s := s.modifyNode nodeThreads fun nd => { nd with nextSibling := some nodePipes }
  let (s, nodeShm) := kmalloc s ⟨"shm", FT_DIRECTORY, some root, none, none⟩
  s.modifyNode nodePipes fun nd => { nd with nextSibling := some nodeShm }

/-- **`systemfs_initialize`**: `systemNode` is the name of the VFS node `fs_finddir(root_fs,
"system")` returns after `fs_mkdir`, or `none`, where the kernel panics. The root, a directory,
takes that name; its parent, the parent of `/system`, is a VFS node outside the system
filesystem. -/
def systemfsInitialize (systemNode : Option String) : Option SysState :=
  match systemNode with
  | none => none
  | some name =>
    let (s, root) := kmalloc ⟨[], []⟩ ⟨name, FT_DIRECTORY, none, none, none⟩
    some (createNodes s root)

/-- The nodes after boot, by position: the root, `meminfo`, `totalpages`, `usedpages`, `threads`,
`pipes` and `shm`. -/
def bootNodes (name : String) : List SysNode :=
  [⟨name, FT_DIRECTORY, none, some 1, none⟩, ⟨"meminfo", FT_DIRECTORY, some 0, some 2, some 4⟩,
    ⟨"totalpages", FT_FILE, some 1, none, some 3⟩, ⟨"usedpages", FT_FILE, some 1, none, none⟩,
    ⟨"threads", FT_DIRECTORY, some 0, none, some 5⟩, ⟨"pipes", FT_DIRECTORY, some 0, none, some 6⟩,
    ⟨"shm", FT_DIRECTORY, some 0, none, none⟩]

theorem systemfsInitialize_some (name : String) :
    systemfsInitialize (some name) = some ⟨bootNodes name, []⟩ := rfl

/-! ## (2) Runs -/

/-- **A run of the system filesystem** from boot, with the thread-id lists its opens of
`threads/` saw, in order: `systemfs_open_threads_dir` on the node `systemfs_finddir` finds for
`"threads"` in the root, over the ids of `thread_get_first()`, `thread->next`, …. -/
inductive SysRun (name : String) : List (List Int) → SysState → Prop
  | boot {s : SysState} : systemfsInitialize (some name) = some s → SysRun name [] s
  | openThreads {opens : List (List Int)} {s s' : SysState} {dir : Nat} (tids : List Int) :
      SysRun name opens s → systemfsFinddir s 0 "threads" = some (some dir) →
      systemfsOpenThreadsDir s dir tids = some s' → SysRun name (opens ++ [tids]) s'

/-- The nodes the VFS can reach from the root of the system filesystem through `readdir` and
`finddir`: the root, and the child chain of a node it reaches. -/
inductive Reached (s : SysState) : Nat → Prop
  | root : Reached s 0
  | child {n c : Nat} {nd : SysNode} {kids : List Nat} : Reached s n → s.nodes[n]? = some nd →
      SibChain s.nodes nd.firstChild kids → c ∈ kids → Reached s c

/-! ## (3) An open that sees threads -/

/-- The nodes of an open carry no child. -/
theorem threadChainNodes_firstChild (dir : Nat) :
    ∀ (n : Nat) (tids : List Int), ∀ nd ∈ threadChainNodes dir n tids, nd.firstChild = none
  | _, [] => fun _ h => absurd h (List.not_mem_nil _)
  | _, [_] => fun _ h => by
    rw [threadChainNodes, List.mem_singleton] at h
    subst h
    rfl
  | n, _ :: t' :: ts => fun _ h => by
    rcases List.mem_cons.1 h with rfl | h
    · rfl
    · exact threadChainNodes_firstChild dir (n + 1) (t' :: ts) _ h

section Open

variable {s : SysState} {dir : Nat} {d : SysNode} {prev : List Nat}

/-- **What an open with threads leaves**: the nodes before it but `dir` unchanged, `dir`'s
`first_child` at the first new node, and a chain of childless new nodes whose dirents are the
threads' ids, `FILE`; the old chain is logged as freed. -/
theorem systemfsOpenThreadsDir_post (hd : s.nodes[dir]? = some d)
    (hprev : SibChain s.nodes d.firstChild prev) {tids : List Int} (hne : tids ≠ []) :
    ∃ s', systemfsOpenThreadsDir s dir tids = some s' ∧ s'.freed = s.freed ++ prev ∧
      (∀ i, i < s.nodes.length → i ≠ dir → s'.nodes[i]? = s.nodes[i]?) ∧
      s'.nodes[dir]? = some { d with firstChild := some s.nodes.length } ∧
      SibChain s'.nodes (some s.nodes.length) (List.range' s.nodes.length tids.length) ∧
      (∀ k ∈ List.range' s.nodes.length tids.length,
        (s'.nodes[k]?).map SysNode.firstChild = some none) ∧
      ((∀ t ∈ tids, -2 ^ 31 ≤ t ∧ t < 2 ^ 31) →
        ∀ i : Nat, ((List.range' s.nodes.length tids.length)[i]?).bind s'.direntAt =
          (tids[i]?).map fun t => ⟨toString t, FT_FILE⟩) := by
  obtain ⟨t, ts, rfl⟩ := List.exists_cons_of_ne_nil hne
  have hdir : dir < s.nodes.length := (List.getElem?_eq_some_iff.1 hd).1
  set pre := s.nodes.modify (fun nd => { nd with firstChild := some s.nodes.length }) dir
  have hpre : pre.length = s.nodes.length := List.length_modify _ _ _
  refine ⟨⟨pre ++ threadChainNodes dir s.nodes.length (t :: ts), s.freed ++ prev⟩,
    systemfsOpenThreadsDir_cons hd hprev t ts, rfl, fun i hi hne => ?_, ?_, ?_, fun k hk => ?_,
    fun h32 => range'_bind_direntAt (by simpa only [hpre] using threadChainNodes_appended dir pre h32)⟩
  · show (pre ++ _)[i]? = _
    rw [List.getElem?_append_left (by omega), List.getElem?_modify_ne _ _ (Ne.symm hne)]
  · show (pre ++ _)[dir]? = _
    rw [List.getElem?_append_left (by omega), List.getElem?_modify_eq, hd]
    rfl
  · simpa only [hpre] using sibChain_threadChainNodes dir (t :: ts) pre (List.cons_ne_nil _ _)
  · rw [List.mem_range'_1] at hk
    have hlt : k - s.nodes.length < (threadChainNodes dir s.nodes.length (t :: ts)).length := by
      rw [threadChainNodes_length]; omega
    show ((pre ++ _)[k]?).map _ = _
    rw [List.getElem?_append_right (by omega), hpre, List.getElem?_eq_getElem hlt,
      Option.map_some', threadChainNodes_firstChild dir _ _ _ (List.getElem_mem hlt)]

end Open

/-! ## (4) The shape of `/system` along any run -/

/-- **The shape of `/system`**: the nodes of boot but `threads/`, and `threads/` with its
`first_child` at the start of a `NULL`-terminated chain of childless nodes allocated after boot. -/
structure SysShape (name : String) (s : SysState) : Prop where
  boot : ∀ i, i < 7 → i ≠ 4 → s.nodes[i]? = (bootNodes name)[i]?
  threads : ∃ fc kids, s.nodes[4]? = some ⟨"threads", FT_DIRECTORY, some 0, fc, some 5⟩ ∧
    SibChain s.nodes fc kids ∧ ∀ k ∈ kids, 7 ≤ k ∧ (s.nodes[k]?).map SysNode.firstChild = some none

namespace SysShape

variable {name : String} {s : SysState}

theorem of_boot : SysShape name ⟨bootNodes name, []⟩ :=
  ⟨fun _ _ _ => rfl, none, [], rfl, .nil, fun _ h => absurd h (List.not_mem_nil _)⟩

theorem seven_le_length (h : SysShape name s) : 7 ≤ s.nodes.length := by
  by_contra hlt
  have h6 := h.boot 6 (by decide) (by decide)
  rw [List.getElem?_eq_none (by omega)] at h6
  exact absurd h6 (by simp [bootNodes])

theorem rootChain (h : SysShape name s) : SibChain s.nodes (some 1) [1, 4, 5, 6] := by
  obtain ⟨fc, kids, h4, -⟩ := h.threads
  exact .cons (h.boot 1 (by decide) (by decide)) (.cons h4
    (.cons (h.boot 5 (by decide) (by decide)) (.cons (h.boot 6 (by decide) (by decide)) .nil)))

theorem memInfoChain (h : SysShape name s) : SibChain s.nodes (some 2) [2, 3] :=
  .cons (h.boot 2 (by decide) (by decide)) (.cons (h.boot 3 (by decide) (by decide)) .nil)

/-- `systemfs_finddir` resolves the names of boot to their nodes. -/
theorem finddir_boot (h : SysShape name s) :
    ["meminfo", "threads", "pipes", "shm"].map (systemfsFinddir s 0) =
        [some (some 1), some (some 4), some (some 5), some (some 6)] ∧
      ["totalpages", "usedpages"].map (systemfsFinddir s 1) = [some (some 2), some (some 3)] := by
  obtain ⟨fc, kids, h4, -⟩ := h.threads
  have hb := fun i (hi : i < 7) (hi4 : i ≠ 4) => h.boot i hi hi4
  simp [systemfsFinddir_of_chain (hb 0 (by decide) (by decide)) h.rootChain,
    systemfsFinddir_of_chain (hb 1 (by decide) (by decide)) h.memInfoChain, List.find?_cons,
    hb 1 (by decide) (by decide), hb 2 (by decide) (by decide), hb 3 (by decide) (by decide),
    hb 5 (by decide) (by decide), hb 6 (by decide) (by decide), h4, bootNodes]

/-- The VFS reaches `threads/` at node `4`. -/
theorem dir_eq (h : SysShape name s) {dir : Nat}
    (hf : systemfsFinddir s 0 "threads" = some (some dir)) : dir = 4 := by
  have := congrArg (List.get? · 1) h.finddir_boot.1
  simp only [List.map_cons, List.get?_cons_succ, List.get?_cons_zero, hf] at this
  simpa using this

/-- `systemfs_readdir` lists the children of boot: four directories in the root, two files in
`meminfo/`, and nothing in `pipes/` and `shm/`. -/
theorem readdir_boot (h : SysShape name s) (i : Nat) :
    systemfsReaddir s 0 i =
        some ((["meminfo", "threads", "pipes", "shm"][i]?).map fun x => ⟨x, FT_DIRECTORY⟩) ∧
      systemfsReaddir s 1 i = some ((["totalpages", "usedpages"][i]?).map fun x => ⟨x, FT_FILE⟩) ∧
      systemfsReaddir s 5 i = some none ∧ systemfsReaddir s 6 i = some none := by
  obtain ⟨fc, kids, h4, -⟩ := h.threads
  have hb := fun i (hi : i < 7) (hi4 : i ≠ 4) => h.boot i hi hi4
  refine ⟨?_, ?_, systemfsReaddir_of_chain (hb 5 (by decide) (by decide)) .nil i,
    systemfsReaddir_of_chain (hb 6 (by decide) (by decide)) .nil i⟩
  · rw [systemfsReaddir_of_chain (hb 0 (by decide) (by decide)) h.rootChain]
    match i with
    | 0 | 1 | 2 | 3 =>
      simp [SysState.direntAt, hb 1 (by decide) (by decide), h4, hb 5 (by decide) (by decide),
        hb 6 (by decide) (by decide), bootNodes]
    | _ + 4 => rfl
  · rw [systemfsReaddir_of_chain (hb 1 (by decide) (by decide)) h.memInfoChain]
    match i with
    | 0 | 1 =>
      simp [SysState.direntAt, hb 2 (by decide) (by decide), hb 3 (by decide) (by decide),
        bootNodes]
    | _ + 2 => rfl

/-- **Step lemma**: an open of `threads/`, with or without threads, keeps the shape. -/
theorem openThreads (h : SysShape name s) {tids : List Int} {s' : SysState}
    (hs : systemfsOpenThreadsDir s 4 tids = some s') : SysShape name s' := by
  obtain ⟨fc, kids, h4, hkids, hk⟩ := h.threads
  cases tids with
  | nil =>
    rw [systemfsOpenThreadsDir_nil h4 hkids] at hs
    cases hs
    exact ⟨h.boot, fc, kids, h4, hkids, hk⟩
  | cons t ts =>
    obtain ⟨s'', hs'', -, hframe, h4', hchain, hfresh, -⟩ :=
      systemfsOpenThreadsDir_post h4 hkids (List.cons_ne_nil t ts)
    obtain rfl := Option.some.inj (hs''.symm.trans hs)
    have hL := h.seven_le_length
    refine ⟨fun i hi hi4 => (hframe i (by omega) hi4).trans (h.boot i hi hi4), _, _, h4', hchain,
      fun k hk => ⟨?_, hfresh k hk⟩⟩
    rw [List.mem_range'_1] at hk
    omega

/-- **What the VFS reaches**: a node of boot or a child of `threads/`. -/
theorem reached {fc : Option Nat} {kids : List Nat} (h : SysShape name s)
    (h4 : (s.nodes[4]?).map SysNode.firstChild = some fc) (hkids : SibChain s.nodes fc kids)
    {c : Nat} (hc : Reached s c) : c < 7 ∨ c ∈ kids := by
  obtain ⟨fc₀, kids₀, h4₀, hkids₀, hk₀⟩ := h.threads
  obtain rfl : fc₀ = fc := by simpa [h4₀] using h4
  obtain rfl := hkids₀.unique hkids
  induction hc with
  | root => exact .inl (by decide)
  | @child n c nd kids' _ hn hch hc ih =>
    rcases ih with hn7 | hnk
    · by_cases hn4 : n = 4
      · subst hn4
        obtain rfl := Option.some.inj (hn.symm.trans h4₀)
        exact .inr (hch.unique hkids₀ ▸ hc)
      · obtain rfl | rfl | rfl | rfl | rfl | rfl : n = 0 ∨ n = 1 ∨ n = 2 ∨ n = 3 ∨ n = 5 ∨ n = 6 := by
          omega
        all_goals obtain rfl := Option.some.inj ((h.boot _ (by decide) (by decide)).symm.trans hn)
        · rw [hch.unique h.rootChain] at hc
          simp only [List.mem_cons, List.not_mem_nil, or_false] at hc
          omega
        · rw [hch.unique h.memInfoChain] at hc
          simp only [List.mem_cons, List.not_mem_nil, or_false] at hc
          omega
        all_goals cases hch; exact absurd hc (List.not_mem_nil _)
    · obtain ⟨-, hfc⟩ := hk₀ n hnk
      rw [hn, Option.map_some', Option.some.injEq] at hfc
      rw [hfc] at hch
      cases hch
      exact absurd hc (List.not_mem_nil _)

end SysShape

/-! ## (5) While every open sees a thread -/

/-- **`/system` while every open has seen a thread**, the last with the ids `last`: the children of
`threads/` are that open's nodes, named by the ids, and none is freed; and the `kfree` log names
distinct nodes allocated after boot. -/
structure SysSafe (last : List Int) (s : SysState) : Prop where
  children : ∃ fc kids, (s.nodes[4]?).map SysNode.firstChild = some fc ∧
    SibChain s.nodes fc kids ∧ (∀ k ∈ kids, k ∉ s.freed) ∧
    ∀ i : Nat, (kids[i]?).bind s.direntAt = (last[i]?).map fun t => ⟨toString t, FT_FILE⟩
  nodup : s.freed.Nodup
  freed : ∀ n ∈ s.freed, 7 ≤ n ∧ n < s.nodes.length

namespace SysSafe

variable {name : String} {last : List Int} {s : SysState}

theorem of_boot : SysSafe [] ⟨bootNodes name, []⟩ :=
  ⟨⟨none, [], rfl, .nil, fun _ h => absurd h (List.not_mem_nil _), fun _ => rfl⟩, List.nodup_nil,
    fun _ h => absurd h (List.not_mem_nil _)⟩

/-- **Step lemma**: an open that sees `int` thread ids frees the old children, none of them freed
before, and makes its own nodes the children. -/
theorem openThreads (hs : SysSafe last s) (h : SysShape name s) {tids : List Int} {s' : SysState}
    (hne : tids ≠ []) (h32 : ∀ t ∈ tids, -2 ^ 31 ≤ t ∧ t < 2 ^ 31)
    (ho : systemfsOpenThreadsDir s 4 tids = some s') : SysSafe tids s' := by
  obtain ⟨fc, kids, h4, hkids, hk⟩ := h.threads
  obtain ⟨fc', kids', h4', hkids', hfree, -⟩ := hs.children
  obtain rfl : fc = fc' := by simpa [h4] using h4'
  obtain rfl := hkids.unique hkids'
  obtain ⟨s'', hs'', hfreed, -, h4'', hchain, -, hdirent⟩ := systemfsOpenThreadsDir_post h4 hkids hne
  obtain rfl := Option.some.inj (hs''.symm.trans ho)
  have hL : s.nodes.length < s''.nodes.length :=
    hchain.lt_length _ (List.mem_range'_1.2 ⟨le_rfl, by simpa using List.length_pos.2 hne⟩)
  refine ⟨⟨_, _, by rw [h4'']; rfl, hchain, fun k hk hmem => ?_, hdirent h32⟩, ?_, fun n hn => ?_⟩
  · rw [List.mem_range'_1] at hk
    rw [hfreed, List.mem_append] at hmem
    rcases hmem with hmem | hmem
    · have := (hs.freed k hmem).2
      omega
    · have := hkids.lt_length k hmem
      omega
  · rw [hfreed]
    exact List.nodup_append.2 ⟨hs.nodup, hkids.nodup, fun a ha hb => hfree a hb ha⟩
  · rw [hfreed, List.mem_append] at hn
    rcases hn with hn | hn
    · have := hs.freed n hn
      omega
    · exact ⟨(hk n hn).1, (hkids.lt_length n hn).trans hL⟩

/-- **No freed node is reachable** from the root of the system filesystem. -/
theorem not_reached (hs : SysSafe last s) (h : SysShape name s) {n : Nat} (hn : n ∈ s.freed) :
    ¬ Reached s n := fun hr => by
  obtain ⟨fc, kids, h4, hkids, hfree, -⟩ := hs.children
  rcases h.reached h4 hkids hr with h7 | hk
  · have := (hs.freed n hn).1
    omega
  · exact hfree n hk hn

end SysSafe

/-! ## (6) Every run -/

section Runs

variable {name : String} {opens : List (List Int)} {s : SysState}

/-- **Run lemma**: every run keeps the shape of `/system`. -/
theorem SysRun.shape (hr : SysRun name opens s) : SysShape name s := by
  induction hr with
  | boot hs =>
    obtain rfl := Option.some.inj ((systemfsInitialize_some name).symm.trans hs)
    exact SysShape.of_boot
  | openThreads _ _ hf ho ih =>
    obtain rfl := ih.dir_eq hf
    exact ih.openThreads ho

/-- **Run lemma**: a run whose every open saw `int` thread ids keeps `/system` safe, the
children of `threads/` being those of the last open. -/
theorem SysRun.safe (hr : SysRun name opens s)
    (hne : ∀ tids ∈ opens, tids ≠ [] ∧ ∀ t ∈ tids, -2 ^ 31 ≤ t ∧ t < 2 ^ 31) :
    SysSafe (opens.getLast?.getD []) s := by
  induction hr with
  | boot hs =>
    obtain rfl := Option.some.inj ((systemfsInitialize_some name).symm.trans hs)
    exact SysSafe.of_boot
  | openThreads tids hr hf ho ih =>
    have h := hr.shape
    obtain rfl := h.dir_eq hf
    obtain ⟨hne', h32⟩ := hne tids (List.mem_append_right _ (List.mem_singleton_self _))
    rw [List.getLast?_concat]
    exact (ih fun t ht => hne t (List.mem_append_left _ ht)).openThreads h hne' h32 ho

/-- Along a run whose every open saw `int` thread ids, `threads/` lists the ids of the last open. -/
theorem SysRun.readdir_threads (hr : SysRun name opens s)
    (hne : ∀ tids ∈ opens, tids ≠ [] ∧ ∀ t ∈ tids, -2 ^ 31 ≤ t ∧ t < 2 ^ 31) (i : Nat) :
    systemfsReaddir s 4 i =
      some (((opens.getLast?.getD [])[i]?).map fun t => ⟨toString t, FT_FILE⟩) := by
  obtain ⟨fc, kids, h4, hkids, -⟩ := hr.shape.threads
  obtain ⟨fc', kids', h4', hkids', -, hdirent⟩ := (hr.safe hne).children
  obtain rfl : fc = fc' := by simpa [h4] using h4'
  obtain rfl := hkids.unique hkids'
  exact (systemfsReaddir_of_chain h4 hkids i).trans (congrArg some (hdirent i))

end Runs

/-! ## (7) `/system` over every run -/

/-- **`/system` keeps its tree; `threads/` stays sound while every open sees a thread.** Along
every run from boot, whatever the thread lists: `systemfs_finddir` resolves `meminfo`, `threads`,
`pipes`, `shm` in the root and `totalpages`, `usedpages` in `meminfo/` to the nodes
`create_nodes` made, and `systemfs_readdir` lists them in that order, with nothing in `pipes/` and
`shm/`. Along a run whose every open saw a nonempty list of `int` thread ids, `threads/` lists the
ids of the last open as `FILE`s, no node was passed to `kfree` twice, and no freed node is reachable
from the root. The running kernel never opens `threads/` with no thread (the scheduler lists the
opening thread and `kmain`'s idle thread); the last part shows what the function would do on such
an open: it leaves `first_child` on the nodes it freed, so the next open frees them again, and
opening with the threads `[7]`, then none, then `[8]` frees node `7` twice. -/
theorem systemfs_runs_keep_tree (name : String) :
    (∀ opens s, SysRun name opens s →
      ["meminfo", "threads", "pipes", "shm"].map (systemfsFinddir s 0) =
          [some (some 1), some (some 4), some (some 5), some (some 6)] ∧
        ["totalpages", "usedpages"].map (systemfsFinddir s 1) = [some (some 2), some (some 3)] ∧
        ∀ i, systemfsReaddir s 0 i =
            some ((["meminfo", "threads", "pipes", "shm"][i]?).map fun x => ⟨x, FT_DIRECTORY⟩) ∧
          systemfsReaddir s 1 i =
            some ((["totalpages", "usedpages"][i]?).map fun x => ⟨x, FT_FILE⟩) ∧
          systemfsReaddir s 5 i = some none ∧ systemfsReaddir s 6 i = some none) ∧
    (∀ opens s, SysRun name opens s →
      (∀ tids ∈ opens, tids ≠ [] ∧ ∀ t ∈ tids, -2 ^ 31 ≤ t ∧ t < 2 ^ 31) →
      (∀ i, systemfsReaddir s 4 i =
        some (((opens.getLast?.getD [])[i]?).map fun t => ⟨toString t, FT_FILE⟩)) ∧
      s.freed.Nodup ∧ ∀ n ∈ s.freed, ¬ Reached s n) ∧
    ∃ s, SysRun name [[7], [], [8]] s ∧ s.freed = [7, 7] :=
  ⟨fun _ _ hr => ⟨hr.shape.finddir_boot.1, hr.shape.finddir_boot.2, hr.shape.readdir_boot⟩,
    fun _ _ hr hne => ⟨hr.readdir_threads hne, (hr.safe hne).nodup,
      fun _ hn => (hr.safe hne).not_reached hr.shape hn⟩,
    _, .openThreads [8] (.openThreads [] (.openThreads [7]
      (.boot (systemfsInitialize_some name)) rfl rfl) rfl rfl) rfl rfl, rfl⟩

end Asterisk.Systemfs
