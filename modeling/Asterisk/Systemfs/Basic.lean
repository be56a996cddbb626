import Mathlib.Data.List.Basic
import Asterisk.Vfs

/-! # The system filesystem of `systemfs.c`

`/system` holds `meminfo/{totalpages,usedpages}`, whose reads print a page count of the `vmm`, and
`threads/`, whose children `systemfs_open_threads_dir` rebuilds on every open: it frees the
`next_sibling` chain hanging from `first_child` (`clean_thread_nodes`), then allocates one `FILE`
node per thread of the scheduler's list, named by its decimal id, and links them. `readdir` and
`finddir` walk the chain.

The nodes are the ones `kmalloc` handed out, by position (as in `Fat.Basic`); `kfree` only logs the
position, so a freed node keeps its bytes and a stale pointer still reads them, and `kmalloc`
returns a fresh position. A pointer walk may not end on an arbitrary heap: the walks are given
`|heap| + 1` iterations, which a `NULL`-terminated chain never exceeds, and return `none` for a
walk that does not end or meets an invalid pointer.

* **`systemfsReaddir`, `systemfsFinddir`** — the child walks.
* **`cleanThreadNodes`, `systemfsOpenThreadsDir`** — the rebuild of `threads/`, over the thread ids
  of `thread_get_first()`, `thread->next`, ….
* **`systemfsReadMeminfoTotalpages`, `systemfsReadMeminfoUsedpages`** — the `meminfo` reads, one
  body (`readMeminfo`) over the count the `vmm` reports.

`common.c`'s `sprintf` is not in `src/`; it is modelled from the spec (`Asterisk.sprintf`), and
`sprintfDecimal` is its `"%d"` call. -/

namespace Asterisk.Systemfs

/-! ## (1) Nodes and the heap -/

/-- A `filesystem_node` of the system filesystem, with the fields its functions use. -/
structure SysNode where
  name : String
  nodeType : Nat
  parent : Option Nat
  firstChild : Option Nat
  nextSibling : Option Nat
  deriving DecidableEq, Repr

/-- The nodes `kmalloc` handed out, by position, and the positions passed to `kfree`, in order. -/
structure SysState where
  nodes : List SysNode
  freed : List Nat
  deriving DecidableEq, Repr

/-- Replace the node at position `n` by `f` of it. -/
def SysState.modifyNode (s : SysState) (n : Nat) (f : SysNode → SysNode) : SysState :=
  { s with nodes := s.nodes.modify f n }

/-- `kfree` of the node at position `n`. -/
def kfree (s : SysState) (n : Nat) : SysState := { s with freed := s.freed ++ [n] }

/-- `kmalloc` of a node, initialised to `nd`: the state and the fresh position. -/
def kmalloc (s : SysState) (nd : SysNode) : SysState × Nat :=
  ({ s with nodes := s.nodes ++ [nd] }, s.nodes.length)

/-- `sprintf(buffer, size, "%d", x)`: the format produces the decimal of the `int` `x`. -/
def sprintfDecimal (size : Nat) (x : Int) : String := sprintf size (toString x)

/-! ## (2) The child walks -/

/-- The loop of `systemfs_readdir` at `child`, whose position in the chain is `counter`: the
name and `node_type` of the child at `counter = index`, `NULL` at the end of the chain. -/
def readdirLoop (s : SysState) (index : Nat) : Nat → Nat → Option Nat → Option (Option FsDirent)
  | _, _, none => some none
  | 0, _, some _ => none
  | fuel + 1, counter, some c =>
    match s.nodes[c]? with
    | none => none
    | some nd =>
      if counter = index then some (some ⟨nd.name, nd.nodeType⟩)
      else readdirLoop s index fuel (counter + 1) nd.nextSibling

/-- `systemfs_readdir` of `node` at `index`. -/
def systemfsReaddir (s : SysState) (node index : Nat) : Option (Option FsDirent) :=
  match s.nodes[node]? with
  | none => none
  | some nd => readdirLoop s index (s.nodes.length + 1) 0 nd.firstChild

/-- The loop of `systemfs_finddir` at `child`: the first child named `name`. -/
def finddirLoop (s : SysState) (name : String) : Nat → Option Nat → Option (Option Nat)
  | _, none => some none
  | 0, some _ => none
  | fuel + 1, some c =>
    match s.nodes[c]? with
    | none => none
    | some nd => if name = nd.name then some (some c) else finddirLoop s name fuel nd.nextSibling

/-- `systemfs_finddir` of `name` in `node`. -/
def systemfsFinddir (s : SysState) (node : Nat) (name : String) : Option (Option Nat) :=
  match s.nodes[node]? with
  | none => none
  | some nd => finddirLoop s name (s.nodes.length + 1) nd.firstChild

/-! ## (3) Rebuilding `threads/` -/

/-- The loop of `clean_thread_nodes` at `node`: read its `next_sibling`, `kfree` it, go on. -/
def cleanLoop : Nat → SysState → Option Nat → Option SysState
  | _, s, none => some s
  | 0, _, some _ => none
  | fuel + 1, s, some n =>
    match s.nodes[n]? with
    | none => none
    | some nd => cleanLoop fuel (kfree s n) nd.nextSibling

/-- `clean_thread_nodes` of the directory `dir`: free the chain from its `first_child`. -/
def cleanThreadNodes (s : SysState) (dir : Nat) : Option SysState :=
  match s.nodes[dir]? with
  | none => none
  | some d => cleanLoop (s.nodes.length + 1) s d.firstChild

/-- The node `systemfs_open_threads_dir` allocates in `dir` for the thread `tid`: a `FILE` named
by `sprintf(buffer, 16, "%d", tid)`, with no sibling yet. -/
def threadNode (dir : Nat) (tid : Int) : SysNode :=
  ⟨sprintfDecimal 16 tid, FT_FILE, some dir, none, none⟩

/-- The `while (NULL != thread)` loop of `systemfs_open_threads_dir` over the thread ids: allocate
the thread's node and link it after `previous`, or as `first_child` of `dir` when there is none. -/
def fillLoop (dir : Nat) : SysState → Option Nat → List Int → SysState
  | s, _, [] => s
  | s, previous, tid :: threads =>
    let (s, n) := kmalloc s (threadNode dir tid)
    let s := match previous with
      | some p => s.modifyNode p fun nd => { nd with nextSibling := some n }
      | none => s.modifyNode dir fun nd => { nd with firstChild := some n }
    fillLoop dir s (some n) threads

/-- **`systemfs_open_threads_dir`** of `dir` with the scheduler's thread ids `threads`; it returns
`TRUE`. -/
def systemfsOpenThreadsDir (s : SysState) (dir : Nat) (threads : List Int) : Option SysState :=
  (cleanThreadNodes s dir).map fun s => fillLoop dir s none threads

/-! ## (4) The `meminfo` reads -/

/-- The body of the `meminfo` reads at `file->offset = offset` with a `size`-byte buffer, for the
page count `pages` the `vmm` reports: the new `offset`, the characters written before the NUL, and
the result. -/
def readMeminfo (pages offset : Int) (size : Nat) : Int × String × Int :=
  if size ≥ 4 then
    if offset = 0 then
      (offset + (sprintfDecimal size pages).length, sprintfDecimal size pages,
        (sprintfDecimal size pages).length)
    else (offset, "", 0)
  else (offset, "", -1)

/-- `systemfs_read_meminfo_totalpages`, over what `vmm_get_total_page_count` returns. -/
def systemfsReadMeminfoTotalpages (vmmGetTotalPageCount offset : Int) (size : Nat) :
    Int × String × Int :=
  readMeminfo vmmGetTotalPageCount offset size

/-- `systemfs_read_meminfo_usedpages`, over what `vmm_get_used_page_count` returns. -/
def systemfsReadMeminfoUsedpages (vmmGetUsedPageCount offset : Int) (size : Nat) :
    Int × String × Int :=
  readMeminfo vmmGetUsedPageCount offset size

end Asterisk.Systemfs
