import Asterisk.Fat.Calls
import Asterisk.Fat.Path

/-! # Open files and the `FIL`s they hold

`open` allocates a `FIL` before it calls `f_open` and stores it in `private_data` only when
`f_open` answers `FR_OK`; `close` frees the `FIL` of a file and sets `private_data` to `NULL`;
`read`, `write` and `lseek` act on the `FIL` through the pointer. The provider with the files the
VFS opened on it is a transition system (`FilesStep`), whose runs count the calls of `f_open` that
failed (`FilesReachable`).

* **`open_cases`** — `open` either returns before `f_open` and allocates nothing, or allocates one
  `FIL` and calls `f_open` on the node's path, the file taking the `FIL` exactly on `FR_OK`.
* **`FilesInv.step`** — one call keeps the accounting: every pointer a file holds was allocated
  and not freed, no two files hold the same `FIL`, nothing is freed twice, and the `FIL`s allocated
  are those freed, those held, and one per failed `f_open`.
* **`fils_freed_held_or_leaked`** — the accounting over every run.
* **`open_files_isolated`** — a call on one file leaves what every other file sees. -/

namespace Asterisk.Fat

/-! ## (1) `open` -/

/-- The path `open` passes to `f_open` for a file on node `n`: `none` when it returns first, on a
directory or a path that does not assemble. -/
def fOpenPath (nodes : List FsNode) (n : Nat) : Option String :=
  match nodes[n]? with
  | none => none
  | some node =>
    if node.nodeType = FT_DIRECTORY then none
    else
      match assemblePath nodes n with
      | .error _ => none
      | .ok path => some path

/-- Whether `open` of a file on node `n` calls `f_open` and `f_open` fails. -/
def fOpenFails (nodes : List FsNode) (n flags : Nat) (fOpen : String → Nat → Fil × Bool) : Bool :=
  match fOpenPath nodes n with
  | none => false
  | some path => !(fOpen path (fatfsMode flags)).2

/-- `f_open` is asked for write access exactly when `flags` is `O_WRONLY` or `O_RDWR`: any other
value, `O_WRONLY` combined with another flag included, opens for reading. -/
theorem fatfsMode_write_iff (flags : Nat) :
    fatfsMode flags &&& FA_WRITE ≠ 0 ↔ flags = O_WRONLY ∨ flags = O_RDWR := by
  unfold fatfsMode
  split_ifs <;> simp_all [O_RDONLY, O_WRONLY, O_RDWR, FA_READ, FA_WRITE]

/-- **Every outcome of `open`**: it returns before `f_open`, allocating nothing and leaving the
file as it was; or it allocates one `FIL`, the one `f_open` initialises on the node's path, and
the file takes it, with its `fptr` as offset, exactly when `f_open` answers `FR_OK`. -/
theorem open_cases (nodes : List FsNode) (heap : FilHeap) (file : FileRef) (flags : Nat)
    (fOpen : String → Nat → Fil × Bool) :
    (fOpenPath nodes file.node = none ∧ («open» nodes heap file flags fOpen).1 = heap ∧
      («open» nodes heap file flags fOpen).2.1 = file) ∨
    ∃ path, fOpenPath nodes file.node = some path ∧
      («open» nodes heap file flags fOpen).1 =
        ⟨heap.fils ++ [(fOpen path (fatfsMode flags)).1], heap.freed⟩ ∧
      («open» nodes heap file flags fOpen).2.1 =
        if (fOpen path (fatfsMode flags)).2 then
          { file with offset := toInt32 (fOpen path (fatfsMode flags)).1.fptr,
                      privateData := some heap.fils.length }
        else file := by
  unfold «open» fOpenPath
  cases nodes[file.node]? with
  | none => exact .inl ⟨rfl, rfl, rfl⟩
  | some node =>
    dsimp only
    split_ifs
    · exact .inl ⟨rfl, rfl, rfl⟩
    · cases assemblePath nodes file.node with
      | error => exact .inl ⟨rfl, rfl, rfl⟩
      | ok path =>
        refine .inr ⟨path, rfl, ?_⟩
        dsimp only
        split <;> exact ⟨rfl, rfl⟩

/-! ## (2) The provider with its open files -/

/-- The overlay, the `FIL`s, and the files the VFS opened on the provider. -/
structure FilesState where
  fs : FatState
  heap : FilHeap
  files : List FileRef
  deriving DecidableEq, Repr

/-- After `fatfs_initialize`: no node, no `FIL`, no file. -/
def FilesState.init (volumes : Nat) : FilesState := ⟨FatState.init volumes, ⟨[], []⟩, []⟩

/-- The `FIL`s the files hold, in the order of the files. -/
def FilesState.owned (st : FilesState) : List Nat := st.files.filterMap FileRef.privateData

/-- Modelled from the spec: the VFS's `open` (`fs.c` is not in `src/`) makes a `File` for node `n`,
with `private_data` `NULL` and offset `0`, and passes it to the provider's `open`. The file is
kept whatever `open` answers: one that failed holds no `FIL`. -/
def fsOpen (st : FilesState) (n flags : Nat) (fOpen : String → Nat → Fil × Bool) : FilesState :=
  let r := «open» st.fs.nodes st.heap ⟨n, none, 0⟩ flags fOpen
  ⟨st.fs, r.1, st.files ++ [r.2.1]⟩

/-- A call on the file at position `i`, if there is one. -/
def FilesState.onFile (st : FilesState) (i : Nat) (op : FilHeap → FileRef → FilHeap × FileRef) :
    FilesState :=
  match st.files[i]? with
  | none => st
  | some file => ⟨st.fs, (op st.heap file).1, st.files.set i (op st.heap file).2⟩

/-- `read`, `write` or `lseek` on the file at position `i`, through its pointer. -/
def FilesState.callOn (st : FilesState) (i : Nat) (op : File → File × Int) : FilesState :=
  st.onFile i fun heap file => ((heap.call file op).1, (heap.call file op).2.1)

/-- **One call**, labelled with the number of `f_open` calls in it that failed: `mount`, `finddir`
or `stat` on the overlay, or `open`, `read`, `write`, `lseek` or `close` of a file, with any
arguments and any answers of the FAT library. -/
inductive FilesStep (volumes : Nat) : FilesState → Nat → FilesState → Prop
  | tree (st : FilesState) (fs' : FatState) :
      FatStep volumes st.fs fs' → FilesStep volumes st 0 { st with fs := fs' }
  | «open» (st : FilesState) (n flags : Nat) (fOpen : String → Nat → Fil × Bool) :
      FilesStep volumes st (if fOpenFails st.fs.nodes n flags fOpen then 1 else 0)
        (fsOpen st n flags fOpen)
  | read (st : FilesState) (i size : Nat) (fRead : Fil → Nat → Fil × Bool × Nat) :
      FilesStep volumes st 0 (st.callOn i (read · size fRead))
  | write (st : FilesState) (i size : Nat) (fWrite : Fil → Nat → Fil × Bool × Nat) :
      FilesStep volumes st 0 (st.callOn i (write · size fWrite))
  | lseek (st : FilesState) (i : Nat) (offset whence : Int) (fLseek : Fil → Nat → Fil × Bool) :
      FilesStep volumes st 0 (st.callOn i (lseek · offset whence fLseek))
  | close (st : FilesState) (i : Nat) : FilesStep volumes st 0 (st.onFile i close)

/-- The states reachable from `fatfs_initialize` by runs in which `k` calls of `f_open` failed. -/
inductive FilesReachable (volumes : Nat) : Nat → FilesState → Prop
  | init : FilesReachable volumes 0 (FilesState.init volumes)
  | step {k d : Nat} {st st' : FilesState} : FilesReachable volumes k st →
      FilesStep volumes st d st' → FilesReachable volumes (k + d) st'

/-! ## (3) The held `FIL`s along a call -/

/-- The images of a list with position `i` set to `a`, around that position. -/
theorem filterMap_set_of_getElem? {α β : Type} {g : α → Option β} {l : List α} {i : Nat}
    {a b : α} (h : l[i]? = some b) :
    (l.set i a).filterMap g = (l.take i).filterMap g ++ (g a).toList ++ (l.drop (i + 1)).filterMap g := by
  rw [List.set_eq_take_append_cons_drop, if_pos (List.getElem?_eq_some_iff.1 h).1,
    List.filterMap_append, List.filterMap_cons]
  cases g a <;> simp

section Owned

variable {st : FilesState} {i : Nat} {file : FileRef}

/-- The `FIL`s held by the files before position `i`, and after it. -/
def FilesState.ownedBefore (st : FilesState) (i : Nat) : List Nat :=
  (st.files.take i).filterMap FileRef.privateData

/-- The `FIL`s held by the files after position `i`. -/
def FilesState.ownedAfter (st : FilesState) (i : Nat) : List Nat :=
  (st.files.drop (i + 1)).filterMap FileRef.privateData

/-- A call on the file at position `i`: the held `FIL`s around it, and the one it leaves it. -/
theorem owned_onFile (op : FilHeap → FileRef → FilHeap × FileRef) (h : st.files[i]? = some file) :
    (st.onFile i op).owned =
      st.ownedBefore i ++ (op st.heap file).2.privateData.toList ++ st.ownedAfter i := by
  rw [FilesState.onFile, h, FilesState.owned, filterMap_set_of_getElem? h]
  rfl

/-- The held `FIL`s around the file at position `i`. -/
theorem owned_split (h : st.files[i]? = some file) :
    st.owned = st.ownedBefore i ++ file.privateData.toList ++ st.ownedAfter i := by
  unfold FilesState.owned FilesState.ownedBefore FilesState.ownedAfter
  rw [← filterMap_set_of_getElem? h, set_of_getElem? h]

/-- A call that leaves the pointer of the file it acts on keeps the held `FIL`s. -/
theorem owned_onFile_of_privateData (op : FilHeap → FileRef → FilHeap × FileRef)
    (h : st.files[i]? = some file) (hop : (op st.heap file).2.privateData = file.privateData) :
    (st.onFile i op).owned = st.owned := by
  rw [owned_onFile op h, hop, ← owned_split h]

end Owned

@[simp] theorem FilHeap.call_fils_length (heap : FilHeap) (file : FileRef) (op : File → File × Int) :
    (heap.call file op).1.fils.length = heap.fils.length := by
  unfold FilHeap.call
  dsimp only
  split <;> simp

/-! ## (4) The accounting -/

/-- **The `FIL` accounting** after a run in which `k` calls of `f_open` failed: a held pointer was
allocated and not freed, no two files hold one `FIL`, only allocated `FIL`s were freed, none
twice, and the allocated ones are those freed, those held and `k` more. -/
structure FilesInv (k : Nat) (st : FilesState) : Prop where
  live : ∀ f ∈ st.owned, f < st.heap.fils.length ∧ f ∉ st.heap.freed
  nodup : st.owned.Nodup
  freed_lt : ∀ f ∈ st.heap.freed, f < st.heap.fils.length
  freed_nodup : st.heap.freed.Nodup
  count : st.heap.fils.length = st.heap.freed.length + st.owned.length + k

namespace FilesInv

variable {k : Nat} {st st' : FilesState}

theorem init (volumes : Nat) : FilesInv 0 (FilesState.init volumes) :=
  ⟨nofun, .nil, nofun, .nil, rfl⟩

/-! The accounting reads only the number of `FIL`s allocated, the `kfree` log and the held
`FIL`s; the four ways a call changes them. -/

/-- Nothing allocated, freed, taken or dropped. -/
theorem of_same (h : FilesInv k st) (hown : st'.owned = st.owned)
    (hfils : st'.heap.fils.length = st.heap.fils.length) (hfreed : st'.heap.freed = st.heap.freed) :
    FilesInv k st' :=
  ⟨by rw [hown, hfils, hfreed]; exact h.live, by rw [hown]; exact h.nodup,
    by rw [hfils, hfreed]; exact h.freed_lt, by rw [hfreed]; exact h.freed_nodup,
    by rw [hown, hfils, hfreed]; exact h.count⟩

/-- A held `FIL` `f` is freed and dropped from its file. -/
theorem release (h : FilesInv k st) {A B : List Nat} {f : Nat} (hown : st.owned = A ++ [f] ++ B)
    (hown' : st'.owned = A ++ B) (hfils : st'.heap.fils.length = st.heap.fils.length)
    (hfreed : st'.heap.freed = st.heap.freed ++ [f]) : FilesInv k st' := by
  have hnd := h.nodup
  rw [hown, List.append_assoc, List.singleton_append, List.nodup_middle, List.nodup_cons] at hnd
  have hmem : ∀ g ∈ A ++ B, g ∈ st.owned := fun g hg => by
    rw [hown]
    simp only [List.mem_append] at hg ⊢
    tauto
  have hf := h.live f (by rw [hown]; simp)
  have hc := h.count
  rw [hown] at hc
  refine ⟨fun g hg => ?_, by rw [hown']; exact hnd.2, fun g hg => ?_, ?_, ?_⟩
  · rw [hown'] at hg
    obtain ⟨hlt, hfr⟩ := h.live g (hmem g hg)
    rw [hfils, hfreed, List.mem_append, List.mem_singleton, not_or]
    exact ⟨hlt, hfr, fun e => hnd.1 (e ▸ hg)⟩
  · rw [hfreed, List.mem_append, List.mem_singleton] at hg
    rw [hfils]
    rcases hg with hg | rfl
    · exact h.freed_lt g hg
    · exact hf.1
  · rw [hfreed]
    exact List.nodup_append.2 ⟨h.freed_nodup, List.nodup_singleton f,
      List.disjoint_singleton.2 hf.2⟩
  · rw [hfils, hfreed, hown']
    simp only [List.length_append, List.length_singleton] at hc ⊢
    omega

/-- A `FIL` is allocated and the new file holds it. -/
theorem allocHeld (h : FilesInv k st) (hown : st'.owned = st.owned ++ [st.heap.fils.length])
    (hfils : st'.heap.fils.length = st.heap.fils.length + 1)
    (hfreed : st'.heap.freed = st.heap.freed) : FilesInv k st' := by
  have hc := h.count
  refine ⟨fun f hf => ?_, ?_, fun f hf => ?_, by rw [hfreed]; exact h.freed_nodup, ?_⟩
  · rw [hown] at hf
    rw [hfils, hfreed]
    rcases List.mem_append.1 hf with hf | hf
    · exact ⟨by have := (h.live f hf).1; omega, (h.live f hf).2⟩
    · rw [List.mem_singleton.1 hf]
      exact ⟨by omega, fun hm => by have := h.freed_lt _ hm; omega⟩
  · rw [hown]
    exact List.nodup_append.2 ⟨h.nodup, List.nodup_singleton _,
      List.disjoint_singleton.2 fun hm => by have := (h.live _ hm).1; omega⟩
  · rw [hfreed] at hf
    rw [hfils]
    have := h.freed_lt f hf
    omega
  · rw [hfils, hfreed, hown, List.length_append, List.length_singleton]
    omega

/-- A `FIL` is allocated and nothing holds it: one more is lost. -/
theorem allocLost (h : FilesInv k st) (hown : st'.owned = st.owned)
    (hfils : st'.heap.fils.length = st.heap.fils.length + 1)
    (hfreed : st'.heap.freed = st.heap.freed) : FilesInv (k + 1) st' := by
  have hc := h.count
  refine ⟨fun f hf => ?_, by rw [hown]; exact h.nodup, fun f hf => ?_,
    by rw [hfreed]; exact h.freed_nodup, ?_⟩
  · rw [hown] at hf
    rw [hfils, hfreed]
    exact ⟨by have := (h.live f hf).1; omega, (h.live f hf).2⟩
  · rw [hfreed] at hf
    rw [hfils]
    have := h.freed_lt f hf
    omega
  · rw [hfils, hfreed, hown]
    omega

/-- `read`, `write` and `lseek` store a `FIL` back in place and keep every pointer. -/
theorem callOn (h : FilesInv k st) (i : Nat) (op : File → File × Int) :
    FilesInv k (st.callOn i op) := by
  unfold FilesState.callOn
  cases hi : st.files[i]? with
  | none => simpa [FilesState.onFile, hi] using h
  | some file =>
    exact h.of_same (owned_onFile_of_privateData _ hi rfl) (by simp [FilesState.onFile, hi])
      (by simp [FilesState.onFile, hi, FilHeap.call])

/-- `close` frees the `FIL` of the file, which no other file holds, and takes it from the file. -/
theorem close (h : FilesInv k st) (i : Nat) : FilesInv k (st.onFile i Fat.close) := by
  cases hi : st.files[i]? with
  | none => simpa [FilesState.onFile, hi] using h
  | some file =>
    cases hf : file.privateData with
    | none =>
      exact h.of_same (owned_onFile_of_privateData _ hi (by simp [Fat.close, hf]))
        (by simp [FilesState.onFile, hi, Fat.close, hf]) (by simp [FilesState.onFile, hi, Fat.close, hf])
    | some f =>
      refine h.release (by rw [owned_split hi, hf]; rfl) ?_
        (by simp [FilesState.onFile, hi, Fat.close, hf]) (by simp [FilesState.onFile, hi, Fat.close, hf])
      rw [owned_onFile _ hi]
      simp [Fat.close, hf]

/-- `open` allocates at most one `FIL`; the file takes it, or it is lost exactly when `f_open`
failed. -/
theorem fsOpen (h : FilesInv k st) (n flags : Nat) (fOpen : String → Nat → Fil × Bool) :
    FilesInv (k + if fOpenFails st.fs.nodes n flags fOpen then 1 else 0)
      (fsOpen st n flags fOpen) := by
  have hown : (Fat.fsOpen st n flags fOpen).owned = st.owned ++
      ((«open» st.fs.nodes st.heap ⟨n, none, 0⟩ flags fOpen).2.1.privateData).toList := by
    show (st.files ++ [_]).filterMap _ = _
    rw [List.filterMap_append, List.filterMap_cons, List.filterMap_nil]
    cases («open» st.fs.nodes st.heap ⟨n, none, 0⟩ flags fOpen).2.1.privateData <;> rfl
  have hheap : (Fat.fsOpen st n flags fOpen).heap =
      («open» st.fs.nodes st.heap ⟨n, none, 0⟩ flags fOpen).1 := rfl
  rcases open_cases st.fs.nodes st.heap ⟨n, none, 0⟩ flags fOpen with
    ⟨hp, h1, h2⟩ | ⟨path, hp, h1, h2⟩ <;> change fOpenPath st.fs.nodes n = _ at hp <;>
    rw [h2] at hown <;> rw [h1] at hheap <;> simp only [fOpenFails, hp]
  · exact h.of_same (by simpa using hown) (by rw [hheap]) (by rw [hheap])
  · have hfils : (Fat.fsOpen st n flags fOpen).heap.fils.length = st.heap.fils.length + 1 := by
      simp [hheap]
    cases hr : (fOpen path (fatfsMode flags)).2
    · exact h.allocLost (by simpa [hr] using hown) hfils (by rw [hheap])
    · exact h.allocHeld (by simpa [hr] using hown) hfils (by rw [hheap])

/-- **Step lemma**: every call keeps the accounting, adding its failed `f_open`s. -/
theorem step (h : FilesInv k st) {volumes d : Nat}
    (hs : FilesStep volumes st d st') : FilesInv (k + d) st' := by
  cases hs with
  | tree fs' _ => exact ⟨h.live, h.nodup, h.freed_lt, h.freed_nodup, h.count⟩
  | «open» n flags fOpen => exact h.fsOpen n flags fOpen
  | read i size fRead => exact h.callOn i _
  | write i size fWrite => exact h.callOn i _
  | lseek i offset whence fLseek => exact h.callOn i _
  | close i => exact h.close i

/-- Two files that hold the same `FIL` are the same file. -/
theorem ptr_inj (h : FilesInv k st) {i j f : Nat} {file file' : FileRef}
    (hi : st.files[i]? = some file) (hj : st.files[j]? = some file')
    (hf : file.privateData = some f) (hf' : file'.privateData = some f) : i = j := by
  have hnd := h.nodup
  rw [owned_split hi, hf, Option.toList_some, List.append_assoc, List.singleton_append,
    List.nodup_middle, List.nodup_cons, List.mem_append, not_or] at hnd
  by_contra hne
  rcases Nat.lt_or_gt_of_ne hne with hlt | hlt
  · have hd : (st.files.drop (i + 1))[j - (i + 1)]? = some file' := by
      rw [List.getElem?_drop, ← hj]
      congr 1
      omega
    exact hnd.1.2 (List.mem_filterMap.2 ⟨file', List.getElem?_mem hd, hf'⟩)
  · exact hnd.1.1 (List.mem_filterMap.2
      ⟨file', List.getElem?_mem ((List.getElem?_take_of_lt hlt).trans hj), hf'⟩)

end FilesInv

/-- **Run lemma**: the accounting holds at every reachable state. -/
theorem filesInv_of_reachable {volumes k : Nat} {st : FilesState}
    (h : FilesReachable volumes k st) : FilesInv k st := by
  induction h with
  | init => exact FilesInv.init volumes
  | step _ hs ih => exact ih.step hs

/-! ## (5) A run to start concrete traces from

Volume `0` of a block device `hd` mounted on `mnt`, and a file `a` of `5` bytes looked up in it;
then `open` of `a`, from any `FIL`s and files. -/

/-- The overlay after mounting `hd` on `mnt` and looking up `a`: the overlay root and `a`. -/
def mntA : FatState :=
  ⟨[⟨"mnt", FT_DIRECTORY, some 0, some 1, 0, [1], 0⟩, ⟨"a", FT_FILE, some 0, none, 0, [], 5⟩],
    [some 1]⟩

theorem reachable_mnt_a : FilesReachable 1 0 ⟨mntA, ⟨[], []⟩, []⟩ := by
  have hfs1 : (mount 1 (FatState.init 1) (some ⟨1, "hd", FT_BLOCK_DEVICE, none, none⟩)
      (some ⟨2, "mnt", FT_DIRECTORY, some 0, none⟩) fun _ => true).1 =
      ⟨[⟨"mnt", FT_DIRECTORY, some 0, some 1, 0, [], 0⟩], [some 1]⟩ := by decide
  have hpath : finddirPath [⟨"mnt", FT_DIRECTORY, some 0, some 1, 0, [], 0⟩] 0 "a" = .ok "0:a" := by
    rw [finddirPath_chain (.root rfl (by decide)) rfl (by decide) (by simp) (by decide) (by decide),
      if_pos (by decide)]
    rfl
  have hfs2 : (finddir ⟨[⟨"mnt", FT_DIRECTORY, some 0, some 1, 0, [], 0⟩], [some 1]⟩ 0 "a"
      fun _ => some ⟨false, 5⟩).1 = mntA := by
    simp [finddir, hpath, nameOf, mntA]
  have h := FilesReachable.step .init (.tree _ _ (.mount (FatState.init 1)
    (some ⟨1, "hd", FT_BLOCK_DEVICE, none, none⟩) (some ⟨2, "mnt", FT_DIRECTORY, some 0, none⟩)
    fun _ => true))
  rw [hfs1] at h
  have h' := FilesReachable.step h
    (.tree _ _ (.finddir _ 0 "a" (fun _ => some ⟨false, 5⟩) (by decide)))
  rwa [hfs2] at h'

theorem assemblePath_mnt_a : assemblePath mntA.nodes 1 = .ok "0:a" := by
  rw [assemblePath_chain (.step rfl rfl rfl (.root rfl (by decide))) rfl (by decide)
    (by simp [mntA]; decide), if_pos (by decide)]
  rfl

/-- `open` of `a`, with an `f_open` that initialises `fil` and answers `ok`, from any `FIL`s and
files: the `FIL` is allocated, and the new file takes it, at offset `fil.fptr`, exactly when
`f_open` succeeds. -/
theorem fsOpen_mnt_a (heap : FilHeap) (files : List FileRef) (flags : Nat) (fil : Fil) (ok : Bool) :
    fsOpen ⟨mntA, heap, files⟩ 1 flags (fun _ _ => (fil, ok)) =
      ⟨mntA, ⟨heap.fils ++ [fil], heap.freed⟩,
        files ++ [if ok then ⟨1, some heap.fils.length, toInt32 fil.fptr⟩ else ⟨1, none, 0⟩]⟩ := by
  have hnode : mntA.nodes[1]? = some ⟨"a", FT_FILE, some 0, none, 0, [], 5⟩ := rfl
  cases ok <;> simp [fsOpen, «open», hnode, assemblePath_mnt_a,
    show FT_FILE ≠ FT_DIRECTORY by decide]

theorem fOpenFails_mnt_a (flags : Nat) (fil : Fil) (ok : Bool) :
    fOpenFails mntA.nodes 1 flags (fun _ _ => (fil, ok)) = !ok := by
  have hnode : mntA.nodes[1]? = some ⟨"a", FT_FILE, some 0, none, 0, [], 5⟩ := rfl
  simp [fOpenFails, fOpenPath, hnode, assemblePath_mnt_a, show FT_FILE ≠ FT_DIRECTORY by decide]

/-- A run that opens `a` once more: one more failed `f_open` when it fails. -/
theorem FilesReachable.open_a {k : Nat} {heap : FilHeap} {files : List FileRef}
    (h : FilesReachable 1 k ⟨mntA, heap, files⟩) (flags : Nat) (fil : Fil) (ok : Bool) :
    FilesReachable 1 (k + if ok then 0 else 1) ⟨mntA, ⟨heap.fils ++ [fil], heap.freed⟩,
      files ++ [if ok then ⟨1, some heap.fils.length, toInt32 fil.fptr⟩ else ⟨1, none, 0⟩]⟩ := by
  have h' := h.step (.open _ 1 flags fun _ _ => (fil, ok))
  rw [fOpenFails_mnt_a, fsOpen_mnt_a] at h'
  cases ok <;> exact h'

/-! ## (6) The accounting over every run -/

/-- **Every `FIL` is freed, held by one file, or lost to a failed `f_open`.** Over any run of
`open`, `read`, `write`, `lseek` and `close` on any files, interleaved with `mount`, `finddir` and
`stat`, with any answers of the FAT library, in which `k` calls of `f_open` failed: the `FIL` a
file points to was allocated and never freed, so `read`, `write` and `lseek` never reach a freed
one; no two files point to the same `FIL`; nothing is freed twice; and the `FIL`s allocated number
those freed, those held, and `k`: each failed `f_open` leaks its `FIL`, and nothing else does.
Such a leak is reachable: mount a volume, look up a file `a` on it, and open it with an `f_open`
that fails; one `FIL` is allocated, and none is freed or held. -/
theorem fils_freed_held_or_leaked (volumes : Nat) :
    (∀ k st, FilesReachable volumes k st →
      (∀ file ∈ st.files, ∀ f, file.privateData = some f →
        f < st.heap.fils.length ∧ f ∉ st.heap.freed) ∧
      st.owned.Nodup ∧ st.heap.freed.Nodup ∧
      st.heap.fils.length = st.heap.freed.length + st.owned.length + k) ∧
    ∃ st, FilesReachable 1 1 st ∧ st.heap.fils.length = 1 ∧ st.heap.freed = [] ∧ st.owned = [] := by
  refine ⟨fun k st hr => ?_, ?_⟩
  · have h := filesInv_of_reachable hr
    exact ⟨fun file hfile f hf => h.live f (List.mem_filterMap.2 ⟨file, hfile, hf⟩), h.nodup,
      h.freed_nodup, h.count⟩
  · exact ⟨_, reachable_mnt_a.open_a O_RDONLY ⟨0, 5⟩ false, by decide, by decide, by decide⟩

/-! ## (7) Open files do not interfere -/

/-- What a call on the file at position `j` sees: its offset and the `FIL` it points to. -/
def FilesState.viewOf (st : FilesState) (j : Nat) : Option File :=
  (st.files[j]?).map st.heap.view

/-- A pointer the heap does not change at leaves a view as it was. -/
theorem view_of_fils {heap heap' : FilHeap} {file : FileRef}
    (h : ∀ f, file.privateData = some f → heap'.fils[f]? = heap.fils[f]?) :
    heap'.view file = heap.view file := by
  unfold FilHeap.view
  cases hf : file.privateData with
  | none => rfl
  | some f => exact congrArg (File.mk · file.offset) (h f hf)

section Isolation

variable {k : Nat} {st : FilesState}

/-- `read`, `write` and `lseek` on one file leave what every other file sees. -/
theorem FilesInv.callOn_viewOf (h : FilesInv k st) {i j : Nat} (hij : i ≠ j)
    (op : File → File × Int) : (st.callOn i op).viewOf j = st.viewOf j := by
  unfold FilesState.callOn FilesState.onFile FilesState.viewOf
  cases hi : st.files[i]? with
  | none => rfl
  | some file =>
    dsimp only
    rw [List.getElem?_set_ne hij]
    cases hj : st.files[j]? with
    | none => rfl
    | some file' =>
      refine congrArg some (view_of_fils fun f hf' => ?_)
      unfold FilHeap.call
      dsimp only
      split
      · rename_i p fil hp _
        exact List.getElem?_set_ne fun e => hij (h.ptr_inj hi hj hp (by rw [e]; exact hf'))
      · rfl

/-- `close` of one file leaves what every other file sees. -/
theorem onFile_close_viewOf {i j : Nat} (hij : i ≠ j) :
    (st.onFile i close).viewOf j = st.viewOf j := by
  unfold FilesState.onFile FilesState.viewOf
  cases hi : st.files[i]? with
  | none => rfl
  | some file =>
    dsimp only
    rw [List.getElem?_set_ne hij]
    cases hj : st.files[j]? with
    | none => rfl
    | some file' =>
      refine congrArg some (view_of_fils fun f _ => ?_)
      unfold close
      split <;> rfl

/-- Opening a file leaves what every file already open sees. -/
theorem FilesInv.fsOpen_viewOf (h : FilesInv k st) {j : Nat} (hj : j < st.files.length)
    (n flags : Nat) (fOpen : String → Nat → Fil × Bool) :
    (Fat.fsOpen st n flags fOpen).viewOf j = st.viewOf j := by
  unfold FilesState.viewOf
  show ((st.files ++ _)[j]?).map _ = _
  rw [List.getElem?_append_left hj]
  cases hjf : st.files[j]? with
  | none => rfl
  | some file =>
    refine congrArg some (view_of_fils fun f hf => ?_)
    have hlt := (h.live f (List.mem_filterMap.2 ⟨file, List.getElem?_mem hjf, hf⟩)).1
    rcases open_cases st.fs.nodes st.heap ⟨n, none, 0⟩ flags fOpen with
      ⟨-, h1, -⟩ | ⟨path, -, h1, -⟩ <;> show ((«open» _ _ _ _ _).1.fils)[f]? = _ <;> rw [h1]
    exact List.getElem?_append_left hlt

end Isolation

/-- **Open files do not interfere.** At every state reachable by the file calls, a `read`, a
`write`, an `lseek` (indeed any call through the pointer) or a `close` of one file leaves every
other file's offset and the `FIL` it points to as they were, and opening a file leaves those of
every file already open: no two files share a `FIL`, and a call writes only its own. -/
theorem open_files_isolated (volumes : Nat) :
    ∀ k st, FilesReachable volumes k st → ∀ j,
      (∀ i, i ≠ j → ∀ op : File → File × Int, (st.callOn i op).viewOf j = st.viewOf j) ∧
      (∀ i, i ≠ j → (st.onFile i close).viewOf j = st.viewOf j) ∧
      (j < st.files.length → ∀ n flags fOpen, (fsOpen st n flags fOpen).viewOf j = st.viewOf j) := by
  intro k st hr j
  have h := filesInv_of_reachable hr
  exact ⟨fun i hij op => h.callOn_viewOf hij op, fun i hij => onFile_close_viewOf hij,
    fun hj n flags fOpen => h.fsOpen_viewOf hj n flags fOpen⟩

/-- Two files open on `a`, one for reading and one for reading and writing, each holding its own
`FIL`. -/
theorem open_files_isolated_two :
    ∃ st, FilesReachable 1 0 st ∧ st.owned = [0, 1] ∧ ∀ j,
      (∀ i, i ≠ j → ∀ op : File → File × Int, (st.callOn i op).viewOf j = st.viewOf j) ∧
      (∀ i, i ≠ j → (st.onFile i close).viewOf j = st.viewOf j) ∧
      (j < st.files.length → ∀ n flags fOpen, (fsOpen st n flags fOpen).viewOf j = st.viewOf j) :=
  have h := (reachable_mnt_a.open_a O_RDONLY ⟨0, 5⟩ true).open_a O_RDWR ⟨0, 5⟩ true
  ⟨_, h, by decide, open_files_isolated 1 0 _ h⟩

end Asterisk.Fat
