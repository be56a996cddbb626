import Mathlib.Data.List.Basic
import Asterisk.Vfs

/-! # The FAT provider of `fatfilesystem.c`

The provider keeps an overlay of `filesystem_node`s over each mounted FAT volume: `mount` creates
the overlay root, whose `mount_source` is the block device and whose `private_node_data` is the
volume number, and `finddir` creates the other nodes lazily, one per name looked up, appending each
to its parent's child chain. The nodes the provider allocated are a list, a node is its position
in it (as in `SharedMemory.Basic`), and a child chain is the list of positions
`first_child`, `next_sibling`, ….

Every operation that reaches the FAT library names a file by a path it assembles right to left in
the 128-byte buffer `target_path`: **`assembleLoop`** walks the parent chain up to the overlay root,
**`assembleFinish`** writes `':'` and the volume number. `readdir`, `stat` and `open` run exactly
this code (`assemblePath`); `finddir` first writes the name it looks up, with no length check
(`finddirPath`). A write outside the buffer is undefined in C; the model returns `outOfBounds`.

The FAT library (`f_mount`, `f_stat`, `f_opendir`/`f_readdir`, `f_open`, `f_read`, `f_write`,
`f_lseek`) is external: what it answers is an argument. `open` allocates the `FIL` a file holds and
`close` frees it; at that level a file holds a pointer into the list of the `FIL`s allocated
(`FileRef`, `FilHeap`). `fs.h`, `ffconf.h` and `common.c` are not in `src/`: the node
type bits and `sprintf` (in `Vfs`), `FF_VOLUMES` (a parameter, `volumes`) and `strcpy_nonnull` are
modelled from the spec. -/

namespace Asterisk.Fat

/-! ## (1) Nodes -/

/-- A `filesystem_node` of the overlay, with the fields the provider uses. `mountSource` is a
node of the VFS outside the overlay (the block device); the parent of an overlay root is the
parent of its mount target, also outside the overlay. -/
structure FsNode where
  name : String
  nodeType : Nat
  parent : Option Nat
  mountSource : Option Nat
  privateNodeData : Nat
  children : List Nat
  length : Nat
  deriving DecidableEq, Repr

/-- A node of the VFS outside the overlay, as `fs_get_node` returns it to `mount`. -/
structure VfsNode where
  id : Nat
  name : String
  nodeType : Nat
  parent : Option Nat
  mountPoint : Option Nat
  deriving DecidableEq, Repr

/-- The overlay nodes and `g_mounted_block_devices`. -/
structure FatState where
  nodes : List FsNode
  mountedBlockDevices : List (Option Nat)
  deriving DecidableEq, Repr

/-- `fatfs_initialize`: no overlay node, every one of the `FF_VOLUMES` slots `NULL`. -/
def FatState.init (volumes : Nat) : FatState := ⟨[], List.replicate volumes none⟩

/-- What `f_stat` reports of a file: its directory attribute and its size. -/
structure FileInfo where
  isDir : Bool
  fsize : Nat
  deriving DecidableEq, Repr

/-- An entry `f_readdir` reads: its name (empty at the end of the directory) and attribute. -/
structure Dirent where
  fname : String
  isDir : Bool
  deriving DecidableEq, Repr

/-! ## (2) Path assembly in `target_path` -/

/-- The NUL character. -/
def nul : Char := Char.ofNat 0

/-- `target_path` after `memset(target_path, 0, 128)`. -/
def emptyPath : List Char := List.replicate 128 nul

/-- Modelled from the spec: `strcpy_nonnull(buf + i, s)` copies the characters of `s` without a
terminating NUL; `none` when one of them falls outside the buffer. `buf[i] = c` is
`writeAt buf i [c]`. -/
def writeAt (buf : List Char) (i : Int) (s : List Char) : Option (List Char) :=
  if 0 ≤ i ∧ i + s.length ≤ buf.length then
    some (buf.take i.toNat ++ s ++ buf.drop (i.toNat + s.length))
  else none

/-- The C string at index `i` of the buffer: its characters up to the first NUL. -/
def cstringAt (buf : List Char) (i : Int) : String := ⟨(buf.drop i.toNat).takeWhile (· ≠ nul)⟩

/-- `sprintf(number, 8, "%d", v)`: the format produces the decimal of `v`, of which at most 7
digits are printed. -/
def volumeNumber (v : Nat) : String := sprintf 8 (Nat.repr v)

/-- How path assembly ends without a path: the path does not fit (`return NULL`), a write
falls outside `target_path`, or the walk meets a missing node. -/
inductive PathError where
  | tooLong
  | outOfBounds
  | noParent
  deriving DecidableEq, Repr

/-- **The loop of the path assembly**: while `n` has no `mount_source`, move `char_index` left by
the length of its name, stop if it is below `2`, copy the name there and a `'/'` before it, and go
to the parent. Returns the node with a `mount_source` and the buffer and index. The loop ends
because `char_index` decreases. -/
def assembleLoop (nodes : List FsNode) (n : Nat) (buf : List Char) (ci : Int) :
    Except PathError (FsNode × List Char × Int) :=
  match nodes[n]? with
  | none => .error .noParent
  | some nd =>
    match nd.mountSource with
    | some _ => .ok (nd, buf, ci)
    | none =>
      if ci - nd.name.length < 2 then .error .tooLong
      else
        match writeAt buf (ci - nd.name.length) nd.name.data with
        | none => .error .outOfBounds
        | some buf =>
          match writeAt buf (ci - nd.name.length - 1) ['/'] with
          | none => .error .outOfBounds
          | some buf =>
            match nd.parent with
            | none => .error .noParent
            | some p => assembleLoop nodes p buf (ci - nd.name.length - 1)
termination_by ci.toNat
decreasing_by omega

/-- **The end of the path assembly**: `':'` at `char_index`, then the volume number of the overlay
root before it, if it fits; the path is the C string starting there. -/
def assembleFinish (root : FsNode) (buf : List Char) (ci : Int) : Except PathError String :=
  match writeAt buf ci [':'] with
  | none => .error .outOfBounds
  | some buf =>
    if ci - (volumeNumber root.privateNodeData).length < 0 then .error .tooLong
    else
      match writeAt buf (ci - (volumeNumber root.privateNodeData).length)
          (volumeNumber root.privateNodeData).data with
      | none => .error .outOfBounds
      | some buf => .ok (cstringAt buf (ci - (volumeNumber root.privateNodeData).length))

/-- The path `readdir`, `stat` and `open` assemble for node `n`, from `char_index = 126`. -/
def assemblePath (nodes : List FsNode) (n : Nat) : Except PathError String := do
  let (root, buf, ci) ← assembleLoop nodes n emptyPath 126
  assembleFinish root buf ci

/-- The path `finddir` assembles for the child `name` of node `d`: the name and a `'/'` are
written first, with no check, then the loop runs from `d`. -/
def finddirPath (nodes : List FsNode) (d : Nat) (name : String) : Except PathError String :=
  match writeAt emptyPath (126 - name.length) name.data with
  | none => .error .outOfBounds
  | some buf =>
    match writeAt buf (126 - name.length - 1) ['/'] with
    | none => .error .outOfBounds
    | some buf => do
      let (root, buf, ci) ← assembleLoop nodes d buf (126 - name.length - 1)
      assembleFinish root buf ci

/-! ## (3) The operations -/

section Operations

/- `FF_VOLUMES`, the number of volume slots; `ffconf.h` is not in `src/`. -/
variable (volumes : Nat)

/-- The lowest volume `v < FF_VOLUMES` whose slot is `NULL`. -/
def lowestFree (slots : List (Option Nat)) : Option Nat :=
  (List.range volumes).find? fun v => slots[v]? = some none

/-- `sprintf(path, 8, "%d:", volume)`, the drive `f_mount` mounts: the format produces the decimal
of the volume and `':'`. -/
def drivePath (v : Nat) : String := sprintf 8 (Nat.repr v ++ ":")

/-- **`mount`** of the block device `source` on the directory `target`, both as `fs_get_node`
resolved them; `fMount` is whether `f_mount` succeeds on a drive. Returns the state, the target
node and the result. On failure the slot taken is set back to `NULL` and the new node freed. -/
def mount (s : FatState) (source target : Option VfsNode) (fMount : String → Bool) :
    FatState × Option VfsNode × Bool :=
  match source with
  | none => (s, target, false)
  | some node =>
    if node.nodeType = FT_BLOCK_DEVICE then
      match target with
      | none => (s, none, false)
      | some t =>
        if t.nodeType = FT_DIRECTORY then
          match lowestFree volumes s.mountedBlockDevices with
          | none => (s, target, false)
          | some v =>
            let slots := s.mountedBlockDevices.set v (some node.id)
            if fMount (drivePath v) then
              (⟨s.nodes ++ [⟨t.name, FT_DIRECTORY, t.parent, some node.id, v, [], 0⟩], slots⟩,
                some { t with nodeType := t.nodeType ||| FT_MOUNT_POINT,
                              mountPoint := some s.nodes.length }, true)
            else (⟨s.nodes, slots.set v none⟩, target, false)
        else (s, target, false)
    else (s, target, false)

end Operations

/-- **`checkMount`**: whether the source, as `fs_get_node` resolved it, is a block device and the
target a directory. -/
def checkMount (source target : Option VfsNode) : Bool :=
  match source with
  | none => false
  | some node =>
    if node.nodeType = FT_BLOCK_DEVICE then
      match target with
      | none => false
      | some targetNode => if targetNode.nodeType = FT_DIRECTORY then true else false
    else false

/-- The name of the node at position `c`, if there is one. -/
def nameOf (nodes : List FsNode) (c : Nat) : Option String := (nodes[c]?).map FsNode.name

/-- **`finddir`** of `name` in node `d`: the first child of that name, or else, when `f_stat`
succeeds on the assembled path, a new child appended to the child chain of `d`. `fStat` is what
`f_stat` reports for a path. -/
def finddir (s : FatState) (d : Nat) (name : String) (fStat : String → Option FileInfo) :
    FatState × Option Nat :=
  match s.nodes[d]? with
  | none => (s, none)
  | some dn =>
    match dn.children.find? (fun c => nameOf s.nodes c = some name) with
    | some c => (s, some c)
    | none =>
      match finddirPath s.nodes d name with
      | .error _ => (s, none)
      | .ok path =>
        match fStat path with
        | none => (s, none)
        | some info =>
          (⟨(s.nodes.modify (fun n => { n with children := n.children ++ [s.nodes.length] }) d) ++
              [⟨name, if info.isDir then FT_DIRECTORY else FT_FILE, some d, none, 0, [],
                info.fsize⟩], s.mountedBlockDevices⟩, some s.nodes.length)

/-- **`stat`** of node `n`: `f_stat` on its path sets its type and length and returns `1`; `-1`
when `f_stat` fails, and `NULL`, that is `0`, when the path does not fit. -/
def stat (s : FatState) (n : Nat) (fStat : String → Option FileInfo) : FatState × Int :=
  match assemblePath s.nodes n with
  | .error _ => (s, 0)
  | .ok path =>
    match fStat path with
    | none => (s, -1)
    | some info =>
      (⟨s.nodes.modify (fun nd => { nd with
          nodeType := if info.isDir then FT_DIRECTORY else FT_FILE, length := info.fsize }) n,
        s.mountedBlockDevices⟩, 1)

/-- A call `readdir` makes into the FAT library. -/
inductive DirCall where
  | opendir (path : String)
  | readdir
  | closedir
  deriving DecidableEq, Repr

/-- The `for (i = 0; i <= index; ++i)` loop of `readdir` at iteration `i`, `k` iterations left,
`fileInfo` the entry read last: `f_readdir` delivers `read i` into the cleared `FILINFO`; an empty
name closes the directory and returns `NULL`. After the last iteration, the entry read last. -/
def readdirLoop (read : Nat → Dirent) (i : Nat) (fileInfo : Dirent) :
    Nat → Option Dirent × List DirCall
  | 0 => (some fileInfo, [])
  | k + 1 =>
    if (read i).fname.length ≤ 0 then (none, [.readdir, .closedir])
    else
      let r := readdirLoop read (i + 1) (read i) k
      (r.1, .readdir :: r.2)

/-- **`readdir`** of node `n` at `index`, with the library calls it makes: `f_opendir` on the
path assembled for `n` (`fOpendir`, the entries successive `f_readdir` calls deliver, then empty
names), the loop over entries `0 … index`, and the `filesystem_dirent` of entry `index`, a
directory when it has the `AM_DIR` attribute and a file otherwise, after `f_closedir`. -/
def readdir (s : FatState) (n : Nat) (index : Nat) (fOpendir : String → Option (List Dirent)) :
    Option FsDirent × List DirCall :=
  match assemblePath s.nodes n with
  | .error _ => (none, [])
  | .ok path =>
    match fOpendir path with
    | none => (none, [.opendir path])
    | some entries =>
      let r := readdirLoop (fun i => (entries[i]?).getD ⟨"", false⟩) 0 ⟨"", false⟩ (index + 1)
      match r.1 with
      | none => (none, .opendir path :: r.2)
      | some e =>
        (some ⟨e.fname, if e.isDir then FT_DIRECTORY else FT_FILE⟩,
          .opendir path :: r.2 ++ [.closedir])

/-- `SEEK_SET`. -/
def SEEK_SET : Int := 0

/-- `SEEK_CUR`. -/
def SEEK_CUR : Int := 1

/-- `SEEK_END`. -/
def SEEK_END : Int := 2

/-- The fields of an open FatFs `FIL` that `lseek` reads: `fptr` (`f_tell`) and `obj.objsize`
(`f_size`), both `FSIZE_t`. -/
structure Fil where
  fptr : Nat
  fsize : Nat
  deriving DecidableEq, Repr

/-- A `File` of the provider: `private_data`, the open `FIL` (`NULL` when `open` failed), and
`offset`. -/
structure File where
  privateData : Option Fil
  offset : Int
  deriving DecidableEq, Repr

/-- An integer converted to the 32-bit unsigned `FSIZE_t` `f_lseek` takes: modulo `2^32`. -/
def toFsize (x : Int) : Nat := (x % 2 ^ 32).toNat

/-- A 32-bit unsigned value read as the `int32_t` `lseek` returns. -/
def toInt32 (x : Nat) : Int := if x % 2 ^ 32 < 2 ^ 31 then x % 2 ^ 32 else x % 2 ^ 32 - 2 ^ 32

/-- The end of `lseek` once `f_lseek` has updated the `FIL` to `r.1` and answered `FR_OK` or not
(`r.2`): `file->offset = f->fptr`, returned as an `int32_t`, or `-1`. -/
def lseekResult (file : File) (r : Fil × Bool) : File × Int :=
  if r.2 then (⟨some r.1, toInt32 r.1.fptr⟩, toInt32 r.1.fptr)
  else ({ file with privateData := some r.1 }, -1)

/-- **`lseek`** of an open file by the `int32_t` `offset` from `whence`; `fLseek` is `f_lseek`,
which moves the `FIL` to an `FSIZE_t` position and answers `FR_OK` or not. The target
`offset`, `f_tell(f) + offset` or `f_size(f) + offset` is converted to `FSIZE_t`. -/
def lseek (file : File) (offset whence : Int) (fLseek : Fil → Nat → Fil × Bool) : File × Int :=
  match file.privateData with
  | none => (file, -1)
  | some f =>
    if whence = SEEK_SET then lseekResult file (fLseek f (toFsize offset))
    else if whence = SEEK_CUR then lseekResult file (fLseek f (toFsize (f.fptr + offset)))
    else if whence = SEEK_END then lseekResult file (fLseek f (toFsize (f.fsize + offset)))
    else (file, -1)

/-- The body `read` and `write` share: `f_read` or `f_write` (`fIo`) moves the `FIL` by up to
`size` bytes and answers `FR_OK` or not, with the count moved; `file->offset = f->fptr` whatever
it answers; the count, as an `int32_t`, or `-1`. The bytes of `buffer` are not modelled. -/
def transfer (file : File) (size : Nat) (fIo : Fil → Nat → Fil × Bool × Nat) : File × Int :=
  match file.privateData with
  | none => (file, -1)
  | some f =>
    let r := fIo f size
    (⟨some r.1, toInt32 r.1.fptr⟩, if r.2.1 then toInt32 r.2.2 else -1)

/-- **`read`** of `size` bytes from an open file with `f_read` (`fRead`). -/
def read (file : File) (size : Nat) (fRead : Fil → Nat → Fil × Bool × Nat) : File × Int :=
  transfer file size fRead

/-- **`write`** of `size` bytes to an open file with `f_write` (`fWrite`). -/
def write (file : File) (size : Nat) (fWrite : Fil → Nat → Fil × Bool × Nat) : File × Int :=
  transfer file size fWrite

/-- The block device `disk_read`, `disk_write` and `disk_ioctl` call for drive `pdrv`: its slot in
`g_mounted_block_devices`; `NULL` makes them return an error. -/
def mountedDevice (s : FatState) (pdrv : Nat) : Option Nat :=
  (s.mountedBlockDevices[pdrv]?).getD none

/-- `disk_read`: the device whose `read_block` it calls. -/
def diskRead (s : FatState) (pdrv : Nat) : Option Nat := mountedDevice s pdrv

/-- `disk_write`: the device whose `write_block` it calls. -/
def diskWrite (s : FatState) (pdrv : Nat) : Option Nat := mountedDevice s pdrv

/-- `disk_ioctl`: the device it opens for `GET_SECTOR_COUNT` and `GET_BLOCK_SIZE`. -/
def diskIoctl (s : FatState) (pdrv : Nat) : Option Nat := mountedDevice s pdrv

/-! ## (4) Open files and their `FIL`s

`open` allocates the `FIL` with `kmalloc` and stores the pointer in `private_data`; `close`
frees it. At this level a `File` holds a pointer, a position in the list of every `FIL` allocated
(as nodes are in `Systemfs.Basic`), and `kfree` logs the position. -/

/-- Modelled from the spec: the access flag `O_RDONLY` (`fcntl.h` is not in `src/`). -/
def O_RDONLY : Nat := 0

/-- Modelled from the spec: the access flag `O_WRONLY`. -/
def O_WRONLY : Nat := 1

/-- Modelled from the spec: the access flag `O_RDWR`. -/
def O_RDWR : Nat := 2

/-- Modelled from the spec: the FatFs mode bit `FA_READ` (`ff.h` is not in `src/`). -/
def FA_READ : Nat := 1

/-- Modelled from the spec: the FatFs mode bit `FA_WRITE`. -/
def FA_WRITE : Nat := 2

/-- The FatFs mode `open` asks for: `switch (flags)` over the three access flags exactly, and
`FA_READ` for any other value. -/
def fatfsMode (flags : Nat) : Nat :=
  if flags = O_RDONLY then FA_READ
  else if flags = O_WRONLY then FA_WRITE
  else if flags = O_RDWR then FA_READ ||| FA_WRITE
  else FA_READ

/-- A `File` as the VFS passes it to the provider: its `node`, `private_data` as a pointer to a
`FIL` (`NULL` is `none`) and `offset`. -/
structure FileRef where
  node : Nat
  privateData : Option Nat
  offset : Int
  deriving DecidableEq, Repr

/-- Every `FIL` `open` allocated, by position, and the positions passed to `kfree`. -/
structure FilHeap where
  fils : List Fil
  freed : List Nat
  deriving DecidableEq, Repr

/-- **`open`** of a file on the overlay node `file.node`. A directory opens at once. Otherwise,
once the path assembles, a `FIL` is allocated and `f_open` (`fOpen`: the `FIL` it initialises and
whether it answers `FR_OK`) is called on it with the mode `flags` select; on `FR_OK` the file
takes the `FIL` and its `fptr` as offset. When `f_open` fails, `FALSE` is returned and the `FIL`
is not freed. -/
def «open» (nodes : List FsNode) (heap : FilHeap) (file : FileRef) (flags : Nat)
    (fOpen : String → Nat → Fil × Bool) : FilHeap × FileRef × Bool :=
  match nodes[file.node]? with
  | none => (heap, file, false)
  | some node =>
    if node.nodeType = FT_DIRECTORY then (heap, file, true)
    else
      match assemblePath nodes file.node with
      | .error _ => (heap, file, false)
      | .ok path =>
        let r := fOpen path (fatfsMode flags)
        let f := heap.fils.length
        if r.2 then
          (⟨heap.fils ++ [r.1], heap.freed⟩,
            { file with offset := toInt32 r.1.fptr, privateData := some f }, true)
        else (⟨heap.fils ++ [r.1], heap.freed⟩, file, false)

/-- **`close`**: `f_close` and `kfree` of the file's `FIL`, and `private_data = NULL`; nothing for a
file with no `FIL`. What `f_close` writes into the `FIL` it is about to free is not modelled. -/
def close (heap : FilHeap) (file : FileRef) : FilHeap × FileRef :=
  match file.privateData with
  | none => (heap, file)
  | some f => (⟨heap.fils, heap.freed ++ [f]⟩, { file with privateData := none })

/-- The `File` `read`, `write` and `lseek` see: the `FIL` read through the pointer. -/
def FilHeap.view (heap : FilHeap) (file : FileRef) : File :=
  ⟨file.privateData.bind fun f => heap.fils[f]?, file.offset⟩

/-- A call of `read`, `write` or `lseek` (`op`) through the pointer: the `FIL` it leaves is stored
back at its position, and the file takes the offset it sets. -/
def FilHeap.call (heap : FilHeap) (file : FileRef) (op : File → File × Int) :
    FilHeap × FileRef × Int :=
  let r := op (heap.view file)
  let fils := match file.privateData, r.1.privateData with
    | some f, some fil => heap.fils.set f fil
    | _, _ => heap.fils
  (⟨fils, heap.freed⟩, { file with offset := r.1.offset }, r.2)

/-! ## (5) The provider as a transition system -/

/-- **One call** to the provider, with any arguments and any answers of the FAT library: `mount`,
`finddir` of a C string, and `stat`. `readdir` and `open` change no node, and `read`, `write`,
`lseek` and `close` act only on the open file and its `FIL` (`Files`). -/
inductive FatStep (volumes : Nat) : FatState → FatState → Prop
  | mount (s : FatState) (source target : Option VfsNode) (fMount : String → Bool) :
      FatStep volumes s (mount volumes s source target fMount).1
  | finddir (s : FatState) (d : Nat) (name : String) (fStat : String → Option FileInfo) :
      nul ∉ name.data → FatStep volumes s (finddir s d name fStat).1
  | stat (s : FatState) (n : Nat) (fStat : String → Option FileInfo) :
      FatStep volumes s (stat s n fStat).1

/-- The states reachable from `fatfs_initialize`. -/
inductive FatReachable (volumes : Nat) : FatState → Prop
  | init : FatReachable volumes (FatState.init volumes)
  | step {s s' : FatState} : FatReachable volumes s → FatStep volumes s s' →
      FatReachable volumes s'

end Asterisk.Fat
