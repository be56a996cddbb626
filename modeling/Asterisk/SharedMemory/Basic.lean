import Mathlib.Data.List.Basic

/-! # The shared-memory provider of `sharedmemory.c`

A shared-memory object is a named character device with a list of physical page frames, a list of
mapping records `(process, v_address, page_count)` and an unlink mark. The objects live in
`g_shm_list`; following `LinkedList.Run`, the kernel lists are modelled by Lean lists, an object
by its position in `g_shm_list` (the pointer the C code passes around), and the physical memory
manager by two logs: the frames `vmm_acquire_page_frame_4k` returned and the frames passed to
`vmm_release_page_frame_4k`, in order.

* **`sharedmemoryCreate`, `sharedmemoryFtruncate`, `sharedmemoryMmap`, `sharedmemoryUnlink`,
  `sharedmemoryUnmapIfExists`, `sharedmemoryUnmapForProcessAll`, `sharedmemoryDestroyByName`** —
  the C functions; what the external collaborators return (the frames of `vmm_acquire_page_frame_4k`,
  the address of `vmm_map_memory`) is an argument.
* **`ShmStep`, `ShmReachable`** — the provider's operations as a transition system from the empty
  `g_shm_list`. -/

namespace Asterisk.Shm

/-! ## (1) State -/

/-- A `MapInfo` record: `process` mapped the object at `vAddress`, over `pageCount` pages. -/
structure MapInfo where
  process : Nat
  vAddress : Nat
  pageCount : Nat
  deriving DecidableEq, Repr

/-- A `SharedMemory` object with the fields of its node it uses (`node->name`,
`node->length`). -/
structure SharedMemory where
  name : String
  length : Nat
  physicalAddressList : List Nat
  mmappedList : List MapInfo
  markedUnlink : Bool
  deriving DecidableEq, Repr

/-- The provider's state: `g_shm_list` and the logs of the physical memory manager. -/
structure ShmState where
  shmList : List SharedMemory
  acquired : List Nat
  released : List Nat
  deriving DecidableEq, Repr

/-- The state after `sharedmemory_initialize`: no object, no frame acquired or released. -/
def ShmState.init : ShmState := ⟨[], [], []⟩

/-- Replace the object at position `i` by `f` of it. -/
def ShmState.modifyObj (s : ShmState) (i : Nat) (f : SharedMemory → SharedMemory) : ShmState :=
  { s with shmList := s.shmList.modify f i }

/-- Modelled from the spec: `PAGE_COUNT(length)`, the number of 4 KiB pages holding `length`
bytes, `ceil(length / PAGE_SIZE)`. -/
def pageCount (length : Nat) : Nat := (length + 4095) / 4096

/-! ## (2) The functions of `sharedmemory.c` -/

/-- `sharedmemory_get_node` (and `sharedmemory_find`): the first object named `name`. -/
def sharedmemoryGetNode (s : ShmState) (name : String) : Option SharedMemory :=
  s.shmList.find? fun o => o.name = name

/-- `sharedmemory_create`: `NULL` when the name is taken, else a fresh object appended to
`g_shm_list`. -/
def sharedmemoryCreate (s : ShmState) (name : String) : ShmState × Bool :=
  if (sharedmemoryGetNode s name).isSome then (s, false)
  else ({ s with shmList := s.shmList ++ [⟨name, 0, [], [], false⟩] }, true)

/-- `sharedmemory_destroy`: the object at position `i` leaves `g_shm_list`; its lists are freed,
its frames are not released. -/
def sharedmemoryDestroy (s : ShmState) (i : Nat) : ShmState :=
  { s with shmList := s.shmList.eraseIdx i }

/-- `sharedmemory_destroy_if_suitable`: an object marked for unlink with no mapping record has its
frames released and is destroyed. -/
def sharedmemoryDestroyIfSuitable (s : ShmState) (i : Nat) : ShmState :=
  match s.shmList[i]? with
  | some o =>
    if o.markedUnlink ∧ o.mmappedList.length = 0 then
      sharedmemoryDestroy { s with released := s.released ++ o.physicalAddressList } i
    else s
  | none => s

/-- `sharedmemory_unlink` of the object at position `i`. -/
def sharedmemoryUnlink (s : ShmState) (i : Nat) : ShmState :=
  sharedmemoryDestroyIfSuitable (s.modifyObj i fun o => { o with markedUnlink := true }) i

/-- `sharedmemory_ftruncate` of the object at position `i` to `length`; `frames` are the frames
the `page_count` calls of `vmm_acquire_page_frame_4k` return. -/
def sharedmemoryFtruncate (s : ShmState) (i : Nat) (length : Int) (frames : List Nat) :
    ShmState × Int :=
  if length ≤ 0 then (s, -1)
  else match s.shmList[i]? with
    | none => (s, -1)
    | some o =>
      if o.length ≠ 0 then (s, -1)
      else
        ({ s.modifyObj i (fun o => { o with
            physicalAddressList := o.physicalAddressList ++ frames, length := length.toNat })
            with acquired := s.acquired ++ frames }, 0)

/-- `sharedmemory_mmap` of the object at position `i` through a `File` whose thread belongs to
`owner`, called by a thread of `current`; `vmmMapMemory` is what `vmm_map_memory` returns for a
process and an array of frames (`none` is `NULL`). -/
def sharedmemoryMmap (s : ShmState) (i : Nat) (owner current : Nat)
    (vmmMapMemory : Nat → List Nat → Option Nat) : ShmState × Option Nat :=
  match s.shmList[i]? with
  | none => (s, none)
  | some o =>
    let count := o.physicalAddressList.length
    if 0 < count then
      let result := vmmMapMemory owner o.physicalAddressList
      (s.modifyObj i fun o => { o with
        mmappedList := o.mmappedList ++ [⟨current, result.getD 0, count⟩] }, result)
    else (s, none)

/-- Whether a mapping record is `process`'s at `address`. -/
def MapInfo.isAt (process address : Nat) (r : MapInfo) : Bool :=
  r.process = process ∧ r.vAddress = address

/-- The scan of `sharedmemory_unmap_if_exists`: the position of the first object with a record of
`process` at `address`, and the first such record in it. -/
def findMapping (process address : Nat) : List SharedMemory → Option (Nat × MapInfo)
  | [] => none
  | o :: os =>
    match o.mmappedList.find? (MapInfo.isAt process address) with
    | some r => some (0, r)
    | none => (findMapping process address os).map fun (i, r) => (i + 1, r)

/-- `sharedmemory_unmap_if_exists`: remove the first record of `process` at `address`, then
destroy its object if suitable. -/
def sharedmemoryUnmapIfExists (s : ShmState) (process address : Nat) : ShmState × Bool :=
  match findMapping process address s.shmList with
  | some (i, r) =>
    (sharedmemoryDestroyIfSuitable
      (s.modifyObj i fun o => { o with mmappedList := o.mmappedList.erase r }) i, true)
  | none => (s, false)

/-- The addresses `sharedmemory_unmap_for_process_all` collects: those of `process`'s records, by
object and then by record. -/
def processAddresses (process : Nat) (l : List SharedMemory) : List Nat :=
  l.flatMap fun o => (o.mmappedList.filter fun r => r.process = process).map MapInfo.vAddress

/-- The loop of `sharedmemory_unmap_for_process_all` over the collected addresses, with the
result of each `sharedmemory_unmap_if_exists` call. -/
def unmapLoop (process : Nat) : ShmState → List Nat → ShmState × List Bool
  | s, [] => (s, [])
  | s, a :: as =>
    let r := sharedmemoryUnmapIfExists s process a
    let rest := unmapLoop process r.1 as
    (rest.1, r.2 :: rest.2)

/-- `sharedmemory_unmap_for_process_all`. -/
def sharedmemoryUnmapForProcessAll (s : ShmState) (process : Nat) : ShmState :=
  (unmapLoop process s (processAddresses process s.shmList)).1

/-- `sharedmemory_destroy_by_name`: destroy the first object named `name`. -/
def sharedmemoryDestroyByName (s : ShmState) (name : String) : ShmState × Bool :=
  match s.shmList.findIdx? fun o => o.name = name with
  | some i => (sharedmemoryDestroy s i, true)
  | none => (s, false)

/-! ## (3) The provider as a transition system -/

/-- **One operation of the provider**, with any name, position, length, process and address,
and any answer of `vmm_map_memory`; `vmm_acquire_page_frame_4k` hands `ftruncate` one frame per
page. `sharedmemory_destroy_by_name` is not among them: it bypasses the unlink protocol. -/
inductive ShmStep : ShmState → ShmState → Prop
  | create (s : ShmState) (name : String) : ShmStep s (sharedmemoryCreate s name).1
  | ftruncate (s : ShmState) (i : Nat) (length : Int) (frames : List Nat) :
      frames.length = pageCount length.toNat →
      ShmStep s (sharedmemoryFtruncate s i length frames).1
  | mmap (s : ShmState) (i owner current : Nat) (vmmMapMemory : Nat → List Nat → Option Nat) :
      ShmStep s (sharedmemoryMmap s i owner current vmmMapMemory).1
  | unlink (s : ShmState) (i : Nat) : ShmStep s (sharedmemoryUnlink s i)
  | unmapIfExists (s : ShmState) (process address : Nat) :
      ShmStep s (sharedmemoryUnmapIfExists s process address).1
  | unmapForProcessAll (s : ShmState) (process : Nat) :
      ShmStep s (sharedmemoryUnmapForProcessAll s process)

/-- The states reachable from `sharedmemory_initialize` by the operations of `ShmStep`. -/
inductive ShmReachable : ShmState → Prop
  | init : ShmReachable ShmState.init
  | step {s s' : ShmState} : ShmReachable s → ShmStep s s' → ShmReachable s'

end Asterisk.Shm
