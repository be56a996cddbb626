import Asterisk.SharedMemory.Invariant
import Asterisk.Vfs

/-! # The `/system/shm` directory of `sharedmemory.c`

`sharedmemory_initialize` installs the provider on `/system/shm` and overrides the directory's
`readdir` and `finddir`, so that `g_shm_list`, not the node's `first_child`, is the source of
truth. `sharedmemorydir_readdir` returns the `index`-th object of the list, `sharedmemorydir_finddir`,
`sharedmemory_get_node` and `sharedmemory_find` the first object with a given name: the same
`strcmp` scan, once for the node and once for the object.

* **`sharedmemorydirReaddir`** — the counting loop; `sharedmemorydirReaddir_eq` reads it as a
  position lookup.
* **`names_of_step`** — every operation keeps the objects it does not destroy in their order and
  appends the one it creates, so `g_shm_list` is in creation order.
* **`shm_directory_lists_objects`** — on every reachable state the listing is the live objects'
  names, each once, in creation order, then `NULL`, and each of the three lookups designates the
  unique object with the name looked up. -/

namespace Asterisk.Shm

/-! ## (1) The directory's functions -/

/-- The `filesystem_dirent` `sharedmemorydir_readdir` fills for an object: its node's `name` and
`node_type`, which `sharedmemory_create` sets to `FT_CHARACTER_DEVICE` and nothing changes. -/
def SharedMemory.dirent (o : SharedMemory) : FsDirent := ⟨o.name, FT_CHARACTER_DEVICE⟩

/-- The `list_foreach` loop of `sharedmemorydir_readdir`, at an object whose position is
`counter`: the dirent of the object at `counter = index`, `NULL` past the end. -/
def readdirLoop (index : Nat) : List SharedMemory → Nat → Option FsDirent
  | [], _ => none
  | p :: rest, counter =>
    if counter = index then some p.dirent else readdirLoop index rest (counter + 1)

/-- `sharedmemorydir_readdir` of `shm_root` at `index`. -/
def sharedmemorydirReaddir (s : ShmState) (index : Nat) : Option FsDirent :=
  readdirLoop index s.shmList 0

/-- `sharedmemorydir_finddir` of `shm_root`: the node of the first object named `name`, by the
scan of `sharedmemory_get_node`. -/
def sharedmemorydirFinddir (s : ShmState) (name : String) : Option SharedMemory :=
  sharedmemoryGetNode s name

/-- `sharedmemory_find`: the first object named `name`, by the scan of `sharedmemory_get_node`. -/
def sharedmemoryFind (s : ShmState) (name : String) : Option SharedMemory :=
  sharedmemoryGetNode s name

/-! ## (2) The listing and the lookups -/

/-- The loop from position `counter ≤ index` returns the object `index - counter` further on. -/
theorem readdirLoop_eq (index : Nat) : ∀ (l : List SharedMemory) (counter : Nat),
    counter ≤ index → readdirLoop index l counter = (l[index - counter]?).map SharedMemory.dirent
  | [], _, _ => rfl
  | p :: rest, counter, h => by
    rw [readdirLoop]
    split
    · next heq => simp [heq]
    · next hne =>
      rw [readdirLoop_eq index rest (counter + 1) (by omega),
        show index - counter = index - (counter + 1) + 1 by omega, List.getElem?_cons_succ]

/-- **`sharedmemorydir_readdir` is a position lookup** in `g_shm_list`. -/
theorem sharedmemorydirReaddir_eq (s : ShmState) (index : Nat) :
    sharedmemorydirReaddir s index = (s.shmList[index]?).map SharedMemory.dirent :=
  readdirLoop_eq index s.shmList 0 (Nat.zero_le _)

/-- The result `r` of a lookup of `x` designates the unique object named `x`: it is an object
exactly when that object is live and named `x`. -/
def Designates (s : ShmState) (x : String) (r : Option SharedMemory) : Prop :=
  ∀ o, r = some o ↔ o ∈ s.shmList ∧ o.name = x

/-- With distinct names, the scan of `sharedmemory_get_node` designates the object looked up. -/
theorem sharedmemoryGetNode_designates {s : ShmState}
    (h : (s.shmList.map SharedMemory.name).Nodup) (x : String) :
    Designates s x (sharedmemoryGetNode s x) := fun o => by
  constructor
  · intro ho
    exact ⟨List.mem_of_find?_eq_some ho, by simpa using List.find?_some ho⟩
  · rintro ⟨ho, rfl⟩
    obtain ⟨o', ho'⟩ : ∃ o', sharedmemoryGetNode s o.name = some o' :=
      Option.isSome_iff_exists.1 (List.find?_isSome.2 ⟨o, ho, by simp⟩)
    have hname : o'.name = o.name := by simpa using List.find?_some ho'
    rw [ho', List.inj_on_of_nodup_map h (List.mem_of_find?_eq_some ho') ho hname]

/-- A lookup that designates finds nothing exactly when no live object has the name. -/
theorem Designates.eq_none_iff {s : ShmState} {x : String} {r : Option SharedMemory}
    (h : Designates s x r) : r = none ↔ ∀ o ∈ s.shmList, o.name ≠ x := by
  rw [Option.eq_none_iff_forall_not_mem]
  exact forall_congr' fun o => by simpa using (h o).not

/-! ## (3) Creation order -/

section Names

variable {s : ShmState}

/-- Changing one object by a function that keeps names keeps the names of `g_shm_list`. -/
theorem names_modifyObj (i : Nat) {f : SharedMemory → SharedMemory}
    (hf : ∀ o, (f o).name = o.name) :
    (s.modifyObj i f).shmList.map SharedMemory.name = s.shmList.map SharedMemory.name := by
  show (s.shmList.modify f i).map _ = _
  cases hi : s.shmList[i]? with
  | none => rw [modify_of_getElem?_none f hi]
  | some o =>
    obtain ⟨pre, post, hl, rfl⟩ := exists_split_of_getElem? hi
    rw [hl, modify_append_cons]
    simp [hf]

theorem names_modifyObj_sublist (i : Nat) {f : SharedMemory → SharedMemory}
    (hf : ∀ o, (f o).name = o.name) :
    ((s.modifyObj i f).shmList.map SharedMemory.name).Sublist (s.shmList.map SharedMemory.name) := by
  simp [names_modifyObj i hf]

theorem names_destroyIfSuitable (i : Nat) :
    ((sharedmemoryDestroyIfSuitable s i).shmList.map SharedMemory.name).Sublist
      (s.shmList.map SharedMemory.name) := by
  unfold sharedmemoryDestroyIfSuitable
  split
  · split
    · exact (List.eraseIdx_sublist _ _).map _
    · exact List.Sublist.refl _
  · exact List.Sublist.refl _

/-- A change that keeps names followed by `sharedmemory_destroy_if_suitable`. -/
theorem names_modifyObj_destroyIfSuitable (i : Nat) {f : SharedMemory → SharedMemory}
    (hf : ∀ o, (f o).name = o.name) :
    ((sharedmemoryDestroyIfSuitable (s.modifyObj i f) i).shmList.map SharedMemory.name).Sublist
      (s.shmList.map SharedMemory.name) :=
  (names_destroyIfSuitable i).trans (names_modifyObj_sublist i hf)

theorem names_unmapIfExists (process address : Nat) :
    ((sharedmemoryUnmapIfExists s process address).1.shmList.map SharedMemory.name).Sublist
      (s.shmList.map SharedMemory.name) := by
  unfold sharedmemoryUnmapIfExists
  split
  · exact names_modifyObj_destroyIfSuitable _ fun _ => rfl
  · exact List.Sublist.refl _

theorem names_unmapLoop (process : Nat) :
    ∀ (s : ShmState) (as : List Nat),
      ((unmapLoop process s as).1.shmList.map SharedMemory.name).Sublist
        (s.shmList.map SharedMemory.name)
  | _, [] => List.Sublist.refl _
  | s, _ :: as => (names_unmapLoop process _ as).trans (names_unmapIfExists (s := s) _ _)

/-- **Step lemma for the order of `g_shm_list`**: an operation either keeps the names of the
objects it leaves in their order, or is a `sharedmemory_create` that appends one name. -/
theorem names_of_step {s' : ShmState} (hs : ShmStep s s') :
    (s'.shmList.map SharedMemory.name).Sublist (s.shmList.map SharedMemory.name) ∨
      ∃ x, s'.shmList.map SharedMemory.name = s.shmList.map SharedMemory.name ++ [x] := by
  cases hs with
  | create name =>
    unfold sharedmemoryCreate
    split
    · exact .inl (List.Sublist.refl _)
    · exact .inr ⟨name, by simp⟩
  | ftruncate i length frames _ =>
    refine .inl ?_
    unfold sharedmemoryFtruncate
    split
    · exact List.Sublist.refl _
    · split
      · exact List.Sublist.refl _
      · split
        · exact List.Sublist.refl _
        · exact names_modifyObj_sublist (s := s) i fun _ => rfl
  | mmap i owner current vmm =>
    refine .inl ?_
    unfold sharedmemoryMmap
    split
    · exact List.Sublist.refl _
    · dsimp only
      split
      · exact names_modifyObj_sublist (s := s) i fun _ => rfl
      · exact List.Sublist.refl _
  | unlink i => exact .inl (names_modifyObj_destroyIfSuitable i fun _ => rfl)
  | unmapIfExists process address => exact .inl (names_unmapIfExists process address)
  | unmapForProcessAll process => exact .inl (names_unmapLoop process s _)

end Names

/-! ## (4) The directory on every reachable state -/

/-- **The `/system/shm` directory lists and finds the live objects.** On every reachable state,
`sharedmemorydir_readdir` at `0, 1, …` returns the name and `FT_CHARACTER_DEVICE` of each object
of `g_shm_list` in list order and then `NULL` at every later index; the names are distinct; every
operation keeps the order of the objects it leaves and appends the one it creates (so list order
is creation order); and `sharedmemorydir_finddir`, `sharedmemory_get_node` and
`sharedmemory_find` of any name designate the unique live object with that name, and are `NULL`
exactly when there is none. -/
theorem shm_directory_lists_objects {s : ShmState} (hs : ShmReachable s) :
    (List.range (s.shmList.length + 1)).map (sharedmemorydirReaddir s) =
        s.shmList.map (fun o => some ⟨o.name, FT_CHARACTER_DEVICE⟩) ++ [none] ∧
      (∀ i, s.shmList.length ≤ i → sharedmemorydirReaddir s i = none) ∧
      (s.shmList.map SharedMemory.name).Nodup ∧
      (∀ s', ShmStep s s' →
        (s'.shmList.map SharedMemory.name).Sublist (s.shmList.map SharedMemory.name) ∨
          ∃ x, s'.shmList.map SharedMemory.name = s.shmList.map SharedMemory.name ++ [x]) ∧
      ∀ x, Designates s x (sharedmemorydirFinddir s x) ∧ Designates s x (sharedmemoryGetNode s x) ∧
        Designates s x (sharedmemoryFind s x) ∧
        (sharedmemoryGetNode s x = none ↔ ∀ o ∈ s.shmList, o.name ≠ x) := by
  have hnd := hs.inv.names_nodup
  have hget := sharedmemoryGetNode_designates hnd
  refine ⟨?_, fun i hi => ?_, hnd, fun _ => names_of_step, fun x =>
    ⟨hget x, hget x, hget x, (hget x).eq_none_iff⟩⟩
  · rw [List.range_succ, List.map_append, List.map_singleton, sharedmemorydirReaddir_eq,
      List.getElem?_eq_none le_rfl, Option.map_none']
    congr 1
    exact List.ext_getElem (by simp) fun i _ h => by
      simp only [List.length_map] at h
      simp [sharedmemorydirReaddir_eq, SharedMemory.dirent, List.getElem?_eq_getElem h]
  · rw [sharedmemorydirReaddir_eq, List.getElem?_eq_none hi, Option.map_none']

/-- Two objects created one after the other are listed in that order. -/
theorem shm_directory_lists_objects_ab :
    ShmReachable (sharedmemoryCreate (sharedmemoryCreate ShmState.init "a").1 "b").1 ∧
      (List.range 3).map (sharedmemorydirReaddir
          (sharedmemoryCreate (sharedmemoryCreate ShmState.init "a").1 "b").1) =
        [some ⟨"a", FT_CHARACTER_DEVICE⟩, some ⟨"b", FT_CHARACTER_DEVICE⟩, none] :=
  have hs : ShmReachable (sharedmemoryCreate (sharedmemoryCreate ShmState.init "a").1 "b").1 :=
    .step (.step .init (.create _ "a")) (.create _ "b")
  ⟨hs, (shm_directory_lists_objects hs).1⟩

end Asterisk.Shm
