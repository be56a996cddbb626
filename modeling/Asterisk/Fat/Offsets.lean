import Asterisk.Fat.Files

/-! # Offsets and the positions of their `FIL`s

`read` and `write` store `f->fptr` into `file->offset` before they look at what `f_read` or
`f_write` answered; `lseek` stores it only when `f_lseek` answers `FR_OK`, and the `FIL` it moved
stays moved either way. A file *mirrors* its `FIL` when its offset is the `FIL`'s position read as
an `int32_t`, which is what `lseek` returns.

* **`FilHeap.view_call`** — after a call through the pointer the file sees what the call returned.
* **`FilesInv.mirrored_step`** — from a reachable state in which every file mirrors its `FIL`, every
  call keeps it so, but an `lseek` that answered `-1`.
* **`offsets_mirror_fils`** — that, with `read` and `write` making a file mirror its `FIL` from any
  state, and a reachable run in which an `f_lseek` that fails after moving the `FIL` leaves the
  file's offset behind. -/

namespace Asterisk.Fat

/-! ## (1) Mirroring -/

/-- Whether a file's offset is the position of its `FIL`, as `lseek` would return it. A file with
no `FIL` has nothing to mirror. -/
def File.mirrors (file : File) : Bool :=
  match file.privateData with
  | none => true
  | some fil => file.offset == toInt32 fil.fptr

/-- Whether every file open on the provider mirrors the `FIL` it points to. -/
def FilesState.mirrored (st : FilesState) : Bool :=
  st.files.all fun file => (st.heap.view file).mirrors

theorem mirrors_of_privateData_none {file : File} (h : file.privateData = none) :
    file.mirrors = true := by
  simp [File.mirrors, h]

/-- Every file mirrors its `FIL` when every view does. -/
theorem mirrored_iff {st : FilesState} :
    st.mirrored = true ↔ ∀ j v, st.viewOf j = some v → v.mirrors = true := by
  unfold FilesState.mirrored FilesState.viewOf
  rw [List.all_eq_true]
  constructor
  · intro h j v hv
    obtain ⟨file, hf, rfl⟩ := Option.map_eq_some'.1 hv
    exact h file (List.getElem?_mem hf)
  · intro h file hfile
    obtain ⟨j, hj⟩ := List.mem_iff_getElem?.1 hfile
    exact h j _ (by rw [hj]; rfl)

/-! ## (2) What `read`, `write` and `lseek` leave -/

/-- `read` and `write` keep a file with a `FIL` or without one. -/
theorem transfer_isSome (file : File) (size : Nat) (fIo : Fil → Nat → Fil × Bool × Nat) :
    (transfer file size fIo).1.privateData.isSome = file.privateData.isSome := by
  unfold transfer
  split <;> simp_all

/-- **`read` and `write` mirror the `FIL`**, whatever `f_read` or `f_write` answers. -/
theorem transfer_mirrors (file : File) (size : Nat) (fIo : Fil → Nat → Fil × Bool × Nat) :
    (transfer file size fIo).1.mirrors = true := by
  unfold transfer
  split
  · exact mirrors_of_privateData_none ‹_›
  · simp [File.mirrors]

theorem lseekResult_isSome (file : File) (r : Fil × Bool) :
    (lseekResult file r).1.privateData.isSome = true := by
  unfold lseekResult
  split <;> rfl

/-- `lseek` keeps a file with a `FIL` or without one. -/
theorem lseek_isSome (file : File) (offset whence : Int) (fLseek : Fil → Nat → Fil × Bool) :
    (lseek file offset whence fLseek).1.privateData.isSome = file.privateData.isSome := by
  unfold lseek
  split
  · rfl
  · rename_i h
    split_ifs <;> simp [h, lseekResult_isSome]

/-- An `lseek` that does not answer `-1` mirrors the `FIL`: `f_lseek` answered `FR_OK`. -/
theorem lseek_mirrors {file : File} {offset whence : Int} {fLseek : Fil → Nat → Fil × Bool}
    (h : (lseek file offset whence fLseek).2 ≠ -1) : (lseek file offset whence fLseek).1.mirrors = true := by
  have hres : ∀ r : Fil × Bool, (lseekResult file r).2 ≠ -1 → (lseekResult file r).1.mirrors = true := by
    intro r hr
    unfold lseekResult at hr ⊢
    split_ifs at hr ⊢
    · simp [File.mirrors]
    · exact absurd rfl hr
  obtain ⟨_ | f, off⟩ := file
  · exact absurd rfl h
  · unfold lseek at h ⊢
    dsimp only at h ⊢
    split_ifs at h ⊢ <;> first | exact hres _ h | exact absurd rfl h

/-! ## (3) Views after a call -/

/-- **A call through the pointer leaves the file seeing what the call returned**, provided the
call keeps a `FIL` where it found one: the `FIL` is stored back where the pointer points. -/
theorem FilHeap.view_call (heap : FilHeap) (file : FileRef) (op : File → File × Int)
    (hop : (op (heap.view file)).1.privateData.isSome = (heap.view file).privateData.isSome) :
    (heap.call file op).1.view (heap.call file op).2.1 = (op (heap.view file)).1 := by
  rcases hout : (op (heap.view file)).1 with ⟨pd, offset⟩
  rw [hout] at hop
  unfold FilHeap.call FilHeap.view at *
  dsimp only at hop ⊢
  rw [hout]
  cases hf : file.privateData with
  | none =>
    rw [hf] at hop
    cases pd
    · rfl
    · simp at hop
  | some f =>
    rw [hf] at hop
    cases pd with
    | none => cases hfil : heap.fils[f]? <;> simp [hfil] at hop ⊢
    | some fil =>
      have hlt : f < heap.fils.length := by
        by_contra hge
        simp [List.getElem?_eq_none (Nat.le_of_not_lt hge)] at hop
      simp [List.getElem?_set_self hlt]

section Views

variable {st : FilesState} {i : Nat}

/-- The view of the file a call acts on is what the call returned. -/
theorem callOn_viewOf_self (op : File → File × Int)
    (hop : ∀ v, (op v).1.privateData.isSome = v.privateData.isSome) :
    (st.callOn i op).viewOf i = (st.viewOf i).map fun v => (op v).1 := by
  unfold FilesState.callOn FilesState.onFile FilesState.viewOf
  cases hi : st.files[i]? with
  | none => simp [hi]
  | some file =>
    dsimp only
    rw [List.getElem?_set_self (List.getElem?_eq_some_iff.1 hi).1, Option.map_some',
      Option.map_some']
    exact congrArg some (FilHeap.view_call st.heap file op (hop _))

/-- After `close` the file it closed holds no `FIL`, or it held none and is as it was. -/
theorem onFile_close_viewOf_self :
    (st.onFile i close).viewOf i = (st.viewOf i).map fun v =>
      if v.privateData.isSome then { v with privateData := none } else v := by
  unfold FilesState.onFile FilesState.viewOf
  cases hi : st.files[i]? with
  | none => simp [hi]
  | some file =>
    dsimp only
    rw [List.getElem?_set_self (List.getElem?_eq_some_iff.1 hi).1, Option.map_some',
      Option.map_some']
    unfold close FilHeap.view
    cases hf : file.privateData with
    | none => simp [hf]
    | some f => cases hfil : st.heap.fils[f]? <;> simp [hfil]

/-- A call that reads and writes through the `FIL` leaves the file it acts on mirroring it. -/
theorem viewOf_callOn_transfer (size : Nat) (fIo : Fil → Nat → Fil × Bool × Nat) {v : File}
    (hv : (st.callOn i (transfer · size fIo)).viewOf i = some v) : v.mirrors = true := by
  rw [callOn_viewOf_self _ (transfer_isSome · size fIo)] at hv
  obtain ⟨w, -, rfl⟩ := Option.map_eq_some'.1 hv
  exact transfer_mirrors w size fIo

end Views

/-! ## (4) Along the calls -/

section Mirrored

variable {k : Nat} {st : FilesState}

/-- Every file mirrors its `FIL` after a call on file `i` that leaves what every other file sees,
when every file did before and file `i` does after. -/
theorem mirrored_of_views {st' : FilesState} {i : Nat} (hm : st.mirrored = true)
    (hother : ∀ j, i ≠ j → st'.viewOf j = st.viewOf j)
    (hself : ∀ v, st'.viewOf i = some v → v.mirrors = true) : st'.mirrored = true := by
  rw [mirrored_iff] at hm ⊢
  intro j v hv
  by_cases hij : i = j
  · subst hij
    exact hself v hv
  · rw [hother j hij] at hv
    exact hm j v hv

/-- A call through the pointer that keeps a `FIL` where it found one and leaves the file it acts
on mirroring its `FIL` keeps every file so: no other file shares the `FIL`. -/
theorem FilesInv.mirrored_callOn (h : FilesInv k st) (hm : st.mirrored = true) {i : Nat}
    {op : File → File × Int} (hop : ∀ v, (op v).1.privateData.isSome = v.privateData.isSome)
    (hout : ∀ v, st.viewOf i = some v → (op v).1.mirrors = true) :
    (st.callOn i op).mirrored = true :=
  mirrored_of_views hm (fun _ hij => h.callOn_viewOf hij op) fun v hv => by
    rw [callOn_viewOf_self op hop] at hv
    obtain ⟨w, hw, rfl⟩ := Option.map_eq_some'.1 hv
    exact hout w hw

/-- `close` keeps every file mirroring its `FIL`. -/
theorem mirrored_close (hm : st.mirrored = true) (i : Nat) :
    (st.onFile i close).mirrored = true :=
  mirrored_of_views hm (fun _ hij => onFile_close_viewOf hij) fun v hv => by
    rw [onFile_close_viewOf_self] at hv
    obtain ⟨w, hw, rfl⟩ := Option.map_eq_some'.1 hv
    split
    · exact mirrors_of_privateData_none rfl
    · exact mirrored_iff.1 hm i w hw

/-- The file `open` returns mirrors the `FIL` it took, if it took one. -/
theorem open_view_mirrors (nodes : List FsNode) (heap : FilHeap) (n flags : Nat)
    (fOpen : String → Nat → Fil × Bool) :
    ((«open» nodes heap ⟨n, none, 0⟩ flags fOpen).1.view
      («open» nodes heap ⟨n, none, 0⟩ flags fOpen).2.1).mirrors = true := by
  rcases open_cases nodes heap ⟨n, none, 0⟩ flags fOpen with ⟨-, h1, h2⟩ | ⟨path, -, h1, h2⟩
  · rw [h1, h2]
    rfl
  · rw [h1, h2]
    split
    · simp [FilHeap.view, File.mirrors]
    · rfl

/-- Opening a file keeps every file mirroring its `FIL`, the new one included. -/
theorem FilesInv.mirrored_fsOpen (h : FilesInv k st) (hm : st.mirrored = true) (n flags : Nat)
    (fOpen : String → Nat → Fil × Bool) : (Fat.fsOpen st n flags fOpen).mirrored = true := by
  rw [mirrored_iff] at hm ⊢
  intro j v hv
  rcases Nat.lt_or_ge j st.files.length with hj | hj
  · rw [h.fsOpen_viewOf hj] at hv
    exact hm j v hv
  · obtain ⟨file, hf, rfl⟩ := Option.map_eq_some'.1 hv
    change (st.files ++ [_])[j]? = some file at hf
    rw [List.getElem?_append_right hj] at hf
    rw [List.mem_singleton.1 (List.getElem?_mem hf)]
    exact open_view_mirrors _ _ _ _ _

/-- **Step lemma**: from a reachable state in which every file mirrors its `FIL`, every call keeps
it so, but an `lseek` that answered `-1`. -/
theorem FilesInv.mirrored_step (h : FilesInv k st) (hm : st.mirrored = true) {volumes d : Nat}
    {st' : FilesState} (hs : FilesStep volumes st d st') :
    st'.mirrored = true ∨ ∃ i file offset whence fLseek, st.files[i]? = some file ∧
      st' = st.callOn i (lseek · offset whence fLseek) ∧
      (lseek (st.heap.view file) offset whence fLseek).2 = -1 := by
  cases hs with
  | tree fs' _ => exact .inl hm
  | «open» n flags fOpen => exact .inl (h.mirrored_fsOpen hm n flags fOpen)
  | read i size fRead =>
    exact .inl (h.mirrored_callOn hm (transfer_isSome · size fRead)
      fun v _ => transfer_mirrors v size fRead)
  | write i size fWrite =>
    exact .inl (h.mirrored_callOn hm (transfer_isSome · size fWrite)
      fun v _ => transfer_mirrors v size fWrite)
  | lseek i offset whence fLseek =>
    cases hi : st.files[i]? with
    | none => exact .inl (by simpa [FilesState.callOn, FilesState.onFile, hi] using hm)
    | some file =>
      by_cases hres : (lseek (st.heap.view file) offset whence fLseek).2 = -1
      · exact .inr ⟨i, file, offset, whence, fLseek, hi, rfl, hres⟩
      · refine .inl (h.mirrored_callOn hm (lseek_isSome · offset whence fLseek) fun v hv => ?_)
        obtain rfl : st.heap.view file = v := by
          simpa [FilesState.viewOf, hi] using hv
        exact lseek_mirrors hres
  | close i => exact .inl (mirrored_close hm i)

end Mirrored

/-! ## (5) Over every run -/

/-- **A file's offset mirrors its `FIL`, but after an `lseek` that failed.** From every reachable
state in which each open file's offset is the position of its `FIL`, every call keeps it so
(`mount`, `finddir`, `stat`, `open`, `read`, `write`, `close`, and an `lseek` whose `f_lseek`
answered `FR_OK`), whatever the FAT library answers: only an `lseek` that answered `-1` can leave
an offset behind. `read` and `write` set the offset from the `FIL` whatever `f_read` or `f_write`
answered, so after either the file mirrors its `FIL` from any state. And the exception happens: on a
file `a` opened on a mounted volume, an `f_lseek` to `3` that fails after moving the `FIL` leaves
the offset at `0`. -/
theorem offsets_mirror_fils (volumes : Nat) :
    (∀ k st, FilesReachable volumes k st → st.mirrored = true → ∀ d st', FilesStep volumes st d st' →
      st'.mirrored = true ∨ ∃ i file offset whence fLseek, st.files[i]? = some file ∧
        st' = st.callOn i (lseek · offset whence fLseek) ∧
        (lseek (st.heap.view file) offset whence fLseek).2 = -1) ∧
    (∀ (st : FilesState) (i size : Nat) (fIo : Fil → Nat → Fil × Bool × Nat) (v : File),
      ((st.callOn i (read · size fIo)).viewOf i = some v → v.mirrors = true) ∧
      ((st.callOn i (write · size fIo)).viewOf i = some v → v.mirrors = true)) ∧
    ∃ st st', FilesReachable 1 0 st ∧ st.mirrored = true ∧ FilesStep 1 st 0 st' ∧
      st'.mirrored = false := by
  refine ⟨fun k st hr hm d st' hs => (filesInv_of_reachable hr).mirrored_step hm hs,
    fun st i size fIo v => ⟨viewOf_callOn_transfer size fIo, viewOf_callOn_transfer size fIo⟩, ?_⟩
  have h := reachable_mnt_a.open_a O_RDONLY ⟨0, 5⟩ true
  exact ⟨_, _, h, by decide, .lseek _ 0 3 SEEK_SET fun fil n => (⟨n, fil.fsize⟩, false), by decide⟩

end Asterisk.Fat
