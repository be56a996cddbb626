import Asterisk.SharedMemory.Teardown
import Mathlib.Data.List.Nodup

/-! # Invariants of the shared-memory provider

Every state reachable from `sharedmemory_initialize` by the six operations of `ShmStep` satisfies
`ShmInv`: the names in `g_shm_list` are distinct; an object of length `0` has no frame and no
mapping record; an object of length `L > 0` holds `PAGE_COUNT(L)` frames; every mapping record
counts its object's frames; no object is marked for unlink without a record; and the frames are
conserved: those `vmm_acquire_page_frame_4k` handed out are, counted with multiplicity, the frames
of the live objects and those passed to `vmm_release_page_frame_4k`.

Each operation is shown to keep the invariant by two facts about one position of `g_shm_list`:
replacing an object by a well-formed one of the same name (`ShmInv.replace`), and
`sharedmemory_destroy_if_suitable` after a change that keeps an object's size but may leave it
marked without a record (`ShmInv.destroyIfSuitable`). The page list of an object with pages is
frozen (`pagesFrozen_of_step`). `sharedmemory_destroy_by_name` is not among the operations: it
removes an object without releasing its frames (`destroyByName_loses_frame`). -/

namespace Asterisk.Shm

/-! ## (1) Positions -/

/-- An element found at position `i` splits the list there. -/
theorem exists_split_of_getElem? {α : Type} {l : List α} {i : Nat} {o : α} (h : l[i]? = some o) :
    ∃ pre post, l = pre ++ o :: post ∧ pre.length = i := by
  obtain ⟨hi, rfl⟩ := List.getElem?_eq_some_iff.1 h
  exact ⟨l.take i, l.drop (i + 1), by rw [List.getElem_cons_drop, List.take_append_drop],
    by simp [Nat.le_of_lt hi]⟩

/-- Modifying a position past the end changes nothing. -/
theorem modify_of_getElem?_none {α : Type} {l : List α} {i : Nat} (f : α → α) (h : l[i]? = none) :
    l.modify f i = l := List.modify_eq_self (List.getElem?_eq_none_iff.1 h)

/-- The scan of `sharedmemory_unmap_if_exists` returns the position of an object holding the
record it found. -/
theorem findMapping_spec {process address : Nat} :
    ∀ {l : List SharedMemory} {i : Nat} {r : MapInfo}, findMapping process address l = some (i, r) →
      ∃ o, l[i]? = some o ∧ r ∈ o.mmappedList
  | [], _, _, h => by simp [findMapping] at h
  | o :: l, i, r, h => by
    rw [findMapping] at h
    split at h
    · next r' hr =>
      obtain ⟨rfl, rfl⟩ : 0 = i ∧ r' = r := by simpa using h
      exact ⟨o, by simp, List.mem_of_find?_eq_some hr⟩
    · obtain ⟨⟨j, r'⟩, hj, he⟩ := Option.map_eq_some'.1 h
      obtain ⟨rfl, rfl⟩ : j + 1 = i ∧ r' = r := by simpa using he
      simpa using findMapping_spec hj

/-! ## (2) The invariant -/

/-- **The size clauses of one object**: no frame and no record before the first truncation,
`PAGE_COUNT(length)` frames after it, and every record counting the frames. -/
structure SharedMemory.Sized (o : SharedMemory) : Prop where
  empty_of_length_zero : o.length = 0 → o.physicalAddressList = [] ∧ o.mmappedList = []
  pages_of_length_pos : 0 < o.length → o.physicalAddressList.length = pageCount o.length
  record_pageCount : ∀ r ∈ o.mmappedList, r.pageCount = o.physicalAddressList.length

/-- **A well-formed object**: sized, and not marked for unlink without a mapping record (such an
object is destroyed by `sharedmemory_destroy_if_suitable` as soon as it arises). -/
structure SharedMemory.Wf (o : SharedMemory) extends o.Sized : Prop where
  marked_has_record : o.markedUnlink → o.mmappedList ≠ []

/-- **The provider's invariant.** -/
structure ShmInv (s : ShmState) : Prop where
  names_nodup : (s.shmList.map SharedMemory.name).Nodup
  wf : ∀ o ∈ s.shmList, o.Wf
  conserved : List.Perm s.acquired
    (s.shmList.flatMap SharedMemory.physicalAddressList ++ s.released)

theorem shmInv_init : ShmInv ShmState.init :=
  ⟨List.nodup_nil, fun _ h => absurd h (List.not_mem_nil _), List.Perm.refl _⟩

/-- The invariant forbids orphans, the precondition of `unmapForProcessAll_eq_spec`. -/
theorem ShmInv.noOrphan {s : ShmState} (h : ShmInv s) : NoOrphan s.shmList :=
  fun o ho => (h.wf o ho).marked_has_record

/-- **Replacing an object** by a well-formed one of the same name, holding its frames and
`frames` more, which are logged as acquired, keeps the invariant. -/
theorem ShmInv.replace {pre post : List SharedMemory} {o o' : SharedMemory} {acq rel : List Nat}
    (h : ShmInv ⟨pre ++ o :: post, acq, rel⟩) (frames : List Nat) (hname : o'.name = o.name)
    (hwf : o'.Wf) (hpages : o'.physicalAddressList = o.physicalAddressList ++ frames) :
    ShmInv ⟨pre ++ o' :: post, acq ++ frames, rel⟩ where
  names_nodup := by simpa [hname] using h.names_nodup
  wf o'' ho'' := by
    rcases List.mem_append.1 ho'' with ho'' | ho''
    · exact h.wf o'' (List.mem_append_left _ ho'')
    · rcases List.mem_cons.1 ho'' with rfl | ho''
      · exact hwf
      · exact h.wf o'' (by simp [ho''])
  conserved := by
    have := h.conserved
    rw [List.perm_iff_count] at this ⊢
    intro a
    have := this a
    simp only [List.flatMap_append, List.flatMap_cons, hpages, List.count_append] at this ⊢
    omega

/-- **Removing an object** and logging its frames as released keeps the invariant. -/
theorem ShmInv.remove {pre post : List SharedMemory} {o : SharedMemory} {acq rel : List Nat}
    (h : ShmInv ⟨pre ++ o :: post, acq, rel⟩) :
    ShmInv ⟨pre ++ post, acq, rel ++ o.physicalAddressList⟩ where
  names_nodup := h.names_nodup.sublist (by simp)
  wf o' ho' := h.wf o' (by rcases List.mem_append.1 ho' with ho' | ho' <;> simp [ho'])
  conserved := by
    have := h.conserved
    rw [List.perm_iff_count] at this ⊢
    intro a
    have := this a
    simp only [List.flatMap_append, List.flatMap_cons, List.count_append] at this ⊢
    omega

/-- **`sharedmemory_destroy_if_suitable` restores the invariant** after a change of one object
that keeps its name, its frames and its size clauses but may leave it marked without a record. -/
theorem ShmInv.destroyIfSuitable {pre post : List SharedMemory} {o o' : SharedMemory}
    {acq rel : List Nat} (h : ShmInv ⟨pre ++ o :: post, acq, rel⟩) (hname : o'.name = o.name)
    (hsized : o'.Sized) (hpages : o'.physicalAddressList = o.physicalAddressList) :
    ShmInv (sharedmemoryDestroyIfSuitable ⟨pre ++ o' :: post, acq, rel⟩ pre.length) := by
  simp only [sharedmemoryDestroyIfSuitable, getElem?_append_cons]
  split
  · next hd =>
    simp only [sharedmemoryDestroy, eraseIdx_append_cons, hpages]
    exact h.remove
  · next hd =>
    have := h.replace [] hname ⟨hsized, fun hm hnil => hd ⟨hm, by simp [hnil]⟩⟩
      (by simp [hpages])
    simpa using this

/-! ## (3) Each operation keeps the invariant -/

section Steps

variable {s : ShmState}

theorem ShmInv.create (h : ShmInv s) (name : String) : ShmInv (sharedmemoryCreate s name).1 := by
  unfold sharedmemoryCreate
  split
  · exact h
  · next hfree =>
    have hfresh : name ∉ s.shmList.map SharedMemory.name := by
      simpa [sharedmemoryGetNode, List.find?_eq_none] using hfree
    refine ⟨?_, fun o ho => ?_, ?_⟩
    · simpa [List.nodup_append, hfresh] using h.names_nodup
    · rcases List.mem_append.1 ho with ho | ho
      · exact h.wf o ho
      · obtain rfl := List.mem_singleton.1 ho
        exact ⟨⟨fun _ => ⟨rfl, rfl⟩, fun h => absurd h (Nat.lt_irrefl 0), by simp⟩, by simp⟩
    · simpa using h.conserved

/-- Truncation of an object of length `0` to `length > 0`, with `PAGE_COUNT(length)` frames. -/
theorem ShmInv.ftruncate (h : ShmInv s) (i : Nat) (length : Int) (frames : List Nat)
    (hframes : frames.length = pageCount length.toNat) :
    ShmInv (sharedmemoryFtruncate s i length frames).1 := by
  unfold sharedmemoryFtruncate
  split
  · exact h
  · next hlen =>
    split
    · exact h
    · next o hi =>
      split
      · exact h
      · next hl =>
        obtain ⟨pre, post, hs, rfl⟩ := exists_split_of_getElem? hi
        obtain ⟨l, acq, rel⟩ := s
        obtain rfl : l = pre ++ o :: post := hs
        have hwf := h.wf o (by simp)
        obtain ⟨hpages, hrecs⟩ := hwf.empty_of_length_zero (not_not.1 hl)
        simp only [ShmState.modifyObj, modify_append_cons]
        refine h.replace frames rfl ⟨⟨fun h0 => ?_, fun _ => ?_, ?_⟩, fun hm => ?_⟩ rfl
        · simp only at h0; omega
        · simpa [hpages] using hframes
        · simp [hrecs]
        · exact absurd hrecs (hwf.marked_has_record hm)

/-- Mapping appends a record counting the object's frames, when it has some. -/
theorem ShmInv.mmap (h : ShmInv s) (i owner current : Nat)
    (vmmMapMemory : Nat → List Nat → Option Nat) :
    ShmInv (sharedmemoryMmap s i owner current vmmMapMemory).1 := by
  unfold sharedmemoryMmap
  dsimp only
  split
  · exact h
  · next o hi =>
    split
    · next hc =>
      obtain ⟨pre, post, hs, rfl⟩ := exists_split_of_getElem? hi
      obtain ⟨l, acq, rel⟩ := s
      obtain rfl : l = pre ++ o :: post := hs
      have hwf := h.wf o (by simp)
      simp only [ShmState.modifyObj, modify_append_cons]
      rw [← List.append_nil acq]
      refine h.replace [] rfl ⟨⟨fun h0 => ?_, hwf.pages_of_length_pos, fun r hr => ?_⟩, by simp⟩
        (by simp)
      · exact absurd (hwf.empty_of_length_zero h0).1 (List.ne_nil_of_length_pos hc)
      · rcases List.mem_append.1 hr with hr | hr
        · exact hwf.record_pageCount r hr
        · simp [List.mem_singleton.1 hr]
    · exact h

theorem ShmInv.unlink (h : ShmInv s) (i : Nat) : ShmInv (sharedmemoryUnlink s i) := by
  unfold sharedmemoryUnlink
  cases hi : s.shmList[i]? with
  | none =>
    simp only [ShmState.modifyObj, modify_of_getElem?_none _ hi, sharedmemoryDestroyIfSuitable, hi]
    exact h
  | some o =>
    obtain ⟨pre, post, hs, rfl⟩ := exists_split_of_getElem? hi
    obtain ⟨l, acq, rel⟩ := s
    obtain rfl : l = pre ++ o :: post := hs
    have hwf := h.wf o (by simp)
    simp only [ShmState.modifyObj, modify_append_cons]
    exact h.destroyIfSuitable rfl ⟨hwf.empty_of_length_zero, hwf.pages_of_length_pos,
      hwf.record_pageCount⟩ rfl

theorem ShmInv.unmapIfExists (h : ShmInv s) (process address : Nat) :
    ShmInv (sharedmemoryUnmapIfExists s process address).1 := by
  unfold sharedmemoryUnmapIfExists
  split
  · next i r hf =>
    obtain ⟨o, hi, -⟩ := findMapping_spec hf
    obtain ⟨pre, post, hs, rfl⟩ := exists_split_of_getElem? hi
    obtain ⟨l, acq, rel⟩ := s
    obtain rfl : l = pre ++ o :: post := hs
    have hwf := h.wf o (by simp)
    simp only [ShmState.modifyObj, modify_append_cons]
    exact h.destroyIfSuitable rfl ⟨fun h0 => by simp [(hwf.empty_of_length_zero h0).1,
      (hwf.empty_of_length_zero h0).2], hwf.pages_of_length_pos,
      fun r' hr' => hwf.record_pageCount r' (List.mem_of_mem_erase hr')⟩ rfl
  · exact h

theorem ShmInv.unmapLoop (process : Nat) :
    ∀ {s : ShmState} (as : List Nat), ShmInv s → ShmInv (unmapLoop process s as).1
  | _, [], h => h
  | _, _ :: as, h => ShmInv.unmapLoop process as (h.unmapIfExists process _)

/-- **Step lemma**: every operation keeps the invariant. -/
theorem ShmInv.step {s s' : ShmState} (h : ShmInv s) (hs : ShmStep s s') : ShmInv s' := by
  cases hs with
  | create name => exact h.create name
  | ftruncate i length frames hf => exact h.ftruncate i length frames hf
  | mmap i owner current f => exact h.mmap i owner current f
  | unlink i => exact h.unlink i
  | unmapIfExists process address => exact h.unmapIfExists process address
  | unmapForProcessAll process => exact ShmInv.unmapLoop process _ h

end Steps

/-- **Run lemma**: every reachable state satisfies the invariant. -/
theorem ShmReachable.inv {s : ShmState} (h : ShmReachable s) : ShmInv s := by
  induction h with
  | init => exact shmInv_init
  | step _ hs ih => exact ih.step hs

/-! ## (4) Frozen page lists -/

/-- `o'` is `o` after an operation: the same name, and the same length and page list once `o`
has pages. -/
def SharedMemory.Keeps (o o' : SharedMemory) : Prop :=
  o'.name = o.name ∧ (0 < o.length →
    o'.length = o.length ∧ o'.physicalAddressList = o.physicalAddressList)

theorem SharedMemory.Keeps.refl (o : SharedMemory) : o.Keeps o := ⟨rfl, fun _ => ⟨rfl, rfl⟩⟩

/-- **The page list of an object with pages is frozen** from `s` to `s'`: an object of `s` with
pages that has a namesake in `s'` has the same length and page list there. -/
def PagesFrozen (s s' : ShmState) : Prop :=
  ∀ o ∈ s.shmList, 0 < o.length → ∀ o' ∈ s'.shmList, o'.name = o.name →
    o'.length = o.length ∧ o'.physicalAddressList = o.physicalAddressList

/-- Every object of `l'` is an object of `l` after an operation. -/
def Shrinks (l l' : List SharedMemory) : Prop := ∀ o' ∈ l', ∃ o ∈ l, o.Keeps o'

theorem Shrinks.of_subset {l l' : List SharedMemory} (h : ∀ o ∈ l', o ∈ l) : Shrinks l l' :=
  fun o' ho' => ⟨o', h o' ho', SharedMemory.Keeps.refl o'⟩

theorem Shrinks.trans {l l' l'' : List SharedMemory} (h : Shrinks l l') (h' : Shrinks l' l'') :
    Shrinks l l'' := fun o'' ho'' => by
  obtain ⟨o', ho', hk'⟩ := h' o'' ho''
  obtain ⟨o, ho, hk⟩ := h o' ho'
  refine ⟨o, ho, hk'.1.trans hk.1, fun hl => ?_⟩
  obtain ⟨hl', hp'⟩ := hk.2 hl
  obtain ⟨hl'', hp''⟩ := hk'.2 (hl' ▸ hl)
  exact ⟨hl''.trans hl', hp''.trans hp'⟩

/-- Changing the object at one position by an operation. -/
theorem shrinks_modify {l : List SharedMemory} {i : Nat} {f : SharedMemory → SharedMemory}
    (hf : ∀ o, l[i]? = some o → o.Keeps (f o)) : Shrinks l (l.modify f i) := by
  cases hi : l[i]? with
  | none => exact Shrinks.of_subset fun o ho => by rwa [modify_of_getElem?_none f hi] at ho
  | some o =>
    obtain ⟨pre, post, rfl, rfl⟩ := exists_split_of_getElem? hi
    rw [modify_append_cons]
    intro o' ho'
    rcases List.mem_append.1 ho' with ho' | ho'
    · exact ⟨o', by simp [ho'], SharedMemory.Keeps.refl o'⟩
    · rcases List.mem_cons.1 ho' with rfl | ho'
      · exact ⟨o, by simp, hf o hi⟩
      · exact ⟨o', by simp [ho'], SharedMemory.Keeps.refl o'⟩

theorem shrinks_destroyIfSuitable (s : ShmState) (i : Nat) :
    Shrinks s.shmList (sharedmemoryDestroyIfSuitable s i).shmList := by
  unfold sharedmemoryDestroyIfSuitable
  split
  · split
    · exact Shrinks.of_subset fun o ho => (List.eraseIdx_sublist _ _).subset ho
    · exact Shrinks.of_subset fun _ => id
  · exact Shrinks.of_subset fun _ => id

/-- A change of one object followed by `sharedmemory_destroy_if_suitable` on it. -/
theorem shrinks_modifyObj_destroyIfSuitable (s : ShmState) (i : Nat)
    {f : SharedMemory → SharedMemory} (hf : ∀ o : SharedMemory, o.Keeps (f o)) :
    Shrinks s.shmList (sharedmemoryDestroyIfSuitable (s.modifyObj i f) i).shmList :=
  (shrinks_modify fun o _ => hf o).trans (shrinks_destroyIfSuitable (s.modifyObj i f) i)

theorem pagesFrozen_of_shrinks {s s' : ShmState} (hnd : (s.shmList.map SharedMemory.name).Nodup)
    (h : Shrinks s.shmList s'.shmList) : PagesFrozen s s' := fun o ho hl o' ho' hname => by
  obtain ⟨o₀, ho₀, hk⟩ := h o' ho'
  obtain rfl := List.inj_on_of_nodup_map hnd ho₀ ho (hk.1.symm.trans hname)
  exact hk.2 hl

theorem shrinks_unmapIfExists (s : ShmState) (process address : Nat) :
    Shrinks s.shmList (sharedmemoryUnmapIfExists s process address).1.shmList := by
  unfold sharedmemoryUnmapIfExists
  split
  · exact shrinks_modifyObj_destroyIfSuitable s _ fun _ => ⟨rfl, fun _ => ⟨rfl, rfl⟩⟩
  · exact Shrinks.of_subset fun _ => id

theorem shrinks_unmapLoop (process : Nat) :
    ∀ (s : ShmState) (as : List Nat), Shrinks s.shmList (unmapLoop process s as).1.shmList
  | _, [] => Shrinks.of_subset fun _ => id
  | s, _ :: as => (shrinks_unmapIfExists s process _).trans (shrinks_unmapLoop process _ as)

/-- **Step lemma for page lists**: no operation changes the length or the page list of an object
that has pages, while the object lives. -/
theorem pagesFrozen_of_step {s s' : ShmState} (h : ShmInv s) (hs : ShmStep s s') :
    PagesFrozen s s' := by
  have hnd := h.names_nodup
  cases hs with
  | create name =>
    unfold sharedmemoryCreate
    split
    · exact pagesFrozen_of_shrinks hnd (Shrinks.of_subset fun _ => id)
    · next hfree =>
      intro o ho hl o' ho' hname
      rcases List.mem_append.1 ho' with ho' | ho'
      · exact pagesFrozen_of_shrinks hnd (Shrinks.of_subset fun _ => id) o ho hl o' ho' hname
      · obtain rfl := List.mem_singleton.1 ho'
        simp only [sharedmemoryGetNode, Option.isSome_iff_exists, not_exists] at hfree
        exact absurd (List.find?_eq_none.1 (Option.eq_none_iff_forall_not_mem.2 hfree) o ho)
          (by simpa using hname.symm)
  | ftruncate i length frames _ =>
    refine pagesFrozen_of_shrinks hnd ?_
    unfold sharedmemoryFtruncate
    split
    · exact Shrinks.of_subset fun _ => id
    · split
      · exact Shrinks.of_subset fun _ => id
      · next o hi =>
        split
        · exact Shrinks.of_subset fun _ => id
        · next hl =>
          exact shrinks_modify fun o' hi' => ⟨rfl, fun hpos => absurd (not_not.1 hl)
            (by rw [hi] at hi'; cases hi'; omega)⟩
  | mmap i owner current f =>
    refine pagesFrozen_of_shrinks hnd ?_
    unfold sharedmemoryMmap
    dsimp only
    split
    · exact Shrinks.of_subset fun _ => id
    · split
      · exact shrinks_modify fun _ _ => ⟨rfl, fun _ => ⟨rfl, rfl⟩⟩
      · exact Shrinks.of_subset fun _ => id
  | unlink i =>
    exact pagesFrozen_of_shrinks hnd
      (shrinks_modifyObj_destroyIfSuitable s i fun _ => ⟨rfl, fun _ => ⟨rfl, rfl⟩⟩)
  | unmapIfExists process address =>
    exact pagesFrozen_of_shrinks hnd (shrinks_unmapIfExists s process address)
  | unmapForProcessAll process =>
    exact pagesFrozen_of_shrinks hnd (shrinks_unmapLoop process s _)

/-- Once an object has pages, `sharedmemory_ftruncate` fails on it and changes nothing. -/
theorem sharedmemoryFtruncate_of_length_pos {s : ShmState} {i : Nat} {o : SharedMemory}
    (hi : s.shmList[i]? = some o) (hl : 0 < o.length) (length : Int) (frames : List Nat) :
    sharedmemoryFtruncate s i length frames = (s, -1) := by
  unfold sharedmemoryFtruncate
  split
  · rfl
  · rw [hi]
    exact if_pos (Nat.pos_iff_ne_zero.1 hl)

/-! ## (5) Reachable states -/

/-- **The provider's invariant over every run**: every reachable state satisfies `ShmInv` (distinct
names, the size clauses of every object, no object marked for unlink without a record, frames
conserved); from it, no operation changes the page list or the length of an object that has
pages, and every later `sharedmemory_ftruncate` of such an object returns `-1` and changes
nothing. -/
theorem shm_reachable_invariant {s : ShmState} (hs : ShmReachable s) :
    ShmInv s ∧ (∀ s', ShmStep s s' → PagesFrozen s s') ∧
      ∀ i o length frames, s.shmList[i]? = some o → 0 < o.length →
        sharedmemoryFtruncate s i length frames = (s, -1) :=
  ⟨hs.inv, fun _ => pagesFrozen_of_step hs.inv,
    fun _ _ length frames hi hl => sharedmemoryFtruncate_of_length_pos hi hl length frames⟩

/-- The invariant after `sharedmemory_create("x")`, `sharedmemory_ftruncate` of `x` to `4096`
with frame `7`, and `sharedmemory_mmap` of `x` by process `1` at `4096`: an object with a frame and
a mapping record, which no later `ftruncate` changes. -/
theorem shm_reachable_invariant_mapped :
    ∃ s, ShmReachable s ∧ s.shmList = [⟨"x", 4096, [7], [⟨1, 4096, 1⟩], false⟩] ∧
      ShmInv s ∧ (∀ s', ShmStep s s' → PagesFrozen s s') ∧
      ∀ i o length frames, s.shmList[i]? = some o → 0 < o.length →
        sharedmemoryFtruncate s i length frames = (s, -1) :=
  have hs := ((ShmReachable.init.step (.create _ "x")).step
    (.ftruncate _ 0 4096 [7] (by decide))).step (.mmap _ 0 1 1 fun _ _ => some 4096)
  ⟨_, hs, by decide, shm_reachable_invariant hs⟩

/-- **Process teardown on every reachable state**: `sharedmemory_unmap_for_process_all` deletes
every record of the process and destroys, with their frames released, the objects marked for
unlink left without a record, and changes nothing else; each `sharedmemory_unmap_if_exists` call
it makes finds a record and removes it. -/
theorem unmapForProcessAll_of_reachable {s : ShmState} (hs : ShmReachable s) (process : Nat) :
    sharedmemoryUnmapForProcessAll s process = unmapForProcessAllSpec s process ∧
      (unmapLoop process s (processAddresses process s.shmList)).2 =
        List.replicate (processAddresses process s.shmList).length true :=
  unmapForProcessAll_eq_spec s process hs.inv.noOrphan

/-- Teardown of process `1` where `x` (frame `7`) is mapped by `1` alone and marked for unlink,
and `y` (frame `8`) is mapped by `1` and by `2`: both records of `1` go, `x` is destroyed with
frame `7` released, and `y` keeps the record of `2`. -/
theorem unmapForProcessAll_of_reachable_two :
    ∃ s, ShmReachable s ∧
      s.shmList = [⟨"x", 4096, [7], [⟨1, 4096, 1⟩], true⟩,
        ⟨"y", 4096, [8], [⟨1, 8192, 1⟩, ⟨2, 4096, 1⟩], false⟩] ∧
      processAddresses 1 s.shmList = [4096, 8192] ∧
      unmapForProcessAllSpec s 1 = ⟨[⟨"y", 4096, [8], [⟨2, 4096, 1⟩], false⟩], [7, 8], [7]⟩ ∧
      sharedmemoryUnmapForProcessAll s 1 = unmapForProcessAllSpec s 1 ∧
      (unmapLoop 1 s (processAddresses 1 s.shmList)).2 =
        List.replicate (processAddresses 1 s.shmList).length true :=
  have hs := (((((((ShmReachable.init.step (.create _ "x")).step (.create _ "y")).step
    (.ftruncate _ 0 4096 [7] (by decide))).step (.ftruncate _ 1 4096 [8] (by decide))).step
    (.mmap _ 0 1 1 fun _ _ => some 4096)).step (.mmap _ 1 1 1 fun _ _ => some 8192)).step
    (.mmap _ 1 2 2 fun _ _ => some 4096)).step (.unlink _ 0)
  ⟨_, hs, by decide, by decide, by decide, unmapForProcessAll_of_reachable hs 1⟩

/-! ## (6) `sharedmemory_destroy_by_name` -/

/-- With distinct names, `sharedmemory_destroy_by_name` of an object's name removes that object
and logs nothing as released. -/
theorem sharedmemoryDestroyByName_of_mem {s : ShmState} {o : SharedMemory}
    (hnd : (s.shmList.map SharedMemory.name).Nodup) (ho : o ∈ s.shmList) :
    ∃ pre post, s.shmList = pre ++ o :: post ∧
      sharedmemoryDestroyByName s o.name = (⟨pre ++ post, s.acquired, s.released⟩, true) := by
  obtain ⟨i, hi⟩ := Option.isSome_iff_exists.1
    (List.findIdx?_isSome.trans (List.any_eq_true.2 ⟨o, ho, by simp⟩) :
      (s.shmList.findIdx? fun o' => o'.name = o.name).isSome)
  obtain ⟨hlt, hp, -⟩ := List.findIdx?_eq_some_iff_getElem.1 hi
  have hio : s.shmList[i] = o :=
    List.inj_on_of_nodup_map hnd (List.getElem_mem hlt) ho (by simpa using hp)
  obtain ⟨pre, post, hs, rfl⟩ :=
    exists_split_of_getElem? ((List.getElem?_eq_getElem hlt).trans (congrArg some hio))
  refine ⟨pre, post, hs, ?_⟩
  rw [sharedmemoryDestroyByName, hi]
  simp only [sharedmemoryDestroy, hs, eraseIdx_append_cons]

/-- **`sharedmemory_destroy_by_name` loses frames**: from a state satisfying the invariant in
which each frame was acquired once, destroying an object by name leaves each of its frames
acquired but neither in a live object nor released. -/
theorem destroyByName_loses_frames {s : ShmState} (h : ShmInv s) (hacq : s.acquired.Nodup)
    {o : SharedMemory} (ho : o ∈ s.shmList) {frame : Nat} (hf : frame ∈ o.physicalAddressList) :
    frame ∈ (sharedmemoryDestroyByName s o.name).1.acquired ∧
      frame ∉ (sharedmemoryDestroyByName s o.name).1.shmList.flatMap
        SharedMemory.physicalAddressList ∧
      frame ∉ (sharedmemoryDestroyByName s o.name).1.released := by
  obtain ⟨pre, post, hs, hd⟩ := sharedmemoryDestroyByName_of_mem h.names_nodup ho
  have hc := h.conserved.count_eq frame
  have h1 := List.nodup_iff_count_le_one.1 hacq frame
  have h2 := List.count_pos_iff.2 hf
  rw [hs] at hc
  simp only [List.flatMap_append, List.flatMap_cons, List.count_append] at hc
  simp only [hd, ← List.count_pos_iff, List.flatMap_append, List.count_append]
  omega

/-- **`sharedmemory_destroy_by_name` breaks frame conservation.** From every reachable state in
which each frame was acquired once, destroying an object by name leaves each of its frames acquired
but neither in a live object nor released. On a run of `sharedmemory_create`,
`sharedmemory_ftruncate` and `sharedmemory_mmap`, the object leaves `g_shm_list` unmarked, with a
mapping record, and its frame `7` is neither released nor in a live object. -/
theorem destroyByName_after_mmap :
    (∀ s, ShmReachable s → s.acquired.Nodup → ∀ o ∈ s.shmList, ∀ frame ∈ o.physicalAddressList,
      frame ∈ (sharedmemoryDestroyByName s o.name).1.acquired ∧
        frame ∉ (sharedmemoryDestroyByName s o.name).1.shmList.flatMap
          SharedMemory.physicalAddressList ∧
        frame ∉ (sharedmemoryDestroyByName s o.name).1.released) ∧
    ∃ s, s = (sharedmemoryMmap (sharedmemoryFtruncate (sharedmemoryCreate ShmState.init "x").1
        0 4096 [7]).1 0 1 1 fun _ _ => some 4096).1 ∧
      ShmReachable s ∧
      (∃ o ∈ s.shmList, o.name = "x" ∧ o.markedUnlink = false ∧ o.mmappedList ≠ [] ∧
        o.physicalAddressList = [7]) ∧
      (sharedmemoryDestroyByName s "x").1.shmList = [] ∧
      (sharedmemoryDestroyByName s "x").1.acquired = [7] ∧
      (sharedmemoryDestroyByName s "x").1.released = [] :=
  ⟨fun _ hs hacq _ ho _ hf => destroyByName_loses_frames hs.inv hacq ho hf, _, rfl, .step (.step (.step .init (.create _ _)) (.ftruncate _ 0 4096 [7] (by decide)))
    (.mmap _ _ _ _ _), by decide⟩

/-! ## (7) A failed `sharedmemory_mmap` -/

/-- What `sharedmemory_mmap` does to an object that has frames: it appends the record of the
calling process, with the address `vmm_map_memory` returned or `0`, whatever that call returned. -/
theorem sharedmemoryMmap_of_pages {s : ShmState} {i : Nat} {o : SharedMemory}
    (hi : s.shmList[i]? = some o) (hp : o.physicalAddressList ≠ []) (owner current : Nat)
    (vmmMapMemory : Nat → List Nat → Option Nat) :
    sharedmemoryMmap s i owner current vmmMapMemory =
      (s.modifyObj i fun o' => { o' with mmappedList := o'.mmappedList ++
          [⟨current, (vmmMapMemory owner o.physicalAddressList).getD 0,
            o.physicalAddressList.length⟩] },
        vmmMapMemory owner o.physicalAddressList) := by
  simp [sharedmemoryMmap, hi, List.length_pos.2 hp]

/-- **A failed `sharedmemory_mmap` leaves a mapping record behind**: for every state and every
object with frames, `sharedmemory_mmap` returns what `vmm_map_memory` returned and appends the
record `(current, address or 0, count)`, naming the calling process rather than the process it
mapped, whatever `vmm_map_memory` did. When that call fails, the object marked for unlink is not
destroyed and none of its frames is released: the record of the failed map holds it. -/
theorem failed_mmap_keeps_phantom_record {s : ShmState} {i : Nat} {o : SharedMemory}
    (hi : s.shmList[i]? = some o) (hp : o.physicalAddressList ≠ []) (owner current : Nat)
    (vmmMapMemory : Nat → List Nat → Option Nat) :
    (sharedmemoryMmap s i owner current vmmMapMemory).2 =
        vmmMapMemory owner o.physicalAddressList ∧
      (sharedmemoryMmap s i owner current vmmMapMemory).1.shmList[i]? =
        some { o with mmappedList := o.mmappedList ++
          [⟨current, (vmmMapMemory owner o.physicalAddressList).getD 0,
            o.physicalAddressList.length⟩] } ∧
      (vmmMapMemory owner o.physicalAddressList = none →
        (sharedmemoryUnlink (sharedmemoryMmap s i owner current vmmMapMemory).1 i).shmList.length =
            s.shmList.length ∧
          (sharedmemoryUnlink (sharedmemoryMmap s i owner current vmmMapMemory).1 i).released =
            s.released) := by
  rw [sharedmemoryMmap_of_pages hi hp]
  have hi' : (s.modifyObj i fun o' => { o' with mmappedList := o'.mmappedList ++
      [⟨current, (vmmMapMemory owner o.physicalAddressList).getD 0,
        o.physicalAddressList.length⟩] }).shmList[i]? = some { o with mmappedList :=
      o.mmappedList ++ [⟨current, (vmmMapMemory owner o.physicalAddressList).getD 0,
        o.physicalAddressList.length⟩] } := by
    simp [ShmState.modifyObj, hi]
  refine ⟨rfl, hi', fun _ => ?_⟩
  simp [sharedmemoryUnlink, sharedmemoryDestroyIfSuitable, ShmState.modifyObj, hi]

theorem failed_mmap_keeps_phantom_record_x :
    (sharedmemoryFtruncate (sharedmemoryCreate ShmState.init "x").1 0 4096 [7]).1.shmList[0]? =
        some ⟨"x", 4096, [7], [], false⟩ ∧ [7] ≠ [] ∧
      (sharedmemoryMmap (sharedmemoryFtruncate (sharedmemoryCreate ShmState.init "x").1 0 4096
          [7]).1 0 1 2 (fun _ _ => none)).2 = none ∧
      (sharedmemoryMmap (sharedmemoryFtruncate (sharedmemoryCreate ShmState.init "x").1 0 4096
          [7]).1 0 1 2 (fun _ _ => none)).1.shmList[0]? =
        some ⟨"x", 4096, [7], [⟨2, 0, 1⟩], false⟩ ∧
      ((none : Option Nat) = none →
        (sharedmemoryUnlink (sharedmemoryMmap (sharedmemoryFtruncate
            (sharedmemoryCreate ShmState.init "x").1 0 4096 [7]).1 0 1 2 (fun _ _ => none)).1
            0).shmList.length = 1 ∧
          (sharedmemoryUnlink (sharedmemoryMmap (sharedmemoryFtruncate
            (sharedmemoryCreate ShmState.init "x").1 0 4096 [7]).1 0 1 2 (fun _ _ => none)).1
            0).released = []) :=
  ⟨by decide, by decide, failed_mmap_keeps_phantom_record (o := ⟨"x", 4096, [7], [], false⟩)
    (by decide) (by decide) 1 2 fun _ _ => none⟩

end Asterisk.Shm
