import Asterisk.SharedMemory.Basic
import Asterisk.Lists

/-! # Process teardown: `sharedmemory_unmap_for_process_all`

The C function collects the addresses of the process's mapping records, object by object, and
then calls `sharedmemory_unmap_if_exists` once per address; each call rescans `g_shm_list` from
the start. This file shows that the loop does what its comment promises: on a state where no
object is marked for unlink without a record, it deletes every record of the process and then
destroys, with its frames released, each object marked for unlink that has no record left
(`unmapForProcessAll_eq_spec`), and every call it makes finds a record.

The proof follows the objects: the addresses of one object's records are consumed by removing
that object's first remaining record of the process, because every object before it has none
left (`unmapLoop_object`). -/

namespace Asterisk.Shm

/-! ## (1) Records of one process -/

/-- An object with no record of `process`. -/
def SharedMemory.CleanOf (process : Nat) (o : SharedMemory) : Prop :=
  ∀ r ∈ o.mmappedList, r.process ≠ process

/-- The object with every record of `process` deleted. -/
def SharedMemory.unmapProcess (process : Nat) (o : SharedMemory) : SharedMemory :=
  { o with mmappedList := o.mmappedList.filter fun r => r.process ≠ process }

@[simp] theorem SharedMemory.unmapProcess_physicalAddressList (process : Nat) (o : SharedMemory) :
    (o.unmapProcess process).physicalAddressList = o.physicalAddressList := rfl

/-- Destroyed once the process's records are gone: marked for unlink, with no record left. -/
def SharedMemory.dead (o : SharedMemory) : Bool := o.markedUnlink ∧ o.mmappedList = []

/-- **Specification of process teardown**: delete every record of `process`, then destroy, with
their frames released, the objects marked for unlink that have no record left. -/
def unmapForProcessAllSpec (s : ShmState) (process : Nat) : ShmState :=
  let objs := s.shmList.map (SharedMemory.unmapProcess process)
  { s with
    shmList := objs.filter fun o => !o.dead
    released := s.released ++ (objs.filter SharedMemory.dead).flatMap
      SharedMemory.physicalAddressList }

/-- The scan skips objects without a record of the process. -/
theorem findMapping_append_clean {process address : Nat} :
    ∀ {pre : List SharedMemory} (l : List SharedMemory),
      (∀ o ∈ pre, o.CleanOf process) →
      findMapping process address (pre ++ l) =
        (findMapping process address l).map fun (i, r) => (i + pre.length, r)
  | [], l, _ => by rw [List.nil_append]; cases findMapping process address l <;> rfl
  | o :: pre, l, hpre => by
    have hnone : o.mmappedList.find? (MapInfo.isAt process address) = none :=
      List.find?_eq_none.2 fun r hr => by
        simp [MapInfo.isAt, hpre o (List.mem_cons_self _ _) r hr]
    rw [List.cons_append, findMapping, hnone,
      findMapping_append_clean l fun o ho => hpre o (List.mem_cons_of_mem _ ho)]
    cases findMapping process address l <;> simp [Nat.add_assoc, Nat.add_comm 1]

/-- The first record of `process` is the first record of `process` at its own address. -/
theorem find?_isAt_of_filter {process : Nat} {r : MapInfo} {rs : List MapInfo} :
    ∀ {L : List MapInfo}, L.filter (fun r => r.process = process) = r :: rs →
      L.find? (MapInfo.isAt process r.vAddress) = some r
  | [], h => by simp at h
  | x :: L, h => by
    by_cases hx : x.process = process
    · rw [List.filter_cons_of_pos (by simpa using hx)] at h
      obtain ⟨rfl, -⟩ := List.cons.inj h
      simp [List.find?_cons, MapInfo.isAt, hx]
    · rw [List.filter_cons_of_neg (by simpa using hx)] at h
      rw [List.find?_cons_of_neg _ (by simp [MapInfo.isAt, hx]), find?_isAt_of_filter h]

/-- Erasing the first record of `process` drops it from the process's records and leaves the
other records as they were. -/
theorem filter_erase_of_filter {process : Nat} {r : MapInfo} {rs : List MapInfo} :
    ∀ {L : List MapInfo}, L.filter (fun r => r.process = process) = r :: rs →
      (L.erase r).filter (fun r => r.process = process) = rs ∧
        (L.erase r).filter (fun r => r.process ≠ process) = L.filter fun r => r.process ≠ process
  | [], h => by simp at h
  | x :: L, h => by
    by_cases hx : x.process = process
    · rw [List.filter_cons_of_pos (by simpa using hx)] at h
      obtain ⟨rfl, rfl⟩ := List.cons.inj h
      simp [hx]
    · rw [List.filter_cons_of_neg (by simpa using hx)] at h
      have hxr : x ≠ r := by
        rintro rfl
        have := List.mem_filter.1 (h ▸ List.mem_cons_self x rs : x ∈ L.filter _)
        simp [hx] at this
      rw [List.erase_cons_tail (by simpa using hxr)]
      obtain ⟨h1, h2⟩ := filter_erase_of_filter h
      rw [List.filter_cons_of_neg (by simpa using hx), List.filter_cons_of_pos (by simpa using hx),
        List.filter_cons_of_pos (by simpa using hx), h1, h2]
      exact ⟨rfl, rfl⟩

/-- A list of records is empty when it has no record of `process` and no other record. -/
theorem eq_nil_iff_filter_process (process : Nat) (L : List MapInfo) :
    L = [] ↔ L.filter (fun r => r.process = process) = [] ∧
      L.filter (fun r => r.process ≠ process) = [] := by
  constructor
  · rintro rfl; simp
  · rintro ⟨h1, h2⟩
    cases L with
    | nil => rfl
    | cons a L =>
      by_cases ha : a.process = process
      · simp [List.filter_cons, ha] at h1
      · simp [List.filter_cons, ha] at h2

/-! ## (2) The loop, object by object -/

theorem unmapLoop_append (process : Nat) (s : ShmState) (as bs : List Nat) :
    unmapLoop process s (as ++ bs) =
      ((unmapLoop process (unmapLoop process s as).1 bs).1,
        (unmapLoop process s as).2 ++ (unmapLoop process (unmapLoop process s as).1 bs).2) := by
  induction as generalizing s with
  | nil => rfl
  | cons a as ih => simp [unmapLoop, ih]

/-- **One object's addresses.** With the objects before it clean of `process`, the addresses of
an object's remaining records of `process` (at least one) remove them one call at a time; after
the last one the object is destroyed if it is marked and has no record left. Every call finds
a record. -/
theorem unmapLoop_object {process : Nat} {pre post : List SharedMemory} {acq rel : List Nat}
    (hpre : ∀ o ∈ pre, o.CleanOf process) {o : SharedMemory}
    {K : List MapInfo} (hK : K = o.mmappedList.filter fun r => r.process ≠ process) :
    ∀ {rs : List MapInfo} {cur : List MapInfo}, rs ≠ [] →
      cur.filter (fun r => r.process = process) = rs →
      cur.filter (fun r => r.process ≠ process) = K →
      unmapLoop process ⟨pre ++ { o with mmappedList := cur } :: post, acq, rel⟩
          (rs.map MapInfo.vAddress) =
        (if o.markedUnlink ∧ K = [] then ⟨pre ++ post, acq, rel ++ o.physicalAddressList⟩
          else ⟨pre ++ { o with mmappedList := K } :: post, acq, rel⟩,
          List.replicate rs.length true)
  | [], _, hne, _, _ => absurd rfl hne
  | r :: rs, cur, _, hP, hN => by
    obtain ⟨hP', hN'⟩ := filter_erase_of_filter hP
    have hfind : findMapping process r.vAddress (pre ++ { o with mmappedList := cur } :: post) =
        some (pre.length, r) := by
      rw [findMapping_append_clean _ hpre, findMapping, find?_isAt_of_filter hP]; simp
    have hone : sharedmemoryUnmapIfExists ⟨pre ++ { o with mmappedList := cur } :: post, acq, rel⟩
        process r.vAddress =
        (sharedmemoryDestroyIfSuitable
          ⟨pre ++ { o with mmappedList := cur.erase r } :: post, acq, rel⟩ pre.length, true) := by
      simp only [sharedmemoryUnmapIfExists, hfind, ShmState.modifyObj, modify_append_cons]
    have hempty : cur.erase r = [] ↔ rs = [] ∧ K = [] := by
      rw [eq_nil_iff_filter_process process, hP', hN', hN]
    cases rs with
    | nil =>
      simp only [List.map_cons, List.map_nil, unmapLoop, hone, sharedmemoryDestroyIfSuitable,
        getElem?_append_cons, List.length_eq_zero, hempty, true_and, List.length_singleton,
        List.replicate_one]
      have hcur : cur.erase r = K := by
        rw [← hN, ← hN']; exact (List.filter_eq_self.2 fun a ha => by
          have : a ∉ (cur.erase r).filter (fun r => r.process = process) := by rw [hP']; simp
          simpa [ha] using this).symm
      by_cases hd : o.markedUnlink ∧ K = []
      · simp [hd, sharedmemoryDestroy, eraseIdx_append_cons]
      · simp [hd, hcur]
    | cons r' rs =>
      have hkeep : sharedmemoryDestroyIfSuitable
          ⟨pre ++ { o with mmappedList := cur.erase r } :: post, acq, rel⟩ pre.length =
          ⟨pre ++ { o with mmappedList := cur.erase r } :: post, acq, rel⟩ := by
        simp only [sharedmemoryDestroyIfSuitable, getElem?_append_cons]
        rw [if_neg (by rw [List.length_eq_zero, hempty]; simp)]
      have ih := @unmapLoop_object process pre post acq rel hpre o K hK (r' :: rs) (cur.erase r)
        (by simp) hP' (hN'.trans hN)
      rw [List.map_cons, unmapLoop, hone, hkeep]
      simp only [ih, List.length_cons, List.replicate_succ]

/-- No object is marked for unlink without a mapping record; `sharedmemory_unlink` and
`sharedmemory_unmap_if_exists` keep it, so it holds of every reachable state. -/
def NoOrphan (l : List SharedMemory) : Prop := ∀ o ∈ l, o.markedUnlink → o.mmappedList ≠ []

/-- **All objects' addresses.** With the objects before `todo` clean of `process`, the addresses
of `todo`'s records of `process` clean every object of `todo` and destroy, releasing their
frames, those marked for unlink with no record left; every call finds a record. -/
theorem unmapLoop_objects {process : Nat} :
    ∀ {pre todo : List SharedMemory} {acq rel : List Nat}, (∀ o ∈ pre, o.CleanOf process) →
      NoOrphan todo →
      unmapLoop process ⟨pre ++ todo, acq, rel⟩ (processAddresses process todo) =
        (⟨pre ++ (todo.map (SharedMemory.unmapProcess process)).filter (fun o => !o.dead), acq,
          rel ++ ((todo.map (SharedMemory.unmapProcess process)).filter SharedMemory.dead).flatMap
            SharedMemory.physicalAddressList⟩,
          List.replicate (processAddresses process todo).length true)
  | pre, [], acq, rel, _, _ => by simp [processAddresses, unmapLoop]
  | pre, o :: todo, acq, rel, hpre, hinv => by
    have hinv' : NoOrphan todo := fun o' ho' => hinv o' (List.mem_cons_of_mem _ ho')
    have hsnoc : ∀ {o' : SharedMemory}, o'.CleanOf process →
        ∀ o'' ∈ pre ++ [o'], o''.CleanOf process := fun hc o'' ho'' => by
      rcases List.mem_append.1 ho'' with ho'' | ho''
      · exact hpre o'' ho''
      · exact (List.mem_singleton.1 ho'') ▸ hc
    have hpa : processAddresses process (o :: todo) =
        (o.mmappedList.filter fun r => r.process = process).map MapInfo.vAddress ++
          processAddresses process todo := List.flatMap_cons _ _ _
    rw [hpa, unmapLoop_append, List.length_append, List.replicate_add]
    by_cases hrs : (o.mmappedList.filter fun r => r.process = process) = []
    · -- `o` has no record of `process`: it is untouched, and not dead
      have hclean : o.CleanOf process := fun r hr e => by
        simpa [e] using (List.filter_eq_nil_iff.1 hrs) r hr
      have hsame : o.unmapProcess process = o := by
        simp only [SharedMemory.unmapProcess]
        rw [List.filter_eq_self.2 fun r hr => by simpa using hclean r hr]
      have hnd : o.dead = false := by
        simpa [SharedMemory.dead] using fun hm => hinv o (List.mem_cons_self _ _) hm
      have ih := @unmapLoop_objects process (pre ++ [o]) todo acq rel (hsnoc hclean) hinv'
      rw [hrs, List.map_nil]
      simp only [unmapLoop, List.append_assoc, List.singleton_append] at ih ⊢
      rw [ih]
      simp [hsame, hnd]
    · -- the addresses of `o`'s records remove them all, then `todo`'s
      have hobj := @unmapLoop_object process pre todo acq rel hpre o _ rfl _ o.mmappedList hrs
        rfl rfl
      have hK : ({ o with mmappedList := o.mmappedList.filter fun r => r.process ≠ process } :
          SharedMemory) = o.unmapProcess process := rfl
      rw [hobj]
      by_cases hd : o.markedUnlink ∧ (o.mmappedList.filter fun r => r.process ≠ process) = []
      · have hdead : (o.unmapProcess process).dead = true := by
          simpa [SharedMemory.dead, SharedMemory.unmapProcess] using hd
        rw [if_pos hd, unmapLoop_objects hpre hinv']
        simp [List.filter_cons, hdead]
      · have hdead : (o.unmapProcess process).dead = false := by
          simpa [SharedMemory.dead, SharedMemory.unmapProcess] using hd
        have ih := @unmapLoop_objects process (pre ++ [o.unmapProcess process]) todo acq rel
          (hsnoc fun r hr => by simpa [SharedMemory.unmapProcess] using (List.mem_filter.1 hr).2)
          hinv'
        simp only [List.append_assoc, List.singleton_append] at ih
        rw [if_neg hd, hK, ih]
        simp [List.filter_cons, hdead]

/-- **`sharedmemory_unmap_for_process_all` meets its specification** on every state without an
object marked for unlink and lacking a record: it deletes every record of the process and then
destroys, with their frames released, the marked objects left without a record; each of its
calls of `sharedmemory_unmap_if_exists` finds and removes one record. -/
theorem unmapForProcessAll_eq_spec (s : ShmState) (process : Nat) (h : NoOrphan s.shmList) :
    sharedmemoryUnmapForProcessAll s process = unmapForProcessAllSpec s process ∧
      (unmapLoop process s (processAddresses process s.shmList)).2 =
        List.replicate (processAddresses process s.shmList).length true := by
  have := @unmapLoop_objects process [] s.shmList s.acquired s.released
    (fun _ h => absurd h (List.not_mem_nil _)) h
  simp only [List.nil_append] at this
  exact ⟨by rw [sharedmemoryUnmapForProcessAll, this]; rfl, by rw [this]⟩

end Asterisk.Shm
