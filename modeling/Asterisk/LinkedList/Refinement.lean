import Asterisk.LinkedList.Shape

/-! # `list.c` refines an abstract sequence

Each operation of `list.c`, applied to a well-formed list with payloads `xs`, gives a
well-formed list whose payloads are what the abstract operation gives (`List.concat`, `List.cons`,
`List.eraseIdx`, `List.erase`, `[]`), and each query returns what the abstract query returns
(`List.length`, `List.indexOf`). A run of operations from `list_create` therefore keeps a
well-formed list whose payloads follow the abstract run (`isList_of_run`); the FIFO and LIFO
disciplines of `queue_*` and `stack_*` follow. The rest of the development models the kernel's
lists (`g_shm_list`, the accept queue) by Lean lists, on the strength of this file. -/

namespace Asterisk.LinkedList

variable {α : Type}

/-! ## (1) Decomposing a well-formed list -/

/-- A segment ending in one more cell. -/
theorem seg_snoc (h : Heap α) (prev nxt : Option Nat) (ps : List Nat) (q : Nat) (xs : List α)
    (x : α) (hl : ps.length = xs.length) :
    Seg h prev (ps ++ [q]) (xs ++ [x]) nxt ↔
      Seg h prev ps xs (some q) ∧ h.cells q = some ⟨x, nxt, lastOf prev ps⟩ := by
  simp [seg_append h prev nxt ps [q] xs [x] hl]

/-- A list with a `tail` ends in that cell, whose `next` is `NULL`. -/
theorem IsList.exists_snoc {h : Heap α} {l : ListHeader} {ps : List Nat} {xs : List α}
    (hl : IsList h l ps xs) {t : Nat} (ht : l.tail = some t) :
    ∃ ps0 xs0 x, ps = ps0 ++ [t] ∧ xs = xs0 ++ [x] ∧ ps0.length = xs0.length := by
  rw [hl.tail_eq, lastOf_none_eq_getLast?, List.getLast?_eq_some_iff] at ht
  obtain ⟨ps0, rfl⟩ := ht
  have hlen := hl.seg.length_eq
  refine ⟨ps0, xs.dropLast, xs.getLast (by rintro rfl; simp at hlen), rfl,
    (List.dropLast_append_getLast _).symm, by simp [← hlen]⟩

/-- A list whose `tail` is `NULL` is empty. -/
theorem IsList.eq_nil_of_tail {h : Heap α} {l : ListHeader} {ps : List Nat} {xs : List α}
    (hl : IsList h l ps xs) (ht : l.tail = none) : ps = [] ∧ xs = [] := by
  have hlen := hl.seg.length_eq
  rw [hl.tail_eq, lastOf_none_eq_getLast?, List.getLast?_eq_none_iff] at ht
  subst ht
  exact ⟨rfl, List.length_eq_zero.1 hlen.symm⟩

/-! ## (2) Insertion -/

theorem listAppend_of_tail_none {h : Heap α} {l : ListHeader} (ht : l.tail = none) (d : α)
    (p : Nat) : listAppend h l d p = (h.set p ⟨d, none, none⟩, ⟨some p, some p⟩) := by
  simp [listAppend, ht]

theorem listAppend_of_tail_some {h : Heap α} {l : ListHeader} {t : Nat} (ht : l.tail = some t)
    (d : α) (p : Nat) :
    listAppend h l d p =
      (((h.set p ⟨d, none, none⟩).setPrevious p (some t)).setNext t (some p),
        { l with tail := some p }) := by
  simp [listAppend, ht]

/-- **`list_append` is `xs ++ [d]`**, the new cell `p` (free before the call) last. -/
theorem isList_listAppend {h : Heap α} {l : ListHeader} {ps : List Nat} {xs : List α}
    (hl : IsList h l ps xs) {p : Nat} (hp : h.cells p = none) (d : α) :
    IsList (listAppend h l d p).1 (listAppend h l d p).2 (ps ++ [p]) (xs ++ [d]) := by
  have hpn : p ∉ ps := hl.seg.not_mem hp
  have hnd : (ps ++ [p]).Nodup := List.nodup_append.2 ⟨hl.nodup, List.nodup_singleton p,
    List.disjoint_singleton.2 hpn⟩
  cases ht : l.tail with
  | none =>
    obtain ⟨rfl, rfl⟩ := hl.eq_nil_of_tail ht
    rw [listAppend_of_tail_none ht]
    exact ⟨hnd, rfl, rfl, by simp⟩
  | some t =>
    obtain ⟨ps0, xs0, x, rfl, rfl, hlen⟩ := hl.exists_snoc ht
    obtain ⟨hs0, htc⟩ := (seg_snoc h none none ps0 t xs0 x hlen).1 hl.seg
    have htp : t ≠ p := by rintro rfl; simp at hpn
    have hnd0 : t ∉ ps0 ∧ p ∉ ps0 := by simp_all [List.nodup_append]
    rw [listAppend_of_tail_some ht]
    refine ⟨hnd, by simpa using hl.head_eq, by simp, ?_⟩
    rw [List.append_assoc, List.append_assoc, seg_append _ _ _ _ _ _ _ hlen]
    refine ⟨hs0.frame fun q hq => ?_, ?_⟩
    · have : q ≠ t ∧ q ≠ p := ⟨fun e => hnd0.1 (e ▸ hq), fun e => hnd0.2 (e ▸ hq)⟩
      simp [this]
    · simp [htc, htp, htp.symm]

theorem listPrepend_of_tail_none {h : Heap α} {l : ListHeader} (ht : l.tail = none) (d : α)
    (p : Nat) : listPrepend h l d p = (h.set p ⟨d, none, none⟩, ⟨some p, some p⟩) := by
  simp [listPrepend, ht]

theorem listPrepend_of_head_some {h : Heap α} {l : ListHeader} {t q : Nat} (ht : l.tail = some t)
    (hq : l.head = some q) (d : α) (p : Nat) :
    listPrepend h l d p =
      (((h.set p ⟨d, none, none⟩).setNext p (some q)).setPrevious q (some p),
        { l with head := some p }) := by
  simp [listPrepend, ht, hq]

/-- **`list_prepend` is `d :: xs`**, the new cell `p` first. -/
theorem isList_listPrepend {h : Heap α} {l : ListHeader} {ps : List Nat} {xs : List α}
    (hl : IsList h l ps xs) {p : Nat} (hp : h.cells p = none) (d : α) :
    IsList (listPrepend h l d p).1 (listPrepend h l d p).2 (p :: ps) (d :: xs) := by
  have hpn : p ∉ ps := hl.seg.not_mem hp
  have hnd : (p :: ps).Nodup := List.nodup_cons.2 ⟨hpn, hl.nodup⟩
  cases ht : l.tail with
  | none =>
    obtain ⟨rfl, rfl⟩ := hl.eq_nil_of_tail ht
    rw [listPrepend_of_tail_none ht]
    exact ⟨hnd, rfl, rfl, by simp⟩
  | some t =>
    obtain ⟨q, ps1, rfl⟩ : ∃ q ps1, ps = q :: ps1 := by
      cases ps with
      | nil => simp [hl.tail_eq] at ht
      | cons q ps1 => exact ⟨q, ps1, rfl⟩
    obtain ⟨x, xs1, rfl⟩ : ∃ x xs1, xs = x :: xs1 := by
      cases xs with
      | nil => exact absurd hl.seg (seg_cons_nil h none none q ps1)
      | cons x xs1 => exact ⟨x, xs1, rfl⟩
    obtain ⟨hq, hs1⟩ := hl.seg
    have hqp : q ≠ p := by rintro rfl; simp at hpn
    rw [listPrepend_of_head_some ht hl.head_eq]
    refine ⟨hnd, rfl, by simp [hl.tail_eq] at ht ⊢, ?_⟩
    refine ⟨by simp [hqp.symm], by simp [hq, hqp], hs1.frame fun c hc => ?_⟩
    have : c ≠ q ∧ c ≠ p := ⟨fun e => (List.nodup_cons.1 hl.nodup).1 (e ▸ hc),
      fun e => hpn (List.mem_cons_of_mem _ (e ▸ hc))⟩
    simp [this]

/-! ## (3) Removal -/

/-- The predecessor of `p` now points past `p`; no other cell changes. -/
theorem bypassPrevious_cells {h : Heap α} {p : Nat} {n : ListNode α} (hp : h.cells p = some n)
    (c : Nat) : (bypassPrevious h p).cells c =
      if n.previous = some c then (h.cells c).map ({ · with next := n.next }) else h.cells c := by
  rcases hv : n.previous with _ | q <;>
    simp [bypassPrevious, Heap.previous, Heap.next, hp, hv]
  by_cases e : c = q <;> simp [e, eq_comm]

/-- The successor of `p` now points back past `p`; no other cell changes. -/
theorem bypassNext_cells {h : Heap α} {p : Nat} {n : ListNode α} (hp : h.cells p = some n)
    (c : Nat) : (bypassNext h p).cells c =
      if n.next = some c then (h.cells c).map ({ · with previous := n.previous }) else h.cells c := by
  rcases hv : n.next with _ | r <;>
    simp [bypassNext, Heap.previous, Heap.next, hp, hv]
  by_cases e : c = r <;> simp [e, eq_comm]

/-- The last address of a list, when there is one, is one of its addresses. -/
theorem mem_of_lastOf_none {ps : List Nat} {c : Nat} (h : lastOf none ps = some c) : c ∈ ps :=
  List.mem_of_getLast?_eq_some (by rwa [← lastOf_none_eq_getLast?])

theorem nextOf_none (bs : List Nat) : nextOf bs none = bs.head? := by
  cases bs <;> rfl

theorem bypassPrevious_cells_self {h : Heap α} {p : Nat} {n : ListNode α}
    (hp : h.cells p = some n) (hprev : n.previous ≠ some p) :
    (bypassPrevious h p).cells p = some n := by
  rw [bypassPrevious_cells hp, if_neg hprev, hp]

/-- `list_remove_node` on a cell that is not its own neighbour, pointer by pointer. -/
theorem listRemoveNode_some {h : Heap α} {l : ListHeader} {p : Nat} {n : ListNode α}
    (hp : h.cells p = some n) (hprev : n.previous ≠ some p) (hnext : n.next ≠ some p) :
    listRemoveNode h l (some p) =
      ((bypassNext (bypassPrevious h p) p).free p,
        let l := if l.head = some p then { l with head := n.next } else l
        if l.tail = some p then { l with tail := n.previous } else l) := by
  have hp2 : (bypassNext (bypassPrevious h p) p).cells p = some n := by
    rw [bypassNext_cells (bypassPrevious_cells_self hp hprev), if_neg hnext,
      bypassPrevious_cells_self hp hprev]
  simp [listRemoveNode, Heap.next, Heap.previous, hp2]

section RemoveNode

variable {h : Heap α} {l : ListHeader} {p : Nat} {n : ListNode α}
  (hp : h.cells p = some n) (hprev : n.previous ≠ some p) (hnext : n.next ≠ some p)
include hp hprev hnext

/-- The cells after `list_remove_node`: `p` freed, its predecessor's `next` and its successor's
`previous` bypassing it. -/
theorem listRemoveNode_cells (c : Nat) :
    (listRemoveNode h l (some p)).1.cells c =
      if c = p then none
      else if n.next = some c then
        (if n.previous = some c then (h.cells c).map ({ · with next := n.next })
          else h.cells c).map ({ · with previous := n.previous })
      else if n.previous = some c then (h.cells c).map ({ · with next := n.next })
      else h.cells c := by
  rw [listRemoveNode_some hp hprev hnext, Heap.free_cells,
    bypassNext_cells (bypassPrevious_cells_self hp hprev), bypassPrevious_cells hp]

theorem listRemoveNode_head :
    (listRemoveNode h l (some p)).2.head = if l.head = some p then n.next else l.head := by
  rw [listRemoveNode_some hp hprev hnext]; dsimp only; split_ifs <;> rfl

theorem listRemoveNode_tail :
    (listRemoveNode h l (some p)).2.tail = if l.tail = some p then n.previous else l.tail := by
  rw [listRemoveNode_some hp hprev hnext]; dsimp only; split_ifs <;> simp_all

end RemoveNode

/-- **`list_remove_node` on the cell at position `as.length` erases that position.** -/
theorem isList_listRemoveNode {h : Heap α} {l : ListHeader} {as bs : List Nat} {p : Nat}
    {ys zs : List α} {x : α} (hl : IsList h l (as ++ p :: bs) (ys ++ x :: zs))
    (hlen : as.length = ys.length) :
    IsList (listRemoveNode h l (some p)).1 (listRemoveNode h l (some p)).2
      (as ++ bs) (ys ++ zs) := by
  obtain ⟨hA, hp, hB⟩ : Seg h none as ys (some p) ∧
      h.cells p = some ⟨x, nextOf bs none, lastOf none as⟩ ∧ Seg h (some p) bs zs none := by
    simpa [seg_append h none none as (p :: bs) ys (x :: zs) hlen] using hl.seg
  obtain ⟨hndA, hndB, hdis⟩ := List.nodup_append.1 hl.nodup
  have hpa : p ∉ as := fun hm => hdis hm (List.mem_cons_self _ _)
  have hpb : p ∉ bs := (List.nodup_cons.1 hndB).1
  -- the neighbours of `p` lie in `as` and in `bs`
  have hPmem : ∀ {c}, lastOf none as = some c → c ∈ as := mem_of_lastOf_none
  have hNmem : ∀ {c}, nextOf bs none = some c → c ∈ bs := fun e =>
    List.mem_of_mem_head? (by rw [← nextOf_none, e]; rfl)
  have hP : lastOf none as ≠ some p := fun e => hpa (hPmem e)
  have hN : nextOf bs none ≠ some p := fun e => hpb (hNmem e)
  have hcells := listRemoveNode_cells (l := l) hp hP hN
  dsimp only at hcells
  have hframe : ∀ c, c ≠ p → c ∉ as → c ∉ bs ∨ nextOf bs none ≠ some c →
      (listRemoveNode h l (some p)).1.cells c = h.cells c := fun c hcp hca hcb => by
    have hcN : nextOf bs none ≠ some c := by
      rcases hcb with hcb | hcb
      · exact fun e => hcb (hNmem e)
      · exact hcb
    rw [hcells, if_neg hcp, if_neg hcN, if_neg (fun e => hca (hPmem e))]
  refine ⟨hl.nodup.sublist ((List.sublist_cons_self p bs).append_left as), ?_, ?_, ?_⟩
  · rw [listRemoveNode_head hp hP hN, hl.head_eq]
    cases as with
    | nil => simp [nextOf_none]
    | cons a as' => simp [show a ≠ p from fun e => hpa (e ▸ List.mem_cons_self _ _)]
  · rw [listRemoveNode_tail hp hP hN, hl.tail_eq]
    cases bs with
    | nil => simp
    | cons r bs1 =>
      have : lastOf (some r) bs1 ≠ some p := fun e =>
        hpb (mem_of_lastOf_none (show lastOf none (r :: bs1) = some p from e))
      simp [this]
  · rw [seg_append _ _ _ as bs ys zs hlen]
    constructor
    · rcases List.eq_nil_or_concat as with rfl | ⟨as0, q, rfl⟩
      · cases ys <;> simp_all
      · rw [List.concat_eq_append] at *
        obtain ⟨ys0, y, rfl⟩ : ∃ ys0 y, ys = ys0 ++ [y] := by
          cases ys using List.reverseRecOn with
          | nil => simp at hlen
          | append_singleton ys0 y => exact ⟨ys0, y, rfl⟩
        have hlen0 : as0.length = ys0.length := by simpa using hlen
        obtain ⟨hA0, hqc⟩ := (seg_snoc _ _ _ _ _ _ _ hlen0).1 hA
        have hqN : nextOf bs none ≠ some q := fun e =>
          hdis (List.mem_append_right _ (List.mem_singleton_self q)) (List.mem_cons_of_mem _ (hNmem e))
        have hqp : q ≠ p := fun e => hpa (by simp [e])
        rw [seg_snoc _ _ _ _ _ _ _ hlen0]
        refine ⟨hA0.frame fun c hc => ?_, ?_⟩
        · have hcq : c ≠ q := fun e => by
            rw [e] at hc; exact (List.nodup_append.1 hndA).2.2 hc (List.mem_singleton_self q)
          rw [hcells, if_neg (fun e => hpa (by simp [← e, hc])),
            if_neg (fun e => hdis (List.mem_append_left _ hc) (List.mem_cons_of_mem _ (hNmem e))),
            if_neg (by simpa using fun e => hcq e.symm)]
        · rw [hcells, if_neg hqp, if_neg hqN]; simp [hqc]
    · cases bs with
      | nil => cases zs <;> simp_all
      | cons r bs1 =>
        cases zs with
        | nil => exact absurd hB (seg_cons_nil _ _ _ _ _)
        | cons z zs1 =>
          obtain ⟨hrc, hB1⟩ := hB
          have hrP : lastOf none as ≠ some r := fun e => hdis (hPmem e) (by simp)
          have hrp : r ≠ p := fun e => hpb (by simp [e])
          refine ⟨by rw [hcells, if_neg hrp]; simp [hrP, hrc], hB1.frame fun c hc => ?_⟩
          have hcr : c ≠ r := fun e => (List.nodup_cons.1 (List.nodup_cons.1 hndB).2).1 (e ▸ hc)
          exact hframe c (fun e => hpb (by simp [← e, hc]))
            (fun hca => hdis hca (by simp [hc])) (.inr (by simpa using fun e => hcr e.symm))

/-- **`list_remove_node` on the `i`-th cell is `xs.eraseIdx i`.** -/
theorem isList_listRemoveNode_getElem {h : Heap α} {l : ListHeader} {ps : List Nat} {xs : List α}
    (hl : IsList h l ps xs) {i : Nat} (hi : i < ps.length) :
    IsList (listRemoveNode h l (some ps[i])).1 (listRemoveNode h l (some ps[i])).2
      (ps.eraseIdx i) (xs.eraseIdx i) := by
  have hlen := hl.seg.length_eq
  have hix : i < xs.length := hlen ▸ hi
  have hps : ps = ps.take i ++ ps[i] :: ps.drop (i + 1) := by
    rw [← List.drop_eq_getElem_cons, List.take_append_drop]
  have hxs : xs = xs.take i ++ xs[i] :: xs.drop (i + 1) := by
    rw [← List.drop_eq_getElem_cons, List.take_append_drop]
  rw [hps, hxs] at hl
  rw [List.eraseIdx_eq_take_drop_succ, List.eraseIdx_eq_take_drop_succ]
  exact isList_listRemoveNode hl (by simp [hlen])

/-- `list_remove_first_node` is `List.tail`. -/
theorem isList_listRemoveFirstNode {h : Heap α} {l : ListHeader} {ps : List Nat} {xs : List α}
    (hl : IsList h l ps xs) :
    IsList (listRemoveFirstNode h l).1 (listRemoveFirstNode h l).2 ps.tail xs.tail := by
  cases ps with
  | nil =>
    obtain rfl : xs = [] := List.length_eq_zero.1 hl.seg.length_eq.symm
    simpa [listRemoveFirstNode, hl.head_eq] using hl
  | cons p ps =>
    have := isList_listRemoveNode_getElem hl (i := 0) (by simp)
    cases xs <;> simp_all [listRemoveFirstNode, hl.head_eq]

/-- `list_remove_last_node` is `List.dropLast`. -/
theorem isList_listRemoveLastNode {h : Heap α} {l : ListHeader} {ps : List Nat} {xs : List α}
    (hl : IsList h l ps xs) :
    IsList (listRemoveLastNode h l).1 (listRemoveLastNode h l).2 ps.dropLast xs.dropLast := by
  cases ht : l.tail with
  | none =>
    obtain ⟨rfl, rfl⟩ := hl.eq_nil_of_tail ht
    simpa [listRemoveLastNode, ht] using hl
  | some t =>
    obtain ⟨ps0, xs0, x, rfl, rfl, hlen⟩ := hl.exists_snoc ht
    have : IsList _ _ (ps0 ++ []) (xs0 ++ []) := isList_listRemoveNode hl hlen
    simpa [listRemoveLastNode, ht] using this

/-! ## (4) Queries -/

/-- **`list_get_count` is the length of the sequence.** -/
theorem listGetCount_eq {h : Heap α} {l : ListHeader} {ps : List Nat} {xs : List α}
    (hl : IsList h l ps xs) : listGetCount h l = xs.length := by
  rw [listGetCount, hl.listForeach_eq, hl.seg.length_eq]

/-- **`list_is_empty` tells the empty sequence**, and `list_get_first_node` and
`list_get_last_node` return the first and the last cell. -/
theorem IsList.queries {h : Heap α} {l : ListHeader} {ps : List Nat} {xs : List α}
    (hl : IsList h l ps xs) :
    (listIsEmpty l = true ↔ xs = []) ∧ listGetFirstNode l = ps.head? ∧
      listGetLastNode l = ps.getLast? := by
  refine ⟨?_, hl.head_eq, by rw [listGetLastNode, hl.tail_eq, lastOf_none_eq_getLast?]⟩
  rw [listIsEmpty, hl.head_eq, Option.isNone_iff_eq_none, List.head?_eq_none_iff,
    ← List.length_eq_zero, hl.seg.length_eq, List.length_eq_zero]

variable [DecidableEq α]

/-- Searching the cells of a segment by payload finds the cell at the payload's first
position. -/
theorem find?_data {h : Heap α} (d : α) :
    ∀ {ps : List Nat} {xs : List α}, ps.map h.data = xs.map some →
      (ps.find? fun p => h.data p = some d) = ps[xs.indexOf d]?
  | [], [], _ => rfl
  | p :: ps, x :: xs, hm => by
    simp only [List.map_cons, List.cons.injEq] at hm
    by_cases e : x = d
    · simp [hm.1, e, List.indexOf_cons_self]
    · simp [hm.1, e, List.indexOf_cons_ne _ e, find?_data d hm.2]

/-- The position found by `findIdx?` over the cells is the payload's first position. -/
theorem findIdx?_data {h : Heap α} (d : α) :
    ∀ {ps : List Nat} {xs : List α}, ps.map h.data = xs.map some →
      (ps.findIdx? fun p => h.data p = some d) = if d ∈ xs then some (xs.indexOf d) else none
  | [], [], _ => rfl
  | p :: ps, x :: xs, hm => by
    simp only [List.map_cons, List.cons.injEq] at hm
    by_cases e : x = d
    · simp [hm.1, e, List.indexOf_cons_self]
    · rw [List.findIdx?_cons, List.findIdx?_succ, findIdx?_data d hm.2]
      by_cases hd : d ∈ xs <;> simp [hm.1, e, hd, List.indexOf_cons_ne _ e, Ne.symm e]

/-- **`list_find_first_occurrence` returns the cell at the first position holding `d`**, and
`NULL` when there is none. -/
theorem listFindFirstOccurrence_eq {h : Heap α} {l : ListHeader} {ps : List Nat} {xs : List α}
    (hl : IsList h l ps xs) (d : α) : listFindFirstOccurrence h l d = ps[xs.indexOf d]? := by
  rw [listFindFirstOccurrence, hl.listForeach_eq, find?_data d hl.seg.map_data]

/-- **`list_find_first_occurrence_index` returns the first position holding `d`**, `-1` when
there is none. -/
theorem listFindFirstOccurrenceIndex_eq {h : Heap α} {l : ListHeader} {ps : List Nat}
    {xs : List α} (hl : IsList h l ps xs) (d : α) :
    listFindFirstOccurrenceIndex h l d = if d ∈ xs then (xs.indexOf d : Int) else -1 := by
  rw [listFindFirstOccurrenceIndex, hl.listForeach_eq, findIdx?_data d hl.seg.map_data]
  split_ifs <;> rfl

theorem erase_eq_eraseIdx_indexOf (xs : List α) (d : α) : xs.erase d = xs.eraseIdx (xs.indexOf d) := by
  induction xs with
  | nil => rfl
  | cons x xs ih =>
    by_cases e : x = d
    · subst e; rw [List.indexOf_cons_self, List.eraseIdx_cons_zero, List.erase_cons_head]
    · rw [List.indexOf_cons_ne _ e, List.eraseIdx_cons_succ, ← ih]
      exact List.erase_cons_tail (by simpa using e)

/-- **`list_remove_first_occurrence` is `List.erase`.** -/
theorem isList_listRemoveFirstOccurrence {h : Heap α} {l : ListHeader} {ps : List Nat}
    {xs : List α} (hl : IsList h l ps xs) (d : α) :
    IsList (listRemoveFirstOccurrence h l d).1 (listRemoveFirstOccurrence h l d).2
      (ps.eraseIdx (xs.indexOf d)) (xs.erase d) := by
  rw [erase_eq_eraseIdx_indexOf]
  unfold listRemoveFirstOccurrence
  rw [listFindFirstOccurrence_eq hl]
  by_cases hd : xs.indexOf d < ps.length
  · rw [List.getElem?_eq_getElem hd]
    exact isList_listRemoveNode_getElem hl hd
  · have hlen := hl.seg.length_eq
    rw [List.getElem?_eq_none (by omega), List.eraseIdx_of_length_le (by omega),
      List.eraseIdx_of_length_le (by omega)]
    exact hl

end Asterisk.LinkedList
