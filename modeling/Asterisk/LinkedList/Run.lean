import Asterisk.LinkedList.Refinement
import Mathlib.Data.List.ReduceOption

/-! # Runs of the list API

`list_clear` frees exactly the cells of the list, and `list_create_clone` builds a second list
with the same payloads in fresh cells without touching the first. A run of the list API from
`list_create` — appends and prepends at any fresh address, removals at any position, by value,
at either end, clears, and `queue_dequeue`/`stack_pop` — keeps a well-formed list whose payloads
follow the abstract run on `List α` (`isList_of_run`); the FIFO discipline of the queue and the
LIFO discipline of the stack are consequences. -/

namespace Asterisk.LinkedList

variable {α : Type}

/-! ## (1) `list_clear` -/

/-- The loop of `list_clear` frees exactly the cells of a segment ending in `NULL`. -/
theorem clearFrom_cells {h : Heap α} :
    ∀ {prev : Option Nat} {ps : List Nat} {xs : List α} {fuel : Nat},
      Seg h prev ps xs none → ps.Nodup → ps.length ≤ fuel →
      ∀ c, (clearFrom h fuel ps.head?).cells c = if c ∈ ps then none else h.cells c
  | _, [], [], 0, _, _, _, _ => by simp [clearFrom]
  | _, [], [], _ + 1, _, _, _, _ => by simp [clearFrom]
  | _, _ :: _, _ :: _, 0, _, _, hf, _ => by simp at hf
  | _, p :: ps, _ :: _, fuel + 1, ⟨hp, hs⟩, hnd, hf, c => by
    have hpn := (List.nodup_cons.1 hnd).1
    have hn : h.next p = ps.head? := by cases ps <;> simp [Heap.next, hp]
    have hs' : Seg (h.free p) (some p) ps _ none :=
      hs.frame fun q hq => by simp [show q ≠ p from fun e => hpn (e ▸ hq)]
    simp only [List.head?_cons, clearFrom, hn]
    rw [clearFrom_cells hs' (List.nodup_cons.1 hnd).2 (by simpa using hf), Heap.free_cells]
    by_cases e : c = p <;> simp [e]

/-- **`list_clear` empties the list and frees exactly its cells.** -/
theorem listClear_spec {h : Heap α} {l : ListHeader} {ps : List Nat} {xs : List α}
    (hl : IsList h l ps xs) :
    IsList (listClear h l).1 (listClear h l).2 [] [] ∧
      ∀ c, (listClear h l).1.cells c = if c ∈ ps then none else h.cells c := by
  refine ⟨isList_listCreate _, fun c => ?_⟩
  rw [listClear, hl.head_eq]
  exact clearFrom_cells hl.seg hl.nodup hl.length_le_bound c

/-! ## (2) `list_create_clone` -/

/-- `list_append` changes only the new cell and the old tail. -/
theorem listAppend_cells_of_ne {h : Heap α} {l : ListHeader} {d : α} {p c : Nat} (hcp : c ≠ p)
    (hct : l.tail ≠ some c) : (listAppend h l d p).1.cells c = h.cells c := by
  cases ht : l.tail with
  | none => simp [listAppend_of_tail_none ht, hcp]
  | some t =>
    have hct' : c ≠ t := fun e => hct (by rw [ht, e])
    simp [listAppend_of_tail_some ht, hcp, hct']

/-- **The loop of `list_create_clone`**: appending the payloads of a segment to a list `acc`,
with fresh cells `qs`, extends `acc` by them and changes no cell outside `acc` and `qs`. -/
theorem cloneFrom_spec :
    ∀ {h : Heap α} {acc : ListHeader} {done : List Nat} {zs : List α} {prev : Option Nat}
      {rest : List Nat} {ys : List α} {qs : List Nat} {fuel : Nat},
      IsList h acc done zs → Seg h prev rest ys none → (∀ c ∈ rest, c ∉ done) →
      (∀ q ∈ qs, h.cells q = none) → qs.Nodup → rest.length ≤ fuel → ys.length ≤ qs.length →
      IsList (cloneFrom h acc fuel rest.head? qs).1 (cloneFrom h acc fuel rest.head? qs).2
        (done ++ qs.take ys.length) (zs ++ ys) ∧
      ∀ c, c ∉ done → c ∉ qs → (cloneFrom h acc fuel rest.head? qs).1.cells c = h.cells c
  | _, _, _, _, _, [], [], _, 0, hacc, _, _, _, _, _, _ => by simpa [cloneFrom] using hacc
  | _, _, _, _, _, [], [], _, _ + 1, hacc, _, _, _, _, _, _ => by simpa [cloneFrom] using hacc
  | _, _, _, _, _, _ :: _, _ :: _, _, 0, _, _, _, _, _, hf, _ => by simp at hf
  | _, _, _, _, _, _ :: _, _ :: _, [], _ + 1, _, _, _, _, _, _, hq => by simp at hq
  | h, acc, done, zs, prev, p :: rest, y :: ys, q :: qs, fuel + 1, hacc, ⟨hp, hs⟩, hdis, hfree,
      hnd, hf, hq => by
    have hqfree := hfree q (List.mem_cons_self _ _)
    have hqp : q ∉ p :: rest :=
      (show Seg h prev (p :: rest) (y :: ys) none from ⟨hp, hs⟩).not_mem hqfree
    have hqd : ∀ c ∈ q :: qs, c ∉ done := fun c hc hcd => by
      simpa [hfree c hc] using hacc.seg.isSome c hcd
    have htail : ∀ c, acc.tail = some c → c ∈ done := fun c e =>
      mem_of_lastOf_none (hacc.tail_eq ▸ e)
    -- one append, then the induction hypothesis on the rest of the segment
    have hacc' := isList_listAppend hacc hqfree y
    have hkeep : ∀ c, c ≠ q → c ∉ done →
        (listAppend h acc y q).1.cells c = h.cells c := fun c hcq hcd =>
      listAppend_cells_of_ne hcq fun e => hcd (htail c e)
    have hs' : Seg (listAppend h acc y q).1 (some p) rest ys none :=
      hs.frame fun c hc => hkeep c (fun e => hqp (List.mem_cons_of_mem _ (e ▸ hc)))
        (hdis c (List.mem_cons_of_mem _ hc))
    obtain ⟨ih1, ih2⟩ := cloneFrom_spec hacc' hs'
      (fun c hc hcd => by
        rcases List.mem_append.1 hcd with hcd | hcd
        · exact hdis c (List.mem_cons_of_mem _ hc) hcd
        · exact hqp (List.mem_cons_of_mem _ (by simpa using (List.mem_singleton.1 hcd) ▸ hc)))
      (fun c hc => by
        rw [hkeep c (fun e => (List.nodup_cons.1 hnd).1 (e ▸ hc)) (hqd c (List.mem_cons_of_mem _ hc))]
        exact hfree c (List.mem_cons_of_mem _ hc))
      (List.nodup_cons.1 hnd).2 (by simpa using hf) (by simpa using hq)
    simp only [List.head?_cons, cloneFrom, hp, nextOf_none]
    refine ⟨by simpa using ih1, fun c hcd hcq => ?_⟩
    have hcq' : c ≠ q := fun e => hcq (e ▸ List.mem_cons_self _ _)
    rw [ih2 c (by simp [hcd, hcq']) (fun e => hcq (List.mem_cons_of_mem _ e))]
    exact hkeep c hcq' hcd

/-- **`list_create_clone` yields a new list with the same payloads**, in the fresh cells `qs`
(the addresses `kmalloc` returns), and leaves the original list as it was. -/
theorem listCreateClone_spec {h : Heap α} {l : ListHeader} {ps : List Nat} {xs : List α}
    (hl : IsList h l ps xs) {qs : List Nat} (hfree : ∀ q ∈ qs, h.cells q = none) (hnd : qs.Nodup)
    (hq : xs.length ≤ qs.length) :
    IsList (listCreateClone h l qs).1 (listCreateClone h l qs).2 (qs.take xs.length) xs ∧
      IsList (listCreateClone h l qs).1 l ps xs := by
  have hclone := cloneFrom_spec (isList_listCreate h) hl.seg (by simp) hfree hnd
    hl.length_le_bound hq
  rw [← hl.head_eq] at hclone
  refine ⟨by simpa using hclone.1, ⟨hl.nodup, hl.head_eq, hl.tail_eq, hl.seg.frame fun c hc => ?_⟩⟩
  exact hclone.2 c (List.not_mem_nil c) fun hcq => by simpa [hfree c hcq] using hl.seg.isSome c hc

/-! ## (3) `queue_dequeue` and `stack_pop` -/

/-- **`queue_dequeue` returns the first payload and leaves the rest**; `NULL` on an empty list. -/
theorem queueDequeue_spec {h : Heap α} {l : ListHeader} {ps : List Nat} {xs : List α}
    (hl : IsList h l ps xs) :
    (queueDequeue h l).1 = xs.head? ∧
      IsList (queueDequeue h l).2.1 (queueDequeue h l).2.2 ps.tail xs.tail := by
  cases ps with
  | nil =>
    obtain rfl : xs = [] := List.length_eq_zero.1 hl.seg.length_eq.symm
    simpa [queueDequeue, hl.head_eq] using hl
  | cons p ps =>
    cases xs with
    | nil => exact absurd hl.seg (seg_cons_nil _ _ _ _ _)
    | cons x xs =>
      have hrm := isList_listRemoveNode_getElem hl (i := 0) (by simp)
      simp only [queueDequeue, hl.head_eq, List.head?_cons]
      exact ⟨by simp [Heap.data, hl.seg.1], by simpa using hrm⟩

/-! ## (4) Runs -/

/-- The operations of the list API, named by what they do to the sequence of payloads. -/
inductive ListOp (α : Type)
  /-- `list_append`, `queue_enqueue`. -/
  | append (d : α)
  /-- `list_prepend`, `stack_push`. -/
  | prepend (d : α)
  /-- `list_remove_node` on the `i`-th cell of the list. -/
  | removeAt (i : Nat)
  /-- `list_remove_first_node`. -/
  | removeFirst
  /-- `list_remove_last_node`. -/
  | removeLast
  /-- `list_remove_first_occurrence`. -/
  | removeFirstOccurrence (d : α)
  /-- `list_clear`. -/
  | clear
  /-- `queue_dequeue`, `stack_pop`. -/
  | dequeue
  deriving DecidableEq, Repr

variable [DecidableEq α]

/-- The abstract effect of an operation on the sequence of payloads. -/
def ListOp.apply : ListOp α → List α → List α
  | .append d, xs => xs ++ [d]
  | .prepend d, xs => d :: xs
  | .removeAt i, xs => xs.eraseIdx i
  | .removeFirst, xs => xs.tail
  | .removeLast, xs => xs.dropLast
  | .removeFirstOccurrence d, xs => xs.erase d
  | .clear, _ => []
  | .dequeue, xs => xs.tail

/-- The payload an operation returns: only a dequeue returns one, the first. -/
def ListOp.result : ListOp α → List α → Option α
  | .dequeue, xs => xs.head?
  | _, _ => none

/-- The abstract run: the returned payloads and the final sequence. -/
def absRun : List (ListOp α) → List α → List (Option α) × List α
  | [], xs => ([], xs)
  | o :: os, xs => let r := absRun os (o.apply xs); (o.result xs :: r.1, r.2)

/-- **One call of the list API** on a heap and a header: the operation, the payload it returns,
and the resulting heap and header. A new cell is any address `kmalloc` may return (one free in
the heap); `list_remove_node` is called on a cell of the list. -/
inductive ListStep : Heap α × ListHeader → ListOp α → Option α → Heap α × ListHeader → Prop
  | append {h : Heap α} {l : ListHeader} {p : Nat} (d : α) :
      h.cells p = none → ListStep (h, l) (.append d) none (listAppend h l d p)
  | prepend {h : Heap α} {l : ListHeader} {p : Nat} (d : α) :
      h.cells p = none → ListStep (h, l) (.prepend d) none (listPrepend h l d p)
  | removeAt {h : Heap α} {l : ListHeader} {i : Nat} :
      i < listGetCount h l →
      ListStep (h, l) (.removeAt i) none (listRemoveNode h l (listForeach h l)[i]?)
  | removeFirst (h : Heap α) (l : ListHeader) :
      ListStep (h, l) .removeFirst none (listRemoveFirstNode h l)
  | removeLast (h : Heap α) (l : ListHeader) :
      ListStep (h, l) .removeLast none (listRemoveLastNode h l)
  | removeFirstOccurrence (h : Heap α) (l : ListHeader) (d : α) :
      ListStep (h, l) (.removeFirstOccurrence d) none (listRemoveFirstOccurrence h l d)
  | clear (h : Heap α) (l : ListHeader) : ListStep (h, l) .clear none (listClear h l)
  | dequeue (h : Heap α) (l : ListHeader) :
      ListStep (h, l) .dequeue (queueDequeue h l).1 (queueDequeue h l).2

/-- A run of calls, with the payloads they return. -/
inductive ListRun : Heap α × ListHeader → List (ListOp α) → List (Option α) →
    Heap α × ListHeader → Prop
  | nil (s : Heap α × ListHeader) : ListRun s [] [] s
  | cons {s s' s'' : Heap α × ListHeader} {o : ListOp α} {r : Option α} {os : List (ListOp α)}
      {rs : List (Option α)} : ListStep s o r s' → ListRun s' os rs s'' → ListRun s (o :: os) (r :: rs) s''

/-- **Step lemma**: each call keeps the list well formed and acts on its payloads as the abstract
operation. -/
theorem isList_of_step {s s' : Heap α × ListHeader} {o : ListOp α} {r : Option α}
    (hs : ListStep s o r s') {ps : List Nat} {xs : List α} (hl : IsList s.1 s.2 ps xs) :
    ∃ ps', IsList s'.1 s'.2 ps' (o.apply xs) ∧ r = o.result xs := by
  cases hs with
  | append d hp => exact ⟨_, isList_listAppend hl hp d, rfl⟩
  | prepend d hp => exact ⟨_, isList_listPrepend hl hp d, rfl⟩
  | removeAt hi =>
    rw [listGetCount, hl.listForeach_eq] at hi
    rw [hl.listForeach_eq, List.getElem?_eq_getElem hi]
    exact ⟨_, isList_listRemoveNode_getElem hl hi, rfl⟩
  | removeFirst => exact ⟨_, isList_listRemoveFirstNode hl, rfl⟩
  | removeLast => exact ⟨_, isList_listRemoveLastNode hl, rfl⟩
  | removeFirstOccurrence h l d => exact ⟨_, isList_listRemoveFirstOccurrence hl d, rfl⟩
  | clear => exact ⟨_, (listClear_spec hl).1, rfl⟩
  | dequeue => exact ⟨_, (queueDequeue_spec hl).2, (queueDequeue_spec hl).1⟩

/-- **Run lemma**: along any run the list stays well formed, its payloads follow the abstract
run, and the returned payloads are the abstract ones. -/
theorem isList_of_run {s s' : Heap α × ListHeader} {os : List (ListOp α)} {rs : List (Option α)}
    (hr : ListRun s os rs s') :
    ∀ {ps : List Nat} {xs : List α}, IsList s.1 s.2 ps xs →
      ∃ ps', IsList s'.1 s'.2 ps' (absRun os xs).2 ∧ rs = (absRun os xs).1 := by
  induction hr with
  | nil => exact fun hl => ⟨_, hl, rfl⟩
  | cons hs _ ih =>
    intro ps xs hl
    obtain ⟨ps1, hl1, rfl⟩ := isList_of_step hs hl
    obtain ⟨ps2, hl2, rfl⟩ := ih hl1
    exact ⟨ps2, hl2, rfl⟩

/-- The payloads appended by a run. -/
def enqueued : List (ListOp α) → List α
  | [] => []
  | .append d :: os => d :: enqueued os
  | _ :: os => enqueued os

/-- **FIFO**: in an abstract run of appends and dequeues, the dequeued payloads followed by what
is still queued are the queued payloads followed by the enqueued ones, in order. -/
theorem absRun_fifo : ∀ (os : List (ListOp α)), (∀ o ∈ os, o = .dequeue ∨ ∃ d, o = .append d) →
    ∀ xs, (absRun os xs).1.reduceOption ++ (absRun os xs).2 = xs ++ enqueued os
  | [], _, xs => by simp [absRun, enqueued, List.reduceOption_nil]
  | o :: os, hos, xs => by
    have ih := absRun_fifo os fun o ho => hos o (List.mem_cons_of_mem _ ho)
    rcases hos o (List.mem_cons_self _ _) with rfl | ⟨d, rfl⟩
    · cases xs with
      | nil => simpa [absRun, ListOp.apply, ListOp.result, enqueued,
          List.reduceOption_cons_of_none] using ih []
      | cons x xs => simpa [absRun, ListOp.apply, ListOp.result, enqueued,
          List.reduceOption_cons_of_some] using ih xs
    · simpa [absRun, ListOp.apply, ListOp.result, enqueued, List.reduceOption_cons_of_none]
        using ih (xs ++ [d])

theorem absRun_prepends (ds : List α) (os : List (ListOp α)) (xs : List α) :
    absRun (ds.map .prepend ++ os) xs =
      (List.replicate ds.length none ++ (absRun os (ds.reverse ++ xs)).1,
        (absRun os (ds.reverse ++ xs)).2) := by
  induction ds generalizing xs with
  | nil => rfl
  | cons d ds ih => simp [absRun, ListOp.apply, ListOp.result, ih, List.replicate_succ]

theorem absRun_dequeues (xs : List α) :
    (absRun (List.replicate xs.length .dequeue) xs).1 = xs.map some := by
  induction xs with
  | nil => rfl
  | cons x xs ih => simp [absRun, ListOp.apply, ListOp.result, List.replicate_succ, ih]

/-- **LIFO**: pushing `ds` on an empty stack and popping as many times returns `ds` reversed. -/
theorem absRun_lifo (ds : List α) :
    (absRun (ds.map .prepend ++ List.replicate ds.length .dequeue) []).1.reduceOption =
      ds.reverse := by
  have := absRun_dequeues ds.reverse
  rw [List.length_reverse] at this
  rw [absRun_prepends, List.append_nil, this, List.reduceOption_append]
  simp [List.reduceOption]

/-! ## (5) The list API refines `List α` -/

/-- **`list.c` refines the abstract sequence.** Along every run of the list API from
`list_create` the cells form a well-formed doubly-linked list whose payloads follow the abstract
run, and the dequeued payloads are the abstract ones; on a well-formed list `list_foreach`
visits every cell once, `head` and `tail` are `NULL` together, the tail's `next` is `NULL`, and
the queries return the length and the first position of a payload; `list_create_clone` builds a
list of the same payloads in fresh cells and leaves the original intact; a queue is FIFO and a
stack LIFO. -/
theorem list_refines_sequence :
    (∀ (h : Heap α) os rs s', ListRun (h, listCreate) os rs s' →
      ∃ ps, IsList s'.1 s'.2 ps (absRun os []).2 ∧ rs = (absRun os []).1) ∧
    (∀ (h : Heap α) l ps xs, IsList h l ps xs →
      listForeach h l = ps ∧ (l.head = none ↔ l.tail = none ∧ xs = []) ∧
      (∀ t, l.tail = some t → h.next t = none) ∧ listGetCount h l = xs.length ∧
      ∀ d, listFindFirstOccurrence h l d = ps[xs.indexOf d]? ∧
        listFindFirstOccurrenceIndex h l d = if d ∈ xs then (xs.indexOf d : Int) else -1) ∧
    (∀ (h : Heap α) l ps xs qs, IsList h l ps xs → (∀ q ∈ qs, h.cells q = none) → qs.Nodup →
      xs.length ≤ qs.length →
      IsList (listCreateClone h l qs).1 (listCreateClone h l qs).2 (qs.take xs.length) xs ∧
        IsList (listCreateClone h l qs).1 l ps xs) ∧
    (∀ (h : Heap α) os rs s', ListRun (h, listCreate) os rs s' →
      (∀ o ∈ os, o = .dequeue ∨ ∃ d, o = .append d) →
      ∃ ps xs, IsList s'.1 s'.2 ps xs ∧ rs.reduceOption ++ xs = enqueued os) ∧
    (∀ (h : Heap α) (ds : List α) rs s',
      ListRun (h, listCreate) (ds.map .prepend ++ List.replicate ds.length .dequeue) rs s' →
      rs.reduceOption = ds.reverse) := by
  refine ⟨fun h os rs s' hr => isList_of_run hr (isList_listCreate h), ?_, ?_, ?_, ?_⟩
  · exact fun h l ps xs hl => ⟨hl.listForeach_eq, hl.head_eq_none_iff, fun _ => hl.tail_next,
      listGetCount_eq hl, fun d => ⟨listFindFirstOccurrence_eq hl d,
        listFindFirstOccurrenceIndex_eq hl d⟩⟩
  · exact fun h l ps xs qs hl hfree hnd hq => listCreateClone_spec hl hfree hnd hq
  · intro h os rs s' hr hos
    obtain ⟨ps, hl, rfl⟩ := isList_of_run hr (isList_listCreate h)
    exact ⟨ps, _, hl, absRun_fifo os hos []⟩
  · intro h ds rs s' hr
    obtain ⟨_, _, rfl⟩ := isList_of_run hr (isList_listCreate h)
    exact absRun_lifo ds

end Asterisk.LinkedList
