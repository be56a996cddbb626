import Mathlib.Data.Finset.Card
import Mathlib.Logic.Function.Basic

/-! # The intrusive doubly-linked list of `list.c` over a heap of cells

`list.c` keeps a `List` header (`head`, `tail`) and `ListNode` cells (`data`, `next`,
`previous`) obtained from `kmalloc`. This file models the cells as a heap from addresses to
cells, `NULL` as `none`, and each function of `list.c` as a function of the heap and the header:

* **`Heap`** — the allocated cells; it carries a `bound` above which nothing is allocated, so a
  walk along `next` over distinct cells needs fewer than `bound` steps (`walk` takes it as fuel).
* **`listAppend`, `listPrepend`, `listRemoveNode`, `listClear`, `listCreateClone`, ...** — the
  C functions statement by statement; an allocation is the address `kmalloc` returned, passed in.
* **`Seg`** — the shape predicate: the cells at addresses `ps` hold payloads `xs` in order, each
  `previous` pointing at its predecessor and each `next` at its successor; `IsList` adds the
  header and distinctness of the addresses.

The spec lemmas of the operations, and the refinement of the abstract sequence, are in
`LinkedList.Refinement`. -/

namespace Asterisk.LinkedList

variable {α : Type}

/-! ## (1) Cells, headers and the heap -/

/-- A `ListNode`: its payload and its `next` and `previous` pointers (`none` is `NULL`). -/
structure ListNode (α : Type) where
  data : α
  next : Option Nat
  previous : Option Nat
  deriving DecidableEq, Repr

/-- The `List` header of `list.c`: pointers to the first and to the last cell. -/
structure ListHeader where
  head : Option Nat
  tail : Option Nat
  deriving DecidableEq, Repr

/-- The cells obtained from `kmalloc`, by address. Every address at or above `bound` is free. -/
structure Heap (α : Type) where
  cells : Nat → Option (ListNode α)
  bound : Nat
  cells_ge_bound : ∀ p, bound ≤ p → cells p = none

namespace Heap

/-- The heap with no cell allocated. -/
def empty : Heap α := ⟨fun _ => none, 0, fun _ _ => rfl⟩

/-- Store the cell `n` at address `p` (a fresh allocation or an update in place). -/
def set (h : Heap α) (p : Nat) (n : ListNode α) : Heap α where
  cells := Function.update h.cells p (some n)
  bound := max h.bound (p + 1)
  cells_ge_bound q hq := by
    rw [Function.update_noteq (by omega)]
    exact h.cells_ge_bound q (by omega)

/-- `kfree` of the cell at `p`. -/
def free (h : Heap α) (p : Nat) : Heap α where
  cells := Function.update h.cells p none
  bound := h.bound
  cells_ge_bound q hq := by
    by_cases e : q = p
    · subst e; simp
    · rw [Function.update_noteq e]; exact h.cells_ge_bound q hq

/-- `p->next`, `NULL` when no cell is at `p`. -/
def next (h : Heap α) (p : Nat) : Option Nat := (h.cells p).bind ListNode.next

/-- `p->previous`, `NULL` when no cell is at `p`. -/
def previous (h : Heap α) (p : Nat) : Option Nat := (h.cells p).bind ListNode.previous

/-- `p->data`. -/
def data (h : Heap α) (p : Nat) : Option α := (h.cells p).map ListNode.data

/-- `p->next = q`; a write through an unallocated `p` changes nothing in the model. -/
def setNext (h : Heap α) (p : Nat) (q : Option Nat) : Heap α :=
  match h.cells p with
  | some n => h.set p { n with next := q }
  | none => h

/-- `p->previous = q`. -/
def setPrevious (h : Heap α) (p : Nat) (q : Option Nat) : Heap α :=
  match h.cells p with
  | some n => h.set p { n with previous := q }
  | none => h

@[simp] theorem set_cells (h : Heap α) (p q : Nat) (n : ListNode α) :
    (h.set p n).cells q = if q = p then some n else h.cells q := by
  simp [set, Function.update_apply]

@[simp] theorem free_cells (h : Heap α) (p q : Nat) :
    (h.free p).cells q = if q = p then none else h.cells q := by
  simp [free, Function.update_apply]

@[simp] theorem setNext_cells (h : Heap α) (p : Nat) (v : Option Nat) (q : Nat) :
    (h.setNext p v).cells q =
      if q = p then (h.cells p).map ({ · with next := v }) else h.cells q := by
  unfold setNext
  split <;> by_cases e : q = p <;> simp_all

@[simp] theorem setPrevious_cells (h : Heap α) (p : Nat) (v : Option Nat) (q : Nat) :
    (h.setPrevious p v).cells q =
      if q = p then (h.cells p).map ({ · with previous := v }) else h.cells q := by
  unfold setPrevious
  split <;> by_cases e : q = p <;> simp_all

/-- An allocated address lies below `bound`. -/
theorem lt_bound_of_cells {h : Heap α} {p : Nat} {n : ListNode α} (hp : h.cells p = some n) :
    p < h.bound := by
  by_contra hge
  rw [h.cells_ge_bound p (by omega)] at hp
  cases hp

end Heap

/-! ## (2) Walking along `next`

The `list_foreach` macro visits the cells from `head` along `next` until `NULL`. The model walks
with fuel `bound`: on a well-formed list every visited cell is distinct and allocated, so the
fuel never runs out (`walk_of_seg` in `LinkedList.Refinement`). -/

/-- The addresses visited from `p` along `next`, for at most `fuel` steps. -/
def walk (h : Heap α) : Nat → Option Nat → List Nat
  | 0, _ => []
  | _ + 1, none => []
  | fuel + 1, some p => p :: walk h fuel (h.next p)

/-- `list_foreach (n, list)`: the addresses of the cells, from `head` along `next`. -/
def listForeach (h : Heap α) (l : ListHeader) : List Nat := walk h h.bound l.head

/-! ## (3) The functions of `list.c` -/

/-- `list_create`: a zeroed header. -/
def listCreate : ListHeader := ⟨none, none⟩

/-- `list_append`: the new cell `p` (from `kmalloc`, zeroed, holding `d`) is linked after the
tail, or becomes head and tail of an empty list. -/
def listAppend (h : Heap α) (l : ListHeader) (d : α) (p : Nat) : Heap α × ListHeader :=
  let h := h.set p ⟨d, none, none⟩
  match l.tail with
  | none => (h, ⟨some p, some p⟩)
  | some t =>
    let h := h.setPrevious p (some t)
    (h.setNext t (some p), { l with tail := some p })

/-- `list_is_empty`: the `head` is `NULL`. -/
def listIsEmpty (l : ListHeader) : Bool := l.head.isNone

/-- `list_get_first_node`. -/
def listGetFirstNode (l : ListHeader) : Option Nat := l.head

/-- `list_get_last_node`. -/
def listGetLastNode (l : ListHeader) : Option Nat := l.tail

/-- `list_prepend`: the new cell `p` is linked before the head. -/
def listPrepend (h : Heap α) (l : ListHeader) (d : α) (p : Nat) : Heap α × ListHeader :=
  let h := h.set p ⟨d, none, none⟩
  match l.tail with
  | none => (h, ⟨some p, some p⟩)
  | some _ =>
    let h := h.setNext p l.head
    let h := match l.head with
      | some q => h.setPrevious q (some p)
      | none => h
    (h, { l with head := some p })

/-- `if (NULL != node->previous) node->previous->next = node->next;` -/
def bypassPrevious (h : Heap α) (p : Nat) : Heap α :=
  match h.previous p with
  | some q => h.setNext q (h.next p)
  | none => h

/-- `if (NULL != node->next) node->next->previous = node->previous;` -/
def bypassNext (h : Heap α) (p : Nat) : Heap α :=
  match h.next p with
  | some r => h.setPrevious r (h.previous p)
  | none => h

/-- `list_remove_node`: unlink the cell `p` from its neighbours, move `head`/`tail` off it, and
free it. Each pointer is re-read from the heap as the C code re-reads it. -/
def listRemoveNode (h : Heap α) (l : ListHeader) : Option Nat → Heap α × ListHeader
  | none => (h, l)
  | some p =>
    let h := bypassNext (bypassPrevious h p) p
    let l := if l.head = some p then { l with head := h.next p } else l
    let l := if l.tail = some p then { l with tail := h.previous p } else l
    (h.free p, l)

/-- `list_remove_first_node`. -/
def listRemoveFirstNode (h : Heap α) (l : ListHeader) : Heap α × ListHeader :=
  if l.head.isSome then listRemoveNode h l l.head else (h, l)

/-- `list_remove_last_node`. -/
def listRemoveLastNode (h : Heap α) (l : ListHeader) : Heap α × ListHeader :=
  if l.tail.isSome then listRemoveNode h l l.tail else (h, l)

variable [DecidableEq α]

/-- `list_find_first_occurrence`: the first visited cell whose payload is `d`. -/
def listFindFirstOccurrence (h : Heap α) (l : ListHeader) (d : α) : Option Nat :=
  (listForeach h l).find? fun p => h.data p = some d

/-- `list_find_first_occurrence_index`: the position of that cell, `-1` when there is none. -/
def listFindFirstOccurrenceIndex (h : Heap α) (l : ListHeader) (d : α) : Int :=
  match (listForeach h l).findIdx? fun p => h.data p = some d with
  | some i => i
  | none => -1

/-- `list_get_count`: one increment per visited cell. -/
def listGetCount (h : Heap α) (l : ListHeader) : Nat := (listForeach h l).length

/-- `list_remove_first_occurrence`. -/
def listRemoveFirstOccurrence (h : Heap α) (l : ListHeader) (d : α) : Heap α × ListHeader :=
  match listFindFirstOccurrence h l d with
  | some p => listRemoveNode h l (some p)
  | none => (h, l)

/-- The loop of `list_clear`: read `next`, free the cell, continue. -/
def clearFrom (h : Heap α) : Nat → Option Nat → Heap α
  | 0, _ => h
  | _ + 1, none => h
  | fuel + 1, some p => clearFrom (h.free p) fuel (h.next p)

/-- `list_clear`: free every cell, then reset the header. -/
def listClear (h : Heap α) (l : ListHeader) : Heap α × ListHeader :=
  (clearFrom h h.bound l.head, listCreate)

/-- `list_destroy`: `list_clear`, then `kfree` of the header, which the model keeps outside the
heap. -/
def listDestroy (h : Heap α) (l : ListHeader) : Heap α := (listClear h l).1

/-- The loop of `list_create_clone`: append each visited payload to `acc`, the `kmalloc`
results for the new cells being `qs` in order. -/
def cloneFrom (h : Heap α) (acc : ListHeader) : Nat → Option Nat → List Nat → Heap α × ListHeader
  | 0, _, _ => (h, acc)
  | _ + 1, none, _ => (h, acc)
  | fuel + 1, some p, qs =>
    match h.cells p, qs with
    | some n, q :: qs =>
      let r := listAppend h acc n.data q
      cloneFrom r.1 r.2 fuel n.next qs
    | _, _ => (h, acc)

/-- `list_create_clone`: a new list holding the same payloads in the same order. -/
def listCreateClone (h : Heap α) (l : ListHeader) (qs : List Nat) : Heap α × ListHeader :=
  cloneFrom h listCreate h.bound l.head qs

/-- `queue_create` and `stack_create`: a `Queue` or `Stack` holding a new list, which stands for
it. -/
def queueCreate : ListHeader := listCreate

/-- `stack_create`. -/
def stackCreate : ListHeader := listCreate

/-- `queue_clear`: `list_clear` of the queue's list. -/
def queueClear (h : Heap α) (l : ListHeader) : Heap α × ListHeader := listClear h l

/-- `stack_clear`: `list_clear` of the stack's list. -/
def stackClear (h : Heap α) (l : ListHeader) : Heap α × ListHeader := listClear h l

/-- `queue_destroy`: `list_destroy` of the queue's list, then `kfree` of the `Queue`. -/
def queueDestroy (h : Heap α) (l : ListHeader) : Heap α := listDestroy h l

/-- `stack_destroy`: `list_destroy` of the stack's list, then `kfree` of the `Stack`. -/
def stackDestroy (h : Heap α) (l : ListHeader) : Heap α := listDestroy h l

/-- `queue_is_empty`: `list_is_empty` of the queue's list. -/
def queueIsEmpty (l : ListHeader) : Bool := listIsEmpty l

/-- `stack_is_empty`: `list_is_empty` of the stack's list. -/
def stackIsEmpty (l : ListHeader) : Bool := listIsEmpty l

/-- `queue_enqueue` is `list_append`. -/
def queueEnqueue (h : Heap α) (l : ListHeader) (d : α) (p : Nat) : Heap α × ListHeader :=
  listAppend h l d p

/-- `queue_dequeue` (and `stack_pop`): the payload of the first cell, which is removed; `NULL`
on an empty list. -/
def queueDequeue (h : Heap α) (l : ListHeader) : Option α × Heap α × ListHeader :=
  match l.head with
  | some p => (h.data p, listRemoveNode h l (some p))
  | none => (none, h, l)

/-- `stack_push` is `list_prepend`. -/
def stackPush (h : Heap α) (l : ListHeader) (d : α) (p : Nat) : Heap α × ListHeader :=
  listPrepend h l d p

/-- `stack_pop` has the body of `queue_dequeue`. -/
def stackPop (h : Heap α) (l : ListHeader) : Option α × Heap α × ListHeader :=
  queueDequeue h l

end Asterisk.LinkedList
