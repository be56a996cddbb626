import Asterisk.LinkedList.Basic

/-! # Well-formed doubly-linked lists

`Seg h prev ps xs nxt` says that the cells at addresses `ps` hold the payloads `xs` in order,
that each `previous` points at the preceding cell (the first one at `prev`) and each `next` at
the following cell (the last one at `nxt`). A whole list is a segment from `NULL` to `NULL`
over distinct addresses whose first and last addresses are the header's `head` and `tail`
(`IsList`). This file proves the structural facts the operations need: splitting a segment at
an append (`seg_append`), the frame rule, and that `walk` follows a segment. -/

namespace Asterisk.LinkedList

variable {α : Type}

/-! ## (1) Segments -/

/-- The pointer following a cell that is followed by the cells `ps` and then by `nxt`. -/
def nextOf : List Nat → Option Nat → Option Nat
  | [], nxt => nxt
  | q :: _, _ => some q

/-- The last of the addresses `ps`, or `prev` when there is none. -/
def lastOf : Option Nat → List Nat → Option Nat
  | prev, [] => prev
  | _, p :: ps => lastOf (some p) ps

@[simp] theorem nextOf_nil (nxt : Option Nat) : nextOf [] nxt = nxt := rfl

@[simp] theorem nextOf_cons (q : Nat) (qs : List Nat) (nxt : Option Nat) :
    nextOf (q :: qs) nxt = some q := rfl

@[simp] theorem lastOf_nil (prev : Option Nat) : lastOf prev [] = prev := rfl

@[simp] theorem lastOf_cons (prev : Option Nat) (p : Nat) (ps : List Nat) :
    lastOf prev (p :: ps) = lastOf (some p) ps := rfl

theorem nextOf_append (ps qs : List Nat) (nxt : Option Nat) :
    nextOf (ps ++ qs) nxt = nextOf ps (nextOf qs nxt) := by
  cases ps <;> rfl

@[simp] theorem lastOf_append (prev : Option Nat) (ps qs : List Nat) :
    lastOf prev (ps ++ qs) = lastOf (lastOf prev ps) qs := by
  induction ps generalizing prev <;> simp [*]

/-- `lastOf none ps` is the last address, and `none` only for no address. -/
theorem lastOf_none_eq_getLast? (ps : List Nat) : lastOf none ps = ps.getLast? := by
  induction ps using List.reverseRecOn <;> simp

/-- **Segment**: the cells at `ps` hold `xs` in order, linked both ways, from `prev` to `nxt`. -/
def Seg (h : Heap α) : Option Nat → List Nat → List α → Option Nat → Prop
  | _, [], [], _ => True
  | prev, p :: ps, x :: xs, nxt =>
    h.cells p = some ⟨x, nextOf ps nxt, prev⟩ ∧ Seg h (some p) ps xs nxt
  | _, _, _, _ => False

@[simp] theorem seg_nil (h : Heap α) (prev nxt : Option Nat) : Seg h prev [] [] nxt := trivial

@[simp] theorem seg_cons (h : Heap α) (prev nxt : Option Nat) (p : Nat) (ps : List Nat) (x : α)
    (xs : List α) :
    Seg h prev (p :: ps) (x :: xs) nxt ↔
      h.cells p = some ⟨x, nextOf ps nxt, prev⟩ ∧ Seg h (some p) ps xs nxt := Iff.rfl

@[simp] theorem seg_nil_cons (h : Heap α) (prev nxt : Option Nat) (x : α) (xs : List α) :
    ¬ Seg h prev [] (x :: xs) nxt := id

@[simp] theorem seg_cons_nil (h : Heap α) (prev nxt : Option Nat) (p : Nat) (ps : List Nat) :
    ¬ Seg h prev (p :: ps) [] nxt := id

theorem Seg.length_eq {h : Heap α} {prev nxt : Option Nat} :
    ∀ {ps : List Nat} {xs : List α}, Seg h prev ps xs nxt → ps.length = xs.length
  | [], [], _ => rfl
  | _ :: _, _ :: _, hs => congrArg (· + 1) hs.2.length_eq

/-- **Splitting a segment** at the boundary of `ps ++ qs`. -/
theorem seg_append (h : Heap α) (prev nxt : Option Nat) (ps qs : List Nat) (xs ys : List α)
    (hl : ps.length = xs.length) :
    Seg h prev (ps ++ qs) (xs ++ ys) nxt ↔
      Seg h prev ps xs (nextOf qs nxt) ∧ Seg h (lastOf prev ps) qs ys nxt := by
  induction ps generalizing prev xs with
  | nil =>
    cases xs with
    | nil => simp
    | cons => simp at hl
  | cons p ps ih =>
    cases xs with
    | nil => simp at hl
    | cons x xs =>
      simp only [List.cons_append, seg_cons, nextOf_append, lastOf_cons,
        ih (some p) xs (by simpa using hl), and_assoc]

/-- Every address of a segment holds a cell. -/
theorem Seg.isSome {h : Heap α} {prev nxt : Option Nat} :
    ∀ {ps : List Nat} {xs : List α}, Seg h prev ps xs nxt → ∀ q ∈ ps, (h.cells q).isSome
  | [], [], _, _, hq => by simp at hq
  | _ :: _, _ :: _, ⟨hp, hs⟩, q, hq => by
    rcases List.mem_cons.1 hq with rfl | hq
    · simp [hp]
    · exact hs.isSome q hq

/-- A free address is not in a segment. -/
theorem Seg.not_mem {h : Heap α} {prev nxt : Option Nat} {ps : List Nat} {xs : List α}
    (hs : Seg h prev ps xs nxt) {q : Nat} (hq : h.cells q = none) : q ∉ ps := fun hm => by
  simpa [hq] using hs.isSome q hm

/-- **Frame rule**: a segment only depends on the cells at its own addresses. -/
theorem Seg.frame {h h' : Heap α} {prev nxt : Option Nat} :
    ∀ {ps : List Nat} {xs : List α}, Seg h prev ps xs nxt →
      (∀ q ∈ ps, h'.cells q = h.cells q) → Seg h' prev ps xs nxt
  | [], [], _, _ => trivial
  | _ :: _, _ :: _, ⟨hp, hs⟩, hf =>
    ⟨(hf _ (List.mem_cons_self _ _)).trans hp,
      hs.frame fun q hq => hf q (List.mem_cons_of_mem _ hq)⟩

/-! ## (2) Whole lists -/

/-- **A well-formed list**: distinct addresses `ps` forming a segment from `NULL` to `NULL`,
`head` the first and `tail` the last of them; its payloads are `xs`. -/
structure IsList (h : Heap α) (l : ListHeader) (ps : List Nat) (xs : List α) : Prop where
  nodup : ps.Nodup
  head_eq : l.head = ps.head?
  tail_eq : l.tail = lastOf none ps
  seg : Seg h none ps xs none

/-- The empty list: `list_create` on any heap. -/
theorem isList_listCreate (h : Heap α) : IsList h listCreate [] [] :=
  ⟨List.nodup_nil, rfl, rfl, trivial⟩

/-- **`head` and `tail` are `NULL` together**, exactly for the empty list. -/
theorem IsList.head_eq_none_iff {h : Heap α} {l : ListHeader} {ps : List Nat} {xs : List α}
    (hl : IsList h l ps xs) : l.head = none ↔ l.tail = none ∧ xs = [] := by
  have hlen := hl.seg.length_eq
  rw [hl.head_eq, hl.tail_eq, lastOf_none_eq_getLast?]
  cases ps with
  | nil => cases xs <;> simp_all
  | cons p ps => simp

/-- The last cell of a list is its `tail`, and its `next` is `NULL`. -/
theorem IsList.tail_next {h : Heap α} {l : ListHeader} {ps : List Nat} {xs : List α}
    (hl : IsList h l ps xs) {t : Nat} (ht : l.tail = some t) : h.next t = none := by
  rw [hl.tail_eq] at ht
  obtain ⟨ps0, rfl⟩ : ∃ ps0, ps = ps0 ++ [t] := by
    rw [lastOf_none_eq_getLast?, List.getLast?_eq_some_iff] at ht; exact ht
  obtain ⟨xs0, x, rfl⟩ : ∃ xs0 x, xs = xs0 ++ [x] := by
    have := hl.seg.length_eq
    exact ⟨xs.dropLast, xs.getLast (by rintro rfl; simp at this),
      (List.dropLast_append_getLast _).symm⟩
  have hs := (seg_append h none none ps0 [t] xs0 [x]
    (by simpa using hl.seg.length_eq)).1 hl.seg
  simp [Heap.next, hs.2.1]

/-- All addresses of a list lie below the heap's `bound`, so there are at most `bound`. -/
theorem IsList.length_le_bound {h : Heap α} {l : ListHeader} {ps : List Nat} {xs : List α}
    (hl : IsList h l ps xs) : ps.length ≤ h.bound := by
  have hsub : ps.toFinset ⊆ Finset.range h.bound := fun q hq => by
    obtain ⟨n, hn⟩ := Option.isSome_iff_exists.1 (hl.seg.isSome q (List.mem_toFinset.1 hq))
    exact Finset.mem_range.2 (Heap.lt_bound_of_cells hn)
  simpa [List.toFinset_card_of_nodup hl.nodup] using Finset.card_le_card hsub

/-! ## (3) Walks along a segment -/

/-- **`walk` follows a segment**: with enough fuel, the walk from the first address of a
segment ending in `NULL` visits exactly its addresses. -/
theorem walk_of_seg {h : Heap α} :
    ∀ {prev : Option Nat} {ps : List Nat} {xs : List α} {fuel : Nat},
      Seg h prev ps xs none → ps.length ≤ fuel → walk h fuel ps.head? = ps
  | _, [], [], 0, _, _ => rfl
  | _, [], [], _ + 1, _, _ => rfl
  | _, _ :: _, _ :: _, 0, _, hf => by simp at hf
  | _, p :: ps, _ :: _, fuel + 1, ⟨hp, hs⟩, hf => by
    have hn : h.next p = ps.head? := by cases ps <;> simp [Heap.next, hp]
    simp only [List.head?_cons, walk, hn, walk_of_seg hs (by simpa using hf)]

/-- `list_foreach` visits exactly the addresses of a well-formed list, in order. -/
theorem IsList.listForeach_eq {h : Heap α} {l : ListHeader} {ps : List Nat} {xs : List α}
    (hl : IsList h l ps xs) : listForeach h l = ps := by
  rw [listForeach, hl.head_eq]
  exact walk_of_seg hl.seg hl.length_le_bound

/-- The payloads read along a segment are its payload list. -/
theorem Seg.map_data {h : Heap α} {prev nxt : Option Nat} :
    ∀ {ps : List Nat} {xs : List α}, Seg h prev ps xs nxt → ps.map h.data = xs.map some
  | [], [], _ => rfl
  | _ :: _, _ :: _, ⟨hp, hs⟩ => by simp [Heap.data, hp, hs.map_data]

end Asterisk.LinkedList
