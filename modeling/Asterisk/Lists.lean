import Mathlib.Data.List.Basic

/-! # Positions in lists

The models stand for a kernel pointer by a position in a list: an object of `g_shm_list`, a node
`kmalloc` handed out. These are the facts about the element at a position that several of them
use: reading it, changing it, erasing it. -/

namespace Asterisk

theorem getElem?_append_cons {α : Type} (pre post : List α) (o : α) :
    (pre ++ o :: post)[pre.length]? = some o := by
  rw [List.getElem?_append_right (Nat.le_refl _)]; simp

theorem modify_append_cons {α : Type} (f : α → α) (pre post : List α) (o : α) :
    (pre ++ o :: post).modify f pre.length = pre ++ f o :: post := by
  induction pre <;> simp_all

theorem eraseIdx_append_cons {α : Type} (pre post : List α) (o : α) :
    (pre ++ o :: post).eraseIdx pre.length = pre ++ post := by
  induction pre <;> simp_all

/-- Changing a position before the end of `l` leaves what is appended to `l` alone. -/
theorem modify_append_of_lt {α : Type} (f : α → α) :
    ∀ (l l' : List α) (p : Nat), p < l.length → (l ++ l').modify f p = l.modify f p ++ l'
  | _ :: _, _, 0, _ => rfl
  | _ :: l, l', p + 1, h => by
    simp [modify_append_of_lt f l l' p (by simp at h; omega)]

end Asterisk
