import Asterisk.Systemfs.Basic

/-! # Reading `meminfo`

A read of `/system/meminfo/totalpages` or `usedpages` at offset `0` prints the page count with
`sprintf(buffer, size, "%d", …)`, moves `file->offset` by the length printed and returns it; every
later read of the handle returns `0`. The count is cut to `size - 1` characters, so a reader of a
fresh handle gets the whole decimal only when the buffer is longer than it
(`meminfo_read_delivers_prefix`). -/

namespace Asterisk.Systemfs

/-! ## (1) The three answers of a read -/

section Read

variable (pages : Int) {size : Nat}

theorem readMeminfo_of_lt (offset : Int) (h : size < 4) :
    readMeminfo pages offset size = (offset, "", -1) := by
  simp [readMeminfo, show ¬ 4 ≤ size by omega]

theorem readMeminfo_zero (h : 4 ≤ size) :
    readMeminfo pages 0 size = (((sprintfDecimal size pages).length : Int),
      sprintfDecimal size pages, ((sprintfDecimal size pages).length : Int)) := by
  simp [readMeminfo, h]

theorem readMeminfo_of_ne_zero {offset : Int} (h : 4 ≤ size) (ho : offset ≠ 0) :
    readMeminfo pages offset size = (offset, "", 0) := by
  simp [readMeminfo, h, ho]

end Read

/-- The decimal of an `int` has a character. -/
theorem toString_data_ne_nil (x : Int) : (toString x).data ≠ [] := by
  cases x with
  | ofNat n => exact repr_data_ne_nil n
  | negSucc n =>
    show ("-" ++ toString (n + 1)).data ≠ []
    simp

/-- `sprintf` prints a character into a buffer of two bytes or more. -/
theorem sprintfDecimal_length_pos (x : Int) {size : Nat} (h : 2 ≤ size) :
    0 < (sprintfDecimal size x).length := by
  obtain ⟨c, cs, hc⟩ := List.exists_cons_of_ne_nil (toString_data_ne_nil x)
  show 0 < ((toString x).data.take (size - 1)).length
  rw [hc, show size - 1 = size - 2 + 1 by omega, List.take_succ_cons]
  exact Nat.succ_pos _

/-- `sprintf` prints the whole decimal exactly when the buffer is longer than it. -/
theorem sprintfDecimal_eq_iff (x : Int) (size : Nat) :
    sprintfDecimal size x = toString x ↔ (toString x).length < size := by
  have hpos := List.length_pos.2 (toString_data_ne_nil x)
  rw [sprintfDecimal, sprintf, String.ext_iff, List.take_eq_self_iff, String.length]
  omega

/-! ## (2) Reading a fresh handle -/

/-- **A `meminfo` read delivers the count cut to the buffer.** For every page count and buffer
size, reading `totalpages` or `usedpages` from a fresh handle fails with `-1` when the buffer has
fewer than 4 bytes; otherwise the first read returns the characters `sprintf` printed, at least
one, and the next read returns `0`. What is delivered is the decimal of the count exactly when the
buffer is longer than it: `1048576` pages read with a 4-byte buffer deliver `"104"`, then `0`. -/
theorem meminfo_read_delivers_prefix (pages : Int) (size : Nat) :
    (∀ read ∈ [systemfsReadMeminfoTotalpages pages, systemfsReadMeminfoUsedpages pages],
      (size < 4 → read 0 size = (0, "", -1)) ∧
      (4 ≤ size → 0 < (sprintfDecimal size pages).length ∧
        read 0 size = (((sprintfDecimal size pages).length : Int), sprintfDecimal size pages,
          ((sprintfDecimal size pages).length : Int)) ∧
        read (sprintfDecimal size pages).length size =
          (((sprintfDecimal size pages).length : Int), "", 0))) ∧
    (sprintfDecimal size pages = toString pages ↔ (toString pages).length < size) ∧
    systemfsReadMeminfoTotalpages 1048576 0 4 = (3, "104", 3) ∧
    systemfsReadMeminfoTotalpages 1048576 3 4 = (3, "", 0) := by
  refine ⟨fun read hread => ?_, sprintfDecimal_eq_iff pages size, by decide, by decide⟩
  simp only [List.mem_cons, List.mem_singleton, List.not_mem_nil, or_false] at hread
  rcases hread with rfl | rfl
  all_goals
    refine ⟨readMeminfo_of_lt pages 0, fun h => ⟨sprintfDecimal_length_pos pages (by omega),
      readMeminfo_zero pages h, readMeminfo_of_ne_zero pages h ?_⟩⟩
    exact_mod_cast (sprintfDecimal_length_pos pages (by omega)).ne'

end Asterisk.Systemfs
