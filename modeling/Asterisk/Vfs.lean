import Mathlib.Data.Nat.Digits

/-! # The VFS vocabulary of `fs.h`, and `common.c`'s `sprintf`

The three providers (`fatfilesystem.c`, `sharedmemory.c`, `systemfs.c`) answer the VFS through
the node type bits of `fs.h` and the `filesystem_dirent` their `readdir` fills, and every provider
prints names and numbers with the bounded `sprintf` of `common.c`. Neither file is in `src/`: all
three are modelled from the spec.

* **`FT_FILE` … `FT_MOUNT_POINT`** — the type bits, in the spec's order.
* **`FsDirent`** — a `filesystem_dirent` with the fields the providers fill: `name` and
  `file_type`.
* **`sprintf`** — one definition for every call: the text the call's format produces, cut to the
  buffer less the NUL.
* **`repr_data_ne_nil`** — the decimal numeral the providers' `sprintf("%d")` calls print is
  never empty. -/

namespace Asterisk

/-- Modelled from the spec: the `FT_*` bits of `fs.h`, in the spec's order. -/
def FT_FILE : Nat := 1

/-- Modelled from the spec: `FT_DIRECTORY`. -/
def FT_DIRECTORY : Nat := 2

/-- Modelled from the spec: `FT_BLOCK_DEVICE`. -/
def FT_BLOCK_DEVICE : Nat := 4

/-- Modelled from the spec: `FT_CHARACTER_DEVICE`. -/
def FT_CHARACTER_DEVICE : Nat := 8

/-- Modelled from the spec: `FT_MOUNT_POINT`. -/
def FT_MOUNT_POINT : Nat := 128

/-- Modelled from the spec: a `filesystem_dirent` as a `readdir` returns it, its `name` and
`file_type`. -/
structure FsDirent where
  name : String
  fileType : Nat
  deriving DecidableEq, Repr

/-- Modelled from the spec: `common.c`'s `sprintf(buffer, size, format, …)`, given the text the
format produces from the arguments: it writes the first `size - 1` characters, then the NUL. The
characters written before the NUL. -/
def sprintf (size : Nat) (text : String) : String := ⟨text.data.take (size - 1)⟩

/-- A text shorter than the buffer is printed whole. -/
theorem sprintf_of_length_lt {size : Nat} {text : String} (h : text.length < size) :
    sprintf size text = text := by
  rw [sprintf, List.take_of_length_le (by change text.length ≤ size - 1; omega)]

/-- `sprintf` prints the text cut to the buffer less the NUL. -/
theorem sprintf_length (size : Nat) (text : String) :
    (sprintf size text).length = min (size - 1) text.length :=
  List.length_take _ _

theorem toDigitsCore_ne_nil (b : Nat) :
    ∀ (fuel n : Nat) (ds : List Char), ds ≠ [] → Nat.toDigitsCore b fuel n ds ≠ []
  | 0, _, _, hds => hds
  | fuel + 1, n, ds, _ => by
    simp only [Nat.toDigitsCore]
    split
    · exact List.cons_ne_nil _ _
    · exact toDigitsCore_ne_nil b fuel _ _ (List.cons_ne_nil _ _)

/-- The decimal numeral of a number has a digit. -/
theorem repr_data_ne_nil (n : Nat) : (Nat.repr n).data ≠ [] := by
  show Nat.toDigitsCore 10 (n + 1) n [] ≠ []
  simp only [Nat.toDigitsCore]
  split
  · exact List.cons_ne_nil _ _
  · exact toDigitsCore_ne_nil 10 _ _ _ (List.cons_ne_nil _ _)

end Asterisk
