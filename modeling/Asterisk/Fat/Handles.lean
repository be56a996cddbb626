import Asterisk.Fat.Path

/-! # The FAT library's handles: `readdir` and `lseek`

`readdir` opens a `DIR` on the path it assembles, reads `index + 1` entries with `f_readdir` and
closes the `DIR` on both of its exits; `lseek` moves the open `FIL` of a `File` with `f_lseek`.

* **`readdir_lists_entries`** — over a directory whose `f_readdir` calls deliver `e₀ … e_{m-1}` and
  then an empty name, `readdir` at `i < m` returns `eᵢ`'s name, typed by its `AM_DIR` attribute,
  and at `i ≥ m` returns `NULL`, making the calls `f_opendir`, `f_readdir` (`min i m + 1` times)
  and one `f_closedir`.
* **`lseek_wraps_negative_target`** — a target `base + offset` below `0` reaches `f_lseek` as the
  `FSIZE_t` `2^32 + base + offset`, and what `lseek` returns is the position `f_lseek` leaves, read
  as an `int32_t`. -/

namespace Asterisk.Fat

/-! ## (1) The entry loop of `readdir` -/

section Loop

/- The entries `f_readdir` delivers: `m` with a name, then an empty name. -/
variable {read : Nat → Dirent} {m : Nat}

theorem fname_length_le_zero_iff (d : Dirent) : d.fname.length ≤ 0 ↔ d.fname = "" := by
  rw [Nat.le_zero, ← String.length_data, List.length_eq_zero]
  exact ⟨fun h => String.ext h, fun h => h ▸ rfl⟩

/-- **Within the entries** the loop reads `k + 1` of them and returns the last. -/
theorem readdirLoop_within (hne : ∀ j < m, (read j).fname ≠ "") :
    ∀ (k i : Nat) (fileInfo : Dirent), i + k < m →
      readdirLoop read i fileInfo (k + 1) = (some (read (i + k)), List.replicate (k + 1) .readdir)
  | 0, i, _, h => by
    simp [readdirLoop, (fname_length_le_zero_iff _).not.2 (hne i (by omega))]
  | k + 1, i, _, h => by
    rw [readdirLoop, if_neg ((fname_length_le_zero_iff _).not.2 (hne i (by omega))),
      readdirLoop_within hne k (i + 1) _ (by omega), show i + 1 + k = i + (k + 1) by omega]
    rfl

/-- **Past the entries** the loop reads up to the empty name, closes the directory and returns
`NULL`. -/
theorem readdirLoop_past (hne : ∀ j < m, (read j).fname ≠ "") (hend : (read m).fname = "") :
    ∀ (k i : Nat) (fileInfo : Dirent), i ≤ m → m < i + k →
      readdirLoop read i fileInfo k =
        (none, List.replicate (m - i + 1) .readdir ++ [.closedir])
  | 0, _, _, _, h => by omega
  | k + 1, i, _, hi, h => by
    rw [readdirLoop]
    rcases Nat.lt_or_ge i m with hlt | hge
    · rw [if_neg ((fname_length_le_zero_iff _).not.2 (hne i hlt)),
        readdirLoop_past hne hend k (i + 1) _ hlt (by omega),
        show m - i = m - (i + 1) + 1 by omega]
      rfl
    · obtain rfl : i = m := by omega
      rw [if_pos ((fname_length_le_zero_iff _).2 hend)]
      simp

end Loop

/-! ## (2) `readdir` -/

/-- **`readdir` lists the entries and closes what it opened.** For a node whose path assembles
and on which `f_opendir` succeeds, with `f_readdir` delivering the entries, none with an empty
name, and then empty names: at an index within the entries `readdir` returns that entry's name,
a directory exactly when the entry has the `AM_DIR` attribute and a file otherwise, after
`f_opendir`, `index + 1` calls of `f_readdir` and `f_closedir`; past them it returns `NULL` after
`f_opendir`, one `f_readdir` per entry and one for the empty name, and `f_closedir`. -/
theorem readdir_lists_entries (s : FatState) (n : Nat) (fOpendir : String → Option (List Dirent))
    (path : String) (entries : List Dirent) (hpath : assemblePath s.nodes n = .ok path)
    (hopen : fOpendir path = some entries) (hne : ∀ e ∈ entries, e.fname ≠ "") (index : Nat) :
    readdir s n index fOpendir =
      if h : index < entries.length then
        (some ⟨entries[index].fname, if entries[index].isDir then FT_DIRECTORY else FT_FILE⟩,
          .opendir path :: List.replicate (index + 1) .readdir ++ [.closedir])
      else (none, .opendir path :: List.replicate (entries.length + 1) .readdir ++ [.closedir]) := by
  have hread : ∀ j < entries.length, ((entries[j]?).getD ⟨"", false⟩).fname ≠ "" := fun j hj => by
    simpa [List.getElem?_eq_getElem hj] using hne _ (List.getElem_mem hj)
  have hend : ((entries[entries.length]?).getD ⟨"", false⟩).fname = "" := by simp
  unfold readdir
  rw [hpath]
  simp only [hopen]
  by_cases h : index < entries.length
  · rw [dif_pos h, readdirLoop_within hread index 0 _ (by omega)]
    simp [List.getElem?_eq_getElem h]
  · rw [dif_neg h, readdirLoop_past hread hend (index + 1) 0 _ (Nat.zero_le _) (by omega)]
    rfl

/-- Listing the overlay root of a freshly mounted volume holding a file `a` and a directory `d`. -/
theorem readdir_lists_entries_root :
    assemblePath [⟨"mnt", FT_DIRECTORY, some 0, some 1, 0, [], 0⟩] 0 = .ok "0:" ∧
      readdir ⟨[⟨"mnt", FT_DIRECTORY, some 0, some 1, 0, [], 0⟩], [some 1]⟩ 0 1
          (fun _ => some [⟨"a", false⟩, ⟨"d", true⟩]) =
        (some ⟨"d", FT_DIRECTORY⟩, [.opendir "0:", .readdir, .readdir, .closedir]) :=
  have hpath : assemblePath [⟨"mnt", FT_DIRECTORY, some 0, some 1, 0, [], 0⟩] 0 = .ok "0:" := by
    rw [assemblePath_chain (.root rfl (by decide)) rfl (by decide) (by simp), if_pos (by decide)]
    rfl
  ⟨hpath, by
    rw [readdir_lists_entries ⟨_, [some 1]⟩ 0 (fun _ => some [⟨"a", false⟩, ⟨"d", true⟩]) "0:"
      [⟨"a", false⟩, ⟨"d", true⟩] hpath rfl (by decide) 1]
    decide⟩

/-! ## (3) `lseek` -/

/-- **`lseek` passes a negative target to `f_lseek` wrapped.** For every open file, `int32_t`
offset and `whence` with its base (`0`, the position, the size), a target `base + offset` below
`0` is converted to the `FSIZE_t` `2^32 + base + offset` and handed to `f_lseek`, and `lseek`
returns what `f_lseek` makes of it. With the `f_lseek` of a file opened for reading, which
clips the position at the size, `lseek(SEEK_SET, -1)` on a 10-byte file at position `3` moves
to `10` and returns `10`; and at or past `2^31` bytes the position comes back negative. -/
theorem lseek_wraps_negative_target :
    (∀ (file : File) (f : Fil) (offset whence base : Int) (fLseek : Fil → Nat → Fil × Bool),
      file.privateData = some f →
      (whence = SEEK_SET ∧ base = 0 ∨ whence = SEEK_CUR ∧ base = f.fptr ∨
        whence = SEEK_END ∧ base = f.fsize) →
      -2 ^ 31 ≤ offset → base + offset < 0 →
      lseek file offset whence fLseek =
        lseekResult file (fLseek f (2 ^ 32 + base + offset).toNat)) ∧
    lseek ⟨some ⟨3, 10⟩, 3⟩ (-1) SEEK_SET (fun f ofs => ({ f with fptr := min ofs f.fsize }, true)) =
        (⟨some ⟨10, 10⟩, 10⟩, 10) ∧
    lseek ⟨some ⟨0, 2 ^ 31⟩, 0⟩ 0 SEEK_END (fun f ofs => ({ f with fptr := min ofs f.fsize }, true)) =
        (⟨some ⟨2 ^ 31, 2 ^ 31⟩, -2 ^ 31⟩, -2 ^ 31) := by
  refine ⟨fun file f offset whence base fLseek hf hw hlo hneg => ?_, by decide, by decide⟩
  have hwrap : toFsize (base + offset) = (2 ^ 32 + base + offset).toNat := by
    have hb : 0 ≤ base := by rcases hw with ⟨-, rfl⟩ | ⟨-, rfl⟩ | ⟨-, rfl⟩ <;> omega
    unfold toFsize
    omega
  unfold lseek
  rw [hf, ← hwrap]
  dsimp only
  rcases hw with ⟨rfl, rfl⟩ | ⟨rfl, rfl⟩ | ⟨rfl, rfl⟩
  · rw [if_pos rfl, zero_add]
  · rw [if_neg (show SEEK_CUR ≠ SEEK_SET by decide), if_pos rfl]
  · rw [if_neg (show SEEK_END ≠ SEEK_SET by decide), if_neg (show SEEK_END ≠ SEEK_CUR by decide),
      if_pos rfl]

end Asterisk.Fat
