import Asterisk.Systemfs.Boot

/-! # Reading a thread file

`systemfs_open_threads_dir` names the node of a thread by `sprintf(buffer, 16, "%d", id)`;
`systemfs_read_thread_file` turns the name back into an id with `atoi`, looks the thread up with
`thread_get_by_id`, and prints its report into the caller's buffer with one bounded `sprintf` per
line, moving `char_index` by what each one wrote.

* **`atoi_toString`** — `atoi` reads back every `int` that `"%d"` prints.
* **`printLines_eq_take`** — the bounded `sprintf`s deliver the report cut to the buffer, less the
  NUL.
* **`thread_files_name_their_threads`** — along every run of `/system` whose opens saw `int`
  thread ids, reading the entries of `threads/` finds the threads they were made for.

`common.c`'s `atoi`, and `thread_get_by_id`, `thread_state_to_string` and the `Thread` record of the
scheduler, are not in `src/`: they are modelled from the C library and the spec. -/

namespace Asterisk.Systemfs

/-! ## (1) `atoi` -/

/-- The value of a string of decimal digits, most significant first. -/
def digitsValue (ds : List Char) : Nat :=
  ds.foldl (fun acc c => acc * 10 + (c.toNat - '0'.toNat)) 0

/-- Modelled from the C library's `atoi`: leading white space, an optional sign, then the decimal
digits up to the first other character. -/
def atoi (s : String) : Int :=
  match s.data.dropWhile Char.isWhitespace with
  | '-' :: cs => -(digitsValue (cs.takeWhile Char.isDigit) : Int)
  | '+' :: cs => digitsValue (cs.takeWhile Char.isDigit)
  | cs => digitsValue (cs.takeWhile Char.isDigit)

theorem digitsValue_append_digit (ds : List Char) (c : Char) :
    digitsValue (ds ++ [c]) = digitsValue ds * 10 + (c.toNat - '0'.toNat) := by
  simp [digitsValue, List.foldl_append]

/-- The digit characters `Nat.toDigits` prints are digits, of the right value. -/
theorem digitChar_value : ∀ d, d < 10 →
    (Nat.digitChar d).toNat - '0'.toNat = d ∧ (Nat.digitChar d).isDigit = true := by
  decide

/-- `Nat.toDigitsCore` prints the digits in front of what it was given. -/
theorem toDigitsCore_append (fuel : Nat) :
    ∀ n ds, Nat.toDigitsCore 10 fuel n ds = Nat.toDigitsCore 10 fuel n [] ++ ds := by
  induction fuel with
  | zero => intro n ds; rfl
  | succ fuel ih =>
    intro n ds
    simp only [Nat.toDigitsCore]
    split
    · rfl
    · rw [ih _ (_ :: ds), ih _ [_], List.append_assoc, List.singleton_append]

/-- With enough fuel, the digits `Nat.toDigitsCore` prints are digits and have value `n`. -/
theorem toDigitsCore_value (fuel : Nat) :
    ∀ n, n < fuel → (∀ c ∈ Nat.toDigitsCore 10 fuel n [], c.isDigit = true) ∧
      digitsValue (Nat.toDigitsCore 10 fuel n []) = n := by
  induction fuel with
  | zero => intro n h; omega
  | succ fuel ih =>
    intro n hn
    have hd := digitChar_value (n % 10) (Nat.mod_lt _ (by omega))
    simp only [Nat.toDigitsCore]
    split
    · refine ⟨by simpa using hd.2, ?_⟩
      simp only [digitsValue, List.foldl_cons, List.foldl_nil, hd.1]
      omega
    · rw [toDigitsCore_append]
      obtain ⟨hdig, hval⟩ := ih (n / 10) (by omega)
      refine ⟨fun c hc => ?_, ?_⟩
      · rcases List.mem_append.1 hc with hc | hc
        · exact hdig c hc
        · rw [List.mem_singleton.1 hc]; exact hd.2
      · rw [digitsValue_append_digit, hval, hd.1]
        omega

/-- A digit is neither white space nor a sign. -/
theorem digit_not_blank_or_sign {c : Char} (h : c.isDigit = true) :
    c.isWhitespace = false ∧ c ≠ '-' ∧ c ≠ '+' := by
  refine ⟨?_, by rintro rfl; exact absurd h (by decide), by rintro rfl; exact absurd h (by decide)⟩
  cases hw : c.isWhitespace
  · rfl
  · simp only [Char.isWhitespace, Bool.or_eq_true, decide_eq_true_eq] at hw
    rcases hw with ((rfl | rfl) | rfl) | rfl <;> exact absurd h (by decide)

/-- `atoi` of a nonempty string of digits is their value. -/
theorem atoi_digits {ds : List Char} (hne : ds ≠ []) (hd : ∀ c ∈ ds, c.isDigit = true) :
    atoi ⟨ds⟩ = digitsValue ds := by
  obtain ⟨c, cs, rfl⟩ := List.exists_cons_of_ne_nil hne
  obtain ⟨hws, hminus, hplus⟩ := digit_not_blank_or_sign (hd c (List.mem_cons_self c cs))
  unfold atoi
  rw [List.dropWhile_cons_of_neg (by simp [hws])]
  split
  · rename_i h; exact absurd (List.cons.inj h).1 hminus
  · rename_i h; exact absurd (List.cons.inj h).1 hplus
  · rw [List.takeWhile_eq_self_iff.2 hd]

/-- **`atoi` reads back what `"%d"` prints**, for every `int`. -/
theorem atoi_toString (x : Int) : atoi (toString x) = x := by
  cases x with
  | ofNat n =>
    obtain ⟨hdig, hval⟩ := toDigitsCore_value (n + 1) n (by omega)
    show atoi ⟨Nat.toDigitsCore 10 (n + 1) n []⟩ = n
    have hne : Nat.toDigitsCore 10 (n + 1) n [] ≠ [] := repr_data_ne_nil n
    rw [atoi_digits hne hdig, hval]
  | negSucc n =>
    obtain ⟨hdig, hval⟩ := toDigitsCore_value (n + 2) (n + 1) (by omega)
    show atoi ⟨'-' :: Nat.toDigitsCore 10 (n + 2) (n + 1) []⟩ = Int.negSucc n
    unfold atoi
    rw [List.dropWhile_cons_of_neg (by decide)]
    split
    · rename_i h
      rw [← (List.cons.inj h).2, List.takeWhile_eq_self_iff.2 hdig, hval, Int.negSucc_eq]
      rfl
    · rename_i h; exact absurd (List.cons.inj h).1 (by decide)
    · rename_i h _; exact absurd rfl (h _)

/-! ## (2) The report -/

/-- Modelled from the spec: the fields of a scheduler `Thread` the report prints (`thread.h` is
not in `src/`). `state` is what `thread_state_to_string` writes into its 10-byte buffer, and
`owner` the `pid` and `name` of the owning process, if there is one. -/
structure Thread where
  threadId : Int
  birthTime : Int
  userMode : Int
  state : String
  calledSyscallCount : Int
  contextSwitchCount : Int
  consumedCpuTimeMs : Int
  usageCpu : Int
  owner : Option (Int × String)
  deriving DecidableEq, Repr

/-- Modelled from the spec: `thread_get_by_id`, the first thread of the scheduler's list with the
id. -/
def threadGetById (threads : List Thread) (id : Int) : Option Thread :=
  threads.find? fun thread => thread.threadId == id

/-- The lines `systemfs_read_thread_file` prints for a thread, one `sprintf` each. -/
def threadReport (thread : Thread) : List String :=
  ["tid:" ++ toString thread.threadId ++ "\n",
    "birthTime:" ++ toString thread.birthTime ++ "\n",
    "userMode:" ++ toString thread.userMode ++ "\n",
    "state:" ++ thread.state ++ "\n",
    "syscalls:" ++ toString thread.calledSyscallCount ++ "\n",
    "contextSwitches:" ++ toString thread.contextSwitchCount ++ "\n",
    "cpuTime:" ++ toString thread.consumedCpuTimeMs ++ "\n",
    "cpuUsage:" ++ toString thread.usageCpu ++ "\n",
    match thread.owner with
    | some (pid, name) => "process:" ++ toString pid ++ " (" ++ name ++ ")\n"
    | none => "process:-\n"]

/-- The `sprintf` calls of the report from `char_index`: each prints its line into the
`size - char_index` bytes left and moves `char_index` by what it wrote. The characters written. -/
def printLines (size : Nat) : Nat → List String → String
  | _, [] => ""
  | charIndex, line :: lines =>
    sprintf (size - charIndex) line ++
      printLines size (charIndex + (sprintf (size - charIndex) line).length) lines

/-- **`systemfs_read_thread_file`** of the node named `name`, at `file->offset = offset`, with a
`size`-byte buffer, over the scheduler's threads: the new `offset`, the characters written before
the NUL, and the result. A thread that is not found falls through to `-1`. -/
def systemfsReadThreadFile (threads : List Thread) (name : String) (offset : Int) (size : Nat) :
    Int × String × Int :=
  if size ≥ 128 then
    if offset = 0 then
      match threadGetById threads (atoi name) with
      | some thread =>
        (offset + (printLines size 0 (threadReport thread)).length,
          printLines size 0 (threadReport thread), (printLines size 0 (threadReport thread)).length)
      | none => (offset, "", -1)
    else (offset, "", 0)
  else (offset, "", -1)

/-! ## (3) The report in the buffer -/

/-- **Loop lemma**: from any `char_index` left of the end of the buffer, the bounded `sprintf`s
write the lines one after the other, cut where the buffer ends, less the NUL. -/
theorem printLines_eq_take (size : Nat) :
    ∀ (lines : List String) (charIndex : Nat), charIndex < size →
      (printLines size charIndex lines).data =
        (lines.flatMap String.data).take (size - 1 - charIndex)
  | [], _, _ => by simp only [printLines, List.flatMap_nil, List.take_nil]
  | line :: lines, charIndex, h => by
    have hw := sprintf_length (size - charIndex) line
    rw [printLines, String.data_append, printLines_eq_take size lines _ (by omega), List.flatMap_cons,
      List.take_append_eq_append_take, hw]
    simp only [sprintf, String.length]
    congr 2 <;> omega

/-- The report of a thread starts with its `tid` line, which a buffer of `128` bytes holds. -/
theorem tid_line_prefix {thread : Thread} (h : -2 ^ 31 ≤ thread.threadId ∧ thread.threadId < 2 ^ 31)
    {size : Nat} (hsize : 128 ≤ size) :
    ("tid:" ++ toString thread.threadId ++ "\n").data <+:
      (printLines size 0 (threadReport thread)).data := by
  rw [printLines_eq_take size _ 0 (by omega), threadReport, List.flatMap_cons,
    List.take_append_eq_append_take, List.take_of_length_le]
  · exact List.prefix_append _ _
  · have h16 : (toString thread.threadId).data.length < 16 :=
      (sprintfDecimal_eq_iff _ 16).1 (sprintfDecimal_thread h)
    rw [String.data_append, String.data_append, List.length_append, List.length_append]
    exact show 4 + _ + 1 ≤ _ by omega

/-! ## (4) Reading the entries of `threads/` -/

/-- The thread `thread_get_by_id` finds has the id it was asked for. -/
theorem threadGetById_threadId {threads : List Thread} {id : Int} {thread : Thread}
    (h : threadGetById threads id = some thread) : thread.threadId = id := by
  simpa using List.find?_some h

/-- **The entries of `threads/` find their threads.** Along every run of `/system` whose every
open saw a nonempty list of `int` thread ids, the last being `ids`, and whatever threads the
scheduler holds when the file is read: the `i`-th entry of `threads/` is named so that reading it
at offset `0` with a buffer of at least 128 bytes looks up, through `atoi` and `thread_get_by_id`,
the thread `ids[i]` it was made for. If that thread is gone the read returns `-1`; otherwise it
delivers the thread's report cut to the buffer less the NUL, which begins with the line
`tid:ids[i]`, and returns its length, by which the offset moves. -/
theorem thread_files_name_their_threads (name : String) :
    ∀ opens s, SysRun name opens s →
      (∀ tids ∈ opens, tids ≠ [] ∧ ∀ t ∈ tids, -2 ^ 31 ≤ t ∧ t < 2 ^ 31) →
      ∀ (threads : List Thread) (size i : Nat) (t : Int), 128 ≤ size →
        (opens.getLast?.getD [])[i]? = some t →
        ∃ d : FsDirent, systemfsReaddir s 4 i = some (some d) ∧
          (threadGetById threads t = none →
            systemfsReadThreadFile threads d.name 0 size = (0, "", -1)) ∧
          ∀ thread, threadGetById threads t = some thread →
            (systemfsReadThreadFile threads d.name 0 size).2.1.data =
              ((threadReport thread).flatMap String.data).take (size - 1) ∧
            ("tid:" ++ toString t ++ "\n").data <+:
              (systemfsReadThreadFile threads d.name 0 size).2.1.data ∧
            (systemfsReadThreadFile threads d.name 0 size).1 =
              (systemfsReadThreadFile threads d.name 0 size).2.1.length ∧
            (systemfsReadThreadFile threads d.name 0 size).2.2 =
              (systemfsReadThreadFile threads d.name 0 size).2.1.length := by
  intro opens s hr hne threads size i t hsize ht
  have hlast : opens.getLast?.getD [] ∈ opens := by
    cases hl : opens.getLast? with
    | none => rw [hl] at ht; simp at ht
    | some l => exact List.mem_of_getLast?_eq_some hl
  have h32 := (hne _ hlast).2 t (List.getElem?_mem ht)
  refine ⟨⟨toString t, FT_FILE⟩, by rw [hr.readdir_threads hne i, ht]; rfl, fun hnone => ?_,
    fun thread hth => ?_⟩
  · simp [systemfsReadThreadFile, hsize, atoi_toString, hnone]
  · have hread : systemfsReadThreadFile threads (toString t) 0 size =
        (((printLines size 0 (threadReport thread)).length : Int),
          printLines size 0 (threadReport thread),
          ((printLines size 0 (threadReport thread)).length : Int)) := by
      simp [systemfsReadThreadFile, hsize, atoi_toString, hth]
    rw [hread]
    have hid := threadGetById_threadId hth
    subst hid
    exact ⟨printLines_eq_take size _ 0 (by omega), tid_line_prefix h32 hsize, rfl, rfl⟩

theorem thread_files_name_their_threads_seven :
    ∃ s, SysRun "system" [[7]] s ∧
      (∀ tids ∈ [[(7 : Int)]], tids ≠ [] ∧ ∀ t ∈ tids, -2 ^ 31 ≤ t ∧ t < 2 ^ 31) ∧ 128 ≤ 128 ∧
      ([[(7 : Int)]].getLast?.getD [])[0]? = some 7 ∧
      ∃ d : FsDirent, systemfsReaddir s 4 0 = some (some d) ∧
        (threadGetById [⟨7, 0, 1, "running", 0, 0, 0, 0, none⟩] 7 = none →
          systemfsReadThreadFile [⟨7, 0, 1, "running", 0, 0, 0, 0, none⟩] d.name 0 128 =
            (0, "", -1)) ∧
        ∀ thread, threadGetById [⟨7, 0, 1, "running", 0, 0, 0, 0, none⟩] 7 = some thread →
          (systemfsReadThreadFile [⟨7, 0, 1, "running", 0, 0, 0, 0, none⟩] d.name 0 128).2.1.data =
            ((threadReport thread).flatMap String.data).take (128 - 1) ∧
          ("tid:" ++ toString (7 : Int) ++ "\n").data <+:
            (systemfsReadThreadFile [⟨7, 0, 1, "running", 0, 0, 0, 0, none⟩] d.name 0 128).2.1.data ∧
          (systemfsReadThreadFile [⟨7, 0, 1, "running", 0, 0, 0, 0, none⟩] d.name 0 128).1 =
            (systemfsReadThreadFile [⟨7, 0, 1, "running", 0, 0, 0, 0, none⟩] d.name 0 128).2.1.length ∧
          (systemfsReadThreadFile [⟨7, 0, 1, "running", 0, 0, 0, 0, none⟩] d.name 0 128).2.2 =
            (systemfsReadThreadFile [⟨7, 0, 1, "running", 0, 0, 0, 0, none⟩] d.name 0 128).2.1.length := by
  obtain ⟨s, hr⟩ : ∃ s, SysRun "system" [[7]] s :=
    ⟨_, .openThreads [7] (.boot (systemfsInitialize_some "system")) rfl rfl⟩
  have hne : ∀ tids ∈ [[(7 : Int)]], tids ≠ [] ∧ ∀ t ∈ tids, -2 ^ 31 ≤ t ∧ t < 2 ^ 31 := by simp
  exact ⟨s, hr, hne, le_rfl, rfl,
    thread_files_name_their_threads "system" _ _ hr hne _ 128 0 7 le_rfl rfl⟩

end Asterisk.Systemfs
