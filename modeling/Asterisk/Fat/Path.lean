import Asterisk.Fat.Basic
import Mathlib.Data.Nat.Digits
import Mathlib.Data.String.Basic

/-! # Path assembly

For a node whose parent chain reaches an overlay root of volume `v` through the names
`n₁, …, nₖ` (`Chain`), the path `readdir`, `stat` and `open` assemble is
`decimal(v) ++ ":" ++ join("/", [n₁, …, nₖ])` when it has at most 126 characters, and they fail
without calling the FAT library when it is longer (`assemblePath_chain`). `finddir` passes to
`f_stat` the path of the child it would create, under the same bound, for names of at most 125
characters (`finddirPath_chain`); a longer name is copied before `target_path` starts
(`finddirPath_long`), and only such a name: every other write of the four assembly loops lies in
the buffer (`finddir_writes_outside_iff_long`).

Both rest on one lemma: the loop writes `"/n₁/…/nₖ"` right-aligned after zeroes
(`assembleLoop_chain`), and the end puts the volume number in front (`assembleFinish_eq`). -/

namespace Asterisk.Fat

/-! ## (1) Writes -/

/-- Writing `s` at `j` over the zeroes of a buffer that ends with `rest`. -/
theorem writeAt_replicate {k j : Nat} {s : List Char} (rest : List Char) (h : j + s.length = k) :
    writeAt (List.replicate k nul ++ rest) j s = some (List.replicate j nul ++ s ++ rest) := by
  subst h
  unfold writeAt
  rw [if_pos ⟨by omega, by simp⟩]
  have h1 : (List.replicate (j + s.length) nul ++ rest).take j = List.replicate j nul := by
    rw [List.take_append_of_le_length (by simp), List.take_replicate,
      Nat.min_eq_left (Nat.le_add_right _ _)]
  have h2 : (List.replicate (j + s.length) nul ++ rest).drop (j + s.length) = rest :=
    List.drop_left' (List.length_replicate _ _)
  simp only [Int.toNat_ofNat, h1, h2]

/-- Writing one character over the character at `j`. -/
theorem writeAt_overwrite (j : Nat) (c x : Char) (u : List Char) :
    writeAt (List.replicate j nul ++ c :: u) j [x] = some (List.replicate j nul ++ x :: u) := by
  unfold writeAt
  rw [if_pos ⟨by omega, by simp⟩]
  simp [List.take_append_of_le_length, List.drop_append_eq_append_drop]

theorem writeAt_of_neg {buf : List Char} {i : Int} (s : List Char) (h : i < 0) :
    writeAt buf i s = none := by
  unfold writeAt; rw [if_neg (by omega)]

/-- A write that fits in the buffer succeeds and keeps its length. -/
theorem writeAt_of_fits (buf : List Char) (i : Int) (s : List Char) (h0 : 0 ≤ i)
    (h : i + s.length ≤ buf.length) :
    ∃ buf', writeAt buf i s = some buf' ∧ buf'.length = buf.length := by
  refine ⟨_, if_pos ⟨h0, h⟩, ?_⟩
  obtain ⟨k, rfl⟩ := Int.eq_ofNat_of_zero_le h0
  simp only [Int.toNat_ofNat, List.length_append, List.length_take, List.length_drop]
  omega

/-! ## (2) Decimal digits -/

theorem digitChar_ne_nul {d : Nat} (hd : d < 10) : Nat.digitChar d ≠ nul := by
  interval_cases d <;> decide

theorem toDigitsCore_ne_nul :
    ∀ (fuel n : Nat) (ds : List Char), (∀ c ∈ ds, c ≠ nul) →
      ∀ c ∈ Nat.toDigitsCore 10 fuel n ds, c ≠ nul
  | 0, _, _, hds => hds
  | fuel + 1, n, ds, hds => by
    have hd : ∀ c ∈ Nat.digitChar (n % 10) :: ds, c ≠ nul := by
      simpa using ⟨digitChar_ne_nul (Nat.mod_lt _ (by decide)), hds⟩
    simp only [Nat.toDigitsCore]
    split
    · exact hd
    · exact toDigitsCore_ne_nul fuel _ _ hd

/-- The volume number has no NUL. -/
theorem volumeNumber_ne_nul (v : Nat) : ∀ c ∈ (volumeNumber v).data, c ≠ nul := fun c hc =>
  toDigitsCore_ne_nul (v + 1) v [] (by simp) c (List.mem_of_mem_take hc)

/-- Below `10⁷` the volume number is the decimal numeral, and it is not empty. -/
theorem volumeNumber_of_lt {v : Nat} (hv : v < 10 ^ 7) :
    volumeNumber v = Nat.repr v ∧ 0 < (Nat.repr v).length := by
  refine ⟨?_, ?_⟩
  · exact sprintf_of_length_lt
      (Nat.lt_succ_of_le (by simpa using Nat.repr_length v 7 (by decide) hv))
  · rw [← String.length_data]
    exact List.length_pos.2 (repr_data_ne_nil v)

/-! ## (3) Parent chains and their paths -/

/-- **A parent chain**: from node `n`, `mount_source`-less nodes named `ns` (root side first) lead
through their parents to the overlay root at position `r`. -/
inductive Chain (nodes : List FsNode) (r : Nat) : Nat → List String → Prop
  | root {rt : FsNode} : nodes[r]? = some rt → rt.mountSource ≠ none → Chain nodes r r []
  | step {n p : Nat} {nd : FsNode} {ns : List String} :
      nodes[n]? = some nd → nd.mountSource = none → nd.parent = some p → Chain nodes r p ns →
      Chain nodes r n (ns ++ [nd.name])

/-- The characters `"/n₁/…/nₖ"` the loop writes for the names `n₁ … nₖ`. -/
def slashed (ns : List String) : List Char := (ns.map fun m => '/' :: m.data).flatten

/-- `join("/", names)`. -/
def joinPath : List String → String
  | [] => ""
  | [m] => m
  | m :: m' :: ms => m ++ "/" ++ joinPath (m' :: ms)

/-- The path of the spec: `decimal(v) ++ ":" ++ join("/", names)`. -/
def fatPath (v : Nat) (ns : List String) : String := Nat.repr v ++ ":" ++ joinPath ns

@[simp] theorem slashed_nil : slashed [] = [] := rfl

@[simp] theorem slashed_singleton (m : String) : slashed [m] = '/' :: m.data := by simp [slashed]

@[simp] theorem slashed_append (ns ms : List String) :
    slashed (ns ++ ms) = slashed ns ++ slashed ms := by simp [slashed]

theorem slashed_eq_cons {ns : List String} (h : ns ≠ []) :
    slashed ns = '/' :: (joinPath ns).data := by
  induction ns with
  | nil => exact absurd rfl h
  | cons m ms ih =>
    cases ms with
    | nil => simp [slashed, joinPath]
    | cons m' ms =>
      rw [joinPath, String.data_append, String.data_append]
      simp only [slashed, List.map_cons, List.flatten_cons] at ih ⊢
      rw [ih (List.cons_ne_nil _ _)]
      simp

theorem slashed_ne_nul (ns : List String) (h : ∀ m ∈ ns, nul ∉ m.data) :
    ∀ c ∈ (slashed ns).tail, c ≠ nul := fun c hc => by
  have hc' : c ∈ slashed ns := List.mem_of_mem_tail hc
  simp only [slashed, List.mem_flatten, List.mem_map] at hc'
  obtain ⟨_, ⟨m, hm, rfl⟩, hc'⟩ := hc'
  rcases List.mem_cons.1 hc' with rfl | hc'
  · decide
  · exact fun e => h m hm (e ▸ hc')

/-- The length of the path: the numeral, `':'`, and the slashed names less their first `'/'`. -/
theorem fatPath_length (v : Nat) (ns : List String) :
    (fatPath v ns).length = (Nat.repr v).length + max 1 (slashed ns).length := by
  unfold fatPath
  rw [String.length_append, String.length_append]
  have hcolon : ":".length = 1 := rfl
  rcases eq_or_ne ns [] with rfl | h
  · simp [joinPath, hcolon]
  · have := congrArg List.length (slashed_eq_cons h)
    simp only [List.length_cons, String.length_data] at this
    omega

/-! ## (4) The loop and the end -/

/-- **The loop along a chain**: from index `j`, over zeroes followed by `w`, it writes the slashed
names right-aligned before `w`, unless they do not fit (the first name needs index `2`). -/
theorem assembleLoop_chain {nodes : List FsNode} {r n : Nat} {ns : List String} {rt : FsNode}
    (hc : Chain nodes r n ns) (hr : nodes[r]? = some rt) :
    ∀ (j : Nat) (w : List Char), assembleLoop nodes n (List.replicate j nul ++ w) j =
      if ns = [] ∨ (slashed ns).length < j then
        .ok (rt, List.replicate (j - (slashed ns).length) nul ++ slashed ns ++ w,
          ((j - (slashed ns).length : Nat) : Int))
      else .error .tooLong := by
  induction hc with
  | root hr' hms =>
    intro j w
    obtain rfl := Option.some_injective _ (hr'.symm.trans hr)
    rw [assembleLoop, hr']
    obtain ⟨src, hsrc⟩ := Option.ne_none_iff_exists'.1 hms
    simp [hsrc]
  | @step n p nd ns hn hms hp _ ih =>
    intro j w
    rw [assembleLoop, hn]
    simp only [hms]
    have hlen : (slashed (ns ++ [nd.name])).length = (slashed ns).length + (nd.name.length + 1) := by
      simp
    by_cases hj : (j : Int) - nd.name.length < 2
    · rw [if_pos hj, if_neg (by simp; omega)]
    · rw [if_neg hj]
      have hw1 := writeAt_replicate (k := j) (j := j - nd.name.length) (s := nd.name.data) w
        (by rw [String.length_data]; omega)
      have hw2 := writeAt_replicate (k := j - nd.name.length) (j := j - (nd.name.length + 1))
        (s := ['/']) (nd.name.data ++ w) (by rw [List.length_singleton]; omega)
      rw [show (j : Int) - nd.name.length = ((j - nd.name.length : Nat) : Int) by omega, hw1]
      simp only [List.append_assoc]
      rw [show ((j - nd.name.length : Nat) : Int) - 1 = ((j - (nd.name.length + 1) : Nat) : Int)
        by omega, hw2]
      simp only [hp, List.append_assoc, List.singleton_append]
      rw [ih]
      by_cases hns : ns = [] ∨ (slashed ns).length < j - (nd.name.length + 1)
      · have hlt : (slashed ns).length + (nd.name.length + 1) < j := by
          rcases hns with rfl | hns
          · simp only [slashed_nil, List.length_nil]; omega
          · omega
        have e1 : j - (nd.name.length + 1) - (slashed ns).length =
            j - (slashed (ns ++ [nd.name])).length := by rw [hlen]; omega
        have e2 : slashed ns ++ '/' :: (nd.name.data ++ w) = slashed (ns ++ [nd.name]) ++ w := by
          simp [slashed]
        rw [if_pos hns, if_pos (.inr (hlen ▸ hlt))]
        simp only [e1, e2, List.append_assoc]
      · push_neg at hns
        rw [if_neg (by push_neg; exact hns), if_neg (by simp; omega)]

/-- **The end of the assembly**: `':'` over the character at `j`, the volume number before it if it
fits, and the path is the C string from there. -/
theorem assembleFinish_eq (rt : FsNode) (j : Nat) (c : Char) (u : List Char) :
    assembleFinish rt (List.replicate j nul ++ c :: u) j =
      if j < (volumeNumber rt.privateNodeData).length then .error .tooLong
      else .ok ⟨(volumeNumber rt.privateNodeData).data ++ ':' :: u.takeWhile (· ≠ nul)⟩ := by
  unfold assembleFinish
  rw [writeAt_overwrite]
  simp only
  by_cases hj : j < (volumeNumber rt.privateNodeData).length
  · rw [if_pos (by omega), if_pos hj]
  · rw [if_neg (by omega), if_neg hj]
    have hw := writeAt_replicate (k := j) (j := j - (volumeNumber rt.privateNodeData).length)
      (s := (volumeNumber rt.privateNodeData).data) (':' :: u) (by rw [String.length_data]; omega)
    have hcast : (((j - (volumeNumber rt.privateNodeData).length : Nat)) : Int) =
        (j : Int) - (volumeNumber rt.privateNodeData).length := by omega
    rw [← hcast, hw]
    simp only [cstringAt, Int.toNat_ofNat, List.append_assoc]
    rw [List.drop_left' (List.length_replicate _ _),
      List.takeWhile_append_of_pos (by simpa using volumeNumber_ne_nul _)]
    have hc : ':' ≠ nul := by decide
    simp [List.takeWhile_cons, hc]

/-- **Loop and end together**: after the slashed names `xs` have been written right-aligned at
`j`, the rest of the assembly along a chain named `ns` yields the path of `ns ++ xs` when it has at
most 126 characters. -/
theorem assemble_chain {nodes : List FsNode} {r n : Nat} {ns : List String} {rt : FsNode}
    (hc : Chain nodes r n ns) (hr : nodes[r]? = some rt) (hv : rt.privateNodeData < 10 ^ 7)
    (hnul : ∀ m ∈ ns, nul ∉ m.data) (xs : List String) (hxs : ∀ m ∈ xs, nul ∉ m.data) {j : Nat}
    (hj : j + (slashed xs).length = 126) :
    (do let (root, buf, ci) ← assembleLoop nodes n (List.replicate j nul ++ slashed xs ++ [nul, nul]) j
        assembleFinish root buf ci) =
      if (fatPath rt.privateNodeData (ns ++ xs)).length ≤ 126 then
        .ok (fatPath rt.privateNodeData (ns ++ xs))
      else .error .tooLong := by
  obtain ⟨hnum, hpos⟩ := volumeNumber_of_lt hv
  have hd : (Nat.repr rt.privateNodeData).length ≤ 7 := Nat.repr_length _ 7 (by decide) hv
  have hlen := fatPath_length rt.privateNodeData (ns ++ xs)
  simp only [slashed_append, List.length_append] at hlen
  rw [List.append_assoc, assembleLoop_chain hc hr]
  by_cases hloop : ns = [] ∨ (slashed ns).length < j
  · rw [if_pos hloop]
    simp only [Except.bind, bind]
    rcases eq_or_ne (ns ++ xs) [] with hnx | hnx
    · obtain ⟨rfl, rfl⟩ := List.append_eq_nil.1 hnx
      simp only [slashed_nil, List.nil_append, List.length_nil, Nat.sub_zero] at hj ⊢
      subst hj
      rw [List.append_nil, assembleFinish_eq, hnum, if_neg (by omega), if_pos (by simp [fatPath_length]; omega)]
      simp [fatPath, joinPath, String.ext_iff]
    · have hs := slashed_eq_cons hnx
      simp only [slashed_append] at hs
      simp only [List.append_assoc]
      rw [← List.append_assoc (slashed ns), hs, List.cons_append, assembleFinish_eq, hnum]
      have htw : ((joinPath (ns ++ xs)).data ++ [nul, nul]).takeWhile (· ≠ nul) =
          (joinPath (ns ++ xs)).data := by
        rw [List.takeWhile_append_of_pos]
        · simp [nul]
        · intro c hc
          have := slashed_ne_nul (ns ++ xs) (by simpa [or_imp, forall_and] using ⟨hnul, hxs⟩)
          rw [slashed_append, hs] at this
          simpa using this c hc
      rw [htw]
      have hsl := congrArg List.length hs
      simp only [List.length_append, List.length_cons] at hsl
      by_cases hfit : (Nat.repr rt.privateNodeData).length + ((slashed ns).length + (slashed xs).length) ≤ 126
      · rw [if_neg (by omega), if_pos (by omega)]
        simp [fatPath, String.ext_iff]
      · rw [if_pos (by omega), if_neg (by omega)]
  · rw [if_neg hloop]
    push_neg at hloop
    rw [if_neg (by omega)]
    rfl

/-! ## (5) The three paths -/

/-- **The path of `readdir`, `stat` and `open`**: along a chain of C-string names to an overlay
root of volume `v < 10⁷`, it is `decimal(v) ++ ":" ++ join("/", names)` when that has at most 126
characters; otherwise the assembly fails before any call of the FAT library. -/
theorem assemblePath_chain {nodes : List FsNode} {r n : Nat} {ns : List String} {rt : FsNode}
    (hc : Chain nodes r n ns) (hr : nodes[r]? = some rt) (hv : rt.privateNodeData < 10 ^ 7)
    (hnul : ∀ m ∈ ns, nul ∉ m.data) :
    assemblePath nodes n =
      if (fatPath rt.privateNodeData ns).length ≤ 126 then .ok (fatPath rt.privateNodeData ns)
      else .error .tooLong := by
  simpa using assemble_chain hc hr hv hnul [] (by simp) (j := 126) rfl

/-- **The path `finddir` passes to `f_stat`**: for a C-string name of at most 125 characters, the
path of the child it creates, under the same bound. -/
theorem finddirPath_chain {nodes : List FsNode} {r d : Nat} {ns : List String} {rt : FsNode}
    (hc : Chain nodes r d ns) (hr : nodes[r]? = some rt) (hv : rt.privateNodeData < 10 ^ 7)
    (hnul : ∀ m ∈ ns, nul ∉ m.data) {x : String} (hx : nul ∉ x.data) (hlen : x.length ≤ 125) :
    finddirPath nodes d x =
      if (fatPath rt.privateNodeData (ns ++ [x])).length ≤ 126 then
        .ok (fatPath rt.privateNodeData (ns ++ [x]))
      else .error .tooLong := by
  unfold finddirPath
  have h1 := writeAt_replicate (k := 126) (j := 126 - x.length) (s := x.data) [nul, nul]
    (by rw [String.length_data]; omega)
  have hcast : (((126 - x.length : Nat)) : Int) = 126 - (x.length : Int) := by omega
  rw [show emptyPath = List.replicate 126 nul ++ [nul, nul] by rfl, ← hcast, h1]
  simp only
  have h2 := writeAt_replicate (k := 126 - x.length) (j := 125 - x.length) (s := ['/'])
    (x.data ++ [nul, nul]) (by simp; omega)
  have hcast' : (((125 - x.length : Nat)) : Int) = ((126 - x.length : Nat) : Int) - 1 := by omega
  rw [← hcast', List.append_assoc, h2]
  simp only
  have := assemble_chain hc hr hv hnul [x] (by simpa using hx) (j := 125 - x.length)
    (by simp; omega)
  rw [← this]
  simp [slashed]

/-- **`finddir` with a long name** writes outside `target_path`: a name of 126 characters or
more is copied from index `126 - length` and the `'/'` before it, with no check, so a byte falls
before the buffer whatever the node. -/
theorem finddirPath_long (nodes : List FsNode) (d : Nat) {x : String} (hlen : 126 ≤ x.length) :
    finddirPath nodes d x = .error .outOfBounds := by
  unfold finddirPath
  rcases Nat.lt_or_ge 126 x.length with hgt | heq
  · rw [writeAt_of_neg _ (by omega)]
  · obtain hx : x.length = 126 := by omega
    have h1 := writeAt_replicate (k := 126) (j := 0) (s := x.data) [nul, nul]
      (by rw [String.length_data]; omega)
    rw [show emptyPath = List.replicate 126 nul ++ [nul, nul] by rfl,
      show (126 : Int) - x.length = ((0 : Nat) : Int) by omega, h1]
    simp only
    rw [writeAt_of_neg _ (by omega)]

/-- **A name of 126 characters is written before `target_path`**: in the overlay root of a volume
mounted from the initial state, with no child yet, the name fills the buffer from its first byte
and `finddir` writes its `'/'` one byte before it, where the 128-character path it stands for
should make the lookup fail before any write. -/
theorem finddir_long_name_writes_before_buffer :
    ∃ s, s = (mount 1 (FatState.init 1) (some ⟨1, "hd", FT_BLOCK_DEVICE, none, none⟩)
        (some ⟨2, "mnt", FT_DIRECTORY, some 0, none⟩) fun _ => true).1 ∧
      FatReachable 1 s ∧ s.nodes = [⟨"mnt", FT_DIRECTORY, some 0, some 1, 0, [], 0⟩] ∧
      Chain s.nodes 0 0 [] ∧ (fatPath 0 [⟨List.replicate 126 'a'⟩]).length = 128 ∧
      finddirPath s.nodes 0 ⟨List.replicate 126 'a'⟩ = .error .outOfBounds :=
  ⟨_, rfl, .step .init (.mount _ _ _ _), rfl, .root rfl (by decide),
    by simp only [fatPath_length, slashed_singleton, List.length_cons, List.length_replicate]; rfl,
    finddirPath_long _ _ (by rw [String.length_mk, List.length_replicate])⟩

/-! ## (6) Bounds of the writes -/

/-- A result of the loop that wrote inside `target_path`: no out-of-bounds error, and on success
a 128-byte buffer and an index in `0 … 127`. -/
def LoopInBounds : Except PathError (FsNode × List Char × Int) → Prop
  | .error e => e ≠ .outOfBounds
  | .ok (_, buf, ci) => buf.length = 128 ∧ 0 ≤ ci ∧ ci ≤ 127

/-- **The loop writes in bounds**: from an index in `0 … 127` of a 128-byte buffer, every name
and `'/'` it copies lies in the buffer, since it stops when the index would fall below `2`. -/
theorem assembleLoop_inBounds (nodes : List FsNode) (n : Nat) (buf : List Char) (ci : Int)
    (hb : buf.length = 128) (h0 : 0 ≤ ci) (h1 : ci ≤ 127) :
    LoopInBounds (assembleLoop nodes n buf ci) := by
  obtain ⟨k, h⟩ : ∃ k, ci.toNat = k := ⟨_, rfl⟩
  induction k using Nat.strong_induction_on generalizing n buf ci with
  | _ k ih =>
  rw [assembleLoop]
  split
  · exact nofun
  · split
    · exact ⟨hb, h0, h1⟩
    · next nd _ _ _ =>
      split
      · exact nofun
      · obtain ⟨b1, hw1, hl1⟩ := writeAt_of_fits buf (ci - nd.name.length)
          nd.name.data (by omega) (by simp; omega)
        obtain ⟨b2, hw2, hl2⟩ := writeAt_of_fits b1 (ci - nd.name.length - 1)
          ['/'] (by omega) (by simp; omega)
        simp only [hw1, hw2]
        split
        · exact nofun
        · exact ih _ (by omega) _ _ _ (by omega) (by omega) (by omega) rfl

/-- From an index in `0 … 127` of a 128-byte buffer, the `':'` and the volume number fit. -/
theorem assembleFinish_inBounds (rt : FsNode) (buf : List Char) (ci : Int)
    (hb : buf.length = 128) (h0 : 0 ≤ ci) (h1 : ci ≤ 127) :
    assembleFinish rt buf ci ≠ .error .outOfBounds := by
  unfold assembleFinish
  obtain ⟨b1, hw1, hl1⟩ := writeAt_of_fits buf _ [':'] h0 (by simp; omega)
  simp only [hw1]
  split
  · exact nofun
  · obtain ⟨b2, hw2, -⟩ := writeAt_of_fits b1
      (ci - (volumeNumber rt.privateNodeData).length)
      (volumeNumber rt.privateNodeData).data (by omega) (by simp; omega)
    simp only [hw2]
    exact nofun

theorem bind_finish_inBounds {r : Except PathError (FsNode × List Char × Int)}
    (h : LoopInBounds r) :
    (do let (root, buf, ci) ← r; assembleFinish root buf ci) ≠ .error .outOfBounds := by
  match r, h with
  | .error e, h => simpa [bind, Except.bind] using h
  | .ok (rt, buf, ci), ⟨hb, h0, h1⟩ => exact assembleFinish_inBounds rt buf ci hb h0 h1

/-- **Which lookups write outside `target_path`**: over any overlay, `finddir` of a name writes
outside the 128-byte buffer exactly when the name has 126 characters or more, at every node;
the assembly of `readdir`, `stat` and `open`, which checks before it writes, never does. -/
theorem finddir_writes_outside_iff_long (nodes : List FsNode) :
    (∀ d x, finddirPath nodes d x = .error .outOfBounds ↔ 126 ≤ x.length) ∧
      ∀ n, assemblePath nodes n ≠ .error .outOfBounds := by
  refine ⟨fun d x => ⟨fun h => ?_, finddirPath_long nodes d⟩, fun n =>
    bind_finish_inBounds (assembleLoop_inBounds nodes n emptyPath 126 rfl (by decide) (by decide))⟩
  by_contra hx
  revert h
  unfold finddirPath
  obtain ⟨b1, hw1, hl1⟩ := writeAt_of_fits emptyPath (126 - x.length)
    x.data (by omega) (by simp [emptyPath])
  obtain ⟨b2, hw2, hl2⟩ := writeAt_of_fits b1 (126 - x.length - 1) ['/']
    (by omega) (by simp [hl1, emptyPath]; omega)
  simp only [hw1, hw2]
  exact bind_finish_inBounds
    (assembleLoop_inBounds nodes d b2 _ (by simp [hl2, hl1, emptyPath]) (by omega) (by omega))

end Asterisk.Fat
