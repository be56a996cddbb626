import Asterisk.Fat.Basic

/-! # What each call of the FAT provider does

One inversion lemma per call that changes the provider's state, with every outcome and the guards
that lead to it: `finddir` (`finddir_cases`), `stat` (`stat_cases`) and `mount` (`mount_cases`).
The invariants of `Tree` and `Mount` cite these and never unfold a call again. With them, the
specification of the slot search of `mount` (`lowestFree_eq_some`, `lowestFree_eq_none`) and the
two list facts the updates need. -/

namespace Asterisk.Fat

/-! ## (1) Lists -/

/-- A position of a list modified at `d` and extended by `extra` holds an old element, modified if
it is the one at `d`, or one of `extra`. -/
theorem getElem?_modify_append {α : Type} {f : α → α} {l extra : List α} {d i : Nat} {a : α}
    (h : (l.modify f d ++ extra)[i]? = some a) :
    (∃ b, l[i]? = some b ∧ a = if d = i then f b else b) ∨
      (l.length ≤ i ∧ extra[i - l.length]? = some a) := by
  rw [List.getElem?_append, List.length_modify] at h
  split at h
  · rw [List.getElem?_modify, Option.map_eq_map] at h
    obtain ⟨b, hb, rfl⟩ := Option.map_eq_some'.1 h
    exact .inl ⟨b, hb, rfl⟩
  · exact .inr ⟨by omega, h⟩

/-- Setting a position to the value it holds changes nothing. -/
theorem set_of_getElem? {α : Type} {l : List α} {i : Nat} {a : α} (h : l[i]? = some a) :
    l.set i a = l :=
  List.ext_getElem? fun j => by
    rw [List.getElem?_set']
    split
    · subst_vars; simp [h]
    · rfl

/-! ## (2) The slot search of `mount` -/

section Volumes

variable {volumes : Nat} {slots : List (Option Nat)}

/-- **`lowestFree` is the lowest `NULL` slot** below `FF_VOLUMES`. -/
theorem lowestFree_eq_some {v : Nat} :
    lowestFree volumes slots = some v ↔
      v < volumes ∧ slots[v]? = some none ∧ ∀ w < v, slots[w]? ≠ some none := by
  simp only [lowestFree, List.find?_range_eq_some, decide_eq_true_eq, List.mem_range,
    Bool.not_eq_true', decide_eq_false_iff_not]
  tauto

/-- `lowestFree` finds nothing exactly when every slot below `FF_VOLUMES` is taken. -/
theorem lowestFree_eq_none :
    lowestFree volumes slots = none ↔ ∀ v < volumes, slots[v]? ≠ some none := by
  simp [lowestFree]

end Volumes

/-! ## (3) The calls -/

/-- **Every outcome of `finddir`**: the state is unchanged and the node returned, if any, is a
child of `d` named `name`; or no child has that name, `f_stat` succeeds on the path `finddir`
assembles, and the new node, at the end of the arena, is appended to the child chain of `d`. -/
theorem finddir_cases {s s' : FatState} {d : Nat} {name : String}
    {fStat : String → Option FileInfo} {r : Option Nat} (h : finddir s d name fStat = (s', r)) :
    (s' = s ∧ ∀ c, r = some c →
      ∃ dn, s.nodes[d]? = some dn ∧ c ∈ dn.children ∧ nameOf s.nodes c = some name) ∨
    ∃ dn path info, s.nodes[d]? = some dn ∧ (∀ c ∈ dn.children, nameOf s.nodes c ≠ some name) ∧
      finddirPath s.nodes d name = .ok path ∧ fStat path = some info ∧
      r = some s.nodes.length ∧
      s' = ⟨s.nodes.modify (fun n => { n with children := n.children ++ [s.nodes.length] }) d ++
          [⟨name, if info.isDir then FT_DIRECTORY else FT_FILE, some d, none, 0, [], info.fsize⟩],
        s.mountedBlockDevices⟩ := by
  unfold finddir at h
  split at h
  · cases h; exact .inl ⟨rfl, nofun⟩
  · rename_i dn hd
    split at h
    · rename_i c hc
      cases h
      refine .inl ⟨rfl, fun _ hc' => ?_⟩
      cases hc'
      exact ⟨dn, hd, List.mem_of_find?_eq_some hc, by simpa using List.find?_some hc⟩
    · rename_i hnone
      split at h
      · cases h; exact .inl ⟨rfl, nofun⟩
      · rename_i path hpath
        split at h
        · cases h; exact .inl ⟨rfl, nofun⟩
        · rename_i info hinfo
          cases h
          exact .inr ⟨dn, path, info, hd, by simpa using hnone, hpath, hinfo, rfl, rfl⟩

/-- **Every outcome of `stat`**: the state is unchanged, or the type and length of node `n` are
set from what `f_stat` reports. -/
theorem stat_cases {s s' : FatState} {n : Nat} {fStat : String → Option FileInfo} {k : Int}
    (h : stat s n fStat = (s', k)) :
    s' = s ∨ ∃ info : FileInfo, s' = ⟨s.nodes.modify (fun nd => { nd with
      nodeType := if info.isDir then FT_DIRECTORY else FT_FILE, length := info.fsize }) n,
      s.mountedBlockDevices⟩ := by
  unfold stat at h
  split at h
  · cases h; exact .inl rfl
  · split at h
    · cases h; exact .inl rfl
    · cases h; exact .inr ⟨_, rfl⟩

/-- **Every outcome of `mount`**: it fails and leaves the state and the target as they were; or
the source is a block device, the target a directory, `f_mount` succeeds on the lowest free
slot `v`, and the new overlay root of volume `v` is appended while slot `v` takes the device. -/
theorem mount_cases {volumes : Nat} {s s' : FatState} {source target t' : Option VfsNode}
    {fMount : String → Bool} {ok : Bool} (h : mount volumes s source target fMount = (s', t', ok)) :
    (s' = s ∧ t' = target ∧ ok = false) ∨
    ∃ node t v, source = some node ∧ target = some t ∧ node.nodeType = FT_BLOCK_DEVICE ∧
      t.nodeType = FT_DIRECTORY ∧ lowestFree volumes s.mountedBlockDevices = some v ∧
      fMount (drivePath v) = true ∧
      s' = ⟨s.nodes ++ [⟨t.name, FT_DIRECTORY, t.parent, some node.id, v, [], 0⟩],
        s.mountedBlockDevices.set v (some node.id)⟩ ∧
      t' = some { t with nodeType := t.nodeType ||| FT_MOUNT_POINT,
                         mountPoint := some s.nodes.length } ∧ ok = true := by
  unfold mount at h
  split at h
  · cases h; exact .inl ⟨rfl, rfl, rfl⟩
  · rename_i node
    split at h
    · rename_i hblock
      split at h
      · cases h; exact .inl ⟨rfl, rfl, rfl⟩
      · rename_i t
        split at h
        · rename_i hdir
          split at h
          · cases h; exact .inl ⟨rfl, rfl, rfl⟩
          · rename_i v hv
            split at h
            · cases h; exact .inr ⟨node, t, v, rfl, rfl, hblock, hdir, hv, ‹_›, rfl, rfl, rfl⟩
            · cases h
              refine .inl ⟨?_, rfl, rfl⟩
              rw [List.set_set, set_of_getElem? (lowestFree_eq_some.1 hv).2.1]
        · cases h; exact .inl ⟨rfl, rfl, rfl⟩
    · cases h; exact .inl ⟨rfl, rfl, rfl⟩

end Asterisk.Fat
