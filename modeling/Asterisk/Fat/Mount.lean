import Asterisk.Fat.Tree

/-! # Volume slots

`g_mounted_block_devices[v]` is the block device `disk_read`, `disk_write` and `disk_ioctl` call
for drive `v`. At every reachable state the slot table has `FF_VOLUMES` entries and agrees with the
overlay roots (`SlotInv`): the devices of the roots of volume `v` are exactly the device in slot
`v`, so a non-`NULL` slot has exactly one root, created by a successful `mount`, whose
`mount_source` it holds, and a `NULL` slot has none. Each `mount` takes the lowest free slot, fails
when there is none, and a failed `mount` leaves the slots and its target as they were, since it sets
back to `NULL` the slot it took (`mount_slots`). `mount` succeeds exactly when `checkMount` accepts
its source and target, a slot is free and `f_mount` succeeds (`mount_iff_checkMount`). -/

namespace Asterisk.Fat

/-! ## (1) The devices of the roots of a volume -/

/-- The block devices of the overlay roots of volume `v`, in the order they were mounted. -/
def rootDevices (nodes : List FsNode) (v : Nat) : List Nat :=
  nodes.filterMap fun nd => if nd.privateNodeData = v then nd.mountSource else none

@[simp] theorem rootDevices_nil (v : Nat) : rootDevices [] v = [] := rfl

theorem rootDevices_cons (nd : FsNode) (nodes : List FsNode) (v : Nat) :
    rootDevices (nd :: nodes) v =
      (if nd.privateNodeData = v then nd.mountSource else none).toList ++ rootDevices nodes v := by
  simp only [rootDevices, List.filterMap_cons]
  split <;> simp_all

@[simp] theorem rootDevices_append (nodes nodes' : List FsNode) (v : Nat) :
    rootDevices (nodes ++ nodes') v = rootDevices nodes v ++ rootDevices nodes' v :=
  List.filterMap_append _ _ _

/-- A call that keeps mount sources and volumes keeps the devices of every volume. -/
theorem rootDevices_modify {f : FsNode → FsNode} (hf : ∀ nd, NodeGrows nd (f nd)) (v : Nat) :
    ∀ (nodes : List FsNode) (d : Nat), rootDevices (nodes.modify f d) v = rootDevices nodes v
  | [], _ => by simp
  | nd :: nodes, 0 => by
    simp only [List.modify_zero_cons, rootDevices_cons, (hf nd).privateNodeData,
      (hf nd).mountSource]
  | nd :: nodes, d + 1 => by
    simp only [List.modify_succ_cons, rootDevices_cons, rootDevices_modify hf v nodes d]

/-- A slot that holds `x` reads as `x`. -/
theorem mountedDevice_of_getElem? {s : FatState} {v : Nat} {x : Option Nat}
    (h : s.mountedBlockDevices[v]? = some x) : mountedDevice s v = x := by
  simp [mountedDevice, h]

/-! ## (2) The slot invariant -/

/-- **Slots and overlay roots agree**: the table has `FF_VOLUMES` slots, and the devices of the
overlay roots of each volume are the device in its slot, none for a `NULL` slot. -/
structure SlotInv (volumes : Nat) (s : FatState) : Prop where
  length : s.mountedBlockDevices.length = volumes
  roots : ∀ v, rootDevices s.nodes v = (mountedDevice s v).toList

section Slots

variable {volumes : Nat}

/-- **A successful `mount` keeps the slots and roots in step**: the root it appends has the
volume of the slot it fills, and that slot was free. -/
theorem SlotInv.mount {s : FatState} (h : SlotInv volumes s) {v : Nat} (dev : Nat)
    (rt : FsNode) (hv : lowestFree volumes s.mountedBlockDevices = some v)
    (hpnd : rt.privateNodeData = v) (hms : rt.mountSource = some dev) :
    SlotInv volumes ⟨s.nodes ++ [rt], s.mountedBlockDevices.set v (some dev)⟩ := by
  obtain ⟨-, hfree, -⟩ := lowestFree_eq_some.1 hv
  have hlt : v < s.mountedBlockDevices.length := (List.getElem?_eq_some_iff.1 hfree).1
  refine ⟨by simpa using h.length, fun w => ?_⟩
  rw [rootDevices_append, h.roots w, rootDevices_cons, rootDevices_nil, List.append_nil]
  by_cases hw : v = w
  · subst hw
    rw [mountedDevice_of_getElem? hfree, if_pos hpnd, hms,
      mountedDevice_of_getElem? (List.getElem?_set_self hlt)]
    rfl
  · rw [if_neg (hpnd ▸ hw)]
    simp [mountedDevice, List.getElem?_set_ne hw]

/-- **One call keeps `SlotInv`.** -/
theorem fatStep_slotInv {s s' : FatState} (h : FatStep volumes s s') (hs : SlotInv volumes s) :
    SlotInv volumes s' := by
  cases h with
  | mount source target fMount =>
    rcases hm : mount volumes s source target fMount with ⟨s', t', ok⟩
    rcases mount_cases hm with ⟨rfl, -⟩ | ⟨node, t, v, -, -, -, -, hv, -, rfl, -⟩
    · exact hs
    · exact hs.mount node.id _ hv rfl rfl
  | finddir d name fStat _ =>
    rcases hf : finddir s d name fStat with ⟨s', r⟩
    rcases finddir_cases hf with ⟨rfl, -⟩ | ⟨dn, -, info, -, -, -, -, -, rfl⟩
    · exact hs
    · refine ⟨hs.length, fun w => ?_⟩
      rw [rootDevices_append, rootDevices_modify (fun nd => NodeGrows.addChild nd _),
        rootDevices_cons, rootDevices_nil]
      simpa using hs.roots w
  | stat n fStat =>
    rcases hst : stat s n fStat with ⟨s', k⟩
    rcases stat_cases hst with rfl | ⟨info, rfl⟩
    · exact hs
    · exact ⟨hs.length, fun w => by
        rw [rootDevices_modify (fun nd => NodeGrows.setType nd info)]
        exact hs.roots w⟩

theorem slotInv_of_reachable {s : FatState} (h : FatReachable volumes s) : SlotInv volumes s := by
  induction h with
  | init =>
    refine ⟨by simp [FatState.init], fun v => ?_⟩
    by_cases hv : v < volumes <;> simp [FatState.init, mountedDevice, List.getElem?_replicate, hv]
  | step _ hst ih => exact fatStep_slotInv hst ih

end Slots

/-! ## (3) Mounting -/

/-- **The volume slots of the FAT provider**: at every reachable state the table has
`FF_VOLUMES` slots, and for every volume `v` the devices of the overlay roots of volume `v` are
the device `disk_read`, `disk_write` and `disk_ioctl` call for drive `v`: one root whose
`mount_source` the slot holds when it is non-`NULL`, none when it is `NULL`. A successful `mount`
takes the lowest free slot and puts its source there; `mount` fails when every slot is taken;
a failed `mount` leaves the state, slots included, and the target node as they were. -/
theorem mount_slots {volumes : Nat} {s : FatState} (hs : FatReachable volumes s) :
    s.mountedBlockDevices.length = volumes ∧
    (∀ v, ∀ disk ∈ [diskRead, diskWrite, diskIoctl], rootDevices s.nodes v = (disk s v).toList) ∧
    ∀ source target fMount s' t' ok, mount volumes s source target fMount = (s', t', ok) →
      (ok = true → ∃ node v, source = some node ∧ v < volumes ∧ mountedDevice s v = none ∧
        (∀ w < v, mountedDevice s w ≠ none) ∧
        s'.mountedBlockDevices = s.mountedBlockDevices.set v (some node.id)) ∧
      ((∀ v < volumes, mountedDevice s v ≠ none) → ok = false) ∧
      (ok = false → s' = s ∧ t' = target) := by
  have hi := slotInv_of_reachable hs
  refine ⟨hi.length, fun v disk hdisk => ?_, fun source target fMount s' t' ok h => ?_⟩
  · simp only [List.mem_cons, List.mem_singleton, List.not_mem_nil, or_false] at hdisk
    rcases hdisk with rfl | rfl | rfl <;> exact hi.roots v
  rcases mount_cases h with ⟨hs', ht', rfl⟩ | ⟨node, t, v, rfl, -, -, -, hv, -, rfl, -, rfl⟩
  · exact ⟨nofun, fun _ => rfl, fun _ => ⟨hs', ht'⟩⟩
  obtain ⟨hlt, hfree, hlow⟩ := lowestFree_eq_some.1 hv
  refine ⟨fun _ => ⟨node, v, rfl, hlt, mountedDevice_of_getElem? hfree, fun w hw => ?_, rfl⟩,
    fun hfull => absurd (mountedDevice_of_getElem? hfree) (hfull v hlt), nofun⟩
  have hx := List.getElem?_eq_getElem (show w < s.mountedBlockDevices.length by
    rw [hi.length]; omega)
  rw [mountedDevice_of_getElem? hx]
  intro hnone
  exact hlow w hw (hnone ▸ hx)

theorem mount_slots_mounted :
    ∃ s, s = (mount 1 (FatState.init 1) (some ⟨1, "hd", FT_BLOCK_DEVICE, none, none⟩)
        (some ⟨2, "mnt", FT_DIRECTORY, some 0, none⟩) fun _ => true).1 ∧
      FatReachable 1 s ∧ s.mountedBlockDevices.length = 1 ∧
      (∀ v, ∀ disk ∈ [diskRead, diskWrite, diskIoctl], rootDevices s.nodes v = (disk s v).toList) ∧
      ∀ source target fMount s' t' ok, mount 1 s source target fMount = (s', t', ok) →
        (ok = true → ∃ node v, source = some node ∧ v < 1 ∧ mountedDevice s v = none ∧
          (∀ w < v, mountedDevice s w ≠ none) ∧
          s'.mountedBlockDevices = s.mountedBlockDevices.set v (some node.id)) ∧
        ((∀ v < 1, mountedDevice s v ≠ none) → ok = false) ∧
        (ok = false → s' = s ∧ t' = target) := by
  have hs : FatReachable 1 _ := .step .init (.mount (FatState.init 1)
    (some ⟨1, "hd", FT_BLOCK_DEVICE, none, none⟩) (some ⟨2, "mnt", FT_DIRECTORY, some 0, none⟩)
    fun _ => true)
  exact ⟨_, rfl, hs, mount_slots hs⟩

/-! ## (4) `checkMount` and `mount` -/

/-- **`checkMount` answers for the checks `mount` makes before it takes a slot.** For every state,
source, target and answer of `f_mount`: `mount` returns `TRUE` exactly when `checkMount` accepts
the source and target, a volume slot is free and `f_mount` succeeds on the drive of the lowest free
one; when it returns `FALSE`, the overlay, the slots and the target are as before, the slot taken
before a failed `f_mount` being set back to `NULL`. -/
theorem mount_iff_checkMount (volumes : Nat) (s : FatState) (source target : Option VfsNode)
    (fMount : String → Bool) :
    ((mount volumes s source target fMount).2.2 = true ↔ checkMount source target = true ∧
      ∃ v, lowestFree volumes s.mountedBlockDevices = some v ∧ fMount (drivePath v) = true) ∧
    ((mount volumes s source target fMount).2.2 = false →
      (mount volumes s source target fMount).1 = s ∧
        (mount volumes s source target fMount).2.1 = target) := by
  rcases hm : mount volumes s source target fMount with ⟨s', t', ok⟩
  refine ⟨⟨fun hok => ?_, fun ⟨hc, v, hv, hf⟩ => ?_⟩, fun hok => ?_⟩
  · rcases mount_cases hm with ⟨-, -, rfl⟩ | ⟨node, t, v, rfl, rfl, hb, hd, hv, hf, -⟩
    · cases hok
    · exact ⟨by simp [checkMount, hb, hd], v, hv, hf⟩
  · rcases source with _ | node
    · cases hc
    rcases target with _ | t
    · simp [checkMount] at hc
    simp only [checkMount] at hc
    split_ifs at hc with hb hd
    have : (mount volumes s (some node) (some t) fMount).2.2 = true := by
      simp [mount, hb, hd, hv, hf]
    rwa [hm] at this
  · rcases mount_cases hm with ⟨rfl, rfl, -⟩ | ⟨-, -, -, -, -, -, -, -, -, -, -, rfl⟩
    · exact ⟨rfl, rfl⟩
    · cases hok

end Asterisk.Fat
