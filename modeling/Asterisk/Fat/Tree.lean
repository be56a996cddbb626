import Asterisk.Fat.Path
import Asterisk.Fat.Calls
import Mathlib.Data.List.Nodup
import Mathlib.Logic.Relation

/-! # The overlay tree

`finddir` builds the overlay lazily, one node per name it looks up, and nothing else removes or
renames a node. At every state a sequence of calls reaches (`TreeInv`): every child of a node has
that node as parent, the children of a node have pairwise distinct names, and every node reaches
an overlay root through its parents. A lookup is stable: once `finddir(d, x)` has returned a
node, every later `finddir(d, x)` returns the same node and changes nothing
(`overlay_tree_invariant`). And the path `finddir` hands to `f_stat` for a node it creates is the
path every later `readdir`, `stat` or `open` of that node assembles (`node_paths_of_reachable`).

All of it rests on one frame relation, `Grows`: every call keeps the name, parent, mount source and
volume of every node, and extends child chains only at their end. -/

namespace Asterisk.Fat

/-! ## (1) What every call keeps -/

/-- **What a call keeps of a node**: the fields path assembly and `finddir` read, and the child
chain up to its end. -/
structure NodeGrows (nd nd' : FsNode) : Prop where
  name : nd'.name = nd.name
  parent : nd'.parent = nd.parent
  mountSource : nd'.mountSource = nd.mountSource
  privateNodeData : nd'.privateNodeData = nd.privateNodeData
  children : nd.children <+: nd'.children

theorem NodeGrows.refl (nd : FsNode) : NodeGrows nd nd :=
  ⟨rfl, rfl, rfl, rfl, List.prefix_refl _⟩

theorem NodeGrows.trans {a b c : FsNode} (h₁ : NodeGrows a b) (h₂ : NodeGrows b c) :
    NodeGrows a c :=
  ⟨h₂.name.trans h₁.name, h₂.parent.trans h₁.parent, h₂.mountSource.trans h₁.mountSource,
    h₂.privateNodeData.trans h₁.privateNodeData, h₁.children.trans h₂.children⟩

/-- `finddir` appends a node to the child chain of the directory. -/
theorem NodeGrows.addChild (nd : FsNode) (c : Nat) :
    NodeGrows nd { nd with children := nd.children ++ [c] } :=
  ⟨rfl, rfl, rfl, rfl, List.prefix_append _ _⟩

/-- `stat` sets the type and length of a node. -/
theorem NodeGrows.setType (nd : FsNode) (info : FileInfo) :
    NodeGrows nd { nd with nodeType := if info.isDir then FT_DIRECTORY else FT_FILE,
                           length := info.fsize } :=
  ⟨rfl, rfl, rfl, rfl, List.prefix_refl _⟩

/-- **The overlay only grows**: every node stays at its position, with `NodeGrows`. -/
def Grows (nodes nodes' : List FsNode) : Prop :=
  ∀ (i : Nat) (nd : FsNode), nodes[i]? = some nd → ∃ nd', nodes'[i]? = some nd' ∧ NodeGrows nd nd'

section Grows

variable {nodes nodes' nodes'' : List FsNode}

theorem Grows.refl (nodes : List FsNode) : Grows nodes nodes := fun _ nd h => ⟨nd, h, .refl nd⟩

theorem Grows.trans (h₁ : Grows nodes nodes') (h₂ : Grows nodes' nodes'') : Grows nodes nodes'' :=
  fun i nd h => by
    obtain ⟨nd', h', g₁⟩ := h₁ i nd h
    obtain ⟨nd'', h'', g₂⟩ := h₂ i nd' h'
    exact ⟨nd'', h'', g₁.trans g₂⟩

/-- A modification that keeps what `NodeGrows` keeps, then nodes appended. -/
theorem grows_modify_append {f : FsNode → FsNode} (hf : ∀ nd, NodeGrows nd (f nd))
    (nodes : List FsNode) (d : Nat) (extra : List FsNode) :
    Grows nodes (nodes.modify f d ++ extra) := fun i nd h => by
  have hi : i < (nodes.modify f d).length := by
    simpa using (List.getElem?_eq_some_iff.1 h).1
  rw [List.getElem?_append_left hi, List.getElem?_modify, h]
  by_cases hdi : d = i
  · exact ⟨f nd, by simp [hdi], hf nd⟩
  · exact ⟨nd, by simp [hdi], .refl nd⟩

/-- Appending nodes keeps the old ones. -/
theorem grows_append (nodes extra : List FsNode) : Grows nodes (nodes ++ extra) := fun i nd h =>
  ⟨nd, by rw [List.getElem?_append_left (List.getElem?_eq_some_iff.1 h).1]; exact h, .refl nd⟩

/-- Names of old nodes are kept. -/
theorem Grows.nameOf_eq (h : Grows nodes nodes') {c : Nat} (hc : c < nodes.length) :
    nameOf nodes' c = nameOf nodes c := by
  obtain ⟨nd', h', g⟩ := h c _ (List.getElem?_eq_getElem hc)
  simp [nameOf, h', g.name, List.getElem?_eq_getElem hc]

/-- Parent chains are kept. -/
theorem Grows.chain (h : Grows nodes nodes') {r n : Nat} {ns : List String}
    (hc : Chain nodes r n ns) : Chain nodes' r n ns := by
  induction hc with
  | root hr hms =>
    obtain ⟨_, hr', g⟩ := h _ _ hr
    exact .root hr' (g.mountSource ▸ hms)
  | step hn hms hp _ ih =>
    obtain ⟨_, hn', g⟩ := h _ _ hn
    exact g.name ▸ .step hn' (g.mountSource ▸ hms) (g.parent ▸ hp) ih

/-- A child of `d` named `x` stays a child of `d` named `x`. -/
theorem Grows.child (h : Grows nodes nodes') {d c : Nat} {dn : FsNode} {x : String}
    (hd : nodes[d]? = some dn) (hc : c ∈ dn.children) (hx : nameOf nodes c = some x) :
    ∃ dn', nodes'[d]? = some dn' ∧ c ∈ dn'.children ∧ nameOf nodes' c = some x := by
  obtain ⟨dn', hd', g⟩ := h d dn hd
  obtain ⟨cn, hcn, rfl⟩ := Option.map_eq_some'.1 hx
  obtain ⟨cn', hcn', gc⟩ := h c cn hcn
  exact ⟨dn', hd', g.children.subset hc, by simp [nameOf, hcn', gc.name]⟩

end Grows

/-! ## (2) The tree invariant -/

/-- **The overlay is a tree of named nodes** hanging from overlay roots. -/
structure TreeInv (nodes : List FsNode) : Prop where
  /-- Every child of a node is a node whose parent is that node. -/
  children_parent : ∀ (d : Nat) (dn : FsNode) (c : Nat), nodes[d]? = some dn → c ∈ dn.children →
    ∃ cn, nodes[c]? = some cn ∧ cn.parent = some d
  /-- The children of a node have pairwise distinct names. -/
  names_nodup : ∀ (d : Nat) (dn : FsNode), nodes[d]? = some dn →
    (dn.children.map (nameOf nodes)).Nodup
  /-- Every node reaches an overlay root through its parents, none of them `NULL`. -/
  chain : ∀ n : Nat, n < nodes.length → ∃ r ns, Chain nodes r n ns

theorem treeInv_nil : TreeInv [] := ⟨nofun, nofun, nofun⟩

section Preservation

variable {nodes : List FsNode}

theorem TreeInv.child_lt (h : TreeInv nodes) {d c : Nat} {dn : FsNode} (hd : nodes[d]? = some dn)
    (hc : c ∈ dn.children) : c < nodes.length := by
  obtain ⟨_, hcn, -⟩ := h.children_parent d dn c hd hc
  exact (List.getElem?_eq_some_iff.1 hcn).1

/-- Children and their parents are kept by a call that only grows the overlay. -/
theorem TreeInv.children_parent_of_grows (h : TreeInv nodes) {nodes' : List FsNode}
    (hg : Grows nodes nodes') {d c : Nat} {dn : FsNode} (hd : nodes[d]? = some dn)
    (hc : c ∈ dn.children) : ∃ cn, nodes'[c]? = some cn ∧ cn.parent = some d := by
  obtain ⟨cn, hcn, hp⟩ := h.children_parent d dn c hd hc
  obtain ⟨cn', hcn', g⟩ := hg c cn hcn
  exact ⟨cn', hcn', g.parent.trans hp⟩

/-- The names of the old children of a node are kept by a call that only grows the overlay. -/
theorem TreeInv.map_nameOf_of_grows (h : TreeInv nodes) {nodes' : List FsNode}
    (hg : Grows nodes nodes') {d : Nat} {dn : FsNode} (hd : nodes[d]? = some dn) :
    dn.children.map (nameOf nodes') = dn.children.map (nameOf nodes) :=
  List.map_congr_left fun _ hc => hg.nameOf_eq (h.child_lt hd hc)

/-- **`stat` keeps the tree**: it sets the type and length of one node. -/
theorem TreeInv.modify (h : TreeInv nodes) {f : FsNode → FsNode} (hf : ∀ nd, NodeGrows nd (f nd))
    (hch : ∀ nd, (f nd).children = nd.children) (n : Nat) : TreeInv (nodes.modify f n) := by
  have hg : Grows nodes (nodes.modify f n) := by
    simpa using grows_modify_append hf nodes n []
  have hsame : ∀ {i : Nat} {ni : FsNode}, (nodes.modify f n)[i]? = some ni →
      ∃ nd, nodes[i]? = some nd ∧ ni.children = nd.children := fun hi => by
    rw [List.getElem?_modify, Option.map_eq_map] at hi
    obtain ⟨nd, hnd, rfl⟩ := Option.map_eq_some'.1 hi
    exact ⟨nd, hnd, by split <;> simp [hch]⟩
  refine ⟨fun d dn c hd hc => ?_, fun d dn hd => ?_, fun m hm => ?_⟩
  · obtain ⟨nd, hnd, hdn⟩ := hsame hd
    exact h.children_parent_of_grows hg hnd (hdn ▸ hc)
  · obtain ⟨nd, hnd, hdn⟩ := hsame hd
    rw [hdn, h.map_nameOf_of_grows hg hnd]
    exact h.names_nodup d nd hnd
  · obtain ⟨r, ns, hc⟩ := h.chain m (by simpa using hm)
    exact ⟨r, ns, hg.chain hc⟩

/-- **`mount` keeps the tree**: it appends an overlay root with no children. -/
theorem TreeInv.append_root (h : TreeInv nodes) {rt : FsNode} (hms : rt.mountSource ≠ none)
    (hch : rt.children = []) : TreeInv (nodes ++ [rt]) := by
  have hg : Grows nodes (nodes ++ [rt]) := grows_append nodes [rt]
  have hold : ∀ {i : Nat} {ni : FsNode}, (nodes ++ [rt])[i]? = some ni → i ≠ nodes.length →
      nodes[i]? = some ni := fun {i ni} hi hne => by
    rw [List.getElem?_append] at hi
    split at hi
    · exact hi
    · obtain ⟨k, hk⟩ : ∃ k, i - nodes.length = k + 1 := ⟨i - nodes.length - 1, by omega⟩
      simp [hk] at hi
  have hnew : (nodes ++ [rt])[nodes.length]? = some rt := List.getElem?_concat_length nodes rt
  refine ⟨fun d dn c hd hc => ?_, fun d dn hd => ?_, fun m hm => ?_⟩
  · by_cases hdl : d = nodes.length
    · subst hdl; rw [hnew] at hd; cases hd; simp [hch] at hc
    · exact h.children_parent_of_grows hg (hold hd hdl) hc
  · by_cases hdl : d = nodes.length
    · subst hdl; rw [hnew] at hd; cases hd; simp [hch]
    · rw [h.map_nameOf_of_grows hg (hold hd hdl)]
      exact h.names_nodup d dn (hold hd hdl)
  · simp only [List.length_append, List.length_singleton] at hm
    rcases Nat.lt_succ_iff_lt_or_eq.1 hm with hm | rfl
    · obtain ⟨r, ns, hc⟩ := h.chain m hm
      exact ⟨r, ns, hg.chain hc⟩
    · exact ⟨nodes.length, [], .root hnew hms⟩

/-- **`finddir` keeps the tree**: it appends to the child chain of `d` a new node whose name no
child of `d` has, with `d` as parent. -/
theorem TreeInv.add_child (h : TreeInv nodes) {d : Nat} {dn : FsNode} {x : String} {ty len : Nat}
    (hd : nodes[d]? = some dn) (hx : ∀ c ∈ dn.children, nameOf nodes c ≠ some x) :
    TreeInv (nodes.modify (fun n => { n with children := n.children ++ [nodes.length] }) d ++
      [⟨x, ty, some d, none, 0, [], len⟩]) := by
  set nodes' := nodes.modify (fun n => { n with children := n.children ++ [nodes.length] }) d ++
    [⟨x, ty, some d, none, 0, [], len⟩]
  have hg : Grows nodes nodes' :=
    grows_modify_append (fun nd => NodeGrows.addChild nd nodes.length) nodes d _
  have hnew : nodes'[nodes.length]? = some ⟨x, ty, some d, none, 0, [], len⟩ := by
    simp [nodes', List.getElem?_append_right]
  have hlen : nodes'.length = nodes.length + 1 := by simp [nodes']
  refine ⟨fun i ni c hi hc => ?_, fun i ni hi => ?_, fun m hm => ?_⟩
  · rcases getElem?_modify_append hi with ⟨nd, hnd, rfl⟩ | ⟨-, hex⟩
    · by_cases hdi : d = i
      · subst hdi
        rw [if_pos rfl, List.mem_append, List.mem_singleton] at hc
        rcases hc with hc | rfl
        · exact h.children_parent_of_grows hg hnd hc
        · exact ⟨_, hnew, rfl⟩
      · rw [if_neg hdi] at hc
        exact h.children_parent_of_grows hg hnd hc
    · cases List.mem_singleton.1 (List.getElem?_mem hex)
      simp at hc
  · rcases getElem?_modify_append hi with ⟨nd, hnd, rfl⟩ | ⟨-, hex⟩
    · rw [apply_ite FsNode.children]
      by_cases hdi : d = i
      · subst hdi
        rw [hd] at hnd; cases hnd
        have hfresh : nameOf nodes' nodes.length ∉ dn.children.map (nameOf nodes') := by
          simp only [nameOf, hnew, Option.map_some', List.mem_map, not_exists, not_and]
          intro c hc hcx
          exact hx c hc ((hg.nameOf_eq (h.child_lt hd hc)).symm.trans hcx)
        rw [if_pos rfl, List.map_append, List.map_singleton, ← List.concat_eq_append]
        exact (h.map_nameOf_of_grows hg hd ▸ h.names_nodup d dn hd).concat hfresh
      · rw [if_neg hdi, h.map_nameOf_of_grows hg hnd]
        exact h.names_nodup i nd hnd
    · cases List.mem_singleton.1 (List.getElem?_mem hex)
      simp
  · rw [hlen] at hm
    rcases Nat.lt_succ_iff_lt_or_eq.1 hm with hm | rfl
    · obtain ⟨r, ns, hc⟩ := h.chain m hm
      exact ⟨r, ns, hg.chain hc⟩
    · obtain ⟨r, ns, hc⟩ := h.chain d (List.getElem?_eq_some_iff.1 hd).1
      exact ⟨r, ns ++ [x], .step hnew rfl rfl (hg.chain hc)⟩

end Preservation

/-! ## (3) Step and run lemmas -/

/-- **`finddir` keeps the tree and only grows the overlay**, whatever name it looks up. -/
theorem finddir_preserves {s s' : FatState} {d : Nat} {x : String}
    {fStat : String → Option FileInfo} {r : Option Nat} (h : finddir s d x fStat = (s', r))
    (hi : TreeInv s.nodes) : TreeInv s'.nodes ∧ Grows s.nodes s'.nodes := by
  rcases finddir_cases h with ⟨rfl, -⟩ | ⟨dn, -, info, hd, hx, -, -, -, rfl⟩
  · exact ⟨hi, .refl _⟩
  · exact ⟨hi.add_child hd hx,
      grows_modify_append (fun nd => NodeGrows.addChild nd s.nodes.length) _ d _⟩

/-- **One call keeps the tree and only grows the overlay.** -/
theorem fatStep_preserves {volumes : Nat} {s s' : FatState} (h : FatStep volumes s s')
    (hi : TreeInv s.nodes) : TreeInv s'.nodes ∧ Grows s.nodes s'.nodes := by
  cases h with
  | mount source target fMount =>
    rcases hm : mount volumes s source target fMount with ⟨s', t', ok⟩
    rcases mount_cases hm with ⟨rfl, -⟩ | ⟨node, t, v, -, -, -, -, -, -, rfl, -⟩
    · exact ⟨hi, .refl _⟩
    · exact ⟨hi.append_root (by simp) rfl, grows_append _ _⟩
  | finddir d name fStat _ =>
    rcases hf : finddir s d name fStat with ⟨s', r⟩
    exact finddir_preserves hf hi
  | stat n fStat =>
    rcases hst : stat s n fStat with ⟨s', k⟩
    rcases stat_cases hst with rfl | ⟨info, rfl⟩
    · exact ⟨hi, .refl _⟩
    · have hf := fun nd => NodeGrows.setType nd info
      exact ⟨hi.modify hf (fun _ => rfl) n, by simpa using grows_modify_append hf s.nodes n []⟩

/-- A sequence of calls. -/
def FatRun (volumes : Nat) : FatState → FatState → Prop := Relation.ReflTransGen (FatStep volumes)

/-- **A run keeps the tree and only grows the overlay.** -/
theorem fatRun_preserves {volumes : Nat} {s s' : FatState} (h : FatRun volumes s s')
    (hi : TreeInv s.nodes) : TreeInv s'.nodes ∧ Grows s.nodes s'.nodes := by
  induction h with
  | refl => exact ⟨hi, .refl _⟩
  | tail _ hst ih =>
    obtain ⟨hi', g⟩ := ih
    obtain ⟨hi'', g'⟩ := fatStep_preserves hst hi'
    exact ⟨hi'', g.trans g'⟩

theorem treeInv_of_reachable {volumes : Nat} {s : FatState} (h : FatReachable volumes s) :
    TreeInv s.nodes := by
  induction h with
  | init => exact treeInv_nil
  | step _ hst ih => exact (fatStep_preserves hst ih).1

/-! ## (4) Stable lookups -/

/-- **A lookup finds the child of that name**: when `d` has a child named `x`, `finddir(d, x)`
returns it and changes nothing, whatever `f_stat` would answer. -/
theorem finddir_of_child {s : FatState} (hi : TreeInv s.nodes) {d c : Nat} {dn : FsNode}
    {x : String} (hd : s.nodes[d]? = some dn) (hc : c ∈ dn.children)
    (hx : nameOf s.nodes c = some x) (fStat : String → Option FileInfo) :
    finddir s d x fStat = (s, some c) := by
  have hfind : dn.children.find? (fun c => nameOf s.nodes c = some x) = some c := by
    have hsome : (dn.children.find? (fun c => nameOf s.nodes c = some x)).isSome :=
      List.find?_isSome.2 ⟨c, hc, by simpa using hx⟩
    obtain ⟨c', hc'⟩ := Option.isSome_iff_exists.1 hsome
    have hx' : nameOf s.nodes c' = some x := by simpa using List.find?_some hc'
    rw [hc', List.inj_on_of_nodup_map (hi.names_nodup d dn hd) (List.mem_of_find?_eq_some hc') hc
      (hx'.trans hx.symm)]
  simp only [finddir, hd, hfind]

/-- What `finddir` returns is a child of `d` named `x`. -/
theorem finddir_child {s s' : FatState} {d c : Nat} {x : String}
    {fStat : String → Option FileInfo} (h : finddir s d x fStat = (s', some c)) :
    ∃ dn, s'.nodes[d]? = some dn ∧ c ∈ dn.children ∧ nameOf s'.nodes c = some x := by
  rcases finddir_cases h with ⟨rfl, hc⟩ | ⟨dn, -, info, hd, -, -, -, hr, rfl⟩
  · exact hc c rfl
  · cases hr
    have hlt : d < s.nodes.length := (List.getElem?_eq_some_iff.1 hd).1
    refine ⟨{ dn with children := dn.children ++ [s.nodes.length] }, ?_,
      List.mem_append_right _ (List.mem_singleton_self _), ?_⟩
    · rw [List.getElem?_append_left (by simpa using hlt), List.getElem?_modify_eq, hd]; rfl
    · simp [nameOf, List.getElem?_append_right]

/-- **The FAT overlay is a tree, and lookups are stable**: at every reachable state, children
have their directory as parent and distinct names, and every node reaches an overlay root; and
once `finddir(d, x)` has returned a node, every `finddir(d, x)` after any further calls returns
that node and leaves the state, so the child list of `d`, unchanged. -/
theorem overlay_tree_invariant {volumes : Nat} {s : FatState} (hs : FatReachable volumes s) :
    TreeInv s.nodes ∧
      ∀ d x fStat s₁ c, finddir s d x fStat = (s₁, some c) →
        ∀ s₂, FatRun volumes s₁ s₂ → ∀ fStat', finddir s₂ d x fStat' = (s₂, some c) := by
  have hi := treeInv_of_reachable hs
  refine ⟨hi, fun d x fStat s₁ c h s₂ hrun fStat' => ?_⟩
  obtain ⟨hi₁, -⟩ := finddir_preserves h hi
  obtain ⟨hi₂, g⟩ := fatRun_preserves hrun hi₁
  obtain ⟨dn, hd, hc, hx⟩ := finddir_child h
  obtain ⟨dn₂, hd₂, hc₂, hx₂⟩ := g.child hd hc hx
  exact finddir_of_child hi₂ hd₂ hc₂ hx₂ fStat'

theorem overlay_tree_invariant_mounted :
    ∃ s, s = (finddir (mount 1 (FatState.init 1) (some ⟨1, "hd", FT_BLOCK_DEVICE, none, none⟩)
        (some ⟨2, "mnt", FT_DIRECTORY, some 0, none⟩) fun _ => true).1 0 "a"
        fun _ => some ⟨false, 5⟩).1 ∧
      FatReachable 1 s ∧ TreeInv s.nodes ∧
      ∀ d x fStat s₁ c, finddir s d x fStat = (s₁, some c) →
        ∀ s₂, FatRun 1 s₁ s₂ → ∀ fStat', finddir s₂ d x fStat' = (s₂, some c) := by
  have hs := FatReachable.step (.step .init (.mount (FatState.init 1)
    (some ⟨1, "hd", FT_BLOCK_DEVICE, none, none⟩) (some ⟨2, "mnt", FT_DIRECTORY, some 0, none⟩)
    fun _ => true)) (.finddir _ 0 "a" (fun _ => some ⟨false, 5⟩) (by decide))
  exact ⟨_, rfl, hs, overlay_tree_invariant hs⟩

/-! ## (5) What path assembly needs of a reachable overlay -/

/-- **What path assembly needs**: names below an overlay root are C strings, and every overlay
root's volume is a slot number. -/
structure PathInv (volumes : Nat) (nodes : List FsNode) : Prop where
  /-- A name `finddir` copied is a C string. -/
  cstring : ∀ (i : Nat) (nd : FsNode), nodes[i]? = some nd → nd.mountSource = none →
    nul ∉ nd.name.data
  /-- An overlay root's volume is below `FF_VOLUMES`. -/
  volume_lt : ∀ (i : Nat) (nd : FsNode), nodes[i]? = some nd → nd.mountSource ≠ none →
    nd.privateNodeData < volumes

section Paths

variable {volumes : Nat} {nodes : List FsNode}

/-- A call that keeps what `NodeGrows` keeps and appends nodes that satisfy `PathInv` keeps it. -/
theorem PathInv.modify_append (h : PathInv volumes nodes) (f : FsNode → FsNode)
    (hf : ∀ nd, NodeGrows nd (f nd)) (d : Nat) (extra : List FsNode)
    (hex : ∀ nd ∈ extra, (nd.mountSource = none → nul ∉ nd.name.data) ∧
      (nd.mountSource ≠ none → nd.privateNodeData < volumes)) :
    PathInv volumes (nodes.modify f d ++ extra) := by
  have hold : ∀ {i : Nat} {nd' : FsNode}, (nodes.modify f d ++ extra)[i]? = some nd' →
      (∃ nd, nodes[i]? = some nd ∧ NodeGrows nd nd') ∨ nd' ∈ extra := fun hi =>
    (getElem?_modify_append hi).imp
      (fun ⟨nd, hnd, he⟩ => ⟨nd, hnd, by subst he; split <;> simp [hf, NodeGrows.refl]⟩)
      (fun ⟨_, hex⟩ => List.getElem?_mem hex)
  refine ⟨fun i nd' hi hms => ?_, fun i nd' hi hms => ?_⟩
  · rcases hold hi with ⟨nd, hnd, g⟩ | hmem
    · exact g.name ▸ h.cstring i nd hnd (g.mountSource ▸ hms)
    · exact (hex nd' hmem).1 hms
  · rcases hold hi with ⟨nd, hnd, g⟩ | hmem
    · exact g.privateNodeData ▸ h.volume_lt i nd hnd (g.mountSource ▸ hms)
    · exact (hex nd' hmem).2 hms

/-- **One call keeps `PathInv`**: `finddir` copies a C string, and `mount` numbers its root with
the slot it takes. -/
theorem fatStep_pathInv {s s' : FatState} (h : FatStep volumes s s')
    (hp : PathInv volumes s.nodes) : PathInv volumes s'.nodes := by
  cases h with
  | mount source target fMount =>
    rcases hm : mount volumes s source target fMount with ⟨s', t', ok⟩
    rcases mount_cases hm with ⟨rfl, -⟩ | ⟨node, t, v, -, -, -, -, hv, -, rfl, -⟩
    · exact hp
    · simpa using hp.modify_append id NodeGrows.refl 0
        [⟨t.name, FT_DIRECTORY, t.parent, some node.id, v, [], 0⟩]
        (by simpa using (lowestFree_eq_some.1 hv).1)
  | finddir d name fStat hnul =>
    rcases hf : finddir s d name fStat with ⟨s', r⟩
    rcases finddir_cases hf with ⟨rfl, -⟩ | ⟨dn, -, info, -, -, -, -, -, rfl⟩
    · exact hp
    · exact hp.modify_append _ (fun nd => NodeGrows.addChild nd s.nodes.length) d _
        (by simpa using hnul)
  | stat n fStat =>
    rcases hst : stat s n fStat with ⟨s', k⟩
    rcases stat_cases hst with rfl | ⟨info, rfl⟩
    · exact hp
    · simpa using hp.modify_append _ (fun nd => NodeGrows.setType nd info) n [] (by simp)

theorem pathInv_of_reachable {s : FatState} (h : FatReachable volumes s) :
    PathInv volumes s.nodes := by
  induction h with
  | init => exact ⟨nofun, nofun⟩
  | step _ hst ih => exact fatStep_pathInv hst ih

/-- The names along a chain are C strings. -/
theorem Chain.names_cstring (hp : PathInv volumes nodes) {r n : Nat} {ns : List String}
    (hc : Chain nodes r n ns) : ∀ m ∈ ns, nul ∉ m.data := by
  induction hc with
  | root => simp
  | step hn hms _ _ ih =>
    simpa [or_imp, forall_and] using ⟨ih, hp.cstring _ _ hn hms⟩

/-- A chain ends at an overlay root. -/
theorem Chain.root_get {r n : Nat} {ns : List String} (hc : Chain nodes r n ns) :
    ∃ rt, nodes[r]? = some rt ∧ rt.mountSource ≠ none := by
  induction hc with
  | root hr hms => exact ⟨_, hr, hms⟩
  | step _ _ _ _ ih => exact ih

end Paths

/-! ## (6) The paths of a reachable overlay -/

/-- **Every node's path, and the path `finddir` checks**: at every reachable state, with at most
`10⁷` volumes, every node has a parent chain to an overlay root along which `readdir`, `stat` and
`open` assemble `decimal(v) ++ ":" ++ join("/", names)`, or fail when that is longer than 126
characters; and when `finddir` creates a node, the path it passed to `f_stat` is the path these
calls assemble for that node after any further calls. -/
theorem node_paths_of_reachable {volumes : Nat} {s : FatState} (hs : FatReachable volumes s)
    (hv : volumes ≤ 10 ^ 7) :
    (∀ n, n < s.nodes.length → ∃ r rt ns, Chain s.nodes r n ns ∧ s.nodes[r]? = some rt ∧
      assemblePath s.nodes n =
        if (fatPath rt.privateNodeData ns).length ≤ 126 then .ok (fatPath rt.privateNodeData ns)
        else .error .tooLong) ∧
    ∀ d x fStat s₁, nul ∉ x.data → finddir s d x fStat = (s₁, some s.nodes.length) →
      ∃ path, finddirPath s.nodes d x = .ok path ∧ fStat path ≠ none ∧
        ∀ s₂, FatRun volumes s₁ s₂ → assemblePath s₂.nodes s.nodes.length = .ok path := by
  have hi := treeInv_of_reachable hs
  have hp := pathInv_of_reachable hs
  have hvol : ∀ {r : Nat} {rt : FsNode}, s.nodes[r]? = some rt → rt.mountSource ≠ none →
      rt.privateNodeData < 10 ^ 7 := fun hr hms => by
    have := hp.volume_lt _ _ hr hms; omega
  refine ⟨fun n hn => ?_, fun d x fStat s₁ hx h => ?_⟩
  · obtain ⟨r, ns, hc⟩ := hi.chain n hn
    obtain ⟨rt, hr, hms⟩ := hc.root_get
    exact ⟨r, rt, ns, hc, hr, assemblePath_chain hc hr (hvol hr hms) (hc.names_cstring hp)⟩
  obtain ⟨hi₁, hg₁⟩ := finddir_preserves h hi
  rcases finddir_cases h with ⟨-, hc⟩ | ⟨dn, path, info, hd, -, hpath, hinfo, -, rfl⟩
  · obtain ⟨dn, hd, hc, -⟩ := hc _ rfl
    exact absurd (hi.child_lt hd hc) (lt_irrefl _)
  refine ⟨path, hpath, by simp [hinfo], fun s₂ hrun => ?_⟩
  obtain ⟨r, ns, hc⟩ := hi.chain d (List.getElem?_eq_some_iff.1 hd).1
  obtain ⟨rt, hr, hms⟩ := hc.root_get
  have hnul := hc.names_cstring hp
  have hlen : x.length ≤ 125 := by
    by_contra hlong
    rw [finddirPath_long _ _ (by omega)] at hpath
    cases hpath
  rw [finddirPath_chain hc hr (hvol hr hms) hnul hx hlen] at hpath
  have hnew : (s.nodes.modify (fun n => { n with children := n.children ++ [s.nodes.length] }) d ++
      [⟨x, if info.isDir then FT_DIRECTORY else FT_FILE, some d, none, 0, [], info.fsize⟩])[
        s.nodes.length]? = some ⟨x, if info.isDir then FT_DIRECTORY else FT_FILE, some d, none, 0,
          [], info.fsize⟩ := by
    simp [List.getElem?_append_right]
  have hg₂ := (fatRun_preserves hrun hi₁).2
  have hc₂ := hg₂.chain (Chain.step hnew rfl rfl (hg₁.chain hc))
  obtain ⟨rt₂, hr₂, g⟩ := (hg₁.trans hg₂) r rt hr
  rw [assemblePath_chain hc₂ hr₂ (g.privateNodeData ▸ hvol hr hms)
    (by simpa [or_imp, forall_and] using ⟨hnul, hx⟩), g.privateNodeData]
  exact hpath

theorem node_paths_of_reachable_mounted :
    ∃ s, s = (finddir (mount 1 (FatState.init 1) (some ⟨1, "hd", FT_BLOCK_DEVICE, none, none⟩)
        (some ⟨2, "mnt", FT_DIRECTORY, some 0, none⟩) fun _ => true).1 0 "a"
        fun _ => some ⟨false, 5⟩).1 ∧
      FatReachable 1 s ∧ 1 ≤ 10 ^ 7 ∧
      (∀ n, n < s.nodes.length → ∃ r rt ns, Chain s.nodes r n ns ∧ s.nodes[r]? = some rt ∧
        assemblePath s.nodes n =
          if (fatPath rt.privateNodeData ns).length ≤ 126 then .ok (fatPath rt.privateNodeData ns)
          else .error .tooLong) ∧
      ∀ d x fStat s₁, nul ∉ x.data → finddir s d x fStat = (s₁, some s.nodes.length) →
        ∃ path, finddirPath s.nodes d x = .ok path ∧ fStat path ≠ none ∧
          ∀ s₂, FatRun 1 s₁ s₂ → assemblePath s₂.nodes s.nodes.length = .ok path := by
  have hs := FatReachable.step (.step .init (.mount (FatState.init 1)
    (some ⟨1, "hd", FT_BLOCK_DEVICE, none, none⟩) (some ⟨2, "mnt", FT_DIRECTORY, some 0, none⟩)
    fun _ => true)) (.finddir _ 0 "a" (fun _ => some ⟨false, 5⟩) (by decide))
  exact ⟨_, rfl, hs, by decide, node_paths_of_reachable hs (by decide)⟩

end Asterisk.Fat
