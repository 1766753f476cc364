import Expander.Proofs.Layout

/-!
The stages of a fabric and their neighbours.

Replacing the stage of a component changes no other stage and no link. In a chain the neighbours of
a stage are there, and know it as theirs.
-/

set_option autoImplicit false

namespace Expander.Fabric

variable {f : Fabric} {id i up down : ComponentId} {stage old : Stage} {expander : AddressRange}

theorem stage?_eq_some :
    f.stage? id = some stage ↔ ∃ node, f.nodes[id]? = some node ∧ node.stage = stage :=
  Option.map_eq_some_iff

theorem site_eq_some {site : Site} :
    f.sites[id]? = some site ↔ ∃ node, f.nodes[id]? = some node ∧ node.site = site := by
  rw [sites, List.getElem?_map]
  exact Option.map_eq_some_iff

theorem stage?_setStage_self (h : f.stage? id = some old) :
    (f.setStage id stage).stage? id = some stage := by
  obtain ⟨node, found, -⟩ := stage?_eq_some.1 h
  simp [stage?, setStage, found]

theorem stage?_setStage_ne (ne : i ≠ id) : (f.setStage id stage).stage? i = f.stage? i := by
  simp [stage?, setStage, ne.symm]

theorem stage?_setStage_cases {found : Stage} (h : f.stage? id = some old)
    (after : (f.setStage id stage).stage? i = some found) :
    (i = id ∧ found = stage ∧ f.stage? i = some old) ∨ (i ≠ id ∧ f.stage? i = some found) := by
  by_cases eq : i = id
  · subst eq
    rw [stage?_setStage_self h] at after
    exact .inl ⟨rfl, (Option.some.inj after).symm, h⟩
  · rw [stage?_setStage_ne eq] at after
    exact .inr ⟨eq, after⟩

@[simp] theorem hostSide?_setStage : (f.setStage id stage).hostSide? i = f.hostSide? i := by
  simp only [hostSide?, setStage, List.getElem?_modify]
  split <;> cases f.nodes[i]? <;> rfl

@[simp] theorem memorySide?_setStage : (f.setStage id stage).memorySide? i = f.memorySide? i := by
  simp only [memorySide?, setStage, List.getElem?_modify]
  split <;> cases f.nodes[i]? <;> rfl

theorem sites_setStage (h : f.stage? id = some old) (frame : stage.view.frame = old.view.frame) :
    (f.setStage id stage).sites = f.sites := by
  obtain ⟨node, found, rfl⟩ := stage?_eq_some.1 h
  refine List.ext_getElem? fun i => ?_
  simp only [sites, setStage, List.getElem?_map, List.getElem?_modify]
  split
  next eq =>
    subst eq
    simp [found, Node.site, frame]
  next => cases f.nodes[i]? <;> rfl

theorem setStage_self (f : Fabric) (id : ComponentId) (a b : Stage) :
    (f.setStage id a).setStage id b = f.setStage id b := by
  simp only [setStage]
  congr 1
  refine List.ext_getElem? fun i => ?_
  simp only [List.getElem?_modify]
  split <;> cases f.nodes[i]? <;> rfl

theorem setStage_comm (f : Fabric) (ne : i ≠ id) (a b : Stage) :
    (f.setStage i a).setStage id b = (f.setStage id b).setStage i a := by
  simp only [setStage]
  congr 1
  refine List.ext_getElem? fun j => ?_
  simp only [List.getElem?_modify]
  cases f.nodes[j]? with
  | none => rfl
  | some node =>
    by_cases first : i = j <;> by_cases second : id = j <;> simp [first, second]
    exact absurd (first.trans second.symm) ne

theorem placed_stage (chained : Chained f.sites expander) (h : f.stage? id = some stage) :
    Placed f.sites expander id ⟨stage.view.frame, f.hostSide? id, f.memorySide? id⟩ := by
  obtain ⟨node, found, rfl⟩ := stage?_eq_some.1 h
  have placed := chained.placed id node.site (site_eq_some.2 ⟨node, found, rfl⟩)
  simpa [Node.site, hostSide?, memorySide?, found] using placed

theorem exists_stage {site : Site} (h : f.sites[id]? = some site) :
    ∃ stage, f.stage? id = some stage := by
  obtain ⟨node, found, -⟩ := site_eq_some.1 h
  exact ⟨node.stage, stage?_eq_some.2 ⟨node, found, rfl⟩⟩

theorem hostSide?_of_site {site : Site} (h : f.sites[id]? = some site) :
    f.hostSide? id = site.hostSide ∧ f.memorySide? id = site.memorySide := by
  obtain ⟨node, found, rfl⟩ := site_eq_some.1 h
  simp [hostSide?, memorySide?, found, Node.site]

theorem hostSide?_congr {f' : Fabric} (same : f'.sites = f.sites) (id : ComponentId) :
    f'.hostSide? id = f.hostSide? id := by
  have read (f : Fabric) : f.hostSide? id = f.sites[id]?.bind (·.hostSide) := by
    rw [hostSide?, sites, List.getElem?_map]
    cases f.nodes[id]? <;> rfl
  rw [read, read, same]

theorem memorySide?_congr {f' : Fabric} (same : f'.sites = f.sites) (id : ComponentId) :
    f'.memorySide? id = f.memorySide? id := by
  have read (f : Fabric) : f.memorySide? id = f.sites[id]?.bind (·.memorySide) := by
    rw [memorySide?, sites, List.getElem?_map]
    cases f.nodes[id]? <;> rfl
  rw [read, read, same]

theorem exists_of_memorySide? (h : f.memorySide? id = some down) :
    ∃ stage, f.stage? id = some stage := by
  obtain ⟨node, found, -⟩ := Option.bind_eq_some_iff.1 h
  exact ⟨node.stage, stage?_eq_some.2 ⟨node, found, rfl⟩⟩

theorem exists_of_hostSide? {peer : Peer} (h : f.hostSide? id = some peer) :
    ∃ stage, f.stage? id = some stage := by
  obtain ⟨node, found, -⟩ := Option.bind_eq_some_iff.1 h
  exact ⟨node.stage, stage?_eq_some.2 ⟨node, found, rfl⟩⟩

theorem stage_behind (chained : Chained f.sites expander) (h : f.memorySide? up = some down) :
    up = down + 1 ∧ 0 < down ∧ f.hostSide? down = some (.component up) ∧
      ∃ lower, f.stage? down = some lower := by
  obtain ⟨node, found, links⟩ := Option.bind_eq_some_iff.1 h
  have placed := chained.placed up node.site (site_eq_some.2 ⟨node, found, rfl⟩)
  obtain ⟨next, pos, lower, site, peer⟩ := placed.behind down links
  exact ⟨next, pos, (hostSide?_of_site site).1.trans peer, exists_stage site⟩

theorem stage_before (chained : Chained f.sites expander)
    (h : f.hostSide? down = some (.component up)) :
    up = down + 1 ∧ 0 < down ∧ f.memorySide? up = some down ∧
      ∃ upper, f.stage? up = some upper := by
  obtain ⟨node, found, links⟩ := Option.bind_eq_some_iff.1 h
  have placed := chained.placed down node.site (site_eq_some.2 ⟨node, found, rfl⟩)
  obtain ⟨next, pos, upper, site, peer⟩ := placed.before up links
  exact ⟨next, pos, (hostSide?_of_site site).2.trans peer, exists_stage site⟩

theorem forwards_iff (chained : Chained f.sites expander) (h : f.stage? id = some stage) :
    stage.view.frame.forwards = (f.memorySide? id).isSome :=
  (placed_stage chained h).forwards

theorem stage_ne_memory (chained : Chained f.sites expander) (h : f.stage? id = some stage)
    (pos : 0 < id) (m : SystemMemory) : stage ≠ .memory m := by
  rintro rfl
  exact Nat.ne_of_gt pos ((placed_stage chained h).memory.1 rfl)

theorem memory_of_first (chained : Chained f.sites expander) (h : f.stage? 0 = some stage) :
    ∃ m, stage = .memory m := by
  have first := (placed_stage chained h).memory.2 rfl
  cases stage with
  | memory m => exact ⟨m, rfl⟩
  | bridge | device | controller => cases first

end Expander.Fabric
