/-
# The process forest of a plan

`setBuildStepsOnBuild` appends to the build the items' descriptors and then
one descriptor per step, numbering the steps on from the largest item PID
with a counter of its own.  Over items as a successful `Build` returns them
(PIDs positive and increasing, each item the root of its group,
`RootItems`) the list is a forest (`WellFormedForest`): PIDs increase along
it, every step hangs under an item, and the PGIDs name exactly the
co-scheduled groups, a stage's being the PID of its first step.  The items
may have gaps in their PIDs (pruned items, items without stages); the
steps' counter starts above the largest one all the same.
-/

import Woodpecker.Plan
import Woodpecker.Flatten

namespace Woodpecker

/-- The process list `setBuildStepsOnBuild` gives a build with no processes:
the items' descriptors, then the steps'. -/
def flatProcs (buildID : Int) (L : List BuildItem) : List Proc :=
  L.map (·.proc) ++ (stepSlots L).mapIdx fun j s => stepDescriptor buildID (maxPid L) (j + 1) s

theorem setBuildStepsOnBuild_procs {build : Build} (L : List BuildItem) (h : build.procs = []) :
    (setBuildStepsOnBuild build L).procs = flatProcs build.id L := by
  rw [setBuildStepsOnBuild_eq, h]
  rfl

/-- Positions `a` and `b` of the process list hold one co-scheduled group:
one item's descriptor, or two steps of one stage of one item. -/
def SameGroup (L : List BuildItem) (a b : Nat) : Prop :=
  (a < L.length ∧ a = b) ∨
    (L.length ≤ a ∧ L.length ≤ b ∧ ∃ x y, (stepSlots L)[a - L.length]? = some x ∧
      (stepSlots L)[b - L.length]? = some y ∧ x.item = y.item ∧ x.stage = y.stage)

/-- A well-formed process forest over the items `L`: PIDs increase along the
list and none is `0`; the first `L.length` descriptors are the items', roots
of their own groups; every later one is a step whose parent is an item; and
two descriptors share a PGID exactly when they are in one group, a step's
PGID being the PID of the first step of its stage. -/
structure WellFormedForest (L : List BuildItem) (procs : List Proc) : Prop where
  pid_lt : procs.Pairwise fun p q => p.pid < q.pid
  pid_pos : ∀ p ∈ procs, 0 < p.pid
  roots : procs.take L.length = L.map (·.proc)
  root_group : ∀ p ∈ procs.take L.length, p.ppid = 0 ∧ p.pgid = p.pid
  step_parent : ∀ a p, procs[a]? = some p → L.length ≤ a →
    ∃ x, (stepSlots L)[a - L.length]? = some x ∧ x.owner ∈ L.map (·.proc) ∧ p.ppid = x.owner.pid
  pgid_iff : ∀ a b p q, procs[a]? = some p → procs[b]? = some q →
    (p.pgid = q.pgid ↔ SameGroup L a b)
  pgid_first : ∀ a p, procs[a]? = some p → L.length ≤ a →
    ∃ c q, procs[c]? = some q ∧ p.pgid = q.pid ∧ SameGroup L a c ∧
      ∃ y, (stepSlots L)[c - L.length]? = some y ∧ y.pos = 0

/-- Items as a successful `Build` returns them: PIDs increasing along the
list, each positive, without parent and its own group. -/
structure RootItems (L : List BuildItem) : Prop where
  pid_lt : L.Pairwise fun x y => x.proc.pid < y.proc.pid
  root : ∀ item ∈ L, 0 < item.proc.pid ∧ item.proc.ppid = 0 ∧ item.proc.pgid = item.proc.pid

/-- **The items of a successful `Build` are roots.**  They keep the order and
the PIDs `1, 2, …` of the planned items they are pruned from. -/
theorem ProcBuilder.build_rootItems (P : Packages) (cfg : PipelineConfig) (b : ProcBuilder)
    {L : List BuildItem} (h : b.build P cfg = .ok L) : RootItems L := by
  obtain ⟨pairs, E, -, hE, rfl⟩ := b.build_eq_ok P cfg h
  have hplanned : ∀ j (hj : j < E.length), E[j].proc.pid = 1 + j ∧ E[j].proc.ppid = 0 ∧
      E[j].proc.pgid = 1 + j := fun j hj => by
    obtain ⟨_, _, _, -, hp⟩ := plannedItems_planned P cfg b hE j hj
    exact ⟨hp.pid, hp.ppid, hp.pgid⟩
  have hsub := filterItemsWithMissingDependencies_sublist E
  refine ⟨(List.pairwise_iff_getElem.2 fun i j hi hj hij => ?_).sublist hsub, fun item hmem => ?_⟩
  · rw [(hplanned i hi).1, (hplanned j hj).1]
    omega
  · obtain ⟨j, hj, rfl⟩ := List.mem_iff_getElem.1 (hsub.subset hmem)
    obtain ⟨h₁, h₂, h₃⟩ := hplanned j hj
    exact ⟨by omega, h₂, h₃.trans h₁.symm⟩

section Forest

variable {buildID : Int} {L : List BuildItem}

/-- A position of the list holds an item's descriptor or a step's. -/
theorem getElem?_flatProcs {a : Nat} {p : Proc} (h : (flatProcs buildID L)[a]? = some p) :
    (a < L.length ∧ ∃ item, L[a]? = some item ∧ p = item.proc) ∨
      (L.length ≤ a ∧ ∃ x, (stepSlots L)[a - L.length]? = some x ∧
        p = stepDescriptor buildID (maxPid L) (a - L.length + 1) x) := by
  by_cases ha : a < L.length
  · rw [flatProcs, List.getElem?_append_left (by simpa using ha), List.getElem?_map] at h
    obtain ⟨item, hitem, rfl⟩ := Option.map_eq_some'.1 h
    exact .inl ⟨ha, item, hitem, rfl⟩
  · rw [flatProcs, List.getElem?_append_right (by simpa using ha), List.getElem?_mapIdx,
      List.length_map] at h
    obtain ⟨x, hx, rfl⟩ := Option.map_eq_some'.1 h
    exact .inr ⟨by omega, x, hx, rfl⟩

theorem take_flatProcs : (flatProcs buildID L).take L.length = L.map (·.proc) :=
  List.take_left' (List.length_map _ _)

theorem getElem?_flatProcs_step {j : Nat} {x : StepSlot} (h : (stepSlots L)[j]? = some x) :
    (flatProcs buildID L)[L.length + j]? = some (stepDescriptor buildID (maxPid L) (j + 1) x) := by
  rw [flatProcs, List.getElem?_append_right (by simp), List.getElem?_mapIdx, List.length_map,
    Nat.add_sub_cancel_left, h]
  rfl

/-- An item's PGID lies below every step's: the steps are numbered after the
largest item PID, and a stage's first step comes no later than its others. -/
theorem RootItems.item_pgid_lt_step_pgid (hL : RootItems L) {a j : Nat} {item : BuildItem}
    {x : StepSlot} (hitem : L[a]? = some item) (hx : (stepSlots L)[j]? = some x) :
    item.proc.pgid < (stepDescriptor buildID (maxPid L) (j + 1) x).pgid := by
  have := (hL.root item (mem_of_getElem?_eq hitem)).2.2 ▸ le_maxPid (mem_of_getElem?_eq hitem)
  have := ((itemsSlots_grouped 0 L).2 j x hx).1
  simp only [stepDescriptor]
  omega

theorem sameGroup_of_lt {a b : Nat} (ha : a < L.length) : SameGroup L a b ↔ a = b := by
  simp only [SameGroup]
  omega

theorem sameGroup_steps {a b : Nat} {x y : StepSlot} (ha : L.length ≤ a) (hb : L.length ≤ b)
    (hx : (stepSlots L)[a - L.length]? = some x) (hy : (stepSlots L)[b - L.length]? = some y) :
    SameGroup L a b ↔ x.item = y.item ∧ x.stage = y.stage := by
  simp [SameGroup, ha, hb, hx, hy, Nat.not_lt.2 ha]

theorem RootItems.pid_eq_iff (hL : RootItems L) {a b : Nat} {x y : BuildItem}
    (hx : L[a]? = some x) (hy : L[b]? = some y) : x.proc.pid = y.proc.pid ↔ a = b := by
  obtain ⟨ha, rfl⟩ := List.getElem?_eq_some_iff.1 hx
  obtain ⟨hb, rfl⟩ := List.getElem?_eq_some_iff.1 hy
  have hlt := List.pairwise_iff_getElem.1 hL.pid_lt
  rcases Nat.lt_trichotomy a b with h | rfl | h
  · exact iff_of_false (hlt a b ha hb h).ne (by omega)
  · exact iff_of_true rfl rfl
  · exact iff_of_false (hlt b a hb ha h).ne' (by omega)

/-- **PGIDs name the groups.** -/
theorem RootItems.flatProcs_pgid_iff (hL : RootItems L) {a b : Nat} {p q : Proc}
    (hp : (flatProcs buildID L)[a]? = some p) (hq : (flatProcs buildID L)[b]? = some q) :
    p.pgid = q.pgid ↔ SameGroup L a b := by
  rcases getElem?_flatProcs hp with ⟨ha, x, hx, rfl⟩ | ⟨ha, x, hx, rfl⟩ <;>
    rcases getElem?_flatProcs hq with ⟨hb, y, hy, rfl⟩ | ⟨hb, y, hy, rfl⟩
  · -- two items
    rw [(hL.root x (mem_of_getElem?_eq hx)).2.2, (hL.root y (mem_of_getElem?_eq hy)).2.2,
      sameGroup_of_lt ha]
    exact hL.pid_eq_iff hx hy
  · -- an item and a step
    exact iff_of_false (hL.item_pgid_lt_step_pgid hx hy).ne (by rw [sameGroup_of_lt ha]; omega)
  · -- a step and an item
    exact iff_of_false (hL.item_pgid_lt_step_pgid hy hx).ne' (by simp only [SameGroup]; omega)
  · -- two steps
    obtain ⟨g, f⟩ := itemsSlots_grouped 0 L
    have := (f _ x hx).1
    have := (f _ y hy).1
    rw [sameGroup_steps ha hb hx hy, ← g _ _ x y hx hy]
    simp only [stepDescriptor]
    omega

/-- **A stage's PGID is the PID of its first step.** -/
theorem flatProcs_pgid_first {a : Nat} {p : Proc} (hp : (flatProcs buildID L)[a]? = some p)
    (ha : L.length ≤ a) :
    ∃ c q, (flatProcs buildID L)[c]? = some q ∧ p.pgid = q.pid ∧ SameGroup L a c ∧
      ∃ y, (stepSlots L)[c - L.length]? = some y ∧ y.pos = 0 := by
  rcases getElem?_flatProcs hp with ⟨ha', -⟩ | ⟨-, x, hx, rfl⟩
  · omega
  obtain ⟨hpos, y, hy, hy0, hitem, hstage⟩ := (itemsSlots_grouped 0 L).2 _ x hx
  have hc : L.length + (a - L.length - x.pos) - L.length = a - L.length - x.pos := by omega
  refine ⟨_, _, getElem?_flatProcs_step hy, ?_, ?_, y, by rwa [hc], hy0⟩
  · simp only [stepDescriptor]
    omega
  · rw [sameGroup_steps ha (by omega) hx (by rwa [hc])]
    exact ⟨hitem.symm, hstage.symm⟩

/-- **`setBuildStepsOnBuild` builds a forest over root items.** -/
theorem RootItems.flatProcs_wellFormed (hL : RootItems L) :
    WellFormedForest L (flatProcs buildID L) where
  pid_lt := by
    rw [flatProcs, List.pairwise_append, List.pairwise_map]
    refine ⟨hL.pid_lt, List.pairwise_iff_getElem.2 fun i j _ _ hij => ?_, ?_⟩
    · simp only [List.getElem_mapIdx, stepDescriptor]
      omega
    · rintro _ hp _ hq
      obtain ⟨item, hitem, rfl⟩ := List.mem_map.1 hp
      obtain ⟨j, _, rfl⟩ := List.mem_mapIdx.1 hq
      have := le_maxPid hitem
      simp only [stepDescriptor]
      omega
  pid_pos p hp := by
    rcases List.mem_append.1 hp with hp | hp
    · obtain ⟨item, hitem, rfl⟩ := List.mem_map.1 hp
      exact (hL.root item hitem).1
    · obtain ⟨j, _, rfl⟩ := List.mem_mapIdx.1 hp
      have := maxPid_nonneg L
      simp only [stepDescriptor]
      omega
  roots := take_flatProcs
  root_group p hp := by
    rw [take_flatProcs] at hp
    obtain ⟨item, hitem, rfl⟩ := List.mem_map.1 hp
    exact (hL.root item hitem).2
  step_parent a p hp ha := by
    rcases getElem?_flatProcs hp with ⟨ha', -⟩ | ⟨-, x, hx, rfl⟩
    · omega
    obtain ⟨-, item, hitem, howner⟩ := mem_itemsSlots (mem_of_getElem?_eq hx)
    exact ⟨x, hx, List.mem_map.2 ⟨item, hitem, howner.symm⟩, rfl⟩
  pgid_iff _ _ _ _ hp hq := hL.flatProcs_pgid_iff hp hq
  pgid_first _ _ hp ha := flatProcs_pgid_first hp ha

end Forest

variable (P : Packages) (cfg : PipelineConfig) (b : ProcBuilder)

/-- **The plan's process list is a forest.**  For every context in which
`Build` succeeds with items `L`, and every build record without processes,
the processes `setBuildStepsOnBuild` stores form a well-formed forest over
`L`, whatever gaps the pruning and the stageless items left in the items'
PIDs. -/
theorem ProcBuilder.build_setBuildStepsOnBuild_wellFormed {L : List BuildItem}
    (h : b.build P cfg = .ok L) (build : Build) (hprocs : build.procs = []) :
    WellFormedForest L (setBuildStepsOnBuild build L).procs := by
  rw [setBuildStepsOnBuild_procs L hprocs]
  exact (b.build_rootItems P cfg h).flatProcs_wellFormed

/-- The two matrix legs of the sample document, stored on an empty build. -/
theorem ProcBuilder.build_setBuildStepsOnBuild_wellFormed_matrix :
    ∃ L, sampleBuilder.build (samplePackages sampleAxes) samplePipelineConfig = .ok L ∧
      ({} : Build).procs = [] ∧ WellFormedForest L (setBuildStepsOnBuild {} L).procs := by
  obtain ⟨L, hL⟩ := sampleBuilder_build_ok
  exact ⟨L, hL, rfl, ProcBuilder.build_setBuildStepsOnBuild_wellFormed _ _ _ hL {} rfl⟩

end Woodpecker
