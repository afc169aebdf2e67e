/-
# Flattening build items into processes

`setBuildStepsOnBuild` in `server/procBuilder.go`.  It appends every item's
own descriptor, then walks items, stages and steps, handing out PIDs from one
counter that starts at the largest item PID (or `0`).  A stage's steps share a
PGID: `gid` starts at `0` in each stage and the first step sets it to its own
PID.

Go's `int` is 64 bits wide: `setBuildStepsOnBuild64` increments the counter
modulo `2 ^ 64` (`Go.int64`), `setBuildStepsOnBuild` reads it as an unbounded
integer, and the two agree while the last PID stays at most `MaxInt64`
(`setBuildStepsOnBuild64_eq`).  Both are `setBuildStepsOnBuildWith`, the loops
with the counter's step as a parameter.

The specification side is `stepSlots`, the steps in item, stage, step
order with their position in their stage, and `stepDescriptor`, the process
the `j`-th of them gets.  `setBuildStepsOnBuildWith_eq` says the loops produce
exactly that list as long as the step is `+ 1` on the PIDs handed out; each
loop has its own lemma (`foldl_appendStep`, `foldl_appendStage`,
`foldl_appendItemSteps`).
-/

import Woodpecker.Model
import Mathlib.Data.List.Basic
import Mathlib.Order.MinMax

namespace Woodpecker

/-- The loop variables of `setBuildStepsOnBuild`: the build and `pidSequence`. -/
structure FlattenState where
  build : Build
  pidSequence : Int

/-- The first loop's body: append the item's descriptor, raise `pidSequence`
to the item's PID. -/
def appendItemProc (s : FlattenState) (item : BuildItem) : FlattenState :=
  { build := { s.build with procs := s.build.procs ++ [item.proc] }
    pidSequence := if s.pidSequence < item.proc.pid then item.proc.pid else s.pidSequence }

/-- `math.MaxInt64`: Go's `int` is 64 bits wide on the platforms the server runs on. -/
def Go.maxInt : Int := 9223372036854775807

/-- A sum in Go's 64-bit `int`: `x` read modulo `2 ^ 64` into
`[-MaxInt64 - 1, MaxInt64]`, so `MaxInt64 + 1` wraps to `-2 ^ 63`. -/
def Go.int64 (x : Int) : Int :=
  (x + 9223372036854775808) % 18446744073709551616 - 9223372036854775808

/-- The innermost loop's body, with `gid`: allocate the next PID
(`pidSequence++`, computed by `next`), let the stage's first step fix `gid`,
append the step's descriptor. -/
def appendStep (next : Int → Int) (item : BuildItem) (sg : FlattenState × Int)
    (step : Backend.Step) : FlattenState × Int :=
  let pidSequence := next sg.1.pidSequence
  let gid := if sg.2 = 0 then pidSequence else sg.2
  let proc : Proc :=
    { buildID := sg.1.build.id, name := step.alias', pid := pidSequence, ppid := item.proc.pid,
      pgid := gid, state := .pending }
  let proc := if item.proc.state = .skipped then { proc with state := .skipped } else proc
  ({ build := { sg.1.build with procs := sg.1.build.procs ++ [proc] }, pidSequence }, gid)

/-- The stage loop's body: `var gid int`, then the steps. -/
def appendStage (next : Int → Int) (item : BuildItem) (s : FlattenState) (stage : Backend.Stage) :
    FlattenState :=
  (stage.steps.foldl (appendStep next item) (s, 0)).1

/-- The second loop's body: the item's stages in order. -/
def appendItemSteps (next : Int → Int) (s : FlattenState) (item : BuildItem) : FlattenState :=
  item.config.stages.foldl (appendStage next item) s

/-- `setBuildStepsOnBuild`, `pidSequence++` being `next`. -/
def setBuildStepsOnBuildWith (next : Int → Int) (build : Build) (buildItems : List BuildItem) :
    Build :=
  let s := buildItems.foldl appendItemProc ⟨build, 0⟩
  (buildItems.foldl (appendItemSteps next) s).build

/-- `setBuildStepsOnBuild`, with Go's `int` read as an unbounded integer.  It
is the 64-bit function as long as no PID passes `MaxInt64`
(`setBuildStepsOnBuild64_eq`). -/
def setBuildStepsOnBuild (build : Build) (buildItems : List BuildItem) : Build :=
  setBuildStepsOnBuildWith (· + 1) build buildItems

/-- `setBuildStepsOnBuild` on Go's 64-bit `int`: `pidSequence++` wraps past
`MaxInt64`. -/
def setBuildStepsOnBuild64 (build : Build) (buildItems : List BuildItem) : Build :=
  setBuildStepsOnBuildWith (fun n => Go.int64 (n + 1)) build buildItems

/-- One step of the flattened tree: the index of its item and of its stage,
its position in the stage, its item's descriptor and the step. -/
structure StepSlot where
  item : Nat
  stage : Nat
  pos : Nat
  owner : Proc
  step : Backend.Step
  deriving DecidableEq, Repr

/-- The steps of stage `k` of item `i` from position `p` on. -/
def stageSlots (i k : Nat) (owner : Proc) (p : Nat) : List Backend.Step → List StepSlot
  | [] => []
  | step :: steps => ⟨i, k, p, owner, step⟩ :: stageSlots i k owner (p + 1) steps

/-- The steps of item `i` from its stage `k` on. -/
def stagesSlots (i k : Nat) (owner : Proc) : List Backend.Stage → List StepSlot
  | [] => []
  | stage :: stages => stageSlots i k owner 0 stage.steps ++ stagesSlots i (k + 1) owner stages

/-- The steps of the items from item `i` on. -/
def itemsSlots (i : Nat) : List BuildItem → List StepSlot
  | [] => []
  | item :: items => stagesSlots i 0 item.proc item.config.stages ++ itemsSlots (i + 1) items

/-- Every step of the items, in item, stage, step order. -/
def stepSlots (items : List BuildItem) : List StepSlot := itemsSlots 0 items

/-- `max(0, largest item PID)`. -/
def maxPid (items : List BuildItem) : Int := (items.map (·.proc.pid)).foldr max 0

/-- The descriptor of the `j`-th step (from `1`) after PID `p0`: PID `p0 + j`,
PGID the PID of its stage's first step, parent its item, skipped with it. -/
def stepDescriptor (buildID p0 : Int) (j : Nat) (s : StepSlot) : Proc :=
  { buildID, name := s.step.alias', pid := p0 + j, ppid := s.owner.pid, pgid := p0 + j - s.pos,
    state := if s.owner.state = .skipped then .skipped else .pending }

@[simp] theorem length_stageSlots (i k : Nat) (owner : Proc) (p : Nat) (steps : List Backend.Step) :
    (stageSlots i k owner p steps).length = steps.length := by
  induction steps generalizing p <;> simp [stageSlots, *]

theorem stepDescriptor_shift (buildID n : Int) (m j : Nat) (s : StepSlot) :
    stepDescriptor buildID (n + m) j s = stepDescriptor buildID n (j + m) s := by
  simp only [stepDescriptor, Proc.mk.injEq, true_and, and_true]
  exact ⟨by omega, by omega⟩

theorem maxPid_nonneg (items : List BuildItem) : 0 ≤ maxPid items := by
  induction items with
  | nil => simp [maxPid]
  | cons item items ih => exact le_max_of_le_right ih

theorem le_maxPid {items : List BuildItem} {item : BuildItem} (h : item ∈ items) :
    item.proc.pid ≤ maxPid items := by
  induction items with
  | nil => cases h
  | cons item' items ih =>
    rcases List.mem_cons.1 h with rfl | h
    · exact le_max_left _ _
    · exact le_max_of_le_right (ih h)

theorem foldl_appendItemProc (items : List BuildItem) (b : Build) {n : Int} (hn : 0 ≤ n) :
    items.foldl appendItemProc ⟨b, n⟩ =
      ⟨{ b with procs := b.procs ++ items.map (·.proc) }, max n (maxPid items)⟩ := by
  induction items generalizing b n with
  | nil => simp [maxPid, hn]
  | cons item items ih =>
    have hmax : (if n < item.proc.pid then item.proc.pid else n) = max n item.proc.pid := by
      rw [max_def]; split_ifs <;> omega
    rw [List.foldl_cons, appendItemProc]
    dsimp only
    rw [hmax, ih _ (le_max_of_le_left hn)]
    simp [maxPid, max_assoc]

/-- `next` is `+ 1` on the `len` values from `n` on: `pidSequence++` does not
wrap on the PIDs handed out after `n`. -/
def IncrementsOn (next : Int → Int) (n : Int) (len : Nat) : Prop :=
  ∀ m, n ≤ m → m < n + len → next m = m + 1

theorem IncrementsOn.mono {next : Int → Int} {n : Int} {len : Nat} (h : IncrementsOn next n len)
    {n' : Int} {len' : Nat} (h₁ : n ≤ n') (h₂ : n' + len' ≤ n + len) : IncrementsOn next n' len' :=
  fun m hm₁ hm₂ => h m (by omega) (by omega)

theorem Go.int64_of_le {x : Int} (h₁ : -9223372036854775808 ≤ x) (h₂ : x ≤ Go.maxInt) :
    Go.int64 x = x := by
  unfold Go.int64; unfold Go.maxInt at h₂; omega

/-- Below `MaxInt64` Go's `pidSequence++` is `+ 1`. -/
theorem incrementsOn_int64 {n : Int} {len : Nat} (h₀ : 0 ≤ n) (h : n + len ≤ Go.maxInt) :
    IncrementsOn (fun m => Go.int64 (m + 1)) n len :=
  fun m h₁ h₂ => Go.int64_of_le (by omega) (by omega)

theorem appendStep_of_next {next : Int → Int} (item : BuildItem) (s : FlattenState) (g : Int)
    (step : Backend.Step) (h : next s.pidSequence = s.pidSequence + 1) :
    appendStep next item (s, g) step = appendStep (· + 1) item (s, g) step := by
  simp only [appendStep, h]

/-- **The steps of a stage from position `d` on.**  `gid` is `0` before the
stage's first step and that step's PID after it; each step gets the next PID
and the PID of the stage's first step as PGID. -/
theorem foldl_appendStep (next : Int → Int) (item : BuildItem) (i k : Nat)
    (steps : List Backend.Step) (s : FlattenState) (d : Nat) (g : Int) (hn : 0 ≤ s.pidSequence)
    (hnext : IncrementsOn next s.pidSequence steps.length)
    (hgd : (if g = 0 then s.pidSequence + 1 else g) = s.pidSequence + 1 - d) :
    (steps.foldl (appendStep next item) (s, g)).1 =
      ⟨{ s.build with
          procs := s.build.procs ++ (stageSlots i k item.proc d steps).mapIdx
            fun j sl => stepDescriptor s.build.id s.pidSequence (j + 1) sl },
        s.pidSequence + steps.length⟩ := by
  induction steps generalizing s d g with
  | nil => simp [stageSlots]
  | cons step steps ih =>
    simp only [List.length_cons] at hnext
    rw [List.foldl_cons, appendStep_of_next item s g step (hnext _ le_rfl (by omega)), appendStep,
      ih _ (d + 1) _ (by simp only; omega) (by exact hnext.mono (by simp only; omega) (by simp only; omega))
        (by simp only; split_ifs at hgd ⊢ <;> omega)]
    simp only [stageSlots, List.mapIdx_cons, List.append_assoc, List.singleton_append,
      List.length_cons, FlattenState.mk.injEq, Build.mk.injEq, and_true, List.cons.injEq, true_and]
    refine ⟨?_, by omega⟩
    congr 2
    · by_cases h : item.proc.state = .skipped <;> simp [stepDescriptor, hgd, h]
    · congr 1
      funext j sl
      simpa using stepDescriptor_shift s.build.id s.pidSequence 1 (j + 1) sl

/-- **One stage.** -/
theorem appendStage_eq (next : Int → Int) (item : BuildItem) (i k : Nat) (stage : Backend.Stage)
    (s : FlattenState) (hn : 0 ≤ s.pidSequence)
    (hnext : IncrementsOn next s.pidSequence stage.steps.length) :
    appendStage next item s stage =
      ⟨{ s.build with
          procs := s.build.procs ++ (stageSlots i k item.proc 0 stage.steps).mapIdx
            fun j sl => stepDescriptor s.build.id s.pidSequence (j + 1) sl },
        s.pidSequence + stage.steps.length⟩ :=
  foldl_appendStep next item i k stage.steps s 0 0 hn hnext (by simp)

/-- **The stages of an item from stage `k` on.** -/
theorem foldl_appendStage (next : Int → Int) (item : BuildItem) (i k : Nat)
    (stages : List Backend.Stage) (s : FlattenState) (hn : 0 ≤ s.pidSequence)
    (hnext : IncrementsOn next s.pidSequence (stagesSlots i k item.proc stages).length) :
    stages.foldl (appendStage next item) s =
      ⟨{ s.build with
          procs := s.build.procs ++ (stagesSlots i k item.proc stages).mapIdx
            fun j sl => stepDescriptor s.build.id s.pidSequence (j + 1) sl },
        s.pidSequence + (stagesSlots i k item.proc stages).length⟩ := by
  induction stages generalizing s k with
  | nil => simp [stagesSlots]
  | cons stage stages ih =>
    simp only [stagesSlots, List.length_append, length_stageSlots] at hnext
    rw [List.foldl_cons, appendStage_eq next item i k stage s hn (hnext.mono le_rfl (by omega)),
      ih (k + 1) _ (by simp only; omega) (by exact hnext.mono (by simp only; omega) (by simp only; omega))]
    simp only [stagesSlots, List.mapIdx_append, List.append_assoc, List.length_append,
      length_stageSlots, FlattenState.mk.injEq, Build.mk.injEq, and_true, true_and]
    refine ⟨?_, by omega⟩
    congr 3
    funext j sl
    rw [stepDescriptor_shift, Nat.add_right_comm]

/-- **The items from item `i` on.** -/
theorem foldl_appendItemSteps (next : Int → Int) (items : List BuildItem) (i : Nat)
    (s : FlattenState) (hn : 0 ≤ s.pidSequence)
    (hnext : IncrementsOn next s.pidSequence (itemsSlots i items).length) :
    items.foldl (appendItemSteps next) s =
      ⟨{ s.build with
          procs := s.build.procs ++ (itemsSlots i items).mapIdx
            fun j sl => stepDescriptor s.build.id s.pidSequence (j + 1) sl },
        s.pidSequence + (itemsSlots i items).length⟩ := by
  induction items generalizing s i with
  | nil => simp [itemsSlots]
  | cons item items ih =>
    simp only [itemsSlots, List.length_append] at hnext
    rw [List.foldl_cons, appendItemSteps,
      foldl_appendStage next item i 0 _ s hn (hnext.mono le_rfl (by omega)),
      ih (i + 1) _ (by simp only; omega) (by exact hnext.mono (by simp only; omega) (by simp only; omega))]
    simp only [itemsSlots, List.mapIdx_append, List.append_assoc, List.length_append,
      FlattenState.mk.injEq, Build.mk.injEq, and_true, true_and]
    refine ⟨?_, by omega⟩
    congr 3
    funext j sl
    rw [stepDescriptor_shift, Nat.add_right_comm]

/-- The flattener as one list, as long as `pidSequence++` does not wrap: the
build's processes, the items', then `stepDescriptor` of every slot. -/
theorem setBuildStepsOnBuildWith_eq (next : Int → Int) (build : Build) (items : List BuildItem)
    (hnext : IncrementsOn next (maxPid items) (stepSlots items).length) :
    setBuildStepsOnBuildWith next build items =
      { build with
        procs := build.procs ++ items.map (·.proc) ++ (stepSlots items).mapIdx
          fun j s => stepDescriptor build.id (maxPid items) (j + 1) s } := by
  have hmax : max 0 (maxPid items) = maxPid items := max_eq_right (maxPid_nonneg items)
  rw [setBuildStepsOnBuildWith, foldl_appendItemProc items build le_rfl,
    foldl_appendItemSteps next items 0 _ (le_max_left _ _) (by simpa only [hmax] using hnext), hmax]
  rfl

/-- `setBuildStepsOnBuild` as one list. -/
theorem setBuildStepsOnBuild_eq (build : Build) (items : List BuildItem) :
    setBuildStepsOnBuild build items =
      { build with
        procs := build.procs ++ items.map (·.proc) ++ (stepSlots items).mapIdx
          fun j s => stepDescriptor build.id (maxPid items) (j + 1) s } :=
  setBuildStepsOnBuildWith_eq _ build items fun _ _ _ => rfl

/-- Below `MaxInt64` the 64-bit flattener is the unbounded one. -/
theorem setBuildStepsOnBuild64_eq (build : Build) (items : List BuildItem)
    (h : maxPid items + (stepSlots items).length ≤ Go.maxInt) :
    setBuildStepsOnBuild64 build items = setBuildStepsOnBuild build items :=
  (setBuildStepsOnBuildWith_eq _ build items (incrementsOn_int64 (maxPid_nonneg items) h)).trans
    (setBuildStepsOnBuild_eq build items).symm

/-! ### The stage structure of `stepSlots` -/

/-- Two slots start at the same index exactly when they are steps of one stage
of one item; the start of slot `a` is `a` less its position. -/
def GroupedByStart (l : List StepSlot) : Prop :=
  ∀ (a b : Nat) (x y : StepSlot), l[a]? = some x → l[b]? = some y →
    (a - x.pos = b - y.pos ↔ x.item = y.item ∧ x.stage = y.stage)

/-- Every slot's start is the first step of its stage. -/
def StartsAtFirst (l : List StepSlot) : Prop :=
  ∀ (a : Nat) (x : StepSlot), l[a]? = some x → x.pos ≤ a ∧
    ∃ y, l[a - x.pos]? = some y ∧ y.pos = 0 ∧ y.item = x.item ∧ y.stage = x.stage

theorem getElem?_stageSlots (i k : Nat) (owner : Proc) (p : Nat) (steps : List Backend.Step)
    (a : Nat) :
    (stageSlots i k owner p steps)[a]? = steps[a]?.map fun step => ⟨i, k, p + a, owner, step⟩ := by
  induction steps generalizing p a with
  | nil => simp [stageSlots]
  | cons step steps ih =>
    cases a with
    | zero => simp [stageSlots]
    | succ a => simp only [stageSlots, List.getElem?_cons_succ, ih, Nat.add_right_comm]; rfl

theorem stageSlots_grouped (i k : Nat) (owner : Proc) (steps : List Backend.Step) :
    GroupedByStart (stageSlots i k owner 0 steps) ∧ StartsAtFirst (stageSlots i k owner 0 steps) := by
  refine ⟨fun a b x y hx hy => ?_, fun a x hx => ?_⟩
  · simp only [getElem?_stageSlots, Option.map_eq_some'] at hx hy
    obtain ⟨_, -, rfl⟩ := hx
    obtain ⟨_, -, rfl⟩ := hy
    simp
  · simp only [getElem?_stageSlots, Option.map_eq_some'] at hx
    obtain ⟨step, hstep, rfl⟩ := hx
    refine ⟨by simp, ?_⟩
    have : 0 < steps.length := by
      have := (List.getElem?_eq_some_iff.1 hstep).1; omega
    simp [getElem?_stageSlots, List.getElem?_eq_getElem this]

theorem mem_of_getElem?_eq {α : Type} {l : List α} {a : Nat} {x : α}
    (h : l[a]? = some x) : x ∈ l := by
  obtain ⟨ha, rfl⟩ := List.getElem?_eq_some_iff.1 h
  exact List.getElem_mem ha

/-- **Gluing two runs of stages** whose (item, stage) pairs differ. -/
theorem GroupedByStart.append {l₁ l₂ : List StepSlot} (g₁ : GroupedByStart l₁)
    (g₂ : GroupedByStart l₂) (f₁ : StartsAtFirst l₁) (f₂ : StartsAtFirst l₂)
    (hkey : ∀ x ∈ l₁, ∀ y ∈ l₂, x.item = y.item → x.stage ≠ y.stage) :
    GroupedByStart (l₁ ++ l₂) ∧ StartsAtFirst (l₁ ++ l₂) := by
  -- a slot of `l₁` and one of `l₂` start at different places and share no stage
  have cross : ∀ a b x y, a < l₁.length → l₁.length ≤ b → (l₁ ++ l₂)[a]? = some x →
      (l₁ ++ l₂)[b]? = some y → a - x.pos ≠ b - y.pos ∧ ¬(x.item = y.item ∧ x.stage = y.stage) := by
    intro a b x y ha hb hx hy
    rw [List.getElem?_append_left ha] at hx
    rw [List.getElem?_append_right hb] at hy
    have := (f₁ a x hx).1
    have := (f₂ _ y hy).1
    exact ⟨by omega, fun h => hkey x (mem_of_getElem?_eq hx) y (mem_of_getElem?_eq hy) h.1 h.2⟩
  constructor
  · intro a b x y hx hy
    by_cases ha : a < l₁.length <;> by_cases hb : b < l₁.length
    · rw [List.getElem?_append_left ha] at hx
      rw [List.getElem?_append_left hb] at hy
      exact g₁ a b x y hx hy
    · obtain ⟨h₁, h₂⟩ := cross a b x y ha (by omega) hx hy
      exact iff_of_false h₁ h₂
    · obtain ⟨h₁, h₂⟩ := cross b a y x hb (by omega) hy hx
      exact iff_of_false h₁.symm fun h => h₂ ⟨h.1.symm, h.2.symm⟩
    · rw [List.getElem?_append_right (by omega)] at hx hy
      have := (f₂ _ x hx).1
      have := (f₂ _ y hy).1
      rw [← g₂ _ _ x y hx hy]
      omega
  · intro a x hx
    by_cases ha : a < l₁.length
    · rw [List.getElem?_append_left ha] at hx
      obtain ⟨hp, y, hy, hy'⟩ := f₁ a x hx
      exact ⟨hp, y, by rw [List.getElem?_append_left (by omega)]; exact hy, hy'⟩
    · rw [List.getElem?_append_right (by omega)] at hx
      obtain ⟨hp, y, hy, hy'⟩ := f₂ _ x hx
      refine ⟨by omega, y, ?_, hy'⟩
      rw [List.getElem?_append_right (by omega), show a - x.pos - l₁.length = a - l₁.length - x.pos by omega]
      exact hy

theorem mem_stageSlots {i k : Nat} {owner : Proc} {p : Nat} {steps : List Backend.Step}
    {x : StepSlot} (h : x ∈ stageSlots i k owner p steps) :
    x.item = i ∧ x.stage = k ∧ x.owner = owner := by
  induction steps generalizing p with
  | nil => simp [stageSlots] at h
  | cons step steps ih =>
    rcases List.mem_cons.1 h with rfl | h
    · exact ⟨rfl, rfl, rfl⟩
    · exact ih h

theorem mem_stagesSlots {i k : Nat} {owner : Proc} {stages : List Backend.Stage} {x : StepSlot}
    (h : x ∈ stagesSlots i k owner stages) : x.item = i ∧ k ≤ x.stage ∧ x.owner = owner := by
  induction stages generalizing k with
  | nil => simp [stagesSlots] at h
  | cons stage stages ih =>
    rcases List.mem_append.1 h with h | h
    · obtain ⟨h1, h2, h3⟩ := mem_stageSlots h
      exact ⟨h1, h2.ge, h3⟩
    · obtain ⟨h1, h2, h3⟩ := ih h
      exact ⟨h1, by omega, h3⟩

theorem mem_itemsSlots {i : Nat} {items : List BuildItem} {x : StepSlot}
    (h : x ∈ itemsSlots i items) : i ≤ x.item ∧ ∃ item ∈ items, x.owner = item.proc := by
  induction items generalizing i with
  | nil => simp [itemsSlots] at h
  | cons item items ih =>
    rcases List.mem_append.1 h with h | h
    · obtain ⟨h1, -, h3⟩ := mem_stagesSlots h
      exact ⟨h1.ge, item, List.mem_cons_self _ _, h3⟩
    · obtain ⟨h1, item', h2, h3⟩ := ih h
      exact ⟨by omega, item', List.mem_cons_of_mem _ h2, h3⟩

theorem stagesSlots_grouped (i k : Nat) (owner : Proc) (stages : List Backend.Stage) :
    GroupedByStart (stagesSlots i k owner stages) ∧ StartsAtFirst (stagesSlots i k owner stages) := by
  induction stages generalizing k with
  | nil => exact ⟨fun _ _ _ _ h => by simp [stagesSlots] at h, fun _ _ h => by simp [stagesSlots] at h⟩
  | cons stage stages ih =>
    obtain ⟨g₁, f₁⟩ := stageSlots_grouped i k owner stage.steps
    obtain ⟨g₂, f₂⟩ := ih (k + 1)
    refine GroupedByStart.append g₁ g₂ f₁ f₂ fun x hx y hy _ => ?_
    have := (mem_stageSlots hx).2.1
    have := (mem_stagesSlots hy).2.1
    omega

/-- **The steps of `stepSlots` are grouped by stage**, each group starting at
its stage's first step. -/
theorem itemsSlots_grouped (i : Nat) (items : List BuildItem) :
    GroupedByStart (itemsSlots i items) ∧ StartsAtFirst (itemsSlots i items) := by
  induction items generalizing i with
  | nil => exact ⟨fun _ _ _ _ h => by simp [itemsSlots] at h, fun _ _ h => by simp [itemsSlots] at h⟩
  | cons item items ih =>
    obtain ⟨g₁, f₁⟩ := stagesSlots_grouped i 0 item.proc item.config.stages
    obtain ⟨g₂, f₂⟩ := ih (i + 1)
    refine GroupedByStart.append g₁ g₂ f₁ f₂ fun x hx y hy h _ => ?_
    have := (mem_stagesSlots hx).1
    have := (mem_itemsSlots hy).1
    omega

/-- **`setBuildStepsOnBuild` appends the items, then their steps**, while the
PIDs stay below `MaxInt64`.  The build keeps its processes; then come the
items' descriptors in order, then one descriptor per step in item, stage, step
order, the `j`-th (from `1`) with PID `p0 + j` for `p0 = max(0, largest item
PID)`, the step's alias as name, the build's ID, its item's PID as PPID and
skipped exactly when its item is.  Its PGID is `p0 + j - pos`, `pos` its
position in its stage, and the slot `pos` places before it is its stage's
first step: the PGID is that step's PID. -/
theorem setBuildStepsOnBuild64_eq_stepDescriptors (build : Build) (items : List BuildItem)
    (h : maxPid items + (stepSlots items).length ≤ Go.maxInt) :
    setBuildStepsOnBuild64 build items =
      { build with
        procs := build.procs ++ items.map (·.proc) ++ (stepSlots items).mapIdx
          fun j s => stepDescriptor build.id (maxPid items) (j + 1) s } ∧
      StartsAtFirst (stepSlots items) :=
  ⟨setBuildStepsOnBuildWith_eq _ build items (incrementsOn_int64 (maxPid_nonneg items) h),
    (itemsSlots_grouped 0 items).2⟩

/-- An item with PID `3` and stages of two, no and one step. -/
theorem setBuildStepsOnBuild64_eq_stepDescriptors_stages :
    maxPid [({ proc := { pid := 3 }, config := ⟨[⟨[⟨"", "a"⟩, ⟨"", "b"⟩]⟩, ⟨[]⟩, ⟨[⟨"", "c"⟩]⟩]⟩ } : BuildItem)] +
        (stepSlots [({ proc := { pid := 3 }, config := ⟨[⟨[⟨"", "a"⟩, ⟨"", "b"⟩]⟩, ⟨[]⟩, ⟨[⟨"", "c"⟩]⟩]⟩ } : BuildItem)]).length
        ≤ Go.maxInt ∧
      ((setBuildStepsOnBuild64 {}
        [({ proc := { pid := 3 }, config := ⟨[⟨[⟨"", "a"⟩, ⟨"", "b"⟩]⟩, ⟨[]⟩, ⟨[⟨"", "c"⟩]⟩]⟩ } : BuildItem)]).procs.map
          fun p => (p.pid, p.ppid, p.pgid)) = [(3, 0, 0), (4, 3, 4), (5, 3, 4), (6, 3, 6)] := by
  refine ⟨by decide, ?_⟩
  rw [(setBuildStepsOnBuild64_eq_stepDescriptors {} _ (by decide)).1]
  decide

/-- Past `MaxInt64` the PID counter wraps: an item with PID `MaxInt64` and one
step gives the step PID `-2 ^ 63`, not `MaxInt64 + 1`. -/
theorem setBuildStepsOnBuild64_wraps :
    ¬ ∀ (build : Build) (items : List BuildItem),
      setBuildStepsOnBuild64 build items =
        { build with
          procs := build.procs ++ items.map (·.proc) ++ (stepSlots items).mapIdx
            fun j s => stepDescriptor build.id (maxPid items) (j + 1) s } := fun h => by
  have := congrArg (fun b : Build => b.procs.map (·.pid))
    (h {} [{ proc := { pid := Go.maxInt }, config := ⟨[⟨[⟨"", "a"⟩]⟩]⟩ }])
  revert this
  decide

end Woodpecker
