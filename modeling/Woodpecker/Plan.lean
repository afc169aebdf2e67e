/-
# What `Build` plans

`Build` runs two nested loops with early returns and two counters, PIDs and
`rand.Int()` calls.  Flattened, it walks the (document, axis) pairs in order
(`docPairs`) and numbers consecutively the pairs whose configuration has a
stage (`plannedItems`).  The spec's plan (`specPlannedItems`) is written from
the libraries' outputs alone: which pairs it keeps is decided by the stages
the compiler returns.  `build_eq_filter_plannedItems` says the loops compute
exactly that before pruning, and what each numbered item holds
(`PlannedItem`).

Two consequences for what reaches the compiler: the secrets that do not match
the build's event and the clone credentials of a public repository change
nothing in the plan; and the process id in every prefix is `0`, because
`Build` passes `proc.ID`, never set, where the item's PID was meant, so two
items of one plan share a prefix whenever `rand.Int()` repeats.
-/

import Woodpecker.Planner
import Mathlib.Tactic.Ring
import Mathlib.Data.List.Sort

namespace Woodpecker

variable (P : Packages) (cfg : PipelineConfig) (b : ProcBuilder)

/-- The (document, axis) pairs of `Build`'s loops over the documents `ys`:
each document with its matrix axes in order, or with the one empty axis. -/
def docPairs : List FileMeta → Except String (List (FileMeta × GoMap))
  | [] => pure []
  | y :: ys => do
    let axes ← P.matrixParseString y.data
    let axes := if axes.length = 0 then [GoMap.empty] else axes
    let rest ← docPairs ys
    pure (axes.map (y, ·) ++ rest)

/-- The items the plan lists before pruning: one per pair whose compiled
configuration has a stage, numbered consecutively from `k`; the `i`-th pair
is compiled with the `i`-th value of `rand.Int()`. -/
def plannedItems : Int → Nat → List (FileMeta × GoMap) → Except String (List BuildItem)
  | _, _, [] => pure []
  | k, i, (y, axis) :: ps => do
    let item ← b.compileItem P cfg k (P.randInt i) y axis
    if item.config.stages = [] then plannedItems k (i + 1) ps
    else (item :: ·) <$> plannedItems (k + 1) (i + 1) ps

/-- The metadata of the job numbered `k` on document `y` and `axis`. -/
def ProcBuilder.jobMetadata (k : Int) (y : FileMeta) (axis : GoMap) : Frontend.Metadata :=
  metadataFromStruct P b.repo b.curr b.last (b.newProc k y axis) b.link

/-- What the item numbered `k` for document `y` and `axis` holds: PID and PGID
`k`, no parent, the axis, the sanitized name; and it was substituted, parsed
and compiled under the metadata of job `k`, skipped exactly when the parsed
branch filter rejects the build's branch, with `rand.Int()` giving `r`. -/
structure ProcBuilder.PlannedItem (k : Int) (r : Nat) (y : FileMeta) (axis : GoMap)
    (item : BuildItem) : Prop where
  pid : item.proc.pid = k
  pgid : item.proc.pgid = k
  ppid : item.proc.ppid = 0
  environ : item.proc.environ = axis
  name : item.proc.name = sanitizePath y.name b.repo.config
  job : (b.jobMetadata P k y axis).job.number = k
  compiled : ∃ substituted parsed,
    envsubst_ P y.data (environmentVariables P (b.jobMetadata P k y axis) axis) = .ok substituted ∧
    P.yamlParseString substituted = .ok parsed ∧
    item.proc.state = (if P.branchesMatch parsed.branches b.curr.branch then .pending else .skipped) ∧
    item.config = b.toInternalRepresentation P cfg parsed
      (environmentVariables P (b.jobMetadata P k y axis) axis)
      (P.setPlatform (b.jobMetadata P k y axis) parsed.platform) 0 r

/-- Every item `compileItem` returns is the item `PlannedItem` describes. -/
theorem ProcBuilder.plannedItem_of_compileItem {k : Int} {r : Nat} {y : FileMeta} {axis : GoMap}
    {item : BuildItem} (h : b.compileItem P cfg k r y axis = .ok item) :
    b.PlannedItem P cfg k r y axis item := by
  simp only [ProcBuilder.compileItem, Except.bind_eq_ok] at h
  obtain ⟨substituted, hsub, parsed, hparsed, h⟩ := h
  split at h
  · cases h
  · obtain ⟨_, -, h⟩ := Except.bind_eq_ok.1 h
    cases h
    cases hm : P.branchesMatch parsed.branches b.curr.branch <;>
      refine ⟨?_, ?_, ?_, ?_, ?_, rfl, substituted, parsed, hsub, hparsed, ?_, ?_⟩ <;>
      simp [hm, ProcBuilder.newProc, ProcBuilder.jobMetadata]

/-- The item the spec gives document `y` and `axis` under number `k`, from
what the libraries return for it: the document parsed to `parsed` after
substitution under the metadata of job `k`, and `rand.Int()` giving `r`.  Its
descriptor has PID and PGID `k`, the axis and the sanitized name, and is
skipped exactly when the parsed branch filter rejects the build's branch; its
configuration is what `compiler.Compile` makes of the parsed document under
the options of `toInternalRepresentation`. -/
def ProcBuilder.specItem (k : Int) (r : Nat) (y : FileMeta) (axis : GoMap)
    (parsed : Yaml.Config) : BuildItem :=
  let metadata := b.jobMetadata P k y axis
  { proc := { buildID := b.curr.id, pid := k, pgid := k, environ := axis,
              name := sanitizePath y.name b.repo.config,
              state := if P.branchesMatch parsed.branches b.curr.branch then .pending else .skipped }
    config := b.toInternalRepresentation P cfg parsed (environmentVariables P metadata axis)
      (P.setPlatform metadata parsed.platform) 0 r
    labels := parsed.labels
    dependsOn := parsed.dependsOn
    runsOn := parsed.runsOn
    platform := (P.setPlatform metadata parsed.platform).sys.arch }

/-- The plan the spec describes over the pairs `ps`, the first numbered `k`
and drawing the `i`-th value of `rand.Int()`: each pair is substituted under
the metadata of the job it would be, parsed and linted; it becomes that job,
taking number `k`, when the compiler gives it a stage, and is passed over,
number and all, otherwise. -/
def specPlannedItems : Int → Nat → List (FileMeta × GoMap) → Except String (List BuildItem)
  | _, _, [] => pure []
  | k, i, (y, axis) :: ps => do
    let substituted ← envsubst_ P y.data (environmentVariables P (b.jobMetadata P k y axis) axis)
    let parsed ← P.yamlParseString substituted
    if let some lerr := P.lint b.repo.isTrusted parsed then throw lerr
    let item := b.specItem P cfg k (P.randInt i) y axis parsed
    if item.config.stages = [] then specPlannedItems k (i + 1) ps
    else (item :: ·) <$> specPlannedItems (k + 1) (i + 1) ps

/-- `compileItem` builds the spec's item: substitution, parsing and linting
are its only failures. -/
theorem ProcBuilder.compileItem_eq (k : Int) (r : Nat) (y : FileMeta) (axis : GoMap) :
    b.compileItem P cfg k r y axis = (do
      let substituted ← envsubst_ P y.data (environmentVariables P (b.jobMetadata P k y axis) axis)
      let parsed ← P.yamlParseString substituted
      if let some lerr := P.lint b.repo.isTrusted parsed then throw lerr
      pure (b.specItem P cfg k r y axis parsed)) := by
  simp only [ProcBuilder.compileItem, ProcBuilder.jobMetadata]
  congr 1
  funext substituted
  congr 1
  funext parsed
  cases P.lint b.repo.isTrusted parsed with
  | some lerr => rfl
  | none =>
    cases hm : P.branchesMatch parsed.branches b.curr.branch <;>
      simp [hm, ProcBuilder.specItem, ProcBuilder.newProc, ProcBuilder.jobMetadata]

/-- **The loops' items are the spec's.** -/
theorem plannedItems_eq_specPlannedItems (k : Int) (i : Nat) (ps : List (FileMeta × GoMap)) :
    plannedItems P cfg b k i ps = specPlannedItems P cfg b k i ps := by
  induction ps generalizing k i with
  | nil => rfl
  | cons p ps ih =>
    obtain ⟨y, axis⟩ := p
    rw [plannedItems, specPlannedItems, ProcBuilder.compileItem_eq]
    rcases envsubst_ P y.data (environmentVariables P (b.jobMetadata P k y axis) axis) with
      _ | substituted
    · rfl
    simp only [Except.ok_bind]
    rcases P.yamlParseString substituted with _ | parsed
    · rfl
    simp only [Except.ok_bind]
    rcases P.lint b.repo.isTrusted parsed with _ | lerr
    · simp only [ih]
      rfl
    · rfl

/-- **The inner loop** over the axes of document `y` plans the pairs of `y`. -/
theorem ProcBuilder.foldlM_buildAxis (y : FileMeta) (axes : List GoMap) (st st' : BuildState)
    (h : axes.foldlM (b.buildAxis P cfg y) st = .ok st') :
    ∃ E, plannedItems P cfg b st.pidSequence st.draws (axes.map (y, ·)) = .ok E ∧
      st' = ⟨st.items ++ E, st.pidSequence + E.length, st.draws + axes.length⟩ := by
  induction axes generalizing st with
  | nil =>
    cases h
    exact ⟨[], rfl, by simp⟩
  | cons axis axes ih =>
    rw [List.foldlM_cons, Except.bind_eq_ok] at h
    obtain ⟨st₁, h₁, h⟩ := h
    simp only [ProcBuilder.buildAxis, Except.bind_eq_ok] at h₁
    obtain ⟨item, hitem, h₁⟩ := h₁
    obtain ⟨E, hE, rfl⟩ := ih st₁ h
    split at h₁ <;> cases h₁
    · refine ⟨E, ?_, ?_⟩
      · simp [plannedItems, hitem, List.length_eq_zero.1 ‹_›, hE]
      · simp only [List.length_cons, BuildState.mk.injEq, true_and]; omega
    · refine ⟨item :: E, ?_, ?_⟩
      · simp [plannedItems, hitem, List.length_eq_zero.not.1 ‹_›, hE]
      · simp only [List.append_assoc, List.singleton_append, List.length_cons, BuildState.mk.injEq,
          true_and]; omega

/-- What one pair does to the planned items: its item is dropped when it has no
stage, and takes number `k` otherwise. -/
theorem plannedItems_cons_eq_ok {k : Int} {i : Nat} {y : FileMeta} {axis : GoMap}
    {ps : List (FileMeta × GoMap)} {E : List BuildItem}
    (h : plannedItems P cfg b k i ((y, axis) :: ps) = .ok E) :
    ∃ item, b.compileItem P cfg k (P.randInt i) y axis = .ok item ∧
      (item.config.stages = [] ∧ plannedItems P cfg b k (i + 1) ps = .ok E ∨
        item.config.stages ≠ [] ∧ ∃ E', plannedItems P cfg b (k + 1) (i + 1) ps = .ok E' ∧
          E = item :: E') := by
  simp only [plannedItems, Except.bind_eq_ok] at h
  obtain ⟨item, hitem, h⟩ := h
  refine ⟨item, hitem, ?_⟩
  split at h
  · exact .inl ⟨‹_›, h⟩
  · cases hE : plannedItems P cfg b (k + 1) (i + 1) ps <;> simp_all [Functor.map, Except.map]

theorem plannedItems_append {ps qs : List (FileMeta × GoMap)} {k : Int} {i : Nat}
    {E₁ E₂ : List BuildItem} (h₁ : plannedItems P cfg b k i ps = .ok E₁)
    (h₂ : plannedItems P cfg b (k + E₁.length) (i + ps.length) qs = .ok E₂) :
    plannedItems P cfg b k i (ps ++ qs) = .ok (E₁ ++ E₂) := by
  induction ps generalizing k i E₁ with
  | nil => cases h₁; simpa using h₂
  | cons p ps ih =>
    obtain ⟨item, hitem, ⟨hnil, h₁⟩ | ⟨hstages, E, hE, rfl⟩⟩ := plannedItems_cons_eq_ok P cfg b h₁ <;>
      rw [List.cons_append] <;> simp only [plannedItems, hitem, Except.ok_bind]
    · rw [if_pos hnil, ih h₁ (by simpa [Nat.add_assoc, Nat.add_comm 1] using h₂)]
    · rw [if_neg hstages,
        ih hE (by simpa [Nat.add_assoc, Nat.add_comm 1, add_assoc, add_comm (1 : Int)] using h₂)]
      rfl

/-- **The outer loop** over the documents plans their pairs in order. -/
theorem ProcBuilder.foldlM_buildYaml (ys : List FileMeta) (st st' : BuildState)
    (h : ys.foldlM (b.buildYaml P cfg) st = .ok st') :
    ∃ pairs E, docPairs P ys = .ok pairs ∧
      plannedItems P cfg b st.pidSequence st.draws pairs = .ok E ∧
      st' = ⟨st.items ++ E, st.pidSequence + E.length, st.draws + pairs.length⟩ := by
  induction ys generalizing st with
  | nil =>
    cases h
    exact ⟨[], [], rfl, rfl, by simp⟩
  | cons y ys ih =>
    rw [List.foldlM_cons, Except.bind_eq_ok] at h
    obtain ⟨st₁, h₁, h⟩ := h
    simp only [ProcBuilder.buildYaml, Except.bind_eq_ok] at h₁
    obtain ⟨axes, haxes, h₁⟩ := h₁
    have hax : (if axes.length = 0 then axes ++ [GoMap.empty] else axes) =
        (if axes.length = 0 then [GoMap.empty] else axes) := by
      split <;> simp_all
    rw [hax] at h₁
    obtain ⟨E₁, hE₁, rfl⟩ := b.foldlM_buildAxis P cfg y _ st st₁ h₁
    obtain ⟨pairs, E₂, hpairs, hE₂, rfl⟩ := ih _ h
    refine ⟨(if axes.length = 0 then [GoMap.empty] else axes).map (y, ·) ++ pairs, E₁ ++ E₂,
      by simp [docPairs, haxes, hpairs], plannedItems_append P cfg b hE₁ ?_, ?_⟩
    · simpa using hE₂
    · simp only [List.append_assoc, List.length_append, List.length_map, BuildState.mk.injEq,
        true_and, Nat.cast_add]
      omega

/-- The `j`-th planned item is `compileItem` of one of the pairs under number `k + j`. -/
theorem plannedItems_getElem {ps : List (FileMeta × GoMap)} {k : Int} {i : Nat}
    {E : List BuildItem} (h : plannedItems P cfg b k i ps = .ok E) (j : Nat) (hj : j < E.length) :
    ∃ r y axis, (y, axis) ∈ ps ∧ b.compileItem P cfg (k + j) r y axis = .ok E[j] := by
  induction ps generalizing k i E j with
  | nil => cases h; simp at hj
  | cons p ps ih =>
    obtain ⟨item, hitem, ⟨-, h⟩ | ⟨-, E, hE, rfl⟩⟩ := plannedItems_cons_eq_ok P cfg b h
    · obtain ⟨r, y', axis', hmem, h'⟩ := ih h j hj
      exact ⟨r, y', axis', List.mem_cons_of_mem _ hmem, h'⟩
    cases j with
    | zero => exact ⟨_, p.1, p.2, List.mem_cons_self _ _, by simpa using hitem⟩
    | succ j =>
      obtain ⟨r, y', axis', hmem, h'⟩ := ih hE j (by simpa using hj)
      refine ⟨r, y', axis', List.mem_cons_of_mem _ hmem, ?_⟩
      rw [show k + ↑(j + 1) = k + 1 + ↑j by push_cast; ring]
      exact h'

/-- Every planned item is the item `PlannedItem` describes, under its number. -/
theorem plannedItems_planned {ps : List (FileMeta × GoMap)} {k : Int} {i : Nat}
    {E : List BuildItem} (h : plannedItems P cfg b k i ps = .ok E) (j : Nat) (hj : j < E.length) :
    ∃ r y axis, (y, axis) ∈ ps ∧ b.PlannedItem P cfg (k + j) r y axis E[j] := by
  obtain ⟨r, y, axis, hmem, hitem⟩ := plannedItems_getElem P cfg b h j hj
  exact ⟨r, y, axis, hmem, b.plannedItem_of_compileItem P cfg hitem⟩

/-- How the items `E` planned over `ps` spend the draws of `rand.Int()`, the
first draw being `i₀` and the first number `k`: item `j` is pair `idx[j]`,
compiled under number `k + j` with that pair's own draw; every pair not in
`idx` was compiled, under the number the next kept pair gets, with its own
draw, to a configuration without stages. -/
structure ProcBuilder.SpendsDraws (k : Int) (i₀ : Nat) (ps : List (FileMeta × GoMap))
    (E : List BuildItem) (idx : List Nat) : Prop where
  length : idx.length = E.length
  increasing : idx.Pairwise (· < ·)
  kept : ∀ (j i : Nat) item, idx[j]? = some i → E[j]? = some item → ∃ p, ps[i]? = some p ∧
    b.compileItem P cfg (k + j) (P.randInt (i₀ + i)) p.1 p.2 = .ok item
  dropped : ∀ i p, ps[i]? = some p → i ∉ idx → ∃ item,
    b.compileItem P cfg (k + (idx.filter (· < i)).length) (P.randInt (i₀ + i)) p.1 p.2 = .ok item ∧
      item.config.stages = []

theorem length_filter_map_succ_lt (l : List Nat) (i : Nat) :
    ((l.map (· + 1)).filter (· < i + 1)).length = (l.filter (· < i)).length := by
  simp [List.filter_map, Function.comp_def]

/-- A leading pair compiled without stages spends the first draw and is not
planned; the other pairs move up by one. -/
theorem ProcBuilder.SpendsDraws.cons_dropped {k : Int} {i₀ : Nat} {p : FileMeta × GoMap}
    {ps : List (FileMeta × GoMap)} {E : List BuildItem} {idx : List Nat} {item : BuildItem}
    (hitem : b.compileItem P cfg k (P.randInt i₀) p.1 p.2 = .ok item)
    (hnil : item.config.stages = []) (h : b.SpendsDraws P cfg k (i₀ + 1) ps E idx) :
    b.SpendsDraws P cfg k i₀ (p :: ps) E (idx.map (· + 1)) where
  length := by simpa using h.length
  increasing := List.pairwise_map.2 (h.increasing.imp (by omega))
  kept j i item' hj hitem' := by
    rw [List.getElem?_map] at hj
    obtain ⟨i', hi', rfl⟩ := Option.map_eq_some'.1 hj
    obtain ⟨p', hp', hc⟩ := h.kept j i' item' hi' hitem'
    exact ⟨p', by simpa using hp', by rwa [show i₀ + (i' + 1) = i₀ + 1 + i' by omega]⟩
  dropped i p' hp hi := by
    cases i with
    | zero =>
      obtain rfl := Option.some.inj (List.getElem?_cons_zero.symm.trans hp)
      exact ⟨item, by simpa using hitem, hnil⟩
    | succ i =>
      obtain ⟨item', hc, hs⟩ := h.dropped i p' (by simpa using hp)
        (fun h' => hi (List.mem_map.2 ⟨i, h', rfl⟩))
      exact ⟨item', by rwa [length_filter_map_succ_lt, show i₀ + (i + 1) = i₀ + 1 + i by omega], hs⟩

/-- A leading pair compiled with a stage spends the first draw and is planned
first, under number `k`; the other pairs move up by one, and the planned ones
take the following numbers. -/
theorem ProcBuilder.SpendsDraws.cons_kept {k : Int} {i₀ : Nat} {p : FileMeta × GoMap}
    {ps : List (FileMeta × GoMap)} {E : List BuildItem} {idx : List Nat} {item : BuildItem}
    (hitem : b.compileItem P cfg k (P.randInt i₀) p.1 p.2 = .ok item)
    (h : b.SpendsDraws P cfg (k + 1) (i₀ + 1) ps E idx) :
    b.SpendsDraws P cfg k i₀ (p :: ps) (item :: E) (0 :: idx.map (· + 1)) where
  length := by simpa using h.length
  increasing := List.pairwise_cons.2
    ⟨fun a ha => by obtain ⟨x, -, rfl⟩ := List.mem_map.1 ha; omega,
      List.pairwise_map.2 (h.increasing.imp (by omega))⟩
  kept j i item' hj hitem' := by
    cases j with
    | zero =>
      obtain rfl := Option.some.inj (List.getElem?_cons_zero.symm.trans hj)
      obtain rfl := Option.some.inj (List.getElem?_cons_zero.symm.trans hitem')
      exact ⟨p, List.getElem?_cons_zero, by simpa using hitem⟩
    | succ j =>
      rw [List.getElem?_cons_succ, List.getElem?_map] at hj
      obtain ⟨i', hi', rfl⟩ := Option.map_eq_some'.1 hj
      obtain ⟨p', hp', hc⟩ := h.kept j i' item' hi' (by simpa using hitem')
      refine ⟨p', by simpa using hp', ?_⟩
      rwa [show k + ↑(j + 1) = k + 1 + ↑j by push_cast; ring,
        show i₀ + (i' + 1) = i₀ + 1 + i' by omega]
  dropped i p' hp hi := by
    cases i with
    | zero => exact absurd (List.mem_cons_self _ _) hi
    | succ i =>
      obtain ⟨item', hc, hs⟩ := h.dropped i p' (by simpa using hp)
        (fun h' => hi (List.mem_cons_of_mem _ (List.mem_map.2 ⟨i, h', rfl⟩)))
      refine ⟨item', ?_, hs⟩
      rwa [List.filter_cons_of_pos (by simp), List.length_cons, length_filter_map_succ_lt,
        show i₀ + (i + 1) = i₀ + 1 + i by omega, Nat.cast_succ, ← add_assoc, add_right_comm k]

/-- **One draw per pair.**  The planned items are the pairs whose compiled
configuration has a stage, in order, and every pair, kept or not, spends the
draw of its position. -/
theorem plannedItems_spendsDraws {ps : List (FileMeta × GoMap)} {k : Int} {i₀ : Nat}
    {E : List BuildItem} (h : plannedItems P cfg b k i₀ ps = .ok E) :
    ∃ idx, b.SpendsDraws P cfg k i₀ ps E idx := by
  induction ps generalizing k i₀ E with
  | nil =>
    cases h
    exact ⟨[], rfl, List.Pairwise.nil, by simp, by simp⟩
  | cons p ps ih =>
    obtain ⟨item, hitem, ⟨hnil, h⟩ | ⟨-, E, hE, rfl⟩⟩ := plannedItems_cons_eq_ok P cfg b h
    · -- a pair without stages: dropped, its draw spent
      obtain ⟨idx, hidx⟩ := ih h
      exact ⟨_, hidx.cons_dropped P cfg b hitem hnil⟩
    · -- a pair with stages: planned under number `k`
      obtain ⟨idx, hidx⟩ := ih hE
      exact ⟨_, hidx.cons_kept P cfg b hitem⟩

/-- The two loops of a successful `Build` plan the pairs of the sorted documents from PID `1`
and the first random draw, and the result is their pruning. -/
theorem ProcBuilder.build_eq_ok {items : List BuildItem} (h : b.build P cfg = .ok items) :
    ∃ pairs E, docPairs P (P.sortByName b.yamls) = .ok pairs ∧
      plannedItems P cfg b 1 0 pairs = .ok E ∧ items = filterItemsWithMissingDependencies E := by
  simp only [ProcBuilder.build, Except.bind_eq_ok] at h
  obtain ⟨st, hst, h⟩ := h
  obtain ⟨pairs, E, hpairs, hE, rfl⟩ := b.foldlM_buildYaml P cfg _ _ _ hst
  cases h
  exact ⟨pairs, E, hpairs, hE, by simp⟩

/-- **`Build` numbers the items it plans and prunes them.**  When `Build`
succeeds, it returns `filterItemsWithMissingDependencies E`, where `E` is the
spec's plan (`specPlannedItems`), read off what the libraries return: for the
documents in the order `sort.Sort` gives them (ascending name) and for each
its matrix axes in order (one empty axis when there are none), one item per
(document, axis) pair to which the compiler gives a stage.  The `k`-th item
of `E` (from `1`) has PID and PGID `k`, the pair's axis, the document's
sanitized name, is skipped exactly when the parsed branch filter rejects the
build's branch, and was substituted and compiled under the metadata of job
`k`. -/
theorem ProcBuilder.build_eq_filter_plannedItems {items : List BuildItem}
    (h : b.build P cfg = .ok items) :
    ∃ pairs E, docPairs P (P.sortByName b.yamls) = .ok pairs ∧
      specPlannedItems P cfg b 1 0 pairs = .ok E ∧
      items = filterItemsWithMissingDependencies E ∧
      ∀ j (hj : j < E.length), ∃ r y axis, (y, axis) ∈ pairs ∧
        b.PlannedItem P cfg (j + 1) r y axis E[j] := by
  obtain ⟨pairs, E, hpairs, hE, rfl⟩ := b.build_eq_ok P cfg h
  refine ⟨pairs, E, hpairs, plannedItems_eq_specPlannedItems P cfg b 1 0 pairs ▸ hE, rfl,
    fun j hj => ?_⟩
  simpa only [add_comm (1 : Int)] using plannedItems_planned P cfg b hE j hj

/-- The sample document's matrix legs are the planned items. -/
theorem ProcBuilder.build_eq_filter_plannedItems_matrix :
    ∃ items, sampleBuilder.build (samplePackages sampleAxes) samplePipelineConfig = .ok items ∧
      ∃ pairs E, docPairs (samplePackages sampleAxes)
          ((samplePackages sampleAxes).sortByName sampleBuilder.yamls) = .ok pairs ∧
        specPlannedItems (samplePackages sampleAxes) samplePipelineConfig sampleBuilder 1 0 pairs =
          .ok E ∧
        items = filterItemsWithMissingDependencies E ∧
        ∀ j (hj : j < E.length), ∃ r y axis, (y, axis) ∈ pairs ∧
          sampleBuilder.PlannedItem (samplePackages sampleAxes) samplePipelineConfig (j + 1) r y axis E[j] := by
  obtain ⟨items, h⟩ := sampleBuilder_build_ok
  exact ⟨items, h, ProcBuilder.build_eq_filter_plannedItems _ _ _ h⟩

/-- **`Build` calls `rand.Int()` once per (document, axis) pair**, in loop
order, also for the pairs whose configuration has no stage: the `j`-th
planned item is compiled under PID `1 + j` with the value of the call for its
own pair, and the pairs not planned are exactly those compiled, each with its
own call, to a configuration without stages. -/
theorem ProcBuilder.build_spendsDraws {items : List BuildItem} (h : b.build P cfg = .ok items) :
    ∃ pairs E idx, docPairs P (P.sortByName b.yamls) = .ok pairs ∧
      items = filterItemsWithMissingDependencies E ∧ b.SpendsDraws P cfg 1 0 pairs E idx := by
  obtain ⟨pairs, E, hpairs, hE, rfl⟩ := b.build_eq_ok P cfg h
  obtain ⟨idx, hidx⟩ := plannedItems_spendsDraws P cfg b hE
  exact ⟨pairs, E, idx, hpairs, rfl, hidx⟩

/-- The sample document's two matrix legs spend one draw each. -/
theorem ProcBuilder.build_spendsDraws_matrix :
    ∃ items, sampleBuilder.build (samplePackages sampleAxes) samplePipelineConfig = .ok items ∧
      ∃ pairs E idx, docPairs (samplePackages sampleAxes)
          ((samplePackages sampleAxes).sortByName sampleBuilder.yamls) = .ok pairs ∧
        items = filterItemsWithMissingDependencies E ∧
        sampleBuilder.SpendsDraws (samplePackages sampleAxes) samplePipelineConfig 1 0 pairs E idx := by
  obtain ⟨items, h⟩ := sampleBuilder_build_ok
  exact ⟨items, h, ProcBuilder.build_spendsDraws _ _ _ h⟩

/-- Two sorted permutations of documents with distinct names are equal:
`sort.Sort` has one possible outcome. -/
theorem Packages.sortByName_eq_of_perm (P : Packages) {l l' : List FileMeta} (hp : l'.Perm l)
    (hn : (l.map (·.name)).Nodup) : P.sortByName l' = P.sortByName l := by
  have strict : ∀ {m : List FileMeta}, m.Perm l → m.Pairwise (fun a b => a.name ≤ b.name) →
      m.Pairwise (fun a b => a.name < b.name) := fun hm hsorted =>
    (hsorted.and (List.pairwise_map.1 ((hm.map _).nodup_iff.2 hn))).imp fun h => lt_of_le_of_ne h.1 h.2
  have hs := P.sortByName_perm l
  have hs' := (P.sortByName_perm l').trans hp
  haveI : IsAntisymm FileMeta (fun a b => a.name < b.name) :=
    ⟨fun _ _ h h' => absurd (h.trans h') (lt_irrefl _)⟩
  exact List.eq_of_perm_of_sorted (hs'.trans hs.symm) (strict hs' (P.sortByName_sorted l'))
    (strict hs (P.sortByName_sorted l))

/-- **The plan does not depend on the order of the documents** when their
names are distinct: `Build` sorts them first, and a list with distinct names
has one sorted order.  (`sort.Sort` is not stable, so with repeated names the
order among them is the library's.) -/
theorem ProcBuilder.build_perm_yamls (yamls : List FileMeta) (hp : yamls.Perm b.yamls)
    (hn : (b.yamls.map (·.name)).Nodup) :
    ({ b with yamls } : ProcBuilder).build P cfg = b.build P cfg := by
  simp only [ProcBuilder.build, P.sortByName_eq_of_perm hp hn]
  rfl

/-- Two documents handed over in either order. -/
theorem ProcBuilder.build_perm_yamls_swap :
    let b : ProcBuilder := { sampleBuilder with yamls := [⟨"a.yml", "x"⟩, ⟨"b.yml", "y"⟩] }
    List.Perm [⟨"b.yml", "y"⟩, ⟨"a.yml", "x"⟩] b.yamls ∧ (b.yamls.map (·.name)).Nodup ∧
      ({ b with yamls := [⟨"b.yml", "y"⟩, ⟨"a.yml", "x"⟩] } : ProcBuilder).build
          (samplePackages sampleAxes) samplePipelineConfig =
        b.build (samplePackages sampleAxes) samplePipelineConfig :=
  have hp : List.Perm [(⟨"b.yml", "y"⟩ : FileMeta), ⟨"a.yml", "x"⟩] [⟨"a.yml", "x"⟩, ⟨"b.yml", "y"⟩] :=
    List.Perm.swap _ _ []
  have hn : ([(⟨"a.yml", "x"⟩ : FileMeta), ⟨"b.yml", "y"⟩].map (·.name)).Nodup := by decide
  ⟨hp, hn, ProcBuilder.build_perm_yamls _ _ _ _ hp hn⟩

theorem filterMap_ite_eq_map_filter {α β : Type} (p : α → Bool) (g : α → β) (l : List α) :
    l.filterMap (fun a => if p a then some (g a) else none) = (l.filter p).map g := by
  induction l with
  | nil => rfl
  | cons a l ih => by_cases h : p a <;> simp [List.filter_cons, h, ih]

/-- The compiler sees the secrets only through those that match the event, and
the clone credentials only of a private repository. -/
theorem ProcBuilder.toInternalRepresentation_secs_netrc (secs : List Secret) (netrc : Netrc)
    (hsecs : secs.filter (P.secretMatch · b.curr.event) = b.secs.filter (P.secretMatch · b.curr.event))
    (hnetrc : b.repo.isPrivate = true → netrc = b.netrc) (parsed : Yaml.Config) (environ : GoMap)
    (metadata : Frontend.Metadata) (procID : Int) (r : Nat) :
    ({ b with secs, netrc } : ProcBuilder).toInternalRepresentation P cfg parsed environ metadata
        procID r = b.toInternalRepresentation P cfg parsed environ metadata procID r := by
  simp only [ProcBuilder.toInternalRepresentation, filterMap_ite_eq_map_filter]
  rw [hsecs]
  cases hp : b.repo.isPrivate
  · rfl
  · rw [hnetrc hp]

/-- **Excluded secrets and public clone credentials do not reach the plan.**
Two contexts that differ only in their secrets, with the same subsequence of
secrets matching the build's event, and in their clone credentials when the
repository is public, give the same result of `Build` under the same random
draws: the same items with the same compiled configurations, or the same
error. -/
theorem ProcBuilder.build_secs_netrc_noninterference (secs : List Secret) (netrc : Netrc)
    (hsecs : secs.filter (P.secretMatch · b.curr.event) = b.secs.filter (P.secretMatch · b.curr.event))
    (hnetrc : b.repo.isPrivate = true → netrc = b.netrc) :
    ({ b with secs, netrc } : ProcBuilder).build P cfg = b.build P cfg := by
  have hitem : ∀ pid r y axis, ({ b with secs, netrc } : ProcBuilder).compileItem P cfg pid r y axis =
      b.compileItem P cfg pid r y axis := by
    intro pid r y axis
    simp only [ProcBuilder.compileItem, b.toInternalRepresentation_secs_netrc P cfg secs netrc hsecs hnetrc]
    rfl
  have haxis : ({ b with secs, netrc } : ProcBuilder).buildAxis P cfg = b.buildAxis P cfg := by
    funext y st axis
    simp only [ProcBuilder.buildAxis, hitem]
  have hyaml : ({ b with secs, netrc } : ProcBuilder).buildYaml P cfg = b.buildYaml P cfg := by
    funext st y
    simp only [ProcBuilder.buildYaml, haxis]
  simp only [ProcBuilder.build, hyaml]


/-- The push-only secret is all the compiler sees for a push: dropping the
deployment secret and the public repository's clone credentials changes
nothing. -/
theorem ProcBuilder.build_without_deploy_key :
    (sampleBuilder.secs.take 1).filter ((samplePackages []).secretMatch · sampleBuilder.curr.event) =
        sampleBuilder.secs.filter ((samplePackages []).secretMatch · sampleBuilder.curr.event) ∧
      (sampleBuilder.repo.isPrivate = true → ⟨"", "", ""⟩ = sampleBuilder.netrc) ∧
      ({ sampleBuilder with secs := sampleBuilder.secs.take 1, netrc := ⟨"", "", ""⟩ } :
          ProcBuilder).build (samplePackages []) samplePipelineConfig =
        sampleBuilder.build (samplePackages []) samplePipelineConfig :=
  have hsecs : (sampleBuilder.secs.take 1).filter ((samplePackages []).secretMatch · sampleBuilder.curr.event) =
      sampleBuilder.secs.filter ((samplePackages []).secretMatch · sampleBuilder.curr.event) := by
    decide
  have hnetrc : sampleBuilder.repo.isPrivate = true → ⟨"", "", ""⟩ = sampleBuilder.netrc := by
    decide
  ⟨hsecs, hnetrc, ProcBuilder.build_secs_netrc_noninterference _ _ _ _ _ hsecs hnetrc⟩

/-- Every item of a successful plan was compiled with process id `0`: `Build`
passes `proc.ID`, which it never sets, where the prefix wants the item's PID. -/
theorem ProcBuilder.build_compiled_with_procID_zero {items : List BuildItem}
    (h : b.build P cfg = .ok items) :
    ∀ item ∈ items, ∃ parsed environ metadata r,
      item.config = b.toInternalRepresentation P cfg parsed environ metadata 0 r := by
  obtain ⟨pairs, E, -, hE, rfl⟩ := b.build_eq_ok P cfg h
  intro item hmem
  obtain ⟨j, hj, rfl⟩ := List.mem_iff_getElem.1 ((filterItemsWithMissingDependencies_sublist E).subset hmem)
  obtain ⟨r, y, axis, -, hplanned⟩ := plannedItems_planned P cfg b hE j hj
  obtain ⟨_, parsed, -, -, -, hconfig⟩ := hplanned.compiled
  exact ⟨parsed, _, _, r, hconfig⟩

/-- Both matrix legs of the sample document are compiled with process id `0`. -/
theorem ProcBuilder.build_compiled_with_procID_zero_matrix :
    ∃ items, sampleBuilder.build (samplePackages sampleAxes) samplePipelineConfig = .ok items ∧
      ∀ item ∈ items, ∃ parsed environ metadata r, item.config =
        sampleBuilder.toInternalRepresentation (samplePackages sampleAxes) samplePipelineConfig
          parsed environ metadata 0 r := by
  obtain ⟨items, h⟩ := sampleBuilder_build_ok
  exact ⟨items, h, ProcBuilder.build_compiled_with_procID_zero _ _ _ h⟩

/-- Two matrix legs of one document, PIDs `1` and `2`, both compiled with
prefix `0_7` when `rand.Int()` returns 7 twice: their containers share a
name. -/
theorem ProcBuilder.build_reuses_prefix :
    ∃ items, sampleBuilder.build (samplePackages sampleAxes) samplePipelineConfig = .ok items ∧
      items.map (·.proc.pid) = [1, 2] ∧
      items.map (·.config) = [⟨[⟨[⟨"0_7_step_0", "build"⟩]⟩]⟩, ⟨[⟨[⟨"0_7_step_0", "build"⟩]⟩]⟩] := by
  have hsort : (samplePackages sampleAxes).sortByName sampleBuilder.yamls = sampleBuilder.yamls :=
    List.mergeSort_singleton _
  simp only [ProcBuilder.build, hsort]
  refine ⟨_, rfl, ?_⟩
  rw [filterItemsWithMissingDependencies_of_nil (by rfl)]
  exact ⟨rfl, rfl⟩

end Woodpecker
