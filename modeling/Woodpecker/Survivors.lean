/-
# What `filterItemsWithMissingDependencies` keeps

Dependencies are names, and a pass removes items by name: every item that
carries the name of a marked item goes, whatever its own dependencies.  So the
unit the recursion reasons about is a set of names.  A set `S` of names is
closed in `items` (`DepClosed`) when every item whose name is in `S` depends on
names in `S` only.

A pass changes the list but not its closed sets of carried names
(`closedNameSets_filtered`): a name of a closed set is never marked, and an
item that survives a pass keeps every item of its name beside it.  At the fixed
point the carried names are themselves closed.  So the survivors are the items
whose name lies in the greatest closed set of carried names
(`filterItemsWithMissingDependencies_eq_greatest`), which depends on the items
and not on their order.  An item whose own dependencies resolve can still be
dropped because another item of its name was marked
(`filterItemsWithMissingDependencies_drops_sibling`).
-/

import Woodpecker.Dependencies
import Mathlib.Order.Bounds.Basic
import Mathlib.Data.Finset.Basic

namespace Woodpecker

/-- The names the items carry. -/
def names (items : List BuildItem) : Finset String := (items.map (·.proc.name)).toFinset

/-- Every item of `items` whose name is in `S` depends on names of `S` only. -/
def DepClosed (items : List BuildItem) (S : Finset String) : Prop :=
  ∀ item ∈ items, item.proc.name ∈ S → ∀ dep ∈ item.dependsOn, dep ∈ S

/-- The closed sets of names that items of `items` carry. -/
def closedNameSets (items : List BuildItem) : Set (Finset String) :=
  {S | S ⊆ names items ∧ DepClosed items S}

theorem mem_names {n : String} {items : List BuildItem} :
    n ∈ names items ↔ ∃ item ∈ items, item.proc.name = n := by
  simp [names]

theorem containsItemWithName_eq_decide (n : String) (items : List BuildItem) :
    containsItemWithName n items = decide (n ∈ names items) := by
  rw [Bool.eq_iff_iff, containsItemWithName_iff, decide_eq_true_iff, mem_names]

/-- An item is kept by a pass exactly when no marked item carries its name. -/
theorem mem_filtered {item : BuildItem} {items : List BuildItem} :
    item ∈ filtered items ↔ item ∈ items ∧ item.proc.name ∉ names (itemsToRemove items) := by
  simp [filtered, containsItemWithName_eq_decide]

/-- A name of a closed set of carried names is never marked. -/
theorem not_mem_names_itemsToRemove {items : List BuildItem} {S : Finset String}
    (hS : S ∈ closedNameSets items) {n : String} (hn : n ∈ S) :
    n ∉ names (itemsToRemove items) := by
  rw [mem_names]
  rintro ⟨x, hx, rfl⟩
  obtain ⟨hxi, dep, hdep, hmiss⟩ := mem_itemsToRemove.1 hx
  rw [containsItemWithName_eq_decide, decide_eq_false_iff_not] at hmiss
  exact hmiss (hS.1 (hS.2 x hxi hn dep hdep))

/-- **A pass keeps the closed sets of carried names.** -/
theorem closedNameSets_filtered (items : List BuildItem) :
    closedNameSets (filtered items) = closedNameSets items := by
  ext S
  constructor
  · rintro ⟨hsub, hcl⟩
    refine ⟨hsub.trans fun n hn => ?_, fun item hi hn => ?_⟩
    · obtain ⟨x, hx, rfl⟩ := mem_names.1 hn
      exact mem_names.2 ⟨x, (mem_filtered.1 hx).1, rfl⟩
    · obtain ⟨y, hy, hyn⟩ := mem_names.1 (hsub hn)
      exact hcl item (mem_filtered.2 ⟨hi, hyn ▸ (mem_filtered.1 hy).2⟩) hn
  · intro hS
    refine ⟨fun n hn => ?_, fun item hi hn => hS.2 item (mem_filtered.1 hi).1 hn⟩
    obtain ⟨x, hx, rfl⟩ := mem_names.1 (hS.1 hn)
    exact mem_names.2 ⟨x, mem_filtered.2 ⟨hx, not_mem_names_itemsToRemove hS hn⟩, rfl⟩

/-- With nothing marked, the carried names are closed, so they are the greatest. -/
theorem names_isGreatest_of_nil {items : List BuildItem} (h : itemsToRemove items = []) :
    IsGreatest (closedNameSets items) (names items) := by
  refine ⟨⟨subset_rfl, fun item hi _ dep hdep => ?_⟩, fun S hS => hS.1⟩
  by_contra hmiss
  have : item ∈ itemsToRemove items :=
    mem_itemsToRemove.2 ⟨hi, dep, hdep, by rw [containsItemWithName_eq_decide]; simpa using hmiss⟩
  simp [h] at this

/-- **The survivors are the items named in the greatest closed set**, and that
set is the set of the survivors' names. -/
theorem filterItems_isGreatest (items : List BuildItem) :
    IsGreatest (closedNameSets items) (names (filterItemsWithMissingDependencies items)) ∧
      filterItemsWithMissingDependencies items =
        items.filter fun item => item.proc.name ∈ names (filterItemsWithMissingDependencies items) := by
  induction items using filterItemsWithMissingDependencies.induct with
  | case1 items hpos ih =>
    rw [filterItemsWithMissingDependencies_of_ne_nil (List.ne_nil_of_length_pos hpos)]
    rw [closedNameSets_filtered] at ih
    generalize names (filterItemsWithMissingDependencies (filtered items)) = N at ih ⊢
    refine ⟨ih.1, ih.2.trans ?_⟩
    rw [filtered, List.filter_filter]
    refine List.filter_congr fun item _ => ?_
    by_cases hn : item.proc.name ∈ N
    · simp [hn, containsItemWithName_eq_decide, not_mem_names_itemsToRemove ih.1.1 hn]
    · simp [hn]
  | case2 items hpos =>
    have h : itemsToRemove items = [] := List.eq_nil_of_length_eq_zero (by omega)
    rw [filterItemsWithMissingDependencies_of_nil h]
    exact ⟨names_isGreatest_of_nil h, (List.filter_eq_self.2 fun item hi => by
      simpa using mem_names.2 ⟨item, hi, rfl⟩).symm⟩

/-- Every dependency of a survivor is a survivor's name. -/
theorem dep_mem_names_filterItems {L : List BuildItem} {item : BuildItem}
    (hi : item ∈ filterItemsWithMissingDependencies L) {dep : String} (hdep : dep ∈ item.dependsOn) :
    dep ∈ names (filterItemsWithMissingDependencies L) := by
  obtain ⟨hN, heq⟩ := filterItems_isGreatest L
  have hiL : item ∈ L := (heq ▸ List.filter_sublist L).subset hi
  exact hN.1.2 item hiL (mem_names.2 ⟨item, hi, rfl⟩) dep hdep

/-- **The pruning is idempotent**: the survivors depend on survivors only, so
a second pass marks nothing. -/
theorem filterItemsWithMissingDependencies_idempotent (L : List BuildItem) :
    filterItemsWithMissingDependencies (filterItemsWithMissingDependencies L) =
      filterItemsWithMissingDependencies L := by
  refine filterItemsWithMissingDependencies_of_nil (List.eq_nil_iff_forall_not_mem.2 fun item hi => ?_)
  obtain ⟨hiF, dep, hdep, hmiss⟩ := mem_itemsToRemove.1 hi
  rw [containsItemWithName_eq_decide, decide_eq_false_iff_not] at hmiss
  exact hmiss (dep_mem_names_filterItems hiF hdep)

/-- Permuting the items permutes nothing in their closed name sets. -/
theorem closedNameSets_perm {items items' : List BuildItem} (h : items'.Perm items) :
    closedNameSets items' = closedNameSets items := by
  have hn : names items' = names items := by
    ext n; simp only [mem_names, h.mem_iff]
  ext S
  simp only [closedNameSets, DepClosed, Set.mem_setOf_eq, hn, h.mem_iff]

/-- **`filterItemsWithMissingDependencies` keeps the greatest closed set of
names.**  It returns, in the order of `L`, exactly the items whose name lies
in `N`, the greatest set of carried names such that every item named in `N`
depends on names in `N` only; so every dependency of a survivor is the name of
a survivor, and the survivors of a permutation of `L` are a permutation of the
survivors of `L`. -/
theorem filterItemsWithMissingDependencies_eq_greatest (L : List BuildItem) :
    ∃ N, IsGreatest (closedNameSets L) N ∧
      filterItemsWithMissingDependencies L = L.filter (fun item => item.proc.name ∈ N) ∧
      (∀ item ∈ filterItemsWithMissingDependencies L, ∀ dep ∈ item.dependsOn,
        ∃ other ∈ filterItemsWithMissingDependencies L, other.proc.name = dep) ∧
      ∀ L', L'.Perm L →
        (filterItemsWithMissingDependencies L').Perm (filterItemsWithMissingDependencies L) := by
  obtain ⟨hN, heq⟩ := filterItems_isGreatest L
  refine ⟨_, hN, heq, fun item hi dep hdep => ?_, fun L' hL' => ?_⟩
  · exact mem_names.1 (dep_mem_names_filterItems hi hdep)
  · obtain ⟨hN', heq'⟩ := filterItems_isGreatest L'
    rw [closedNameSets_perm hL'] at hN'
    rw [heq', heq, hN'.unique hN]
    exact hL'.filter _

/-- **A closed item can be dropped for a sibling's sake.**  Two matrix legs of
one document both carry the name `a`; the second depends on `missing`.  The
first leg alone is a closed sub-list, yet the pass that marks the second leg
removes every item named `a`. -/
theorem filterItemsWithMissingDependencies_drops_sibling :
    ¬ ∀ L S : List BuildItem, S.Sublist L →
      (∀ item ∈ S, ∀ dep ∈ item.dependsOn, ∃ other ∈ S, other.proc.name = dep) →
        ∀ item ∈ S, item ∈ filterItemsWithMissingDependencies L := by
  intro h
  have hmem := h [{ proc := { name := "a" } }, { proc := { name := "a" }, dependsOn := ["missing"] }]
    [{ proc := { name := "a" } }] (by decide) (by simp) _ (List.mem_singleton_self _)
  rw [filterItemsWithMissingDependencies_of_ne_nil (by decide),
    filterItemsWithMissingDependencies_of_nil (by decide)] at hmem
  exact absurd hmem (by decide)

/-- **An item survives when every item of its name is in a closed sub-list.**
If `S` is a sub-list of `L` whose dependencies all name items of `S`, and `S`
holds every item of `L` that carries the name of one of its items, every item
of `S` is kept. -/
theorem filterItemsWithMissingDependencies_keeps_closed (L S : List BuildItem)
    (hsub : S.Sublist L)
    (hclosed : ∀ item ∈ S, ∀ dep ∈ item.dependsOn, ∃ other ∈ S, other.proc.name = dep)
    (hnamed : ∀ item ∈ L, (∃ other ∈ S, other.proc.name = item.proc.name) → item ∈ S) :
    ∀ item ∈ S, item ∈ filterItemsWithMissingDependencies L := by
  obtain ⟨hN, heq⟩ := filterItems_isGreatest L
  have hS : names S ∈ closedNameSets L := by
    refine ⟨fun n hn => ?_, fun item hi hn dep hdep => ?_⟩
    · obtain ⟨x, hx, rfl⟩ := mem_names.1 hn
      exact mem_names.2 ⟨x, hsub.subset hx, rfl⟩
    · exact mem_names.2 (hclosed item (hnamed item hi (mem_names.1 hn)) dep hdep)
  intro item hi
  rw [heq, List.mem_filter]
  exact ⟨hsub.subset hi, decide_eq_true (hN.2 hS (mem_names.2 ⟨item, hi, rfl⟩))⟩

/-- `filterItemsWithMissingDependencies_keeps_closed` at a two-item chain, `b`
depending on `a`. -/
theorem filterItemsWithMissingDependencies_keeps_chain :
    let L : List BuildItem := [{ proc := { name := "a" } }, { proc := { name := "b" }, dependsOn := ["a"] }]
    L.Sublist L ∧ (∀ item ∈ L, ∀ dep ∈ item.dependsOn, ∃ other ∈ L, other.proc.name = dep) ∧
      (∀ item ∈ L, (∃ other ∈ L, other.proc.name = item.proc.name) → item ∈ L) ∧
      ∀ item ∈ L, item ∈ filterItemsWithMissingDependencies L :=
  ⟨List.Sublist.refl _, by simp, fun _ hi _ => hi,
    filterItemsWithMissingDependencies_keeps_closed _ _ (List.Sublist.refl _) (by simp) fun _ hi _ => hi⟩

end Woodpecker
