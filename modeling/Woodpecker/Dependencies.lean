/-
# Pruning items whose dependencies are missing

`filterItemsWithMissingDependencies` and `containsItemWithName` in
`server/procBuilder.go`.  One pass marks every item that names, in its
`DependsOn`, a name no item carries (`itemsToRemove`, the item once per such
entry), and keeps the items whose name no marked item carries (`filtered`);
the function recurses on what is kept until a pass marks nothing.

The recursion is on `items.length`: a pass that marks something drops at
least the marked items themselves (`filtered_length_lt`), so it runs at most
`items.length + 1` times (`filterWithinDepth_eq`).
-/

import Woodpecker.Model

namespace Woodpecker

/-- `containsItemWithName`: some item carries `name`. -/
def containsItemWithName (name : String) (items : List BuildItem) : Bool :=
  items.any fun item => name == item.proc.name

/-- `itemsToRemove` after the marking loop: each item once for every entry of
its `DependsOn` that `containsItemWithName` does not find. -/
def itemsToRemove (items : List BuildItem) : List BuildItem :=
  items.flatMap fun item =>
    (item.dependsOn.filter fun dep => !containsItemWithName dep items).map fun _ => item

/-- `filtered`: the items whose name no marked item carries. -/
def filtered (items : List BuildItem) : List BuildItem :=
  items.filter fun item => !containsItemWithName item.proc.name (itemsToRemove items)

@[simp] theorem containsItemWithName_iff {name : String} {items : List BuildItem} :
    containsItemWithName name items = true ↔ ∃ item ∈ items, item.proc.name = name := by
  simp only [containsItemWithName, List.any_eq_true, beq_iff_eq]
  exact exists_congr fun _ => and_congr_right fun _ => eq_comm

theorem mem_itemsToRemove {item : BuildItem} {items : List BuildItem} :
    item ∈ itemsToRemove items ↔
      item ∈ items ∧ ∃ dep ∈ item.dependsOn, containsItemWithName dep items = false := by
  simp only [itemsToRemove, List.mem_flatMap, List.mem_map, List.mem_filter, Bool.not_eq_true']
  constructor
  · rintro ⟨x, hx, dep, ⟨hdep, hmiss⟩, rfl⟩
    exact ⟨hx, dep, hdep, hmiss⟩
  · rintro ⟨hx, dep, hdep, hmiss⟩
    exact ⟨item, hx, dep, ⟨hdep, hmiss⟩, rfl⟩

/-- A marked item is not kept: its own name is among the marked names. -/
theorem not_mem_filtered_of_mem_itemsToRemove {item : BuildItem} {items : List BuildItem}
    (h : item ∈ itemsToRemove items) : item ∉ filtered items := by
  simp only [filtered, List.mem_filter, Bool.not_eq_true', not_and, Bool.not_eq_false]
  exact fun _ => containsItemWithName_iff.2 ⟨item, h, rfl⟩

theorem filtered_sublist (items : List BuildItem) : (filtered items).Sublist items :=
  List.filter_sublist items

/-- **A pass that marks something shortens the list.** -/
theorem filtered_length_lt {items : List BuildItem} (h : itemsToRemove items ≠ []) :
    (filtered items).length < items.length := by
  obtain ⟨item, hitem⟩ := List.exists_mem_of_ne_nil _ h
  refine List.length_filter_lt_length_iff_exists.2 ⟨item, (mem_itemsToRemove.1 hitem).1, ?_⟩
  simpa [filtered] using containsItemWithName_iff.2 ⟨item, hitem, rfl⟩

/-- `filterItemsWithMissingDependencies`. -/
def filterItemsWithMissingDependencies (items : List BuildItem) : List BuildItem :=
  if (itemsToRemove items).length > 0 then
    filterItemsWithMissingDependencies (filtered items)
  else items
termination_by items.length
decreasing_by exact filtered_length_lt (List.ne_nil_of_length_pos ‹_›)

theorem filterItemsWithMissingDependencies_of_ne_nil {items : List BuildItem}
    (h : itemsToRemove items ≠ []) :
    filterItemsWithMissingDependencies items = filterItemsWithMissingDependencies (filtered items) := by
  rw [filterItemsWithMissingDependencies, if_pos (List.length_pos.2 h)]

theorem filterItemsWithMissingDependencies_of_nil {items : List BuildItem}
    (h : itemsToRemove items = []) : filterItemsWithMissingDependencies items = items := by
  rw [filterItemsWithMissingDependencies, if_neg (by simp [h])]

/-- The survivors keep their order: the pruning only removes items. -/
theorem filterItemsWithMissingDependencies_sublist (items : List BuildItem) :
    (filterItemsWithMissingDependencies items).Sublist items := by
  induction items using filterItemsWithMissingDependencies.induct with
  | case1 items hpos ih =>
    rw [filterItemsWithMissingDependencies_of_ne_nil (List.ne_nil_of_length_pos hpos)]
    exact ih.trans (filtered_sublist items)
  | case2 items hpos =>
    rw [filterItemsWithMissingDependencies, if_neg hpos]

/-- `filterItemsWithMissingDependencies` on a call stack of `depth` frames:
`none` when the recursion would need more. -/
def filterWithinDepth : Nat → List BuildItem → Option (List BuildItem)
  | 0, _ => none
  | depth + 1, items =>
    if (itemsToRemove items).length > 0 then filterWithinDepth depth (filtered items) else some items

/-- Every stack deeper than the list is long enough. -/
theorem filterWithinDepth_eq (items : List BuildItem) :
    ∀ depth, items.length < depth →
      filterWithinDepth depth items = some (filterItemsWithMissingDependencies items) := by
  induction items using filterItemsWithMissingDependencies.induct with
  | case1 items hpos ih =>
    rintro (_ | depth) hd
    · omega
    · have hne := List.ne_nil_of_length_pos hpos
      rw [filterWithinDepth, if_pos hpos, filterItemsWithMissingDependencies_of_ne_nil hne]
      exact ih depth (by have := filtered_length_lt hne; omega)
  | case2 items hpos =>
    rintro (_ | depth) hd
    · omega
    · rw [filterWithinDepth, if_neg hpos, filterItemsWithMissingDependencies, if_neg hpos]

/-- **`filterItemsWithMissingDependencies` terminates within `len(L) + 1` calls.**
Whenever a pass marks an item, the recursive call gets a strict sub-list of its
argument, from which every marked item is gone; so the calls, the first one
included, are at most one more than the items. -/
theorem filterItemsWithMissingDependencies_terminates (items : List BuildItem) :
    (itemsToRemove items ≠ [] →
      (filtered items).Sublist items ∧ (filtered items).length < items.length ∧
        ∀ item ∈ itemsToRemove items, item ∉ filtered items) ∧
      filterWithinDepth (items.length + 1) items = some (filterItemsWithMissingDependencies items) :=
  ⟨fun h => ⟨filtered_sublist items, filtered_length_lt h,
    fun _ => not_mem_filtered_of_mem_itemsToRemove⟩, filterWithinDepth_eq items _ (by omega)⟩

end Woodpecker
