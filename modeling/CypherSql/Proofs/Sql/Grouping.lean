import CypherSql.Proofs.Sql.Tables
import Mathlib.Data.List.Perm.Basic

/-! # Grouping in two steps

Rows that come in parts can be grouped part by part, each group becoming one row, and these
rows can be grouped once more.  That gives the groups of all rows together: every group is put
together from the pieces of it that the parts hold.

* `pieces` — what the parts hold of one group.
* `groupsBy_flatMap_perm` — the groups of groups, when there are keys.
* `groupedParts` — the groups of all rows, each as the pieces that the parts hold.
* `groupRows_flatMap` — the groups of groups, with or without keys.
-/

namespace CypherSql.Sql

variable {α β κ κ' : Type} [DecidableEq κ]

/-- What each part holds of the group with a key, without the parts that hold nothing of it. -/
def pieces (key : α → κ) (parts : List (List α)) (found : κ) : List (List α) :=
  (parts.map fun part => part.filter fun row => key row = found).filter fun piece => !piece.isEmpty

theorem flatten_pieces (key : α → κ) (parts : List (List α)) (found : κ) :
    (pieces key parts found).flatten = parts.flatten.filter fun row => key row = found := by
  rw [pieces, List.flatten_filter_not_isEmpty, List.filter_flatten]

theorem pieces_cons (key : α → κ) (part : List α) (parts : List (List α)) (found : κ) :
    pieces key (part :: parts) found = pieces key [part] found ++ pieces key parts found := by
  simp only [pieces, List.map_cons, List.map_nil, ← List.filter_append, List.singleton_append]

section

variable {key : α → κ} {outer : β → κ'} {embed : κ → κ'} {make : List α → β}

/-- The row made from a group has the key of the group. -/
def KeepsKey (key : α → κ) (outer : β → κ') (embed : κ → κ') (make : List α → β) : Prop :=
  ∀ rows found, rows ≠ [] → (∀ row ∈ rows, key row = found) → outer (make rows) = embed found

theorem KeepsKey.group (keeps : KeepsKey key outer embed make) {part : List α} {found : κ}
    (occurs : found ∈ part.map key) :
    outer (make (part.filter fun row => key row = found)) = embed found := by
  obtain ⟨row, isOne, isKey⟩ := List.mem_map.mp occurs
  apply keeps
  · apply List.ne_nil_of_mem
    exact List.mem_filter.mpr ⟨isOne, by simpa using isKey⟩
  · intro other isOther
    simpa using (List.mem_filter.mp isOther).2

theorem mem_keys_iff (keeps : KeepsKey key outer embed make) (parts : List (List α)) (found : κ') :
    found ∈ (parts.flatMap fun part => (groupsBy key part).map make).map outer ↔
      found ∈ (parts.flatten.map key).map embed := by
  simp only [List.map_flatMap, List.mem_flatMap, groupsBy, List.map_map, List.mem_map,
    List.mem_dedup, Function.comp_apply, List.mem_flatten]
  constructor
  · rintro ⟨part, isPart, inner, occurs, rfl⟩
    rw [keeps.group (List.mem_map.mpr occurs)]
    obtain ⟨row, isOne, isKey⟩ := occurs
    exact ⟨row, ⟨part, isPart, isOne⟩, congrArg embed isKey⟩
  · rintro ⟨row, ⟨part, isPart, isOne⟩, rfl⟩
    have occurs : key row ∈ part.map key := List.mem_map_of_mem isOne
    exact ⟨part, isPart, key row, List.mem_map.mp occurs, keeps.group occurs⟩

variable [DecidableEq κ']

/-- Among the rows made from the groups of one part, those with a key are the one made from
what the part holds of its group. -/
theorem filter_map_groupsBy (keeps : KeepsKey key outer embed make)
    (injective : Function.Injective embed) (part : List α) (found : κ) :
    ((groupsBy key part).map make).filter (fun inner => outer inner = embed found) =
      (pieces key [part] found).map make := by
  have sameKey : ∀ other ∈ (part.map key).dedup,
      decide (outer (make (part.filter fun row => key row = other)) = embed found) =
        decide (other = found) := by
    intro other occurs
    rw [keeps.group (List.mem_dedup.mp occurs), decide_eq_decide]
    exact injective.eq_iff
  rw [groupsBy, List.map_map, List.filter_map]
  simp only [Function.comp_def]
  -- At most one key of the part passes, as a part has no key twice.
  rw [List.filter_congr sameKey, List.filter_eq, List.count_dedup, pieces]
  by_cases occurs : found ∈ part.map key
  · obtain ⟨row, isOne, isKey⟩ := List.mem_map.mp occurs
    have present : part.filter (fun row => key row = found) ≠ [] :=
      List.ne_nil_of_mem (List.mem_filter.mpr ⟨isOne, by simpa using isKey⟩)
    simp [occurs, present]
  · have absent : part.filter (fun row => key row = found) = [] := by
      rw [List.filter_eq_nil_iff]
      intro row isOne isKey
      exact occurs (List.mem_map.mpr ⟨row, isOne, by simpa using isKey⟩)
    simp [occurs, absent]

theorem filter_flatMap_groupsBy (keeps : KeepsKey key outer embed make)
    (injective : Function.Injective embed) (parts : List (List α)) (found : κ) :
    (parts.flatMap fun part => (groupsBy key part).map make).filter
        (fun inner => outer inner = embed found) = (pieces key parts found).map make := by
  induction parts with
  | nil => rfl
  | cons part parts ih =>
    rw [List.flatMap_cons, List.filter_append, filter_map_groupsBy keeps injective, ih,
      pieces_cons key part parts, List.map_append]

/-- The groups of the rows made from the groups of the parts are made from the pieces of the
groups of all rows. -/
theorem groupsBy_flatMap_perm (keeps : KeepsKey key outer embed make)
    (injective : Function.Injective embed) (parts : List (List α)) :
    (groupsBy outer (parts.flatMap fun part => (groupsBy key part).map make)).Perm
      ((parts.flatten.map key).dedup.map fun found => (pieces key parts found).map make) := by
  have sameKeys :
      ((parts.flatMap fun part => (groupsBy key part).map make).map outer).dedup.Perm
        ((parts.flatten.map key).dedup.map embed) := by
    rw [List.perm_ext_iff_of_nodup (List.nodup_dedup _) ((List.nodup_dedup _).map injective)]
    intro found
    rw [List.mem_dedup, mem_keys_iff keeps, List.mem_map, List.mem_map]
    simp only [List.mem_dedup]
  have sameGroups : (parts.flatten.map key).dedup.map (fun found =>
      (pieces key parts found).map make) = ((parts.flatten.map key).dedup.map embed).map fun found =>
        (parts.flatMap fun part => (groupsBy key part).map make).filter
          fun inner => outer inner = found := by
    rw [List.map_map]
    apply List.map_congr_left
    intro found _
    rw [Function.comp_apply, filter_flatMap_groupsBy keeps injective]
  -- The groups are taken key by key, and the keys are the same up to order.
  rw [sameGroups]
  exact sameKeys.map _

end

/-! ## With or without keys -/

/-- What the parts hold of one group.  Where there are keys, no piece of it is empty. -/
structure Pieced (keys : List (α → κ)) (group : List (List α)) : Prop where
  present : group ≠ []
  inhabited : keys ≠ [] → ∀ piece ∈ group, piece ≠ []

theorem pieced_pieces {keys : List (α → κ)} {parts : List (List α)} {found : List κ}
    (occurs : found ∈ parts.flatten.map fun row => keys.map fun key => key row) :
    Pieced keys (pieces (fun row => keys.map fun key => key row) parts found) where
  present := by
    obtain ⟨row, isOne, isKey⟩ := List.mem_map.mp occurs
    have inGroup : row ∈ (pieces (fun row => keys.map fun key => key row) parts found).flatten := by
      rw [flatten_pieces]
      exact List.mem_filter.mpr ⟨isOne, by simpa using isKey⟩
    intro nothing
    rw [nothing] at inGroup
    contradiction
  inhabited _ piece isPiece := by simpa using (List.mem_filter.mp isPiece).2

/-- The groups of the rows of all parts, each as the pieces that the parts hold of it.  Without
keys there is one group, of which every part holds a piece, even an empty one. -/
def groupedParts (keys : List (α → κ)) (parts : List (List α)) : List (List (List α)) :=
  if keys.isEmpty then [parts]
  else (parts.flatten.map fun row => keys.map fun key => key row).dedup.map
    (pieces (fun row => keys.map fun key => key row) parts)

theorem groupRows_flatten (keys : List (α → κ)) (parts : List (List α)) :
    groupRows true keys parts.flatten = (groupedParts keys parts).map List.flatten := by
  by_cases keyless : keys = []
  · simp [groupRows, groupedParts, keyless]
  · simp only [groupRows, groupedParts, List.isEmpty_iff, keyless, if_false, groupsBy]
    rw [List.map_map]
    apply List.map_congr_left
    intro found _
    rw [Function.comp_apply, flatten_pieces]

theorem pieced_of_mem_groupedParts {keys : List (α → κ)} {parts : List (List α)}
    (present : parts ≠ []) {group : List (List α)} (isOne : group ∈ groupedParts keys parts) :
    Pieced keys group := by
  by_cases keyless : keys = []
  · obtain rfl : group = parts := by simpa [groupedParts, keyless] using isOne
    exact ⟨present, fun keyed => absurd keyless keyed⟩
  · simp only [groupedParts, List.isEmpty_iff, keyless, if_false, List.mem_map] at isOne
    obtain ⟨found, occurs, rfl⟩ := isOne
    exact pieced_pieces (List.mem_dedup.mp occurs)

theorem groupRows_flatMap_perm [DecidableEq κ'] {keys : List (α → κ)} {outerKeys : List (β → κ')}
    {embed : κ → κ'} {make : List α → β} (injective : Function.Injective embed)
    (sameLength : outerKeys = [] ↔ keys = [])
    (keeps : KeepsKey (fun row => keys.map fun key => key row)
      (fun inner => outerKeys.map fun key => key inner) (List.map embed) make)
    (parts : List (List α)) :
    (groupRows true outerKeys
      (parts.flatMap fun part => (groupRows true keys part).map make)).Perm
        ((groupedParts keys parts).map (List.map make)) := by
  by_cases keyless : keys = []
  · have outerKeyless := sameLength.mpr keyless
    simp [groupRows, groupedParts, keyless, outerKeyless, ← List.map_eq_flatMap]
  · have outerKeyed : outerKeys ≠ [] := fun none => keyless (sameLength.mp none)
    simp only [groupRows, groupedParts, List.isEmpty_iff, keyless, outerKeyed, if_false]
    rw [List.map_map]
    exact groupsBy_flatMap_perm keeps injective.list_map parts

theorem groupRows_flatMap [DecidableEq κ'] {keys : List (α → κ)} {outerKeys : List (β → κ')}
    {embed : κ → κ'} {make : List α → β} (injective : Function.Injective embed)
    (sameLength : outerKeys = [] ↔ keys = [])
    (keeps : KeepsKey (fun row => keys.map fun key => key row)
      (fun inner => outerKeys.map fun key => key inner) (List.map embed) make)
    {parts : List (List α)} (present : parts ≠ []) :
    ∃ groups : List (List (List α)),
      (groupRows true outerKeys
        (parts.flatMap fun part => (groupRows true keys part).map make)).Perm
          (groups.map (List.map make)) ∧
      groupRows true keys parts.flatten = groups.map List.flatten ∧
      ∀ group ∈ groups, Pieced keys group :=
  ⟨groupedParts keys parts, groupRows_flatMap_perm injective sameLength keeps parts,
    groupRows_flatten keys parts, fun _ => pieced_of_mem_groupedParts present⟩

end CypherSql.Sql
