/-!
# Finite sets of names

A set of names is kept as its strictly increasing list of elements, in code point order. The list
is determined by the elements, so two sets with the same members are equal, and printing a set
depends on nothing but its members.

## Main definitions

* `NameSet`: strictly increasing lists of names
* `NameSet.insert`, `NameSet.erase`, `NameSet.union`: the operations
* `NameSet.toList`: the members in increasing order

## Main results

* `NameSet.mem_insert`, `NameSet.mem_erase`, `NameSet.mem_union`: the members of each operation
* `NameSet.ext`: a set is determined by its members
-/

namespace ScriptLint

/-- A finite set of names, as its strictly increasing list of members. -/
structure NameSet where
  /-- The members, in increasing order. -/
  toList : List String
  /-- No member is repeated or out of order. -/
  increasing : toList.Pairwise (· < ·)
deriving DecidableEq

namespace NameSet

instance : Membership String NameSet where
  mem s name := name ∈ s.toList

instance (name : String) (s : NameSet) : Decidable (name ∈ s) :=
  inferInstanceAs (Decidable (name ∈ s.toList))

/-- Membership is membership in the list of members. -/
theorem mem_def {name : String} {s : NameSet} : name ∈ s ↔ name ∈ s.toList := Iff.rfl

/-! ## Extensionality -/

/-- No member is listed twice. -/
theorem nodup_toList (s : NameSet) : s.toList.Nodup :=
  s.increasing.imp String.ne_of_lt

/-- **Extensionality**: a set of names is determined by its members. Lists of the same members
without repeats are permutations of each other, and only one permutation is increasing. -/
@[ext]
theorem ext {s t : NameSet} (h : ∀ name, name ∈ s ↔ name ∈ t) : s = t := by
  have hperm : s.toList.Perm t.toList :=
    (List.perm_ext_iff_of_nodup s.nodup_toList t.nodup_toList).mpr h
  have hlist : s.toList = t.toList :=
    hperm.eq_of_pairwise (fun _ _ _ _ hlt hgt => absurd hgt (String.lt_asymm hlt)) s.increasing
      t.increasing
  obtain ⟨xs, hx⟩ := s
  obtain ⟨ys, hy⟩ := t
  obtain rfl : xs = ys := hlist
  rfl

/-! ## The empty set -/

instance : EmptyCollection NameSet where
  emptyCollection := ⟨[], List.Pairwise.nil⟩

instance : Inhabited NameSet where
  default := ∅

@[simp]
theorem toList_empty : (∅ : NameSet).toList = [] := rfl

@[simp]
theorem not_mem_empty (name : String) : ¬ name ∈ (∅ : NameSet) := List.not_mem_nil

/-- Whether a set has no members. -/
def isEmpty (s : NameSet) : Bool :=
  s.toList.isEmpty

@[simp]
theorem isEmpty_iff {s : NameSet} : s.isEmpty = true ↔ s = ∅ := by
  constructor
  · intro h
    ext name
    simp [mem_def, List.isEmpty_iff.1 h]
  · rintro rfl
    rfl

/-! ## Insertion -/

/-- A name put at its place in an increasing list, unless it is there already. -/
def place (name : String) : List String → List String
  | [] => [name]
  | x :: xs =>
    if name < x then name :: x :: xs
    else if name = x then x :: xs
    else x :: place name xs

@[simp]
theorem mem_place {name other : String} {xs : List String} :
    other ∈ place name xs ↔ other = name ∨ other ∈ xs := by
  induction xs with
  | nil => simp [place]
  | cons x xs ih =>
    unfold place
    split
    · simp
    · split
      · next h => simp [h]
      · simp only [List.mem_cons, ih]
        constructor
        · rintro (h | h | h) <;> simp [h]
        · rintro (h | h | h) <;> simp [h]

theorem increasing_place {name : String} {xs : List String} (h : xs.Pairwise (· < ·)) :
    (place name xs).Pairwise (· < ·) := by
  induction xs with
  | nil => simp [place]
  | cons x xs ih =>
    rw [List.pairwise_cons] at h
    unfold place
    split
    · next hlt =>
      refine List.pairwise_cons.2 ⟨fun y hy => ?_, List.pairwise_cons.2 h⟩
      rcases List.mem_cons.1 hy with rfl | hy
      · exact hlt
      · exact String.lt_trans hlt (h.1 y hy)
    · next hnot =>
      split
      · exact List.pairwise_cons.2 h
      · next hne =>
        refine List.pairwise_cons.2 ⟨fun y hy => ?_, ih h.2⟩
        rcases mem_place.1 hy with rfl | hy
        · refine Decidable.byContradiction fun hnot' => hne ?_
          exact String.le_antisymm (String.not_lt.1 hnot') (String.not_lt.1 hnot)
        · exact h.1 y hy

/-- The set with one more member. -/
def insert (s : NameSet) (name : String) : NameSet :=
  ⟨place name s.toList, increasing_place s.increasing⟩

@[simp]
theorem mem_insert {s : NameSet} {name other : String} :
    other ∈ s.insert name ↔ other = name ∨ other ∈ s :=
  mem_place

/-! ## Removal -/

/-- The set without a name. -/
def erase (s : NameSet) (name : String) : NameSet :=
  ⟨s.toList.filter (· ≠ name), s.increasing.filter _⟩

@[simp]
theorem mem_erase {s : NameSet} {name other : String} :
    other ∈ s.erase name ↔ other ∈ s ∧ other ≠ name := by
  simp [mem_def, erase]

/-! ## Union -/

/-- The names in either set. -/
def union (s t : NameSet) : NameSet :=
  t.toList.foldl insert s

instance : Union NameSet where
  union := union

theorem mem_foldl_insert {name : String} {xs : List String} {s : NameSet} :
    name ∈ xs.foldl insert s ↔ name ∈ s ∨ name ∈ xs := by
  induction xs generalizing s with
  | nil => simp
  | cons x xs ih =>
    simp only [List.foldl_cons, ih, mem_insert, List.mem_cons]
    constructor
    · rintro ((h | h) | h) <;> simp [h]
    · rintro (h | h | h) <;> simp [h]

@[simp]
theorem mem_union {s t : NameSet} {name : String} : name ∈ s ∪ t ↔ name ∈ s ∨ name ∈ t :=
  mem_foldl_insert

end NameSet

end ScriptLint
