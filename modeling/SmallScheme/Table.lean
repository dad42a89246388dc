/-
This file gives tables of named things.
-/

namespace SmallScheme

/-- The first entry of a name counts. -/
structure Table (A : Type) where
  entries : List (String × A)

namespace Table

variable {A : Type}

def empty : Table A :=
  ⟨[]⟩

def find? (table : Table A) (name : String) : Option A :=
  table.entries.lookup name

/-- A new binding replaces the earlier one of its name. -/
def insert (table : Table A) (name : String) (value : A) : Table A :=
  ⟨(name, value) :: table.entries.filter (·.1 != name)⟩

theorem find?_empty (name : String) : (empty : Table A).find? name = none := rfl

theorem lookup_filter_of_ne {name other : String} (different : other ≠ name)
    (entries : List (String × A)) :
    (entries.filter (·.1 != name)).lookup other = entries.lookup other := by
  induction entries with
  | nil => rfl
  | cons entry rest inductionHypothesis =>
      obtain ⟨bound, value⟩ := entry
      by_cases same : bound = name
      · subst same
        have unequal : (other == bound) = false := beq_false_of_ne different
        simp [List.lookup_cons, unequal, inductionHypothesis]
      · simp [same, List.lookup_cons, inductionHypothesis]

theorem find?_insert (table : Table A) (name other : String) (value : A) :
    (table.insert name value).find? other =
      if other = name then some value else table.find? other := by
  by_cases same : other = name
  · simp [find?, insert, same]
  · have unequal : (other == name) = false := beq_false_of_ne same
    simp [find?, insert, List.lookup_cons, same, unequal, lookup_filter_of_ne same]

/-- Of several pairs with one name the last wins. -/
def ofPairs (pairs : List (String × A)) : Table A :=
  pairs.foldl (fun table pair => table.insert pair.1 pair.2) empty

theorem find?_foldl_insert (pairs : List (String × A)) (table : Table A) (name : String) :
    (pairs.foldl (fun table pair => table.insert pair.1 pair.2) table).find? name =
      (pairs.reverse.lookup name).or (table.find? name) := by
  induction pairs generalizing table with
  | nil => rfl
  | cons pair rest inductionHypothesis =>
      obtain ⟨bound, value⟩ := pair
      rw [List.foldl_cons, inductionHypothesis, find?_insert, List.reverse_cons,
        List.lookup_append, List.lookup_cons]
      cases rest.reverse.lookup name with
      | some found => rfl
      | none =>
          by_cases same : name = bound
          · simp [same]
          · simp [same, beq_false_of_ne same]

theorem find?_ofPairs (pairs : List (String × A)) (name : String) :
    (ofPairs pairs).find? name = pairs.reverse.lookup name := by
  rw [ofPairs, find?_foldl_insert, find?_empty, Option.or_none]

theorem lookup_map_values {B : Type} (make : String → A → B) (entries : List (String × A))
    (name : String) :
    (entries.map fun entry => (entry.1, make entry.1 entry.2)).lookup name =
      (entries.lookup name).map (make name) := by
  induction entries with
  | nil => rfl
  | cons entry rest inductionHypothesis =>
      obtain ⟨bound, value⟩ := entry
      rw [List.map_cons, List.lookup_cons, List.lookup_cons, inductionHypothesis]
      by_cases same : name = bound
      · simp [same]
      · simp [beq_false_of_ne same]

theorem lookup_map_names (make : String → A) (names : List String) (name : String) :
    (names.map fun other => (other, make other)).lookup name =
      if name ∈ names then some (make name) else none := by
  induction names with
  | nil => rfl
  | cons other rest inductionHypothesis =>
      rw [List.map_cons, List.lookup_cons, inductionHypothesis]
      by_cases same : name = other
      · simp [same]
      · simp [same, beq_false_of_ne same]

/-- Pairs with different names may come in any order. -/
theorem find?_ofPairs_of_nodup {pairs : List (String × A)} (unique : (pairs.map Prod.fst).Nodup)
    (name : String) : (ofPairs pairs).find? name = pairs.lookup name := by
  rw [find?_ofPairs]
  induction pairs with
  | nil => rfl
  | cons pair rest inductionHypothesis =>
      obtain ⟨bound, value⟩ := pair
      rw [List.map_cons, List.nodup_cons] at unique
      rw [List.reverse_cons, List.lookup_append, inductionHypothesis unique.2, List.lookup_cons,
        List.lookup_cons, List.lookup_nil]
      by_cases same : name = bound
      · subst same
        have absent : rest.lookup name = none := by
          rw [List.lookup_eq_none_iff]
          intro other member
          have different : name ≠ other.1 := by
            rintro rfl
            exact unique.1 (List.mem_map.mpr ⟨other, member, rfl⟩)
          simpa using different
        simp [absent]
      · simp [beq_false_of_ne same]

/-- A new binding leaves no earlier one of its name behind. -/
theorem nodup_insert {table : Table A} (unique : (table.entries.map Prod.fst).Nodup) (name : String)
    (value : A) : ((table.insert name value).entries.map Prod.fst).Nodup := by
  rw [insert, List.map_cons, List.nodup_cons]
  refine ⟨by simp, unique.sublist ?_⟩
  exact List.filter_sublist.map Prod.fst

theorem nodup_foldl_insert (pairs : List (String × A)) {table : Table A}
    (unique : (table.entries.map Prod.fst).Nodup) :
    ((pairs.foldl (fun table pair => table.insert pair.1 pair.2) table).entries.map
      Prod.fst).Nodup := by
  induction pairs generalizing table with
  | nil => exact unique
  | cons pair rest inductionHypothesis =>
      exact inductionHypothesis (nodup_insert unique pair.1 pair.2)

theorem nodup_ofPairs (pairs : List (String × A)) :
    ((ofPairs pairs).entries.map Prod.fst).Nodup :=
  nodup_foldl_insert pairs List.nodup_nil

/-- A table made of names and their values binds exactly the names. -/
theorem find?_ofPairs_zip_eq_none {names : List String} {values : List A} {name : String}
    (counted : names.length = values.length) :
    (ofPairs (names.zip values)).find? name = none ↔ name ∉ names := by
  have members : (names.zip values).map Prod.fst = names :=
    List.map_fst_zip (Nat.le_of_eq counted)
  rw [find?_ofPairs, List.lookup_eq_none_iff]
  constructor
  · intro absent member
    rw [← members] at member
    obtain ⟨pair, inside, rfl⟩ := List.mem_map.mp member
    simpa using absent pair (List.mem_reverse.mpr inside)
  · intro absent pair inside
    have known : pair.1 ∈ names :=
      members ▸ List.mem_map_of_mem (List.mem_reverse.mp inside)
    simpa using fun same : name = pair.1 => absent (same ▸ known)

end Table

end SmallScheme
