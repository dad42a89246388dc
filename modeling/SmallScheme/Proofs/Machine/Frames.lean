/-
This file describes what compiled procedures find in their locals and in the frames of their callers.
-/

import SmallScheme.Compiler.Generate
import SmallScheme.Machine.Run

namespace SmallScheme

namespace Frames

/-- A binding replaces that of its own name and keeps the others. -/
theorem lookup_bindIn (name other : String) (value : Value) (entries : List (String × Value)) :
    (bindIn name value entries).lookup other =
      if other = name then some value else entries.lookup other := by
  induction entries with
  | nil =>
      by_cases same : other = name
      · simp [bindIn, same]
      · simp [bindIn, same, List.lookup_cons, beq_false_of_ne same]
  | cons entry rest ih =>
      obtain ⟨bound, old⟩ := entry
      rw [bindIn]
      by_cases here : bound = name
      · subst here
        by_cases same : other = bound
        · simp [same]
        · simp [same, List.lookup_cons, beq_false_of_ne same]
      · rw [if_neg here, List.lookup_cons, List.lookup_cons, ih]
        by_cases same : other = bound
        · simp [same, here]
        · simp [beq_false_of_ne same]

/-- The innermost frame takes a binding. -/
theorem bind_top (top : List (String × Value)) (below : List (List (String × Value)))
    (name : String) (value : Value) :
    (⟨top :: below⟩ : Frames).bind (below.length + 1) name value =
      ⟨bindIn name value top :: below⟩ := by
  simp [bind, depth]

/-- Leaving the innermost frame leaves those below it. -/
theorem leave_top (top : List (String × Value)) (below : List (List (String × Value))) :
    (⟨top :: below⟩ : Frames).leave (below.length + 1) = ⟨below⟩ := by
  simp [leave, depth]

/-- The innermost frame hides what the frames below it bind. -/
theorem find?_cons (top : List (String × Value)) (below : List (List (String × Value)))
    (name : String) :
    (⟨top :: below⟩ : Frames).find? name =
      (top.lookup name).or ((⟨below⟩ : Frames).find? name) := by
  unfold find?
  rw [List.findSome?_cons]
  cases top.lookup name <;> rfl

end Frames

namespace Machine

/-- A procedure takes one argument for each parameter, also for a repeated one. -/
theorem length_pattern (params : List String) : (Compiler.pattern params).length = params.length := by
  induction params with
  | nil => rfl
  | cons param rest ih => rw [Compiler.pattern, List.length_cons, ih, List.length_cons]

/-- Unpacking binds a parameter to its last argument. -/
theorem lookup_unpack_pattern {params : List String} {values : List Value}
    (counted : params.length = values.length) (locals : Locals) (name : String) :
    (locals.unpack (Compiler.pattern params) values).held.lookup name =
      ((params.zip values).reverse.lookup name).or (locals.held.lookup name) := by
  induction params generalizing values locals with
  | nil => rfl
  | cons param rest ih =>
      obtain ⟨value, others, rfl⟩ : ∃ value others, values = value :: others := by
        cases values with
        | nil => simp at counted
        | cons value others => exact ⟨value, others, rfl⟩
      have remaining : rest.length = others.length := by simpa using counted
      rw [List.zip_cons_cons, List.reverse_cons, List.lookup_append, Compiler.pattern]
      by_cases again : param ∈ rest
      · rw [if_pos (List.contains_iff_mem.mpr again), Locals.unpack, ih remaining]
        by_cases same : name = param
        · -- The later parameter of the same name has an argument of its own.
          have found : (rest.zip others).reverse.lookup name ≠ none := by
            rw [← Table.find?_ofPairs, ne_eq, Table.find?_ofPairs_zip_eq_none remaining, same]
            exact Decidable.not_not.mpr again
          obtain ⟨last, found⟩ := Option.ne_none_iff_exists'.mp found
          simp [found]
        · simp [List.lookup_cons, beq_false_of_ne same]
      · rw [if_neg (by simpa using again), Locals.unpack, ih remaining]
        by_cases same : name = param
        · simp [same, Locals.bind]
        · simp [Locals.bind, List.lookup_cons, beq_false_of_ne same]

/-- Changing the values changes what every name finds. -/
theorem lookup_map_snd {A B : Type} (change : A → B) (entries : List (String × A))
    (name : String) :
    (entries.map (Prod.map id change)).lookup name = (entries.lookup name).map change :=
  Table.lookup_map_values (fun _ => change) entries name

/-- The arguments of a call are the values that its frame binds. -/
theorem lookup_arguments (params : List String) (arguments : List Datum) (name : String) :
    (params.zip (arguments.map Value.ofDatum)).reverse.lookup name =
      ((Table.ofPairs (params.zip arguments)).find? name).map Value.ofDatum := by
  rw [Table.find?_ofPairs, ← lookup_map_snd, List.map_reverse, ← List.zip_map_right]

section Publish

variable {analysis : Analysis} {call : Callee → List Value → Run Machine Value}
  {arguments : List Value} {result : Code.Tail} {locals : Locals} {rest : List Code.Step}

/-- Publishing writes the dynamic ones of some locals into the innermost frame. -/
theorem plain_publish {names : List String} {below : List (List (String × Value))}
    (numbered : locals.frame = some (below.length + 1))
    (bound : ∀ name ∈ names, (locals.held.lookup name).isSome) (top : List (String × Value)) :
    ∃ shown, (∀ machine, machine.frames = ⟨top :: below⟩ →
        plain call arguments result locals
            (names.flatMap (Compiler.publishIf analysis) ++ rest) machine =
          plain call arguments result locals rest { machine with frames := ⟨shown :: below⟩ }) ∧
      ∀ name, shown.lookup name = if name ∈ names ∧ analysis.isDynamic name = true then
        locals.held.lookup name else top.lookup name := by
  induction names generalizing top with
  | nil =>
      refine ⟨top, fun machine framed => ?_, fun name => by simp⟩
      rw [List.flatMap_nil, List.nil_append, ← framed]
  | cons first others ih =>
      rw [List.forall_mem_cons] at bound
      cases dynamic : analysis.isDynamic first with
      | false =>
          obtain ⟨shown, runs, finds⟩ := ih bound.2 top
          refine ⟨shown, ?_, ?_⟩
          · simpa [Compiler.publishIf, dynamic] using runs
          · intro name
            rw [finds name]
            by_cases same : name = first
            · simp [same, dynamic]
            · simp [same]
      | true =>
          obtain ⟨value, held⟩ := Option.isSome_iff_exists.mp bound.1
          obtain ⟨shown, runs, finds⟩ := ih bound.2 (Frames.bindIn first value top)
          refine ⟨shown, ?_, ?_⟩
          · intro machine framed
            have published : publish locals first machine =
                .ok () { machine with frames := ⟨Frames.bindIn first value top :: below⟩ } := by
              rw [publish, numbered, Locals.read?, held, ← Frames.bind_top, ← framed]
              rfl
            rw [List.flatMap_cons, Compiler.publishIf, dynamic, if_pos rfl, List.append_assoc,
              List.singleton_append, plain, Run.bind_apply, published]
            exact runs _ rfl
          · intro name
            rw [finds name, Frames.lookup_bindIn]
            by_cases same : name = first
            · subst same
              simp [dynamic, held]
            · simp [same]

end Publish

end Machine

end SmallScheme
