/-
This file changes the bindings of a session and those of a compiled program alike, and shows that both
find the same variables afterwards.
-/

import SmallScheme.Proofs.Compiler.Represents
import SmallScheme.Proofs.Machine.Frames

namespace SmallScheme

/-- A frame with its entries in some order, each name once. -/
structure CallFrame where
  table : Table Datum
  entries : List (String × Datum)
  unique : (entries.map Prod.fst).Nodup
  listed : ∀ name, table.find? name = entries.lookup name

/-- Every table is a frame. -/
def CallFrame.ofTable (table : Table Datum) : CallFrame where
  table := table
  entries := (Table.ofPairs table.entries.reverse).entries
  unique := Table.nodup_ofPairs _
  listed name := by
    have found := Table.find?_ofPairs table.entries.reverse name
    rw [List.reverse_reverse] at found
    exact found.symm

/-- A frame is entered, a variable is defined, or the innermost frame is left. -/
inductive ScopeChange where
  | push (frame : CallFrame)
  | define (name : String) (value : Datum)
  | pop

/-- The session after a change of its scope. -/
def Environment.change (environment : Environment) : ScopeChange → Environment
  | .push frame => environment.pushFrame frame.table
  | .define name value => environment.defineVariable name value
  | .pop => environment.popFrame

/-- The variables of a compiled program, with the numbers of the frames that it has not left yet, the
innermost first. -/
structure Memory where
  globals : Table Global
  frames : Frames
  live : List Nat

namespace Memory

/-- Every global is computed, and none is defined yet. -/
def declare (names : List String) : Memory :=
  ⟨.ofPairs (names.map fun name => (name, .new name .computed)), .empty, []⟩

/-- The global of the name, which is a new one if none is declared. -/
def global (memory : Memory) (name : String) : Global :=
  (memory.globals.find? name).getD (.new name .computed)

/-- The frames after all the entries are bound in the frame of this number. -/
def bindAll (frames : Frames) (frame : Nat) (entries : List (String × Datum)) : Frames :=
  entries.foldl (fun frames entry => frames.bind frame entry.1 (Value.ofDatum entry.2)) frames

/-- The memory inside a new frame with these entries. -/
def enter (memory : Memory) (entries : List (String × Datum)) : Memory :=
  let (frame, frames) := memory.frames.enter
  { memory with frames := bindAll frames frame entries, live := frame :: memory.live }

/-- The memory after a global takes a value, which its kind has to admit. -/
def defineGlobal (memory : Memory) (name : String) (value : Datum) :
    Except RunError Memory := do
  let defined ← (memory.global name).define (Value.ofDatum value)
  return { memory with globals := memory.globals.insert name defined }

/-- The innermost frame takes the binding, and outside of every frame the global does. -/
def define (memory : Memory) (name : String) (value : Datum) : Except RunError Memory :=
  match memory.live with
  | [] => memory.defineGlobal name value
  | frame :: _ =>
      .ok { memory with frames := memory.frames.bind frame name (Value.ofDatum value) }

/-- Outside of every frame there is none to leave. -/
def leave (memory : Memory) : Memory :=
  match memory.live with
  | [] => memory
  | frame :: outer => { memory with frames := memory.frames.leave frame, live := outer }

/-- The memory after a change of the scope. -/
def change (memory : Memory) : ScopeChange → Except RunError Memory
  | .push frame => .ok (memory.enter frame.entries)
  | .define name value => memory.define name value
  | .pop => .ok memory.leave

/-- What a name stands for in the memory. -/
def read (memory : Memory) (name : String) : Except RunError Value :=
  memory.frames.read name (memory.globals.find? name)

/-- A name stands for what the frames bind, and otherwise for its global. -/
theorem read_eq (memory : Memory) (name : String) :
    memory.read name =
      match memory.frames.find? name with
      | some value => .ok value
      | none => (memory.global name).get := by
  unfold read Frames.read global
  cases memory.frames.find? name with
  | some value => rfl
  | none => cases memory.globals.find? name <;> rfl

/-- Declared and undeclared globals start alike. -/
theorem global_declare (names : List String) (name : String) :
    (declare names).global name = .new name .computed := by
  rw [global, declare, Table.find?_ofPairs, ← List.map_reverse, Table.lookup_map_names]
  split <;> rfl

/-- Writing one global keeps the others. -/
theorem global_insert (memory : Memory) (name other : String) (value : Global) :
    ({ memory with globals := memory.globals.insert name value } : Memory).global other =
      if other = name then value else memory.global other := by
  rw [global, Table.find?_insert]
  split <;> rfl

end Memory

/-- The entries show the values of a frame. -/
def Shows (table : Table Datum) (entries : List (String × Value)) : Prop :=
  ∀ name, entries.lookup name = (table.find? name).map Value.ofDatum

/-- A binding on both sides keeps the values shown. -/
theorem Shows.insert {table : Table Datum} {entries : List (String × Value)}
    (shows : Shows table entries) (name : String) (value : Datum) :
    Shows (table.insert name value) (Frames.bindIn name (Value.ofDatum value) entries) := by
  intro other
  rw [Frames.lookup_bindIn, Table.find?_insert, shows other]
  split <;> rfl

/-- Both have the same frames, and each frame is known by the number of those up to it. -/
inductive Stacked : List (Table Datum) → List (List (String × Value)) → List Nat → Prop
  | nil : Stacked [] [] []
  | cons {table : Table Datum} {entries : List (String × Value)} {tables : List (Table Datum)}
      {stack : List (List (String × Value))} {live : List Nat} (shows : Shows table entries)
      (below : Stacked tables stack live) :
      Stacked (table :: tables) (entries :: stack) ((stack.length + 1) :: live)

/-- Stacked frames bind a name to the same value. -/
theorem Stacked.find? {tables : List (Table Datum)} {stack : List (List (String × Value))}
    {live : List Nat} (stacked : Stacked tables stack live) (name : String) :
    (⟨stack⟩ : Frames).find? name = (tables.findSome? (·.find? name)).map Value.ofDatum := by
  induction stacked with
  | nil => rfl
  | @cons table entries tables stack live shows below ih =>
      rw [Frames.find?_cons, List.findSome?_cons, ih, shows name]
      cases table.find? name <;> rfl

/-- Entries that are bound one after the other in the innermost frame show a table of all of them. -/
theorem bindAll_top {table : Table Datum} {top : List (String × Value)} (shows : Shows table top)
    (entries : List (String × Datum)) (stack : List (List (String × Value))) :
    ∃ shown, Memory.bindAll ⟨top :: stack⟩ (stack.length + 1) entries = ⟨shown :: stack⟩ ∧
      Shows (entries.foldl (fun table entry => table.insert entry.1 entry.2) table) shown := by
  induction entries generalizing table top with
  | nil => exact ⟨top, rfl, shows⟩
  | cons entry rest ih =>
      obtain ⟨shown, bound, showsAll⟩ := ih (shows.insert entry.1 entry.2)
      refine ⟨shown, ?_, showsAll⟩
      rw [← bound, Memory.bindAll, List.foldl_cons, Frames.bind_top]
      rfl

/-- The memory shows what the environment binds. A global without a value may be missing. -/
structure Mirrored (environment : Environment) (memory : Memory) : Prop where
  stacked : Stacked environment.frames memory.frames.stack memory.live
  globals : ∀ name, memory.global name =
    ⟨name, .computed, (environment.globals.find? name).map Value.ofDatum⟩

namespace Mirrored

variable {environment : Environment} {memory : Memory}

/-- Entering a frame on both sides keeps the memory mirrored. -/
theorem push (mirrored : Mirrored environment memory) (frame : CallFrame) :
    Mirrored (environment.pushFrame frame.table) (memory.enter frame.entries) := by
  obtain ⟨declared, ⟨stack⟩, live⟩ := memory
  have nothing : Shows .empty [] := fun _ => rfl
  obtain ⟨shown, bound, shows⟩ := bindAll_top nothing frame.entries stack
  have entered : Memory.enter ⟨declared, ⟨stack⟩, live⟩ frame.entries =
      ⟨declared, ⟨shown :: stack⟩, (stack.length + 1) :: live⟩ := by
    rw [← bound]
    rfl
  rw [entered]
  refine ⟨.cons ?_ mirrored.stacked, mirrored.globals⟩
  intro name
  rw [frame.listed, ← Table.find?_ofPairs_of_nodup frame.unique]
  exact shows name

/-- A computed global takes every value. -/
theorem defineGlobal {globals : Table Datum} {procedures : Table Callable} {declared : Table Global}
    (mirrored : Mirrored ⟨globals, procedures, []⟩ ⟨declared, ⟨[]⟩, []⟩) (name : String)
    (value : Datum) :
    ∃ after, Memory.defineGlobal ⟨declared, ⟨[]⟩, []⟩ name value = .ok after ∧
      Mirrored ⟨globals.insert name value, procedures, []⟩ after := by
  let defined : Global := ⟨name, .computed, some (Value.ofDatum value)⟩
  refine ⟨⟨declared.insert name defined, ⟨[]⟩, []⟩, ?_, .nil, fun other => ?_⟩
  · rw [Memory.defineGlobal, mirrored.globals]
    rfl
  · rw [Memory.global_insert ⟨declared, ⟨[]⟩, []⟩, Table.find?_insert, mirrored.globals]
    by_cases same : other = name
    · simp [same, defined]
    · simp [same]

/-- A definition succeeds on both sides and keeps the memory mirrored. -/
theorem define (mirrored : Mirrored environment memory) (name : String) (value : Datum) :
    ∃ after, memory.define name value = .ok after ∧
      Mirrored (environment.defineVariable name value) after := by
  obtain ⟨globals, procedures, tables⟩ := environment
  obtain ⟨declared, ⟨stack⟩, live⟩ := memory
  have stacked : Stacked tables stack live := mirrored.stacked
  cases stacked with
  | nil => exact mirrored.defineGlobal name value
  | @cons table entries tables stack live shows below =>
      refine ⟨_, rfl, ?_, mirrored.globals⟩
      rw [Frames.bind_top]
      exact .cons (shows.insert name value) below

/-- The number of the innermost frame leaves the frames below it. -/
theorem pop (mirrored : Mirrored environment memory) :
    Mirrored environment.popFrame memory.leave := by
  obtain ⟨globals, procedures, tables⟩ := environment
  obtain ⟨declared, ⟨stack⟩, live⟩ := memory
  have stacked : Stacked tables stack live := mirrored.stacked
  cases stacked with
  | nil => exact mirrored
  | @cons table entries tables stack live shows below =>
      have left : Memory.leave ⟨declared, ⟨entries :: stack⟩, (stack.length + 1) :: live⟩ =
          ⟨declared, ⟨stack⟩, live⟩ := by
        rw [← Frames.leave_top entries stack]
        rfl
      rw [left]
      exact ⟨below, mirrored.globals⟩

/-- One change leaves the memory mirroring the environment. -/
theorem change (mirrored : Mirrored environment memory) (step : ScopeChange) :
    ∃ after, memory.change step = .ok after ∧ Mirrored (environment.change step) after := by
  cases step with
  | push frame => exact ⟨_, rfl, mirrored.push frame⟩
  | define name value => exact mirrored.define name value
  | pop => exact ⟨_, rfl, mirrored.pop⟩

/-- Any number of changes leaves the memory mirroring the environment. -/
theorem changes (mirrored : Mirrored environment memory) (steps : List ScopeChange) :
    ∃ after, steps.foldlM Memory.change memory = .ok after ∧
      Mirrored (steps.foldl Environment.change environment) after := by
  induction steps generalizing environment memory with
  | nil => exact ⟨memory, rfl, mirrored⟩
  | cons step rest ih =>
      obtain ⟨middle, changed, reached⟩ := mirrored.change step
      rw [List.foldlM_cons, changed]
      exact ih reached

/-- What one finds, the other finds. -/
theorem read (mirrored : Mirrored environment memory) (name : String) :
    (environment.lookup name = .error (.undefinedVariable name) ∧
        memory.read name = .error (.undefinedVariable name)) ∨
      ∃ value, environment.lookup name = .ok value ∧
        memory.read name = .ok (Value.ofDatum value) := by
  have framed : memory.frames.find? name = (environment.local? name).map Value.ofDatum :=
    mirrored.stacked.find? name
  rw [Memory.read_eq, framed, mirrored.globals, Environment.lookup, Environment.binding?_eq_or]
  cases environment.local? name with
  | some value => exact .inr ⟨value, rfl, rfl⟩
  | none =>
      cases environment.globals.find? name with
      | some value => exact .inr ⟨value, rfl, rfl⟩
      | none => exact .inl ⟨rfl, rfl⟩

end Mirrored

/-- Without bindings there is nothing to mirror, whatever is declared. -/
theorem mirrored_empty (procedures : Table Callable) (declared : List String) :
    Mirrored ⟨.empty, procedures, []⟩ (.declare declared) :=
  ⟨.nil, Memory.global_declare declared⟩

/-- After the same changes of the scope a session and a compiled program find the same variables, and
the compiled program has not failed on the way. -/
theorem scopes_find_the_same (procedures : Table Callable) (declared : List String)
    (changes : List ScopeChange) :
    ∃ memory, changes.foldlM Memory.change (.declare declared) = .ok memory ∧
      ∀ name,
        ((changes.foldl Environment.change ⟨.empty, procedures, []⟩).lookup name =
            .error (.undefinedVariable name) ∧
          memory.read name = .error (.undefinedVariable name)) ∨
        ∃ value,
          (changes.foldl Environment.change ⟨.empty, procedures, []⟩).lookup name = .ok value ∧
          memory.read name = .ok (Value.ofDatum value) := by
  obtain ⟨memory, changed, mirrored⟩ := (mirrored_empty procedures declared).changes changes
  exact ⟨memory, changed, mirrored.read⟩

/-- The inner frame hides the name `y` of the outer one until it is left. -/
def shadowingChanges : List ScopeChange :=
  [.define "y" (.integer 1), .push (.ofTable (.ofPairs [("y", .integer 2)])),
    .push (.ofTable (.ofPairs [("z", .void)])), .define "y" (.integer 3), .pop]

/-- After the inner frame is left the outer name is found again, and an unknown one is not. -/
theorem shadowingChanges_find_the_same :
    ∃ memory, shadowingChanges.foldlM Memory.change (.declare ["y"]) = .ok memory ∧
      memory.read "y" = .ok (.integer 2) ∧
      memory.read "z" = .error (.undefinedVariable "z") := by
  have outer : (shadowingChanges.foldl Environment.change .predefined).lookup "y" =
      .ok (.integer 2) := rfl
  have gone : (shadowingChanges.foldl Environment.change .predefined).lookup "z" =
      .error (.undefinedVariable "z") := rfl
  obtain ⟨memory, changed, same⟩ :=
    scopes_find_the_same Environment.predefined.procedures ["y"] shadowingChanges
  refine ⟨memory, changed, ?_, ?_⟩
  · rcases same "y" with ⟨absent, _⟩ | ⟨value, present, read⟩
    · cases outer.symm.trans absent
    · cases outer.symm.trans present
      exact read
  · rcases same "z" with ⟨_, read⟩ | ⟨value, present, _⟩
    · exact read
    · cases gone.symm.trans present

end SmallScheme
