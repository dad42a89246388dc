/-
This file shows that a compiled program declares every slot and every function under an identifier of
its own.
-/

import Mathlib.Data.List.Nodup
import SmallScheme.Code.Listing
import SmallScheme.Proofs.Code.Names
import SmallScheme.Proofs.Compiler.Kinds

namespace SmallScheme

namespace Code

/-- What the name of a function stands for. -/
def Function.identifier : Function → Identifier
  | .procedure name index _ => .definition name index
  | .conditional index _ _ => .conditional index

/-- All the names that every program has. -/
def Reserved.all : List Reserved :=
  [.run, .main, .arguments, .params, .frame]

/-- The slots and the functions of a program, and the names that every program has. -/
def declared (code : Code) : List Identifier :=
  code.globals.map (fun global => .global global.1) ++
    code.procedures.map (fun procedure => .procedure procedure.1) ++
    code.functions.map Function.identifier ++ Reserved.all.map .reserved

end Code

/-- The identifiers that stand in the text of a program outside of its locals. -/
def Listing.names (listing : Listing) : List String :=
  listing.globals.map (fun global => Code.globalName global.1) ++
    listing.procedures.map (fun procedure => Code.procedureName procedure.1) ++
    listing.functions.map FunctionText.name ++ Code.Reserved.all.map Code.Reserved.text

/-- The functions stand in the text under their identifiers. -/
theorem Code.names_functions (code : Code) :
    code.listing.functions.map FunctionText.name =
      (code.functions.map Function.identifier).map Identifier.text := by
  rw [listing, List.map_map, List.map_map]
  refine List.map_congr_left fun function _ => ?_
  cases function <;> rfl

/-- The identifiers in the text are those of what the program declares. -/
theorem Code.names_listing (code : Code) : code.listing.names = code.declared.map Identifier.text := by
  simp only [Listing.names, declared, List.map_append, names_functions]
  simp [listing, Function.comp_def, Identifier.text]

namespace Compiler

open Code

variable {program : Program} {code : Code}

/-- Every global is declared once. -/
theorem nodup_globals (compiled : compile program = .ok code) :
    (code.globals.map Prod.fst).Nodup := by
  obtain ⟨emits, _⟩ := emits_of_compile compiled
  exact emits.declaresKinds.nodup List.nodup_nil

/-- Every procedure is declared once. -/
theorem nodup_procedures (compiled : compile program = .ok code) : (declaredNames code).Nodup :=
  (appends_of_compile compiled).unique List.nodup_nil

/-- An identifier of a function holds the number of the function. -/
theorem functionIndex_of_identifier {first second : Code.Function}
    (same : first.identifier = second.identifier) : functionIndex first = functionIndex second := by
  cases first <;> cases second <;> cases same <;> rfl

/-- Functions with different numbers have different identifiers. -/
theorem nodup_functions (compiled : compile program = .ok code) :
    (code.functions.map Function.identifier).Nodup := by
  have numbers := List.pairwise_map.mp (nodup_functionIndex compiled)
  apply List.pairwise_map.mpr
  exact numbers.imp fun differ same => differ (functionIndex_of_identifier same)

/-- Images that never meet have no item in common. -/
theorem disjoint_map {A B C : Type} {first : A → C} {second : B → C}
    (apart : ∀ one other, first one ≠ second other) (items : List A) (others : List B) :
    (items.map first).Disjoint (others.map second) := by
  rw [List.disjoint_left]
  intro image inside again
  obtain ⟨one, _, rfl⟩ := List.mem_map.mp inside
  obtain ⟨other, _, same⟩ := List.mem_map.mp again
  exact apart one other same.symm

/-- What a program declares has an identifier of its own. -/
theorem nodup_declared (compiled : compile program = .ok code) : code.declared.Nodup := by
  have globals : ((code.globals.map Prod.fst).map Identifier.global).Nodup :=
    (nodup_globals compiled).map fun _ _ => Identifier.global.inj
  have procedures : ((declaredNames code).map Identifier.procedure).Nodup :=
    (nodup_procedures compiled).map fun _ _ => Identifier.procedure.inj
  have reserved : (Reserved.all.map Identifier.reserved).Nodup := by decide
  rw [List.map_map] at globals
  rw [declaredNames, List.map_map] at procedures
  -- Slots, functions and reserved names stand for different things.
  refine ((globals.append procedures ?_).append (nodup_functions compiled) ?_).append reserved ?_
  · exact disjoint_map (by simp) _ _
  · rw [List.disjoint_append_left]
    constructor <;> refine disjoint_map (fun slot function => ?_) _ _ <;>
      cases function <;> simp [Function.identifier]
  · rw [List.disjoint_append_left, List.disjoint_append_left]
    refine ⟨⟨disjoint_map (by simp) _ _, disjoint_map (by simp) _ _⟩, disjoint_map ?_ _ _⟩
    intro function name
    cases function <;> simp [Function.identifier]

/-- A later call gives another number, whatever the stems are. -/
theorem freshName_ne {early late : Code} (stem other : String)
    (later : (early.freshName stem).2.freshCount ≤ late.freshCount) :
    (early.freshName stem).1 ≠ (late.freshName other).1 := by
  intro same
  have counted : early.freshCount + 1 ≤ late.freshCount := later
  have numbers : early.freshCount = late.freshCount := (numbered_inj same).2
  omega

/-- Mangled names are different for different names and use letters, digits and underscores only. Two
identifiers are the same only if they stand for the same, and no two fresh names are the same. In the
text of a compiled program, no two slots or functions share an identifier, and none of them is a local
or a reserved name. -/
theorem identifiers_never_collide :
    (∀ first second, mangle first = mangle second → first = second) ∧
      (∀ name, ∀ c ∈ (mangle name).toList, isIdentifierChar c = true) ∧
      (∀ first second : Identifier, first.text = second.text → first = second) ∧
      (∀ (early late : Code) stem other,
        (early.freshName stem).2.freshCount ≤ late.freshCount →
          (early.freshName stem).1 ≠ (late.freshName other).1) ∧
      ∀ program code, compile program = .ok code →
        code.listing.names.Nodup ∧ ∀ name, localName name ∉ code.listing.names := by
  refine ⟨fun _ _ => @mangle_injective _ _, fun _ _ => isIdentifierChar_of_mem_mangle,
    fun _ _ => @Identifier.text_injective _ _, fun _ _ => freshName_ne, ?_⟩
  intro program code compiled
  rw [names_listing]
  refine ⟨(nodup_declared compiled).map Identifier.text_injective, fun name shared => ?_⟩
  obtain ⟨identifier, member, same⟩ := List.mem_map.mp shared
  obtain rfl : identifier = .held name := Identifier.text_injective same
  -- A local is no slot, no function and no reserved name.
  have function (made : Code.Function) : made.identifier ≠ .held name := by
    cases made <;> simp [Function.identifier]
  simp [declared, function] at member

/-- A global, a procedure and its parameter have one name, which another procedure's name continues
with the number of the first definition. -/
def namesProgram : Program :=
  ⟨[.definition (.value "a" (.constant (.integer 1))),
    .definition (.procedure ⟨"a", ["a"], [], [],
      .application "a" [.application "if" [.identifier "a", .identifier "a", .identifier "a"]]⟩),
    .definition (.procedure ⟨"a_0", [], [], [], .identifier "a"⟩)]⟩

/-- All the identifiers of this program differ, although its names nearly collide. -/
theorem namesProgram_names_apart :
    ∃ code, compile namesProgram = .ok code ∧
      code.listing.names =
        ["global_a", "proc_a", "proc_a_5f_0", "if_1", "proc_a_0", "proc_a_5f_0_2",
          "run", "main", "arguments", "params", "frame"] ∧
      code.listing.names.Nodup ∧ localName "a" ∉ code.listing.names := by
  obtain ⟨code, compiled⟩ : ∃ code, compile namesProgram = .ok code := ⟨_, rfl⟩
  have written : (compile namesProgram).toOption.map (·.listing.names) =
      some ["global_a", "proc_a", "proc_a_5f_0", "if_1", "proc_a_0", "proc_a_5f_0_2",
        "run", "main", "arguments", "params", "frame"] := by decide +kernel
  rw [compiled] at written
  obtain ⟨apart, locals⟩ := identifiers_never_collide.2.2.2.2 namesProgram code compiled
  exact ⟨code, compiled, Option.some.inj written, apart, locals "a"⟩

end Compiler

end SmallScheme
