/-
This file shows that the kinds which the compiler declares admit the values of the globals.
-/

import SmallScheme.Proofs.Compiler.Statements
import SmallScheme.Proofs.Session.Order

namespace SmallScheme

namespace Kind

/-- A computed global may have any value. -/
theorem admits_computed (value : Value) : Kind.computed.admits value = true := rfl

/-- A kind may only be given up for the one that admits every value. -/
def Widens (kinds later : List (String × Kind)) : Prop :=
  ∀ name kind, kinds.lookup name = some kind →
    ∃ wider, later.lookup name = some wider ∧ (wider = kind ∨ wider = .computed)

theorem Widens.refl (kinds : List (String × Kind)) : Widens kinds kinds :=
  fun _ kind known => ⟨kind, known, .inl rfl⟩

/-- Kinds may be given up in two stages. -/
theorem Widens.trans {first second third : List (String × Kind)} (left : Widens first second)
    (right : Widens second third) : Widens first third := by
  intro name kind known
  obtain ⟨middle, kept, eq⟩ := left name kind known
  obtain ⟨last, reached, eqLast⟩ := right name middle kept
  refine ⟨last, reached, ?_⟩
  rcases eqLast with rfl | rfl
  · exact eq
  · exact .inr rfl

/-- Every global that has a value has one of its kind. -/
def Admits (kinds : List (String × Kind)) (globals : Table Datum) : Prop :=
  ∀ name datum, globals.find? name = some datum →
    ∃ kind, kinds.lookup name = some kind ∧ kind.admits (Value.ofDatum datum) = true

/-- Wider kinds admit the same values. -/
theorem Admits.widen {kinds later : List (String × Kind)} {globals : Table Datum}
    (admits : Admits kinds globals) (widens : Widens kinds later) : Admits later globals := by
  intro name datum found
  obtain ⟨kind, known, admitted⟩ := admits name datum found
  obtain ⟨wider, reached, rfl | rfl⟩ := widens name kind known
  · exact ⟨wider, reached, admitted⟩
  · exact ⟨.computed, reached, admits_computed _⟩

end Kind

namespace Assembly

/-- A second kind makes a global computed. -/
theorem lookup_declareKind (name : String) (kind : Kind) (kinds : List (String × Kind))
    (other : String) :
    (declareKind name kind kinds).lookup other =
      if other = name then
        some (match kinds.lookup name with
          | some known => if known = kind then known else .computed
          | none => kind)
      else kinds.lookup other := by
  induction kinds with
  | nil =>
      by_cases same : other = name
      · simp [declareKind, same]
      · simp [declareKind, same, List.lookup_cons, beq_false_of_ne same]
  | cons entry rest ih =>
      obtain ⟨declared, known⟩ := entry
      rw [declareKind]
      by_cases here : declared = name
      · subst here
        by_cases same : other = declared
        · simp [same]
        · simp [same, List.lookup_cons, beq_false_of_ne same]
      · rw [if_neg here, List.lookup_cons, List.lookup_cons, ih]
        by_cases same : other = declared
        · simp [same, here]
        · simp [beq_false_of_ne same, List.lookup_cons, beq_false_of_ne (Ne.symm here)]

/-- A declaration widens the kind of its global and keeps the others. -/
theorem widens_declareKind (name : String) (kind : Kind) (kinds : List (String × Kind)) :
    Kind.Widens kinds (declareKind name kind kinds) := by
  intro other known found
  rw [lookup_declareKind]
  by_cases same : other = name
  · subst same
    rw [if_pos rfl, found]
    by_cases kept : known = kind
    · exact ⟨known, by simp [kept], .inl rfl⟩
    · exact ⟨.computed, by simp [kept], .inr rfl⟩
  · rw [if_neg same]
    exact ⟨known, found, .inl rfl⟩

/-- The declared kind admits a value of the new kind. -/
theorem admits_declareKind {name : String} {kind : Kind} {value : Value}
    (admitted : kind.admits value = true) (kinds : List (String × Kind)) :
    ∃ declared, (declareKind name kind kinds).lookup name = some declared ∧
      declared.admits value = true := by
  rw [lookup_declareKind, if_pos rfl]
  refine ⟨_, rfl, ?_⟩
  cases kinds.lookup name with
  | none => exact admitted
  | some known =>
      by_cases kept : known = kind
      · subst kept
        simpa using admitted
      · simp [kept, Kind.admits_computed]

/-- A global that takes a value of its new kind has a value of its declared kind. -/
theorem admits_insert {name : String} {kind : Kind} {datum : Datum} {kinds : List (String × Kind)}
    {globals : Table Datum} (admits : Kind.Admits kinds globals)
    (admitted : kind.admits (Value.ofDatum datum) = true) :
    Kind.Admits (declareKind name kind kinds) (globals.insert name datum) := by
  intro other value bound
  rw [Table.find?_insert] at bound
  by_cases same : other = name
  · subst same
    obtain rfl : datum = value := by simpa using bound
    exact admits_declareKind admitted kinds
  · rw [if_neg same] at bound
    rw [lookup_declareKind, if_neg same]
    exact admits other value bound

/-- A new global is declared after the others, and a known one keeps its place. -/
theorem names_declareKind (name : String) (kind : Kind) (kinds : List (String × Kind)) :
    (declareKind name kind kinds).map Prod.fst =
      if name ∈ kinds.map Prod.fst then kinds.map Prod.fst else kinds.map Prod.fst ++ [name] := by
  induction kinds with
  | nil => rfl
  | cons entry rest ih =>
      obtain ⟨declared, known⟩ := entry
      rw [declareKind]
      by_cases here : declared = name
      · simp [here]
      · rw [if_neg here, List.map_cons, ih]
        by_cases later : name ∈ rest.map Prod.fst
        · simp [later]
        · simp [later, Ne.symm here]

/-- Every global is declared once. -/
theorem nodup_declareKind {kinds : List (String × Kind)} (unique : (kinds.map Prod.fst).Nodup)
    (name : String) (kind : Kind) : ((declareKind name kind kinds).map Prod.fst).Nodup := by
  rw [names_declareKind]
  split
  · exact unique
  · rename_i absent
    rw [List.nodup_append]
    refine ⟨unique, by simp, ?_⟩
    rintro other member _ last rfl
    exact absent (List.mem_singleton.mp last ▸ member)

end Assembly

namespace Compiler

/-- The kinds change as the definitions declare their globals. -/
structure DeclaresKinds (definitions : List Definition) (kinds later : List (String × Kind)) :
    Prop where
  widens : Kind.Widens kinds later
  nodup : (kinds.map Prod.fst).Nodup → (later.map Prod.fst).Nodup
  declared : ∀ name value, .value name value ∈ definitions → ∃ kind, later.lookup name = some kind

/-- Definitions without globals change nothing. -/
theorem DeclaresKinds.nothing {definitions : List Definition}
    (none : ∀ name value, .value name value ∉ definitions) (kinds : List (String × Kind)) :
    DeclaresKinds definitions kinds kinds :=
  ⟨.refl kinds, id, fun name value defined => absurd defined (none name value)⟩

/-- Definitions declare their globals one after the other. -/
theorem DeclaresKinds.append {first second : List Definition}
    {kinds middle later : List (String × Kind)} (left : DeclaresKinds first kinds middle)
    (right : DeclaresKinds second middle later) : DeclaresKinds (first ++ second) kinds later where
  widens := left.widens.trans right.widens
  nodup unique := right.nodup (left.nodup unique)
  declared name value defined := by
    rcases List.mem_append.mp defined with early | late
    · obtain ⟨kind, known⟩ := left.declared name value early
      obtain ⟨wider, reached, _⟩ := right.widens name kind known
      exact ⟨wider, reached⟩
    · exact right.declared name value late

variable {analysis : Analysis} {functions : List Code.Function}

mutual

/-- A form with code declares the globals that it defines. -/
theorem EmitsForm.declaresKinds {kinds later : List (String × Kind)} {form : Form}
    {statements : List Code.Statement}
    (emits : EmitsForm analysis functions kinds form statements later) :
    DeclaresKinds form.definitions kinds later := by
  cases form with
  | expression value =>
      cases emits
      exact .nothing (fun _ _ => List.not_mem_nil) kinds
  | definition definition =>
      cases emits with
      | @value _ name value _ _ =>
          refine ⟨Assembly.widens_declareKind _ _ _,
            fun unique => Assembly.nodup_declareKind unique _ _, ?_⟩
          intro other expression defined
          obtain ⟨rfl, _⟩ : other = name ∧ expression = value := by simpa [Form.definitions] using defined
          rw [Assembly.lookup_declareKind, if_pos rfl]
          exact ⟨_, rfl⟩
      | procedure => exact .nothing (by simp [Form.definitions]) kinds
  | begin forms =>
      cases emits with
      | begin emits => exact emits.declaresKinds

/-- A program with code declares the globals that it defines. -/
theorem EmitsForms.declaresKinds {kinds later : List (String × Kind)} {forms : List Form}
    {statements : List Code.Statement}
    (emits : EmitsForms analysis functions kinds forms statements later) :
    DeclaresKinds (Form.allDefinitions forms) kinds later := by
  cases forms with
  | nil =>
      cases emits
      exact .nothing (fun _ _ => List.not_mem_nil) kinds
  | cons form rest =>
      cases emits with
      | cons first others => exact first.declaresKinds.append others.declaresKinds

end

/-- Outside of every call, a name stands for a global. -/
theorem find?_of_lookup {session later : Session} {name : String} {datum : Datum}
    (outside : session.environment.frames = [])
    (ended : Run.read (·.environment.lookup name) session = .ok datum later) :
    session.environment.globals.find? name = some datum := by
  rw [Run.read, Environment.lookup, Environment.binding?, outside, List.findSome?_nil] at ended
  cases global : session.environment.globals.find? name with
  | none =>
      rw [global] at ended
      cases ended
  | some bound =>
      rw [global] at ended
      cases ended
      rfl

/-- Outside of every call, an expression has a value of the kind that the compiler expects. -/
theorem admits_of_evaluateIn {order : Session.Order} {fuel : Nat} {value : Expression}
    {session later : Session} {datum : Datum} {kinds : List (String × Kind)}
    (outside : session.environment.frames = [])
    (admits : Kind.Admits kinds session.environment.globals)
    (ended : Session.evaluateIn order fuel value session = .ok datum later) :
    (kindAfter kinds value).admits (Value.ofDatum datum) = true := by
  cases fuel with
  | zero => cases ended
  | succ fuel =>
      cases value with
      | constant literal =>
          cases literal with
          | integer number =>
              cases ended
              rfl
          | character name =>
              rw [Session.evaluateIn, Session.evaluateWithIn, Datum.ofLiteral] at ended
              cases named : Character.ofName name with
              | error error =>
                  rw [named] at ended
                  cases ended
              | ok character =>
                  rw [named] at ended
                  cases ended
                  rfl
          | string content =>
              cases ended
              rfl
          | boolean flag =>
              cases ended
              rfl
      | quotation quoted => rfl
      | application procedure operands => rfl
      | identifier name =>
          have found := find?_of_lookup outside ended
          obtain ⟨kind, known, admitted⟩ := admits name datum found
          change (((kinds.lookup name).getD .computed).admits (Value.ofDatum datum)) = true
          rw [known]
          exact admitted

end Compiler

end SmallScheme
