/-
This file runs the forms of a program with any evaluator of expressions.
-/

import SmallScheme.Proofs.Session.Order

namespace SmallScheme.Session

/-- Binds the name of a definition to a value or to a procedure. -/
def performDefinition (evaluator : Expression → Run Session Datum) : Definition → Run Session Unit
  | .value name expression => bindValue evaluator (name, expression)
  | .procedure procedure => Run.update (onEnvironment (·.register procedure))

mutual

/-- The values of the top-level expressions in a form. -/
def perform (evaluator : Expression → Run Session Datum) : Form → Run Session (List Datum)
  | .expression expression => do
      let value ← evaluator expression
      return [value]
  | .definition definition => do
      performDefinition evaluator definition
      return []
  | .begin forms => performAll evaluator forms

/-- The values of the top-level expressions in the forms, one after the other. -/
def performAll (evaluator : Expression → Run Session Datum) : List Form → Run Session (List Datum)
  | [] => return []
  | form :: rest => do
      let values ← perform evaluator form
      let others ← performAll evaluator rest
      return values ++ others

end

/-- A transcript records the values after the earlier ones. After an error only its session counts. -/
def Records (earlier : List Datum) : Outcome Session (List Datum) → Outcome Transcript Unit → Prop
  | .ok values session, .ok _ transcript => transcript = ⟨session, earlier ++ values⟩
  | .error error session, .error other transcript =>
      error = other ∧ transcript.session = session
  | .outOfFuel, .outOfFuel => True
  | _, _ => False

/-- A definition records nothing. -/
theorem records_define (fuel : Nat) (definition : Definition) (session : Session)
    (earlier : List Datum) :
    Records earlier (perform (evaluate fuel) (.definition definition) session)
      (Transcript.inSession (define fuel definition) ⟨session, earlier⟩) := by
  have same : performDefinition (evaluate fuel) definition = define fuel definition := by
    cases definition <;> rfl
  rw [perform, same, Run.bind_apply, Transcript.inSession, Run.within]
  cases define fuel definition session with
  | ok value after => simp [Run.pure_apply, Records]
  | error error after => exact ⟨rfl, rfl⟩
  | outOfFuel => trivial

mutual

/-- A transcript records the values of a form. -/
theorem records_form (fuel : Nat) (form : Form) (session : Session) (earlier : List Datum) :
    Records earlier (perform (evaluate fuel) form session)
      (execute fuel form ⟨session, earlier⟩) := by
  cases form with
  | expression expression =>
      rw [perform, execute, Run.bind_apply, Run.bind_apply, Transcript.inSession, Run.within]
      cases evaluate fuel expression session with
      | ok value after => rfl
      | error error after => exact ⟨rfl, rfl⟩
      | outOfFuel => trivial
  | definition definition => exact records_define fuel definition session earlier
  | begin forms => exact records_forms fuel forms session earlier

/-- A transcript records the values of the forms in their order. -/
theorem records_forms (fuel : Nat) (forms : List Form) (session : Session) (earlier : List Datum) :
    Records earlier (performAll (evaluate fuel) forms session)
      (executeAll fuel forms ⟨session, earlier⟩) := by
  cases forms with
  | nil => simp [performAll, executeAll, Run.pure_apply, Records]
  | cons form rest =>
      have head := records_form fuel form session earlier
      rw [performAll, executeAll, Run.bind_apply, Run.bind_apply]
      cases performed : perform (evaluate fuel) form session <;>
        cases executed : execute fuel form ⟨session, earlier⟩ <;>
        rw [performed, executed] at head
      case ok.ok values after _ transcript =>
        obtain rfl : transcript = ⟨after, earlier ++ values⟩ := head
        have tail := records_forms fuel rest after (earlier ++ values)
        dsimp only
        rw [Run.bind_apply]
        cases others : performAll (evaluate fuel) rest after <;>
          cases ended : executeAll fuel rest ⟨after, earlier ++ values⟩ <;>
          rw [others, ended] at tail
        case ok.ok =>
          rw [Records, List.append_assoc] at tail
          exact tail
        case error.error => exact tail
        case outOfFuel.outOfFuel => exact tail
        all_goals exact tail.elim
      case error.error => exact head
      case outOfFuel.outOfFuel => exact head
      all_goals exact head.elim

end

/-- A session runs the forms of a program with its evaluator. -/
theorem run_eq_performAll (fuel : Nat) (program : Program) :
    run fuel program = performAll (evaluate fuel) program.forms := by
  funext session
  have records := records_forms fuel program.forms session []
  rw [run]
  cases performed : performAll (evaluate fuel) program.forms session <;>
    cases executed : executeAll fuel program.forms ⟨session, []⟩ <;>
    rw [performed, executed] at records
  case ok.ok values after _ transcript =>
    obtain rfl : transcript = ⟨after, [] ++ values⟩ := records
    rfl
  case error.error error after other transcript =>
    obtain ⟨rfl, rfl⟩ := records
    rfl
  all_goals exact records.elim

/-- Forms in two parts run one part after the other. -/
theorem performAll_append (evaluator : Expression → Run Session Datum) (first second : List Form) :
    performAll evaluator (first ++ second) = do
      let values ← performAll evaluator first
      let others ← performAll evaluator second
      return values ++ others := by
  induction first with
  | nil => exact (Run.bind_pure _).symm
  | cons form rest ih =>
      rw [List.cons_append, performAll, performAll, ih]
      funext session
      simp only [Run.bind_apply]
      cases perform evaluator form session with
      | error error after => rfl
      | outOfFuel => rfl
      | ok values after =>
          dsimp only
          cases performAll evaluator rest after with
          | error error last => rfl
          | outOfFuel => rfl
          | ok others last =>
              simp only [Run.pure_apply]
              cases performAll evaluator second last with
              | error error final => rfl
              | outOfFuel => rfl
              | ok more final => simp only [List.append_assoc]

/-- A program in two parts runs one part after the other. -/
theorem run_append (fuel : Nat) (first second : List Form) :
    run fuel ⟨first ++ second⟩ = do
      let values ← run fuel ⟨first⟩
      let others ← run fuel ⟨second⟩
      return values ++ others := by
  rw [run_eq_performAll, run_eq_performAll, run_eq_performAll, performAll_append]

section Evaluators

variable {slack : Slack} {recur other : Expression → Run Session Datum}

/-- A definition does the same with evaluators that stay in step. -/
theorem follows_performDefinition_same (mirrors : Mirrors slack recur other)
    (definition : Definition) :
    Run.Follows slack (· = ·) (· = ·) (· = ·) (performDefinition recur definition)
      (performDefinition other definition) := by
  cases definition with
  | value name expression =>
      refine Run.follows_bind (mirrors.follows expression) ?_ fun _ _ => id
      rintro value _ rfl session _ rfl
      exact .inl ⟨rfl, rfl⟩
  | procedure procedure =>
      rintro session _ rfl
      exact .inl ⟨rfl, rfl⟩

mutual

/-- Forms do the same with evaluators that stay in step. -/
theorem follows_perform_same (mirrors : Mirrors slack recur other)
    (form : Form) :
    Run.Follows slack (· = ·) (· = ·) (· = ·) (perform recur form) (perform other form) := by
  cases form with
  | expression expression =>
      refine Run.follows_bind (mirrors.follows expression) ?_ fun _ _ => id
      rintro value _ rfl
      exact Run.follows_pure rfl
  | definition definition =>
      refine Run.follows_bind (follows_performDefinition_same mirrors definition) ?_ fun _ _ => id
      exact fun _ _ _ => Run.follows_pure rfl
  | begin forms => exact follows_performAll_same mirrors forms

/-- A list of forms does the same with evaluators that stay in step. -/
theorem follows_performAll_same (mirrors : Mirrors slack recur other)
    (forms : List Form) :
    Run.Follows slack (· = ·) (· = ·) (· = ·) (performAll recur forms)
      (performAll other forms) := by
  cases forms with
  | nil => exact Run.follows_pure rfl
  | cons form rest =>
      refine Run.follows_bind (follows_perform_same mirrors form) ?_ fun _ _ => id
      rintro values _ rfl
      refine Run.follows_bind (follows_performAll_same mirrors rest) ?_ fun _ _ => id
      rintro others _ rfl
      exact Run.follows_pure rfl

end

end Evaluators

end SmallScheme.Session
