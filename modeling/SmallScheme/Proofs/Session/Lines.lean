/-
This file shows that two sources on two lines run as one after the other: a session that reads them
line by line agrees with one that reads them as a whole.
-/

import SmallScheme.Proofs.Program.Forms
import SmallScheme.Proofs.Session.Forms
import SmallScheme.Proofs.Tree.Lines

namespace SmallScheme

namespace SExpr

/-- Data in two parts are lowered one part after the other. -/
theorem allToForms_append (first second : List SExpr) :
    allToForms (first ++ second) = do
      let forms ← allToForms first
      let others ← allToForms second
      return forms ++ others := by
  induction first with
  | nil =>
      rw [List.nil_append, allToForms]
      cases allToForms second <;> rfl
  | cons datum rest ih =>
      rw [List.cons_append, allToForms, allToForms, ih]
      cases datum.toForm with
      | error error => rfl
      | ok form =>
          cases allToForms rest with
          | error error => rfl
          | ok forms => cases allToForms second <;> rfl

end SExpr

namespace Program

/-- The forms of two lines come one after the other, and the first error of either line counts. -/
theorem ofSource_append_newline {first second : String}
    (left : (Parse.ofSource first).errors = []) (right : (Parse.ofSource second).errors = []) :
    ofSource (first ++ "\n" ++ second) = do
      let program ← ofSource first
      let other ← ofSource second
      return ⟨program.forms ++ other.forms⟩ := by
  obtain ⟨unreported, data⟩ := Parse.ofSource_append_newline left right
  rw [ofSource_of_errors unreported, ofSource_of_errors left, ofSource_of_errors right]
  unfold ofParse
  rw [data, SExpr.allToForms_append]
  cases SExpr.allToForms (Parse.ofSource first).data with
  | error error => rfl
  | ok forms => cases SExpr.allToForms (Parse.ofSource second).data <;> rfl

end Program

namespace Session

/-- A source that gives a program runs as the program. -/
theorem runSource_of_ofSource {source : String} {program : Program}
    (read : Program.ofSource source = .ok program) (fuel : Nat) (session : Session) :
    runSource fuel source session = .ok (run fuel program session) := by
  rw [runSource, read]
  rfl

/-- Runs the second source in the session that the first one leaves, unless the first one fails. -/
def runInTurn (fuel : Nat) (first second : String) (session : Session) :
    Except SyntaxError (Outcome Session (List Datum)) := do
  match ← runSource fuel first session with
  | .ok values after =>
      match ← runSource fuel second after with
      | .ok others last => return .ok (values ++ others) last
      | .error error last => return .error error last
      | .outOfFuel => return .outOfFuel
  | .error error after => return .error error after
  | .outOfFuel => return .outOfFuel

/-- Two sources that give programs run as the forms of both, one after the other. -/
theorem runInTurn_of_ofSource {first second : String} {program other : Program}
    (firstRead : Program.ofSource first = .ok program)
    (secondRead : Program.ofSource second = .ok other) (fuel : Nat) (session : Session) :
    runInTurn fuel first second session =
      .ok (run fuel ⟨program.forms ++ other.forms⟩ session) := by
  rw [runInTurn, runSource_of_ofSource firstRead, run_append, Run.bind_apply]
  cases run fuel program session with
  | error error after => rfl
  | outOfFuel => rfl
  | ok values after =>
      show (runSource fuel second after >>= _) = _
      rw [runSource_of_ofSource secondRead]
      dsimp only
      rw [Run.bind_apply]
      cases run fuel other after <;> rfl

/-- Two sources without errors can be put on two lines: the parser reports nothing, the program has
the forms of both or the first error of either, and it runs as the two programs in turn. -/
theorem joined_lines_agree {first second : String} (left : (Parse.ofSource first).errors = [])
    (right : (Parse.ofSource second).errors = []) :
    (Parse.ofSource (first ++ "\n" ++ second)).errors = [] ∧
      (Program.ofSource (first ++ "\n" ++ second) = do
        let program ← Program.ofSource first
        let other ← Program.ofSource second
        return ⟨program.forms ++ other.forms⟩) ∧
      ∀ program other, Program.ofSource first = .ok program → Program.ofSource second = .ok other →
        ∀ fuel session, runSource fuel (first ++ "\n" ++ second) session =
          runInTurn fuel first second session := by
  have whole := Program.ofSource_append_newline left right
  refine ⟨(Parse.ofSource_append_newline left right).1, whole, ?_⟩
  intro program other firstRead secondRead fuel session
  rw [firstRead, secondRead] at whole
  rw [runInTurn_of_ofSource firstRead secondRead]
  exact runSource_of_ofSource whole fuel session

/-- A string goes over a line, and the carriage return at the end waits for its newline. -/
def definingLine : String :=
  "(define text \"a\nb\")\r"

/-- The second line displays what the first one defines. -/
def displayingLine : String :=
  "; shows it\n(display ' ;twice\n text) text"

/-- The two lines are read and run together as one after the other. -/
theorem definingLine_joins_displayingLine :
    (Parse.ofSource definingLine).errors = [] ∧ (Parse.ofSource displayingLine).errors = [] ∧
      ∃ program, Program.ofSource (definingLine ++ "\n" ++ displayingLine) = .ok program ∧
        program.forms.length = 3 ∧
        ∀ fuel session, runSource fuel (definingLine ++ "\n" ++ displayingLine) session =
          runInTurn fuel definingLine displayingLine session := by
  have left : (Parse.ofSource definingLine).errors = [] := by decide +kernel
  have right : (Parse.ofSource displayingLine).errors = [] := by decide +kernel
  have one : (Program.ofSource definingLine).toOption.map (·.forms.length) = some 1 := by
    decide +kernel
  have two : (Program.ofSource displayingLine).toOption.map (·.forms.length) = some 2 := by
    decide +kernel
  obtain ⟨_, whole, runs⟩ := joined_lines_agree left right
  cases first : Program.ofSource definingLine with
  | error error => rw [first] at one; cases one
  | ok program =>
      cases second : Program.ofSource displayingLine with
      | error error => rw [second] at two; cases two
      | ok other =>
          rw [first] at one whole
          rw [second] at two whole
          have early : program.forms.length = 1 := Option.some.inj one
          have late : other.forms.length = 2 := Option.some.inj two
          refine ⟨left, right, _, whole, ?_, runs program other first second⟩
          rw [List.length_append, early, late]

end Session

end SmallScheme
