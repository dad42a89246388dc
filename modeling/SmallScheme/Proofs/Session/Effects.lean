/-
This file shows that an evaluation that ends, with a value or with an error, changes nothing but the
sink, and that the text of the sink only grows.
-/

import Mathlib.Order.Basic
import SmallScheme.Proofs.Session.Order

namespace SmallScheme

/-- The state in which a computation ends has the property. -/
def Outcome.Ends {S A : Type} (property : S → Prop) : Outcome S A → Prop
  | .ok _ state => property state
  | .error _ state => property state
  | .outOfFuel => True

/-- A weaker property holds at the end too. -/
theorem Outcome.Ends.imp {S A : Type} {property other : S → Prop} {outcome : Outcome S A}
    (ends : outcome.Ends property) (implies : ∀ state, property state → other state) :
    outcome.Ends other := by
  cases outcome with
  | ok value state => exact implies state ends
  | error error state => exact implies state ends
  | outOfFuel => trivial

namespace Run

variable {S T P A B : Type}

/-- A sequence ends where its first part fails or where its second part ends. -/
theorem ends_bind {first : Run S A} {next : A → Run S B} {state : S} {early late : S → Prop}
    (ends : (first state).Ends early) (errors : ∀ middle, early middle → late middle)
    (rests : ∀ value middle, first state = .ok value middle → early middle →
      (next value middle).Ends late) :
    ((first >>= next) state).Ends late := by
  rw [bind_apply]
  cases ended : first state with
  | outOfFuel => trivial
  | error error middle =>
      rw [ended] at ends
      exact errors middle ends
  | ok value middle =>
      rw [ended] at ends
      exact rests value middle ended ends

variable [Preorder P] {view : S → P}

/-- The view of the state never shrinks, however the run ends. -/
def Grows (view : S → P) (run : Run S A) : Prop :=
  ∀ state, (run state).Ends fun after => view state ≤ view after

/-- A run that only gives a value leaves the view as it was. -/
theorem grows_pure (value : A) : Grows view (pure value : Run S A) :=
  fun state => le_refl (view state)

/-- A failing run leaves the view as it was. -/
theorem grows_fail (error : RunError) : Grows view (fail error : Run S A) :=
  fun state => le_refl (view state)

/-- A result from outside the run leaves the view as it was. -/
theorem grows_ofExcept (result : Except RunError A) : Grows view (ofExcept result : Run S A) := by
  cases result with
  | ok value => exact grows_pure value
  | error error => exact grows_fail error

/-- Reading the state leaves the view as it was. -/
theorem grows_read (part : S → Except RunError A) : Grows view (read part) :=
  fun state => grows_ofExcept (part state) state

/-- The view never shrinks in a sequence of runs in which it never does. -/
theorem grows_bind {first : Run S A} {next : A → Run S B} (grows : Grows view first)
    (rests : ∀ value, Grows view (next value)) : Grows view (first >>= next) := by
  intro state
  apply ends_bind (grows state) fun _ => id
  intro value middle _ early
  exact (rests value middle).imp fun after late => le_trans early late

/-- The view never shrinks while values are collected. -/
theorem grows_all {run : A → Run S B} (grows : ∀ item, Grows view (run item)) (items : List A) :
    Grows view (all run items) := by
  induction items with
  | nil => exact grows_pure []
  | cons item rest inductionHypothesis =>
      apply grows_bind (grows item)
      intro value
      apply grows_bind inductionHypothesis
      intro values
      exact grows_pure (value :: values)

/-- The view never shrinks while items are run through. -/
theorem grows_each {run : A → Run S Unit} (grows : ∀ item, Grows view (run item))
    (items : List A) : Grows view (each run items) := by
  induction items with
  | nil => exact grows_pure ()
  | cons item rest inductionHypothesis =>
      exact grows_bind (grows item) fun _ => inductionHypothesis

/-- The changes around a run are not visible. -/
theorem grows_between {enter leave : S → S} {run : Run S A}
    (entered : ∀ state, view (enter state) = view state)
    (left : ∀ state, view (leave state) = view state) (grows : Grows view run) :
    Grows view (between enter leave run) := by
  intro state
  have inside := grows (enter state)
  unfold between
  cases ended : run (enter state) with
  | outOfFuel => trivial
  | error error after =>
      rw [ended] at inside
      show view state ≤ view (leave after)
      rw [left after, ← entered state]
      exact inside
  | ok value after =>
      rw [ended] at inside
      show view state ≤ view (leave after)
      rw [left after, ← entered state]
      exact inside

end Run

namespace Sink

/-- A later state of a sink has the same policy and at least the text of an earlier one. -/
instance : Preorder Sink where
  le earlier later :=
    later.refuses = earlier.refuses ∧ ∃ added, later.text = earlier.text ++ added
  le_refl sink := ⟨rfl, "", String.append_empty.symm⟩
  le_trans first second third := by
    rintro ⟨samePolicy, early, grown⟩ ⟨keptPolicy, late, grownMore⟩
    refine ⟨keptPolicy.trans samePolicy, early ++ late, ?_⟩
    rw [grownMore, grown, String.append_assoc]

/-- A refused piece may leave its start behind. -/
theorem grows_write (piece : String) : Run.Grows id (write piece) := by
  intro sink
  unfold write
  cases sink.refuses sink.attempts sink.text piece with
  | none => exact ⟨rfl, piece, rfl⟩
  | some refusal => exact ⟨rfl, String.ofList (piece.toList.take refusal.taken), rfl⟩

theorem grows_writeLine (text : String) : Run.Grows id (writeLine text) := by
  unfold writeLine
  split
  · exact Run.grows_bind (grows_write text) fun _ => grows_write "\n"
  · exact grows_write "\n"

end Sink

namespace Session

theorem grows_display (arguments : List Datum) : Run.Grows id (display arguments) := by
  refine Run.grows_bind (Run.grows_ofExcept (one arguments)) fun datum => ?_
  apply Run.grows_bind (Sink.grows_writeLine _)
  intro _
  exact Run.grows_pure Datum.void

theorem grows_apply (builtin : Builtin) (arguments : List Datum) :
    Run.Grows id (apply builtin arguments) := by
  refine Run.grows_bind (Run.grows_ofExcept (builtin.arity.check arguments.length)) fun _ => ?_
  cases builtin with
  | display => exact grows_display arguments
  | _ =>
      rw [call]
      exact Run.grows_ofExcept _

/-- A session sees its sink grow as the sink itself does. -/
theorem grows_writing {A : Type} {run : Run Sink A} (grows : Run.Grows id run) :
    Run.Grows sink (writing run) := by
  intro session
  have written := grows session.sink
  unfold writing Run.within
  cases ended : run session.sink with
  | outOfFuel => trivial
  | error error after =>
      rw [ended] at written
      exact written
  | ok value after =>
      rw [ended] at written
      exact written

section Evaluator

variable {recur : Expression → Run Session Datum}

theorem grows_conditional (grows : ∀ expression, Run.Grows sink (recur expression))
    (operands : List Expression) : Run.Grows sink (conditional recur operands) := by
  unfold conditional
  split
  · rename_i condition consequent alternative
    apply Run.grows_bind (grows condition)
    intro value
    cases value.isTrue with
    | true => exact grows consequent
    | false => exact grows alternative
  · exact Run.grows_fail _

theorem grows_callBody (grows : ∀ expression, Run.Grows sink (recur expression))
    (procedure : Procedure) : Run.Grows sink (callBody recur procedure) := by
  have bound (definition : String × Expression) : Run.Grows sink (bindValue recur definition) :=
    Run.grows_bind (grows definition.2) fun value session => le_refl session.sink
  have performed (effect : Expression) : Run.Grows sink (do let _ ← recur effect) :=
    Run.grows_bind (grows effect) fun _ => Run.grows_pure ()
  apply Run.grows_bind (Run.grows_each bound procedure.values)
  intro _
  apply Run.grows_bind (Run.grows_each performed procedure.effects)
  intro _
  exact grows procedure.body

theorem grows_invoke (grows : ∀ expression, Run.Grows sink (recur expression))
    (arguments : List Datum) (callable : Callable) :
    Run.Grows sink (invoke recur arguments callable) := by
  cases callable with
  | builtin builtin => exact grows_writing (grows_apply builtin arguments)
  | code procedure =>
      simp only [invoke, callCode]
      split
      · exact Run.grows_between (fun _ => rfl) (fun _ => rfl) (grows_callBody grows procedure)
      · exact Run.grows_fail _

/-- The text of the sink never shrinks in one level of evaluation, if it does not in the levels
below. -/
theorem grows_evaluateWith (grows : ∀ expression, Run.Grows sink (recur expression))
    (expression : Expression) : Run.Grows sink (evaluateWith recur expression) := by
  cases expression with
  | constant literal => exact Run.grows_ofExcept _
  | quotation quoted => exact Run.grows_ofExcept _
  | identifier name => exact Run.grows_read _
  | application procedure operands =>
      rw [evaluateWith, ← applyIn_headFirst]
      split
      · exact grows_conditional grows operands
      · apply Run.grows_bind (Run.grows_read _)
        intro callable
        apply Run.grows_bind (Run.grows_all grows operands)
        intro arguments
        exact grows_invoke grows arguments callable

end Evaluator

/-- The text of the sink never shrinks in an evaluation. -/
theorem grows_evaluate (fuel : Nat) (expression : Expression) :
    Run.Grows sink (evaluate fuel expression) := by
  induction fuel generalizing expression with
  | zero => exact fun _ => trivial
  | succ fuel inductionHypothesis => exact grows_evaluateWith inductionHypothesis expression

/-- An evaluation that stays in step with itself ends in the environment that it started in. -/
theorem environment_of_evaluateIn (order : Order) (fuel : Nat) (expression : Expression)
    (session : Session) :
    (evaluateIn order fuel expression session).Ends (·.environment = session.environment) := by
  have mirrors : Mirrors .firstFuel (evaluateIn order fuel) (evaluateIn order fuel) :=
    evaluateIn_mirrors rfl (.same order) (Nat.le_refl fuel)
  have agreed := mirrors expression _ _ (.refl session.environment) session session
    ⟨rfl, rfl, rfl⟩
  cases ended : evaluateIn order fuel expression session with
  | outOfFuel => trivial
  | error error after =>
      rw [ended] at agreed
      obtain ⟨_, _, step⟩ := agreed.exists_error (fun _ => id) (by simp [Slack.firstFuel])
      exact step.first
  | ok value after =>
      rw [ended] at agreed
      obtain ⟨_, _, _, _, step⟩ := agreed.exists_ok fun _ => id
      exact step.first

/-- However an evaluation ends, the globals, the procedures and the frames are what they were, and
the text of the sink has only been added to. -/
theorem evaluate_only_writes {fuel : Nat} {expression : Expression} {session after : Session}
    (ended : (∃ value, evaluate fuel expression session = .ok value after) ∨
      ∃ error, evaluate fuel expression session = .error error after) :
    after.environment = session.environment ∧ after.sink.refuses = session.sink.refuses ∧
      ∃ added, after.sink.text = session.sink.text ++ added := by
  have kept := environment_of_evaluateIn .headFirst fuel expression session
  have grown := grows_evaluate fuel expression session
  rw [evaluateIn_headFirst] at kept
  rcases ended with ⟨value, ended⟩ | ⟨error, ended⟩
  · rw [ended] at kept grown
    exact ⟨kept, grown⟩
  · rw [ended] at kept grown
    exact ⟨kept, grown⟩

/-- A session inside a call, with a sink that breaks in the middle of its third piece. -/
def interruptedSession : Session where
  environment :=
    ((Environment.predefined.defineProcedure "tell" (.code ⟨"tell", ["n"],
      [.value "m" (.application "+" [.identifier "n", .identifier "step"])],
      [.application "display" [.identifier "m"]],
      .application "display" [.constant (.string "done")]⟩)).defineVariable "step"
        (.integer 1)).pushFrame (.ofPairs [("n", .integer 5)])
  sink := ⟨fun attempts _ _ => if attempts = 2 then some ⟨"broken pipe", 3⟩ else none, 0, "? "⟩

/-- A write that breaks in the middle leaves the bindings as they were, and a part of the text. -/
theorem interruptedSession_only_writes :
    ∃ after, evaluate 5 (.application "tell" [.identifier "n"]) interruptedSession =
        .error (.output "broken pipe") after ∧
      after.environment = interruptedSession.environment ∧ after.sink.text = "? 6\ndon" := by
  obtain ⟨after, failed, shown⟩ : ∃ after,
      evaluate 5 (.application "tell" [.identifier "n"]) interruptedSession =
        .error (.output "broken pipe") after ∧ after.sink.text = "? 6\ndon" := ⟨_, rfl, rfl⟩
  have kept := evaluate_only_writes (.inr ⟨_, failed⟩)
  exact ⟨after, failed, kept.1, shown⟩

end Session

end SmallScheme
