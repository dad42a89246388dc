/-
This file shows that an evaluation sees its environment only through lookups: environments that answer
alike lead to the same value or error and to the same output, whatever frames and globals they have.
-/

import SmallScheme.Proofs.Session.Order
import SmallScheme.Proofs.Session.Register

namespace SmallScheme

namespace Outcome

variable {S T A : Type}

/-- How a computation ends, with a view of its last state. -/
def seen (view : S → T) : Outcome S A → Outcome T A
  | .ok value state => .ok value (view state)
  | .error failure state => .error failure (view state)
  | .outOfFuel => .outOfFuel

/-- A view does not hide that the fuel ran out. -/
theorem seen_eq_outOfFuel {view : S → T} {outcome : Outcome S A} :
    outcome.seen view = .outOfFuel ↔ outcome = .outOfFuel := by
  cases outcome <;> simp [seen]

/-- Outcomes that agree look the same, unless the first one ran out of fuel. -/
theorem Agrees.seen_eq {view : S → T} {first second : Outcome S A}
    (agreed : Agrees .firstFuel (· = ·) (fun state other => view state = view other) first second)
    (finished : first ≠ .outOfFuel) : second.seen view = first.seen view := by
  rcases agreed with matched | ⟨stop, stopped, rfl⟩ | ⟨_, _, excused⟩
  · cases first <;> cases second <;> simp_all [Matches, seen]
  · cases first <;> simp_all [stop?]
  · exact excused.elim

end Outcome

namespace Environment

/-- An environment that finds a name also binds it, so equal answers come from equal bindings. -/
theorem lookup_eq_ok {environment : Environment} {name : String} {value : Datum} :
    environment.lookup name = .ok value ↔ environment.binding? name = some value := by
  unfold lookup
  cases environment.binding? name <;> simp

/-- Environments with the same procedures that answer all look-ups alike are alike. -/
theorem Alike.of_lookup {first second : Environment}
    (procedures : ∀ name, first.procedure? name = second.procedure? name)
    (lookups : ∀ name, first.lookup name = second.lookup name) : Alike first second where
  procedures := procedures
  bindings name := by
    apply Option.ext
    intro value
    rw [← lookup_eq_ok, ← lookup_eq_ok, lookups name]

end Environment

namespace Session

/-- An evaluation that ends is repeated in every environment that answers alike, with the same fuel or
more. -/
theorem seen_evaluate_of_alike {first second : Environment} (alike : first.Alike second)
    {fuel more : Nat} (enough : fuel ≤ more) (expression : Expression) (sink : Sink)
    (finished : evaluate fuel expression ⟨first, sink⟩ ≠ .outOfFuel) :
    (evaluate more expression ⟨second, sink⟩).seen Session.sink =
      (evaluate fuel expression ⟨first, sink⟩).seen Session.sink := by
  have mirrors : Mirrors .firstFuel (evaluateIn .headFirst fuel) (evaluateIn .headFirst more) :=
    evaluateIn_mirrors rfl (.same .headFirst) enough
  rw [evaluateIn_headFirst, evaluateIn_headFirst] at mirrors
  have agreed := mirrors expression first second alike ⟨first, sink⟩ ⟨second, sink⟩ ⟨rfl, rfl, rfl⟩
  exact (agreed.weaken (fun _ _ => id) fun _ _ step => step.sink).seen_eq finished

/-- An evaluation that ends in one environment ends in every one that answers alike. -/
theorem finishes_of_alike {first second : Environment} (alike : first.Alike second)
    {expression : Expression} {sink : Sink}
    (finishes : ∃ fuel, evaluate fuel expression ⟨first, sink⟩ ≠ .outOfFuel) :
    ∃ fuel, evaluate fuel expression ⟨second, sink⟩ ≠ .outOfFuel := by
  obtain ⟨fuel, finished⟩ := finishes
  refine ⟨fuel, fun stopped => finished ?_⟩
  have same := seen_evaluate_of_alike alike (Nat.le_refl fuel) expression sink finished
  rw [Outcome.seen_eq_outOfFuel.mpr stopped] at same
  exact Outcome.seen_eq_outOfFuel.mp same.symm

/-- Environments with the same procedures that find the same value for every name cannot be told apart
by an evaluation. It ends in one of them exactly if it ends in the other, and then with the same value
or the same error and the same sink. -/
theorem evaluation_sees_only_lookups {first second : Environment}
    (procedures : ∀ name, first.procedure? name = second.procedure? name)
    (lookups : ∀ name, first.lookup name = second.lookup name) (expression : Expression)
    (sink : Sink) :
    ((∃ fuel, evaluate fuel expression ⟨first, sink⟩ ≠ .outOfFuel) ↔
        ∃ fuel, evaluate fuel expression ⟨second, sink⟩ ≠ .outOfFuel) ∧
      ∀ fuel more, evaluate fuel expression ⟨first, sink⟩ ≠ .outOfFuel →
        evaluate more expression ⟨second, sink⟩ ≠ .outOfFuel →
          (evaluate fuel expression ⟨first, sink⟩).seen Session.sink =
            (evaluate more expression ⟨second, sink⟩).seen Session.sink := by
  have alike := Environment.Alike.of_lookup procedures lookups
  refine ⟨⟨finishes_of_alike alike, finishes_of_alike alike.symm⟩, ?_⟩
  intro fuel more finished otherFinished
  -- The run with less fuel is the one that is repeated.
  rcases Nat.le_total fuel more with enough | enough
  · exact (seen_evaluate_of_alike alike enough expression sink finished).symm
  · exact seen_evaluate_of_alike alike.symm enough expression sink otherFinished

/-- A procedure that reads a variable of its caller. -/
def ask : Procedure :=
  ⟨"ask", [], [], [], .application "+" [.identifier "x", .identifier "y"]⟩

/-- A procedure that displays an internal variable and calls the other one. -/
def tell : Procedure :=
  ⟨"tell", ["n"], [.value "y" (.application "+" [.identifier "n", .identifier "y"])],
    [.application "display" [.identifier "y"]], .application "ask" []⟩

/-- Outside of every call, with both variables among the globals. -/
def flatEnvironment : Environment :=
  ((((Environment.predefined.register ask).register tell).defineVariable "x"
    (.integer 2)).defineVariable "y" (.integer 7))

/-- Inside two calls, with a global that a frame hides. The procedures came in the other order. -/
def nestedEnvironment : Environment :=
  ((((Environment.predefined.register tell).register ask).defineVariable "x"
    (.integer 1)).pushFrame (.ofPairs [("y", .integer 7), ("x", .integer 2)])).pushFrame .empty

/-- Neither frames nor hidden globals show in the value or in the output. -/
theorem nestedEnvironment_answers_as_flat :
    nestedEnvironment.depth = 2 ∧ flatEnvironment.depth = 0 ∧
      ∀ fuel, evaluate fuel (.application "tell" [.constant (.integer 3)])
          ⟨nestedEnvironment, .unlimited⟩ ≠ .outOfFuel →
        (evaluate fuel (.application "tell" [.constant (.integer 3)])
          ⟨nestedEnvironment, .unlimited⟩).seen Session.sink =
            .ok (.integer 12) { Sink.unlimited with attempts := 2, text := "10\n" } := by
  have procedures : ∀ name, flatEnvironment.procedure? name = nestedEnvironment.procedure? name := by
    intro name
    change ((Environment.predefined.defineProcedure "ask" _).defineProcedure "tell" _).procedure? name =
      ((Environment.predefined.defineProcedure "tell" _).defineProcedure "ask" _).procedure? name
    simp only [Environment.procedure?_defineProcedure]
    by_cases asks : name = "ask" <;> simp [asks]
  have lookups : ∀ name, flatEnvironment.lookup name = nestedEnvironment.lookup name := by
    intro name
    change Environment.lookup ⟨⟨[("y", .integer 7), ("x", .integer 2)]⟩, _, []⟩ name =
      Environment.lookup ⟨⟨[("x", .integer 1)]⟩, _,
        [⟨[]⟩, ⟨[("x", .integer 2), ("y", .integer 7)]⟩]⟩ name
    by_cases first : name = "x"
    · rw [first]
      rfl
    · by_cases second : name = "y"
      · rw [second]
        rfl
      · simp [Environment.lookup, Environment.binding?, Table.find?, List.findSome?_cons,
          List.lookup_cons, beq_false_of_ne first, beq_false_of_ne second]
  have ended : (evaluate 6 (.application "tell" [.constant (.integer 3)])
      ⟨flatEnvironment, .unlimited⟩).seen Session.sink =
        .ok (.integer 12) { Sink.unlimited with attempts := 2, text := "10\n" } := rfl
  have finished : evaluate 6 (.application "tell" [.constant (.integer 3)])
      ⟨flatEnvironment, .unlimited⟩ ≠ .outOfFuel := by
    intro stopped
    rw [stopped] at ended
    cases ended
  refine ⟨rfl, rfl, fun fuel otherFinished => ?_⟩
  rw [← ended]
  exact ((evaluation_sees_only_lookups procedures lookups _ .unlimited).2 6 fuel finished
    otherFinished).symm

end Session

end SmallScheme
