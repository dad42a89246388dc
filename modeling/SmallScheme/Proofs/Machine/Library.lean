/-
This file relates the data and the predefined procedures of a session to those of a compiled
program.
-/

import SmallScheme.Machine.Run
import SmallScheme.Proofs.Agreement
import SmallScheme.Proofs.Text.Decimal
import SmallScheme.Session.Library

namespace SmallScheme

namespace Value

/-- Data are converted one by one. -/
theorem allOfDatum_eq_map (data : List Datum) : allOfDatum data = data.map ofDatum := by
  induction data with
  | nil => rfl
  | cons datum rest ih => rw [allOfDatum, ih, List.map_cons]

/-- The written digits of an integer are read as the integer. -/
theorem ofDigits_text (value : Int) : ofDigits (Text.Decimal.text value) = .ok (.integer value) := by
  rw [ofDigits, Text.Decimal.text, String.toList_ofList, Text.Decimal.read?_chars]

/-- Conversion keeps what counts as true. -/
theorem isTrue_ofDatum (datum : Datum) : (ofDatum datum).isTrue = datum.isTrue := by
  cases datum <;> rfl

mutual

/-- Equality does not tell symbols from strings. -/
theorem same_ofDatum (left right : Datum) :
    (ofDatum left).same (ofDatum right) = left.equal right := by
  cases left with
  | list lefts =>
      cases right with
      | list rights => exact allSame_allOfDatum lefts rights
      | _ => rfl
  | vector lefts =>
      cases right with
      | vector rights => exact allSame_allOfDatum lefts rights
      | _ => rfl
  | quotation left =>
      cases right with
      | quotation right => exact same_ofDatum left right
      | _ => rfl
  | string left => cases right <;> simp [ofDatum, same, Datum.equal, Datum.content?, eq_comm]
  | symbol left => cases right <;> simp [ofDatum, same, Datum.equal, Datum.content?, eq_comm]
  | _ => cases right <;> rfl

/-- Comparing the values of two lists is comparing the lists. -/
theorem allSame_allOfDatum (lefts rights : List Datum) :
    allSame (allOfDatum lefts) (allOfDatum rights) = Datum.allEqual lefts rights := by
  cases lefts with
  | nil => cases rights <;> rfl
  | cons left lefts =>
      cases rights with
      | nil => rfl
      | cons right rights =>
          rw [allOfDatum, allOfDatum, allSame, Datum.allEqual, same_ofDatum left right,
            allSame_allOfDatum lefts rights]

end

end Value

/-- The sink takes everything, and its text ends with the output. -/
structure Prints (base : String) (sink : Sink) (output : String) : Prop where
  accepts : ∀ attempts text piece, sink.refuses attempts text piece = none
  text : sink.text = base ++ output

/-- A piece that is written ends both texts. -/
theorem Prints.write {base output : String} {sink : Sink} (prints : Prints base sink output)
    (piece : String) :
    ∃ after, Sink.write piece sink = .ok () after ∧ Prints base after (output ++ piece) := by
  have taken : Sink.write piece sink =
      .ok () { sink with attempts := sink.attempts + 1, text := sink.text ++ piece } := by
    rw [Sink.write, prints.accepts]
  refine ⟨_, taken, prints.accepts, ?_⟩
  change sink.text ++ piece = base ++ (output ++ piece)
  rw [prints.text, String.append_assoc]

/-- A line is written as a whole. -/
theorem Prints.writeLine {base output : String} {sink : Sink} (prints : Prints base sink output)
    (text : String) :
    ∃ after, Sink.writeLine text sink = .ok () after ∧
      Prints base after (output ++ text ++ "\n") := by
  unfold Sink.writeLine
  split
  · obtain ⟨middle, written, printed⟩ := prints.write text
    obtain ⟨after, ended, last⟩ := printed.write "\n"
    refine ⟨after, ?_, last⟩
    rw [Run.bind_apply, written]
    exact ended
  · rename_i empty
    obtain rfl : text = "" := Decidable.not_not.mp empty
    rw [String.append_empty]
    exact prints.write "\n"

namespace Machine

/-- Both sides refuse an empty list of arguments alike. -/
theorem atLeastOne_map (arguments : List Datum) :
    atLeastOne (arguments.map Value.ofDatum) = (Arity.atLeast 1).check arguments.length := by
  cases arguments with
  | nil => rfl
  | cons argument rest =>
      have accepted : (Arity.atLeast 1).accepts (rest.length + 1) = true := by
        simp [Arity.accepts]
      simp only [List.length_cons, Arity.check, accepted]
      rfl

/-- Both sides take the same data for integers. -/
theorem integer_ofDatum (datum : Datum) : integer (Value.ofDatum datum) = Session.integer datum := by
  cases datum <;> rfl

/-- Both sides take the same arguments for integers. -/
theorem integers_map (arguments : List Datum) :
    integers (arguments.map Value.ofDatum) = Session.integers arguments := by
  rw [integers, List.mapM_map]
  exact congrArg (List.mapM · arguments) (funext integer_ofDatum)

/-- There are two arguments, or both sides refuse the arguments alike. -/
theorem two_cases (arguments : List Datum) :
    (∃ left right, arguments = [left, right]) ∨
      (Arity.exactly 2).check arguments.length = .error (.arityMismatch arguments.length 2) ∧
        two (arguments.map Value.ofDatum) = .error (.arityMismatch arguments.length 2) := by
  match arguments with
  | [] | [_] => exact .inr ⟨rfl, rfl⟩
  | [left, right] => exact .inl ⟨left, right, rfl⟩
  | first :: second :: third :: rest =>
      have refused : (Arity.exactly 2).accepts (rest.length + 3) = false := by
        simp [Arity.accepts]
      refine .inr ⟨?_, ?_⟩
      · simp only [List.length_cons, Arity.check, refused]
        rfl
      · simp [two]

/-- There is one argument, or both sides refuse the arguments alike. -/
theorem one_cases (arguments : List Datum) :
    (∃ argument, arguments = [argument]) ∨
      (Arity.exactly 1).check arguments.length = .error (.arityMismatch arguments.length 1) ∧
        one (arguments.map Value.ofDatum) = .error (.arityMismatch arguments.length 1) := by
  match arguments with
  | [] => exact .inr ⟨rfl, rfl⟩
  | [argument] => exact .inl ⟨argument, rfl⟩
  | first :: second :: rest =>
      have refused : (Arity.exactly 1).accepts (rest.length + 2) = false := by
        simp [Arity.accepts]
      refine .inr ⟨?_, ?_⟩
      · simp only [List.length_cons, Arity.check, refused]
        rfl
      · simp [one]

/-- Sums and products differ in their operation only. -/
theorem fold_map (operation : Int → Int → Int) (start : Int) (arguments : List Datum) :
    (do
      atLeastOne (arguments.map Value.ofDatum)
      return Value.integer ((← integers (arguments.map Value.ofDatum)).foldl operation start)) =
      ((Arity.atLeast 1).check arguments.length >>= fun _ => do
        return Datum.integer ((← Session.integers arguments).foldl operation start)).map
          Value.ofDatum := by
  rw [atLeastOne_map, integers_map]
  cases (Arity.atLeast 1).check arguments.length with
  | error error => rfl
  | ok _ => cases Session.integers arguments <;> rfl

/-- Both sides subtract the same way from at least one number. -/
theorem difference_eq {values : List Int} (some : values ≠ []) :
    Session.difference values = .ok (difference values) := by
  match values with
  | [] => contradiction
  | [_] | _ :: _ :: _ => rfl

/-- Subtraction gives the same difference or the same error. -/
theorem subtract_map (arguments : List Datum) :
    subtract (arguments.map Value.ofDatum) =
      ((Arity.atLeast 1).check arguments.length >>= fun _ => do
        return Datum.integer (← Session.difference (← Session.integers arguments))).map
          Value.ofDatum := by
  rw [subtract, atLeastOne_map, integers_map]
  cases arguments with
  | nil => rfl
  | cons argument rest =>
      rw [← atLeastOne_map, Session.integers, List.mapM_cons]
      cases Session.integer argument with
      | error error => rfl
      | ok first =>
          cases rest.mapM Session.integer with
          | error error => rfl
          | ok others =>
              have split : Session.difference (first :: others) = .ok (difference (first :: others)) :=
                difference_eq (List.cons_ne_nil first others)
              change _ = Except.map Value.ofDatum
                (Session.difference (first :: others) >>= fun value => .ok (Datum.integer value))
              rw [split]
              rfl

/-- Division gives the same quotient or the same error. -/
theorem quotient_map (arguments : List Datum) :
    quotient (arguments.map Value.ofDatum) =
      ((Arity.exactly 2).check arguments.length >>= fun _ => Session.quotient arguments).map
        Value.ofDatum := by
  obtain ⟨left, right, rfl⟩ | ⟨checked, lacking⟩ := two_cases arguments
  · change (do
      let dividend ← integer (Value.ofDatum left)
      let divisor ← integer (Value.ofDatum right)
      if divisor = 0 then .error .divisionByZero else return .integer (dividend.tdiv divisor)) =
        Except.map Value.ofDatum (Session.quotient [left, right])
    rw [integer_ofDatum, integer_ofDatum, Session.quotient, Session.integerPair, Session.two]
    cases dividend : Session.integer left with
    | error error => simp [dividend, bind, Except.bind, Except.map]
    | ok first =>
        cases divisor : Session.integer right with
        | error error => simp [dividend, divisor, bind, Except.bind, Except.map]
        | ok second =>
            by_cases zero : second = 0
            · simp [dividend, divisor, zero, bind, Except.bind, Except.map, pure, Except.pure]
            · simp [dividend, divisor, zero, bind, Except.bind, Except.map, pure, Except.pure,
                Value.ofDatum]
  · rw [checked, quotient, lacking]
    rfl

/-- A comparison gives the same answer or the same error. -/
theorem compare_map (comparison : Int → Int → Bool) (arguments : List Datum) :
    compare comparison (arguments.map Value.ofDatum) =
      ((Arity.exactly 2).check arguments.length >>= fun _ =>
        Session.compare comparison arguments).map Value.ofDatum := by
  obtain ⟨left, right, rfl⟩ | ⟨checked, lacking⟩ := two_cases arguments
  · change (do
      return .boolean (comparison (← integer (Value.ofDatum left))
        (← integer (Value.ofDatum right)))) =
        Except.map Value.ofDatum (Session.compare comparison [left, right])
    rw [integer_ofDatum, integer_ofDatum, Session.compare, Session.integerPair, Session.two]
    cases dividend : Session.integer left with
    | error error => simp [dividend, bind, Except.bind, Except.map]
    | ok first =>
        cases divisor : Session.integer right <;>
          simp [dividend, divisor, bind, Except.bind, Except.map, pure, Except.pure, Value.ofDatum]
  · rw [checked, compare, lacking]
    rfl

/-- Equality gives the same answer or the same error. -/
theorem equal_map (arguments : List Datum) :
    equal (arguments.map Value.ofDatum) =
      ((Arity.exactly 2).check arguments.length >>= fun _ => Session.equal arguments).map
        Value.ofDatum := by
  obtain ⟨left, right, rfl⟩ | ⟨checked, lacking⟩ := two_cases arguments
  · change Except.ok (Value.boolean ((Value.ofDatum left).same (Value.ofDatum right))) = _
    rw [Value.same_ofDatum]
    rfl
  · rw [checked, equal, lacking]
    rfl

/-- The first element of a list is the same, or the same error is given. -/
theorem car_map (arguments : List Datum) :
    car (arguments.map Value.ofDatum) =
      ((Arity.exactly 1).check arguments.length >>= fun _ => Session.car arguments).map
        Value.ofDatum := by
  obtain ⟨argument, rfl⟩ | ⟨checked, lacking⟩ := one_cases arguments
  · cases argument with
    | list elements => cases elements <;> rfl
    | _ => rfl
  · rw [checked, car, lacking]
    rfl

/-- The rest of a list is the same, or the same error is given. -/
theorem cdr_map (arguments : List Datum) :
    cdr (arguments.map Value.ofDatum) =
      ((Arity.exactly 1).check arguments.length >>= fun _ => Session.cdr arguments).map
        Value.ofDatum := by
  obtain ⟨argument, rfl⟩ | ⟨checked, lacking⟩ := one_cases arguments
  · cases argument with
    | list elements => cases elements <;> rfl
    | _ => rfl
  · rw [checked, cdr, lacking]
    rfl

/-- Both sides display the same line. -/
theorem follows_display {slack : Slack} {base : String} (arguments : List Datum) :
    Run.Follows slack (fun datum value => value = Value.ofDatum datum) (Prints base) (Prints base)
      (Session.apply .display arguments) (display (arguments.map Value.ofDatum)) := by
  intro sink output prints
  obtain ⟨argument, rfl⟩ | ⟨checked, lacking⟩ := one_cases arguments
  · obtain ⟨after, written, printed⟩ := prints.writeLine (Value.ofDatum argument).shown
    have applied : Session.apply .display [argument] sink = .ok .void after := by
      change (Sink.writeLine (Value.ofDatum argument).shown >>= fun _ => pure Datum.void) sink = _
      rw [Run.bind_apply, written]
      rfl
    rw [applied]
    exact .inl ⟨rfl, printed⟩
  · have applied : Session.apply .display arguments sink =
        .error (.arityMismatch arguments.length 1) sink := by
      change (Run.ofExcept ((Arity.exactly 1).check arguments.length) >>= _) sink = _
      rw [checked]
      rfl
    rw [applied, display, lacking]
    exact .inl ⟨rfl, prints⟩

/-- A predefined procedure that displays nothing does the same if its results do. -/
theorem follows_pureHost {slack : Slack} {base : String} {builtin : Builtin}
    {arguments : List Datum} {result : Except RunError Datum} {values : Except RunError Value}
    (called : Session.call arguments builtin = Run.ofExcept result)
    (agreed : values = (builtin.arity.check arguments.length >>= fun _ => result).map Value.ofDatum) :
    Run.Follows slack (fun datum value => value = Value.ofDatum datum) (Prints base) (Prints base)
      (Session.apply builtin arguments) (Run.ofExcept values) := by
  intro sink output prints
  rw [Session.apply, called, agreed]
  cases builtin.arity.check arguments.length with
  | error error => exact .inl ⟨rfl, prints⟩
  | ok _ =>
      cases result with
      | error error => exact .inl ⟨rfl, prints⟩
      | ok datum => exact .inl ⟨rfl, prints⟩

/-- A predefined procedure does the same on the values of a compiled program, and displays the
same. -/
theorem follows_host {slack : Slack} {base : String} (builtin : Builtin) (arguments : List Datum) :
    Run.Follows slack (fun datum value => value = Value.ofDatum datum) (Prints base) (Prints base)
      (Session.apply builtin arguments) (host (arguments.map Value.ofDatum) builtin) := by
  cases builtin with
  | add => exact follows_pureHost rfl (fold_map (· + ·) 0 arguments)
  | subtract => exact follows_pureHost rfl (subtract_map arguments)
  | multiply => exact follows_pureHost rfl (fold_map (· * ·) 1 arguments)
  | quotient => exact follows_pureHost rfl (quotient_map arguments)
  | less => exact follows_pureHost rfl (compare_map _ arguments)
  | lessEqual => exact follows_pureHost rfl (compare_map _ arguments)
  | greater => exact follows_pureHost rfl (compare_map _ arguments)
  | greaterEqual => exact follows_pureHost rfl (compare_map _ arguments)
  | numericEqual => exact follows_pureHost rfl (compare_map _ arguments)
  | equal => exact follows_pureHost rfl (equal_map arguments)
  | car => exact follows_pureHost rfl (car_map arguments)
  | cdr => exact follows_pureHost rfl (cdr_map arguments)
  | list =>
      have collected : (Except.ok (.list (arguments.map Value.ofDatum)) : Except RunError Value) =
          (Builtin.list.arity.check arguments.length >>= fun _ => .ok (.list arguments)).map
            Value.ofDatum := by
        change _ = Except.ok (Value.list (Value.allOfDatum arguments))
        rw [Value.allOfDatum_eq_map]
      exact follows_pureHost rfl collected
  | display => exact follows_display arguments

/-- Predefined procedures need no fuel. -/
theorem host_finishes (arguments : List Value) (builtin : Builtin) (output : String) :
    host arguments builtin output ≠ .outOfFuel := by
  have pure (result : Except RunError Value) :
      (Run.ofExcept result : Run String Value) output ≠ .outOfFuel := by
    cases result <;> simp [Run.ofExcept, Run.pure, Run.fail]
  cases builtin with
  | display =>
      rw [host, display]
      cases one arguments <;>
        simp [Run.bind_apply, Run.ofExcept, Run.pure, Run.fail, Run.update, Run.pure_apply]
  | list => exact pure (.ok (.list arguments))
  | _ => exact pure _

/-- The result of a computation that ends, with the state after it. -/
def result {A : Type} (run : Run Machine A) (machine : Machine) :
    Option (Except RunError A × Machine) :=
  match run machine with
  | .ok value after => some (.ok value, after)
  | .error error after => some (.error error, after)
  | .outOfFuel => none

/-- A predefined procedure of a session and the function of its host name end alike on the same
arguments: with the same error, or with a datum and the value of that datum. What the session writes is
what the function displays, and the function changes nothing else. -/
theorem apply_agrees_host (builtin : Builtin) (arguments : List Datum) (sink : Sink)
    (accepts : ∀ attempts text piece, sink.refuses attempts text piece = none)
    (machine : Machine) :
    Builtin.ofHost? builtin.host = some builtin ∧
      ∃ after written, after.text = sink.text ++ written ∧
        ((∃ datum, Session.apply builtin arguments sink = .ok datum after ∧
            capture (result (displaying (host (arguments.map Value.ofDatum) builtin))) machine =
              some ((.ok (Value.ofDatum datum), written), machine)) ∨
          ∃ error, Session.apply builtin arguments sink = .error error after ∧
            capture (result (displaying (host (arguments.map Value.ofDatum) builtin))) machine =
              some ((.error error, written), machine)) := by
  refine ⟨by cases builtin <;> rfl, ?_⟩
  have prints : Prints sink.text sink "" := ⟨accepts, String.append_empty.symm⟩
  have agreed : Outcome.Agrees .strict _ _ _ _ := follows_host builtin arguments sink "" prints
  rcases agreed.cases_of_strict (host_finishes _ builtin "") with
    ⟨datum, after, _, written, applied, called, rfl, printed⟩ |
      ⟨error, after, written, applied, called, printed⟩
  · refine ⟨after, written, printed.text, .inl ⟨datum, applied, ?_⟩⟩
    simp [capture, result, displaying, Run.within, called]
  · refine ⟨after, written, printed.text, .inr ⟨error, applied, ?_⟩⟩
    simp [capture, result, displaying, Run.within, called]

/-- A list with a symbol, a string and a quoted vector. -/
def mixedList : Datum :=
  .list [.symbol "a", .string "b c", .quotation (.vector [.character ' '])]

/-- Both sides display the list alike, with the symbol and the string unquoted. -/
theorem display_agrees_on_mixedList :
    ∃ after written, after.text = "> " ++ written ∧
      Session.apply .display [mixedList] ⟨fun _ _ _ => none, 0, "> "⟩ = .ok .void after ∧
      capture (result (displaying (host [Value.ofDatum mixedList] .display))) (.ofCode .empty) =
        some ((.ok .void, written), .ofCode .empty) ∧
      written = "(a b c '#(#\\space))\n" := by
  obtain ⟨_, after, written, text, agrees⟩ :=
    apply_agrees_host .display [mixedList] ⟨fun _ _ _ => none, 0, "> "⟩ (fun _ _ _ => rfl)
      (.ofCode .empty)
  rcases agrees with ⟨datum, applied, captured⟩ | ⟨error, failed, _⟩
  · cases applied
    refine ⟨_, written, text, rfl, captured, ?_⟩
    cases captured
    rfl
  · cases failed

end Machine

end SmallScheme
