/-
This file follows a session to the application at which it misses a procedure, and says what a
session does there that evaluates the operands first.
-/

import SmallScheme.Proofs.Session.Errors
import SmallScheme.Proofs.Session.Trace

namespace SmallScheme

namespace Traced

variable {A B : Type} {first : Traced A} {next : A → Traced B} {session after : Session}

/-- A note stands before the notes of what follows it. -/
theorem note_bind (event : Session → Event) (traced : Traced A) :
    (note event >>= fun _ => traced) session =
      ((traced session).1, event session :: (traced session).2) := rfl

/-- After a silent value only the rest takes notes. -/
theorem silent_bind_ok {computation : Run Session A} {value : A}
    (ended : computation session = .ok value after) :
    (silent computation >>= next) session = next value after := by
  change Traced.bind (silent computation) next session = _
  rw [Traced.bind, silent, ended]
  rfl

/-- After a silent error nothing is noted. -/
theorem silent_bind_error {computation : Run Session A} {error : RunError}
    (ended : computation session = .error error after) :
    (silent computation >>= next) session = (.error error after, []) := by
  change Traced.bind (silent computation) next session = _
  rw [Traced.bind, silent, ended]

/-- A sequence notes what its first part notes and then what its second part notes. -/
theorem events_bind_ok {value : A} (ended : first.run session = .ok value after) :
    ((first >>= next) session).2 = (first session).2 ++ (next value after).2 := by
  change (Traced.bind first next session).2 = _
  unfold Traced.bind
  rcases result : first session with ⟨outcome, events⟩
  rw [run, result] at ended
  cases ended
  rfl

/-- A sequence that fails in its first part notes no more. -/
theorem events_bind_error {error : RunError} (ended : first.run session = .error error after) :
    ((first >>= next) session).2 = (first session).2 := by
  change (Traced.bind first next session).2 = _
  unfold Traced.bind
  rcases result : first session with ⟨outcome, events⟩
  rw [run, result] at ended
  cases ended
  rfl

end Traced

namespace Session

open RunError

/-- The outcome of an application whose procedure is missing after its operands. -/
def unresolved {A : Type} (name : String) (leave : Session → Session) :
    Outcome Session (List Datum) → Outcome Session A
  | .ok _ session => .error (.undefinedProcedure name) (leave session)
  | .error error session => .error error (leave session)
  | .outOfFuel => .outOfFuel

/-- Such an application fails for want of its procedure, unless its operands fail otherwise. -/
theorem unresolved_eq_iff {A : Type} {name : String} {leave : Session → Session}
    {outcome : Outcome Session (List Datum)} {last : Session} :
    (unresolved name leave outcome : Outcome Session A) = .error (.undefinedProcedure name) last ↔
      ∃ after, leave after = last ∧
        ((∃ values, outcome = .ok values after) ∨
          outcome = .error (.undefinedProcedure name) after) := by
  cases outcome with
  | ok values after => simp [unresolved]
  | error error after =>
      simp only [unresolved, Outcome.error.injEq, reduceCtorEq, exists_false, false_or]
      constructor
      · rintro ⟨rfl, rfl⟩
        exact ⟨after, rfl, rfl, rfl⟩
      · rintro ⟨_, rfl, rfl, rfl⟩
        exact ⟨rfl, rfl⟩
  | outOfFuel => simp [unresolved]

/-- Evaluated before the procedure is looked up, the operands display nothing, and they end with
values or miss the same procedure. -/
def Harmless (name : String) (operands : List Expression) (session : Session) : Prop :=
  ∃ fuel after, after.sink.text = session.sink.text ∧
    ((∃ values, Run.all (evaluateIn .operandsFirst fuel) operands session = .ok values after) ∨
      Run.all (evaluateIn .operandsFirst fuel) operands session =
        .error (.undefinedProcedure name) after)

/-- The late runs do from the session what the traced run does. Where that one misses a procedure,
they go on with the operands of the application that it noted last. -/
structure Delays {A : Type} (traced : Traced A) (late : Nat → Run Session A) (session : Session) :
    Prop where
  ended : ∀ value after, traced.run session = .ok value after →
    ∀ extra, late extra session = .ok value after
  missed : ∀ name after, traced.run session = .error (.undefinedProcedure name) after →
    ∃ operands point leave fuel,
      (traced session).2.getLast? = some (.applies name operands point) ∧
        point.sink = after.sink ∧ (∀ state, Session.sink (leave state) = state.sink) ∧
          ∀ extra, late extra session = unresolved name leave
            (Run.all (evaluateIn .operandsFirst (fuel + extra)) operands point)

/-- The late evaluators do what the traced one does, up to a procedure that it misses. -/
def Postpones (evaluator : Expression → Traced Datum) (late : Nat → Expression → Run Session Datum) :
    Prop :=
  ∀ expression session, Delays (evaluator expression) (late · expression) session

section Delays

variable {A B : Type} {session : Session}

/-- A run that misses no procedure is the same if it is late. -/
theorem Delays.of_avoids {run : Run Session A} (avoids : Run.Avoids run) (session : Session) :
    Delays (.silent run) (fun _ => run) session :=
  ⟨fun _ _ ended _ => ended, fun name after missing => absurd missing (avoids session name after)⟩

/-- Runs that do the same from the session are delayed alike. -/
theorem Delays.congr {traced other : Traced A} {late later : Nat → Run Session A}
    (delays : Delays other later session) (same : traced session = other session)
    (sameLate : ∀ extra, late extra session = later extra session) :
    Delays traced late session := by
  have ran : traced.run session = other.run session := congrArg Prod.fst same
  refine ⟨?_, ?_⟩
  · intro value after ended extra
    rw [sameLate]
    exact delays.ended value after (ran ▸ ended) extra
  · intro name after missing
    rw [same]
    simp only [sameLate]
    exact delays.missed name after (ran ▸ missing)

/-- A note before a run is not the last one if the run misses a procedure. -/
theorem Delays.note {traced : Traced A} {late : Nat → Run Session A}
    (delays : Delays traced late session) (event : Session → Event) :
    Delays (Traced.note event >>= fun _ => traced) late session := by
  refine ⟨delays.ended, ?_⟩
  intro name after missing
  obtain ⟨operands, point, leave, fuel, last, rest⟩ := delays.missed name after missing
  refine ⟨operands, point, leave, fuel, ?_, rest⟩
  change (event session :: (traced session).2).getLast? = _
  rw [List.getLast?_cons, last]
  rfl

/-- A sequence is delayed if its first part is, and its second part from every value. -/
theorem Delays.bind {first : Traced A} {next : A → Traced B} {late : Nat → Run Session A}
    {lateNext : A → Nat → Run Session B} (head : Delays first late session)
    (rests : ∀ value after, Delays (next value) (lateNext value) after) :
    Delays (first >>= next) (fun extra => late extra >>= fun value => lateNext value extra)
      session := by
  refine ⟨?_, ?_⟩
  · intro value after ended extra
    rw [Traced.run_bind, Run.bind_eq_ok] at ended
    obtain ⟨given, middle, ran, ended⟩ := ended
    rw [Run.bind_apply, head.ended given middle ran extra]
    exact (rests given middle).ended value after ended extra
  · intro name after missing
    rw [Traced.run_bind, Run.bind_eq_error] at missing
    rcases missing with ran | ⟨given, middle, ran, missing⟩
    · obtain ⟨operands, point, leave, fuel, last, same, kept, goesOn⟩ :=
        head.missed name after ran
      refine ⟨operands, point, leave, fuel, ?_, same, kept, ?_⟩
      · rw [Traced.events_bind_error ran]
        exact last
      · intro extra
        rw [Run.bind_apply, goesOn extra]
        cases Run.all (evaluateIn .operandsFirst (fuel + extra)) operands point <;> rfl
    · obtain ⟨operands, point, leave, fuel, last, same, kept, goesOn⟩ :=
        (rests given middle).missed name after missing
      refine ⟨operands, point, leave, fuel, ?_, same, kept, ?_⟩
      · rw [Traced.events_bind_ok ran, List.getLast?_append, last]
        rfl
      · intro extra
        rw [Run.bind_apply, head.ended given middle ran extra]
        exact goesOn extra

/-- A value is there at once. -/
theorem Delays.pure (value : A) (session : Session) :
    Delays (pure value) (fun _ => pure value) session :=
  .of_avoids (Run.avoids_ofExcept (RunError.raises_ok value)) session

/-- A run between two changes is delayed if it is after the first one. -/
theorem Delays.between {enter leave : Session → Session} {traced : Traced A}
    {late : Nat → Run Session A} (kept : ∀ state, (leave state).sink = state.sink)
    (inside : Delays traced late (enter session)) :
    Delays (Traced.between enter leave traced)
      (fun extra => Run.between enter leave (late extra)) session := by
  refine ⟨?_, ?_⟩
  · intro value after ended extra
    rw [Traced.run_between] at ended
    obtain ⟨later, ran, rfl⟩ := Run.between_eq_ok ended
    rw [Run.between, inside.ended value later ran extra]
  · intro name after missing
    rw [Traced.run_between, Run.between] at missing
    cases ran : traced.run (enter session) with
    | error error later =>
        rw [ran] at missing
        cases missing
        obtain ⟨operands, point, leaveInside, fuel, last, same, keptInside, goesOn⟩ :=
          inside.missed name later ran
        refine ⟨operands, point, leave ∘ leaveInside, fuel, last, ?_, ?_, ?_⟩
        · rw [same, kept]
        · exact fun state => (kept _).trans (keptInside state)
        · intro extra
          rw [Run.between, goesOn extra]
          cases Run.all (evaluateIn .operandsFirst (fuel + extra)) operands point <;> rfl
    | _ =>
        rw [ran] at missing
        exact nomatch missing

/-- Collected values are delayed if each of them is. -/
theorem Delays.all {traced : A → Traced B} {late : Nat → A → Run Session B}
    (delays : ∀ item session, Delays (traced item) (late · item) session) (items : List A)
    (session : Session) :
    Delays (Traced.all traced items) (fun extra => Run.all (late extra) items) session := by
  induction items generalizing session with
  | nil => exact .pure [] session
  | cons item rest ih =>
      refine (delays item session).bind fun value after => ?_
      exact (ih after).bind fun values last => .pure (value :: values) last

/-- Runs over some items are delayed if each of them is. -/
theorem Delays.each {traced : A → Traced Unit} {late : Nat → A → Run Session Unit}
    (delays : ∀ item session, Delays (traced item) (late · item) session) (items : List A)
    (session : Session) :
    Delays (Traced.each traced items) (fun extra => Run.each (late extra) items) session := by
  induction items generalizing session with
  | nil => exact .pure () session
  | cons item rest ih => exact (delays item session).bind fun _ after => ih after

end Delays

section Evaluation

variable {recur : List Activation → Expression → Traced Datum}
  {late : Nat → Expression → Run Session Datum}

/-- A conditional is delayed with its parts. -/
theorem delays_conditional {evaluator : Expression → Traced Datum}
    (delays : Postpones evaluator late)
    (operands : List Expression) (session : Session) :
    Delays (tracedConditional evaluator operands)
      (fun extra => conditional (late extra) operands) session := by
  have unfit (given : Nat) : Run.Avoids (Run.fail (.arityMismatch given 3) : Run Session Datum) :=
    Run.avoids_fail fun _ => nofun
  match operands with
  | [condition, consequent, alternative] =>
      refine (delays condition session).bind fun value after => ?_
      cases value.isTrue
      · exact delays alternative after
      · exact delays consequent after
  | [] | [_] | [_, _] | _ :: _ :: _ :: _ :: _ => exact .of_avoids (unfit _) session

/-- An internal variable is delayed with its value. -/
theorem delays_bindValue {evaluator : Expression → Traced Datum}
    (delays : Postpones evaluator late)
    (definition : String × Expression) (session : Session) :
    Delays (tracedBind evaluator definition)
      (fun extra => bindValue (late extra) definition) session :=
  (delays definition.2 session).bind fun _ after => .of_avoids (avoids_update _) after

/-- Internal variables are delayed with their values. -/
theorem delays_values {inner : Nat → Expression → Traced Datum}
    (delays : ∀ defined, Postpones (inner defined) late)
    (defined : Nat) (values : List (String × Expression)) (session : Session) :
    Delays (tracedValues inner defined values)
      (fun extra => Run.each (bindValue (late extra)) values) session := by
  induction values generalizing defined session with
  | nil => exact .pure () session
  | cons definition rest ih =>
      exact (delays_bindValue (delays defined) definition session).bind fun _ after =>
        ih (defined + 1) after

/-- The body of a call is delayed with its parts. -/
theorem delays_body {inner : Nat → Expression → Traced Datum}
    (delays : ∀ defined, Postpones (inner defined) late)
    (procedure : Procedure) (session : Session) :
    Delays (tracedBody inner procedure) (fun extra => callBody (late extra) procedure) session := by
  refine (delays_values delays 0 procedure.values session).bind fun _ middle => ?_
  refine (Delays.each ?_ procedure.effects middle).bind fun _ last => delays _ _ last
  exact fun effect state => (delays _ effect state).bind fun _ after => .pure () after

/-- A call is delayed with the body of what it calls. -/
theorem delays_invoke
    (delays : ∀ calls, Postpones (recur calls) late)
    (calls : List Activation) (arguments : List Datum) (callable : Callable) (session : Session) :
    Delays (tracedInvoke recur calls arguments callable)
      (fun extra => invoke (late extra) arguments callable) session := by
  cases callable with
  | builtin builtin => exact .of_avoids (avoids_apply builtin arguments) session
  | code procedure =>
      simp only [tracedInvoke, invoke, tracedCall, callCode]
      split
      · exact .between (fun _ => rfl) (delays_body (fun _ => delays _) procedure _)
      · refine .of_avoids (Run.avoids_fail ?_) session
        intro name same
        cases same

/-- Operands leave the environment as it was. -/
theorem environment_of_all {order : Order} {fuel : Nat} {operands : List Expression}
    {session after : Session} {values : List Datum}
    (ended : Run.all (evaluateIn order fuel) operands session = .ok values after) :
    after.environment = session.environment := by
  have mirrors : Mirrors .firstFuel (evaluateIn order fuel) (evaluateIn order fuel) :=
    evaluateIn_mirrors rfl (.same order) (Nat.le_refl fuel)
  have agreed := follows_operands mirrors (.refl session.environment) operands session session
    ⟨rfl, rfl, rfl⟩
  rw [ended] at agreed
  obtain ⟨_, _, _, _, step⟩ := agreed.exists_ok fun _ => id
  exact step.first

/-- An application whose procedure is missing evaluates its operands first if it is late. -/
theorem applyIn_missing {fuel : Nat} {name : String} {operands : List Expression}
    {session : Session} (missing : session.environment.procedure? name = none) :
    applyIn .operandsFirst (evaluateIn .operandsFirst fuel) name operands session =
      unresolved name id (Run.all (evaluateIn .operandsFirst fuel) operands session) := by
  rw [applyIn, Run.bind_apply]
  cases ended : Run.all (evaluateIn .operandsFirst fuel) operands session with
  | ok values after =>
      have missingAfter : after.environment.procedure? name = none := by
        rw [environment_of_all ended, missing]
      exact read_findProcedure_bind_none missingAfter _
  | error error after => rfl
  | outOfFuel => rfl

/-- An application whose procedure is known calls it after its operands. -/
theorem applyIn_found {fuel : Nat} {name : String} {operands : List Expression}
    {session : Session} {callable : Callable}
    (found : session.environment.procedure? name = some callable) :
    applyIn .operandsFirst (evaluateIn .operandsFirst fuel) name operands session =
      (Run.all (evaluateIn .operandsFirst fuel) operands >>= fun arguments =>
        invoke (evaluateIn .operandsFirst fuel) arguments callable) session := by
  rw [applyIn, Run.bind_apply, Run.bind_apply]
  cases ended : Run.all (evaluateIn .operandsFirst fuel) operands session with
  | ok values after =>
      have foundAfter : after.environment.procedure? name = some callable := by
        rw [environment_of_all ended, found]
      exact read_findProcedure_bind foundAfter _
  | error error after => rfl
  | outOfFuel => rfl

/-- A late application evaluates its operands where the early one misses its procedure. -/
theorem delays_apply {fuel : Nat}
    (delays : ∀ calls, Postpones (recur calls) fun extra =>
      evaluateIn .operandsFirst (fuel + extra))
    (calls : List Activation) (name : String) (operands : List Expression) (session : Session) :
    Delays (tracedApply recur calls name operands)
      (fun extra => applyIn .operandsFirst (evaluateIn .operandsFirst (fuel + extra)) name operands)
      session := by
  cases found : session.environment.procedure? name with
  | none =>
      have looked : Run.read (findProcedure name) session =
          .error (.undefinedProcedure name) session := by
        rw [Run.read, findProcedure, found]
        rfl
      have ran : tracedApply recur calls name operands session =
          (.error (.undefinedProcedure name) session, [.applies name operands session]) := by
        rw [tracedApply, Traced.note_bind, Traced.silent_bind_error looked]
      refine ⟨?_, ?_⟩
      · intro value after ended
        rw [Traced.run, ran] at ended
        cases ended
      · intro other after missing
        rw [Traced.run, ran] at missing
        cases missing
        refine ⟨operands, session, id, fuel, ?_, rfl, fun _ => rfl, fun _ => applyIn_missing found⟩
        rw [ran]
        rfl
  | some callable =>
      have looked : Run.read (findProcedure name) session = .ok callable session := by
        rw [Run.read, findProcedure, found]
        rfl
      refine Delays.note ?_ (.applies name operands)
      have called := (Delays.all (delays calls) operands session).bind fun arguments after =>
        delays_invoke delays calls arguments callable after
      exact called.congr (Traced.silent_bind_ok looked) fun _ => applyIn_found found

/-- One level of evaluation is delayed with the levels below it. -/
theorem delays_with {fuel : Nat}
    (delays : ∀ calls, Postpones (recur calls) fun extra =>
      evaluateIn .operandsFirst (fuel + extra))
    (calls : List Activation) (expression : Expression) (session : Session) :
    Delays (tracedWith recur calls expression)
      (fun extra => evaluateWithIn .operandsFirst (evaluateIn .operandsFirst (fuel + extra))
        expression) session := by
  cases expression with
  | constant literal => exact .of_avoids (Run.avoids_ofExcept (raises_ofLiteral literal)) session
  | quotation quoted => exact .of_avoids (Run.avoids_ofExcept (raises_ofQuoted quoted)) session
  | identifier name => exact .note (.of_avoids (avoids_lookup name) session) _
  | application procedure operands =>
      simp only [tracedWith, evaluateWithIn]
      split
      · exact delays_conditional (delays calls) operands session
      · exact delays_apply delays calls procedure operands session

/-- A late evaluation goes on where a session misses a procedure. -/
theorem delays_traced (fuel : Nat) (calls : List Activation) (expression : Expression)
    (session : Session) :
    Delays (traced fuel calls expression)
      (fun extra => evaluateIn .operandsFirst (fuel + extra) expression) session := by
  induction fuel generalizing calls expression session with
  | zero => exact ⟨nofun, nofun⟩
  | succ fuel ih =>
      simp only [Nat.add_right_comm fuel 1]
      exact delays_with ih calls expression session

/-- A late definition goes on where a session misses a procedure. -/
theorem delays_definition (fuel : Nat) (definition : Definition) (session : Session) :
    Delays (tracedDefinition fuel definition)
      (fun extra => performDefinition (evaluateIn .operandsFirst (fuel + extra)) definition)
      session := by
  cases definition with
  | value name expression => exact delays_bindValue (delays_traced fuel []) (name, expression) session
  | procedure procedure => exact .of_avoids (avoids_update _) session

mutual

/-- A late form goes on where a session misses a procedure. -/
theorem delays_form (fuel : Nat) (form : Form) (session : Session) :
    Delays (tracedForm fuel form)
      (fun extra => perform (evaluateIn .operandsFirst (fuel + extra)) form) session := by
  cases form with
  | expression expression =>
      exact (delays_traced fuel [] expression session).bind fun value after => .pure [value] after
  | definition definition =>
      exact (delays_definition fuel definition session).bind fun _ after => .pure [] after
  | begin forms => exact delays_forms fuel forms session

/-- Late forms go on where a session misses a procedure. -/
theorem delays_forms (fuel : Nat) (forms : List Form) (session : Session) :
    Delays (tracedForms fuel forms)
      (fun extra => performAll (evaluateIn .operandsFirst (fuel + extra)) forms) session := by
  cases forms with
  | nil => exact .pure [] session
  | cons form rest =>
      refine (delays_form fuel form session).bind fun values middle => ?_
      exact (delays_forms fuel rest middle).bind fun others after => .pure (values ++ others) after

end

/-- Where a session misses a procedure, late forms fail with the same error after the same output
exactly if the operands of the application are harmless. -/
theorem performAll_missing_iff {fuel : Nat} {forms : List Form} {session after : Session}
    {name : String}
    (failed : (tracedForms fuel forms).run session = .error (.undefinedProcedure name) after) :
    ∃ operands point,
      (tracedForms fuel forms session).2.getLast? = some (.applies name operands point) ∧
        ((∃ more last, performAll (evaluateIn .operandsFirst more) forms session =
            .error (.undefinedProcedure name) last ∧ last.sink.text = after.sink.text) ↔
          Harmless name operands point) := by
  have mirrors {less more : Nat} (enough : less ≤ more) : Mirrors .firstFuel
      (evaluateIn .operandsFirst less) (evaluateIn .operandsFirst more) :=
    evaluateIn_mirrors rfl (.same .operandsFirst) enough
  obtain ⟨operands, point, leave, inner, noted, same, kept, goesOn⟩ :=
    (delays_forms fuel forms session).missed name after failed
  refine ⟨operands, point, noted, ?_, ?_⟩
  · rintro ⟨more, last, ran, displayed⟩
    have agreed := follows_performAll_same (mirrors (Nat.le_add_left more fuel)) forms session
      session rfl
    rw [ran] at agreed
    have missed := agreed.eq_of_firstFuel nofun
    obtain ⟨quiet, rfl, ended⟩ := unresolved_eq_iff.mp ((goesOn more).symm.trans missed)
    refine ⟨inner + more, quiet, ?_, ended⟩
    rw [← kept quiet, displayed, same]
  · rintro ⟨more, quiet, silent, ended⟩
    have agreed := (mirrors (Nat.le_add_left more inner)).follows_all operands point point rfl
    have finished : Run.all (evaluateIn .operandsFirst more) operands point ≠ .outOfFuel := by
      rcases ended with ⟨values, ended⟩ | ended <;> rw [ended] <;> exact nofun
    rw [← agreed.eq_of_firstFuel finished] at ended
    refine ⟨fuel + more, leave quiet, ?_, ?_⟩
    · exact (goesOn more).trans (unresolved_eq_iff.mpr ⟨quiet, rfl, ended⟩)
    · rw [kept, silent, same]

end Evaluation

end Session

end SmallScheme
