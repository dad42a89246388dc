/-
This file shows that the body of a compiled procedure does what a call in a session does, if the code
of its parts does.
-/

import SmallScheme.Proofs.Compiler.Expressions
import SmallScheme.Proofs.Machine.Frames
import SmallScheme.Proofs.Session.Loop

namespace SmallScheme.Compiler

/-- A predefined procedure changes what was displayed and nothing else. -/
theorem follows_hostCall {slack : Slack} {base : String} {environment : Environment}
    {image : Machine} (builtin : Builtin) (arguments : List Datum) :
    Run.Follows slack SameValue (Linked base environment image) (Linked base environment image)
      (Session.writing (Session.apply builtin arguments))
      (Machine.displaying (Machine.host (arguments.map Value.ofDatum) builtin)) := by
  have parts : Run.Follows slack SameValue (Prints base) (Prints base)
      (Session.apply builtin arguments) (Machine.host (arguments.map Value.ofDatum) builtin) :=
    Machine.follows_host builtin arguments
  refine Run.follows_within ?_ ?_ parts
  · exact fun session machine linked => linked.prints
  · intro session machine sink output linked prints
    refine ⟨linked.environment, ?_, prints⟩
    rw [linked.image]

/-- The frames of the machine while a call is in progress: a procedure that publishes shows its
dynamic locals in a frame of the given number, and another one adds nothing. -/
inductive Shown (analysis : Analysis) (procedure : Procedure) (below : Frames)
    (frame : Table Datum) : Option Nat → Frames → Prop
  | concealed {number : Option Nat} (conceals : analysis.publishes procedure = false) :
      Shown analysis procedure below frame number below
  | published {top : List (String × Value)} (publishes : analysis.publishes procedure = true)
      (shows : ∀ name, analysis.isDynamic name = true →
        top.lookup name = (frame.find? name).map Value.ofDatum) :
      Shown analysis procedure below frame (some (below.stack.length + 1)) ⟨top :: below.stack⟩

/-- The frame binds no other names than the locals of the procedure. -/
def BindsLocals (procedure : Procedure) (frame : Table Datum) : Prop :=
  ∀ name, (frame.find? name).isSome → name ∈ procedure.locals

section Call

variable {program : Program} {functions : List Code.Function} {slack : Slack} {base : String}
  {recur : Expression → Run Session Datum} {call : Callee → List Value → Run Machine Value}
  {environment : Environment} {image : Machine} {procedure : Procedure}

/-- The machine represents the session inside a call too. -/
theorem Represents.inside (represents : Represents program functions environment image)
    (member : procedure ∈ program.procedures) {frame : Table Datum} {frames : Frames}
    {number : Option Nat} (binds : BindsLocals procedure frame)
    (shown : Shown (Analysis.ofProgram program) procedure image.frames frame number frames) :
    Represents program functions (environment.pushFrame frame)
      { image with frames := frames } where
  globals := represents.globals
  undeclared := represents.undeclared
  procedures := represents.procedures
  builtins := represents.builtins
  frames name dynamic := by
    rw [Environment.local?_pushFrame]
    cases shown with
    | concealed conceals =>
        have absent : frame.find? name = none := by
          cases found : frame.find? name with
          | none => rfl
          | some datum =>
              have bound : name ∈ procedure.locals := binds name (by rw [found]; rfl)
              have publishes := Analysis.publishes_of_local dynamic bound
              rw [conceals] at publishes
              contradiction
        rw [absent, Option.none_or]
        exact represents.frames name dynamic
    | published publishes shows =>
        have below := represents.frames name dynamic
        change (⟨_ :: image.frames.stack⟩ : Frames).find? name = _
        rw [Frames.find?_cons, shows name dynamic]
        cases frame.find? name with
        | some datum => rfl
        | none => exact below
  locals name found := by
    rw [Environment.local?_pushFrame] at found
    cases bound : frame.find? name with
    | some datum => exact ⟨procedure, member, binds name (by rw [bound]; rfl)⟩
    | none =>
        rw [bound, Option.none_or] at found
        exact represents.locals name found

/-- The effects of a call come before its result. -/
theorem follows_effects (represents : Represents program functions environment image)
    {scope : Scope} {locals : Machine.Locals} (holds : scope.Holds locals environment)
    {effects : List Expression} {result : Expression} {codes : List Code.Expr} {code : Code.Tail}
    (simulates : ∀ part ∈ effects ++ [result],
      SimulatesAt program functions slack base recur call part)
    (unhidden : ∀ part ∈ effects ++ [result], Unhidden program environment scope part)
    (emits : EmitsAll (Analysis.ofProgram program) functions scope effects codes)
    (returns : EmitsTail (Analysis.ofProgram program) functions scope result code)
    (arguments : List Value) :
    Run.Follows slack SameValue (Linked base environment image) (Linked base environment image)
      (Run.each (fun effect => do let _ ← recur effect) effects >>= fun _ => recur result)
      (Machine.plain call arguments code locals (codes.map .effect)) := by
  induction effects generalizing codes with
  | nil =>
      cases emits
      rw [List.map_nil, Machine.plain]
      have last := simulates result (by simp)
      exact last.tail represents holds (unhidden result (by simp)) returns
  | cons effect rest ih =>
      rw [List.cons_append, List.forall_mem_cons] at simulates unhidden
      cases emits with
      | cons first others =>
          rw [Run.each, Run.bind_assoc, Run.bind_assoc, List.map_cons, Machine.plain]
          refine Run.follows_bind (simulates.1.value represents holds unhidden.1 first) ?_
            fun _ _ linked => linked
          intro _ _ _
          exact ih simulates.2 unhidden.2 others

/-- The session is inside a call, and the frames of the machine are those of the call. -/
def InBody (program : Program) (base : String) (environment : Environment) (image : Machine)
    (procedure : Procedure) (session : Session) (machine : Machine) : Prop :=
  ∃ frame frames number, Shown (Analysis.ofProgram program) procedure image.frames frame number
    frames ∧ Linked base (environment.pushFrame frame) { image with frames := frames } session machine

/-- A procedure that publishes nothing publishes none of its locals. -/
theorem flatMap_publishIf_of_concealed {analysis : Analysis} {names : List String}
    (conceals : analysis.publishes procedure = false)
    (members : ∀ name ∈ names, name ∈ procedure.locals) :
    names.flatMap (publishIf analysis) = [] := by
  rw [List.flatMap_eq_nil_iff]
  intro name member
  cases dynamic : analysis.isDynamic name with
  | false => simp [publishIf, dynamic]
  | true =>
      have publishes := Analysis.publishes_of_local dynamic (members name member)
      rw [conceals] at publishes
      contradiction

/-- Locals that join the frame of the session are published if they are dynamic. -/
theorem shown_publish {names : List String} (members : ∀ name ∈ names, name ∈ procedure.locals)
    {frame later : Table Datum} {frames : Frames} (locals : Machine.Locals)
    (shown : Shown (Analysis.ofProgram program) procedure image.frames frame locals.frame frames)
    (held : ∀ name ∈ names, ∃ datum, later.find? name = some datum ∧
      locals.held.lookup name = some (Value.ofDatum datum))
    (kept : ∀ name, name ∉ names → later.find? name = frame.find? name)
    (arguments : List Value) (result : Code.Tail) (rest : List Code.Step) :
    ∃ reached, Shown (Analysis.ofProgram program) procedure image.frames later locals.frame
        reached ∧
      ∀ output, Machine.plain call arguments result locals
          (names.flatMap (publishIf (Analysis.ofProgram program)) ++ rest)
            { image with frames := frames, output := output } =
        Machine.plain call arguments result locals rest
          { image with frames := reached, output := output } := by
  generalize numbered : locals.frame = number at shown
  cases shown with
  | concealed conceals =>
      refine ⟨image.frames, .concealed conceals, fun output => ?_⟩
      rw [flatMap_publishIf_of_concealed conceals members, List.nil_append]
  | @published top publishes shows =>
      have bound : ∀ name ∈ names, (locals.held.lookup name).isSome := by
        intro name member
        obtain ⟨datum, _, found⟩ := held name member
        rw [found]
        rfl
      obtain ⟨late, runs, finds⟩ := Machine.plain_publish numbered bound top
      refine ⟨⟨late :: image.frames.stack⟩, .published publishes ?_, fun output => runs _ rfl⟩
      intro name dynamic
      rw [finds name]
      by_cases member : name ∈ names
      · obtain ⟨datum, bound, found⟩ := held name member
        rw [if_pos ⟨member, dynamic⟩, found, bound]
        rfl
      · rw [if_neg fun both => member both.1, shows name dynamic, kept name member]

/-- An internal variable is found in the frame and in the locals. -/
theorem holds_bind {count : Nat} {frame : Table Datum} {locals : Machine.Locals}
    (holds : (procedure.scopeAfter count).Holds locals (environment.pushFrame frame))
    {name : String} {value : Expression}
    (inside : procedure.values[count]? = some (name, value)) (datum : Datum) :
    (procedure.scopeAfter (count + 1)).Holds (locals.bind name (Value.ofDatum datum))
      (environment.pushFrame (frame.insert name datum)) := by
  intro other place placed
  have plain := Procedure.lookup_scopeAfter placed
  subst plain
  rw [Environment.binding?_pushFrame, Table.find?_insert]
  rw [Procedure.scopeAfter_succ inside, Scope.lookup_bind] at placed
  by_cases same : other = name
  · subst same
    refine ⟨datum, by simp, ?_⟩
    simp [Machine.Locals.read?, Machine.Locals.bind]
  · rw [if_neg same] at placed
    obtain ⟨found, bound, held⟩ := holds other _ placed
    rw [Environment.binding?_pushFrame] at bound
    refine ⟨found, by rw [if_neg same]; exact bound, ?_⟩
    rw [← held]
    simp [Machine.Locals.read?, Machine.Locals.bind, List.lookup_cons, beq_false_of_ne same]

/-- Binding one more local keeps the frame within the locals. -/
theorem BindsLocals.insert {frame : Table Datum} (binds : BindsLocals procedure frame)
    {name : String} (bound : name ∈ procedure.locals) (datum : Datum) :
    BindsLocals procedure (frame.insert name datum) := by
  intro other found
  rw [Table.find?_insert] at found
  split at found
  · rename_i same
    exact same ▸ bound
  · exact binds other found

/-- The internal variables of a procedure are among its locals. -/
theorem mem_locals_of_value {count : Nat} {name : String} {value : Expression}
    (inside : procedure.values[count]? = some (name, value)) : name ∈ procedure.locals := by
  have member : (name, value) ∈ procedure.values := List.mem_of_getElem? inside
  exact List.mem_append_right _ (List.mem_map_of_mem member)

/-- The parts of a call that are evaluated in its frame. -/
def partsOf (procedure : Procedure) : List Expression :=
  procedure.values.map Prod.snd ++ (procedure.effects ++ [procedure.body])

/-- The session defines an internal variable where the machine binds and publishes it. -/
theorem follows_define {frame : Table Datum} {frames : Frames} {locals : Machine.Locals}
    (shown : Shown (Analysis.ofProgram program) procedure image.frames frame locals.frame frames)
    {name : String} (bound : name ∈ procedure.locals) {datum : Datum}
    {after : Session → Machine → Prop} {rest : Run Session Datum} {arguments : List Value}
    {result : Code.Tail} {steps : List Code.Step}
    (goesOn : ∀ reached, Shown (Analysis.ofProgram program) procedure image.frames
        (frame.insert name datum) locals.frame reached →
      Run.Follows slack SameValue
        (Linked base (environment.pushFrame (frame.insert name datum))
          { image with frames := reached }) after rest
        (Machine.plain call arguments result (locals.bind name (Value.ofDatum datum)) steps)) :
    Run.Follows slack SameValue
      (Linked base (environment.pushFrame frame) { image with frames := frames }) after
      (Run.update (Session.onEnvironment (·.defineVariable name datum)) >>= fun _ => rest)
      (Machine.plain call arguments result (locals.bind name (Value.ofDatum datum))
        (publishIf (Analysis.ofProgram program) name ++ steps)) := by
  have members : ∀ other ∈ [name], other ∈ procedure.locals :=
    fun other member => List.mem_singleton.mp member ▸ bound
  have held : ∀ other ∈ [name], ∃ found, (frame.insert name datum).find? other = some found ∧
      (locals.bind name (Value.ofDatum datum)).held.lookup other = some (Value.ofDatum found) := by
    intro other member
    rw [List.mem_singleton.mp member, Table.find?_insert]
    exact ⟨datum, by simp, by simp [Machine.Locals.bind]⟩
  have kept (other : String) (absent : other ∉ [name]) :
      (frame.insert name datum).find? other = frame.find? other := by
    rw [Table.find?_insert, if_neg (by simpa using absent)]
  obtain ⟨reached, shownLater, runs⟩ :=
    shown_publish members (locals.bind name (Value.ofDatum datum)) shown held kept arguments result
      steps
  rw [List.flatMap_singleton] at runs
  intro session machine linked
  rw [linked.image, runs]
  refine goesOn reached shownLater _ _ ⟨?_, rfl, linked.prints⟩
  rw [Session.onEnvironment, linked.environment, Environment.defineVariable_pushFrame]

/-- The internal variables of a call are bound before what comes after them. -/
theorem follows_values (represents : Represents program functions environment image)
    (member : procedure ∈ program.procedures)
    (simulates : ∀ part ∈ partsOf procedure,
      SimulatesAt program functions slack base recur call part)
    {last : Run Session Datum} {arguments : List Value} {result : Code.Tail}
    {others : List Code.Step}
    (ending : ∀ frame frames locals, BindsLocals procedure frame →
      Shown (Analysis.ofProgram program) procedure image.frames frame locals.frame frames →
      (procedure.scopeAfter procedure.values.length).Holds locals (environment.pushFrame frame) →
      Run.Follows slack SameValue
        (Linked base (environment.pushFrame frame) { image with frames := frames })
        (InBody program base environment image procedure) last
        (Machine.plain call arguments result locals others))
    {count : Nat} {values : List (String × Expression)} {steps : List Code.Step}
    (rest : procedure.values.drop count = values)
    (emits : EmitsValues (Analysis.ofProgram program) functions (procedure.scopeAfter count)
      values steps)
    {frame : Table Datum} {frames : Frames} {locals : Machine.Locals}
    (binds : BindsLocals procedure frame)
    (shown : Shown (Analysis.ofProgram program) procedure image.frames frame locals.frame frames)
    (holds : (procedure.scopeAfter count).Holds locals (environment.pushFrame frame)) :
    Run.Follows slack SameValue
      (Linked base (environment.pushFrame frame) { image with frames := frames })
      (InBody program base environment image procedure)
      (Run.each (Session.bindValue recur) values >>= fun _ => last)
      (Machine.plain call arguments result locals (steps ++ others)) := by
  induction values generalizing count steps frame frames locals with
  | nil =>
      cases emits
      rw [Procedure.scopeAfter_of_drop_eq_nil rest] at holds
      exact ending frame frames locals binds shown holds
  | cons definition remaining ih =>
      obtain ⟨name, value⟩ := definition
      obtain ⟨inside, tail⟩ := Procedure.values_of_drop_eq_cons rest
      have bound := mem_locals_of_value inside
      have part : value ∈ partsOf procedure :=
        List.mem_append_left _ (List.mem_map_of_mem (List.mem_of_getElem? inside))
      have now := represents.inside member binds shown
      have unhidden : Unhidden program (environment.pushFrame frame) (procedure.scopeAfter count)
          value := unhidden_of_free now member fun _ => Procedure.mem_free_of_value inside
      cases emits with
      | @cons _ _ _ code _ steps first later =>
          rw [← Procedure.scopeAfter_succ inside] at later
          rw [Run.each, Run.bind_assoc, Session.bindValue, Run.bind_assoc, List.append_assoc,
            List.cons_append, Machine.plain]
          refine Run.follows_bind ((simulates value part).value now holds unhidden first) ?_
            fun _ _ linked => ⟨frame, frames, locals.frame, shown, linked⟩
          rintro datum _ rfl
          refine follows_define shown bound fun reached shownLater => ?_
          exact ih tail later (binds.insert bound datum) shownLater (holds_bind holds inside datum)

/-- The code after the parameters does what the body of a call does. -/
theorem follows_body (represents : Represents program functions environment image)
    (member : procedure ∈ program.procedures)
    (simulates : ∀ part ∈ partsOf procedure,
      SimulatesAt program functions slack base recur call part)
    {values : List Code.Step} {effects : List Code.Expr} {result : Code.Tail}
    (emitsValues : EmitsValues (Analysis.ofProgram program) functions
      (.parameters procedure.params) procedure.values values)
    (emitsEffects : EmitsAll (Analysis.ofProgram program) functions
      (procedure.scopeAfter procedure.values.length) procedure.effects effects)
    (emitsResult : EmitsTail (Analysis.ofProgram program) functions
      (procedure.scopeAfter procedure.values.length) procedure.body result)
    (arguments : List Value) {frame : Table Datum} {frames : Frames} {locals : Machine.Locals}
    (binds : BindsLocals procedure frame)
    (shown : Shown (Analysis.ofProgram program) procedure image.frames frame locals.frame frames)
    (holds : (Scope.parameters procedure.params).Holds locals (environment.pushFrame frame)) :
    Run.Follows slack SameValue
      (Linked base (environment.pushFrame frame) { image with frames := frames })
      (InBody program base environment image procedure) (Session.callBody recur procedure)
      (Machine.plain call arguments result locals (values ++ effects.map .effect)) := by
  rw [Session.callBody]
  rw [← Procedure.scopeAfter_zero] at emitsValues holds
  refine follows_values represents member simulates ?_ List.drop_zero emitsValues binds shown holds
  intro frame frames locals binds shown holds
  have now := represents.inside member binds shown
  refine (follows_effects now holds ?_ ?_ emitsEffects emitsResult arguments).weaken
    (fun _ _ => id) (fun _ _ => id) fun _ _ linked => ⟨frame, frames, locals.frame, shown, linked⟩
  · exact fun part inside => simulates part (List.mem_append_right _ inside)
  · exact fun part inside => unhidden_of_free now member fun _ => Procedure.mem_free_of_part inside

/-- The parameters of a call are found in its frame and in the unpacked locals. -/
theorem holds_parameters {arguments : List Datum}
    (counted : procedure.params.length = arguments.length) {name : String}
    (bound : name ∈ procedure.params) :
    ∃ datum, (Table.ofPairs (procedure.params.zip arguments)).find? name = some datum ∧
      (Machine.Locals.empty.unpack (pattern procedure.params)
        (arguments.map Value.ofDatum)).held.lookup name = some (Value.ofDatum datum) := by
  have found : (Table.ofPairs (procedure.params.zip arguments)).find? name ≠ none :=
    fun missing => (Table.find?_ofPairs_zip_eq_none counted).mp missing bound
  obtain ⟨datum, found⟩ := Option.ne_none_iff_exists'.mp found
  refine ⟨datum, found, ?_⟩
  have counted : procedure.params.length = (arguments.map Value.ofDatum).length := by
    rw [List.length_map, counted]
  rw [Machine.lookup_unpack_pattern counted, Machine.lookup_arguments, found]
  rfl

/-- The frame of a call starts with the parameters only. -/
theorem bindsLocals_parameters {arguments : List Datum}
    (counted : procedure.params.length = arguments.length) :
    BindsLocals procedure (.ofPairs (procedure.params.zip arguments)) := by
  intro name found
  apply List.mem_append_left
  by_contra absent
  rw [(Table.find?_ofPairs_zip_eq_none counted).mpr absent] at found
  contradiction

/-- The unpacked parameters hold what the frame of the call binds them to. -/
theorem scopeHolds_parameters {arguments : List Datum}
    (counted : procedure.params.length = arguments.length) {locals : Machine.Locals}
    (unpacked : locals.held = (Machine.Locals.empty.unpack (pattern procedure.params)
      (arguments.map Value.ofDatum)).held) :
    (Scope.parameters procedure.params).Holds locals
      (environment.pushFrame (.ofPairs (procedure.params.zip arguments))) := by
  intro name place placed
  rw [Scope.lookup_parameters] at placed
  split at placed
  · rename_i bound
    cases placed
    obtain ⟨datum, found, held⟩ := holds_parameters counted bound
    refine ⟨datum, ?_, ?_⟩
    · rw [Environment.binding?_pushFrame, found]
      rfl
    · rw [Machine.Locals.read?, unpacked, held]
  · contradiction

/-- Leaving the call leaves its frames on both sides. -/
theorem InBody.leave {session : Session} {machine : Machine}
    (inside : InBody program base environment image procedure session machine) :
    ∃ frames, Linked base environment { image with frames := frames }
        (Session.onEnvironment (·.popFrame) session) machine ∧
      (((Analysis.ofProgram program).publishes procedure = false ∧ frames = image.frames) ∨
        ((Analysis.ofProgram program).publishes procedure = true ∧
          frames.leave (image.frames.stack.length + 1) = image.frames)) := by
  obtain ⟨frame, frames, number, shown, linked⟩ := inside
  refine ⟨frames, ⟨?_, linked.image, linked.prints⟩, ?_⟩
  · rw [Session.onEnvironment, linked.environment, Environment.popFrame_pushFrame]
  · cases shown with
    | concealed conceals => exact .inl ⟨conceals, rfl⟩
    | published publishes _ => exact .inr ⟨publishes, Frames.leave_top _ _⟩

/-- A procedure that publishes nothing runs in the frames of its caller. -/
theorem follows_concealed {arguments : List Datum}
    (conceals : (Analysis.ofProgram program).publishes procedure = false)
    {run : Run Machine Value}
    (body : Run.Follows slack SameValue
      (Linked base (environment.pushFrame (.ofPairs (procedure.params.zip arguments))) image)
      (InBody program base environment image procedure) (Session.callBody recur procedure) run) :
    Run.Follows slack SameValue (Linked base environment image) (Linked base environment image)
      (Run.between
        (Session.onEnvironment (·.pushFrame (.ofPairs (procedure.params.zip arguments))))
        (Session.onEnvironment (·.popFrame)) (Session.callBody recur procedure)) run := by
  rw [← Run.between_id run]
  refine Run.follows_between _ _ ?_ body ?_
  · intro session machine linked
    exact ⟨by rw [Session.onEnvironment, linked.environment], linked.image, linked.prints⟩
  · intro session machine inside
    obtain ⟨frames, linked, ⟨_, rfl⟩ | ⟨publishes, _⟩⟩ := inside.leave
    · exact linked
    · rw [conceals] at publishes
      contradiction

/-- A procedure that publishes runs in a frame of its own. -/
theorem follows_inFrame {arguments : List Datum}
    (publishes : (Analysis.ofProgram program).publishes procedure = true)
    {run : Nat → Run Machine Value}
    (body : Run.Follows slack SameValue
      (Linked base (environment.pushFrame (.ofPairs (procedure.params.zip arguments)))
        { image with frames := ⟨[] :: image.frames.stack⟩ })
      (InBody program base environment image procedure) (Session.callBody recur procedure)
      (run (image.frames.stack.length + 1))) :
    Run.Follows slack SameValue (Linked base environment image) (Linked base environment image)
      (Run.between
        (Session.onEnvironment (·.pushFrame (.ofPairs (procedure.params.zip arguments))))
        (Session.onEnvironment (·.popFrame)) (Session.callBody recur procedure))
      (Machine.inFrame run) := by
  intro session machine linked
  have framed : machine.frames = image.frames := by rw [linked.image]
  have entered : Machine.inFrame run machine =
      Run.between (fun state => { state with frames := ⟨[] :: image.frames.stack⟩ })
        (fun state => { state with
          frames := state.frames.leave (image.frames.stack.length + 1) })
        (run (image.frames.stack.length + 1)) machine := by
    rw [Machine.inFrame, framed]
    rfl
  rw [entered]
  refine Run.follows_between _ _ ?_ body ?_ session machine linked
  · intro session machine linked
    refine ⟨by rw [Session.onEnvironment, linked.environment], ?_, linked.prints⟩
    rw [linked.image]
  · intro session machine inside
    obtain ⟨frames, linked, ⟨conceals, _⟩ | ⟨_, left⟩⟩ := inside.leave
    · rw [publishes] at conceals
      contradiction
    · refine ⟨linked.environment, ?_, linked.prints⟩
      rw [linked.image]
      simp only [left]

/-- The machine takes as many arguments as there are parameters, and reports any other number of
them. -/
theorem parameters_eq (count : Nat) (arguments : List Datum) :
    Machine.parameters count (arguments.map Value.ofDatum) =
      if count = arguments.length then .ok (arguments.map Value.ofDatum)
      else .error (.parameterMismatch count arguments.length) := by
  rw [Machine.parameters, List.length_map]
  by_cases counted : count = arguments.length
  · rw [if_pos counted.symm, if_pos counted]
  · rw [if_neg (Ne.symm counted), if_neg counted]

/-- A call that publishes shows its parameters before its body runs. -/
theorem follows_published (represents : Represents program functions environment image)
    (member : procedure ∈ program.procedures)
    (simulates : ∀ part ∈ partsOf procedure,
      SimulatesAt program functions slack base recur call part)
    {values : List Code.Step} {effects : List Code.Expr} {result : Code.Tail}
    (emitsValues : EmitsValues (Analysis.ofProgram program) functions
      (.parameters procedure.params) procedure.values values)
    (emitsEffects : EmitsAll (Analysis.ofProgram program) functions
      (procedure.scopeAfter procedure.values.length) procedure.effects effects)
    (emitsResult : EmitsTail (Analysis.ofProgram program) functions
      (procedure.scopeAfter procedure.values.length) procedure.body result)
    {arguments : List Datum} (counted : procedure.params.length = arguments.length)
    (publishes : (Analysis.ofProgram program).publishes procedure = true) :
    Run.Follows slack SameValue
      (Linked base (environment.pushFrame (.ofPairs (procedure.params.zip arguments)))
        { image with frames := ⟨[] :: image.frames.stack⟩ })
      (InBody program base environment image procedure) (Session.callBody recur procedure)
      (Machine.plain call (arguments.map Value.ofDatum) result
        { Machine.Locals.empty.unpack (pattern procedure.params) (arguments.map Value.ofDatum) with
          frame := some (image.frames.stack.length + 1) }
        (procedure.params.eraseDups.flatMap (publishIf (Analysis.ofProgram program)) ++
          (values ++ effects.map .effect))) := by
  have members : ∀ name ∈ procedure.params.eraseDups, name ∈ procedure.locals := by
    intro name bound
    exact List.mem_append_left _ (List.mem_eraseDups.mp bound)
  have empty : Shown (Analysis.ofProgram program) procedure image.frames Table.empty
      (some (image.frames.stack.length + 1)) ⟨[] :: image.frames.stack⟩ :=
    .published publishes fun _ _ => rfl
  have kept (name : String) (absent : name ∉ procedure.params.eraseDups) :
      (Table.ofPairs (procedure.params.zip arguments)).find? name =
        (Table.empty : Table Datum).find? name := by
    rw [List.mem_eraseDups] at absent
    exact (Table.find?_ofPairs_zip_eq_none counted).mpr absent
  obtain ⟨reached, shown, runs⟩ := shown_publish members
    { Machine.Locals.empty.unpack (pattern procedure.params) (arguments.map Value.ofDatum) with
      frame := some (image.frames.stack.length + 1) } empty
    (fun name bound => holds_parameters counted (List.mem_eraseDups.mp bound)) kept
    (arguments.map Value.ofDatum) result (values ++ effects.map .effect)
  intro session machine linked
  rw [linked.image, runs]
  exact follows_body represents member simulates emitsValues emitsEffects emitsResult _
    (bindsLocals_parameters counted) shown (scopeHolds_parameters counted rfl) session _
    ⟨linked.environment, rfl, linked.prints⟩

/-- A plain body does what a call in a session does. -/
theorem follows_plainCall (represents : Represents program functions environment image)
    (member : procedure ∈ program.procedures)
    (simulates : ∀ part ∈ partsOf procedure,
      SimulatesAt program functions slack base recur call part)
    {values : List Code.Step} {effects : List Code.Expr} {result : Code.Tail}
    (emitsValues : EmitsValues (Analysis.ofProgram program) functions
      (.parameters procedure.params) procedure.values values)
    (emitsEffects : EmitsAll (Analysis.ofProgram program) functions
      (procedure.scopeAfter procedure.values.length) procedure.effects effects)
    (emitsResult : EmitsTail (Analysis.ofProgram program) functions
      (procedure.scopeAfter procedure.values.length) procedure.body result)
    (arguments : List Datum) :
    Run.Follows slack SameValue (Linked base environment image) (Linked base environment image)
      (Session.callCode recur procedure arguments)
      (Machine.plain call (arguments.map Value.ofDatum) result .empty
        (.unpack (pattern procedure.params) ::
          frameSteps (Analysis.ofProgram program) procedure ++ values ++ effects.map .effect)) := by
  rw [Session.callCode, List.cons_append, List.cons_append, Machine.plain, Machine.length_pattern,
    parameters_eq]
  by_cases counted : procedure.params.length = arguments.length
  · rw [if_pos counted, if_pos counted, List.append_assoc]
    change Run.Follows _ _ _ _ _ (Machine.plain call (arguments.map Value.ofDatum) result
      (Machine.Locals.empty.unpack (pattern procedure.params) (arguments.map Value.ofDatum))
      (frameSteps (Analysis.ofProgram program) procedure ++ (values ++ effects.map .effect)))
    have binds := bindsLocals_parameters counted
    cases publishes : (Analysis.ofProgram program).publishes procedure with
    | false =>
        have steps : frameSteps (Analysis.ofProgram program) procedure = [] := by
          simp [frameSteps, publishes]
        rw [steps, List.nil_append]
        exact follows_concealed publishes (follows_body represents member simulates emitsValues
          emitsEffects emitsResult _ binds (.concealed publishes)
          (scopeHolds_parameters counted rfl))
    | true =>
        rw [frameSteps, publishes, if_pos rfl, List.cons_append, Machine.plain]
        refine follows_inFrame publishes ?_
        exact follows_published represents member simulates emitsValues emitsEffects emitsResult
          counted publishes
  · rw [if_neg counted, if_neg counted]
    exact Run.follows_fail _

end Call

end SmallScheme.Compiler
