/-
This file relates data that differ in how quotations are spelled, where a program evaluates them or
quotes them, and shows that they lower to the same forms or fail with errors of the same variant.
-/

import SmallScheme.Proofs.Program.Plain
import SmallScheme.Proofs.Tree.Layout

namespace SmallScheme

namespace SyntaxError

/-- The variants of errors, without the texts that they quote. -/
inductive Variant where
  | parse
  | malformedDefinition
  | emptyBody
  | misplacedDefinition
  | misplacedBegin
  | malformedQuotation
  | emptyApplication
  | invalidProcedure
  | malformedDatum
  deriving DecidableEq, Repr

def variant : SyntaxError → Variant
  | .parse _ => .parse
  | .malformedDefinition _ => .malformedDefinition
  | .emptyBody _ => .emptyBody
  | .misplacedDefinition _ => .misplacedDefinition
  | .misplacedBegin _ => .misplacedBegin
  | .malformedQuotation _ => .malformedQuotation
  | .emptyApplication => .emptyApplication
  | .invalidProcedure _ => .invalidProcedure
  | .malformedDatum _ => .malformedDatum

end SyntaxError

namespace SExpr

/-- The results are the same value, or errors of the same variant. -/
def SameResult {A : Type} (first second : Except SyntaxError A) : Prop :=
  first.mapError SyntaxError.variant = second.mapError SyntaxError.variant

section SameResult

variable {A B : Type}

theorem same_refl (result : Except SyntaxError A) : SameResult result result := rfl

/-- Errors of one variant are the same result. -/
theorem same_error {one other : SyntaxError} (same : one.variant = other.variant) :
    SameResult (.error one : Except SyntaxError A) (.error other) :=
  congrArg Except.error same

/-- Two sequences give the same results if their first parts do, and their second parts from every
value. -/
theorem same_bind {first second : Except SyntaxError A} {next other : A → Except SyntaxError B}
    (same : SameResult first second) (rests : ∀ value, SameResult (next value) (other value)) :
    SameResult (first >>= next) (second >>= other) := by
  cases first with
  | error error =>
      cases second with
      | error later => exact same_error (Except.error.inj same)
      | ok value => cases same
  | ok value =>
      cases second with
      | error error => cases same
      | ok later =>
          obtain rfl : value = later := Except.ok.inj same
          exact rests value

/-- What is made of the same results is the same. -/
theorem same_return {first second : Except SyntaxError A} (same : SameResult first second)
    (make : A → B) : SameResult (do return make (← first)) (do return make (← second)) :=
  same_bind same fun value => same_refl (.ok (make value))

/-- What is missing is missing under any text. -/
theorem same_required (text other : String) (found : Option A) :
    SameResult (required text found) (required other found) := by
  cases found with
  | none => exact same_error rfl
  | some value => exact same_refl _

/-- The same results are one value or errors of one variant. -/
theorem same_cases {first second : Except SyntaxError A} (same : SameResult first second) :
    (∃ value, first = .ok value ∧ second = .ok value) ∨
      ∃ error other, first = .error error ∧ second = .error other ∧ error.variant = other.variant := by
  cases first with
  | ok value =>
      cases second with
      | ok other => exact .inl ⟨value, rfl, congrArg _ (Except.ok.inj same).symm⟩
      | error error => cases same
  | error error =>
      cases second with
      | ok other => cases same
      | error other => exact .inr ⟨error, other, rfl, rfl, Except.error.inj same⟩

/-- Lowering element by element gives the same results if every element does. -/
theorem same_all (lower : SExpr → Except SyntaxError A)
    (all : List SExpr → Except SyntaxError (List A))
    (cons : ∀ element rest, all (element :: rest) = do return (← lower element) :: (← all rest))
    {first second : List SExpr}
    (each : List.Forall₂ (fun one other => SameResult (lower one) (lower other)) first second) :
    SameResult (all first) (all second) := by
  induction each with
  | nil => exact same_refl _
  | cons head _ ih =>
      rw [cons, cons]
      exact same_bind head fun value => same_return ih (value :: ·)

end SameResult

/-- Quoted data that differ in how the quotations inside them are spelled. -/
inductive Requoted : SExpr → SExpr → Prop
  | atom {text other : String} {kind : AtomKind} (read : Token.ofText? text = Token.ofText? other) :
      Requoted (.atom text kind) (.atom other kind)
  | list {source other : Tree} {first second : List SExpr}
      (elements : List.Forall₂ Requoted first second) :
      Requoted (.list source first) (.list other second)
  | vector {source other : Tree} {first second : List SExpr}
      (elements : List.Forall₂ Requoted first second) :
      Requoted (.vector source first) (.vector other second)
  | abbreviation {source other : Tree} {first second : SExpr} (datum : Requoted first second) :
      Requoted (.abbreviation source [first]) (.abbreviation other [second])
  | spellOut {source other : Tree} {head first second : SExpr}
      (named : head.identifier? = some "quote") (datum : Requoted first second) :
      Requoted (.abbreviation source [first]) (.list other [head, second])
  | abbreviate {source other : Tree} {head first second : SExpr}
      (named : head.identifier? = some "quote") (datum : Requoted first second) :
      Requoted (.list source [head, first]) (.abbreviation other [second])

/-- Whether the datum stands for itself or is a quotation, in either spelling. -/
def holdsData : SExpr → Bool
  | .list _ elements => specialForm? elements == some .quote
  | _ => true

/-- Forms and expressions that differ in how quotations are spelled. A respelled datum is an expression
or stands inside quoted data, so the head and the target of a definition are not respelled. -/
inductive Respelled : SExpr → SExpr → Prop
  | datum {first second : SExpr} (holds : first.holdsData = true) (requoted : Requoted first second) :
      Respelled first second
  | definition {source other : Tree} {first second : List SExpr}
      (defines : specialForm? first = some .define)
      (kept : List.Forall₂ Alike (first.take 2) (second.take 2))
      (parts : List.Forall₂ Respelled (first.drop 2) (second.drop 2)) :
      Respelled (.list source first) (.list other second)
  | list {source other : Tree} {first second : List SExpr}
      (unquoted : specialForm? first ≠ some .quote) (undefined : specialForm? first ≠ some .define)
      (elements : List.Forall₂ Respelled first second) :
      Respelled (.list source first) (.list other second)

section Elements

variable {elements others : List SExpr}

/-- The form that a list invokes depends on the identifier at its head. -/
theorem specialForm?_of_identifiers
    (named : List.Forall₂ (fun one other => one.identifier? = other.identifier?) elements others) :
    specialForm? elements = specialForm? others := by
  cases named with
  | nil => rfl
  | cons head _ => simp only [specialForm?, headIdentifier?, head]

/-- Texts that are read as one token are one literal. -/
theorem ofAtom?_of_read {text other : String} (read : Token.ofText? text = Token.ofText? other)
    (kind : AtomKind) : Literal.ofAtom? text kind = Literal.ofAtom? other kind := by
  unfold Literal.ofAtom?
  rw [read]

/-- What holds of related elements holds of the lists, element by element. -/
theorem forall₂_of_mem {related relation : SExpr → SExpr → Prop}
    (each : List.Forall₂ related elements others)
    (all : ∀ element ∈ elements, ∀ {other}, related element other → relation element other) :
    List.Forall₂ relation elements others := by
  have both := (List.forall₂_and_left elements others).mpr ⟨all, each⟩
  exact both.imp fun _ _ known => known.1 known.2

end Elements

section Requoted

variable {source other : Tree} {head datum first second : SExpr} {elements others : List SExpr}

/-- A list headed by `quote` invokes it. -/
theorem specialForm?_quote (named : head.identifier? = some "quote") (rest : List SExpr) :
    specialForm? (head :: rest) = some .quote := by
  rw [specialForm?, headIdentifier?, named]
  rfl

/-- A quotation that is spelled out inside quoted data is quoted as a quotation. -/
theorem toQuoted_quoteList (named : head.identifier? = some "quote") :
    (list source [head, datum]).toQuoted = do return .quotation (← datum.toQuoted) := by
  simp only [toQuoted, specialForm?_quote named]

/-- Both spellings of a quotation are evaluated to what is quoted. -/
theorem toExpression_abbreviation :
    (abbreviation source [datum]).toExpression = do return .quotation (← datum.toQuoted) := by
  rw [toExpression, toQuotation, toQuoted]
  cases datum.toQuoted <;> rfl

/-- A list that invokes `quote` is evaluated as a quotation. -/
theorem toExpression_of_quote (quotes : specialForm? elements = some .quote) :
    (list source elements).toExpression = (list source elements).toQuoteForm := by
  unfold toExpression
  rw [quotes]

/-- A quotation that is spelled out evaluates to what it quotes. -/
theorem toExpression_quoteList (named : head.identifier? = some "quote") :
    (list source [head, datum]).toExpression = do return .quotation (← datum.toQuoted) := by
  rw [toExpression_of_quote (specialForm?_quote named _), toQuoteForm, toQuoted_quoteList named]
  cases datum.toQuoted <;> rfl

/-- Requoted data are the same identifier, or none. -/
theorem Requoted.identifier?_eq (requoted : first.Requoted second) :
    first.identifier? = second.identifier? := by
  cases requoted with
  | @atom text other kind read => cases kind <;> simp only [identifier?, read]
  | list | vector | abbreviation | spellOut | abbreviate => rfl

/-- Requoted lists invoke the same form. -/
theorem specialForm?_of_requoted (requoted : List.Forall₂ Requoted elements others) :
    specialForm? elements = specialForm? others :=
  specialForm?_of_identifiers (requoted.imp fun _ _ => Requoted.identifier?_eq)

/-- Data that are alike are requoted nowhere. -/
theorem Alike.requoted (alike : first.Alike second) : first.Requoted second := by
  induction first using of_elements generalizing second with | step first all =>
  cases alike with
  | list elements => exact .list (forall₂_of_mem elements all)
  | vector elements => exact .vector (forall₂_of_mem elements all)
  | abbreviation datum => exact .abbreviation (all _ (List.mem_singleton_self _) datum)
  | atom read => exact .atom read

/-- Lists that are alike are the same signature. -/
theorem signature?_of_alike (alike : List.Forall₂ Alike elements others) :
    signature? elements = signature? others := by
  have names : elements.mapM identifier? = others.mapM identifier? := by
    induction alike with
    | nil => rfl
    | cons head _ ih => rw [List.mapM_cons, List.mapM_cons, head.requoted.identifier?_eq, ih]
  rw [signature?, signature?, names]

/-- A requoted definition stays one. -/
theorem Requoted.isDefinition_eq (requoted : first.Requoted second) :
    first.isDefinition = second.isDefinition := by
  cases requoted with
  | list elements => simp only [isDefinition, specialForm?_of_requoted elements]
  | spellOut named | abbreviate named => simp [isDefinition, specialForm?_quote named]
  | atom | vector | abbreviation => rfl

/-- A requoted datum stands for itself or is a quotation if the first one does. -/
theorem Requoted.holdsData_eq (requoted : first.Requoted second) :
    first.holdsData = second.holdsData := by
  cases requoted with
  | list elements => simp only [holdsData, specialForm?_of_requoted elements]
  | spellOut named | abbreviate named => simp [holdsData, specialForm?_quote named]
  | atom | vector | abbreviation => rfl

/-- Lists that invoke the same form are quoted alike if their elements are. -/
theorem same_toQuoted_list (special : specialForm? elements = specialForm? others)
    (each : List.Forall₂ (fun one other => SameResult one.toQuoted other.toQuoted) elements others) :
    SameResult (list source elements).toQuoted (list other others).toQuoted := by
  by_cases quotes : specialForm? others = some .quote
  · rw [quotes] at special
    match each with
    | .nil => cases quotes
    | .cons _ .nil | .cons _ (.cons _ (.cons _ _)) =>
        simp only [toQuoted, special, quotes]
        exact same_error rfl
    | .cons _ (.cons quoted .nil) =>
        simp only [toQuoted, special, quotes]
        exact same_return quoted Quoted.quotation
  · rw [Datum.toQuoted_list quotes, Datum.toQuoted_list (special ▸ quotes)]
    exact same_return (same_all toQuoted allToQuoted (fun _ _ => rfl) each) Quoted.list

/-- Requoted data are quoted alike. -/
theorem same_toQuoted (requoted : first.Requoted second) :
    SameResult first.toQuoted second.toQuoted := by
  induction first using of_elements generalizing second with | step first all =>
  cases requoted with
  | list elements =>
      exact same_toQuoted_list (specialForm?_of_requoted elements) (forall₂_of_mem elements all)
  | vector elements =>
      have each := forall₂_of_mem elements all
      exact same_return (same_all toQuoted allToQuoted (fun _ _ => rfl) each) Quoted.vector
  | abbreviation datum => exact same_return (all _ (List.mem_singleton_self _) datum) Quoted.quotation
  | spellOut named datum =>
      rw [toQuoted_quoteList named]
      exact same_return (all _ (List.mem_singleton_self _) datum) Quoted.quotation
  | abbreviate named datum =>
      rw [toQuoted_quoteList named]
      exact same_return (all _ (by simp [elements]) datum) Quoted.quotation
  | @atom text other kind read =>
      have named : (atom text kind).identifier? = (atom other kind).identifier? :=
        (Requoted.atom read).identifier?_eq
      cases kind with
      | symbol =>
          rw [toQuoted, toQuoted, named]
          exact same_return (same_required text other _) Quoted.symbol
      | _ =>
          simp only [toQuoted, ofAtom?_of_read read]
          exact same_return (same_required text other _) Quoted.constant

/-- Requoted data give the same quotation. -/
theorem same_toQuotation (requoted : first.Requoted second) :
    SameResult first.toQuotation second.toQuotation :=
  same_bind (same_toQuoted requoted) fun _ => same_refl _

/-- A requoted quotation that is spelled out gives the same result. -/
theorem same_toQuoteForm (requoted : first.Requoted second) :
    SameResult first.toQuoteForm second.toQuoteForm := by
  refine same_bind (same_toQuoted requoted) fun quoted => ?_
  cases quoted with
  | quotation inner => exact same_refl _
  | _ => exact same_error rfl

/-- Data in the place of an expression evaluate to the same, however they are spelled. -/
theorem same_toExpression_datum (holds : first.holdsData = true) (requoted : first.Requoted second) :
    SameResult first.toExpression second.toExpression := by
  cases requoted with
  | vector elements => exact same_toQuotation (.vector elements)
  | abbreviation datum => exact same_toQuotation (.abbreviation datum)
  | spellOut named datum =>
      rw [toExpression_abbreviation, toExpression_quoteList named]
      exact same_return (same_toQuoted datum) Expression.quotation
  | abbreviate named datum =>
      rw [toExpression_abbreviation, toExpression_quoteList named]
      exact same_return (same_toQuoted datum) Expression.quotation
  | list elements =>
      have quotes := beq_iff_eq.mp holds
      rw [toExpression_of_quote quotes,
        toExpression_of_quote ((specialForm?_of_requoted elements).symm.trans quotes)]
      exact same_toQuoteForm (.list elements)
  | @atom text other kind read =>
      have named : (atom text kind).identifier? = (atom other kind).identifier? :=
        (Requoted.atom read).identifier?_eq
      cases kind with
      | symbol =>
          rw [toExpression, toExpression, named]
          exact same_return (same_required text other _) Expression.identifier
      | _ =>
          simp only [toExpression, ofAtom?_of_read read]
          exact same_return (same_required text other _) Expression.constant

end Requoted

section Respelled

variable {source other : Tree} {first second : SExpr} {elements others : List SExpr}

/-- Respelled data are the same identifier, or none. -/
theorem Respelled.identifier?_eq (respelled : first.Respelled second) :
    first.identifier? = second.identifier? := by
  cases respelled with
  | datum _ requoted => exact requoted.identifier?_eq
  | definition | list => rfl

/-- Respelled lists invoke the same form. -/
theorem specialForm?_of_respelled (respelled : List.Forall₂ Respelled elements others) :
    specialForm? elements = specialForm? others :=
  specialForm?_of_identifiers (respelled.imp fun _ _ => Respelled.identifier?_eq)

/-- A definition keeps its head, so it stays one. -/
theorem specialForm?_of_kept (kept : List.Forall₂ Alike (elements.take 2) (others.take 2)) :
    specialForm? elements = specialForm? others := by
  have special (parts : List SExpr) : specialForm? (parts.take 2) = specialForm? parts := by
    cases parts <;> rfl
  rw [← special elements, ← special others]
  exact specialForm?_of_requoted (kept.imp fun _ _ => Alike.requoted)

/-- A respelled definition stays one. -/
theorem Respelled.isDefinition_eq (respelled : first.Respelled second) :
    first.isDefinition = second.isDefinition := by
  cases respelled with
  | datum _ requoted => exact requoted.isDefinition_eq
  | definition _ kept => simp only [isDefinition, specialForm?_of_kept kept]
  | list _ _ elements => simp only [isDefinition, specialForm?_of_respelled elements]

/-- Respelled combinations evaluate alike if their elements do. -/
theorem same_toExpression_list (unquoted : specialForm? elements ≠ some .quote)
    (undefined : specialForm? elements ≠ some .define)
    (respelled : List.Forall₂ Respelled elements others)
    (each : List.Forall₂ (fun one other => SameResult one.toExpression other.toExpression)
      elements others) :
    SameResult (list source elements).toExpression (list other others).toExpression := by
  have special := specialForm?_of_respelled respelled
  cases respelled with
  | nil => exact same_error rfl
  | @cons head start operands rest headRespelled operandsRespelled =>
      by_cases groups : specialForm? (head :: operands) = some .begin
      · simp only [toExpression, groups, special ▸ groups]
        exact same_error rfl
      rw [toExpression_application unquoted undefined groups, toExpression_application
        (special ▸ unquoted) (special ▸ undefined) (special ▸ groups), headRespelled.identifier?_eq]
      cases start.identifier? with
      | none => exact same_error rfl
      | some procedure =>
          have operandsSame := (List.forall₂_cons.mp each).2
          exact same_return (same_all toExpression allToExpressions (fun _ _ => rfl) operandsSame)
            (Expression.application procedure)

/-- Respelled expressions give the same result. -/
theorem same_toExpression (respelled : first.Respelled second) :
    SameResult first.toExpression second.toExpression := by
  induction first using of_elements generalizing second with | step first all =>
  cases respelled with
  | datum holds requoted => exact same_toExpression_datum holds requoted
  | @definition source other elements others defines kept =>
      have here : (SExpr.list source elements).isDefinition = true := beq_iff_eq.mpr defines
      have there : (SExpr.list other others).isDefinition = true :=
        beq_iff_eq.mpr ((specialForm?_of_kept kept).symm.trans defines)
      rw [toExpression_of_isDefinition here, toExpression_of_isDefinition there]
      exact same_error rfl
  | list unquoted undefined elements =>
      exact same_toExpression_list unquoted undefined elements (forall₂_of_mem elements all)

/-- The parts of respelled bodies make the same definitions and expressions. -/
theorem same_toBody (started : Bool)
    (parts : List.Forall₂ (fun one other => one.Respelled other ∧
      (one.isDefinition = true → SameResult one.toDefinition other.toDefinition)) elements others) :
    SameResult (toBody started elements) (toBody started others) := by
  induction parts generalizing started with
  | nil => exact same_refl _
  | cons head _ ih =>
      obtain ⟨respelled, definition⟩ := head
      rw [toBody, toBody, ← respelled.isDefinition_eq]
      split
      · rename_i defines
        split
        · exact same_error rfl
        · exact same_bind (definition defines) fun _ => same_bind (ih false) fun _ => same_refl _
      · exact same_bind (same_toExpression respelled) fun _ =>
          same_bind (ih true) fun _ => same_refl _

/-- Definitions with targets that are alike give the same result if their parts do. -/
theorem same_toDefinition_list {head start target goal : SExpr} (alike : target.Alike goal)
    (parts : List.Forall₂ (fun one other => one.Respelled other ∧
      (one.isDefinition = true → SameResult one.toDefinition other.toDefinition)) elements others) :
    SameResult (list source (head :: target :: elements)).toDefinition
      (list other (start :: goal :: others)).toDefinition := by
  unfold toDefinition
  dsimp only
  rw [alike.requoted.identifier?_eq]
  cases goal.identifier? with
  | some name =>
      cases parts with
      | nil => exact same_error rfl
      | cons value rest =>
          cases rest with
          | nil => exact same_return (same_toExpression value.1) (Definition.value name)
          | cons => exact same_error rfl
  | none =>
      cases alike with
      | list names =>
          dsimp only
          rw [signature?_of_alike names]
          split
          · exact same_error rfl
          · exact same_bind (same_toBody false parts) fun _ => same_refl _
      | vector => exact same_error rfl
      | abbreviation => exact same_error rfl
      | atom => exact same_error rfl

/-- A datum that stands for itself or is a quotation defines nothing. -/
theorem not_isDefinition_of_holdsData (holds : first.holdsData = true) : first.isDefinition = false := by
  cases first with
  | list source elements => simp [isDefinition, beq_iff_eq.mp holds]
  | _ => rfl

/-- Respelled definitions give the same result. -/
theorem same_toDefinition (respelled : first.Respelled second) (defines : first.isDefinition = true) :
    SameResult first.toDefinition second.toDefinition := by
  induction first using of_elements generalizing second with | step first all =>
  cases respelled with
  | datum holds => simp [not_isDefinition_of_holdsData holds] at defines
  | list _ undefined => exact absurd (beq_iff_eq.mp defines) undefined
  | @definition _ _ elements others _ kept parts =>
      have each := forall₂_of_mem parts fun part member _ respelled =>
        And.intro respelled (all part (List.mem_of_mem_drop member) respelled)
      match elements, others, kept with
      | [], [], _ => exact same_error rfl
      | [_], [_], _ => exact same_error rfl
      | _ :: _ :: _, _ :: _ :: _, .cons _ (.cons target _) => exact same_toDefinition_list target each

/-- Data are no definition and no group, so as forms they are expressions. -/
theorem toForm_of_holdsData (holds : first.holdsData = true) :
    first.toForm = do return .expression (← first.toExpression) := by
  cases first with
  | list source elements =>
      unfold toForm
      rw [beq_iff_eq.mp holds]
  | _ => rfl

/-- Respelled forms give the same result. -/
theorem same_toForm (respelled : first.Respelled second) : SameResult first.toForm second.toForm := by
  induction first using of_elements generalizing second with | step first all =>
  have expression := same_toExpression respelled
  cases respelled with
  | datum holds requoted =>
      rw [toForm_of_holdsData holds, toForm_of_holdsData (requoted.holdsData_eq ▸ holds)]
      exact same_return expression Form.expression
  | definition defines kept parts =>
      unfold toForm
      rw [← specialForm?_of_kept kept, defines]
      exact same_return (same_toDefinition (.definition defines kept parts) (beq_iff_eq.mpr defines))
        Form.definition
  | list unquoted undefined elements =>
      unfold toForm
      rw [← specialForm?_of_respelled elements]
      split
      · contradiction
      · cases forall₂_of_mem elements all with
        | nil => exact same_refl _
        | cons _ forms =>
            exact same_return (same_all toForm allToForms (fun _ _ => rfl) forms) Form.begin
      · exact same_return expression Form.expression

end Respelled

end SExpr

/-- Sources without errors whose data are respelled make the same program, or fail with errors of the
same variant. -/
theorem Program.same_ofSource {first second : String} (left : (Parse.ofSource first).errors = [])
    (right : (Parse.ofSource second).errors = [])
    (respelled : List.Forall₂ SExpr.Respelled (Parse.ofSource first).data (Parse.ofSource second).data) :
    SExpr.SameResult (ofSource first) (ofSource second) := by
  have each := respelled.imp fun _ _ => SExpr.same_toForm
  rw [ofSource_of_errors left, ofSource_of_errors right]
  exact SExpr.same_return (SExpr.same_all SExpr.toForm SExpr.allToForms (fun _ _ => rfl) each) mk

end SmallScheme
