/-
This file follows the builder of a tree with the machine that reads the grammar, and shows that the
parser accepts exactly the sources that the grammar derives, with the data that it derives.
-/

import SmallScheme.Proofs.Tree.Grammar

namespace SmallScheme

namespace SExpr

mutual

/-- The datum of the grammar that an S-expression shows. -/
def reading? : SExpr → Option Reading
  | .list _ elements => (allReadings? elements).map (.enclosed .list)
  | .vector _ elements => (allReadings? elements).map (.enclosed .vector)
  | .abbreviation _ [datum] => datum.reading?.map .quotation
  | .abbreviation _ _ => none
  | .atom text kind => some (.atom kind text)
  | .unknown _ => none

/-- The data of the grammar that some S-expressions show. -/
def allReadings? : List SExpr → Option (List Reading)
  | [] => some []
  | datum :: rest => do return (← datum.reading?) :: (← allReadings? rest)

end

/-- Two lists of data show what they show one after the other. -/
theorem allReadings?_append {first second : List SExpr} {early late : List Reading}
    (left : allReadings? first = some early) (right : allReadings? second = some late) :
    allReadings? (first ++ second) = some (early ++ late) := by
  induction first generalizing early with
  | nil =>
      cases left
      exact right
  | cons datum rest ih =>
      obtain ⟨reading, read, left⟩ := Option.bind_eq_some_iff.mp left
      obtain ⟨others, readRest, left⟩ := Option.bind_eq_some_iff.mp left
      cases left
      rw [List.cons_append, allReadings?, read, ih readRest]
      rfl

/-- Only no data show nothing. -/
theorem eq_nil_of_allReadings? {data : List SExpr} (read : allReadings? data = some []) :
    data = [] := by
  cases data with
  | nil => rfl
  | cons datum rest =>
      obtain ⟨_, _, read⟩ := Option.bind_eq_some_iff.mp read
      obtain ⟨_, _, read⟩ := Option.bind_eq_some_iff.mp read
      cases read

end SExpr

open SExpr

/-- The data of two lists of trees come one after the other. -/
theorem Tree.data_append (first second : List Tree) :
    data (first ++ second) = data first ++ data second := by
  induction first with
  | nil => rfl
  | cons tree rest ih =>
      rw [List.cons_append, data, data, ih]
      cases tree.datum? <;> rfl

/-- The data of the grammar among children, of which the newest comes first. -/
def Tree.readings? (children : List Tree) : Option (List Reading) :=
  allReadings? (data children.reverse)

/-- The tree wraps a node that shows the datum. -/
def Tree.Wraps (tree : Tree) (reading : Reading) : Prop :=
  ∃ child, tree = .node .datum [child] ∧ child.sexpr.reading? = some reading

/-- A tree that wraps a datum holds that datum alone. -/
theorem Tree.data_of_wraps {tree : Tree} {reading : Reading} (wraps : tree.Wraps reading) :
    ∃ datum, data [tree] = [datum] ∧ datum.reading? = some reading := by
  obtain ⟨child, rfl, read⟩ := wraps
  exact ⟨child.sexpr, rfl, read⟩

/-- A leaf among children shows nothing. -/
theorem Tree.readings?_leaf (kind : LeafKind) (text : String) (children : List Tree) :
    readings? (.leaf kind text :: children) = readings? children := by
  rw [readings?, List.reverse_cons, data_append]
  exact congrArg allReadings? (List.append_nil _)

/-- A new child that wraps a datum shows it last. -/
theorem Tree.readings?_wraps {tree : Tree} {reading : Reading} (wraps : tree.Wraps reading)
    {children : List Tree} {readings : List Reading} (read : readings? children = some readings) :
    readings? (tree :: children) = some (readings ++ [reading]) := by
  obtain ⟨datum, shown, last⟩ := data_of_wraps wraps
  rw [readings?, List.reverse_cons, data_append, shown]
  refine allReadings?_append read ?_
  rw [allReadings?, last]
  rfl

/-- The node that a bracket opens. -/
def Bracket.opener : Bracket → OpenerKind
  | .list => .list
  | .vector => .vector

/-- The node that stays open for the frame. -/
def Frame.kind : Frame → OpenerKind
  | .enclosed bracket _ => bracket.opener
  | .quote => .quote

namespace OpenNode

/-- The open node has read what the frame has. -/
structure Shows (node : OpenNode) (frame : Frame) : Prop where
  kind : node.kind = frame.kind
  readings : Tree.readings? node.children = some (Outline.elements frame)

variable {node : OpenNode}

/-- A leaf changes nothing that the node has read. -/
theorem Shows.leaf {frame : Frame} (shows : node.Shows frame) (kind : LeafKind) (text : String) :
    (node.add (.leaf kind text)).Shows frame :=
  ⟨shows.kind, (Tree.readings?_leaf kind text node.children).trans shows.readings⟩

/-- An open list or vector reads the datum that a new child wraps. -/
theorem Shows.add {bracket : Bracket} {elements : List Reading}
    (shows : node.Shows (.enclosed bracket elements)) {tree : Tree} {reading : Reading}
    (wraps : tree.Wraps reading) :
    (node.add tree).Shows (.enclosed bracket (elements ++ [reading])) :=
  ⟨shows.kind, Tree.readings?_wraps wraps shows.readings⟩

/-- A quote with its datum is a quotation. -/
theorem Shows.closeQuote (shows : node.Shows .quote) {tree : Tree} {reading : Reading}
    (wraps : tree.Wraps reading) : (node.close [tree]).Wraps (.quotation reading) := by
  obtain ⟨datum, shown, read⟩ := Tree.data_of_wraps wraps
  have before : Tree.data node.children.reverse = [] := eq_nil_of_allReadings? shows.readings
  refine ⟨_, rfl, ?_⟩
  rw [shows.kind]
  show (SExpr.abbreviation _ (Tree.data (node.children.reverse ++ [tree]))).reading? = _
  rw [Tree.data_append, before, shown]
  show datum.reading?.map Reading.quotation = _
  rw [read]
  rfl

/-- A list or vector that closes wraps what it has read. -/
theorem Shows.close {bracket : Bracket} {elements : List Reading}
    (shows : node.Shows (.enclosed bracket elements)) (kind : LeafKind) (text : String) :
    (node.close [.leaf kind text]).Wraps (.enclosed bracket elements) := by
  have inside : allReadings? (Tree.data (node.children.reverse ++ [.leaf kind text])) =
      some elements := by
    rw [← List.reverse_cons]
    exact (Tree.readings?_leaf kind text node.children).trans shows.readings
  refine ⟨_, rfl, ?_⟩
  rw [shows.kind]
  cases bracket with
  | list =>
      show (allReadings? (Tree.data _)).map (Reading.enclosed .list) = _
      rw [inside]
      rfl
  | vector =>
      show (allReadings? (Tree.data _)).map (Reading.enclosed .vector) = _
      rw [inside]
      rfl

end OpenNode

namespace Builder

/-- The builder has reported nothing and has read what the outline has. -/
structure Shows (builder : Builder) (outline : Outline) : Prop where
  errors : builder.errors = []
  finished : Tree.readings? builder.finished = some outline.finished
  opened : List.Forall₂ OpenNode.Shows builder.opened outline.opened

variable {builder : Builder} {outline : Outline}

/-- At first neither has read anything. -/
theorem shows_empty : Shows .empty .empty :=
  ⟨rfl, rfl, .nil⟩

/-- A leaf changes nothing that the builder has read. -/
theorem Shows.leaf (shows : builder.Shows outline) (kind : LeafKind) (text : String) :
    (builder.add (.leaf kind text)).Shows outline := by
  obtain ⟨opened, finished, errors⟩ := builder
  obtain ⟨frames, data⟩ := outline
  obtain ⟨unreported, read, nodes⟩ := shows
  cases nodes with
  | nil => exact ⟨unreported, (Tree.readings?_leaf kind text finished).trans read, .nil⟩
  | cons innermost outer => exact ⟨unreported, read, .cons (innermost.leaf kind text) outer⟩

/-- A placed tree is read where the machine puts its datum. -/
theorem shows_placeIn {tree : Tree} {reading : Reading} (wraps : tree.Wraps reading)
    {opened : List OpenNode} {finished : List Tree} {frames : List Frame} {data : List Reading}
    (nodes : List.Forall₂ OpenNode.Shows opened frames)
    (read : Tree.readings? finished = some data) :
    Shows ⟨(placeIn tree opened finished).1, (placeIn tree opened finished).2, []⟩
      (Outline.put data frames reading) := by
  induction nodes generalizing tree reading with
  | nil => exact ⟨rfl, Tree.readings?_wraps wraps read, .nil⟩
  | @cons node frame opened frames innermost outer ih =>
      rw [placeIn, innermost.kind]
      cases frame with
      | quote => exact ih (innermost.closeQuote wraps)
      | enclosed bracket elements =>
          have added := List.Forall₂.cons (innermost.add wraps) outer
          cases bracket <;> exact ⟨rfl, read, added⟩

/-- Placing a tree shows what accepting its datum does. -/
theorem Shows.place (shows : builder.Shows outline) {tree : Tree} {reading : Reading}
    (wraps : tree.Wraps reading) : (builder.place tree).Shows (outline.accept reading) := by
  obtain ⟨opened, finished, errors⟩ := builder
  obtain ⟨rfl, read, nodes⟩ := shows
  exact shows_placeIn wraps nodes read

/-- Opening a node shows what the machine opens. -/
theorem Shows.start (shows : builder.Shows outline) (lexeme : Lexeme) (frame : Frame)
    (unread : Outline.elements frame = []) :
    (builder.start frame.kind lexeme).Shows (outline.start frame) := by
  refine ⟨shows.errors, shows.finished, .cons ⟨rfl, ?_⟩ shows.opened⟩
  rw [unread]
  exact Tree.readings?_leaf _ _ []

/-- A closing parenthesis takes no report back. -/
theorem errors_close {builder : Builder} (reported : builder.errors ≠ []) (lexeme : Lexeme) :
    (builder.close lexeme).errors ≠ [] := by
  unfold close
  split
  · exact reported
  · unfold add
    split <;> exact List.cons_ne_nil _ _

/-- A closing parenthesis reports an error exactly where the machine stops. -/
theorem Shows.close (shows : builder.Shows outline) (lexeme : Lexeme) :
    match outline.close? with
    | some next => (builder.abandonQuote.close lexeme).Shows next
    | none => (builder.abandonQuote.close lexeme).errors ≠ [] := by
  obtain ⟨opened, finished, errors⟩ := builder
  obtain ⟨frames, data⟩ := outline
  obtain ⟨rfl, read, nodes⟩ := shows
  cases nodes with
  | nil => exact List.cons_ne_nil _ _
  | @cons node frame opened frames innermost outer =>
      cases frame with
      | quote =>
          apply errors_close
          simp only [abandonQuote, innermost.kind, Frame.kind]
          exact List.cons_ne_nil _ _
      | enclosed bracket elements =>
          have kept : abandonQuote ⟨node :: opened, finished, []⟩ = ⟨node :: opened, finished, []⟩ := by
            cases bracket <;> simp only [abandonQuote, innermost.kind, Frame.kind, Bracket.opener]
          have below : Shows ⟨opened, finished, []⟩ ⟨frames, data⟩ := ⟨rfl, read, outer⟩
          rw [kept]
          exact below.place (innermost.close _ _)

/-- The builder reports an error exactly where the machine stops. -/
theorem Shows.step (shows : builder.Shows outline) (lexeme : Lexeme) :
    match outline.step? lexeme with
    | some next => (builder.step lexeme).Shows next
    | none => (builder.step lexeme).errors ≠ [] := by
  unfold Outline.step? Builder.step
  cases read : lexeme.token with
  | error error => exact List.cons_ne_nil _ _
  | ok token =>
      have atom {kind : AtomKind} (atomic : AtomKind.ofLeaf? (.token token.kind) = some kind) :
          (builder.place (.node .datum [lexeme.leaf])).Shows
            (outline.accept (.atom kind lexeme.text)) := by
        refine shows.place ⟨lexeme.leaf, rfl, ?_⟩
        rw [Lexeme.leaf, read, LeafKind.ofToken, Tree.sexpr, atomic]
        rfl
      cases token with
      | whitespace | lineEnding | comment => exact shows.leaf _ _
      | leftParen => exact shows.start lexeme (.enclosed .list []) rfl
      | startVector => exact shows.start lexeme (.enclosed .vector []) rfl
      | quote => exact shows.start lexeme .quote rfl
      | rightParen => exact shows.close lexeme
      | identifier | boolean | character | string | number => exact atom rfl

/-- A node that the source leaves open is reported. -/
theorem errors_finish (builder : Builder) :
    builder.finish.errors = [] ↔ builder.errors = [] ∧ builder.opened = [] := by
  have closed : builder.finish.errors = _ :=
    errors_closeAll builder.finished builder.errors builder.opened []
  rw [closed]
  constructor
  · intro nothing
    simp only [List.append_eq_nil_iff, List.reverse_eq_nil_iff, List.map_eq_nil_iff] at nothing
    refine ⟨nothing.1.1, ?_⟩
    cases opened : builder.opened with
    | nil => rfl
    | cons innermost outer =>
        rw [opened] at nothing
        cases quote : innermost.isQuote <;>
          simp [pending, waiting_cons, quote, Lexeme.dangles] at nothing
  · rintro ⟨unreported, closed⟩
    rw [unreported, closed]
    rfl

/-- If nothing is reported, the machine reads the lexemes to their end. -/
theorem Shows.run?_of_errors {lexemes : List Lexeme} (shows : builder.Shows outline)
    (unreported : (lexemes.foldl Builder.step builder).finish.errors = []) :
    ∃ data, outline.run? lexemes = some ⟨[], data⟩ := by
  induction lexemes generalizing builder outline with
  | nil =>
      obtain ⟨_, closed⟩ := builder.errors_finish.mp unreported
      obtain ⟨frames, data⟩ := outline
      have nodes := shows.opened
      rw [closed] at nodes
      cases nodes
      exact ⟨data, rfl⟩
  | cons lexeme rest ih =>
      have stepped := shows.step lexeme
      rw [Outline.run?]
      cases next : outline.step? lexeme with
      | some after =>
          rw [next] at stepped
          exact ih stepped unreported
      | none =>
          rw [next] at stepped
          have kept := errors_foldl (builder.step lexeme) rest
          rw [List.foldl_cons] at unreported
          rw [unreported, reported] at kept
          simp [stepped] at kept

/-- If the machine reads the lexemes to their end, nothing is reported, and the tree shows what the
machine has read. -/
theorem Shows.finish_of_run? {lexemes : List Lexeme} {data : List Reading}
    (shows : builder.Shows outline) (ran : outline.run? lexemes = some ⟨[], data⟩) :
    (lexemes.foldl Builder.step builder).finish.errors = [] ∧
      allReadings? (lexemes.foldl Builder.step builder).finish.data = some data := by
  induction lexemes generalizing builder outline with
  | nil =>
      cases ran
      obtain ⟨opened, finished, errors⟩ := builder
      obtain ⟨rfl, read, nodes⟩ := shows
      cases nodes
      exact ⟨rfl, read⟩
  | cons lexeme rest ih =>
      obtain ⟨next, stepped, ran⟩ := Option.bind_eq_some_iff.mp ran
      have followed := shows.step lexeme
      rw [stepped] at followed
      exact ih followed ran

end Builder

/-- The lexemes of a source that are no trivia. -/
def solidLexemes (source : String) : List Lexeme :=
  (lexemes source).filter (!·.isTrivia)

/-- A source without errors is derived, and its tree shows what is derived. -/
theorem Parse.derives_of_errors {source : String} (unreported : (Parse.ofSource source).errors = []) :
    (∀ lexeme ∈ lexemes source, ∃ token, lexeme.token = .ok token) ∧
      ∃ data, DerivesAll (solidLexemes source) data ∧
        allReadings? (Parse.ofSource source).data = some data := by
  obtain ⟨data, ran⟩ := Builder.shows_empty.run?_of_errors unreported
  obtain ⟨tokens, derives⟩ := (Outline.run?_eq_some_iff _ data).mp ran
  exact ⟨tokens, data, derives, (Builder.shows_empty.finish_of_run? ran).2⟩

/-- The parser reports nothing exactly if every lexeme is a token and the grammar derives the lexemes
that are no trivia. There is then one derivation, and the tree shows it. -/
theorem Parse.errors_eq_nil_iff_derives (source : String) :
    ((Parse.ofSource source).errors = [] ↔
        (∀ lexeme ∈ lexemes source, ∃ token, lexeme.token = .ok token) ∧
          ∃ data, DerivesAll (solidLexemes source) data) ∧
      ((Parse.ofSource source).errors = [] →
        ∃ data, allReadings? (Parse.ofSource source).data = some data ∧
          ∀ other, DerivesAll (solidLexemes source) other ↔ other = data) := by
  have shown {data : List Reading} (tokens : ∀ lexeme ∈ lexemes source, ∃ token,
      lexeme.token = .ok token) (derives : DerivesAll (solidLexemes source) data) :
      (Parse.ofSource source).errors = [] ∧
        allReadings? (Parse.ofSource source).data = some data :=
    Builder.shows_empty.finish_of_run? ((Outline.run?_eq_some_iff _ data).mpr ⟨tokens, derives⟩)
  constructor
  · constructor
    · intro unreported
      obtain ⟨tokens, data, derives, _⟩ := derives_of_errors unreported
      exact ⟨tokens, data, derives⟩
    · rintro ⟨tokens, data, derives⟩
      exact (shown tokens derives).1
  · intro unreported
    obtain ⟨tokens, data, derives, read⟩ := derives_of_errors unreported
    refine ⟨data, read, fun other => ⟨fun derivesOther => ?_, fun same => same ▸ derives⟩⟩
    have readOther := (shown tokens derivesOther).2
    rw [read] at readOther
    exact (Option.some.inj readOther).symm

/-- A comment stands between a quote and its datum. -/
def scatteredSource : String :=
  "(a ' ; b\n #( 1 )) \"c\" "

/-- The grammar derives this source in one way, with two data. -/
theorem scatteredSource_derives :
    (Parse.ofSource scatteredSource).errors = [] ∧
      ∃ data, allReadings? (Parse.ofSource scatteredSource).data = some data ∧ data.length = 2 ∧
        ∀ other, DerivesAll (solidLexemes scatteredSource) other ↔ other = data := by
  have unreported : (Parse.ofSource scatteredSource).errors = [] := by decide +kernel
  have counted : (allReadings? (Parse.ofSource scatteredSource).data).map List.length = some 2 := by
    decide +kernel
  obtain ⟨data, read, unique⟩ := (Parse.errors_eq_nil_iff_derives scatteredSource).2 unreported
  rw [read] at counted
  exact ⟨unreported, data, read, Option.some.inj counted, unique⟩

end SmallScheme
