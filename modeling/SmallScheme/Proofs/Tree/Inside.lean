/-
This file shows that a source without errors is read inside an open node as it is read on its own, and
from that what the two spellings of a quotation are read as.
-/

import SmallScheme.Proofs.Tree.Lines
import SmallScheme.Proofs.Tree.Spelling
import SmallScheme.Proofs.Tree.Typed

namespace SmallScheme

namespace Builder

section Onto

/-- A builder takes a tree that is read to its end. -/
def put (builder : Builder) : Tree → Builder
  | .leaf kind text => builder.add (.leaf kind text)
  | .node kind children => builder.place (.node kind children)

/-- The builder reads at a later place of a source, on top of another builder. -/
def onto (offset : Nat) (base builder : Builder) : Builder :=
  let below := builder.finished.reverse.foldl put base
  { below with opened := builder.opened.map (OpenNode.shift offset) ++ below.opened }

variable (offset : Nat) (base builder : Builder)

/-- Adding a leaf on top of another builder adds it to the top. -/
theorem add_onto (kind : LeafKind) (text : String) :
    (onto offset base builder).add (.leaf kind text) =
      onto offset base (builder.add (.leaf kind text)) := by
  obtain ⟨opened, finished, errors⟩ := builder
  cases opened with
  | nil => simp [onto, add, put]
  | cons innermost outer => simp [onto, add, OpenNode.add, OpenNode.shift]

/-- Placing a node on top of another builder places it in the top. -/
theorem place_onto (kind : NodeKind) (children : List Tree) :
    (onto offset base builder).place (.node kind children) =
      onto offset base (builder.place (.node kind children)) := by
  obtain ⟨opened, finished, errors⟩ := builder
  induction opened generalizing kind children with
  | nil => simp [onto, place, placeIn, put]
  | cons innermost outer ih =>
      obtain ⟨opener, span, inner⟩ := innermost
      cases opener with
      | quote => exact ih _ _
      | list => rfl
      | vector => rfl

/-- Reading on top of another builder is the same step, unless the step makes a report. -/
theorem step_onto {builder : Builder} {lexeme : Lexeme} (unreported : (builder.step lexeme).errors = []) :
    (onto offset base builder).step (lexeme.shift offset) = onto offset base (builder.step lexeme) := by
  obtain ⟨token, text, span⟩ := lexeme
  obtain ⟨opened, finished, errors⟩ := builder
  cases token with
  | error error => cases unreported
  | ok token =>
      cases token with
      | whitespace | lineEnding | comment => exact add_onto offset base _ _ text
      | leftParen | startVector | quote => rfl
      | identifier | boolean | character | string | number =>
          exact place_onto offset base _ .datum [.leaf _ text]
      | rightParen =>
          -- A report is made if nothing is open, or if a quote is.
          cases opened with
          | nil => cases unreported
          | cons innermost outer =>
              obtain ⟨opener, span, inner⟩ := innermost
              cases opener with
              | quote =>
                  apply absurd unreported
                  apply errors_close
                  exact List.cons_ne_nil _ _
              | list | vector => exact place_onto offset base ⟨outer, finished, errors⟩ .datum _

/-- Lexemes that leave nothing to report are read on top of another builder as they are alone. -/
theorem foldl_step_onto {builder : Builder} {lexemes : List Lexeme}
    (unreported : (lexemes.foldl step builder).finish.errors = []) :
    (lexemes.map (Lexeme.shift offset)).foldl step (onto offset base builder) =
      onto offset base (lexemes.foldl step builder) := by
  induction lexemes generalizing builder with
  | nil => rfl
  | cons lexeme rest ih =>
      have whole := errors_foldl (builder.step lexeme) rest
      rw [List.foldl_cons] at unreported
      rw [unreported, eq_comm, List.append_eq_nil_iff, List.append_eq_nil_iff, reported,
        List.append_eq_nil_iff, List.reverse_eq_nil_iff] at whole
      rw [List.map_cons, List.foldl_cons, step_onto offset base whole.1.1.1, ih unreported,
        List.foldl_cons]

end Onto

section Put

variable {finished : List Tree} {errors : List ParseError} {trees : List Tree}

/-- An open node takes the trees as its next children. A quote stays open for leaves only. -/
theorem foldl_put {node : OpenNode} {outer : List OpenNode}
    (stays : node.kind = .quote → ∀ tree ∈ trees, ∃ kind text, tree = .leaf kind text) :
    trees.foldl put ⟨node :: outer, finished, errors⟩ =
      ⟨{ node with children := trees.reverse ++ node.children } :: outer, finished, errors⟩ := by
  induction trees generalizing node with
  | nil => rfl
  | cons tree rest ih =>
      have added : put ⟨node :: outer, finished, errors⟩ tree =
          ⟨node.add tree :: outer, finished, errors⟩ := by
        by_cases quotes : node.kind = .quote
        · obtain ⟨kind, text, rfl⟩ := stays quotes tree List.mem_cons_self
          rfl
        · cases tree with
          | leaf kind text => rfl
          | node kind children => exact place_of_unquoted quotes outer finished errors _
      have later (quotes : (node.add tree).kind = .quote) :=
        (List.forall_mem_cons.mp (stays quotes)).2
      rw [List.foldl_cons, added, ih later]
      simp [OpenNode.add]

/-- Outside of every node the trees are finished. -/
theorem foldl_put_root (trees finished : List Tree) (errors : List ParseError) :
    trees.foldl put ⟨[], finished, errors⟩ = ⟨[], trees.reverse ++ finished, errors⟩ := by
  induction trees generalizing finished with
  | nil => rfl
  | cons tree rest ih =>
      have added : put ⟨[], finished, errors⟩ tree = ⟨[], tree :: finished, errors⟩ := by
        cases tree <;> rfl
      rw [List.foldl_cons, added, ih]
      simp

end Put

end Builder

namespace Tree

/-- The tree of the name that spells a quotation out. -/
def quoteName : Tree :=
  .node .datum [.leaf (.token .identifier) "quote"]

variable {trees : List Tree} {datum : SExpr}

/-- One datum among typed trees comes after leaves. -/
theorem split_of_data (typed : ∀ tree ∈ trees, tree.Typed) (single : data trees = [datum]) :
    ∃ lead child trail, trees = lead ++ .node .datum [child] :: trail ∧ child.sexpr = datum ∧
      data trail = [] ∧ ∀ tree ∈ lead, ∃ kind text, tree = .leaf kind text := by
  induction trees with
  | nil => cases single
  | cons tree rest ih =>
      obtain ⟨here, later⟩ := List.forall_mem_cons.mp typed
      cases here with
      | leaf kind text =>
          obtain ⟨lead, child, trail, rfl, shown, bare, leaves⟩ := ih later single
          exact ⟨.leaf kind text :: lead, child, trail, rfl, shown, bare,
            List.forall_mem_cons.mpr ⟨⟨kind, text, rfl⟩, leaves⟩⟩
      | atom atomic text =>
          obtain ⟨shown, bare⟩ := List.cons.inj single
          exact ⟨[], _, rest, rfl, shown, bare, by simp⟩
      | node opener inner =>
          obtain ⟨shown, bare⟩ := List.cons.inj single
          exact ⟨[], _, rest, rfl, shown, bare, by simp⟩

/-- Leaves hold no data. -/
theorem data_of_leaves (leaves : ∀ tree ∈ trees, ∃ kind text, tree = .leaf kind text) :
    data trees = [] := by
  induction trees with
  | nil => rfl
  | cons tree rest ih =>
      obtain ⟨⟨kind, text, rfl⟩, others⟩ := List.forall_mem_cons.mp leaves
      exact ih others

end Tree

namespace Lexeme

/-- The blanks before a source only move it. -/
theorem ofChars_blanks (chars : List Char) :
    ∃ lead offset, (∀ lexeme ∈ lead, lexeme.isTrivia = true) ∧
      ofChars 0 chars = lead ++ (ofChars 0 (chars.dropWhile Token.isBlank)).map (shift offset) := by
  have parts : chars.takeWhile Token.isBlank ++ chars.dropWhile Token.isBlank = chars :=
    List.takeWhile_append_dropWhile
  by_cases bare : chars.takeWhile Token.isBlank = []
  · rw [bare, List.nil_append] at parts
    refine ⟨[], 0, by simp, ?_⟩
    rw [parts]
    exact ofChars_shift 0 0 chars
  · have matched : Pattern.Matches Token.Kind.whitespace.pattern (chars.takeWhile Token.isBlank) :=
      Pattern.matches_plus_char.mpr ⟨bare, List.all_eq_true.mp List.all_takeWhile⟩
    have stops : ∀ c ∈ (chars.dropWhile Token.isBlank).head?,
        Token.Kind.whitespace.continues c = false := by
      intro c head
      have first := List.head?_dropWhile_not Token.isBlank chars
      rw [head] at first
      exact first
    have split := ofChars_append matched stops 0
    rw [parts, ofChars_shift] at split
    exact ⟨[_], _, by simp [isTrivia, Token.Kind.read], split⟩

/-- What follows a line of tokens starts lexemes of its own. -/
theorem ofChars_line {chars : List Char}
    (tokens : ∀ lexeme ∈ ofChars 0 chars, ∃ token, lexeme.token = .ok token) :
    ∃ stop, ∀ start more, ofChars start (chars ++ '\n' :: more) =
      ofChars start (chars ++ ['\n']) ++ ofChars (stop + start) more := by
  obtain ⟨kept, last, ending, stop, _, _, joined⟩ := ofChars_newline 0 chars tokens
  have line := joined []
  rw [ofChars, List.append_nil] at line
  refine ⟨stop, fun start more => ?_⟩
  have moved (text : List Char) := ofChars_shift start 0 text
  simp only [Nat.zero_add] at moved
  rw [moved, moved, joined, ← line, List.map_append, ofChars_shift]

end Lexeme

namespace Parse

/-- Trivia before the lexemes change neither their reports nor their data. -/
theorem finished_after_trivia {lead lexemes : List Lexeme}
    (trivia : ∀ lexeme ∈ lead, lexeme.isTrivia = true) (offset : Nat) :
    (((lead ++ lexemes.map (Lexeme.shift offset)).foldl Builder.step .empty).Finished ↔
        (lexemes.foldl Builder.step .empty).Finished) ∧
      Tree.data ((lead ++ lexemes.map (Lexeme.shift offset)).foldl
          Builder.step .empty).finished.reverse =
        Tree.data (lexemes.foldl Builder.step .empty).finished.reverse := by
  obtain ⟨leaves, ended, bare⟩ := @Builder.foldl_step_trivia .empty lead rfl trivia
  have started : lead.foldl Builder.step .empty = Builder.empty.moved offset leaves := by
    rw [ended]
    simp [Builder.moved, Builder.empty]
  rw [List.foldl_append, started, Builder.foldl_step_moved]
  refine ⟨?_, ?_⟩
  · simp [Builder.Finished, Builder.moved]
  · simp only [Builder.moved, List.reverse_append, Tree.data_append, bare, List.nil_append]

variable {source : String} {datum : SExpr}

/-- A blank before a source changes neither its reports nor its data. -/
theorem ofSource_blank (unreported : (ofSource source).errors = []) :
    (ofSource (" " ++ source)).errors = [] ∧
      (ofSource (" " ++ source)).data = (ofSource source).data := by
  have blank : (" " ++ source).toList.dropWhile Token.isBlank =
      source.toList.dropWhile Token.isBlank := by
    rw [String.toList_append]
    rfl
  obtain ⟨lead, offset, trivia, alone⟩ := Lexeme.ofChars_blanks source.toList
  obtain ⟨later, place, others, after⟩ := Lexeme.ofChars_blanks (" " ++ source).toList
  rw [blank] at after
  obtain ⟨finished, same⟩ := finished_after_trivia trivia offset
  obtain ⟨ended, shown⟩ := finished_after_trivia others place
  rw [← alone] at finished same
  rw [← after] at ended shown
  have whole := ended.mpr (finished.mp (finished_of_errors unreported))
  have nothing : (ofSource (" " ++ source)).errors = [] := (Builder.errors_finish _).mpr whole.symm
  refine ⟨nothing, ?_⟩
  rw [data_of_errors nothing, data_of_errors unreported]
  exact shown.trans same.symm

/-- A source without errors is read on top of every builder, which takes its trees. -/
theorem foldl_step_of_errors (unreported : (ofSource source).errors = []) :
    ∃ trees, (∀ tree ∈ trees, tree.Typed) ∧ Tree.data trees = (ofSource source).data ∧
      ∀ start base, (Lexeme.ofChars start source.toList).foldl Builder.step base =
        trees.foldl Builder.put base := by
  have finished := finished_of_errors unreported
  have built : ofSource source = ⟨.node .root _, []⟩ := finished.finish
  obtain ⟨children, root, typed⟩ := typed_ofSource source
  rw [built] at root
  obtain ⟨_, rfl⟩ := Tree.node.inj root
  refine ⟨_, typed, (data_of_errors unreported).symm, fun start base => ?_⟩
  have read := Builder.foldl_step_onto start base unreported
  have shifted := Lexeme.ofChars_shift start 0 source.toList
  rw [Nat.zero_add] at shifted
  rw [shifted]
  refine read.trans ?_
  rw [Builder.onto, finished.1]
  rfl

/-- The data of a source whose lexemes leave nothing open. -/
theorem data_of_built {trees : List Tree}
    (built : (lexemes source).foldl Builder.step .empty = ⟨[], trees, []⟩) :
    (ofSource source).errors = [] ∧ (ofSource source).data = Tree.data trees.reverse := by
  rw [ofSource, ofLexemes, built]
  exact ⟨rfl, rfl⟩

/-- A quote before a source with one datum makes an abbreviation of the datum. -/
theorem data_abbreviation (unreported : (ofSource source).errors = [])
    (single : (ofSource source).data = [datum]) :
    (ofSource ("'" ++ source)).errors = [] ∧
      ∃ tree, (ofSource ("'" ++ source)).data = [.abbreviation tree [datum]] := by
  obtain ⟨trees, typed, data, read⟩ := foldl_step_of_errors unreported
  obtain ⟨lead, child, trail, rfl, rfl, bare, leaves⟩ :=
    Tree.split_of_data typed (data.trans single)
  obtain ⟨span, start, opened⟩ := foldl_opener .quote source.toList 0 .empty
  have lexed : lexemes ("'" ++ source) = Lexeme.ofChars 0 (OpenerKind.quote.chars ++ source.toList) := by
    rw [lexemes, String.toList_append]
    rfl
  have built := opened.trans (read start _)
  rw [← lexed, List.foldl_append, Builder.foldl_put (fun _ => leaves), List.foldl_cons] at built
  let node : OpenNode := ⟨.quote, span, lead.reverse ++ [OpenerKind.leaf .quote]⟩
  obtain ⟨nothing, whole⟩ := data_of_built
    (built.trans (Builder.foldl_put_root trail [node.close [.node .datum [child]]] []))
  have within : Tree.data (node.children.reverse ++ [.node .datum [child]]) = [child.sexpr] := by
    simp [node, Tree.data_append, Tree.data_of_leaves leaves, Tree.data, Tree.datum?, OpenerKind.leaf]
  rw [List.reverse_append, List.reverse_reverse, Tree.data_append, bare, List.append_nil] at whole
  refine ⟨nothing, .node .abbreviation (node.children.reverse ++ [.node .datum [child]]), ?_⟩
  rw [whole, ← within]
  rfl

/-- A line of its own, after a blank, is read on top of every builder too, and the source goes on. -/
theorem foldl_step_line (unreported : (ofSource source).errors = []) :
    ∃ trees, Tree.data trees = (ofSource source).data ∧
      ∀ start more base, ∃ stop,
        (Lexeme.ofChars start ((" " ++ source).toList ++ '\n' :: more)).foldl Builder.step base =
          (Lexeme.ofChars stop more).foldl Builder.step (trees.foldl Builder.put base) := by
  obtain ⟨blank, same⟩ := ofSource_blank unreported
  have empty : (lexemes "").foldl Builder.step .empty = ⟨[], [], []⟩ := by
    simp [lexemes, Lexeme.ofChars, Builder.empty]
  obtain ⟨nothing, bare⟩ := data_of_built empty
  obtain ⟨clean, line⟩ := ofSource_append_newline blank nothing
  rw [String.append_empty] at clean line
  rw [same, bare] at line
  obtain ⟨trees, _, data, read⟩ := foldl_step_of_errors clean
  obtain ⟨stop, joined⟩ := Lexeme.ofChars_line (derives_of_errors blank).1
  have chars : (" " ++ source ++ "\n").toList = (" " ++ source).toList ++ ['\n'] := String.toList_append
  refine ⟨trees, data.trans (line.trans (List.append_nil _)), fun start more base => ⟨stop + start, ?_⟩⟩
  rw [joined, List.foldl_append, ← chars, read]

/-- A list opens with the name that spells a quotation out. -/
theorem foldl_quoteHead {rest : List Char}
    (stops : ∀ c ∈ rest.head?, Token.Kind.identifier.continues c = false) :
    ∃ span stop, (Lexeme.ofChars 0 (OpenerKind.list.chars ++ ("quote".toList ++ rest))).foldl
        Builder.step .empty =
      (Lexeme.ofChars stop rest).foldl Builder.step
        ⟨[⟨.list, span, [.quoteName, OpenerKind.leaf .list]⟩], [], []⟩ := by
  have matched : Pattern.Matches Token.Kind.identifier.pattern "quote".toList := by decide
  obtain ⟨span, start, opened⟩ := foldl_opener .list ("quote".toList ++ rest) 0 .empty
  obtain ⟨_, stop, named⟩ := foldl_token matched stops start
    ⟨[⟨.list, span, [OpenerKind.leaf .list]⟩], [], []⟩
  exact ⟨span, stop, opened.trans named⟩

/-- The spelled-out quotation of a source with one datum is a list of the name and the datum. -/
theorem data_quoteList (unreported : (ofSource source).errors = [])
    (single : (ofSource source).data = [datum]) :
    (ofSource ("(quote " ++ source ++ "\n)")).errors = [] ∧
      ∃ tree, (ofSource ("(quote " ++ source ++ "\n)")).data =
        [.list tree [.atom "quote" .symbol, datum]] := by
  obtain ⟨trees, data, read⟩ := foldl_step_line unreported
  let rest := (" " ++ source).toList ++ ['\n', ')']
  have lexed : lexemes ("(quote " ++ source ++ "\n)") =
      Lexeme.ofChars 0 (OpenerKind.list.chars ++ ("quote".toList ++ rest)) := by
    simp [lexemes, OpenerKind.chars, rest]
  have stops : ∀ c ∈ rest.head?, Token.Kind.identifier.continues c = false := by
    intro c head
    obtain rfl : ' ' = c := by simpa [rest] using head
    decide
  obtain ⟨span, next, opened⟩ := foldl_quoteHead stops
  obtain ⟨last, lined⟩ :=
    read next [')'] ⟨[⟨.list, span, [.quoteName, OpenerKind.leaf .list]⟩], [], []⟩
  rw [Builder.foldl_put (by simp)] at lined
  let node : OpenNode := ⟨.list, span, trees.reverse ++ [.quoteName, OpenerKind.leaf .list]⟩
  obtain ⟨_, closed⟩ := foldl_closing node (by simp [node]) [] [] [] [] last
  have built := opened.trans (lined.trans closed)
  rw [Lexeme.ofChars, ← lexed] at built
  have within : Tree.data (node.children.reverse ++ [.closing]) = [.atom "quote" .symbol, datum] := by
    rw [single] at data
    simp [node, Tree.data_append, data, Tree.data, Tree.datum?, Tree.sexpr, AtomKind.ofLeaf?,
      Tree.quoteName, OpenerKind.leaf, Tree.closing]
  obtain ⟨nothing, whole⟩ := @data_of_built _ [node.close [.closing]] built
  refine ⟨nothing, .node .list (node.children.reverse ++ [.closing]), ?_⟩
  rw [whole, ← within]
  rfl

end Parse

end SmallScheme
