/-
This file shows that the printed text of a datum reads back as the datum. The text spells a known tree,
and the tree lowers to the datum.
-/

import SmallScheme.Data.Datum
import SmallScheme.Program.Lower
import SmallScheme.Proofs.Data.Equality
import SmallScheme.Proofs.Tree.Proper
import SmallScheme.Proofs.Tree.Spelling

namespace SmallScheme

open Pattern Token Lexeme

namespace Datum

mutual

/-- The tree of the text of a datum inside its `datum` node. No text stands for `void`. -/
def core : Datum → Tree
  | .integer value => .leaf (.token .number) (Text.Decimal.text value)
  | .character value => .leaf (.token .character) (Character.text value)
  | .string content => .leaf (.token .string) ("\"" ++ content ++ "\"")
  | .symbol name => .leaf (.token .identifier) name
  | .boolean value => .leaf (.token .boolean) (booleanText value)
  | .list elements => .enclosed .list (trees elements)
  | .vector elements => .enclosed .vector (trees elements)
  | .quotation quoted =>
      .node .abbreviation [OpenerKind.leaf .quote, .node .datum [quoted.core]]
  | .void => .node .root []

/-- The trees of the texts of some data. -/
def trees : List Datum → List Tree
  | [] => []
  | datum :: rest => .node .datum [datum.core] :: trees rest

end

/-- The tree of the text of a datum. -/
def tree (datum : Datum) : Tree :=
  .node .datum [datum.core]

mutual

/-- The data whose text reads back: every part has a text, and no list is a quotation in disguise. -/
def Readable : Datum → Prop
  | .integer _ => True
  | .character _ => True
  | .string content => '\x22' ∉ content.toList ∧ '\\' ∉ content.toList
  | .symbol name => ∃ held, (lexemes name).map Lexeme.token = [.ok (.identifier held)]
  | .boolean _ => True
  | .list elements => elements.head? ≠ some (.symbol "quote") ∧ AllReadable elements
  | .vector elements => AllReadable elements
  | .quotation quoted => Readable quoted
  | .void => False

def AllReadable : List Datum → Prop
  | [] => True
  | datum :: rest => Readable datum ∧ AllReadable rest

end

/-- The name in the text of a character. -/
def characterName (value : Char) : String :=
  String.ofList ((Character.text value).toList.drop 2)

/-- The token of a datum without parts. -/
def token? : Datum → Option Token
  | .integer value => some (.number value)
  | .character value => some (.character (characterName value))
  | .string content => some (.string content)
  | .symbol name => some (.identifier name)
  | .boolean value => some (.boolean value)
  | _ => none

/-- Data are printed one by one. -/
theorem texts_eq_map (data : List Datum) : texts data = data.map text := by
  induction data with
  | nil => rfl
  | cons datum rest inductionHypothesis => rw [texts, inductionHypothesis, List.map_cons]

/-- The trees of some data are those of each of them. -/
theorem trees_eq_map (data : List Datum) : trees data = data.map tree := by
  induction data with
  | nil => rfl
  | cons datum rest inductionHypothesis =>
      rw [trees, inductionHypothesis, List.map_cons, tree]

section Atoms

/-- The text of an integer is a number. -/
theorem matches_integer (value : Int) :
    Matches Token.Kind.number.pattern (Text.Decimal.chars value) := by
  have digits (magnitude : Nat) :
      Matches (.plus (.char Char.isDigit)) (Text.Decimal.digits magnitude) :=
    matches_plus_char.mpr ⟨Nat.toDigits_ne_nil, fun _ => Text.Decimal.isDigit_of_mem_digits⟩
  cases value with
  | ofNat magnitude => exact .seq (.altLeft .empty) (digits magnitude)
  | negSucc magnitude => exact .seq (.altRight (.char (c := '-') rfl)) (digits (magnitude + 1))

/-- Any character names itself, and the two that would not have names. -/
theorem matches_character (value : Char) :
    Matches Token.Kind.character.pattern (Character.text value).toList := by
  unfold Character.text
  split
  · decide
  · split
    · decide
    · next unbroken _ =>
        rw [String.toList_append, String.toList_singleton]
        refine .seq (matches_verbatim.mpr rfl) (matches_char_seq.mpr ⟨value, [], rfl, ?_, .starNil⟩)
        simpa using unbroken

/-- A text between quotes is a string if nothing in it would need an escape. -/
theorem matches_string_text {content : String} (unquoted : '\x22' ∉ content.toList)
    (unescaped : '\\' ∉ content.toList) :
    Matches Token.Kind.string.pattern ("\"" ++ content ++ "\"").toList := by
  rw [matches_string]
  exact ⟨content.toList, by simp, unquoted, unescaped⟩

/-- The text of a readable atom is read as its token. -/
theorem matches_text {datum : Datum} {token : Token} (atomic : datum.token? = some token)
    (readable : datum.Readable) :
    Matches token.kind.pattern datum.text.toList ∧
      token.kind.read datum.text.toList = .ok token := by
  cases datum with
  | integer value =>
      obtain rfl := Option.some.inj atomic
      simp only [text, Text.Decimal.text, String.toList_ofList]
      refine ⟨matches_integer value, ?_⟩
      simp only [Token.kind, Token.Kind.read, Text.Decimal.read?_chars]
  | character value =>
      obtain rfl := Option.some.inj atomic
      exact ⟨matches_character value, rfl⟩
  | string content =>
      obtain rfl := Option.some.inj atomic
      refine ⟨matches_string_text readable.1 readable.2, ?_⟩
      simp [text, Token.kind, Token.Kind.read]
  | symbol name =>
      obtain rfl := Option.some.inj atomic
      obtain ⟨held, single⟩ := readable
      refine ⟨(matches_of_single single).1, ?_⟩
      simp [text, Token.kind, Token.Kind.read]
  | boolean value =>
      obtain rfl := Option.some.inj atomic
      cases value with
      | true => exact ⟨by decide, by decide⟩
      | false => exact ⟨by decide, by decide⟩
  | _ => contradiction

/-- A symbol reads back exactly if its name is an identifier. -/
theorem readable_symbol_iff {name : String} :
    (symbol name).Readable ↔ Matches Token.Kind.identifier.pattern name.toList := by
  constructor
  · intro readable
    have atomic : (symbol name).token? = some (.identifier name) := rfl
    exact (matches_text atomic readable).1
  · intro matched
    have ended : ∀ c ∈ ([] : List Char).head?, Token.Kind.identifier.continues c = false := by simp
    have alone := ofChars_append matched ended 0
    rw [List.append_nil] at alone
    exact ⟨String.ofList name.toList, by rw [lexemes, alone, ofChars]; rfl⟩

end Atoms

section Texts

/-- The tree of an atom is a leaf that lowering takes for an atom. -/
theorem core_of_token? {datum : Datum} {token : Token} (atomic : datum.token? = some token) :
    datum.core = .leaf (.token token.kind) datum.text ∧
      ∃ atom, AtomKind.ofLeaf? (.token token.kind) = some atom := by
  cases datum with
  | integer | character | string | symbol | boolean =>
      obtain rfl := Option.some.inj atomic
      exact ⟨rfl, _, rfl⟩
  | _ => contradiction

/-- The text of a readable atom builds its tree. -/
theorem spells_of_token? {datum : Datum} {token : Token} (atomic : datum.token? = some token)
    (readable : datum.Readable) : Spells datum.text.toList datum.tree := by
  obtain ⟨matched, read⟩ := matches_text atomic readable
  obtain ⟨leaf, atom, kind⟩ := core_of_token? atomic
  have spelled := spells_atom matched read kind
  rwa [String.ofList_toList, ← leaf] at spelled

variable {elements : List Datum}

/-- The text of the elements starts as the first of them does. -/
theorem isBlank_of_spaced {datum : Datum} {rest : List Datum} (following : List Char)
    (spelled : Spells datum.text.toList datum.tree) :
    ∀ c ∈ ((" ".intercalate ((datum :: rest).map text)).toList ++ following).head?,
      isBlank c = false := by
  obtain ⟨first, more, chars, solid⟩ := spelled.starts
  cases rest with
  | nil => simpa [String.intercalate_singleton, chars] using solid
  | cons next rest => simpa [String.intercalate_cons_cons, chars] using solid

/-- Elements with single blanks between them add their trees and the blanks to the open node. -/
theorem foldl_spaced (spelled : ∀ element ∈ elements, Spells element.text.toList element.tree)
    (node : OpenNode) (unquoted : node.kind ≠ .quote) (outer : List OpenNode)
    (finished : List Tree) (errors : List ParseError) (rest : List Char) (start : Nat) :
    ∃ stop,
      (ofChars start ((" ".intercalate (elements.map text)).toList ++ ')' :: rest)).foldl
          Builder.step ⟨node :: outer, finished, errors⟩ =
        (ofChars stop (')' :: rest)).foldl Builder.step
          ⟨⟨node.kind, node.span, ((elements.map tree).intersperse .blank).reverse ++ node.children⟩
            :: outer, finished, errors⟩ := by
  induction elements generalizing node start with
  | nil => exact ⟨start, rfl⟩
  | cons datum others inductionHypothesis =>
      rw [List.forall_mem_cons] at spelled
      obtain ⟨first, later⟩ := spelled
      cases others with
      | nil =>
          obtain ⟨stop, built⟩ := first.builds (')' :: rest) (by simp [Delimits]) start
            ⟨node :: outer, finished, errors⟩
          rw [place_of_unquoted unquoted] at built
          exact ⟨stop, by simpa [String.intercalate_singleton, OpenNode.add] using built⟩
      | cons next others =>
          have chars : (" ".intercalate ((datum :: next :: others).map text)).toList ++ ')' :: rest =
              datum.text.toList ++
                ' ' :: ((" ".intercalate ((next :: others).map text)).toList ++ ')' :: rest) := by
            simp [String.intercalate_cons_cons]
          obtain ⟨second, built⟩ := first.builds (' ' :: _) (by simp [Delimits]) start
            ⟨node :: outer, finished, errors⟩
          rw [place_of_unquoted unquoted] at built
          obtain ⟨third, separated⟩ := foldl_blank
            (isBlank_of_spaced (')' :: rest) (later next List.mem_cons_self)) second
          obtain ⟨stop, remaining⟩ :=
            inductionHypothesis later ((node.add datum.tree).add .blank) unquoted third
          refine ⟨stop, ?_⟩
          rw [chars, built, separated, remaining]
          simp [OpenNode.add]

/-- Elements with single blanks between them build a list or a vector. -/
theorem spells_enclosed (opener : OpenerKind) (unquoted : opener ≠ .quote)
    (spelled : ∀ element ∈ elements, Spells element.text.toList element.tree) :
    Spells (opener.chars ++ (" ".intercalate (elements.map text)).toList ++ [')'])
      (.node .datum [.enclosed opener (elements.map tree)]) where
  starts := by cases opener <;> exact ⟨_, _, rfl, rfl⟩
  builds := by
    intro rest _ start builder
    obtain ⟨span, first, opened⟩ := foldl_opener opener
      ((" ".intercalate (elements.map text)).toList ++ ')' :: rest) start builder
    obtain ⟨second, filled⟩ := foldl_spaced spelled ⟨opener, span, [opener.leaf]⟩ unquoted
      builder.opened builder.finished builder.errors rest first
    obtain ⟨stop, closed⟩ := foldl_closing
      ⟨opener, span, ((elements.map tree).intersperse .blank).reverse ++ [opener.leaf]⟩
      unquoted builder.opened builder.finished builder.errors rest second
    refine ⟨stop, ?_⟩
    rw [List.append_assoc, List.append_assoc, List.singleton_append, opened, filled, closed]
    simp [OpenNode.close, Tree.enclosed]

mutual

/-- The text of a readable datum builds its tree. -/
theorem spells_text (datum : Datum) (readable : datum.Readable) :
    Spells datum.text.toList datum.tree := by
  cases datum with
  | list elements =>
      have spelled := spells_enclosed .list (by decide) (spells_texts elements readable.2)
      simpa [text, texts_eq_map, tree, core, trees_eq_map, OpenerKind.chars] using spelled
  | vector elements =>
      have spelled := spells_enclosed .vector (by decide) (spells_texts elements readable)
      simpa [text, texts_eq_map, tree, core, trees_eq_map, OpenerKind.chars] using spelled
  | quotation quoted =>
      have spelled := spells_quotation (spells_text quoted readable)
      simpa [text, tree, core, OpenerKind.chars] using spelled
  | void => exact readable.elim
  | _ => exact spells_of_token? rfl readable

/-- The texts of readable data build their trees. -/
theorem spells_texts (elements : List Datum) (readable : AllReadable elements) :
    ∀ element ∈ elements, Spells element.text.toList element.tree := by
  cases elements with
  | nil => simp
  | cons datum rest =>
      rw [List.forall_mem_cons]
      exact ⟨spells_text datum readable.1, spells_texts rest readable.2⟩

end

end Texts

section Lowering

variable {datum : Datum} {elements : List Datum}

/-- The S-expression that the text of a datum stands for. -/
def sexpr (datum : Datum) : SExpr :=
  datum.core.sexpr

/-- Blanks and the closing parenthesis add no data. -/
theorem data_spaced (elements : List Datum) :
    Tree.data ((elements.map tree).intersperse .blank ++ [.closing]) = elements.map sexpr := by
  induction elements with
  | nil => rfl
  | cons datum others inductionHypothesis =>
      cases others with
      | nil => rfl
      | cons next others => exact congrArg (datum.sexpr :: ·) inductionHypothesis

/-- The text of a list stands for the list of what its elements stand for. -/
theorem sexpr_list (elements : List Datum) :
    ∃ source, (list elements).sexpr = .list source (elements.map sexpr) := by
  rw [← data_spaced, ← trees_eq_map]
  exact ⟨_, rfl⟩

/-- The text of a vector stands for the vector of what its elements stand for. -/
theorem sexpr_vector (elements : List Datum) :
    ∃ source, (vector elements).sexpr = .vector source (elements.map sexpr) := by
  rw [← data_spaced, ← trees_eq_map]
  exact ⟨_, rfl⟩

/-- The text of a readable atom is one token. -/
theorem ofText?_text {token : Token} (atomic : datum.token? = some token)
    (readable : datum.Readable) : Token.ofText? datum.text = some token := by
  obtain ⟨matched, read⟩ := matches_text atomic readable
  have alone := ofText?_of_matches matched read
  rwa [String.ofList_toList] at alone

/-- The text of a readable symbol is an identifier. -/
theorem identifier?_symbol {name : String} (readable : (symbol name).Readable) :
    (symbol name).sexpr.identifier? = some name := by
  have read : Token.ofText? name = some (.identifier name) := ofText?_text rfl readable
  simp [sexpr, core, Tree.sexpr, AtomKind.ofLeaf?, SExpr.identifier?, read]

/-- Only a symbol reads as an identifier. -/
theorem eq_symbol_of_identifier? {name : String} (readable : datum.Readable)
    (named : datum.sexpr.identifier? = some name) : datum = .symbol name := by
  cases datum with
  | symbol own =>
      rw [identifier?_symbol readable] at named
      rw [Option.some.inj named]
  | _ => contradiction

/-- No readable list invokes `quote`. -/
theorem specialForm?_ne_quote (readable : (list elements).Readable) :
    SExpr.specialForm? (elements.map sexpr) ≠ some .quote := by
  intro special
  obtain ⟨head, all⟩ := readable
  cases elements with
  | nil => contradiction
  | cons datum rest =>
      obtain ⟨name, named, quote⟩ := Option.bind_eq_some_iff.mp special
      obtain rfl := SpecialForm.ofName?_eq_some_iff.mp quote
      exact head (congrArg some (eq_symbol_of_identifier? all.1 named))

/-- The name of a character stands for the character. -/
theorem ofName_characterName (value : Char) :
    Character.ofName (characterName value) = .ok value := by
  unfold characterName Character.text
  split
  · next same => rw [same]; rfl
  · split
    · next same => rw [same]; rfl
    · simp [Character.ofName]

/-- A literal is quoted as a constant. -/
theorem toQuoted_constant {text : String} {kind : AtomKind} {literal : Literal}
    (constant : kind ≠ .symbol) (read : Literal.ofAtom? text kind = some literal) :
    (SExpr.atom text kind).toQuoted = .ok (.constant literal) := by
  cases kind with
  | symbol => contradiction
  | _ =>
      simp only [SExpr.toQuoted, read]
      rfl

/-- A list that does not invoke `quote` is quoted element by element. -/
theorem toQuoted_list {source : Tree} {parts : List SExpr}
    (unquoted : SExpr.specialForm? parts ≠ some .quote) :
    (SExpr.list source parts).toQuoted = return .list (← SExpr.allToQuoted parts) := by
  unfold SExpr.toQuoted
  split
  · contradiction
  · contradiction
  · rfl

/-- A quotation inside quoted data stays one. -/
theorem toQuoted_quotation (quoted : Datum) :
    (quotation quoted).sexpr.toQuoted = return .quotation (← quoted.sexpr.toQuoted) := rfl

mutual

/-- The S-expression of a readable datum lowers to quoted data that stand for the datum. -/
theorem toQuoted_sexpr (datum : Datum) (readable : datum.Readable) :
    ∃ quoted, datum.sexpr.toQuoted = .ok quoted ∧ ofQuoted quoted = .ok datum := by
  cases datum with
  | integer value =>
      have token : Token.ofText? (integer value).text = some (.number value) :=
        ofText?_text rfl readable
      have read : Literal.ofAtom? (integer value).text .number = some (.integer value) := by
        simp only [Literal.ofAtom?, token]
      exact ⟨_, toQuoted_constant (by decide) read, rfl⟩
  | character value =>
      have token : Token.ofText? (character value).text = some (.character (characterName value)) :=
        ofText?_text rfl readable
      have read : Literal.ofAtom? (character value).text .character =
          some (.character (characterName value)) := by
        simp only [Literal.ofAtom?, token]
      refine ⟨_, toQuoted_constant (by decide) read, ?_⟩
      rw [ofQuoted, ofLiteral, ofName_characterName]
      rfl
  | string content =>
      have token : Token.ofText? (string content).text = some (.string content) :=
        ofText?_text rfl readable
      have read : Literal.ofAtom? (string content).text .string = some (.string content) := by
        simp only [Literal.ofAtom?, token]
      exact ⟨_, toQuoted_constant (by decide) read, rfl⟩
  | symbol name =>
      refine ⟨.symbol name, ?_, rfl⟩
      change (do return Quoted.symbol (← SExpr.required name (symbol name).sexpr.identifier?)) = _
      rw [identifier?_symbol readable]
      rfl
  | boolean value =>
      have token : Token.ofText? (boolean value).text = some (.boolean value) :=
        ofText?_text rfl readable
      have read : Literal.ofAtom? (boolean value).text .boolean = some (.boolean value) := by
        simp only [Literal.ofAtom?, token]
      exact ⟨_, toQuoted_constant (by decide) read, rfl⟩
  | list elements =>
      obtain ⟨source, shape⟩ := sexpr_list elements
      obtain ⟨quoted, lowered, read⟩ := allToQuoted_sexprs elements readable.2
      refine ⟨.list quoted, ?_, ?_⟩
      · rw [shape, toQuoted_list (specialForm?_ne_quote readable), lowered]
        rfl
      · rw [ofQuoted, read]
        rfl
  | vector elements =>
      obtain ⟨source, shape⟩ := sexpr_vector elements
      obtain ⟨quoted, lowered, read⟩ := allToQuoted_sexprs elements readable
      refine ⟨.vector quoted, ?_, ?_⟩
      · rw [shape, SExpr.toQuoted, lowered]
        rfl
      · rw [ofQuoted, read]
        rfl
  | quotation inner =>
      obtain ⟨quoted, lowered, read⟩ := toQuoted_sexpr inner readable
      refine ⟨.quotation quoted, ?_, ?_⟩
      · rw [toQuoted_quotation, lowered]
        rfl
      · rw [ofQuoted, read]
        rfl
  | void => exact readable.elim

/-- Readable data lower to quoted data that stand for them. -/
theorem allToQuoted_sexprs (elements : List Datum) (readable : AllReadable elements) :
    ∃ quoted, SExpr.allToQuoted (elements.map sexpr) = .ok quoted ∧
      allOfQuoted quoted = .ok elements := by
  cases elements with
  | nil => exact ⟨[], rfl, rfl⟩
  | cons datum rest =>
      obtain ⟨first, loweredFirst, readFirst⟩ := toQuoted_sexpr datum readable.1
      obtain ⟨later, loweredLater, readLater⟩ := allToQuoted_sexprs rest readable.2
      refine ⟨first :: later, ?_, ?_⟩
      · rw [List.map_cons, SExpr.allToQuoted, loweredFirst, loweredLater]
        rfl
      · rw [allOfQuoted, readFirst, readLater]
        rfl

end

end Lowering

end Datum

namespace Program

/-- A quote before the text of a readable datum is a program that quotes the datum. -/
theorem ofSource_quoted_text (datum : Datum) (readable : datum.Readable) :
    ∃ quoted, ofSource ("'" ++ datum.text) = .ok ⟨[.expression (.quotation quoted)]⟩ ∧
      Datum.ofQuoted quoted = .ok datum ∧ datum.equal datum = true := by
  obtain ⟨quoted, lowered, read⟩ := datum.toQuoted_sexpr readable
  refine ⟨quoted, ?_, read, datum.equal_self⟩
  have parsed : Parse.ofSource ("'" ++ datum.text) = ⟨.node .root [datum.quotation.tree], []⟩ :=
    Parse.ofSource_of_spells (datum.quotation.spells_text readable)
  have whole : datum.quotation.sexpr.toQuoted = .ok (.quotation quoted) := by
    rw [Datum.toQuoted_quotation, lowered]
    rfl
  have form : datum.quotation.sexpr.toForm = .ok (.expression (.quotation quoted)) := by
    change (do return Form.expression (← datum.quotation.sexpr.toQuotation)) = _
    rw [SExpr.toQuotation, whole]
    rfl
  rw [ofSource, parsed]
  change (do return Program.mk (← SExpr.allToForms [datum.quotation.sexpr])) = _
  rw [SExpr.allToForms, form]
  rfl

/-- Every delimiter stands next to a character, a string or a nested datum. -/
def crowdedDatum : Datum :=
  .list [.symbol "->x", .character '(', .string "a;\n'b", .vector [.integer (-7), .character ' '],
    .quotation (.list []), .character '\x22', .boolean false]

/-- The text of this datum is a program that quotes it. -/
theorem crowdedDatum_reads_back : crowdedDatum.Readable ∧
    ∃ quoted, ofSource ("'" ++ crowdedDatum.text) = .ok ⟨[.expression (.quotation quoted)]⟩ ∧
      Datum.ofQuoted quoted = .ok crowdedDatum ∧ crowdedDatum.equal crowdedDatum = true := by
  have arrow : (Datum.symbol "->x").Readable := Datum.readable_symbol_iff.mpr (by decide)
  have readable : crowdedDatum.Readable := by
    simp [crowdedDatum, Datum.Readable, Datum.AllReadable] at arrow ⊢
    exact arrow
  exact ⟨readable, ofSource_quoted_text crowdedDatum readable⟩

end Program

end SmallScheme
