/-
This file shows that the typed layer reads every datum of a tree, whatever is wrong with its source, and
that an atom reads as the token that its lexeme is in the source.
-/

import SmallScheme.Program.Lower
import SmallScheme.Proofs.Token.Tiling
import SmallScheme.Proofs.Tree.Lossless

namespace SmallScheme

/-- A tree below the root: a leaf, or a datum that wraps an atom or a node of such trees. -/
inductive Tree.Typed : Tree → Prop
  | leaf (kind : LeafKind) (text : String) : Typed (.leaf kind text)
  | atom {kind : LeafKind} {atom : AtomKind} (atomic : AtomKind.ofLeaf? kind = some atom)
      (text : String) : Typed (.node .datum [.leaf kind text])
  | node (opener : OpenerKind) {children : List Tree} (typed : ∀ child ∈ children, Typed child) :
      Typed (.node .datum [.node opener.nodeKind children])

namespace OpenNode

/-- Every child of the open node is typed. -/
def Typed (node : OpenNode) : Prop :=
  ∀ child ∈ node.children, child.Typed

variable {node : OpenNode}

/-- A typed child may join a typed node. -/
theorem Typed.add (typed : node.Typed) {tree : Tree} (added : tree.Typed) : (node.add tree).Typed :=
  List.forall_mem_cons.mpr ⟨added, typed⟩

/-- A typed node that closes is a typed tree. -/
theorem Typed.close (typed : node.Typed) {last : List Tree} (ended : ∀ tree ∈ last, tree.Typed) :
    (node.close last).Typed := by
  apply Tree.Typed.node
  simp only [List.mem_append, List.mem_reverse]
  intro child member
  exact member.elim (typed child) (ended child)

end OpenNode

namespace Builder

/-- The trees built so far are typed, those of the open nodes too. -/
structure Typed (builder : Builder) : Prop where
  finished : ∀ tree ∈ builder.finished, tree.Typed
  opened : ∀ node ∈ builder.opened, node.Typed

variable {builder : Builder} {tree : Tree} {lexeme : Lexeme}

/-- A typed tree may join what is typed so far. -/
theorem Typed.add (typed : builder.Typed) (added : tree.Typed) : (builder.add tree).Typed := by
  obtain ⟨opened, finished, errors⟩ := builder
  cases opened with
  | nil => exact ⟨List.forall_mem_cons.mpr ⟨added, typed.finished⟩, typed.opened⟩
  | cons innermost outer =>
      obtain ⟨inner, others⟩ := List.forall_mem_cons.mp typed.opened
      exact ⟨typed.finished, List.forall_mem_cons.mpr ⟨inner.add added, others⟩⟩

/-- A report changes no tree. -/
theorem Typed.report (typed : builder.Typed) (error : ParseError) : (builder.report error).Typed :=
  ⟨typed.finished, typed.opened⟩

/-- A typed tree may be placed, and the quotes that it completes are typed too. -/
theorem typed_placeIn (placed : tree.Typed) {opened : List OpenNode} {finished : List Tree}
    (errors : List ParseError) (typed : Typed ⟨opened, finished, errors⟩) :
    Typed ⟨(placeIn tree opened finished).1, (placeIn tree opened finished).2, errors⟩ := by
  induction opened generalizing tree with
  | nil => exact ⟨List.forall_mem_cons.mpr ⟨placed, typed.finished⟩, typed.opened⟩
  | cons innermost outer ih =>
      obtain ⟨inner, others⟩ := List.forall_mem_cons.mp typed.opened
      have here : Typed ⟨innermost.add tree :: outer, finished, errors⟩ :=
        ⟨typed.finished, List.forall_mem_cons.mpr ⟨inner.add placed, others⟩⟩
      rw [placeIn]
      cases innermost.kind with
      | list => exact here
      | vector => exact here
      | quote =>
          apply ih
          · exact inner.close (by simpa using placed)
          · exact ⟨typed.finished, others⟩

/-- A typed tree may be placed. -/
theorem Typed.place (typed : builder.Typed) (placed : tree.Typed) : (builder.place tree).Typed :=
  typed_placeIn placed builder.errors typed

/-- A new node is typed. -/
theorem Typed.start (typed : builder.Typed) (kind : OpenerKind) (lexeme : Lexeme) :
    (builder.start kind lexeme).Typed := by
  refine ⟨typed.finished, List.forall_mem_cons.mpr ⟨?_, typed.opened⟩⟩
  intro child member
  rw [List.mem_singleton.mp member]
  exact .leaf _ _

/-- An abandoned quote is typed. -/
theorem Typed.abandonQuote (typed : builder.Typed) : builder.abandonQuote.Typed := by
  obtain ⟨opened, finished, errors⟩ := builder
  cases opened with
  | nil => exact typed
  | cons innermost outer =>
      obtain ⟨inner, others⟩ := List.forall_mem_cons.mp typed.opened
      unfold Builder.abandonQuote
      cases kind : innermost.kind with
      | list => simpa [kind] using typed
      | vector => simpa [kind] using typed
      | quote =>
          have below : Typed ⟨outer, finished, errors⟩ := ⟨typed.finished, others⟩
          have closed : (innermost.close []).Typed := inner.close (by simp)
          simpa [kind] using (below.report (.danglingQuote innermost.span)).place closed

/-- A closing parenthesis keeps the trees typed, also where it is stray. -/
theorem Typed.close (typed : builder.Typed) (lexeme : Lexeme) : (builder.close lexeme).Typed := by
  obtain ⟨opened, finished, errors⟩ := builder
  cases opened with
  | nil => exact (typed.report _).add (.leaf _ _)
  | cons innermost outer =>
      obtain ⟨inner, others⟩ := List.forall_mem_cons.mp typed.opened
      have below : Typed ⟨outer, finished, errors⟩ := ⟨typed.finished, others⟩
      apply below.place
      apply inner.close
      intro child member
      rw [List.mem_singleton.mp member]
      exact .leaf _ _

/-- Every step keeps the trees typed. -/
theorem Typed.step (typed : builder.Typed) (lexeme : Lexeme) : (builder.step lexeme).Typed := by
  unfold Builder.step
  cases token : lexeme.token with
  | error error => exact (typed.report _).place (.leaf _ _)
  | ok read =>
      have atom {kind : AtomKind} (atomic : AtomKind.ofLeaf? (.token read.kind) = some kind) :
          (Tree.node .datum [lexeme.leaf]).Typed := by
        rw [Lexeme.leaf, token]
        exact .atom atomic lexeme.text
      cases read with
      | whitespace | lineEnding | comment => exact typed.add (.leaf _ _)
      | leftParen | startVector | quote => exact typed.start _ lexeme
      | rightParen => exact typed.abandonQuote.close lexeme
      | identifier | boolean | character | string | number => exact typed.place (atom rfl)

/-- Reading keeps the trees typed. -/
theorem Typed.foldl (typed : builder.Typed) (lexemes : List Lexeme) :
    (lexemes.foldl Builder.step builder).Typed := by
  induction lexemes generalizing builder with
  | nil => exact typed
  | cons lexeme rest ih => exact ih (typed.step lexeme)

/-- The nodes that the end of the source closes are typed. -/
theorem typed_closeAll {finished : List Tree} (errors : List ParseError) {opened : List OpenNode}
    {last : List Tree} (typed : ∀ tree ∈ finished, tree.Typed) (nodes : ∀ node ∈ opened, node.Typed)
    (ended : ∀ tree ∈ last, tree.Typed) :
    ∀ tree ∈ (closeAll finished errors opened last).1, tree.Typed := by
  induction opened generalizing errors last with
  | nil =>
      intro tree member
      exact (List.mem_append.mp member).elim (ended tree) (typed tree)
  | cons innermost outer ih =>
      obtain ⟨inner, others⟩ := List.forall_mem_cons.mp nodes
      apply ih _ others
      simpa using inner.close ended

end Builder

/-- Every tree below the root is typed, also in a source with errors. -/
theorem Parse.typed_ofSource (source : String) :
    ∃ children, (ofSource source).tree = .node .root children ∧ ∀ child ∈ children, child.Typed := by
  have empty : Builder.empty.Typed := ⟨by simp [Builder.empty], by simp [Builder.empty]⟩
  obtain ⟨finished, opened⟩ := empty.foldl (lexemes source)
  refine ⟨_, rfl, ?_⟩
  simp only [List.mem_reverse]
  exact Builder.typed_closeAll _ finished opened (by simp)

namespace Tree

/-- The subtree stands in the tree after so many leaves. -/
inductive At (tree : Tree) : Nat → Tree → Prop
  | root : At tree 0 tree
  | child {offset : Nat} {kind : NodeKind} {before after : List Tree} {child : Tree}
      (parent : At tree offset (.node kind (before ++ child :: after))) :
      At tree (offset + (allLeaves before).length) child

variable {tree subtree : Tree} {offset : Nat}

/-- The leaves of an occurrence stand in the tree at its place. -/
theorem At.leaves (stands : tree.At offset subtree) :
    ∃ before after, tree.leaves = before ++ subtree.leaves ++ after ∧ before.length = offset := by
  induction stands with
  | root => exact ⟨[], [], by simp, rfl⟩
  | @child offset kind earlier later child parent ih =>
      obtain ⟨before, after, parts, counted⟩ := ih
      refine ⟨before ++ allLeaves earlier, allLeaves later ++ after, ?_, by simp [counted]⟩
      rw [parts, Tree.leaves, allLeaves_append, allLeaves]
      simp only [List.append_assoc]

/-- The leaf of an occurrence is the leaf of the tree at its place. -/
theorem At.leaf {kind : LeafKind} {text : String} (stands : tree.At offset (.leaf kind text)) :
    tree.leaves[offset]? = some (kind, text) := by
  obtain ⟨before, after, parts, counted⟩ := stands.leaves
  rw [parts, ← counted]
  simp [Tree.leaves]

/-- What stands in the tree is typed, or a node of typed trees that is no datum. -/
theorem At.typed {children : List Tree} (typed : ∀ child ∈ children, child.Typed)
    (stands : (Tree.node .root children).At offset subtree) :
    subtree.Typed ∨ ∃ kind inner, subtree = .node kind inner ∧ kind ≠ .datum ∧
      ∀ child ∈ inner, child.Typed := by
  induction stands with
  | root => exact .inr ⟨.root, children, rfl, by simp, typed⟩
  | @child offset kind earlier later child parent ih =>
      have member : child ∈ earlier ++ child :: later := by simp
      generalize earlier ++ child :: later = inner at ih member
      obtain wrapped | ⟨_, _, same, _, all⟩ := ih
      · cases wrapped with
        | atom atomic text =>
            rw [List.mem_singleton.mp member]
            exact .inl (.leaf _ _)
        | node opener all =>
            have other : opener.nodeKind ≠ .datum := by cases opener <;> simp [OpenerKind.nodeKind]
            exact .inr ⟨_, _, List.mem_singleton.mp member, other, all⟩
      · obtain ⟨rfl, rfl⟩ := Tree.node.inj same
        exact .inl (all child member)

/-- A datum that stands in the tree is typed. -/
theorem At.typed_datum {children inner : List Tree} (typed : ∀ child ∈ children, child.Typed)
    (stands : (Tree.node .root children).At offset (.node .datum inner)) :
    (Tree.node .datum inner).Typed := by
  obtain wrapped | ⟨_, _, same, other, _⟩ := stands.typed typed
  · exact wrapped
  · exact absurd (Tree.node.inj same).1.symm other

end Tree

/-- The atom has the kind of the token, and what is extracted from its text is what the token holds. -/
def Token.Extracted : Token → SExpr → Prop
  | .identifier name, .atom text .symbol => (SExpr.atom text .symbol).identifier? = some name
  | .number value, .atom text .number => Literal.ofAtom? text .number = some (.integer value)
  | .string content, .atom text .string => Literal.ofAtom? text .string = some (.string content)
  | .character name, .atom text .character => Literal.ofAtom? text .character = some (.character name)
  | .boolean value, .atom text .boolean => Literal.ofAtom? text .boolean = some (.boolean value)
  | _, _ => False

/-- The child of a datum in the typed layer: an atom reads as the token of the lexeme at its place, and
any other child is a list, a vector or an abbreviation with its data. -/
def Tree.Shown (source : String) (offset : Nat) : Tree → Prop
  | .leaf kind text => ∃ lexeme token, (lexemes source)[offset]? = some lexeme ∧
      lexeme.token = .ok token ∧ lexeme.text = text ∧ token.Extracted (Tree.leaf kind text).sexpr
  | .node kind inner =>
      kind = .list ∧ (Tree.node kind inner).sexpr = .list (.node kind inner) (data inner) ∨
      kind = .vector ∧ (Tree.node kind inner).sexpr = .vector (.node kind inner) (data inner) ∨
      kind = .abbreviation ∧
        (Tree.node kind inner).sexpr = .abbreviation (.node kind inner) (data inner)

/-- A node below a datum is shown as it is. -/
theorem Tree.shown_node (source : String) (offset : Nat) (opener : OpenerKind) (inner : List Tree) :
    (Tree.node opener.nodeKind inner).Shown source offset := by
  cases opener with
  | list => exact .inl ⟨rfl, rfl⟩
  | vector => exact .inr (.inl ⟨rfl, rfl⟩)
  | quote => exact .inr (.inr ⟨rfl, rfl⟩)

namespace Lexeme

variable {source : String} {lexeme : Lexeme} {token : Token}

/-- A token on its own is the whole of its text. -/
theorem lexemes_text (member : lexeme ∈ lexemes source) (read : lexeme.token = .ok token) :
    lexemes lexeme.text = [⟨.ok token, lexeme.text, ⟨0, lexeme.text.utf8ByteSize⟩⟩] := by
  obtain ⟨matched, again⟩ := matches_of_mem member read
  have ended : ∀ c ∈ ([] : List Char).head?, token.kind.continues c = false := by simp
  have alone := ofChars_append matched ended 0
  rw [List.append_nil, again, byteLength_eq, String.ofList_toList, Nat.zero_add, ofChars] at alone
  exact alone

/-- What is extracted from the text of an atom is what its token holds. -/
theorem extracted_of_mem {atom : AtomKind} (member : lexeme ∈ lexemes source)
    (read : lexeme.token = .ok token) (atomic : AtomKind.ofLeaf? (.token token.kind) = some atom) :
    token.Extracted (.atom lexeme.text atom) := by
  have again := ofText?_of_mem member read
  cases token <;> cases atomic <;> simp [Token.Extracted, SExpr.identifier?, Literal.ofAtom?, again]

/-- A leaf that is no error is the leaf of a token. -/
theorem exists_of_leaves {offset : Nat} {kind : Token.Kind} {text : String}
    (leaf : (Parse.ofSource source).tree.leaves[offset]? = some (.token kind, text)) :
    ∃ lexeme token, (lexemes source)[offset]? = some lexeme ∧ lexeme.token = .ok token ∧
      lexeme.text = text ∧ token.kind = kind := by
  rw [Parse.leaves_ofSource, getElem?_leavesAfter, Option.map_eq_some_iff] at leaf
  obtain ⟨lexeme, found, same⟩ := leaf
  obtain ⟨kinds, texts⟩ := Prod.mk.inj same
  split at kinds
  · cases kinds
  · cases read : lexeme.token with
    | error error =>
        rw [read] at kinds
        cases kinds
    | ok token =>
        rw [read] at kinds
        exact ⟨lexeme, token, found, read, texts, LeafKind.token.inj kinds⟩

end Lexeme

/-- Every datum of a tree has one child, which the typed layer shows. -/
theorem Parse.shown_of_at {source : String} {offset : Nat} {children : List Tree}
    (stands : (ofSource source).tree.At offset (.node .datum children)) :
    ∃ child, children = [child] ∧ child.Shown source offset := by
  obtain ⟨outer, root, typed⟩ := typed_ofSource source
  have datum : (Tree.node .datum children).Typed := by
    rw [root] at stands
    exact stands.typed_datum typed
  cases datum with
  | node opener all => exact ⟨_, rfl, Tree.shown_node source offset opener _⟩
  | @atom kind atom atomic text =>
      refine ⟨_, rfl, ?_⟩
      have inside : (ofSource source).tree.At (offset + (Tree.allLeaves []).length) (.leaf kind text) :=
        .child stands
      have leaf := inside.leaf
      cases kind with
      | error => cases atomic
      | token kind =>
          obtain ⟨lexeme, token, found, read, rfl, rfl⟩ := Lexeme.exists_of_leaves leaf
          refine ⟨lexeme, token, found, read, rfl, ?_⟩
          rw [Tree.sexpr, atomic]
          exact Lexeme.extracted_of_mem (List.mem_of_getElem? found) read atomic

end SmallScheme
