/-
This file respells quotations at given places of a source only, and shows that its data are then
respelled at these places and nowhere else.
-/

import SmallScheme.Proofs.Tree.Layout
import SmallScheme.Proofs.Tree.Respelling

namespace SmallScheme

/-- The lexemes differ in the spelling of quotations. The places say of each lexeme of the first list
whether a quotation that starts with it may be respelled. -/
inductive RespellingAt : List Bool → List Lexeme → List Lexeme → Prop
  | nil : RespellingAt [] [] []
  | keep {free : Bool} {places : List Bool} {lexeme other : Lexeme} {first second : List Lexeme}
      (same : lexeme.token = other.token) (rest : RespellingAt places first second) :
      RespellingAt (free :: places) (lexeme :: first) (other :: second)
  | spellOut {mark opener name closer : Lexeme} {inside places : List Bool}
      {inner other first second : List Lexeme} {datum : Reading}
      (marks : QuoteMarks mark opener name closer) (derives : Derives inner datum)
      (within : RespellingAt inside inner other) (rest : RespellingAt places first second) :
      RespellingAt (true :: (inside ++ places)) (mark :: (inner ++ first))
        (opener :: name :: (other ++ closer :: second))
  | abbreviate {mark opener name closer : Lexeme} {named closed : Bool} {inside places : List Bool}
      {inner other first second : List Lexeme} {datum : Reading}
      (marks : QuoteMarks mark opener name closer) (derives : Derives inner datum)
      (within : RespellingAt inside inner other) (rest : RespellingAt places first second) :
      RespellingAt (true :: named :: (inside ++ closed :: places))
        (opener :: name :: (inner ++ closer :: first)) (mark :: (other ++ second))

/-- A respelling at given places is one anywhere. -/
theorem RespellingAt.respelling {places : List Bool} {first second : List Lexeme}
    (respelled : RespellingAt places first second) : Respelling first second := by
  induction respelled with
  | nil => exact .nil
  | keep same _ rest => exact .keep same rest
  | spellOut marks derives _ _ within rest => exact .spellOut marks derives within rest
  | abbreviate marks derives _ _ within rest => exact .abbreviate marks derives within rest

/-- Lists and vectors open with tokens of their own. -/
theorem Bracket.token_injective : Function.Injective Bracket.token := by
  intro first second same
  cases first <;> cases second <;> first | rfl | cases same

/-- Neither of them opens with a quote or a closing parenthesis. -/
theorem Bracket.token_ne (bracket : Bracket) :
    bracket.token ≠ .quote ∧ bracket.token ≠ .rightParen := by
  cases bracket <;> decide

/-- The token of an atom opens and closes nothing. -/
theorem AtomKind.token_ne {token : Token} {kind : AtomKind}
    (atomic : ofLeaf? (.token token.kind) = some kind) :
    token ≠ .quote ∧ token ≠ .rightParen ∧ ∀ bracket : Bracket, token ≠ bracket.token := by
  refine ⟨?_, ?_, ?_⟩
  · rintro rfl
    cases atomic
  · rintro rfl
    cases atomic
  · rintro bracket rfl
    cases bracket <;> cases atomic

/-- A lexeme has one token. -/
theorem Lexeme.token_unique {lexeme : Lexeme} {token other : Token} (read : lexeme.token = .ok token)
    (again : lexeme.token = .ok other) : token = other :=
  Except.ok.inj (read.symm.trans again)

/-- No datum starts with a closing parenthesis. -/
theorem Derives.ne_closer {lexemes rest others : List Lexeme} {datum : Reading} {closer : Lexeme}
    (derives : Derives lexemes datum) (closes : closer.token = .ok .rightParen) :
    lexemes ++ others ≠ closer :: rest := by
  intro same
  cases derives with
  | atom read atomic =>
      obtain ⟨rfl, _⟩ := List.cons.inj same
      exact (AtomKind.token_ne atomic).2.1 (Lexeme.token_unique read closes)
  | @enclosed bracket _ _ _ _ opens =>
      obtain ⟨rfl, _⟩ := List.cons.inj same
      exact bracket.token_ne.2 (Lexeme.token_unique opens closes)
  | quotation quotes =>
      obtain ⟨rfl, _⟩ := List.cons.inj same
      cases Lexeme.token_unique quotes closes

mutual

/-- Two data at the front of the same lexemes are one datum. -/
theorem Derives.unique {first second rest others : List Lexeme} {datum other : Reading}
    (left : Derives first datum) (right : Derives second other)
    (same : first ++ rest = second ++ others) : first = second ∧ datum = other := by
  match left with
  | .atom read atomic =>
      obtain ⟨unquoted, _, unopened⟩ := AtomKind.token_ne atomic
      cases right with
      | atom again atomicAgain =>
          obtain ⟨rfl, _⟩ := List.cons.inj same
          obtain rfl := Lexeme.token_unique read again
          cases atomic.symm.trans atomicAgain
          exact ⟨rfl, rfl⟩
      | enclosed opens =>
          obtain ⟨rfl, _⟩ := List.cons.inj same
          exact absurd (Lexeme.token_unique read opens) (unopened _)
      | quotation quotes =>
          obtain ⟨rfl, _⟩ := List.cons.inj same
          exact absurd (Lexeme.token_unique read quotes) unquoted
  | @Derives.enclosed bracket opener closer inner elements opens derives closes =>
      cases right with
      | atom read atomic =>
          obtain ⟨rfl, _⟩ := List.cons.inj same
          exact absurd (Lexeme.token_unique read opens) ((AtomKind.token_ne atomic).2.2 bracket)
      | @enclosed bracketAgain _ closerAgain innerAgain _ opensAgain derivesAgain closesAgain =>
          obtain ⟨rfl, inside⟩ := List.cons.inj same
          have tails : inner ++ closer :: rest = innerAgain ++ closerAgain :: others := by
            simpa using inside
          obtain ⟨rfl, rfl⟩ := derives.unique derivesAgain closes closesAgain tails
          obtain ⟨rfl, _⟩ := List.cons.inj (List.append_cancel_left tails)
          obtain rfl := Bracket.token_injective (Lexeme.token_unique opens opensAgain)
          exact ⟨rfl, rfl⟩
      | quotation quotes =>
          obtain ⟨rfl, _⟩ := List.cons.inj same
          exact absurd (Lexeme.token_unique opens quotes) bracket.token_ne.1
  | .quotation quotes derives =>
      cases right with
      | atom read atomic =>
          obtain ⟨rfl, _⟩ := List.cons.inj same
          exact absurd (Lexeme.token_unique read quotes) (AtomKind.token_ne atomic).1
      | @enclosed bracket _ _ _ _ opens =>
          obtain ⟨rfl, _⟩ := List.cons.inj same
          exact absurd (Lexeme.token_unique opens quotes) bracket.token_ne.1
      | quotation _ derivesAgain =>
          obtain ⟨rfl, tails⟩ := List.cons.inj same
          obtain ⟨rfl, rfl⟩ := derives.unique derivesAgain tails
          exact ⟨rfl, rfl⟩

/-- The closing parenthesis after some data shows where they end. -/
theorem DerivesAll.unique {first second rest others : List Lexeme} {data more : List Reading}
    {closer last : Lexeme} (left : DerivesAll first data) (right : DerivesAll second more)
    (closes : closer.token = .ok .rightParen) (ends : last.token = .ok .rightParen)
    (same : first ++ closer :: rest = second ++ last :: others) : first = second ∧ data = more := by
  match left with
  | .nil =>
      cases right with
      | nil => exact ⟨rfl, rfl⟩
      | cons derives =>
          rw [List.nil_append, List.append_assoc] at same
          exact absurd same.symm (derives.ne_closer closes)
  | .cons derives derivesRest =>
      cases right with
      | nil =>
          rw [List.nil_append, List.append_assoc] at same
          exact absurd same (derives.ne_closer ends)
      | cons derivesAgain derivesRestAgain =>
          rw [List.append_assoc, List.append_assoc] at same
          obtain ⟨rfl, rfl⟩ := derives.unique derivesAgain same
          obtain ⟨rfl, rfl⟩ :=
            derivesRest.unique derivesRestAgain closes ends (List.append_cancel_left same)
          exact ⟨rfl, rfl⟩

end

mutual

/-- The second datum is the first one with quotations respelled. The places say of each lexeme of the
first datum whether a quotation that starts with it may be respelled. -/
inductive Requotes : List Bool → Reading → Reading → Prop
  | atom {free : Bool} {kind : AtomKind} {text other : String}
      (read : Token.ofText? text = Token.ofText? other) :
      Requotes [free] (.atom kind text) (.atom kind other)
  | enclosed {opened closed : Bool} {inside : List Bool} {bracket : Bracket}
      {elements others : List Reading} (each : RequotesAll inside elements others) :
      Requotes (opened :: (inside ++ [closed])) (.enclosed bracket elements)
        (.enclosed bracket others)
  | quotation {free : Bool} {inside : List Bool} {datum other : Reading}
      (within : Requotes inside datum other) :
      Requotes (free :: inside) (.quotation datum) (.quotation other)
  | spellOut {inside : List Bool} {text : String} {datum other : Reading}
      (named : Token.ofText? text = some (.identifier "quote"))
      (within : Requotes inside datum other) :
      Requotes (true :: inside) (.quotation datum) (.enclosed .list [.atom .symbol text, other])
  | abbreviate {head closed : Bool} {inside : List Bool} {text : String} {datum other : Reading}
      (named : Token.ofText? text = some (.identifier "quote"))
      (within : Requotes inside datum other) :
      Requotes (true :: head :: (inside ++ [closed])) (.enclosed .list [.atom .symbol text, datum])
        (.quotation other)

/-- The data are respelled one by one. -/
inductive RequotesAll : List Bool → List Reading → List Reading → Prop
  | nil : RequotesAll [] [] []
  | cons {inside places : List Bool} {datum other : Reading} {data others : List Reading}
      (first : Requotes inside datum other) (rest : RequotesAll places data others) :
      RequotesAll (inside ++ places) (datum :: data) (other :: others)

end

/-- The text of the lexeme is read on its own as it is in the source. -/
def Lexeme.ReadsAlone (lexeme : Lexeme) : Prop :=
  ∀ token, lexeme.token = .ok token → Token.ofText? lexeme.text = some token

namespace RespellingAt

variable {places : List Bool} {lexeme : Lexeme} {rest others : List Lexeme}

/-- A lexeme is kept, or it starts a quotation that may be respelled. -/
theorem cases_cons (respelled : RespellingAt places (lexeme :: rest) others) :
    (∃ free after other left, places = free :: after ∧ others = other :: left ∧
        lexeme.token = other.token ∧ RespellingAt after rest left) ∨
      (∃ opener name closer inside after inner other first second, ∃ datum : Reading,
        QuoteMarks lexeme opener name closer ∧ Derives inner datum ∧
        RespellingAt inside inner other ∧ RespellingAt after first second ∧
        rest = inner ++ first ∧ places = true :: (inside ++ after) ∧
        others = opener :: name :: (other ++ closer :: second)) ∨
      ∃ mark name closer head closed inside after inner other first second, ∃ datum : Reading,
        QuoteMarks mark lexeme name closer ∧ Derives inner datum ∧
        RespellingAt inside inner other ∧ RespellingAt after first second ∧
        rest = name :: (inner ++ closer :: first) ∧
        places = true :: head :: (inside ++ closed :: after) ∧ others = mark :: (other ++ second) := by
  cases respelled with
  | keep same rest => exact .inl ⟨_, _, _, _, rfl, rfl, same, rest⟩
  | spellOut marks derives within rest =>
      exact .inr (.inl ⟨_, _, _, _, _, _, _, _, _, _, marks, derives, within, rest, rfl, rfl, rfl⟩)
  | abbreviate marks derives within rest =>
      exact .inr (.inr
        ⟨_, _, _, _, _, _, _, _, _, _, _, _, marks, derives, within, rest, rfl, rfl, rfl⟩)

/-- A lexeme that starts no quotation is kept. -/
theorem keep_of_ne (respelled : RespellingAt places (lexeme :: rest) others)
    (unquoted : lexeme.token ≠ .ok .quote) (unopened : lexeme.token ≠ .ok .leftParen) :
    ∃ free after other left, places = free :: after ∧ others = other :: left ∧
      lexeme.token = other.token ∧ RespellingAt after rest left := by
  obtain kept | ⟨_, _, _, _, _, _, _, _, _, _, marks, _⟩ |
    ⟨_, _, _, _, _, _, _, _, _, _, _, _, marks, _⟩ := respelled.cases_cons
  · exact kept
  · exact absurd marks.quotes unquoted
  · exact absurd marks.opens unopened

end RespellingAt

/-- The respelling starts with that of what is derived first, and goes on with that of the rest. -/
def Divides {A : Type} (derives : List Lexeme → A → Prop) (requotes : List Bool → A → A → Prop)
    (places : List Bool) (read : A) (rest others : List Lexeme) : Prop :=
  ∃ inside after other left shown, places = inside ++ after ∧ others = other ++ left ∧
    RespellingAt after rest left ∧ derives other shown ∧ requotes inside read shown

/-- Nothing is left after all the lexemes. -/
theorem Divides.whole {A : Type} {derives : List Lexeme → A → Prop}
    {requotes : List Bool → A → A → Prop} {places : List Bool} {read : A} {others : List Lexeme}
    (divides : Divides derives requotes places read [] others) :
    ∃ shown, derives others shown ∧ requotes places read shown := by
  obtain ⟨inside, after, other, left, shown, rfl, rfl, nothing, shows, requoted⟩ := divides
  cases nothing
  rw [List.append_nil, List.append_nil]
  exact ⟨shown, shows, requoted⟩

section Quotation

variable {mark opener name closer : Lexeme} {inside after : List Bool} {rest other left : List Lexeme}
  {datum shown : Reading}

/-- A quotation with a mark can be spelled out. -/
theorem divides_spellOut (marks : QuoteMarks mark opener name closer)
    (alone : ∀ lexeme ∈ opener :: name :: (other ++ closer :: left), lexeme.ReadsAlone)
    (shows : Derives other shown) (requotes : Requotes inside datum shown)
    (rested : RespellingAt after rest left) :
    Divides Derives Requotes (true :: (inside ++ after)) (.quotation datum) rest
      (opener :: name :: (other ++ closer :: left)) := by
  have named : Token.ofText? name.text = some (.identifier "quote") :=
    alone name (by simp) _ marks.names
  have elements : DerivesAll (name :: other) [.atom .symbol name.text, shown] :=
    .cons (.atom marks.names rfl) (.singleton shows)
  have written : Derives (opener :: (name :: other ++ [closer])) _ :=
    @Derives.enclosed .list _ _ _ _ marks.opens elements marks.closes
  refine ⟨true :: inside, after, _, left, _, rfl, ?_, rested, written, .spellOut named requotes⟩
  simp

/-- What is derived after a lexeme that is a datum of its own. -/
theorem DerivesAll.of_cons_atom {lexeme : Lexeme} {lexemes : List Lexeme} {atom : Reading}
    {data : List Reading} (derives : DerivesAll (lexeme :: lexemes) data)
    (single : Derives [lexeme] atom) : ∃ others, data = atom :: others ∧ DerivesAll lexemes others := by
  generalize written : lexeme :: lexemes = whole at derives
  cases derives with
  | nil => cases written
  | cons first rest =>
      obtain ⟨rfl, rfl⟩ := single.unique first written
      obtain ⟨_, rfl⟩ := List.cons.inj written
      exact ⟨_, rfl, rest⟩

/-- Lexemes that derive a list of one datum derive the datum. -/
theorem Derives.of_singleton {lexemes : List Lexeme} {datum : Reading}
    (derives : DerivesAll lexemes [datum]) : Derives lexemes datum := by
  generalize listed : [datum] = data at derives
  cases derives with
  | nil => cases listed
  | cons first rest =>
      obtain ⟨rfl, rfl⟩ := List.cons.inj listed
      cases rest
      rwa [List.append_nil]

/-- A list of the name and a datum can be abbreviated. -/
theorem divides_abbreviate (marks : QuoteMarks mark opener name closer) {head closed : Bool}
    (alone : name.ReadsAlone) {data : List Reading} (shows : DerivesAll (name :: other) data)
    (requotes : RequotesAll (head :: inside) [.atom .symbol name.text, datum] data)
    (rested : RespellingAt after rest left) :
    Divides Derives Requotes (true :: head :: (inside ++ closed :: after))
      (.enclosed .list [.atom .symbol name.text, datum]) rest (mark :: (other ++ left)) := by
  have named := alone _ marks.names
  obtain ⟨others, rfl, showsRest⟩ := shows.of_cons_atom (.atom marks.names rfl)
  generalize places : head :: inside = whole at requotes
  cases requotes with
  | cons first more =>
      cases more with
      | cons second none =>
          cases none
          cases first
          obtain ⟨_, rfl⟩ := List.cons.inj places
          refine ⟨true :: head :: (_ ++ [closed]), after, mark :: other, left, _, ?_, rfl, rested,
            .quotation marks.quotes (.of_singleton showsRest), .abbreviate named second⟩
          simp

end Quotation

mutual

/-- The respelling of a datum ends where the datum ends, and derives the datum respelled. -/
theorem Derives.divides {inner rest others : List Lexeme} {datum : Reading} {places : List Bool}
    (derives : Derives inner datum) (respelled : RespellingAt places (inner ++ rest) others)
    (alone : ∀ lexeme ∈ inner, lexeme.ReadsAlone)
    (aloneOthers : ∀ lexeme ∈ others, lexeme.ReadsAlone) :
    Divides Derives Requotes places datum rest others := by
  match derives with
  | @Derives.atom lexeme token kind read atomic =>
      obtain ⟨unquoted, _, unopened⟩ := AtomKind.token_ne atomic
      obtain ⟨free, after, other, left, rfl, rfl, same, rested⟩ :=
        RespellingAt.keep_of_ne respelled
          (fun quotes => unquoted (Lexeme.token_unique read quotes))
          fun opens => unopened .list (Lexeme.token_unique read opens)
      have again : other.token = .ok token := same.symm.trans read
      have texts : Token.ofText? lexeme.text = Token.ofText? other.text := by
        rw [alone lexeme List.mem_cons_self token read,
          aloneOthers other List.mem_cons_self token again]
      exact ⟨[free], after, [other], left, _, rfl, rfl, rested, .atom again atomic, .atom texts⟩
  | @Derives.quotation mark inner datum quotes derives =>
      rw [List.forall_mem_cons] at alone
      obtain ⟨free, after, other, left, rfl, rfl, same, rested⟩ |
        ⟨opener, name, closer, inside, after, quoted, other, first, second, _, marks, again, within,
          rested, parts, rfl, rfl⟩ |
        ⟨_, _, _, _, _, _, _, _, _, _, _, _, marks, _⟩ := RespellingAt.cases_cons respelled
      · rw [List.forall_mem_cons] at aloneOthers
        obtain ⟨inside, last, more, ending, shown, rfl, rfl, rested, shows, requotes⟩ :=
          derives.divides rested alone.2 aloneOthers.2
        exact ⟨free :: inside, last, other :: more, ending, _, rfl, rfl, rested,
          .quotation (same.symm.trans quotes) shows, .quotation requotes⟩
      · obtain ⟨rfl, _⟩ := derives.unique again parts
        obtain rfl := List.append_cancel_left parts
        have aloneInside : ∀ lexeme ∈ other, lexeme.ReadsAlone := fun lexeme member =>
          aloneOthers lexeme (by simp [member])
        rw [← List.append_nil inner] at within
        obtain ⟨shown, shows, requotes⟩ := (derives.divides within alone.2 aloneInside).whole
        exact divides_spellOut marks aloneOthers shows requotes rested
      · cases Lexeme.token_unique quotes marks.opens
  | @Derives.enclosed bracket opener closer inner elements opens derives closes =>
      have parts : opener :: (inner ++ [closer]) ++ rest = opener :: (inner ++ closer :: rest) := by
        simp
      rw [parts] at respelled
      rw [List.forall_mem_cons, List.forall_mem_append] at alone
      obtain ⟨free, after, other, left, rfl, rfl, same, rested⟩ |
        ⟨_, _, _, _, _, _, _, _, _, _, marks, _⟩ |
        ⟨mark, name, last, head, closed, inside, after, quoted, other, first, second, datum, marks,
          again, within, rested, parts, rfl, rfl⟩ := RespellingAt.cases_cons respelled
      · rw [List.forall_mem_cons] at aloneOthers
        obtain ⟨inside, last, more, ending, shown, rfl, rfl, rested, shows, requotes⟩ :=
          derives.divides rested alone.2.1 aloneOthers.2
        obtain ⟨closed, after, ender, left, rfl, rfl, ended, rested⟩ :=
          rested.keep_of_ne (by simp [closes]) (by simp [closes])
        exact ⟨free :: (inside ++ [closed]), after, other :: (more ++ [ender]), left, _, by simp,
          by simp, rested, .enclosed (same.symm.trans opens) shows (ended.symm.trans closes),
          .enclosed requotes⟩
      · exact absurd (Lexeme.token_unique opens marks.quotes) bracket.token_ne.1
      · obtain rfl : bracket = .list :=
          Bracket.token_injective (Lexeme.token_unique opens marks.opens)
        have pair : DerivesAll (name :: quoted) [.atom .symbol name.text, datum] :=
          .cons (.atom marks.names rfl) (.singleton again)
        obtain ⟨rfl, rfl⟩ := derives.unique pair closes marks.closes parts
        obtain ⟨rfl, rfl⟩ := List.cons.inj (List.append_cancel_left parts)
        have aloneInside : ∀ lexeme ∈ name :: other, lexeme.ReadsAlone := by
          rw [List.forall_mem_cons]
          exact ⟨alone.2.1 name List.mem_cons_self, fun lexeme member =>
            aloneOthers lexeme (by simp [member])⟩
        have kept : RespellingAt (head :: inside) (name :: quoted ++ []) (name :: other) := by
          rw [List.append_nil]
          exact .keep rfl within
        obtain ⟨shown, shows, requotes⟩ := (derives.divides kept alone.2.1 aloneInside).whole
        exact divides_abbreviate marks (alone.2.1 name List.mem_cons_self) shows requotes rested

/-- So does the respelling of some data. -/
theorem DerivesAll.divides {inner rest others : List Lexeme} {data : List Reading}
    {places : List Bool} (derives : DerivesAll inner data)
    (respelled : RespellingAt places (inner ++ rest) others)
    (alone : ∀ lexeme ∈ inner, lexeme.ReadsAlone)
    (aloneOthers : ∀ lexeme ∈ others, lexeme.ReadsAlone) :
    Divides DerivesAll RequotesAll places data rest others := by
  match derives with
  | .nil => exact ⟨[], places, [], others, [], rfl, rfl, respelled, .nil, .nil⟩
  | .cons first second =>
      rw [List.append_assoc] at respelled
      rw [List.forall_mem_append] at alone
      obtain ⟨inside, after, other, left, shown, rfl, rfl, rested, shows, requotes⟩ :=
        first.divides respelled alone.1 aloneOthers
      rw [List.forall_mem_append] at aloneOthers
      obtain ⟨within, last, more, ending, others, rfl, rfl, rested, showsRest, requotesRest⟩ :=
        second.divides rested alone.2 aloneOthers.2
      exact ⟨inside ++ within, last, other ++ more, ending, shown :: others, by simp, by simp,
        rested, .cons shows showsRest, .cons requotes requotesRest⟩

end

end SmallScheme
