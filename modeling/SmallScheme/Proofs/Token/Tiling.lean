/-
This file shows that the lexemes tile their source: each token is the longest match of any kind at its
place, and an invalid lexeme stands only where no kind matches.
-/

import SmallScheme.Proofs.Text.Decimal
import SmallScheme.Proofs.Token.Lexeme
import SmallScheme.Proofs.Tree.Reports

namespace SmallScheme

open Pattern

/-- The spans follow one another from the one place to the other, without a gap and none of them empty. -/
def Span.Tile (start : Nat) : List Span → Nat → Prop
  | [], stop => start = stop
  | span :: rest, stop => span.start = start ∧ span.start < span.stop ∧ Tile span.stop rest stop

namespace Token

variable {kind : Kind} {text : List Char} {token : Token}

/-- The spellings of one boolean. -/
def booleanPattern : Bool → Pattern
  | true => .seq (anyCase ['#', 't']) (.optional (anyCase ['r', 'u', 'e']))
  | false => .seq (anyCase ['#', 'f']) (.optional (anyCase ['a', 'l', 's', 'e']))

/-- The digits denote the integer, with at most one sign before them. -/
def Denotes (text : List Char) (value : Int) : Prop :=
  ∃ digits, digits ≠ [] ∧ (∀ c ∈ digits, c.isDigit = true) ∧
    ((text = digits ∨ text = '+' :: digits) ∧ value = Nat.ofDigitChars 10 digits 0 ∨
      text = '-' :: digits ∧ value = -(Nat.ofDigitChars 10 digits 0 : Int))

/-- What a token keeps of its text. -/
def Keeps : Token → List Char → Prop
  | .identifier name, text => text = name.toList
  | .boolean value, text => Matches (booleanPattern value) text
  | .character name, text => text = '#' :: '\\' :: name.toList
  | .string content, text => text = '\x22' :: (content.toList ++ ['\x22'])
  | .number value, text => Denotes text value
  | _, _ => True

/-- The second character of a boolean shows its value. -/
theorem second_of_booleanPattern {value : Bool} (matched : Matches (booleanPattern value) text) :
    (text[1]?.map foldCase == some 't') = value := by
  cases value <;>
    simp only [booleanPattern, matches_seq, matches_anyCase, List.map_eq_cons_iff,
      List.map_eq_nil_iff] at matched
  all_goals
    obtain ⟨_, rest, rfl, ⟨c, _, rfl, _, d, _, rfl, letter, rfl⟩, _⟩ := matched
    simp [letter]

/-- A boolean keeps its value, however it is spelled. -/
theorem keeps_boolean (matched : Matches Kind.boolean.pattern text) :
    Keeps (.boolean (text[1]?.map foldCase == some 't')) text := by
  have spelled : Matches (booleanPattern true) text ∨ Matches (booleanPattern false) text :=
    matches_alt.mp matched
  unfold Keeps
  obtain true | false := spelled
  · rwa [second_of_booleanPattern true]
  · rwa [second_of_booleanPattern false]

/-- A text of the kind of numbers is never malformed. -/
theorem read_number (matched : Matches Kind.number.pattern text) :
    ∃ value, Kind.number.read text = .ok (.number value) ∧ Denotes text value := by
  simp only [Kind.pattern, matches_seq, matches_optional, matches_char, matches_plus_char] at matched
  obtain ⟨_, digits, rfl, rfl | ⟨c, sign, rfl⟩, present, all⟩ := matched
  · have read := Text.Decimal.read?_of_digits present all
    exact ⟨_, by simp [Kind.read, read], digits, present, all, .inl ⟨.inl rfl, rfl⟩⟩
  · simp only [isSign, Bool.or_eq_true, beq_iff_eq] at sign
    obtain rfl | rfl := sign
    · have read := Text.Decimal.read?_plus present all
      exact ⟨_, by simp [Kind.read, read], digits, present, all, .inl ⟨.inr rfl, rfl⟩⟩
    · have read := Text.Decimal.read?_minus present all
      exact ⟨_, by simp [Kind.read, read], digits, present, all, .inr ⟨rfl, rfl⟩⟩

/-- Every text of a kind is read as a token, which keeps what it should. -/
theorem exists_read (matched : Matches kind.pattern text) :
    ∃ token, kind.read text = .ok token ∧ token.Keeps text := by
  cases kind with
  | number =>
      obtain ⟨value, read, denotes⟩ := read_number matched
      exact ⟨_, read, denotes⟩
  | boolean => exact ⟨_, rfl, keeps_boolean matched⟩
  | identifier => exact ⟨_, rfl, by simp [Keeps]⟩
  | character =>
      obtain ⟨_, rest, rfl, opening, _⟩ := matches_seq.mp matched
      obtain rfl := matches_verbatim.mp opening
      exact ⟨_, rfl, by simp [Keeps]⟩
  | string =>
      obtain ⟨content, rfl, _, _⟩ := matches_string.mp matched
      exact ⟨_, rfl, by simp [Keeps]⟩
  | _ => exact ⟨_, rfl, trivial⟩

/-- The token is the longest match of any kind at the start of the text and what stands after it, and
no other kind has the text. -/
structure LongestMatch (token : Token) (text after : List Char) : Prop where
  longest : ∀ (kind : Kind) piece, piece <+: text ++ after → Matches kind.pattern piece → piece <+: text
  kinds : ∀ kind : Kind, Matches kind.pattern text ↔ kind = token.kind
  read : token.kind.read text = .ok token
  keeps : token.Keeps text

end Token

namespace Lexeme

variable {first : Char} {rest : List Char}

/-- A token is the longest match, and an invalid lexeme stands where nothing matches. -/
def Tiles (lexeme : Lexeme) (after : List Char) : Prop :=
  match lexeme.token with
  | .ok token => token.LongestMatch lexeme.text.toList after
  | .error error => error = .invalid ∧
      ∀ (kind : Token.Kind) piece, piece <+: lexeme.text.toList ++ after → ¬ Matches kind.pattern piece

/-- The bytes of some characters are those of their text. -/
theorem byteLength_eq (chars : List Char) : byteLength chars = (String.ofList chars).utf8ByteSize := by
  induction chars with
  | nil => rfl
  | cons c rest ih =>
      have single : String.ofList (c :: rest) = String.singleton c ++ String.ofList rest := by
        rw [String.singleton_eq_ofList, ← String.ofList_append, List.singleton_append]
      rw [single, String.utf8ByteSize_append, String.utf8ByteSize_singleton, ← ih]
      rfl

/-- The bytes of two texts add up. -/
theorem byteLength_append (left right : List Char) :
    byteLength (left ++ right) = byteLength left + byteLength right := by
  simp only [byteLength_eq, String.ofList_append, String.utf8ByteSize_append]

/-- A pattern of a kind matches no empty text, so that a match takes the first character. -/
theorem exists_of_prefix {kind : Token.Kind} {piece : List Char} (inside : piece <+: first :: rest)
    (matched : Matches kind.pattern piece) :
    ∃ more, more ≤ rest.length ∧ piece = first :: rest.take more := by
  cases piece with
  | nil => exact absurd (Token.startKind_of_matches matched) (by simp [Token.startKind])
  | cons c piece =>
      obtain ⟨rfl, within⟩ := List.cons_prefix_cons.mp inside
      exact ⟨piece.length, within.length_le, by rw [← List.prefix_iff_eq_take.mp within]⟩

/-- Once a match is measured, the search has a result. -/
theorem exists_foldl {measure : Token.Kind → Option Nat} {kinds : List Token.Kind}
    {best : Option (Token.Kind × Nat)} {kind : Token.Kind} {length : Nat}
    (known : kind ∈ kinds ∧ measure kind = some length ∨ best = some (kind, length)) :
    ∃ chosen, kinds.foldl (consider measure) best = some chosen := by
  induction kinds generalizing best kind length with
  | nil =>
      have kept : best = some (kind, length) := by simpa using known
      exact ⟨_, kept⟩
  | cons head kinds ih =>
      rw [List.mem_cons, or_and_right, or_assoc] at known
      rw [List.foldl_cons]
      obtain ⟨rfl, measured⟩ | later | kept := known
      · obtain ⟨other, bound, considered, _⟩ := exists_consider (.inl measured)
        exact ih (.inr considered)
      · exact ih (.inl later)
      · obtain ⟨other, bound, considered, _⟩ := exists_consider (.inr ⟨kind, kept⟩)
        exact ih (.inr considered)

/-- The search fails only where no kind matches. -/
theorem not_matches_of_longestMatch_eq_none (absent : longestMatch first rest = none)
    (kind : Token.Kind) (more : Nat) (within : more ≤ rest.length) :
    ¬ Matches kind.pattern (first :: rest.take more) := by
  intro matched
  obtain ⟨longest, measured, _⟩ := longest_of_matches matched within
  have found : ∃ chosen, longestMatch first rest = some chosen := by
    rw [longestMatch_eq]
    apply exists_foldl
    left
    exact ⟨mem_all kind, measured⟩
  simp [absent] at found

/-- A scan takes the longest match, or an invalid lexeme where there is none. -/
theorem tiles_scan (first : Char) (rest : List Char) (span : Span) :
    Tiles ⟨(scan first rest).1, String.ofList (first :: rest.take (scan first rest).2), span⟩
      (rest.drop (scan first rest).2) := by
  have whole (length : Nat) : (first :: rest.take length) ++ rest.drop length = first :: rest := by simp
  unfold scan Tiles
  cases found : longestMatch first rest with
  | none =>
      simp only [String.toList_ofList, whole, true_and]
      intro kind piece inside matched
      obtain ⟨more, within, rfl⟩ := exists_of_prefix inside matched
      exact not_matches_of_longestMatch_eq_none found kind more within matched
  | some best =>
      obtain ⟨kind, length⟩ := best
      obtain ⟨within, matched, maximal⟩ := longestMatch_eq_some_iff.mp found
      obtain ⟨token, read, keeps⟩ := Token.exists_read matched
      have same := kind_of_read read
      simp only [read, String.toList_ofList]
      constructor
      case longest =>
        intro other piece inside longer
        rw [whole] at inside
        obtain ⟨more, bound, rfl⟩ := exists_of_prefix inside longer
        have short := maximal other more bound longer
        exact List.cons_prefix_cons.mpr ⟨rfl, List.take_prefix_take_left short⟩
      case kinds =>
        intro other
        rw [same]
        constructor
        · intro again
          exact Token.kind_unique matched again
        · intro equal
          rwa [equal]
      case read => rwa [same]
      case keeps => exact keeps

/-- The spans of the lexemes cover the source from its start to its end. -/
theorem tile_ofChars (start : Nat) (chars : List Char) :
    Span.Tile start ((ofChars start chars).map span) (start + byteLength chars) := by
  fun_induction ofChars start chars with
  | case1 start => exact (Nat.add_zero start).symm
  | case2 start first rest token length scanned text stop ih =>
      have grows : start < stop := by
        have size := byteLength_pos first (rest.take length)
        simp only [stop, text]
        omega
      have ends : stop + byteLength (rest.drop length) = start + byteLength (first :: rest) := by
        have parts := byteLength_append text (rest.drop length)
        simp only [text, List.cons_append, List.take_append_drop] at parts
        simp only [stop, text]
        omega
      rw [ends] at ih
      exact ⟨rfl, grows, ih⟩

/-- A lexeme takes the bytes of its text at its place, and tiles the source there. -/
theorem exists_of_mem_ofChars {start : Nat} {chars : List Char} {lexeme : Lexeme}
    (member : lexeme ∈ ofChars start chars) :
    ∃ before after, chars = before ++ lexeme.text.toList ++ after ∧
      lexeme.span = ⟨start + byteLength before, start + byteLength (before ++ lexeme.text.toList)⟩ ∧
      lexeme.Tiles after := by
  fun_induction ofChars start chars with
  | case1 start => exact absurd member List.not_mem_nil
  | case2 start first rest token length scanned text stop ih =>
      have whole : text ++ rest.drop length = first :: rest := by simp [text]
      obtain rfl | later := List.mem_cons.mp member
      · have tiles := tiles_scan first rest ⟨start, stop⟩
        rw [scanned] at tiles
        exact ⟨[], rest.drop length, by simp [whole], by simp [stop, byteLength], tiles⟩
      · obtain ⟨before, after, parts, span, tiles⟩ := ih later
        refine ⟨text ++ before, after, ?_, ?_, tiles⟩
        · rw [← whole, parts]
          simp only [List.append_assoc]
        · rw [span, List.append_assoc, byteLength_append text, byteLength_append text]
          simp only [stop, Nat.add_assoc]

/-- The spans of the lexemes cover the source without a gap, each on characters of its own. A token is
the longest match of any kind in what is left of the source, of one kind only, and keeps what that kind
reads. An invalid lexeme stands where no kind matches, and no number is malformed. -/
theorem lexemes_are_longest_matches (source : String) :
    Span.Tile 0 ((lexemes source).map span) source.utf8ByteSize ∧
      ∀ lexeme ∈ lexemes source, ∃ before after : String,
        source = before ++ lexeme.text ++ after ∧
          lexeme.span = ⟨before.utf8ByteSize, (before ++ lexeme.text).utf8ByteSize⟩ ∧
          lexeme.Tiles after.toList := by
  constructor
  · have tile := tile_ofChars 0 source.toList
    rwa [Nat.zero_add, byteLength_eq, String.ofList_toList] at tile
  · intro lexeme member
    obtain ⟨before, after, parts, span, tiles⟩ := exists_of_mem_ofChars member
    simp only [Nat.zero_add, byteLength_eq, String.ofList_append, String.ofList_toList] at span
    refine ⟨String.ofList before, String.ofList after, ?_, span, by rwa [String.toList_ofList]⟩
    rw [← String.ofList_toList (s := source), parts]
    simp only [String.ofList_append, String.ofList_toList]

/-- Every lexeme ends before a longer one that its first characters would allow. -/
def fallbackSource : String :=
  "#tru(-.5...λ\"\\"

/-- The lexemes of this source are those that the longest match leaves. -/
theorem fallbackSource_lexemes_tile :
    (lexemes fallbackSource).map text = ["#t", "ru", "(", "-", ".", "5", "...", "λ", "\"", "\\"] ∧
      ∃ lexeme ∈ lexemes fallbackSource, lexeme.token = .ok (.identifier "-") ∧
        ∃ before after : String, fallbackSource = before ++ lexeme.text ++ after ∧
          lexeme.span = ⟨before.utf8ByteSize, (before ++ lexeme.text).utf8ByteSize⟩ ∧
          lexeme.Tiles after.toList := by
  have texts : (lexemes fallbackSource).map text =
      ["#t", "ru", "(", "-", ".", "5", "...", "λ", "\"", "\\"] := by decide +kernel
  have present : Except.ok (Token.identifier "-") ∈ (lexemes fallbackSource).map token := by
    decide +kernel
  obtain ⟨lexeme, member, read⟩ := List.mem_map.mp present
  exact ⟨texts, lexeme, member, read, (lexemes_are_longest_matches fallbackSource).2 lexeme member⟩

end Lexeme

end SmallScheme
