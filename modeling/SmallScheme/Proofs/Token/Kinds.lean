/-
This file describes the texts of each kind of token: the first characters decide the kind, and a kind
has a class of characters that may continue its texts.
-/

import SmallScheme.Proofs.Token.Pattern
import SmallScheme.Token.Basic

namespace SmallScheme.Token

open Pattern

variable {kind other : Kind} {text rest : List Char} {c : Char}

section Fixed

variable {fixed : List Char}

/-- A sequence of fixed characters under a view matches what the view shows as these characters. -/
theorem matches_sequence_map (view : Char → Char) :
    Matches (.sequence (fixed.map fun c other => view other == c)) text ↔ text.map view = fixed := by
  rw [matches_sequence, List.forall₂_map_left_iff]
  simp only [beq_iff_eq]
  rw [eq_comm, ← List.forall₂_eq_eq_eq, List.forall₂_map_right_iff]
  simp only [eq_comm]

/-- A fixed text in any case matches what folds to it. -/
theorem matches_anyCase : Matches (anyCase fixed) text ↔ text.map foldCase = fixed :=
  matches_sequence_map foldCase

/-- A fixed text matches itself only. -/
theorem matches_verbatim : Matches (verbatim fixed) text ↔ text = fixed := by
  have shape : Matches (verbatim fixed) text ↔ text.map id = fixed := matches_sequence_map id
  rwa [List.map_id] at shape

/-- A line ends in a newline, in a carriage return, or in both. -/
theorem matches_lineEnding :
    Matches Kind.lineEnding.pattern text ↔ text = ['\n'] ∨ text = ['\r', '\n'] ∨ text = ['\r'] := by
  simp only [Kind.pattern, oneOf, List.foldr_cons, List.foldr_nil, matches_alt, matches_verbatim,
    not_matches_nothing, or_false]

end Fixed

section Classes

/-- The characters that start a token and never stand inside an identifier or a number. -/
def marks : List Char :=
  [' ', '\t', '\x0c', '\n', '\r', ';', '(', ')', '\x27', '\x22', '#']

/-- No mark stands inside an identifier. -/
theorem not_mem_marks (subsequent : isSubsequent c = true) : c ∉ marks := by
  intro marked
  have excluded : (marks.all fun d => !isSubsequent d) = true := by decide
  have apart := List.all_eq_true.mp excluded c marked
  simp [subsequent] at apart

/-- What starts an identifier may stand inside one. -/
theorem isSubsequent_of_isInitial (initial : isInitial c = true) : isSubsequent c = true := by
  simp [isSubsequent, initial]

/-- Digits may stand inside an identifier. -/
theorem isSubsequent_of_isDigit (digit : c.isDigit = true) : isSubsequent c = true := by
  simp [isSubsequent, digit]

/-- Signs may stand inside an identifier. -/
theorem isSubsequent_of_isSign (sign : isSign c = true) : isSubsequent c = true := by
  simp [isSubsequent, sign]

/-- What may follow a leading dot may stand inside an identifier. -/
theorem isSubsequent_of_isDotSubsequent (follows : isDotSubsequent c = true) :
    isSubsequent c = true := by
  simp only [isDotSubsequent, isSignSubsequent, Bool.or_eq_true] at follows
  simp only [isSubsequent, Bool.or_eq_true]
  tauto

theorem isDigit_eq_false_of_isAlpha (alpha : c.isAlpha = true) : c.isDigit = false := by
  have letter : ('A'.val ≤ c.val ∧ c.val ≤ 'Z'.val) ∨ ('a'.val ≤ c.val ∧ c.val ≤ 'z'.val) := by
    obtain upper | lower := (Bool.or_eq_true _ _).mp alpha
    · exact .inl (of_decide_eq_true upper)
    · obtain ⟨least, greatest⟩ := (Bool.and_eq_true _ _).mp lower
      exact .inr ⟨of_decide_eq_true least, of_decide_eq_true greatest⟩
  simp only [Char.isDigit, Bool.and_eq_false_iff, decide_eq_false_iff_not, ge_iff_le]
  simp only [UInt32.le_iff_toNat_le] at letter ⊢
  simp at letter ⊢
  omega

/-- No identifier starts with a digit. -/
theorem isDigit_eq_false_of_isInitial (initial : isInitial c = true) : c.isDigit = false := by
  rw [isInitial, Bool.or_eq_true, List.contains_iff_mem] at initial
  obtain alpha | listed := initial
  · exact isDigit_eq_false_of_isAlpha alpha
  · have excluded : (['!', '$', '%', '&', '*', '/', ':', '<', '=', '>', '?', '^', '_', '~'].all
        fun d => !d.isDigit) = true := by decide
    simpa using List.all_eq_true.mp excluded c listed

theorem isDigit_eq_false_of_isSign (sign : isSign c = true) : c.isDigit = false := by
  simp only [isSign, Bool.or_eq_true, beq_iff_eq] at sign
  obtain rfl | rfl := sign <;> decide

/-- No digit follows a leading dot. -/
theorem isDigit_eq_false_of_isDotSubsequent (follows : isDotSubsequent c = true) :
    c.isDigit = false := by
  simp only [isDotSubsequent, isSignSubsequent, Bool.or_eq_true, beq_iff_eq] at follows
  obtain ((initial | sign) | rfl) | rfl := follows
  · exact isDigit_eq_false_of_isInitial initial
  · exact isDigit_eq_false_of_isSign sign
  · decide
  · decide

/-- No sign starts an ordinary identifier. -/
theorem isSign_eq_false_of_isInitial (initial : isInitial c = true) : isSign c = false := by
  by_contra sign
  simp only [isSign, Bool.or_eq_false_iff, beq_eq_false_iff_ne, not_and_or, not_not] at sign
  obtain rfl | rfl := sign <;> exact absurd initial (by decide)

/-- No other character folds to the number sign. -/
theorem eq_of_foldCase_eq (folded : foldCase c = '#') : c = '#' := by
  unfold foldCase at folded
  split at folded
  · exact absurd folded (by decide)
  · split at folded
    · exact absurd folded (by decide)
    · unfold Char.toLower at folded
      split at folded
      case isTrue upper =>
        have value := congrArg (fun d => d.val.toNat) folded
        simp only [UInt32.le_iff_toNat_le, ge_iff_le] at upper
        simp at value upper
        omega
      case isFalse => exact folded

end Classes

section Starts

/-- The only kind that a text with these first two characters can have. -/
def startKind : List Char → Option Kind
  | [] => none
  | first :: rest =>
      if isBlank first then some .whitespace
      else if first == '\n' || first == '\r' then some .lineEnding
      else if first == ';' then some .comment
      else if first == '(' then some .leftParen
      else if first == ')' then some .rightParen
      else if first == '\x27' then some .quote
      else if first == '\x22' then some .string
      else if first == '#' then
        if rest.head? == some '(' then some .startVector
        else if rest.head? == some '\\' then some .character
        else some .boolean
      else if first.isDigit || isSign first && rest.head?.any Char.isDigit then some .number
      else some .identifier

/-- A text that starts with no mark is a number or an identifier, and a digit at its start or after its
sign makes it a number. -/
theorem startKind_of_not_mem_marks (unmarked : c ∉ marks) : startKind (c :: text) =
    if c.isDigit || isSign c && text.head?.any Char.isDigit then some .number
    else some .identifier := by
  simp only [marks, List.mem_cons, List.not_mem_nil, or_false, not_or] at unmarked
  simp [startKind, isBlank, unmarked]

/-- The first characters of an identifier show that it is one. -/
theorem startKind_of_identifier (matched : Matches identifierPattern text) :
    startKind text = some .identifier := by
  simp only [identifierPattern, oneOf, List.foldr_cons, List.foldr_nil, matches_alt,
    not_matches_nothing, or_false, matches_char_seq, matches_char, beq_iff_eq] at matched
  obtain ⟨c, rest, rfl, initial, _⟩ | ⟨c, sign, rfl⟩ | ⟨c, _, rfl, sign, d, rest, rfl, follows, _⟩ |
    ⟨c, _, rfl, sign, d, _, rfl, rfl, _⟩ | ⟨c, rest, rfl, rfl, _⟩ := matched
  · rw [startKind_of_not_mem_marks (not_mem_marks (isSubsequent_of_isInitial initial)),
      isDigit_eq_false_of_isInitial initial, isSign_eq_false_of_isInitial initial]
    rfl
  · rw [startKind_of_not_mem_marks (not_mem_marks (isSubsequent_of_isSign sign)),
      isDigit_eq_false_of_isSign sign, sign]
    rfl
  · have digitless : d.isDigit = false :=
      isDigit_eq_false_of_isDotSubsequent (by simp [isDotSubsequent, follows])
    rw [startKind_of_not_mem_marks (not_mem_marks (isSubsequent_of_isSign sign)),
      isDigit_eq_false_of_isSign sign, sign]
    simp [digitless]
  · rw [startKind_of_not_mem_marks (not_mem_marks (isSubsequent_of_isSign sign)),
      isDigit_eq_false_of_isSign sign, sign]
    rfl
  · rw [startKind_of_not_mem_marks (by decide)]
    rfl

/-- The first characters of a boolean show that it is one. -/
theorem startKind_of_boolean (matched : Matches Kind.boolean.pattern text) :
    startKind text = some .boolean := by
  have letters : ∃ c d rest, text = c :: d :: rest ∧ foldCase c = '#' ∧
      (foldCase d = 't' ∨ foldCase d = 'f') := by
    simp only [Kind.pattern, matches_alt, matches_seq, matches_anyCase, List.map_eq_cons_iff,
      List.map_eq_nil_iff] at matched
    obtain ⟨_, rest, rfl, ⟨c, _, rfl, number, d, _, rfl, letter, rfl⟩, _⟩ |
      ⟨_, rest, rfl, ⟨c, _, rfl, number, d, _, rfl, letter, rfl⟩, _⟩ := matched
    · exact ⟨c, d, rest, rfl, number, .inl letter⟩
    · exact ⟨c, d, rest, rfl, number, .inr letter⟩
  obtain ⟨c, d, rest, rfl, number, letter⟩ := letters
  obtain rfl := eq_of_foldCase_eq number
  have unopened : d ≠ '(' := by
    intro opened
    subst opened
    exact absurd letter (by decide)
  have unescaped : d ≠ '\\' := by
    intro escaped
    subst escaped
    exact absurd letter (by decide)
  simp [startKind, isBlank, unopened, unescaped]

/-- The first characters of a number show that it is one. -/
theorem startKind_of_number (matched : Matches Kind.number.pattern text) :
    startKind text = some .number := by
  simp only [Kind.pattern, matches_seq, matches_optional, matches_char, matches_plus_char] at matched
  obtain ⟨_, digits, rfl, rfl | ⟨c, sign, rfl⟩, some, all⟩ := matched
  · obtain ⟨d, rest, rfl⟩ := List.exists_cons_of_ne_nil some
    have digit := all d (by simp)
    simp [startKind_of_not_mem_marks (not_mem_marks (isSubsequent_of_isDigit digit)), digit]
  · obtain ⟨d, rest, rfl⟩ := List.exists_cons_of_ne_nil some
    have digit := all d (by simp)
    simp [startKind_of_not_mem_marks (not_mem_marks (isSubsequent_of_isSign sign)), sign, digit]

/-- The first two characters of a text decide its kind. -/
theorem startKind_of_matches (matched : Matches kind.pattern text) : startKind text = some kind := by
  cases kind with
  | identifier => exact startKind_of_identifier matched
  | boolean => exact startKind_of_boolean matched
  | number => exact startKind_of_number matched
  | whitespace =>
      obtain ⟨some, all⟩ := matches_plus_char.mp matched
      obtain ⟨c, rest, rfl⟩ := List.exists_cons_of_ne_nil some
      simp [startKind, all c]
  | lineEnding =>
      obtain rfl | rfl | rfl := matches_lineEnding.mp matched <;> decide
  | comment =>
      obtain ⟨c, rest, rfl, semicolon, _⟩ := matches_char_seq.mp matched
      obtain rfl := eq_of_beq semicolon
      rfl
  | character =>
      obtain ⟨_, rest, rfl, opening, _⟩ := matches_seq.mp matched
      obtain rfl := matches_verbatim.mp opening
      rfl
  | string =>
      obtain ⟨c, rest, rfl, opening, _⟩ := matches_char_seq.mp matched
      obtain rfl := eq_of_beq opening
      rfl
  | _ =>
      obtain rfl := matches_verbatim.mp matched
      decide

/-- Only a text of blanks starts with a blank. -/
theorem exists_cons_of_matches (matched : Matches kind.pattern text) (solid : kind ≠ .whitespace) :
    ∃ first more, text = first :: more ∧ isBlank first = false := by
  have start := startKind_of_matches matched
  cases text with
  | nil => simp [startKind] at start
  | cons first more =>
      refine ⟨first, more, rfl, ?_⟩
      by_contra blank
      rw [Bool.not_eq_false] at blank
      apply solid
      simpa [startKind, blank] using start.symm

/-- A text has one kind at most. -/
theorem kind_unique (matched : Matches kind.pattern text) (again : Matches other.pattern text) :
    other = kind := by
  have same := (startKind_of_matches again).symm.trans (startKind_of_matches matched)
  exact Option.some.inj same

end Starts

section Continues

/-- The characters that may stand in a text after its start. A string is closed and has none. -/
def Kind.continues : Kind → Char → Bool
  | .whitespace, c => isBlank c
  | .lineEnding, c => c == '\n'
  | .comment, c => c != '\n'
  | .identifier, c => isSubsequent c
  | .boolean, c => ['r', 'u', 'e', 'a', 'l', 's'].contains (foldCase c)
  | .character, c => !isDelimiter c
  | .number, c => c.isDigit
  | _, _ => false

/-- How many characters the start of every text of the kind has at least. -/
def Kind.startLength : Kind → Nat
  | .startVector | .boolean => 2
  | .character => 3
  | _ => 1

/-- An identifier goes on with the characters that may stand inside one. -/
theorem continues_of_identifier (matched : Matches identifierPattern text) :
    1 ≤ text.length ∧ ∀ c ∈ text.drop 1, isSubsequent c = true := by
  simp only [identifierPattern, oneOf, subsequents, List.foldr_cons, List.foldr_nil, matches_alt,
    not_matches_nothing, or_false, matches_char_seq, matches_char, matches_star_char] at matched
  obtain ⟨c, rest, rfl, _, all⟩ | ⟨c, _, rfl⟩ | ⟨c, _, rfl, _, d, rest, rfl, follows, all⟩ |
    ⟨c, _, rfl, _, d, _, rfl, dot, e, rest, rfl, follows, all⟩ |
    ⟨c, _, rfl, _, d, rest, rfl, follows, all⟩ := matched
  · simpa using all
  · simp
  · have second : isSubsequent d = true :=
      isSubsequent_of_isDotSubsequent (by simp [isDotSubsequent, follows])
    simpa [second] using all
  · have second : isSubsequent d = true := by simp [isSubsequent, dot]
    simpa [second, isSubsequent_of_isDotSubsequent follows] using all
  · simpa [isSubsequent_of_isDotSubsequent follows] using all

/-- A boolean goes on with letters of its long spelling. -/
theorem continues_of_boolean (matched : Matches Kind.boolean.pattern text) :
    2 ≤ text.length ∧ ∀ c ∈ text.drop 2, Kind.boolean.continues c = true := by
  -- Both spellings are two characters and then an optional text with known folded letters.
  have spelled : ∃ c d rest, text = c :: d :: rest ∧
      ∀ e ∈ rest.map foldCase, e ∈ ['r', 'u', 'e', 'a', 'l', 's'] := by
    simp only [Kind.pattern, matches_alt, matches_seq, matches_optional, matches_anyCase,
      List.map_eq_cons_iff, List.map_eq_nil_iff] at matched
    obtain ⟨_, rest, rfl, ⟨c, _, rfl, _, d, _, rfl, _, rfl⟩, letters⟩ |
      ⟨_, rest, rfl, ⟨c, _, rfl, _, d, _, rfl, _, rfl⟩, letters⟩ := matched
    · refine ⟨c, d, rest, rfl, ?_⟩
      obtain rfl | ⟨r, _, rfl, first, u, _, rfl, second, e, _, rfl, third, rfl⟩ := letters
      · simp
      · simp [first, second, third]
    · refine ⟨c, d, rest, rfl, ?_⟩
      obtain rfl | ⟨a, _, rfl, first, l, _, rfl, second, s, _, rfl, third, e, _, rfl, fourth, rfl⟩ :=
        letters
      · simp
      · simp [first, second, third, fourth]
  obtain ⟨c, d, rest, rfl, letters⟩ := spelled
  constructor
  · simp
  · intro e member
    rw [Kind.continues, List.contains_iff_mem]
    exact letters _ (List.mem_map_of_mem member)

/-- What stands after the start of a text belongs to the class of its kind. -/
theorem continues_of_matches (matched : Matches kind.pattern text) (unclosed : kind ≠ .string) :
    kind.startLength ≤ text.length ∧
      ∀ c ∈ text.drop kind.startLength, kind.continues c = true := by
  cases kind with
  | identifier => exact continues_of_identifier matched
  | boolean => exact continues_of_boolean matched
  | string => contradiction
  | whitespace =>
      obtain ⟨some, all⟩ := matches_plus_char.mp matched
      exact ⟨List.length_pos_of_ne_nil some, fun c member => all c (List.mem_of_mem_drop member)⟩
  | lineEnding =>
      obtain rfl | rfl | rfl := matches_lineEnding.mp matched <;> simp [Kind.startLength, Kind.continues]
  | comment =>
      obtain ⟨c, rest, rfl, _, all⟩ := matches_char_seq.mp matched
      exact ⟨by simp [Kind.startLength], matches_star_char.mp all⟩
  | character =>
      obtain ⟨_, rest, rfl, opening, named⟩ := matches_seq.mp matched
      obtain ⟨c, rest, rfl, _, all⟩ := matches_char_seq.mp named
      obtain rfl := matches_verbatim.mp opening
      exact ⟨by simp [Kind.startLength], matches_star_char.mp all⟩
  | number =>
      simp only [Kind.pattern, matches_seq, matches_optional, matches_char,
        matches_plus_char] at matched
      obtain ⟨_, digits, rfl, rfl | ⟨c, _, rfl⟩, some, all⟩ := matched
      · exact ⟨List.length_pos_of_ne_nil some, fun c member => all c (List.mem_of_mem_drop member)⟩
      · exact ⟨by simp [Kind.startLength], all⟩
  | _ =>
      obtain rfl := matches_verbatim.mp matched
      simp [Kind.startLength]

/-- A string has a quote at each end and neither a quote nor a backslash inside. -/
theorem matches_string : Matches Kind.string.pattern text ↔
    ∃ content, text = '\x22' :: content ++ ['\x22'] ∧ '\x22' ∉ content ∧ '\\' ∉ content := by
  rw [Kind.pattern, matches_char_seq]
  simp only [matches_seq, matches_star_char, matches_char, beq_iff_eq, Bool.and_eq_true, bne_iff_ne]
  constructor
  · intro matched
    obtain ⟨_, _, rfl, rfl, content, _, rfl, all, _, rfl, rfl⟩ := matched
    exact ⟨content, rfl, fun quoted => (all _ quoted).1 rfl, fun escaped => (all _ escaped).2 rfl⟩
  · intro matched
    obtain ⟨content, rfl, unquoted, unescaped⟩ := matched
    refine ⟨_, _, rfl, rfl, content, _, rfl, fun c member => ⟨?_, ?_⟩, _, rfl, rfl⟩
    · exact fun same => unquoted (same ▸ member)
    · exact fun same => unescaped (same ▸ member)

/-- A quote ends its string, so no longer text is one. -/
theorem not_matches_string_append (matched : Matches Kind.string.pattern text) :
    ¬ Matches Kind.string.pattern (text ++ c :: rest) := by
  intro longer
  obtain ⟨content, rfl, _, _⟩ := matches_string.mp matched
  obtain ⟨whole, same, unquoted, _⟩ := matches_string.mp longer
  have tails : content ++ '\x22' :: c :: rest = whole ++ ['\x22'] := by simpa using same
  have split : whole = content ++ '\x22' :: (c :: rest).dropLast := by
    simpa using (congrArg List.dropLast tails).symm
  apply unquoted
  simp [split]

/-- A text that goes on with a character outside of its class is no text of its kind. -/
theorem not_matches_append (matched : Matches kind.pattern text) (stops : kind.continues c = false) :
    ¬ Matches kind.pattern (text ++ c :: rest) := by
  by_cases closed : kind = .string
  · subst closed
    exact not_matches_string_append matched
  · intro longer
    have long := (continues_of_matches matched closed).1
    have inside : c ∈ (text ++ c :: rest).drop kind.startLength := by
      rw [List.drop_append_of_le_length long]
      simp
    have continued := (continues_of_matches longer closed).2 c inside
    rw [stops] at continued
    contradiction

/-- A character that cannot continue a text does not change its kind either. -/
theorem startKind_append (matched : Matches kind.pattern text) (stops : kind.continues c = false) :
    startKind (text ++ c :: rest) = some kind := by
  have start := startKind_of_matches matched
  match text with
  | [] => simp [startKind] at start
  | first :: second :: more => exact start
  | [first] =>
      -- Only a number sign or a sign looks at the second character.
      by_cases number : first = '#'
      · subst number
        obtain rfl : Kind.boolean = kind := Option.some.inj start
        exact absurd (continues_of_boolean matched).1 (by simp)
      · by_cases signed : isSign first = true ∧ c.isDigit = true
        · have unmarked := not_mem_marks (isSubsequent_of_isSign signed.1)
          rw [startKind_of_not_mem_marks unmarked, isDigit_eq_false_of_isSign signed.1] at start
          obtain rfl : Kind.identifier = kind := by simpa using start
          rw [Kind.continues, isSubsequent_of_isDigit signed.2] at stops
          contradiction
        · rw [← start]
          have unsigned : (isSign first && c.isDigit) = false := by
            rwa [← Bool.and_eq_true, Bool.not_eq_true] at signed
          simp [startKind, number, unsigned]

/-- Such a character ends the token: no kind has a text that goes on with it. -/
theorem not_matches_of_stops (matched : Matches kind.pattern text)
    (stops : kind.continues c = false) : ¬ Matches other.pattern (text ++ c :: rest) := by
  intro longer
  have start := (startKind_of_matches longer).symm.trans (startKind_append matched stops)
  obtain rfl := Option.some.inj start
  exact not_matches_append matched stops longer

end Continues

section Newline

/-- Only a string and the two characters that end a line hold a newline after their start. -/
theorem kind_of_newline_mem (matched : Matches kind.pattern (c :: text)) (inside : '\n' ∈ text) :
    kind = .string ∨ c = '\r' ∧ text = ['\n'] := by
  cases kind with
  | string => exact .inl rfl
  | lineEnding =>
      right
      obtain single | pair | single := matches_lineEnding.mp matched
      · simp_all
      · simpa using pair
      · simp_all
  | _ =>
      have absent : '\n' ∉ c :: text := not_mem_of_avoids matched (by decide)
      exact absurd (List.mem_cons_of_mem c inside) absent

end Newline

end SmallScheme.Token
