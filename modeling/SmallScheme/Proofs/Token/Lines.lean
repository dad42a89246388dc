/-
This file shows that the lexemes of a source without errors stay the same if another line follows it,
up to the line ending between the two.
-/

import SmallScheme.Proofs.Token.Lexeme
import SmallScheme.Proofs.Tree.Reports

namespace SmallScheme

/-- The span at a later place. -/
def Span.shift (offset : Nat) (span : Span) : Span :=
  ⟨span.start + offset, span.stop + offset⟩

namespace Lexeme

open Pattern Token

/-- The lexeme at a later place. -/
def shift (offset : Nat) (lexeme : Lexeme) : Lexeme :=
  { lexeme with span := lexeme.span.shift offset }

/-- A source that starts later has the same lexemes at later places. -/
theorem ofChars_shift (offset start : Nat) (chars : List Char) :
    ofChars (start + offset) chars = (ofChars start chars).map (shift offset) := by
  fun_induction ofChars start chars with
  | case1 start => rw [ofChars]; rfl
  | case2 start first rest token length scanned text stop inductionHypothesis =>
      rw [ofChars, scanned, List.map_cons, ← inductionHypothesis, shift, Span.shift]
      simp only [stop, text, Nat.add_right_comm]

variable {kind : Token.Kind} {first : Char} {rest : List Char} {length : Nat}

/-- No token goes on over a newline, except for the carriage return that it belongs to. -/
theorem longestMatch_newline (found : longestMatch first rest = some (kind, length))
    (unreturned : ¬ (first = '\r' ∧ rest = [])) (more : List Char) :
    longestMatch first (rest ++ '\n' :: more) = some (kind, length) := by
  obtain ⟨within, matched, maximal⟩ := longestMatch_eq_some_iff.mp found
  refine longestMatch_eq_some_iff.mpr ⟨?_, ?_, ?_⟩
  · rw [List.length_append]
    omega
  · rwa [List.take_append_of_le_length within]
  · intro other extent inside longer
    by_cases short : extent ≤ rest.length
    · rw [List.take_append_of_le_length short] at longer
      exact maximal other extent short longer
    · obtain ⟨extra, rfl⟩ : ∃ extra, extent = rest.length + (extra + 1) :=
        ⟨extent - rest.length - 1, by omega⟩
      rw [List.take_length_add_append, List.take_succ_cons] at longer
      obtain rfl | ⟨returned, alone⟩ := kind_of_newline_mem longer (by simp)
      · -- Both tokens start with a quote, so the shorter one is a string that ends before.
        obtain ⟨content, shape, _⟩ := matches_string.mp longer
        obtain ⟨rfl, _⟩ := List.cons.inj shape
        obtain rfl : Token.Kind.string = kind := Option.some.inj (startKind_of_matches matched)
        obtain ⟨c, left, after⟩ := List.exists_cons_of_ne_nil
          (List.append_ne_nil_of_right_ne_nil (rest.drop length)
            (List.cons_ne_nil '\n' (more.take extra)))
        rw [← List.take_append_drop length rest, List.append_assoc, after,
          ← List.cons_append] at longer
        exact absurd longer (not_matches_string_append matched)
      · have counted := congrArg List.length alone
        simp only [List.length_append, List.length_cons, List.length_nil] at counted
        exact absurd ⟨returned, List.eq_nil_of_length_eq_zero (by omega)⟩ unreturned

/-- A newline ends its line by itself. -/
theorem longestMatch_lineEnding (more : List Char) :
    longestMatch '\n' more = some (.lineEnding, 0) := by
  refine longestMatch_eq_some_iff.mpr ⟨Nat.zero_le _, matches_lineEnding.mpr (.inl rfl), ?_⟩
  intro other extent inside longer
  obtain rfl : Token.Kind.lineEnding = other := Option.some.inj (startKind_of_matches longer)
  have alone : more.take extent = [] := by simpa using matches_lineEnding.mp longer
  rw [← List.length_take_of_le inside, alone]
  exact Nat.le_refl 0

/-- A newline after a carriage return ends the same line. -/
theorem longestMatch_return (more : List Char) :
    longestMatch '\r' ('\n' :: more) = some (.lineEnding, 1) := by
  refine longestMatch_eq_some_iff.mpr ⟨by simp, matches_lineEnding.mpr (.inr (.inl rfl)), ?_⟩
  intro other extent inside longer
  obtain rfl : Token.Kind.lineEnding = other := Option.some.inj (startKind_of_matches longer)
  have short : (('\n' :: more).take extent).length ≤ 1 := by
    obtain single | pair | single := matches_lineEnding.mp longer
    · simp at single
    · simp [(List.cons.inj pair).2]
    · simp [(List.cons.inj single).2]
  rwa [List.length_take_of_le inside] at short

/-- The lexemes of a line are kept where another line follows, except that trivia at its end may
change: a carriage return takes the newline, and otherwise the newline is a lexeme of its own. -/
theorem ofChars_newline (start : Nat) (chars : List Char)
    (tokens : ∀ lexeme ∈ ofChars start chars, ∃ token, lexeme.token = .ok token) :
    ∃ kept last ending stop, ofChars start chars = kept ++ last ∧
      (∀ lexeme ∈ last ++ ending, lexeme.isTrivia = true) ∧
      ∀ more, ofChars start (chars ++ '\n' :: more) = kept ++ ending ++ ofChars stop more := by
  fun_induction ofChars start chars with
  | case1 start =>
      refine ⟨[], [], [⟨.ok .lineEnding, "\n", ⟨start, start + 1⟩⟩], start + 1, rfl, ?_, ?_⟩
      · simp [isTrivia]
      · exact fun more => ofChars_of_longestMatch (longestMatch_lineEnding more) start
  | case2 start first rest token length scanned text stop inductionHypothesis =>
      rw [List.forall_mem_cons] at tokens
      cases found : longestMatch first rest with
      | none =>
          obtain ⟨_, read⟩ := tokens.1
          rw [scan, found] at scanned
          cases scanned
          cases read
      | some best =>
          obtain ⟨kind, size⟩ := best
          rw [scan, found] at scanned
          cases scanned
          by_cases returned : first = '\r' ∧ rest = []
          · obtain ⟨rfl, rfl⟩ := returned
            obtain rfl : Token.Kind.lineEnding = kind :=
              Option.some.inj (startKind_of_matches (matches_of_longestMatch found).2)
            refine ⟨[], _, [⟨.ok .lineEnding, "\r\n", ⟨start, start + 2⟩⟩], start + 2, rfl, ?_, ?_⟩
            · simp [isTrivia, Token.Kind.read, ofChars]
            · exact fun more => ofChars_of_longestMatch (longestMatch_return more) start
          · obtain ⟨kept, last, ending, place, parts, trivia, joined⟩ := inductionHypothesis tokens.2
            refine ⟨_ :: kept, last, ending, place, congrArg _ parts, trivia, fun more => ?_⟩
            have inside := (matches_of_longestMatch found).1
            rw [List.cons_append, ofChars_of_longestMatch (longestMatch_newline found returned more),
              List.take_append_of_le_length inside, List.drop_append_of_le_length inside, joined]
            rfl

end Lexeme

end SmallScheme
