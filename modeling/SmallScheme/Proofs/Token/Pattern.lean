/-
This file shows that derivatives and longest matches agree with the texts of a pattern, and describes
the texts of patterns over character classes.
-/

import Mathlib.Data.List.Forall2
import SmallScheme.Token.Pattern

namespace SmallScheme.Pattern

variable {pattern first second left right body : Pattern} {accepts : Char → Bool}
  {c : Char} {text : List Char}

/-- The pattern of nothing matches no text. -/
@[simp] theorem not_matches_nothing : ¬ Matches .nothing text := by
  intro matched
  cases matched

/-- The empty pattern matches the empty text. -/
@[simp] theorem matches_empty : Matches .empty text ↔ text = [] := by
  constructor
  · intro matched
    cases matched
    rfl
  · intro empty
    subst empty
    exact .empty

/-- A class matches its characters. -/
theorem matches_char : Matches (.char accepts) text ↔ ∃ c, accepts c = true ∧ text = [c] := by
  constructor
  · intro matched
    cases matched with
    | char accepted => exact ⟨_, accepted, rfl⟩
  · intro matched
    obtain ⟨c, accepted, rfl⟩ := matched
    exact .char accepted

/-- An alternative matches what either side matches. -/
@[simp] theorem matches_alt :
    Matches (.alt left right) text ↔ Matches left text ∨ Matches right text := by
  constructor
  · intro matched
    cases matched with
    | altLeft matched => exact .inl matched
    | altRight matched => exact .inr matched
  · intro matched
    obtain matched | matched := matched
    · exact .altLeft matched
    · exact .altRight matched

/-- A sequence matches a text that splits into texts of its two parts. -/
theorem matches_seq : Matches (.seq first second) text ↔
    ∃ head rest, text = head ++ rest ∧ Matches first head ∧ Matches second rest := by
  constructor
  · intro matched
    cases matched with
    | seq one two => exact ⟨_, _, rfl, one, two⟩
  · intro matched
    obtain ⟨head, rest, rfl, one, two⟩ := matched
    exact .seq one two

/-- A first character belongs to the first pattern, unless that one matches the empty text. -/
theorem matches_seq_cons : Matches (.seq first second) (c :: text) ↔
    (∃ head rest, text = head ++ rest ∧ Matches first (c :: head) ∧ Matches second rest) ∨
      Matches first [] ∧ Matches second (c :: text) := by
  rw [matches_seq]
  constructor
  · intro matched
    obtain ⟨head, rest, parts, one, two⟩ := matched
    cases head with
    | nil => exact .inr ⟨one, parts ▸ two⟩
    | cons d head =>
        obtain ⟨rfl, rfl⟩ := List.cons.inj parts
        exact .inl ⟨head, rest, rfl, one, two⟩
  · intro matched
    obtain ⟨head, rest, rfl, one, two⟩ | ⟨one, two⟩ := matched
    · exact ⟨c :: head, rest, rfl, one, two⟩
    · exact ⟨[], c :: text, rfl, one, two⟩

/-- A first character belongs to a first repetition, and repetitions of nothing do not count. -/
theorem matches_star_cons : Matches (.star body) (c :: text) ↔
    ∃ head rest, text = head ++ rest ∧ Matches body (c :: head) ∧ Matches (.star body) rest := by
  constructor
  · intro matched
    generalize shape : Pattern.star body = pattern at matched
    generalize whole : c :: text = chars at matched
    induction matched with
    | starNil => cases whole
    | @starAppend other head rest one more _ later =>
        cases shape
        cases head with
        | nil => exact later rfl whole
        | cons d head =>
            obtain ⟨rfl, rfl⟩ := List.cons.inj whole
            exact ⟨head, rest, rfl, one, more⟩
    | _ => cases shape
  · intro matched
    obtain ⟨head, rest, rfl, one, more⟩ := matched
    exact .starAppend one more

/-- A pattern is nullable exactly if it matches the empty text. -/
theorem nullable_iff : pattern.nullable = true ↔ Matches pattern [] := by
  induction pattern with
  | nothing => simp [nullable]
  | empty => simp [nullable]
  | char accepts => simp [nullable, matches_char]
  | seq first second firstHypothesis secondHypothesis =>
      simp [nullable, matches_seq, firstHypothesis, secondHypothesis, and_assoc]
  | alt left right leftHypothesis rightHypothesis =>
      simp [nullable, leftHypothesis, rightHypothesis]
  | star body _ => simp [nullable, Matches.starNil]

/-- Simplifying a sequence keeps its texts. -/
theorem matches_join : Matches (join first second) text ↔ Matches (.seq first second) text := by
  cases first with
  | nothing => simp [join, matches_seq]
  | empty => simp [join, matches_seq]
  | _ => rfl

/-- Simplifying an alternative keeps its texts. -/
theorem matches_either :
    Matches (either left right) text ↔ Matches left text ∨ Matches right text := by
  cases left <;> cases right <;> simp [either]

/-- The derivative matches exactly what may follow the character. -/
theorem matches_derive : Matches (pattern.derive c) text ↔ Matches pattern (c :: text) := by
  induction pattern generalizing text with
  | nothing => simp [derive]
  | empty => simp [derive]
  | char accepts =>
      simp only [derive, matches_char]
      split <;> simp_all
  | alt left right leftHypothesis rightHypothesis =>
      simp [derive, matches_either, leftHypothesis, rightHypothesis]
  | seq first second firstHypothesis secondHypothesis =>
      have joined : Matches (join (first.derive c) second) text ↔
          ∃ head rest, text = head ++ rest ∧ Matches first (c :: head) ∧ Matches second rest := by
        simp only [matches_join, matches_seq, firstHypothesis]
      rw [derive, matches_seq_cons, ← nullable_iff]
      cases first.nullable with
      | true => simp only [if_true, matches_either, joined, secondHypothesis, true_and]
      | false => simp only [Bool.false_eq_true, if_false, joined, false_and, or_false]
  | star body bodyHypothesis =>
      simp only [derive, matches_join, matches_seq, bodyHypothesis, matches_star_cons]

/-- A text is matched exactly if its characters derive a nullable pattern. -/
theorem matches_iff_nullable :
    Matches pattern text ↔ (text.foldl (fun pattern c => pattern.derive c) pattern).nullable = true := by
  induction text generalizing pattern with
  | nil => exact nullable_iff.symm
  | cons c rest inductionHypothesis => rw [← matches_derive, inductionHypothesis, List.foldl_cons]

/-- Derivatives decide whether a text is matched. -/
instance : Decidable (Matches pattern text) :=
  decidable_of_iff _ matches_iff_nullable.symm

/-- Nothing can be matched only by a nullable pattern. -/
theorem longest_nil : longest pattern [] = if pattern.nullable then some 0 else none := by
  cases pattern <;> rfl

/-- The longest match goes on with the next character, or it is empty. -/
theorem longest_cons : longest pattern (c :: text) =
    match longest (pattern.derive c) text with
    | some length => some (length + 1)
    | none => if pattern.nullable then some 0 else none := by
  cases pattern with
  | nothing => cases text <;> rfl
  | _ => rfl

/-- No prefix of the text matches. -/
theorem not_matches_of_longest_eq_none (none : longest pattern text = none) (length : Nat) :
    ¬ Matches pattern (text.take length) := by
  induction text generalizing pattern length with
  | nil =>
      rw [longest_nil] at none
      simpa [← nullable_iff] using none
  | cons c rest inductionHypothesis =>
      rw [longest_cons] at none
      cases found : longest (pattern.derive c) rest with
      | some length => simp [found] at none
      | none =>
          rw [found] at none
          cases length with
          | zero => simpa [← nullable_iff] using none
          | succ length =>
              rw [List.take_succ_cons, ← matches_derive]
              exact inductionHypothesis found length

/-- The prefix of the given length matches, and no longer one does. -/
theorem matches_of_longest_eq_some {length : Nat} (found : longest pattern text = some length) :
    length ≤ text.length ∧ Matches pattern (text.take length) ∧
      ∀ more, length < more → more ≤ text.length → ¬ Matches pattern (text.take more) := by
  induction text generalizing pattern length with
  | nil =>
      rw [longest_nil] at found
      cases empty : pattern.nullable with
      | false => simp [empty] at found
      | true =>
          obtain rfl : 0 = length := by simpa [empty] using found
          refine ⟨Nat.le_refl 0, nullable_iff.mp empty, fun more longer within => ?_⟩
          simp only [List.length_nil] at within
          omega
  | cons c rest inductionHypothesis =>
      rw [longest_cons] at found
      cases later : longest (pattern.derive c) rest with
      | some short =>
          obtain rfl : short + 1 = length := by simpa [later] using found
          obtain ⟨within, matched, maximal⟩ := inductionHypothesis later
          refine ⟨Nat.succ_le_succ within, matches_derive.mp matched, fun more longer bound => ?_⟩
          obtain ⟨less, rfl⟩ : ∃ less, more = less + 1 := ⟨more - 1, by omega⟩
          rw [List.take_succ_cons, ← matches_derive]
          exact maximal less (by omega) (by simpa using bound)
      | none =>
          rw [later] at found
          cases empty : pattern.nullable with
          | false => simp [empty] at found
          | true =>
              obtain rfl : 0 = length := by simpa [empty] using found
              refine ⟨Nat.zero_le _, nullable_iff.mp empty, fun more longer _ => ?_⟩
              obtain ⟨less, rfl⟩ : ∃ less, more = less + 1 := ⟨more - 1, by omega⟩
              rw [List.take_succ_cons, ← matches_derive]
              exact not_matches_of_longest_eq_none later less

section Classes

/-- A pattern that starts with one class. -/
theorem matches_char_seq : Matches (.seq (.char accepts) second) text ↔
    ∃ c rest, text = c :: rest ∧ accepts c = true ∧ Matches second rest := by
  rw [matches_seq]
  constructor
  · intro matched
    obtain ⟨head, rest, rfl, one, two⟩ := matched
    obtain ⟨c, accepted, rfl⟩ := matches_char.mp one
    exact ⟨c, rest, rfl, accepted, two⟩
  · intro matched
    obtain ⟨c, rest, rfl, accepted, two⟩ := matched
    exact ⟨[c], rest, rfl, .char accepted, two⟩

/-- A repeated class matches the texts of its characters. -/
theorem matches_star_char : Matches (.star (.char accepts)) text ↔ ∀ c ∈ text, accepts c = true := by
  induction text with
  | nil => simp [Matches.starNil]
  | cons c rest inductionHypothesis =>
      rw [matches_star_cons, List.forall_mem_cons, ← inductionHypothesis]
      constructor
      · intro matched
        obtain ⟨head, later, rfl, one, more⟩ := matched
        obtain ⟨d, accepted, parts⟩ := matches_char.mp one
        obtain ⟨rfl, rfl⟩ := List.cons.inj parts
        exact ⟨accepted, more⟩
      · intro matched
        obtain ⟨accepted, more⟩ := matched
        exact ⟨[], rest, rfl, .char accepted, more⟩

/-- A class that is repeated at least once matches the texts of its characters that are not empty. -/
theorem matches_plus_char :
    Matches (.plus (.char accepts)) text ↔ text ≠ [] ∧ ∀ c ∈ text, accepts c = true := by
  rw [plus, matches_char_seq]
  constructor
  · intro matched
    obtain ⟨c, rest, rfl, accepted, more⟩ := matched
    exact ⟨List.cons_ne_nil c rest, List.forall_mem_cons.mpr ⟨accepted, matches_star_char.mp more⟩⟩
  · intro matched
    obtain ⟨some, all⟩ := matched
    obtain ⟨c, rest, rfl⟩ := List.exists_cons_of_ne_nil some
    rw [List.forall_mem_cons] at all
    exact ⟨c, rest, rfl, all.1, matches_star_char.mpr all.2⟩

/-- An option matches the empty text and the texts of its body. -/
@[simp] theorem matches_optional : Matches (.optional body) text ↔ text = [] ∨ Matches body text := by
  simp [optional]

/-- A sequence of classes matches a text of as many characters, one of each class. -/
theorem matches_sequence {classes : List (Char → Bool)} :
    Matches (sequence classes) text ↔ List.Forall₂ (fun accepts c => accepts c = true) classes text := by
  induction classes generalizing text with
  | nil => simp [sequence]
  | cons accepts rest inductionHypothesis =>
      change Matches (.seq (.char accepts) (sequence rest)) text ↔ _
      simp only [matches_char_seq, inductionHypothesis, List.forall₂_cons_left_iff]
      constructor
      · intro matched
        obtain ⟨c, others, rfl, accepted, paired⟩ := matched
        exact ⟨c, others, accepted, paired, rfl⟩
      · intro matched
        obtain ⟨c, others, accepted, paired, rfl⟩ := matched
        exact ⟨c, others, rfl, accepted, paired⟩

end Classes

section Avoids

/-- No class of the pattern has the character. -/
def avoids (c : Char) : Pattern → Bool
  | .nothing => true
  | .empty => true
  | .char accepts => !accepts c
  | .seq first second => first.avoids c && second.avoids c
  | .alt left right => left.avoids c && right.avoids c
  | .star body => body.avoids c

/-- A character that the pattern avoids stands in none of its texts. -/
theorem not_mem_of_avoids (matched : Matches pattern text) (avoided : pattern.avoids c = true) :
    c ∉ text := by
  induction matched with
  | empty => simp
  | @char accepts d accepted =>
      rintro (_ | ⟨_, ⟨⟩⟩)
      simp [avoids, accepted] at avoided
  | seq _ _ left right =>
      rw [avoids, Bool.and_eq_true] at avoided
      exact fun member => (List.mem_append.mp member).elim (left avoided.1) (right avoided.2)
  | altLeft _ left =>
      rw [avoids, Bool.and_eq_true] at avoided
      exact left avoided.1
  | altRight _ right =>
      rw [avoids, Bool.and_eq_true] at avoided
      exact right avoided.2
  | starNil => simp
  | starAppend _ _ body star =>
      exact fun member => (List.mem_append.mp member).elim (body avoided) (star avoided)

end Avoids

end SmallScheme.Pattern
