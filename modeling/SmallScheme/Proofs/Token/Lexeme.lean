/-
This file shows that a scan takes the longest match, so that a token ends at the first character that
cannot continue it.
-/

import SmallScheme.Proofs.Token.Kinds
import SmallScheme.Token.Lexeme

namespace SmallScheme.Lexeme

open Pattern Token

deriving instance DecidableEq for Lexeme

variable {kind : Token.Kind} {first : Char} {text rest : List Char} {length : Nat}

section Longest

/-- One step of the search for the kind with the longest match. -/
def consider (measure : Token.Kind → Option Nat) (best : Option (Token.Kind × Nat)) (kind : Token.Kind) :
    Option (Token.Kind × Nat) :=
  match measure kind with
  | some length => longer best kind length
  | none => best

/-- The search goes through all the kinds. -/
theorem longestMatch_eq (first : Char) (rest : List Char) : longestMatch first rest =
    Token.Kind.all.foldl (consider fun kind => (kind.pattern.derive first).longest rest) none := rfl

variable {measure : Token.Kind → Option Nat} {best : Option (Token.Kind × Nat)} {chosen : Token.Kind}
  {kinds : List Token.Kind}

/-- The search keeps its result or takes the kind that it considers. -/
theorem consider_cases (found : consider measure best kind = some (chosen, length)) :
    best = some (chosen, length) ∨ chosen = kind ∧ measure kind = some length := by
  unfold consider at found
  split at found
  case h_2 => exact .inl found
  case h_1 own measured =>
    unfold longer at found
    split at found
    case h_2 =>
      obtain ⟨rfl, rfl⟩ := Prod.mk.inj (Option.some.inj found)
      exact .inr ⟨rfl, measured⟩
    case h_1 =>
      split at found
      case isFalse => exact .inl found
      case isTrue =>
        obtain ⟨rfl, rfl⟩ := Prod.mk.inj (Option.some.inj found)
        exact .inr ⟨rfl, measured⟩

/-- The result of the search is the start or was measured. -/
theorem measure_of_foldl (found : kinds.foldl (consider measure) best = some (kind, length)) :
    best = some (kind, length) ∨ measure kind = some length := by
  induction kinds generalizing best with
  | nil => exact .inl found
  | cons other kinds inductionHypothesis =>
      obtain considered | measured := inductionHypothesis found
      · obtain earlier | ⟨rfl, measured⟩ := consider_cases considered
        · exact .inl earlier
        · exact .inr measured
      · exact .inr measured

/-- A longer match than the best one is taken. -/
theorem consider_longest (measured : measure kind = some length)
    (ahead : ∀ other less, best = some (other, less) → less < length) :
    consider measure best kind = some (kind, length) := by
  simp only [consider, measured, longer]
  match best with
  | none => rfl
  | some (other, less) => simp [ahead other less rfl]

/-- A match that is no longer than the best one is not taken. -/
theorem consider_shorter (shorter : ∀ less, measure kind = some less → less ≤ length) :
    consider measure (some (chosen, length)) kind = some (chosen, length) := by
  unfold consider
  split
  case h_2 => rfl
  case h_1 less measured =>
    have bound : ¬ length < less := Nat.not_lt.mpr (shorter less measured)
    simp [longer, bound]

/-- A kind whose match is longer than every other one is found, wherever it stands. -/
theorem foldl_consider (measured : measure kind = some length)
    (shorter : ∀ other less, other ≠ kind → measure other = some less → less < length)
    (ahead : best = some (kind, length) ∨
      kind ∈ kinds ∧ ∀ other less, best = some (other, less) → less < length) :
    kinds.foldl (consider measure) best = some (kind, length) := by
  induction kinds generalizing best with
  | nil => simpa using ahead
  | cons other kinds inductionHypothesis =>
      apply inductionHypothesis
      obtain rfl | ⟨member, behind⟩ := ahead
      · left
        apply consider_shorter
        intro less found
        by_cases same : other = kind
        · subst same
          have equal := Option.some.inj (measured.symm.trans found)
          omega
        · exact Nat.le_of_lt (shorter other less same found)
      · by_cases same : other = kind
        · subst same
          exact .inl (consider_longest measured behind)
        · right
          have later : kind ∈ kinds := (List.mem_cons.mp member).resolve_left (Ne.symm same)
          refine ⟨later, fun chosen less found => ?_⟩
          obtain earlier | ⟨rfl, own⟩ := consider_cases found
          · exact behind chosen less earlier
          · exact shorter chosen less same own

/-- The longest match lies inside the text and is a text of its kind. -/
theorem matches_of_longestMatch (found : longestMatch first rest = some (kind, length)) :
    length ≤ rest.length ∧ Matches kind.pattern (first :: rest.take length) := by
  rw [longestMatch_eq] at found
  obtain none | measured := measure_of_foldl found
  · contradiction
  · obtain ⟨within, matched, _⟩ := matches_of_longest_eq_some measured
    exact ⟨within, matches_derive.mp matched⟩

/-- The search does not give up a longer match for a shorter one. -/
theorem exists_consider (known : measure kind = some length ∨ ∃ other, best = some (other, length)) :
    ∃ other bound, consider measure best kind = some (other, bound) ∧ length ≤ bound := by
  unfold consider longer
  cases measured : measure kind with
  | none =>
      obtain absent | ⟨other, rfl⟩ := known
      · rw [measured] at absent
        contradiction
      · exact ⟨other, length, rfl, Nat.le_refl _⟩
  | some own =>
      rw [measured] at known
      match best with
      | none => exact ⟨kind, own, rfl, by simp at known; omega⟩
      | some (other, less) =>
          simp only [Option.some.injEq, Prod.mk.injEq, exists_eq_left'] at known
          by_cases behind : less < own
          · exact ⟨kind, own, by simp [behind], by omega⟩
          · exact ⟨other, less, by simp [behind], by omega⟩

/-- No match is longer than the result of the search. -/
theorem le_of_foldl (found : kinds.foldl (consider measure) best = some (chosen, length)) :
    (∀ other less, best = some (other, less) → less ≤ length) ∧
      ∀ other ∈ kinds, ∀ less, measure other = some less → less ≤ length := by
  induction kinds generalizing best with
  | nil =>
      obtain rfl : best = some (chosen, length) := found
      simp
  | cons kind kinds inductionHypothesis =>
      obtain ⟨bounded, others⟩ := inductionHypothesis found
      have reached (less : Nat) (known : measure kind = some less ∨ ∃ other, best = some (other, less)) :
          less ≤ length := by
        obtain ⟨other, bound, considered, below⟩ := exists_consider known
        exact Nat.le_trans below (bounded other bound considered)
      refine ⟨fun other less known => reached less (.inr ⟨other, known⟩), ?_⟩
      exact List.forall_mem_cons.mpr ⟨fun less known => reached less (.inl known), others⟩

/-- The search leaves out no kind. -/
theorem mem_all (kind : Token.Kind) : kind ∈ Token.Kind.all := by
  cases kind <;> decide

/-- Every match of a kind is at most as long as its longest one. -/
theorem longest_of_matches {more : Nat} (matched : Matches kind.pattern (first :: rest.take more))
    (within : more ≤ rest.length) :
    ∃ longest, (kind.pattern.derive first).longest rest = some longest ∧ more ≤ longest := by
  rw [← matches_derive] at matched
  cases found : (kind.pattern.derive first).longest rest with
  | none => exact absurd matched (not_matches_of_longest_eq_none found more)
  | some longest =>
      refine ⟨longest, rfl, ?_⟩
      by_contra beyond
      exact (matches_of_longest_eq_some found).2.2 more (Nat.not_le.mp beyond) within matched

/-- The search finds the match that no match of any kind exceeds. -/
theorem longestMatch_eq_some_iff : longestMatch first rest = some (kind, length) ↔
    length ≤ rest.length ∧ Matches kind.pattern (first :: rest.take length) ∧
      ∀ (other : Token.Kind) more, more ≤ rest.length →
        Matches other.pattern (first :: rest.take more) → more ≤ length := by
  constructor
  · intro found
    obtain ⟨within, matched⟩ := matches_of_longestMatch found
    refine ⟨within, matched, fun other more inside longer => ?_⟩
    obtain ⟨longest, measured, below⟩ := longest_of_matches longer inside
    exact Nat.le_trans below ((le_of_foldl found).2 other (mem_all other) longest measured)
  · rintro ⟨within, matched, maximal⟩
    have bounded (other : Token.Kind) (less : Nat)
        (measured : (other.pattern.derive first).longest rest = some less) :
        less ≤ length ∧ Matches other.pattern (first :: rest.take less) := by
      obtain ⟨inside, own, _⟩ := matches_of_longest_eq_some measured
      rw [matches_derive] at own
      exact ⟨maximal other less inside own, own⟩
    rw [longestMatch_eq]
    obtain ⟨longest, measured, below⟩ := longest_of_matches matched within
    obtain rfl : longest = length := Nat.le_antisymm (bounded kind longest measured).1 below
    refine foldl_consider measured (fun other less different found => ?_)
      (.inr ⟨mem_all kind, fun other less absent => by contradiction⟩)
    -- Two kinds with the same text are the same.
    obtain ⟨bound, own⟩ := bounded other less found
    refine Nat.lt_of_le_of_ne bound fun same => different ?_
    subst same
    exact kind_unique matched own

/-- No kind matches more than a token that ends at a character which cannot continue it. -/
theorem longestMatch_append (matched : Matches kind.pattern (first :: text))
    (stops : ∀ c ∈ rest.head?, kind.continues c = false) :
    longestMatch first (text ++ rest) = some (kind, text.length) := by
  refine longestMatch_eq_some_iff.mpr ⟨by simp, by rwa [List.take_left], ?_⟩
  intro other more within longer
  by_contra beyond
  obtain ⟨extra, rfl⟩ : ∃ extra, more = text.length + (extra + 1) :=
    ⟨more - text.length - 1, by omega⟩
  cases rest with
  | nil =>
      rw [List.append_nil] at within
      exact beyond within
  | cons c rest =>
      rw [List.take_length_add_append, List.take_succ_cons, ← List.cons_append] at longer
      exact not_matches_of_stops matched (stops c rfl) longer

end Longest

section Tokens

/-- The first lexeme is the longest match, and the others are those of the rest. -/
theorem ofChars_of_longestMatch (found : longestMatch first rest = some (kind, length))
    (start : Nat) :
    ofChars start (first :: rest) =
      ⟨kind.read (first :: rest.take length), String.ofList (first :: rest.take length),
          ⟨start, start + byteLength (first :: rest.take length)⟩⟩ ::
        ofChars (start + byteLength (first :: rest.take length)) (rest.drop length) := by
  rw [ofChars]
  simp only [scan, found]

/-- A token ends where the source does, or at a character that cannot continue it. -/
theorem ofChars_append (matched : Matches kind.pattern text)
    (stops : ∀ c ∈ rest.head?, kind.continues c = false) (start : Nat) :
    ofChars start (text ++ rest) =
      ⟨kind.read text, String.ofList text, ⟨start, start + byteLength text⟩⟩ ::
        ofChars (start + byteLength text) rest := by
  cases text with
  | nil => exact absurd (startKind_of_matches matched) (by simp [startKind])
  | cons first text =>
      rw [List.cons_append, ofChars_of_longestMatch (longestMatch_append matched stops),
        List.take_left, List.drop_left]

/-- A text of a kind on its own is the token that it is read as. -/
theorem ofText?_of_matches {token : Token} (matched : Matches kind.pattern text)
    (read : kind.read text = .ok token) : Token.ofText? (String.ofList text) = some token := by
  have ended : ∀ c ∈ ([] : List Char).head?, kind.continues c = false := by simp
  have alone := ofChars_append matched ended 0
  rw [List.append_nil, read] at alone
  simp only [Token.ofText?, lexemes, String.toList_ofList, alone]

/-- A text is read as a token of its kind. -/
theorem kind_of_read {token : Token} (read : kind.read text = .ok token) : token.kind = kind := by
  cases kind with
  | number =>
      simp only [Token.Kind.read] at read
      split at read
      · cases read
        rfl
      · cases read
  | _ =>
      cases read
      rfl

/-- The text of a token is a text of its kind, and the token is read from it. -/
theorem matches_of_mem {start : Nat} {chars : List Char} {lexeme : Lexeme} {token : Token}
    (member : lexeme ∈ ofChars start chars) (read : lexeme.token = .ok token) :
    Matches token.kind.pattern lexeme.text.toList ∧
      token.kind.read lexeme.text.toList = .ok token := by
  fun_induction ofChars start chars with
  | case1 start => exact absurd member List.not_mem_nil
  | case2 start first rest scanned length equal text stop inductionHypothesis =>
      rcases List.mem_cons.mp member with rfl | later
      · unfold scan at equal
        cases found : longestMatch first rest with
        | none =>
            rw [found] at equal
            cases equal
            cases read
        | some best =>
            obtain ⟨kind, size⟩ := best
            rw [found] at equal
            obtain ⟨rfl, rfl⟩ := Prod.mk.inj equal
            rw [kind_of_read read, String.toList_ofList]
            exact ⟨(matches_of_longestMatch found).2, read⟩
      · exact inductionHypothesis later

/-- The text of a token on its own is the same token. -/
theorem ofText?_of_mem {start : Nat} {chars : List Char} {lexeme : Lexeme} {token : Token}
    (member : lexeme ∈ ofChars start chars) (read : lexeme.token = .ok token) :
    Token.ofText? lexeme.text = some token := by
  obtain ⟨matched, again⟩ := matches_of_mem member read
  have alone := ofText?_of_matches matched again
  rwa [String.ofList_toList] at alone

/-- A source that is one token is a text of its kind. -/
theorem matches_of_single {source : String} {token : Token}
    (single : (lexemes source).map Lexeme.token = [.ok token]) :
    Matches token.kind.pattern source.toList ∧ token.kind.read source.toList = .ok token := by
  unfold lexemes at single
  cases chars : source.toList with
  | nil => simp [chars, ofChars] at single
  | cons first rest =>
      rw [chars, ofChars] at single
      simp only [List.map_cons, List.cons.injEq, List.map_eq_nil_iff] at single
      obtain ⟨read, ended⟩ := single
      unfold scan at read ended
      cases found : longestMatch first rest with
      | none => simp [found] at read
      | some best =>
          obtain ⟨kind, length⟩ := best
          simp only [found] at read ended
          have used : rest.drop length = [] := by
            cases left : rest.drop length with
            | nil => rfl
            | cons c more => simp [left, ofChars] at ended
          have all : rest.take length = rest := List.take_of_length_le (List.drop_eq_nil_iff.mp used)
          rw [all] at read
          have matched := (matches_of_longestMatch found).2
          rw [all] at matched
          rw [kind_of_read read]
          exact ⟨matched, read⟩

end Tokens

end SmallScheme.Lexeme
