/-
This file says how string and character literals of generated code are read, and shows that a written
literal reads as its content and in no other way.
-/

import SmallScheme.Proofs.Code.Names

namespace SmallScheme.Text

section Hexadecimal

/-- Letters of both cases are digits. -/
def hexDigit? (c : Char) : Option Nat :=
  if c.isDigit then some (c.toNat - '0'.toNat)
  else if 'a' ≤ c && c ≤ 'f' then some (c.toNat - 'a'.toNat + 10)
  else if 'A' ≤ c && c ≤ 'F' then some (c.toNat - 'A'.toNat + 10)
  else none

/-- The value of hexadecimal digits, the first of which is the most significant one. -/
def hexValue? (digits : List Char) : Option Nat :=
  digits.foldlM (fun value digit => (hexDigit? digit).map (16 * value + ·)) 0

/-- The character of a digit is read as this digit. -/
theorem hexDigit?_digitChar {digit : Nat} (small : digit < 16) :
    hexDigit? digit.digitChar = some digit := by
  have all : ∀ other < 16, hexDigit? other.digitChar = some other := by decide
  exact all digit small

/-- Written digits have the value that they were written for. -/
theorem hexValue?_hexadecimal (value : Nat) : hexValue? (hexadecimal value) = some value := by
  induction value using Nat.strongRecOn with
  | ind value ih =>
      rw [hexadecimal_eq]
      split
      · rename_i small
        simp [hexValue?, hexDigit?_digitChar small]
      · have earlier := ih (value / 16) (by omega)
        rw [hexValue?] at earlier
        rw [hexValue?, List.foldlM_append, earlier]
        have last : 16 * (value / 16) + value % 16 = value := Nat.div_add_mod value 16
        simp [hexDigit?_digitChar (Nat.mod_lt value (by decide : 0 < 16)), last]

/-- Every character of a text with a value is a digit. -/
theorem hexDigit?_of_mem {digits : List Char} {start value : Nat}
    (denotes : digits.foldlM (fun value digit => (hexDigit? digit).map (16 * value + ·)) start =
      some value) {c : Char} (member : c ∈ digits) : (hexDigit? c).isSome := by
  induction digits generalizing start with
  | nil => cases member
  | cons first rest ih =>
      rw [List.foldlM_cons, Option.bind_eq_bind, Option.bind_eq_some_iff] at denotes
      obtain ⟨next, read, denotes⟩ := denotes
      rcases List.mem_cons.mp member with rfl | member
      · cases found : hexDigit? c <;> simp_all
      · exact ih denotes member

end Hexadecimal

/-- The mark after the backslash stands for one character. -/
def simpleEscape? : Char → Option Char
  | '0' => some '\x00'
  | 't' => some '\t'
  | 'r' => some '\r'
  | 'n' => some '\n'
  | '\\' => some '\\'
  | '\x27' => some '\x27'
  | '\x22' => some '\x22'
  | _ => none

/-- The text after a backslash starts with the rest of an escape, which stands for the character. An
escape by code point has one to six digits, and underscores may follow the first of them. -/
inductive ReadsEscape : List Char → Char → List Char → Prop
  | simple {mark c : Char} {rest : List Char} (known : simpleEscape? mark = some c) :
      ReadsEscape (mark :: rest) c rest
  | byte {high low c : Char} {first second : Nat} {rest : List Char}
      (leads : hexDigit? high = some first) (small : first < 8)
      (follows : hexDigit? low = some second) (denotes : c.toNat = 16 * first + second) :
      ReadsEscape ('x' :: high :: low :: rest) c rest
  | codePoint {first c : Char} {others rest : List Char}
      (short : (others.filter (· != '_')).length < 6)
      (denotes : hexValue? (first :: others.filter (· != '_')) = some c.toNat) :
      ReadsEscape ('u' :: '\x7b' :: first :: (others ++ '\x7d' :: rest)) c rest

/-- The blanks that lay a text out. A backslash at the end of a line hides those after it. -/
def isLayout (c : Char) : Bool :=
  c == ' ' || c == '\t' || c == '\n' || c == '\r'

/-- The text after the opening quote of a string starts with the characters of the content and the
closing quote. -/
inductive ReadsString : List Char → List Char → List Char → Prop
  | close {rest : List Char} : ReadsString ('\x22' :: rest) [] rest
  | plain {c : Char} {text content rest : List Char} (unquoted : c ≠ '\x22') (unescaped : c ≠ '\\')
      (unbroken : c ≠ '\r') (reads : ReadsString text content rest) :
      ReadsString (c :: text) (c :: content) rest
  | escape {c : Char} {text middle content rest : List Char} (escapes : ReadsEscape text c middle)
      (reads : ReadsString middle content rest) : ReadsString ('\\' :: text) (c :: content) rest
  | hidden {text content rest : List Char}
      (reads : ReadsString (text.dropWhile isLayout) content rest) :
      ReadsString ('\\' :: '\n' :: text) content rest

/-- The text after the opening quote of a character starts with the character and the closing quote. -/
inductive ReadsChar : List Char → Char → List Char → Prop
  | plain {c : Char} {rest : List Char} (unquoted : c ≠ '\x27') (unescaped : c ≠ '\\')
      (visible : c ≠ '\n' ∧ c ≠ '\r' ∧ c ≠ '\t') : ReadsChar (c :: '\x27' :: rest) c rest
  | escape {c : Char} {text rest : List Char} (escapes : ReadsEscape text c ('\x27' :: rest)) :
      ReadsChar ('\\' :: text) c rest

section Unique

/-- The closing brace of an escape is none of its digits. -/
theorem closing_notMem {others : List Char} {first : Char} {value : Nat}
    (denotes : hexValue? (first :: others.filter (· != '_')) = some value) : '\x7d' ∉ others := by
  intro member
  have kept : '\x7d' ∈ first :: others.filter (· != '_') :=
    List.mem_cons_of_mem _ (List.mem_filter.mpr ⟨member, by decide⟩)
  exact absurd (hexDigit?_of_mem denotes kept) (by decide)

/-- An escape stands for one character, and ends in one place. -/
theorem ReadsEscape.unique {text rest others : List Char} {c d : Char}
    (first : ReadsEscape text c rest) (second : ReadsEscape text d others) :
    c = d ∧ rest = others := by
  cases first with
  | simple known =>
      cases second with
      | simple again => exact ⟨Option.some.inj (known.symm.trans again), rfl⟩
      | byte => cases known
      | codePoint => cases known
  | byte leads small follows denotes =>
      cases second with
      | simple known => cases known
      | byte leadsAgain _ followsAgain denotesAgain =>
          cases leads.symm.trans leadsAgain
          cases follows.symm.trans followsAgain
          exact ⟨Char.toNat_inj.mp (denotes.trans denotesAgain.symm), rfl⟩
  | codePoint short denotes =>
      generalize shape : _ :: _ :: _ :: (_ ++ _) = source at second
      cases second with
      | simple known =>
          cases shape
          cases known
      | byte => cases shape
      | codePoint _ denotesAgain =>
          simp only [List.cons.injEq, true_and] at shape
          obtain ⟨rfl, tails⟩ := shape
          obtain ⟨rfl, rfl⟩ := Code.append_mark_inj (closing_notMem denotes)
            (closing_notMem denotesAgain) tails
          exact ⟨Char.toNat_inj.mp (Option.some.inj (denotes.symm.trans denotesAgain)), rfl⟩

/-- A string literal has one content, and ends in one place. -/
theorem ReadsString.unique {text content rest others again : List Char}
    (first : ReadsString text content rest) (second : ReadsString text again others) :
    content = again ∧ rest = others := by
  induction first generalizing again with
  | close =>
      cases second with
      | close => exact ⟨rfl, rfl⟩
      | plain unquoted => exact absurd rfl unquoted
  | plain unquoted unescaped _ _ ih =>
      cases second with
      | close => exact absurd rfl unquoted
      | plain _ _ _ reads =>
          obtain ⟨rfl, rfl⟩ := ih reads
          exact ⟨rfl, rfl⟩
      | escape => exact absurd rfl unescaped
      | hidden => exact absurd rfl unescaped
  | escape escapes _ ih =>
      cases second with
      | plain _ unescaped => exact absurd rfl unescaped
      | escape escapesAgain reads =>
          obtain ⟨rfl, rfl⟩ := escapes.unique escapesAgain
          obtain ⟨rfl, rfl⟩ := ih reads
          exact ⟨rfl, rfl⟩
      | hidden =>
          cases escapes with
          | simple known => cases known
  | hidden _ ih =>
      cases second with
      | plain _ unescaped => exact absurd rfl unescaped
      | escape escapes =>
          cases escapes with
          | simple known => cases known
      | hidden reads => exact ih reads

/-- A character literal stands for one character, and ends in one place. -/
theorem ReadsChar.unique {text rest others : List Char} {c d : Char}
    (first : ReadsChar text c rest) (second : ReadsChar text d others) : c = d ∧ rest = others := by
  cases first with
  | plain _ unescaped =>
      cases second with
      | plain => exact ⟨rfl, rfl⟩
      | escape => exact absurd rfl unescaped
  | escape escapes =>
      cases second with
      | plain _ unescaped => exact absurd rfl unescaped
      | escape escapesAgain =>
          obtain ⟨same, rests⟩ := escapes.unique escapesAgain
          exact ⟨same, (List.cons.inj rests).2⟩

end Unique

section Written

/-- The code point of a character has at most six digits. -/
theorem length_hexadecimal_toNat (c : Char) : (hexadecimal c.toNat).length ≤ 6 := by
  rw [hexadecimal, Nat.length_toDigits_le_iff (by decide) (by decide)]
  have valid : c.toNat.isValidChar := c.valid
  rcases valid with low | ⟨_, high⟩
  · exact Nat.lt_trans low (by decide)
  · exact Nat.lt_trans high (by decide)

/-- An escape by code point stands for the character that it was written for. -/
theorem readsEscape_hexadecimal (c : Char) (rest : List Char) :
    ReadsEscape ('u' :: '\x7b' :: (hexadecimal c.toNat ++ '\x7d' :: rest)) c rest := by
  have filled : hexadecimal c.toNat ≠ [] := Nat.toDigits_ne_nil
  have short := length_hexadecimal_toNat c
  have denotes := hexValue?_hexadecimal c.toNat
  have unmarked := Code.underscore_notMem_hexadecimal c.toNat
  obtain ⟨first, others, digits⟩ := List.exists_cons_of_ne_nil filled
  rw [digits] at short denotes unmarked ⊢
  have kept : others.filter (· != '_') = others := by
    rw [List.filter_eq_self]
    intro digit member
    have different : digit ≠ '_' := fun same => unmarked (same ▸ List.mem_cons_of_mem _ member)
    simpa using different
  refine .codePoint ?_ ?_
  · rw [kept]
    exact short
  · rw [kept]
    exact denotes

/-- A character is written as it is, or as an escape that stands for it. -/
theorem escapeChar_cases {quote : Char} (known : simpleEscape? quote = some quote) (c : Char) :
    (escapeChar quote c = [c] ∧ c ≠ quote ∧ c ≠ '\\' ∧ c ≠ '\n' ∧ c ≠ '\r' ∧ c ≠ '\t') ∨
      ∃ text, escapeChar quote c = '\\' :: text ∧ ∀ rest, ReadsEscape (text ++ rest) c rest := by
  unfold escapeChar
  split_ifs with null tab back newline slash quoted unprintable
  · exact .inr ⟨_, rfl, fun rest => .simple (by rw [null]; rfl)⟩
  · exact .inr ⟨_, rfl, fun rest => .simple (by rw [tab]; rfl)⟩
  · exact .inr ⟨_, rfl, fun rest => .simple (by rw [back]; rfl)⟩
  · exact .inr ⟨_, rfl, fun rest => .simple (by rw [newline]; rfl)⟩
  · exact .inr ⟨_, rfl, fun rest => .simple (by rw [slash]; rfl)⟩
  · exact .inr ⟨_, rfl, fun rest => .simple (by rw [quoted]; exact known)⟩
  · refine .inr ⟨'u' :: '\x7b' :: (hexadecimal c.toNat ++ ['\x7d']), rfl, fun rest => ?_⟩
    simpa using readsEscape_hexadecimal c rest
  · exact .inl ⟨rfl, quoted, slash, newline, back, tab⟩

/-- An escaped text is read back up to the quote that closes it. -/
theorem readsString_escaped (content rest : List Char) :
    ReadsString (content.flatMap (escapeChar '\x22') ++ '\x22' :: rest) content rest := by
  induction content with
  | nil => exact .close
  | cons c content ih =>
      rw [List.flatMap_cons, List.append_assoc]
      rcases escapeChar_cases (by rfl : simpleEscape? '\x22' = some '\x22') c with
        ⟨written, unquoted, unescaped, _, unbroken, _⟩ | ⟨text, written, escapes⟩
      · rw [written]
        exact .plain unquoted unescaped unbroken ih
      · rw [written]
        exact .escape (escapes _) ih

/-- A written string reads as its content. -/
theorem exists_quoteString (content : String) (rest : List Char) :
    ∃ text, (quoteString content).toList ++ rest = '\x22' :: text ∧
      ReadsString text content.toList rest := by
  refine ⟨_, ?_, readsString_escaped content.toList rest⟩
  simp [quoteString]

/-- A written character reads as itself. -/
theorem exists_quoteChar (c : Char) (rest : List Char) :
    ∃ text, (quoteChar c).toList ++ rest = '\x27' :: text ∧ ReadsChar text c rest := by
  refine ⟨escapeChar '\x27' c ++ '\x27' :: rest, by simp [quoteChar], ?_⟩
  rcases escapeChar_cases (by rfl : simpleEscape? '\x27' = some '\x27') c with
    ⟨written, unquoted, unescaped, unbroken, unreturned, untabbed⟩ | ⟨text, written, escapes⟩
  · rw [written]
    exact .plain unquoted unescaped ⟨unbroken, unreturned, untabbed⟩
  · rw [written]
    exact .escape (escapes _)

end Written

end SmallScheme.Text
