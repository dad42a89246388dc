/-
This file shows that the identifiers of generated code never collide. A mangled name can be read back
character by character, and the underscores tell a numbered name from one without a number.
-/

import Mathlib.Algebra.Ring.Parity
import Mathlib.Data.List.Basic
import SmallScheme.Code.Text

namespace SmallScheme

namespace Text

/-- The character of a hexadecimal digit is a letter or a digit. -/
theorem isAlphanum_digitChar {digit : Nat} (small : digit < 16) :
    digit.digitChar.isAlphanum = true := by
  have all : ∀ other < 16, other.digitChar.isAlphanum = true := by decide
  exact all digit small

/-- Hexadecimal digits have characters of their own. -/
theorem digitChar_injOn {first second : Nat} (firstSmall : first < 16) (secondSmall : second < 16)
    (same : first.digitChar = second.digitChar) : first = second := by
  have all : ∀ one < 16, ∀ other < 16, one.digitChar = other.digitChar → one = other := by decide
  exact all first firstSmall second secondSmall same

/-- The last digit of a number is its remainder, and the digits before it are those of the quotient. -/
theorem hexadecimal_eq (value : Nat) :
    hexadecimal value =
      if value < 16 then [value.digitChar]
      else hexadecimal (value / 16) ++ [(value % 16).digitChar] :=
  Nat.toDigits_eq_if (by decide)

/-- A hexadecimal number is written in letters and digits. -/
theorem isAlphanum_of_mem_hexadecimal {value : Nat} {c : Char} (member : c ∈ hexadecimal value) :
    c.isAlphanum = true := by
  induction value using Nat.strongRecOn with
  | ind value ih =>
      rw [hexadecimal_eq] at member
      split at member
      · rw [List.mem_singleton.mp member]
        exact isAlphanum_digitChar ‹_›
      · rcases List.mem_append.mp member with earlier | last
        · exact ih (value / 16) (by omega) earlier
        · rw [List.mem_singleton.mp last]
          exact isAlphanum_digitChar (by omega)

/-- A number can be read back from its hexadecimal digits. -/
theorem hexadecimal_injective : Function.Injective hexadecimal := by
  intro first
  induction first using Nat.strongRecOn with
  | ind first ih =>
      intro second same
      have filled (value : Nat) : hexadecimal value ≠ [] := Nat.toDigits_ne_nil
      rw [hexadecimal_eq first, hexadecimal_eq second] at same
      split at same <;> split at same
      · exact digitChar_injOn ‹_› ‹_› (List.singleton_inj.mp same)
      · simp [List.singleton_eq_append_iff, filled] at same
      · simp [List.append_eq_singleton_iff, filled] at same
      · obtain ⟨earlier, last⟩ := List.append_inj' same rfl
        have quotients := ih (first / 16) (by omega) earlier
        have remainders := digitChar_injOn (by omega) (by omega) (List.singleton_inj.mp last)
        omega

end Text

namespace Code

/-- The characters of generated identifiers. -/
def isIdentifierChar (c : Char) : Bool :=
  c.isAlphanum || c == '_'

/-- The underscore is neither a letter nor a digit. -/
theorem ne_underscore_of_isAlphanum {c : Char} (plain : c.isAlphanum = true) : c ≠ '_' := by
  rintro rfl
  contradiction

/-- No hexadecimal number holds an underscore. -/
theorem underscore_notMem_hexadecimal (value : Nat) : '_' ∉ Text.hexadecimal value :=
  fun member => ne_underscore_of_isAlphanum (Text.isAlphanum_of_mem_hexadecimal member) rfl

/-- The first mark of a text ends what stands before it. -/
theorem append_mark_inj {A : Type} {mark : A} {first second rest others : List A}
    (firstFree : mark ∉ first) (secondFree : mark ∉ second)
    (same : first ++ mark :: rest = second ++ mark :: others) : first = second ∧ rest = others := by
  induction first generalizing second with
  | nil =>
      cases second with
      | nil => exact ⟨rfl, (List.cons.inj same).2⟩
      | cons head later =>
          obtain ⟨rfl, _⟩ := List.cons.inj same
          exact absurd List.mem_cons_self secondFree
  | cons item tail ih =>
      cases second with
      | nil =>
          obtain ⟨rfl, _⟩ := List.cons.inj same
          exact absurd List.mem_cons_self firstFree
      | cons head later =>
          rw [List.mem_cons, not_or] at firstFree secondFree
          obtain ⟨rfl, tails⟩ := List.cons.inj same
          obtain ⟨rfl, rfl⟩ := ih firstFree.2 secondFree.2 tails
          exact ⟨rfl, rfl⟩

section Mangle

/-- Letters and digits stand for themselves. -/
theorem mangleChar_of_isAlphanum {c : Char} (plain : c.isAlphanum = true) : mangleChar c = [c] :=
  if_pos plain

/-- Any other character stands as its code point between two underscores. -/
theorem mangleChar_of_not_isAlphanum {c : Char} (special : c.isAlphanum = false) :
    mangleChar c = '_' :: (Text.hexadecimal c.toNat ++ ['_']) := by
  rw [mangleChar, special]
  rfl

/-- Every character of a name leaves a trace in the mangled name. -/
theorem mangleChar_ne_nil (c : Char) : mangleChar c ≠ [] := by
  unfold mangleChar
  split <;> exact List.cons_ne_nil _ _

/-- The characters that stand for one character can be cut off what follows them. -/
theorem mangleChar_append_inj {first second : Char} {rest others : List Char}
    (same : mangleChar first ++ rest = mangleChar second ++ others) :
    first = second ∧ rest = others := by
  cases firstPlain : first.isAlphanum <;> cases secondPlain : second.isAlphanum
  · rw [mangleChar_of_not_isAlphanum firstPlain, mangleChar_of_not_isAlphanum secondPlain] at same
    simp only [List.cons_append, List.append_assoc, List.nil_append, List.cons.injEq,
      true_and] at same
    obtain ⟨digits, tails⟩ := append_mark_inj (underscore_notMem_hexadecimal _)
      (underscore_notMem_hexadecimal _) same
    exact ⟨Char.toNat_inj.mp (Text.hexadecimal_injective digits), tails⟩
  · rw [mangleChar_of_not_isAlphanum firstPlain, mangleChar_of_isAlphanum secondPlain] at same
    exact absurd (List.cons.inj same).1.symm (ne_underscore_of_isAlphanum secondPlain)
  · rw [mangleChar_of_isAlphanum firstPlain, mangleChar_of_not_isAlphanum secondPlain] at same
    exact absurd (List.cons.inj same).1 (ne_underscore_of_isAlphanum firstPlain)
  · rw [mangleChar_of_isAlphanum firstPlain, mangleChar_of_isAlphanum secondPlain] at same
    exact List.cons.inj same

/-- Mangled characters can be read back one after the other. -/
theorem flatMap_mangleChar_injective : Function.Injective (List.flatMap mangleChar) := by
  intro first
  induction first with
  | nil =>
      intro second same
      cases second with
      | nil => rfl
      | cons c rest => exact absurd same.symm (by simp [mangleChar_ne_nil])
  | cons d others ih =>
      intro second same
      cases second with
      | nil => exact absurd same (by simp [mangleChar_ne_nil])
      | cons c rest =>
          rw [List.flatMap_cons, List.flatMap_cons] at same
          obtain ⟨rfl, tails⟩ := mangleChar_append_inj same
          rw [ih tails]

/-- A mangled name can be read back. -/
theorem mangle_injective : Function.Injective mangle := by
  intro first second same
  exact String.toList_inj.mp (flatMap_mangleChar_injective (String.ofList_injective same))

/-- Names behind the same start can be read back. -/
theorem append_mangle_inj {start name other : String}
    (same : start ++ mangle name = start ++ mangle other) : name = other :=
  mangle_injective ((String.append_right_inj start).mp same)

/-- A name is mangled character by character. -/
theorem toList_mangle (name : String) : (mangle name).toList = name.toList.flatMap mangleChar :=
  String.toList_ofList

/-- What stands for a character has only characters of identifiers. -/
theorem isIdentifierChar_of_mem_mangleChar {c d : Char} (member : d ∈ mangleChar c) :
    isIdentifierChar d = true := by
  unfold mangleChar at member
  rw [isIdentifierChar, Bool.or_eq_true, beq_iff_eq]
  split at member
  · rw [List.mem_singleton.mp member]
    exact .inl ‹_›
  · simp only [List.cons_append, List.mem_cons, List.mem_append, List.not_mem_nil, or_false] at member
    rcases member with mark | digit | mark
    · exact .inr mark
    · exact .inl (Text.isAlphanum_of_mem_hexadecimal digit)
    · exact .inr mark

/-- A mangled name has only characters of identifiers. -/
theorem isIdentifierChar_of_mem_mangle {name : String} {c : Char} (member : c ∈ (mangle name).toList) :
    isIdentifierChar c = true := by
  rw [toList_mangle] at member
  obtain ⟨_, _, inside⟩ := List.mem_flatMap.mp member
  exact isIdentifierChar_of_mem_mangleChar inside

/-- A character is mangled with no underscore or with two. -/
theorem even_count_mangleChar (c : Char) : Even ((mangleChar c).count '_') := by
  unfold mangleChar
  split
  · rename_i plain
    have absent : '_' ∉ [c] := by simpa using (ne_underscore_of_isAlphanum plain).symm
    rw [List.count_eq_zero_of_not_mem absent]
    exact Even.zero
  · rw [List.cons_append, List.count_cons_self, List.count_append,
      List.count_eq_zero_of_not_mem (underscore_notMem_hexadecimal _)]
    exact even_two

/-- Underscores come in pairs. -/
theorem even_count_mangle (name : String) : Even ((mangle name).toList.count '_') := by
  rw [toList_mangle]
  induction name.toList with
  | nil => exact Even.zero
  | cons c rest ih =>
      rw [List.flatMap_cons, List.count_append]
      exact (even_count_mangleChar c).add ih

end Mangle

section Numbered

/-- A numbered name is its stem, an underscore and the digits of the number. -/
theorem toList_numbered (stem : String) (index : Nat) :
    (numbered stem index).toList = stem.toList ++ '_' :: Nat.toDigits 10 index := by
  have written : numbered stem index = stem ++ "_" ++ toString index := rfl
  simp [written]

/-- The last underscore of a numbered name stands before its number. -/
theorem numbered_inj {first second : String} {index number : Nat}
    (same : numbered first index = numbered second number) : first = second ∧ index = number := by
  have chars := congrArg (List.reverse ∘ String.toList) same
  simp only [Function.comp_apply, toList_numbered, List.reverse_append, List.reverse_cons,
    List.append_assoc, List.singleton_append] at chars
  have free (value : Nat) : '_' ∉ (Nat.toDigits 10 value).reverse := by
    rw [List.mem_reverse]
    exact Nat.underscore_not_in_toDigits
  obtain ⟨digits, stems⟩ := append_mark_inj (free index) (free number) chars
  have values := congrArg (fun text => Nat.ofDigitChars 10 text 0) (List.reverse_inj.mp digits)
  exact ⟨String.toList_inj.mp (List.reverse_inj.mp stems), by simpa using values⟩

/-- A number adds one underscore to a mangled name, and no mangled name has an odd number of them. -/
theorem append_numbered_mangle_ne (start name other : String) (index : Nat) :
    numbered (start ++ mangle name) index ≠ start ++ mangle other := by
  intro same
  have chars := congrArg String.toList same
  rw [toList_numbered, String.toList_append, String.toList_append, List.append_assoc,
    List.append_cancel_left_eq] at chars
  have counts := congrArg (List.count '_') chars
  rw [List.count_append, List.count_cons_self,
    List.count_eq_zero_of_not_mem Nat.underscore_not_in_toDigits] at counts
  have even := even_count_mangle other
  rw [← counts] at even
  exact Nat.not_even_iff_odd.mpr (even_count_mangle name).add_one even

end Numbered

/-- The names that every compiled program has. -/
inductive Reserved where
  | run
  | main
  | arguments
  | params
  | frame
  deriving DecidableEq, Repr

/-- The identifier of a name that every program has. -/
def Reserved.text : Reserved → String
  | .run => "run"
  | .main => "main"
  | .arguments => "arguments"
  | .params => "params"
  | .frame => "frame"

/-- What an identifier of a compiled program stands for. -/
inductive Identifier where
  | global (name : String)
  | procedure (name : String)
  | definition (name : String) (index : Nat)
  | conditional (index : Nat)
  | held (name : String)
  | reserved (name : Reserved)
  deriving DecidableEq, Repr

namespace Identifier

/-- The identifier as it is written. -/
def text : Identifier → String
  | .global name => globalName name
  | .procedure name => procedureName name
  | .definition name index => definitionName name index
  | .conditional index => conditionalName index
  | .held name => localName name
  | .reserved name => name.text

end Identifier

/-- The functions that define a procedure share a namespace with its slot. -/
inductive Namespace where
  | global
  | procedure
  | conditional
  | held
  | reserved

namespace Identifier

/-- The namespace that an identifier belongs to. -/
def space : Identifier → Namespace
  | .global _ => .global
  | .procedure _ => .procedure
  | .definition _ _ => .procedure
  | .conditional _ => .conditional
  | .held _ => .held
  | .reserved _ => .reserved

end Identifier

/-- The namespace that the first characters of an identifier show. -/
def Namespace.ofChars : List Char → Namespace
  | 'g' :: _ => .global
  | 'p' :: 'r' :: _ => .procedure
  | 'i' :: _ => .conditional
  | 'a' :: 'r' :: 'g' :: '_' :: _ => .held
  | _ => .reserved

namespace Identifier

/-- The first characters of an identifier show its namespace. -/
theorem ofChars_text (identifier : Identifier) :
    Namespace.ofChars identifier.text.toList = identifier.space := by
  cases identifier with
  | global name => simp [text, globalName, Namespace.ofChars, space]
  | procedure name => simp [text, procedureName, Namespace.ofChars, space]
  | definition name index =>
      simp [text, definitionName, toList_numbered, procedureName, Namespace.ofChars, space]
  | conditional index => simp [text, conditionalName, toList_numbered, Namespace.ofChars, space]
  | held name => simp [text, localName, Namespace.ofChars, space]
  | reserved name => cases name <;> simp [text, Reserved.text, Namespace.ofChars, space]

/-- Identifiers that are written alike stand for the same thing. -/
theorem text_injective : Function.Injective text := by
  intro first second same
  have spaces : first.space = second.space := by rw [← ofChars_text, ← ofChars_text, same]
  cases first with
  | global name =>
      cases second with
      | global other => rw [append_mangle_inj same]
      | _ => cases spaces
  | procedure name =>
      cases second with
      | procedure other => rw [append_mangle_inj same]
      | definition other index =>
          exact absurd same.symm (append_numbered_mangle_ne "proc_" other name index)
      | _ => cases spaces
  | definition name index =>
      cases second with
      | procedure other => exact absurd same (append_numbered_mangle_ne "proc_" name other index)
      | definition other number =>
          obtain ⟨stems, rfl⟩ := numbered_inj same
          rw [append_mangle_inj stems]
      | _ => cases spaces
  | conditional index =>
      cases second with
      | conditional number => rw [(numbered_inj same).2]
      | _ => cases spaces
  | held name =>
      cases second with
      | held other => rw [append_mangle_inj same]
      | _ => cases spaces
  | reserved name =>
      cases second with
      | reserved other =>
          have distinct : ∀ one two : Reserved, one.text = two.text → one = two := by
            rintro ⟨⟩ ⟨⟩ <;> decide
          rw [distinct name other same]
      | _ => cases spaces

end Identifier

end Code

end SmallScheme
