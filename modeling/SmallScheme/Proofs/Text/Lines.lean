/-
This file shows that lines without line ends of their own can be joined or indented and split again.
-/

import SmallScheme.Text.Lines

namespace SmallScheme.Text

/-- A text that stays on one line, wherever it is put. -/
def OneLine (text : String) : Prop :=
  '\n' ∉ text.toList ∧ '\r' ∉ text.toList

/-- Whether a text stays on one line can be decided. -/
instance (text : String) : Decidable (OneLine text) :=
  inferInstanceAs (Decidable (_ ∧ _))

section OneLine

/-- Two texts stay on one line together if each of them does. -/
@[simp] theorem oneLine_append {first second : String} :
    OneLine (first ++ second) ↔ OneLine first ∧ OneLine second := by
  simp only [OneLine, String.toList_append, List.mem_append, not_or]
  constructor
  · rintro ⟨⟨one, two⟩, three, four⟩
    exact ⟨⟨one, three⟩, two, four⟩
  · rintro ⟨⟨one, three⟩, two, four⟩
    exact ⟨⟨one, two⟩, three, four⟩

@[simp] theorem oneLine_empty : OneLine "" := by
  simp [OneLine]

/-- Characters of a kind that holds no line end stay on one line. -/
theorem oneLine_of_all {kind : Char → Bool} (newline : kind '\n' = false) (back : kind '\r' = false)
    {text : String} (all : ∀ c ∈ text.toList, kind c = true) : OneLine text := by
  constructor
  · intro member
    exact absurd (all _ member) (by simp [newline])
  · intro member
    exact absurd (all _ member) (by simp [back])

/-- A character of a joined text comes from the separator or from a part. -/
theorem mem_intercalate {separator : String} {parts : List String} {c : Char}
    (member : c ∈ (separator.intercalate parts).toList) :
    c ∈ separator.toList ∨ ∃ part ∈ parts, c ∈ part.toList := by
  induction parts with
  | nil => simp at member
  | cons part rest ih =>
      cases rest with
      | nil => exact .inr ⟨part, List.mem_cons_self, by simpa using member⟩
      | cons next others =>
          rw [String.intercalate_cons_cons] at member
          simp only [String.toList_append, List.mem_append] at member
          rcases member with (here | between) | later
          · exact .inr ⟨part, List.mem_cons_self, here⟩
          · exact .inl between
          · refine (ih later).imp_right fun ⟨other, listed, inside⟩ => ?_
            exact ⟨other, List.mem_cons_of_mem part listed, inside⟩

/-- Parts that stay on one line do so when they are joined. -/
theorem oneLine_intercalate {separator : String} (between : OneLine separator) {parts : List String}
    (all : ∀ part ∈ parts, OneLine part) : OneLine (separator.intercalate parts) := by
  constructor
  · intro member
    obtain mark | ⟨part, listed, inside⟩ := mem_intercalate member
    · exact between.1 mark
    · exact (all part listed).1 inside
  · intro member
    obtain mark | ⟨part, listed, inside⟩ := mem_intercalate member
    · exact between.2 mark
    · exact (all part listed).2 inside

/-- Indentation keeps a line on one line. -/
theorem oneLine_indentLine {line : String} : OneLine (indentLine line) ↔ OneLine line := by
  have blanks : OneLine "    " := by decide
  simp [indentLine, blanks]

end OneLine

section Split

/-- A character that starts no line end belongs to the line after it. -/
theorem splitLines_cons {c : Char} {rest : List Char} (newline : c ≠ '\n')
    (back : ∀ others, c = '\r' → rest ≠ '\n' :: others) :
    splitLines (c :: rest) = (c :: (splitLines rest).headD []) :: (splitLines rest).tail := by
  have split := splitLines.eq_4 c rest newline back
  cases later : splitLines rest with
  | nil =>
      rw [later] at split
      exact split
  | cons line lines =>
      rw [later] at split
      exact split

/-- A text that is not empty has a line. -/
theorem splitLines_ne_nil {text : List Char} (filled : text ≠ []) : splitLines text ≠ [] := by
  fun_cases splitLines text with
  | case1 => exact absurd rfl filled
  | _ => simp

/-- The first line ends at the first newline. -/
theorem splitLines_append {line : List Char} (newline : '\n' ∉ line) (back : '\r' ∉ line)
    (rest : List Char) : splitLines (line ++ '\n' :: rest) = line :: splitLines rest := by
  induction line with
  | nil => rw [List.nil_append, splitLines]
  | cons c others ih =>
      rw [List.mem_cons, not_or] at newline back
      rw [List.cons_append, splitLines_cons (Ne.symm newline.1) fun _ same => absurd same.symm back.1,
        ih newline.2 back.2, List.headD_cons, List.tail_cons]

/-- A text without line ends is its only line. -/
theorem splitLines_of_oneLine {line : List Char} (newline : '\n' ∉ line) (back : '\r' ∉ line)
    (filled : line ≠ []) : splitLines line = [line] := by
  induction line with
  | nil => exact absurd rfl filled
  | cons c others ih =>
      rw [List.mem_cons, not_or] at newline back
      rw [splitLines_cons (Ne.symm newline.1) fun _ same => absurd same.symm back.1]
      cases others with
      | nil => rfl
      | cons next others =>
          rw [ih newline.2 back.2 (List.cons_ne_nil next others), List.headD_cons, List.tail_cons]

/-- A character before a line changes nothing after the newline of the line. -/
theorem splitLines_cons_newline {c : Char} {others rest : List Char} (newline : c ≠ '\n')
    (back : ∀ more, c = '\r' → others ≠ '\n' :: more)
    (later : splitLines (others ++ '\n' :: rest) = splitLines (others ++ ['\n']) ++ splitLines rest) :
    splitLines (c :: others ++ '\n' :: rest) =
      splitLines (c :: others ++ ['\n']) ++ splitLines rest := by
  -- A carriage return at the very end belongs to the newline after it.
  by_cases ending : c = '\r' ∧ others = []
  · obtain ⟨rfl, rfl⟩ := ending
    simp [splitLines]
  · have apart (last : List Char) : ∀ more, c = '\r' → others ++ '\n' :: last ≠ '\n' :: more := by
      intro more returned same
      cases others with
      | nil => exact ending ⟨returned, rfl⟩
      | cons next others =>
          obtain ⟨rfl, _⟩ := List.cons.inj same
          exact back others returned rfl
    rw [List.cons_append, List.cons_append, splitLines_cons newline (apart rest),
      splitLines_cons newline (apart []), later]
    have filled : splitLines (others ++ ['\n']) ≠ [] := splitLines_ne_nil (by simp)
    obtain ⟨line, lines, split⟩ := List.exists_cons_of_ne_nil filled
    rw [split]
    rfl

/-- What follows a newline is split on its own. -/
theorem splitLines_newline (text rest : List Char) :
    splitLines (text ++ '\n' :: rest) = splitLines (text ++ ['\n']) ++ splitLines rest := by
  fun_induction splitLines text with
  | case1 => simp [splitLines]
  | case2 others ih => simp [splitLines, ih]
  | case3 others ih => simp [splitLines, ih]
  | case4 c others newline back _ ih => exact splitLines_cons_newline newline back ih
  | case5 c others newline back _ _ _ ih => exact splitLines_cons_newline newline back ih

end Split

section Join

/-- Each part is followed by its newline. -/
theorem toList_unlines (parts : List String) :
    (unlines parts).toList = parts.flatMap fun part => part.toList ++ ['\n'] := by
  simp [unlines, String.toList_join, List.flatMap_map]

/-- Parts that stay on one line are the lines of the text that they are joined to. -/
theorem splitLines_flatMap {parts : List String} (all : ∀ part ∈ parts, OneLine part) :
    splitLines (parts.flatMap fun part => part.toList ++ ['\n']) = parts.map String.toList := by
  induction parts with
  | nil => rfl
  | cons part rest ih =>
      rw [List.forall_mem_cons] at all
      rw [List.flatMap_cons, List.append_assoc, List.singleton_append,
        splitLines_append all.1.1 all.1.2, ih all.2, List.map_cons]

/-- The lines that end a text are its last ones, whatever stands before them. -/
theorem lines_unlines_append (first : List String) {rest : List String}
    (all : ∀ part ∈ rest, OneLine part) :
    lines (unlines (first ++ rest)) = lines (unlines first) ++ rest := by
  have last : (rest.map String.toList).map String.ofList = rest := by simp [Function.comp_def]
  simp only [lines, toList_unlines, List.flatMap_append]
  rcases List.eq_nil_or_concat first with rfl | ⟨front, part, rfl⟩
  · simp [splitLines, splitLines_flatMap all, Function.comp_def]
  · rw [List.concat_eq_append, List.flatMap_append, List.flatMap_singleton, ← List.append_assoc,
      List.append_assoc _ ['\n'], List.singleton_append, splitLines_newline, splitLines_flatMap all,
      List.map_append, last]

/-- The text is laid out in lines that are not empty. -/
structure Laid (text : String) (parts : List String) : Prop where
  filled : parts ≠ []
  oneLine : ∀ part ∈ parts, OneLine part
  visible : ∀ part ∈ parts, part ≠ ""
  joined : "\n".intercalate parts = text

/-- A text that stays on one line is laid out as its only line. -/
theorem laid_of_oneLine {text : String} (oneLine : OneLine text) (visible : text ≠ "") :
    Laid text [text] where
  filled := List.cons_ne_nil _ _
  oneLine := by simpa using oneLine
  visible := by simpa using visible
  joined := String.intercalate_singleton

/-- A text that is laid out has the lines that it is laid out in. -/
theorem Laid.lines_eq {text : String} {parts : List String} (laid : Laid text parts) :
    lines text = parts := by
  obtain ⟨filled, oneLine, visible, rfl⟩ := laid
  induction parts with
  | nil => exact absurd rfl filled
  | cons part rest ih =>
      rw [List.forall_mem_cons] at oneLine visible
      cases rest with
      | nil =>
          have present : part.toList ≠ [] := by simpa using visible.1
          rw [String.intercalate_singleton, lines,
            splitLines_of_oneLine oneLine.1.1 oneLine.1.2 present]
          simp
      | cons next others =>
          have later := ih (List.cons_ne_nil _ _) oneLine.2 visible.2
          rw [lines] at later
          rw [String.intercalate_cons_cons, lines, String.toList_append, String.toList_append,
            List.append_assoc]
          change (splitLines (part.toList ++
            '\n' :: ("\n".intercalate (next :: others)).toList)).map String.ofList = _
          rw [splitLines_append oneLine.1.1 oneLine.1.2, List.map_cons, later, String.ofList_toList]

/-- Indenting a text that is laid out indents each of its lines. -/
theorem Laid.indent_eq {text : String} {parts : List String} (laid : Laid text parts) :
    indent text = "\n".intercalate (parts.map indentLine) := by
  rw [indent, laid.lines_eq]

/-- Texts that are laid out can be split into all their lines before they are joined. -/
theorem intercalate_flatMap_lines {texts : List String}
    (laid : ∀ text ∈ texts, ∃ parts, Laid text parts) :
    "\n".intercalate (texts.flatMap lines) = "\n".intercalate texts := by
  induction texts with
  | nil => rfl
  | cons text rest ih =>
      rw [List.forall_mem_cons] at laid
      obtain ⟨⟨parts, here⟩, later⟩ := laid
      rw [List.flatMap_cons, here.lines_eq]
      cases rest with
      | nil => simp [here.joined]
      | cons next others =>
          have filled : (next :: others).flatMap lines ≠ [] := by
            obtain ⟨parts, there⟩ := later next List.mem_cons_self
            simp [there.lines_eq, there.filled]
          rw [String.intercalate_append_of_ne_nil here.filled filled, ih later, here.joined,
            String.intercalate_cons_cons]

end Join

section Blocks

/-- The lines from one that opens a block to the first one after it that closes the block. -/
def between (opening closing : String) (lines : List String) : List String :=
  ((lines.dropWhile (· != opening)).drop 1).takeWhile (· != closing)

/-- A block is found if neither its opening line stands before it nor its closing line inside it. -/
theorem between_eq {opening closing : String} {before block : List String}
    (first : opening ∉ before) (last : closing ∉ block) (after : List String) :
    between opening closing (before ++ opening :: (block ++ closing :: after)) = block := by
  have skipped : ∀ line ∈ before, (line != opening) = true := by
    intro line member
    exact bne_iff_ne.mpr fun same => first (same ▸ member)
  have kept : ∀ line ∈ block, (line != closing) = true := by
    intro line member
    exact bne_iff_ne.mpr fun same => last (same ▸ member)
  rw [between, List.dropWhile_append_of_pos skipped, List.dropWhile_cons_of_neg (by simp),
    List.drop_one, List.tail_cons, List.takeWhile_append_of_pos kept,
    List.takeWhile_cons_of_neg (by simp), List.append_nil]

/-- Without four blanks before each of its lines, the block is the text. -/
def Indents (block : List String) (text : String) : Prop :=
  ∃ lines, block = lines.map indentLine ∧ "\n".intercalate lines = text

end Blocks

end SmallScheme.Text
