/-
This file says where the data of a source can be respelled, because they are evaluated or quoted there,
and shows that respelling quotations in these places respells the data.
-/

import SmallScheme.Proofs.Program.Respelling
import SmallScheme.Proofs.Tree.Requoting

namespace SmallScheme

namespace SExpr

mutual

/-- The number of lexemes of a datum, without trivia. -/
def width : SExpr → Nat
  | .list _ elements => allWidth elements + 2
  | .vector _ elements => allWidth elements + 2
  | .abbreviation _ elements => allWidth elements + 1
  | .atom _ _ => 1
  | .unknown _ => 1

/-- The number of lexemes of some data. -/
def allWidth : List SExpr → Nat
  | [] => 0
  | datum :: rest => datum.width + allWidth rest

end

mutual

/-- For each lexeme of a form or an expression, whether a datum that starts with it is evaluated or
quoted. The head and the target of a definition are neither. -/
def places : SExpr → List Bool
  | .list source elements =>
      match specialForm? elements with
      | some .quote => List.replicate (width (.list source elements)) true
      | some .define =>
          match elements with
          | head :: target :: parts =>
              false :: (List.replicate (head.width + target.width) false ++ allPlaces parts ++ [false])
          | _ => List.replicate (width (.list source elements)) false
      | _ => false :: (allPlaces elements ++ [false])
  | datum => List.replicate datum.width true

/-- The places of some forms or expressions, one after the other. -/
def allPlaces : List SExpr → List Bool
  | [] => []
  | datum :: rest => datum.places ++ allPlaces rest

end

section Places

variable {source : Tree} {elements : List SExpr}

/-- The places of a combination are those of its elements, between the parentheses. -/
theorem places_list (unquoted : specialForm? elements ≠ some .quote)
    (undefined : specialForm? elements ≠ some .define) :
    (list source elements).places = false :: (allPlaces elements ++ [false]) := by
  unfold places
  split
  · contradiction
  · contradiction
  · rfl

/-- The head and the target of a definition are kept, and its parts have their own places. -/
theorem places_definition {head target : SExpr} {parts : List SExpr}
    (defines : specialForm? (head :: target :: parts) = some .define) :
    (list source (head :: target :: parts)).places =
      false :: (List.replicate (head.width + target.width) false ++ allPlaces parts ++ [false]) := by
  unfold places
  rw [defines]

/-- Some data have as many places as lexemes if each of them has. -/
theorem length_allPlaces_of_mem {data : List SExpr}
    (each : ∀ datum ∈ data, datum.places.length = datum.width) :
    (allPlaces data).length = allWidth data := by
  induction data with
  | nil => rfl
  | cons datum rest ih =>
      rw [List.forall_mem_cons] at each
      rw [allPlaces, List.length_append, each.1, ih each.2, allWidth]

/-- A datum has one place for each of its lexemes. -/
theorem length_places (datum : SExpr) : datum.places.length = datum.width := by
  induction datum using of_elements with | step datum all =>
  cases datum with
  | list source elements =>
      unfold places
      split
      · exact List.length_replicate
      · split
        · rename_i head target parts _
          have later := length_allPlaces_of_mem fun part member =>
            all part (List.mem_cons_of_mem head (List.mem_cons_of_mem target member))
          simp only [List.length_cons, List.length_append, List.length_replicate, later, width,
            allWidth, List.length_nil]
          omega
        · exact List.length_replicate
      · have inside : (allPlaces elements).length = allWidth elements := length_allPlaces_of_mem all
        simp only [List.length_cons, List.length_append, inside, width, List.length_nil]
  | _ => exact List.length_replicate

end Places

/-- A list of the name and a datum, from what it is read as. -/
theorem exists_of_named {datum : SExpr} {text : String} {quoted : Reading}
    (read : datum.reading? = some (.enclosed .list [.atom .symbol text, quoted])) :
    ∃ source inner, datum = .list source [.atom text .symbol, inner] ∧
      inner.reading? = some quoted := by
  obtain ⟨source, elements, inside, rfl⟩ := exists_of_enclosed read
  obtain ⟨head, rest, rfl, named, inside⟩ := exists_of_allReadings?_cons inside
  obtain ⟨inner, others, rfl, shown, nothing⟩ := exists_of_allReadings?_cons inside
  obtain rfl := eq_nil_of_allReadings? nothing
  obtain rfl := eq_atom_of_reading? named
  exact ⟨source, inner, rfl, shown⟩

/-- The name that spells a quotation out, from the token of its text. -/
theorem identifier?_of_ofText? {text name : String}
    (read : Token.ofText? text = some (.identifier name)) :
    (atom text .symbol).identifier? = some name := by
  simp only [identifier?, read]

end SExpr

open SExpr

mutual

/-- A respelled datum has one place for each of its lexemes. -/
theorem Requotes.length_eq {places : List Bool} {reading shown : Reading} {datum : SExpr}
    (requotes : Requotes places reading shown) (read : datum.reading? = some reading) :
    places.length = datum.width := by
  match requotes with
  | .atom _ =>
      obtain rfl := eq_atom_of_reading? read
      rfl
  | @Requotes.enclosed _ _ _ bracket _ _ each =>
      obtain ⟨_, elements, inside, rfl⟩ := exists_of_enclosed read
      cases bracket <;> simp [width, each.length_eq inside]
  | .quotation within | .spellOut _ within =>
      obtain ⟨_, inner, rfl, inside⟩ := exists_of_quotation read
      simp [width, allWidth, within.length_eq inside]
  | .abbreviate _ within =>
      obtain ⟨_, inner, rfl, inside⟩ := exists_of_named read
      simp only [List.length_cons, List.length_append, List.length_nil, within.length_eq inside,
        width, allWidth]
      omega

/-- Respelled data have one place for each of their lexemes. -/
theorem RequotesAll.length_eq {places : List Bool} {readings shown : List Reading}
    {data : List SExpr} (requotes : RequotesAll places readings shown)
    (read : allReadings? data = some readings) : places.length = allWidth data := by
  match requotes with
  | .nil =>
      obtain rfl := eq_nil_of_allReadings? read
      rfl
  | .cons first rest =>
      obtain ⟨datum, others, rfl, inside, after⟩ := exists_of_allReadings?_cons read
      rw [List.length_append, first.length_eq inside, rest.length_eq after, allWidth]

end

mutual

/-- A respelled datum is requoted, and it is kept where no place is free. -/
theorem Requotes.related {places : List Bool} {reading shown : Reading} {first second : SExpr}
    (requotes : Requotes places reading shown) (read : first.reading? = some reading)
    (readOther : second.reading? = some shown) :
    first.Requoted second ∧ (true ∉ places → first.Alike second) := by
  match requotes with
  | .atom same =>
      obtain rfl := eq_atom_of_reading? read
      obtain rfl := eq_atom_of_reading? readOther
      exact ⟨.atom same, fun _ => .atom same⟩
  | @Requotes.enclosed _ _ _ bracket _ _ each =>
      obtain ⟨_, elements, inside, rfl⟩ := exists_of_enclosed read
      obtain ⟨_, others, insideOther, rfl⟩ := exists_of_enclosed readOther
      obtain ⟨requoted, alike⟩ := each.related inside insideOther
      simp only [List.mem_cons, List.mem_append, not_or]
      cases bracket with
      | list => exact ⟨.list requoted, fun kept => .list (alike kept.2.1)⟩
      | vector => exact ⟨.vector requoted, fun kept => .vector (alike kept.2.1)⟩
  | .quotation within =>
      obtain ⟨_, inner, rfl, inside⟩ := exists_of_quotation read
      obtain ⟨_, other, rfl, insideOther⟩ := exists_of_quotation readOther
      obtain ⟨requoted, alike⟩ := within.related inside insideOther
      exact ⟨.abbreviation requoted, fun kept =>
        .abbreviation (alike (List.not_mem_of_not_mem_cons kept))⟩
  | .spellOut named within =>
      obtain ⟨_, inner, rfl, inside⟩ := exists_of_quotation read
      obtain ⟨_, other, rfl, insideOther⟩ := exists_of_named readOther
      have requoted := (within.related inside insideOther).1
      exact ⟨.spellOut (identifier?_of_ofText? named) requoted, fun kept =>
        absurd List.mem_cons_self kept⟩
  | .abbreviate named within =>
      obtain ⟨_, inner, rfl, inside⟩ := exists_of_named read
      obtain ⟨_, other, rfl, insideOther⟩ := exists_of_quotation readOther
      have requoted := (within.related inside insideOther).1
      exact ⟨.abbreviate (identifier?_of_ofText? named) requoted, fun kept =>
        absurd List.mem_cons_self kept⟩

/-- Respelled data are requoted one by one, and kept where no place is free. -/
theorem RequotesAll.related {places : List Bool} {readings shown : List Reading}
    {first second : List SExpr} (requotes : RequotesAll places readings shown)
    (read : allReadings? first = some readings) (readOther : allReadings? second = some shown) :
    List.Forall₂ Requoted first second ∧ (true ∉ places → List.Forall₂ Alike first second) := by
  match requotes with
  | .nil =>
      obtain rfl := eq_nil_of_allReadings? read
      obtain rfl := eq_nil_of_allReadings? readOther
      exact ⟨.nil, fun _ => .nil⟩
  | .cons head rest =>
      obtain ⟨datum, data, rfl, inside, after⟩ := exists_of_allReadings?_cons read
      obtain ⟨other, others, rfl, insideOther, afterOther⟩ := exists_of_allReadings?_cons readOther
      obtain ⟨requoted, alike⟩ := head.related inside insideOther
      obtain ⟨requotedRest, alikeRest⟩ := rest.related after afterOther
      rw [List.mem_append, not_or]
      exact ⟨.cons requoted requotedRest, fun kept => .cons (alike kept.1) (alikeRest kept.2)⟩

end

namespace SExpr

/-- The second datum is the first one with quotations respelled in the free places. -/
def RespelledAt (places : List Bool) (first second : SExpr) : Prop :=
  ∃ reading shown, first.reading? = some reading ∧ second.reading? = some shown ∧
    Requotes places reading shown

/-- The second data are the first ones with quotations respelled in the free places. -/
def AllRespelledAt (places : List Bool) (first second : List SExpr) : Prop :=
  ∃ readings shown, allReadings? first = some readings ∧ allReadings? second = some shown ∧
    RequotesAll places readings shown

variable {places : List Bool} {source : Tree} {elements : List SExpr}

/-- A datum without a free place is kept. -/
theorem RespelledAt.alike {first second : SExpr} (respelled : RespelledAt places first second)
    (kept : true ∉ places) : first.Alike second := by
  obtain ⟨_, _, read, readOther, requotes⟩ := respelled
  exact (requotes.related read readOther).2 kept

/-- Data without a free place are kept. -/
theorem AllRespelledAt.alike {first second : List SExpr}
    (respelled : AllRespelledAt places first second) (kept : true ∉ places) :
    List.Forall₂ Alike first second := by
  obtain ⟨_, _, read, readOther, requotes⟩ := respelled
  exact (requotes.related read readOther).2 kept

/-- The first of some data takes as many places as it has lexemes. -/
theorem AllRespelledAt.exists_of_cons {datum : SExpr} {data second : List SExpr}
    (respelled : AllRespelledAt places (datum :: data) second) :
    ∃ inside after other others, places = inside ++ after ∧ inside.length = datum.width ∧
      second = other :: others ∧ RespelledAt inside datum other ∧ AllRespelledAt after data others := by
  obtain ⟨_, _, read, readOther, requotes⟩ := respelled
  cases requotes with
  | nil => cases eq_nil_of_allReadings? read
  | cons head rest =>
      obtain ⟨_, _, same, inside, after⟩ := exists_of_allReadings?_cons read
      obtain ⟨rfl, rfl⟩ := List.cons.inj same
      obtain ⟨other, others, rfl, insideOther, afterOther⟩ := exists_of_allReadings?_cons readOther
      exact ⟨_, _, other, others, rfl, head.length_eq inside, rfl, ⟨_, _, inside, insideOther, head⟩,
        ⟨_, _, after, afterOther, rest⟩⟩

/-- A list that does not quote stays a list, and its parentheses take a place each. -/
theorem RespelledAt.exists_of_list {second : SExpr} (unquoted : specialForm? elements ≠ some .quote)
    (respelled : RespelledAt places (list source elements) second) :
    ∃ other others opened inside closed, second = list other others ∧
      places = opened :: (inside ++ [closed]) ∧ AllRespelledAt inside elements others := by
  obtain ⟨_, _, read, readOther, requotes⟩ := respelled
  cases requotes with
  | atom => cases eq_atom_of_reading? read
  | @enclosed _ _ _ bracket _ _ each =>
      obtain ⟨_, _, within, same⟩ := exists_of_enclosed read
      obtain ⟨other, others, withinOther, rfl⟩ := exists_of_enclosed readOther
      cases bracket with
      | list =>
          cases same
          exact ⟨other, others, _, _, _, rfl, rfl, _, _, within, withinOther, each⟩
      | vector => cases same
  | quotation =>
      obtain ⟨_, _, same, _⟩ := exists_of_quotation read
      cases same
  | spellOut =>
      obtain ⟨_, _, same, _⟩ := exists_of_quotation read
      cases same
  | abbreviate named =>
      obtain ⟨_, _, same, _⟩ := exists_of_named read
      cases same
      exact absurd (specialForm?_quote (identifier?_of_ofText? named) _) unquoted

/-- Data respelled in their own places are respelled one by one. -/
theorem AllRespelledAt.respelled {first second : List SExpr}
    (placed : AllRespelledAt (allPlaces first) first second)
    (each : ∀ datum ∈ first, ∀ {other}, RespelledAt datum.places datum other → datum.Respelled other) :
    List.Forall₂ Respelled first second := by
  induction first generalizing second with
  | nil =>
      obtain ⟨_, _, read, readOther, requotes⟩ := placed
      cases (requotes.related read readOther).1
      exact .nil
  | cons datum data ih =>
      rw [List.forall_mem_cons] at each
      obtain ⟨inside, after, other, others, divided, counted, rfl, head, rest⟩ := placed.exists_of_cons
      obtain ⟨rfl, rfl⟩ := List.append_inj divided ((length_places datum).trans counted.symm)
      exact .cons (each.1 head) (ih rest each.2)

/-- No place among kept ones is free. -/
theorem not_mem_replicate_false (count : Nat) : true ∉ List.replicate count false :=
  fun free => Bool.noConfusion (List.eq_of_mem_replicate free)

/-- A definition keeps its head and its target, and its parts are respelled in their own places. -/
theorem AllRespelledAt.definition {opened closed : Bool} {others : List SExpr}
    (defines : specialForm? elements = some .define)
    (divided : (list source elements).places = opened :: (places ++ [closed]))
    (placed : AllRespelledAt places elements others)
    (each : ∀ part ∈ elements, ∀ {other}, RespelledAt part.places part other → part.Respelled other) :
    List.Forall₂ Alike (elements.take 2) (others.take 2) ∧
      List.Forall₂ Respelled (elements.drop 2) (others.drop 2) := by
  match elements with
  | [] => cases defines
  | [head] =>
      unfold SExpr.places at divided
      rw [defines] at divided
      have kept : true ∉ places := fun free =>
        not_mem_replicate_false _ (divided ▸ List.mem_cons_of_mem _ (List.mem_append_left _ free))
      cases placed.alike kept with
      | cons first none =>
          cases none
          exact ⟨.cons first .nil, .nil⟩
  | head :: target :: parts =>
      rw [places_definition defines, List.cons.injEq] at divided
      obtain ⟨same, _⟩ := List.append_inj' divided.2 rfl
      obtain ⟨inside, _, first, _, rfl, counted, rfl, kept, later⟩ := placed.exists_of_cons
      obtain ⟨within, after, second, others, rfl, countedNext, rfl, keptNext, rest⟩ :=
        later.exists_of_cons
      rw [← List.append_assoc] at same
      obtain ⟨fixed, rfl⟩ := List.append_inj same (by simp [counted, countedNext])
      have unfree := fixed ▸ not_mem_replicate_false (head.width + target.width)
      rw [List.mem_append, not_or] at unfree
      refine ⟨.cons (kept.alike unfree.1) (.cons (keptNext.alike unfree.2) .nil), ?_⟩
      exact rest.respelled fun part member =>
        each part (List.mem_cons_of_mem head (List.mem_cons_of_mem target member))

/-- Respelling quotations in the places of a datum respells it. -/
theorem RespelledAt.respelled {first second : SExpr}
    (placed : RespelledAt first.places first second) : first.Respelled second := by
  induction first using of_elements generalizing second with | step first all =>
  by_cases holds : first.holdsData = true
  · obtain ⟨_, _, read, readOther, requotes⟩ := placed
    exact .datum holds (requotes.related read readOther).1
  · cases first with
    | list source elements =>
        have unquoted : specialForm? elements ≠ some .quote := fun quotes =>
          holds (beq_iff_eq.mpr quotes)
        obtain ⟨other, others, opened, inside, closed, rfl, divided, each⟩ :=
          placed.exists_of_list unquoted
        by_cases defines : specialForm? elements = some .define
        · obtain ⟨kept, parts⟩ := each.definition defines divided all
          exact .definition defines kept parts
        · rw [places_list unquoted defines, List.cons.injEq] at divided
          obtain ⟨rfl, _⟩ := List.append_inj' divided.2 rfl
          exact .list unquoted defines (each.respelled all)
    | _ => exact absurd rfl holds

end SExpr

/-- Each lexeme of a source is read on its own as it is there. -/
theorem readsAlone_of_mem {source : String} {lexeme : Lexeme} (member : lexeme ∈ solidLexemes source) :
    lexeme.ReadsAlone := by
  intro token read
  exact Lexeme.ofText?_of_mem (List.mem_of_mem_filter member) read

/-- Respelling quotations where the data of a source are evaluated or quoted respells these data. -/
theorem Parse.respelled_of_places {first second : String}
    (unreported : (ofSource first).errors = [])
    (respelled : RespellingAt (SExpr.allPlaces (ofSource first).data) (solidLexemes first)
      (solidLexemes second)) :
    List.Forall₂ SExpr.Respelled (ofSource first).data (ofSource second).data := by
  have clean := (errors_iff_of_respelling respelled.respelling).mp unreported
  obtain ⟨_, early, derives, earlyRead⟩ := derives_of_errors unreported
  obtain ⟨_, late, derivesLate, lateRead⟩ := derives_of_errors clean
  have whole := respelled
  rw [← List.append_nil (solidLexemes first)] at whole
  obtain ⟨shown, shows, requotes⟩ :=
    (derives.divides whole (fun _ => readsAlone_of_mem) fun _ => readsAlone_of_mem).whole
  obtain rfl := shows.deterministic derivesLate
  have placed : SExpr.AllRespelledAt (SExpr.allPlaces (ofSource first).data) (ofSource first).data
      (ofSource second).data := ⟨early, shown, earlyRead, lateRead, requotes⟩
  exact placed.respelled fun _ _ => SExpr.RespelledAt.respelled

end SmallScheme
