/-
This file shows that two data are equal exactly if they are the same value, and draws the laws of
equality from that.
-/

import SmallScheme.Proofs.Machine.Library

namespace SmallScheme

namespace Value

mutual

/-- Comparing two values piece by piece decides whether they are one value. -/
theorem same_iff_eq (left right : Value) : left.same right = true ↔ left = right := by
  cases left with
  | list lefts =>
      cases right with
      | list rights => simp [same, allSame_iff_eq lefts rights]
      | _ => simp [same]
  | vector lefts =>
      cases right with
      | vector rights => simp [same, allSame_iff_eq lefts rights]
      | _ => simp [same]
  | quotation left =>
      cases right with
      | quotation right => simp [same, same_iff_eq left right]
      | _ => simp [same]
  | _ => cases right <;> simp [same]

/-- Comparing two lists of values piece by piece decides whether they are one list. -/
theorem allSame_iff_eq (lefts rights : List Value) : allSame lefts rights = true ↔ lefts = rights := by
  cases lefts with
  | nil => cases rights <;> simp [allSame]
  | cons left lefts =>
      cases rights with
      | nil => simp [allSame]
      | cons right rights => simp [allSame, same_iff_eq left right, allSame_iff_eq lefts rights]

end

end Value

namespace Datum

/-- Equal data are those that convert to one value. -/
theorem equal_iff_ofDatum (left right : Datum) :
    left.equal right = true ↔ Value.ofDatum left = Value.ofDatum right := by
  rw [← Value.same_ofDatum, Value.same_iff_eq]

/-- Every datum is equal to itself. -/
theorem equal_self (datum : Datum) : datum.equal datum = true := by
  rw [equal_iff_ofDatum]

/-- What `cdr` leaves of a list after so many steps. -/
def cdrs : Nat → List Datum → Except RunError (List Datum)
  | 0, elements => .ok elements
  | count + 1, elements => do cdrs count (← cdr elements)

/-- As many steps as there are elements leave the rest of the list. -/
theorem cdrs_eq_drop {count : Nat} {elements : List Datum} (enough : count ≤ elements.length) :
    cdrs count elements = .ok (elements.drop count) := by
  induction count generalizing elements with
  | zero => rfl
  | succ count ih =>
      cases elements with
      | nil => simp at enough
      | cons first rest =>
          apply ih
          simpa using enough

/-- Two data are equal exactly if they convert to one value, which a comparison of the values decides.
So equality is an equivalence, and truth survives the conversion. A list that `cdr` has shortened counts
with the elements that are left. -/
theorem equal_reflects_conversion :
    (∀ left right : Datum,
        left.equal right = (Value.ofDatum left).same (Value.ofDatum right) ∧
          (left.equal right = true ↔ Value.ofDatum left = Value.ofDatum right)) ∧
      Equivalence (fun left right : Datum => left.equal right = true) ∧
      (∀ datum : Datum, datum.isTrue = (Value.ofDatum datum).isTrue) ∧
      ∀ (count : Nat) (elements : List Datum), count ≤ elements.length →
        ∃ rest, cdrs count elements = .ok rest ∧ ∀ right : Datum, (list rest).equal right = true ↔
          Value.list ((elements.drop count).map Value.ofDatum) = Value.ofDatum right := by
  refine ⟨?_, ?_, ?_, ?_⟩
  · intro left right
    exact ⟨(Value.same_ofDatum left right).symm, equal_iff_ofDatum left right⟩
  · simp only [equal_iff_ofDatum]
    exact ⟨fun _ => rfl, fun same => same.symm, fun same more => same.trans more⟩
  · intro datum
    exact (Value.isTrue_ofDatum datum).symm
  · intro count elements enough
    refine ⟨_, cdrs_eq_drop enough, ?_⟩
    intro right
    rw [equal_iff_ofDatum, Value.ofDatum, Value.allOfDatum_eq_map]

/-- What is left of the list has a symbol where the other list has a string, and the other way round. -/
theorem shortened_list_equal :
    2 ≤ [Datum.integer 1, .void, .symbol "a", .quotation (.vector [.string "b"])].length ∧
      ∃ rest, cdrs 2 [.integer 1, .void, .symbol "a", .quotation (.vector [.string "b"])] = .ok rest ∧
        (list rest).equal (.list [.string "a", .quotation (.vector [.symbol "b"])]) = true := by
  have enough : 2 ≤ [Datum.integer 1, .void, .symbol "a", .quotation (.vector [.string "b"])].length := by
    decide
  obtain ⟨rest, left, equal⟩ := equal_reflects_conversion.2.2.2 2 _ enough
  exact ⟨enough, rest, left, (equal (.list [.string "a", .quotation (.vector [.symbol "b"])])).mpr rfl⟩

end Datum

end SmallScheme
