/-
This file compares two runs step by step: they give related values and related states, or one of
them stops in a way that excuses it.
-/

import Mathlib.Data.List.Forall2
import SmallScheme.Run

namespace SmallScheme

/-- The ways in which either run may stop without an answer of the other. No error stands for
running out of fuel. -/
structure Slack where
  first : Option RunError → Prop
  second : Option RunError → Prop

namespace Slack

/-- Only the first run may run out of fuel. -/
def firstFuel : Slack :=
  ⟨fun stop => stop = none, fun _ => False⟩

/-- Only the second run may run out of fuel. -/
def secondFuel : Slack :=
  ⟨fun _ => False, fun stop => stop = none⟩

/-- The first run may run out of fuel or miss a procedure. -/
def firstMissing : Slack :=
  ⟨fun stop => stop = none ∨ ∃ name, stop = some (.undefinedProcedure name), fun _ => False⟩

/-- Neither run is ever excused. -/
def strict : Slack :=
  ⟨fun _ => False, fun _ => False⟩

/-- Exchanging the runs exchanges their excuses. -/
def swap (slack : Slack) : Slack :=
  ⟨slack.second, slack.first⟩

end Slack

namespace Outcome

variable {S T A B C D : Type}

/-- The way in which a computation stops without a value. -/
def stop? : Outcome S A → Option (Option RunError)
  | .ok _ _ => none
  | .error failure _ => some (some failure)
  | .outOfFuel => some none

/-- Both runs end in the same way, with related values and linked states. -/
def Matches (same : A → B → Prop) (link : S → T → Prop) : Outcome S A → Outcome T B → Prop
  | .ok value state, .ok other after => same value other ∧ link state after
  | .error failure state, .error other after => failure = other ∧ link state after
  | .outOfFuel, .outOfFuel => True
  | _, _ => False

/-- Two outcomes match, or one of them is excused. -/
def Agrees (slack : Slack) (same : A → B → Prop) (link : S → T → Prop)
    (first : Outcome S A) (second : Outcome T B) : Prop :=
  Matches same link first second ∨ (∃ stop, first.stop? = some stop ∧ slack.first stop) ∨
    ∃ stop, second.stop? = some stop ∧ slack.second stop

variable {slack : Slack} {same : A → B → Prop} {link after : S → T → Prop}
  {first : Outcome S A} {second : Outcome T B}

/-- Without excuses, two runs that finish end with related values or with the same error. -/
theorem Agrees.cases_of_strict (agreed : Agrees .strict same link first second)
    (finishes : second ≠ .outOfFuel) :
    (∃ a s b t, first = .ok a s ∧ second = .ok b t ∧ same a b ∧ link s t) ∨
      ∃ error s t, first = .error error s ∧ second = .error error t ∧ link s t := by
  rcases agreed with matched | ⟨_, _, excused⟩ | ⟨_, _, excused⟩
  · cases first <;> cases second <;> simp_all [Matches]
  · exact excused.elim
  · exact excused.elim

/-- Weaker relations on values and states keep the agreement. -/
theorem Agrees.weaken {alike : A → B → Prop} (agreed : Agrees slack same link first second)
    (values : ∀ a b, same a b → alike a b) (states : ∀ s t, link s t → after s t) :
    Agrees slack alike after first second := by
  rcases agreed with matched | excused
  · left
    cases first <;> cases second <;> simp_all [Matches]
  · exact .inr excused

/-- What is known of the first value may be added to the relation on the values. -/
theorem Agrees.refine {alike : A → B → Prop} (agreed : Agrees slack same link first second)
    (values : ∀ a b s, first = .ok a s → same a b → alike a b)
    (states : ∀ s t, link s t → after s t) : Agrees slack alike after first second := by
  rcases agreed with matched | excused
  · left
    cases first <;> cases second <;> simp_all [Matches]
  · exact .inr excused

/-- The agreement reads the same from the other side. -/
theorem Agrees.swap (agreed : Agrees slack same link first second) :
    Agrees slack.swap (fun b a => same a b) (fun t s => link s t) second first := by
  rcases agreed with matched | excused | excused
  · left
    cases first <;> cases second <;> simp_all [Matches]
  · exact .inr (.inr excused)
  · exact .inr (.inl excused)

/-- A first outcome that is not excused is the second one too, if that one never is. -/
theorem Agrees.eq_of_unexcused {first second : Outcome S A}
    (agreed : Agrees slack (· = ·) (· = ·) first second) (never : ∀ stop, ¬ slack.second stop)
    (unexcused : ∀ stop, first.stop? = some stop → ¬ slack.first stop) : second = first := by
  rcases agreed with matched | ⟨stop, stopped, excused⟩ | ⟨stop, _, excused⟩
  · cases first <;> cases second <;> simp_all [Matches]
  · exact absurd excused (unexcused stop stopped)
  · exact absurd excused (never stop)

/-- A first outcome that did not run out of fuel is the second one too. -/
theorem Agrees.eq_of_firstFuel {first second : Outcome S A}
    (agreed : Agrees .firstFuel (· = ·) (· = ·) first second) (finished : first ≠ .outOfFuel) :
    second = first := by
  refine agreed.eq_of_unexcused (fun _ => id) ?_
  rintro _ stopped rfl
  cases first <;> simp_all [stop?]

/-- A value of the first run has a related value of the second, if that one is never excused. -/
theorem Agrees.exists_ok {value : A} {state : S} {second : Outcome T B}
    (agreed : Agrees slack same link (.ok value state) second)
    (never : ∀ stop, ¬ slack.second stop) :
    ∃ other mate, second = .ok other mate ∧ same value other ∧ link state mate := by
  rcases agreed with matched | ⟨stop, stopped, _⟩ | ⟨stop, _, excused⟩
  · cases second with
    | ok other mate => exact ⟨other, mate, rfl, matched.1, matched.2⟩
    | _ => exact matched.elim
  · exact nomatch stopped
  · exact absurd excused (never stop)

/-- An error of the first run that does not excuse it is an error of the second run too. -/
theorem Agrees.exists_error {error : RunError} {state : S} {second : Outcome T B}
    (agreed : Agrees slack same link (.error error state) second)
    (never : ∀ stop, ¬ slack.second stop) (unexcused : ¬ slack.first (some error)) :
    ∃ mate, second = .error error mate ∧ link state mate := by
  rcases agreed with matched | ⟨stop, stopped, excused⟩ | ⟨stop, _, excused⟩
  · cases second with
    | error other mate =>
        obtain ⟨rfl, linked⟩ := matched
        exact ⟨mate, rfl, linked⟩
    | _ => exact matched.elim
  · cases stopped
    exact absurd excused unexcused
  · exact absurd excused (never stop)

/-- An outcome that agrees with another takes its place, if only one side is ever excused. -/
theorem Agrees.trans_eq {early late : Outcome S A}
    (oneSided : (∀ stop, ¬ slack.first stop) ∨ ∀ stop, ¬ slack.second stop)
    (left : Agrees slack (· = ·) (· = ·) early late) (right : Agrees slack same link late second) :
    Agrees slack same link early second := by
  rcases left with matched | excused | ⟨stop, stopped, excused⟩
  · have equal : early = late := by
      cases early <;> cases late <;> simp_all [Matches]
    exact equal ▸ right
  · exact .inr (.inl excused)
  · rcases right with matched | ⟨other, _, otherExcused⟩ | otherExcused
    · have stops : second.stop? = late.stop? := by
        cases late <;> cases second <;> simp_all [Matches, stop?]
      exact .inr (.inr ⟨stop, stops.trans stopped, excused⟩)
    · rcases oneSided with never | never
      · exact absurd otherExcused (never other)
      · exact absurd excused (never stop)
    · exact .inr (.inr otherExcused)

end Outcome

namespace Run

variable {S T A B C D : Type}

/-- From linked states the two runs end with outcomes that agree. -/
def Follows (slack : Slack) (same : A → B → Prop) (before after : S → T → Prop)
    (first : Run S A) (second : Run T B) : Prop :=
  ∀ state other, before state other → Outcome.Agrees slack same after (first state) (second other)

variable {slack : Slack} {same : A → B → Prop} {alike : C → D → Prop}
  {before middle after : S → T → Prop}

/-- Runs that give related values at once agree. -/
theorem follows_pure {a : A} {b : B} (values : same a b) :
    Follows slack same before before (pure a : Run S A) (pure b : Run T B) :=
  fun _ _ linked => .inl ⟨values, linked⟩

/-- Runs that fail with one error agree. -/
theorem follows_fail (error : RunError) :
    Follows slack same before before (fail error : Run S A) (fail error : Run T B) :=
  fun _ _ linked => .inl ⟨rfl, linked⟩

/-- A first run out of fuel agrees with any run, if that excuses it. -/
theorem follows_outOfFuel_first (excused : slack.first none) (second : Run T B) :
    Follows slack same before after (outOfFuel : Run S A) second :=
  fun _ _ _ => .inr (.inl ⟨none, rfl, excused⟩)

/-- A second run out of fuel agrees with any run, if that excuses it. -/
theorem follows_outOfFuel_second (excused : slack.second none) (first : Run S A) :
    Follows slack same before after first (outOfFuel : Run T B) :=
  fun _ _ _ => .inr (.inr ⟨none, rfl, excused⟩)

/-- Weaker relations on values and ends, and stronger ones on starts, keep the agreement. -/
theorem Follows.weaken {earlier later : S → T → Prop} {first : Run S A} {second : Run T B}
    {other : A → B → Prop} (follows : Follows slack same before after first second)
    (values : ∀ a b, same a b → other a b) (starts : ∀ s t, earlier s t → before s t)
    (ends : ∀ s t, after s t → later s t) :
    Follows slack other earlier later first second :=
  fun state mate linked => (follows state mate (starts state mate linked)).weaken values ends

/-- Two runs agree from either side. -/
theorem Follows.swap {first : Run S A} {second : Run T B}
    (follows : Follows slack same before after first second) :
    Follows slack.swap (fun b a => same a b) (fun t s => before s t) (fun t s => after s t)
      second first :=
  fun other state linked => (follows state other linked).swap

/-- Two sequences agree if their first parts do, and their second parts from every pair of values
that the first parts give. An error leaves the states linked as the first parts leave them. -/
theorem follows_bind {first : Run S A} {second : Run T B} {next : A → Run S C}
    {other : B → Run T D} (heads : Follows slack same before middle first second)
    (rests : ∀ a b, same a b → Follows slack alike middle after (next a) (other b))
    (errors : ∀ s t, middle s t → after s t) :
    Follows slack alike before after (first >>= next) (second >>= other) := by
  intro state mate linked
  have agreed := heads state mate linked
  rw [bind_apply, bind_apply]
  rcases agreed with matched | ⟨stop, stopped, excused⟩ | ⟨stop, stopped, excused⟩
  · cases left : first state <;> cases right : second mate <;>
      rw [left, right] at matched <;> simp only [Outcome.Matches] at matched
    · exact rests _ _ matched.1 _ _ matched.2
    · exact .inl ⟨matched.1, errors _ _ matched.2⟩
    · exact .inl trivial
  · cases left : first state <;> rw [left] at stopped <;> simp only [Outcome.stop?] at stopped
    · contradiction
    · exact .inr (.inl ⟨stop, stopped, excused⟩)
    · exact .inr (.inl ⟨stop, stopped, excused⟩)
  · cases right : second mate <;> rw [right] at stopped <;> simp only [Outcome.stop?] at stopped
    · contradiction
    · exact .inr (.inr ⟨stop, stopped, excused⟩)
    · exact .inr (.inr ⟨stop, stopped, excused⟩)

/-- The first run may end with another value. -/
theorem Follows.map_first {first : Run S A} {second : Run T B} {other : C → B → Prop} {make : A → C}
    (follows : Follows slack same before after first second)
    (values : ∀ a b, same a b → other (make a) b) :
    Follows slack other before after (first >>= fun value => pure (make value)) second := by
  rw [← bind_pure second]
  exact follows_bind follows (fun a b alike => follows_pure (values a b alike)) fun _ _ => id

/-- Both runs make a change that keeps the states linked. -/
theorem follows_update {change : S → S} {other : T → T}
    (linked : ∀ s t, before s t → after (change s) (other t)) :
    Follows slack (fun _ _ => True) before after (update change) (update other) :=
  fun state mate link => .inl ⟨trivial, linked state mate link⟩

/-- Both runs read a part of their states, and the parts agree. -/
theorem follows_read {part : S → Except RunError A} {other : T → Except RunError B}
    (agreed : ∀ s t, before s t →
      (∃ a b, part s = .ok a ∧ other t = .ok b ∧ same a b) ∨
        ∃ error, part s = .error error ∧ other t = .error error) :
    Follows slack same before before (read part) (read other) := by
  intro state mate linked
  rcases agreed state mate linked with ⟨a, b, left, right, values⟩ | ⟨error, left, right⟩
  · rw [read, read, left, right]
    exact .inl ⟨values, linked⟩
  · rw [read, read, left, right]
    exact .inl ⟨rfl, linked⟩

/-- A change before a run and its reversal after it may link other states in between. -/
theorem follows_between (inside finished : S → T → Prop) {enter leave : S → S}
    {enterOther leaveOther : T → T} {first : Run S A} {second : Run T B}
    (entered : ∀ s t, before s t → inside (enter s) (enterOther t))
    (follows : Follows slack same inside finished first second)
    (left : ∀ s t, finished s t → after (leave s) (leaveOther t)) :
    Follows slack same before after (between enter leave first)
      (between enterOther leaveOther second) := by
  intro state mate linked
  have agreed := follows _ _ (entered state mate linked)
  unfold between
  rcases agreed with matched | ⟨stop, stopped, excused⟩ | ⟨stop, stopped, excused⟩
  · cases one : first (enter state) <;> cases two : second (enterOther mate) <;>
      rw [one, two] at matched <;> simp only [Outcome.Matches] at matched
    · exact .inl ⟨matched.1, left _ _ matched.2⟩
    · exact .inl ⟨matched.1, left _ _ matched.2⟩
    · exact .inl trivial
  · cases one : first (enter state) <;> rw [one] at stopped <;> simp only [Outcome.stop?] at stopped
    · contradiction
    · exact .inr (.inl ⟨stop, stopped, excused⟩)
    · exact .inr (.inl ⟨stop, stopped, excused⟩)
  · cases two : second (enterOther mate) <;> rw [two] at stopped <;>
      simp only [Outcome.stop?] at stopped
    · contradiction
    · exact .inr (.inr ⟨stop, stopped, excused⟩)
    · exact .inr (.inr ⟨stop, stopped, excused⟩)

/-- Runs on parts of the states keep the whole states linked. -/
theorem follows_within {U V : Type} {whole : U → V → Prop} {part : U → S} {replace : U → S → U}
    {partOther : V → T} {replaceOther : V → T → V} {first : Run S A} {second : Run T B}
    (parts : ∀ u v, whole u v → before (part u) (partOther v))
    (replaced : ∀ u v s t, whole u v → after s t → whole (replace u s) (replaceOther v t))
    (follows : Follows slack same before after first second) :
    Follows slack same whole whole (within part replace first)
      (within partOther replaceOther second) := by
  intro state mate linked
  have agreed := follows _ _ (parts state mate linked)
  unfold within
  rcases agreed with matched | ⟨stop, stopped, excused⟩ | ⟨stop, stopped, excused⟩
  · cases one : first (part state) <;> cases two : second (partOther mate) <;>
      rw [one, two] at matched <;> simp only [Outcome.Matches] at matched
    · exact .inl ⟨matched.1, replaced _ _ _ _ linked matched.2⟩
    · exact .inl ⟨matched.1, replaced _ _ _ _ linked matched.2⟩
    · exact .inl trivial
  · cases one : first (part state) <;> rw [one] at stopped <;> simp only [Outcome.stop?] at stopped
    · contradiction
    · exact .inr (.inl ⟨stop, stopped, excused⟩)
    · exact .inr (.inl ⟨stop, stopped, excused⟩)
  · cases two : second (partOther mate) <;> rw [two] at stopped <;>
      simp only [Outcome.stop?] at stopped
    · contradiction
    · exact .inr (.inr ⟨stop, stopped, excused⟩)
    · exact .inr (.inr ⟨stop, stopped, excused⟩)

/-- A run that nothing is done around counts as one between no changes. -/
theorem between_id (run : Run S A) : between id id run = run := by
  funext state
  unfold between
  cases left : run (id state) <;> exact left.symm

/-- Runs over paired items collect as many paired values. -/
theorem follows_all {E F : Type} {pairs : E → F → Prop} {first : E → Run S A}
    {second : F → Run T B} {items : List E} {others : List F}
    (paired : List.Forall₂ pairs items others)
    (each : ∀ item other, item ∈ items → pairs item other →
      Follows slack same before before (first item) (second other)) :
    Follows slack (fun values mates => List.Forall₂ same values mates ∧
      values.length = items.length) before before (all first items) (all second others) := by
  induction paired with
  | nil => exact follows_pure ⟨.nil, rfl⟩
  | cons pair _ ih =>
      have rests := ih fun item other member => each item other (List.mem_cons_of_mem _ member)
      refine follows_bind (each _ _ List.mem_cons_self pair) ?_ fun _ _ linked => linked
      intro a b values
      refine follows_bind rests ?_ fun _ _ linked => linked
      rintro as bs ⟨lists, counted⟩
      exact follows_pure ⟨.cons values lists, congrArg (· + 1) counted⟩

/-- Runs over paired items keep the states linked. -/
theorem follows_each {E F : Type} {pairs : E → F → Prop} {first : E → Run S Unit}
    {second : F → Run T Unit} {items : List E} {others : List F}
    (paired : List.Forall₂ pairs items others)
    (each : ∀ item other, item ∈ items → pairs item other →
      Follows slack (fun _ _ => True) before before (first item) (second other)) :
    Follows slack (fun _ _ => True) before before (Run.each first items)
      (Run.each second others) := by
  induction paired with
  | nil => exact follows_pure trivial
  | cons pair _ ih =>
      have rests := ih fun item other member => each item other (List.mem_cons_of_mem _ member)
      exact follows_bind (each _ _ List.mem_cons_self pair) (fun _ _ _ => rests)
        fun _ _ linked => linked

/-- Runs over the same items collect as many related values. -/
theorem follows_all_same {E : Type} {first : E → Run S A} {second : E → Run T B} {items : List E}
    (each : ∀ item ∈ items, Follows slack same before before (first item) (second item)) :
    Follows slack (fun values mates => List.Forall₂ same values mates ∧
      values.length = items.length) before before (all first items) (all second items) := by
  have paired : List.Forall₂ (· = ·) items items := List.forall₂_refl items
  apply follows_all paired
  rintro item _ member rfl
  exact each item member

/-- Runs over the same items keep the states linked. -/
theorem follows_each_same {E : Type} {first : E → Run S Unit} {second : E → Run T Unit}
    {items : List E}
    (each : ∀ item ∈ items,
      Follows slack (fun _ _ => True) before before (first item) (second item)) :
    Follows slack (fun _ _ => True) before before (Run.each first items)
      (Run.each second items) := by
  have paired : List.Forall₂ (· = ·) items items := List.forall₂_refl items
  apply follows_each paired
  rintro item _ member rfl
  exact each item member

end Run

end SmallScheme
