/-
This file divides a text into extended grapheme clusters, the characters as a reader sees them.
The clusters of a text make up the text.
-/

import SmallScheme.Text.GraphemeBreak

namespace SmallScheme.Text

/-- How far a text ends in an emoji sequence: a pictograph and its marks, and then a joiner. -/
inductive Pictograph where
  | absent
  | present
  | joined
  deriving DecidableEq, Repr

/-- How far a text ends in a conjunct: a consonant and its marks, one of which may be a linker. -/
inductive Conjunct where
  | absent
  | consonant
  | linked
  deriving DecidableEq, Repr

def Pictograph.advance : Pictograph → GraphemeBreak → Pictograph
  | _, .pictograph => .present
  | .present, .extend => .present
  | .present, .joiner => .joined
  | _, _ => .absent

def Conjunct.advance (conjunct : Conjunct) (c : Char) : Conjunct :=
  match GraphemeBreak.ofChar c with
  | .consonant => .consonant
  | .joiner => conjunct
  | .extend =>
      if isNonJoiner c then .absent
      else if isLinker c && conjunct != .absent then .linked
      else conjunct
  | _ => .absent

/-- What the end of a text says about a character that follows. -/
structure ClusterContext where
  last : GraphemeBreak
  pictograph : Pictograph
  conjunct : Conjunct
  oddRegional : Bool
  deriving DecidableEq, Repr

namespace ClusterContext

/-- The start of a text, where nothing can be joined. -/
def start : ClusterContext :=
  ⟨.control, .absent, .absent, false⟩

def advance (context : ClusterContext) (c : Char) : ClusterContext :=
  let kind := GraphemeBreak.ofChar c
  ⟨kind, context.pictograph.advance kind, context.conjunct.advance c,
    kind == .regional && !context.oddRegional⟩

/-- Whether a character of a class belongs to the cluster before it. The first rule that applies
decides. -/
def joins (context : ClusterContext) (next : GraphemeBreak) : Bool :=
  match context.last, next with
  | .carriageReturn, .lineFeed => true
  | .control, _ | .carriageReturn, _ | .lineFeed, _ => false
  | _, .control | _, .carriageReturn | _, .lineFeed => false
  | .leading, .leading | .leading, .vowel => true
  | .leading, .openSyllable | .leading, .closedSyllable => true
  | .openSyllable, .vowel | .openSyllable, .trailing | .vowel, .vowel | .vowel, .trailing => true
  | .closedSyllable, .trailing | .trailing, .trailing => true
  | _, .extend | _, .joiner | _, .spacingMark => true
  | .prepend, _ => true
  | _, .consonant => context.conjunct == .linked
  | .joiner, .pictograph => context.pictograph == .joined
  | .regional, .regional => context.oddRegional
  | _, _ => false

end ClusterContext

/-- Puts a character in front of clusters, into the first one if they join. -/
def consCluster (c : Char) (joined : Bool) : List (List Char) → List (List Char)
  | [] => [[c]]
  | cluster :: clusters =>
      if joined then (c :: cluster) :: clusters else [c] :: cluster :: clusters

def clustersFrom (context : ClusterContext) : List Char → List (List Char)
  | [] => []
  | c :: rest =>
      let after := context.advance c
      consCluster c (rest.head?.any (after.joins <| .ofChar ·)) (clustersFrom after rest)

def clusters (text : List Char) : List (List Char) :=
  clustersFrom .start text

theorem flatten_consCluster (c : Char) (joined : Bool) (clusters : List (List Char)) :
    (consCluster c joined clusters).flatten = c :: clusters.flatten := by
  cases clusters with
  | nil => rfl
  | cons cluster clusters => cases joined <;> rfl

theorem flatten_clustersFrom (context : ClusterContext) (text : List Char) :
    (clustersFrom context text).flatten = text := by
  induction text generalizing context with
  | nil => rfl
  | cons c rest inductionHypothesis =>
      rw [clustersFrom, flatten_consCluster, inductionHypothesis]

theorem flatten_clusters (text : List Char) : (clusters text).flatten = text :=
  flatten_clustersFrom .start text

end SmallScheme.Text
