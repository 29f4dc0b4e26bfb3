import Promptline.Text.Basic
import Promptline.Text.Cluster.Classes

set_option autoImplicit false

namespace Promptline.Text

namespace Cluster

inductive Class
  | other | carriageReturn | lineFeed | control | extend | joiner | spacing | leading | indicator
  | lead | vowel | tail | leadVowel | leadVowelTail | pictograph | consonant
  deriving DecidableEq

def classOf (c : Char) : Class :=
  let n := c.toNat
  if n < 0x7F then
    if 0x20 ≤ n then .other
    else if n = 0xA then .lineFeed
    else if n = 0xD then .carriageReturn
    else .control
  else if n = 0x200D then .joiner
  else if 0xAC00 ≤ n && n ≤ 0xD7A3 then
    if (n - 0xAC00) % 28 = 0 then .leadVowel else .leadVowelTail
  else if 0x1F1E6 ≤ n && n ≤ 0x1F1FF then .indicator
  else if inRanges control n then .control
  else if inRanges extend n then .extend
  else if inRanges spacing n then .spacing
  else if inRanges leading n then .leading
  else if inRanges hangulLead n then .lead
  else if inRanges hangulVowel n then .vowel
  else if inRanges hangulTail n then .tail
  else if inRanges pictographs n then .pictograph
  else if inRanges consonants n then .consonant
  else .other

def isLinker (c : Char) : Bool := inRanges linkers c.toNat

/-- Marks that may stand between the consonants of a conjunct. The zero width non-joiner may not. -/
def isConjunctMark (c : Char) : Bool :=
  classOf c = .joiner || (classOf c = .extend && c != '\u200C')

def endsInConjunct (linked : Bool) : Text → Bool
  | [] => false
  | c :: earlier =>
    if isLinker c then endsInConjunct true earlier
    else if isConjunctMark c then endsInConjunct linked earlier
    else linked && classOf c = .consonant

def endsInPictograph : Text → Bool
  | [] => false
  | c :: earlier =>
    match classOf c with
    | .extend => endsInPictograph earlier
    | .pictograph => true
    | _ => false

/-- Regional indicators pair up from the left. -/
def endsInLoneIndicator : Text → Bool
  | [] => false
  | c :: earlier => classOf c = .indicator && !endsInLoneIndicator earlier

/-- Whether `c` belongs to the cluster that ends the text before it, which is given latest character
first. -/
def joins : Text → Char → Bool
  | [], _ => false
  | p :: earlier, c =>
    match classOf p, classOf c with
    | .carriageReturn, .lineFeed => true
    | .control, _ | .carriageReturn, _ | .lineFeed, _ => false
    | _, .control | _, .carriageReturn | _, .lineFeed => false
    | .lead, .lead | .lead, .vowel | .lead, .leadVowel | .lead, .leadVowelTail => true
    | .leadVowel, .vowel | .leadVowel, .tail | .vowel, .vowel | .vowel, .tail => true
    | .leadVowelTail, .tail | .tail, .tail => true
    | _, .extend | _, .joiner | _, .spacing => true
    | .leading, _ => true
    | _, .consonant => endsInConjunct false (p :: earlier)
    | .joiner, .pictograph => endsInPictograph earlier
    | .indicator, .indicator => endsInLoneIndicator (p :: earlier)
    | _, _ => false

end Cluster

/-- The clusters of a text that follows `earlier`, the text before it with the latest character
first. -/
def clustersAfter (earlier : Text) : Text → List Text
  | [] => []
  | c :: t =>
    match t, clustersAfter (c :: earlier) t with
    | next :: _, cluster :: rest =>
      if Cluster.joins (c :: earlier) next then (c :: cluster) :: rest else [c] :: cluster :: rest
    | _, rest => [c] :: rest

def clusters (t : Text) : List Text := clustersAfter [] t

def takeClusters (n : Nat) (t : Text) : Text := ((clusters t).take n).flatten

theorem clustersAfter_flatten (earlier t : Text) : (clustersAfter earlier t).flatten = t := by
  induction t generalizing earlier with
  | nil => rfl
  | cons c t ih =>
    have h := ih (c :: earlier)
    simp only [clustersAfter]
    split
    · rename_i next cluster rest hc
      rw [hc] at h
      simp only [List.flatten_cons] at h
      split <;> simp [h]
    · simp [h]

theorem clusters_flatten (t : Text) : (clusters t).flatten = t := clustersAfter_flatten [] t

theorem takeClusters_isPrefix (n : Nat) (t : Text) : takeClusters n t <+: t := by
  refine ⟨((clusters t).drop n).flatten, ?_⟩
  rw [takeClusters, ← List.flatten_append, List.take_append_drop, clusters_flatten]

end Promptline.Text
