import Promptline.Buffer.Basic

set_option autoImplicit false

namespace Promptline.Buffer

def setText (b : Buffer) (t : Text) : Buffer := { b with before := t, after := [] }

def insert (b : Buffer) (t : Text) : Buffer := { b with before := b.before ++ t }

def moveToStart (b : Buffer) : Buffer := { b with before := [], after := b.text }

def moveToEnd (b : Buffer) : Buffer := { b with before := b.text, after := [] }

def moveToLineStart (b : Buffer) : Buffer :=
  { b with before := b.above, after := b.lineBefore ++ b.after }

def moveToLineEnd (b : Buffer) : Buffer :=
  { b with before := b.before ++ b.lineAfter, after := b.below }

def splitLastCluster? (b : Buffer) : Option (Text × Text) :=
  let all := Text.clusters b.before
  all.getLast?.map fun cluster => (all.dropLast.flatten, cluster)

def splitFirstCluster? (b : Buffer) : Option (Text × Text) :=
  match Text.clusters b.after with
  | [] => none
  | cluster :: rest => some (cluster, rest.flatten)

def deleteBefore? (b : Buffer) : Option Buffer :=
  b.splitLastCluster?.map fun (kept, _) => { b with before := kept }

def deleteAfter? (b : Buffer) : Option Buffer :=
  b.splitFirstCluster?.map fun (_, kept) => { b with after := kept }

def moveLeft? (b : Buffer) : Option Buffer :=
  b.splitLastCluster?.map fun (kept, cluster) =>
    { b with before := kept, after := cluster ++ b.after }

def moveRight? (b : Buffer) : Option Buffer :=
  b.splitFirstCluster?.map fun (cluster, kept) =>
    { b with before := b.before ++ cluster, after := kept }

def column (b : Buffer) : Nat := (Text.clusters b.lineBefore).length

/-- The cursor in the text `above ++ line ++ rest`, before the cluster of `line` at `column` or at
its end. -/
def atColumn (b : Buffer) (above line rest : Text) (column : Nat) : Buffer :=
  let start := Text.takeClusters column line
  { b with before := above ++ start, after := line.drop start.length ++ rest }

def moveToPrevLine? (b : Buffer) : Option Buffer :=
  if b.above.isEmpty then none
  else
    let upper : Buffer := { b with before := b.above.dropLast, after := [] }
    some (b.atColumn upper.above upper.lineBefore ('\n' :: b.lineBefore ++ b.after) b.column)

def moveToNextLine? (b : Buffer) : Option Buffer :=
  match b.below with
  | [] => none
  | lineFeed :: rest =>
    let lower : Buffer := { b with before := [], after := rest }
    some (b.atColumn (b.before ++ b.lineAfter ++ [lineFeed]) lower.lineAfter lower.below b.column)

/-- Replaces the cursor's line. The cursor stays as many bytes from the end of the line as it was,
or goes to the start of a line that is shorter than that. -/
def replaceLine (b : Buffer) (line : Text) : Buffer :=
  let start := Text.takeBytes (Text.bytes line - Text.bytes b.lineAfter) line
  { b with before := b.above ++ start, after := line.drop start.length ++ b.below }

theorem moveToEnd_text (b : Buffer) : b.moveToEnd.text = b.text := by
  simp [moveToEnd, text]

theorem moveToLineStart_text (b : Buffer) : b.moveToLineStart.text = b.text := by
  have h := b.above_append_lineBefore
  simp only [moveToLineStart, text]
  rw [← List.append_assoc, h]

theorem moveToLineEnd_text (b : Buffer) : b.moveToLineEnd.text = b.text := by
  have h := b.lineAfter_append_below
  simp only [moveToLineEnd, text]
  rw [List.append_assoc, h]

theorem splitLastCluster?_append {b : Buffer} {kept cluster : Text}
    (h : b.splitLastCluster? = some (kept, cluster)) : kept ++ cluster = b.before := by
  obtain ⟨last, hlast, heq⟩ := Option.map_eq_some_iff.mp h
  obtain ⟨rfl, rfl⟩ := Prod.mk.inj heq
  obtain ⟨rest, hrest⟩ := List.getLast?_eq_some_iff.mp hlast
  have hflat := Text.clusters_flatten b.before
  rw [hrest] at hflat ⊢
  simpa using hflat

theorem splitFirstCluster?_append {b : Buffer} {cluster kept : Text}
    (h : b.splitFirstCluster? = some (cluster, kept)) : cluster ++ kept = b.after := by
  have hflat := Text.clusters_flatten b.after
  unfold splitFirstCluster? at h
  split at h
  · cases h
  · rename_i first rest hc
    cases h
    rwa [hc] at hflat

theorem moveLeft?_text {b moved : Buffer} (h : b.moveLeft? = some moved) :
    moved.text = b.text := by
  obtain ⟨⟨kept, cluster⟩, hs, rfl⟩ := Option.map_eq_some_iff.mp h
  simp only [text]
  rw [← splitLastCluster?_append hs, List.append_assoc]

theorem moveRight?_text {b moved : Buffer} (h : b.moveRight? = some moved) :
    moved.text = b.text := by
  obtain ⟨⟨cluster, kept⟩, hs, rfl⟩ := Option.map_eq_some_iff.mp h
  simp only [text]
  rw [← splitFirstCluster?_append hs, List.append_assoc]

theorem atColumn_text (b : Buffer) (above line rest : Text) (column : Nat) :
    (b.atColumn above line rest column).text = above ++ line ++ rest := by
  have h := List.prefix_iff_eq_append.mp (Text.takeClusters_isPrefix column line)
  simp only [atColumn, text]
  rw [List.append_assoc, ← List.append_assoc (Text.takeClusters column line), h,
    List.append_assoc]

/-- The lines above a cursor, if there are any, end in a line feed. -/
theorem above_getLast? {b : Buffer} (h : b.above ≠ []) : b.above.getLast? = some '\n' := by
  simp only [above, List.getLast?_reverse]
  cases hd : b.before.reverse.dropWhile (· != '\n') with
  | nil => simp [above, hd] at h
  | cons c t =>
    have hc := List.head?_dropWhile_not (· != '\n') b.before.reverse
    rw [hd] at hc
    simpa using hc

theorem moveToPrevLine?_text {b moved : Buffer} (h : b.moveToPrevLine? = some moved) :
    moved.text = b.text := by
  unfold moveToPrevLine? at h
  split at h
  · cases h
  · rename_i hne
    cases h
    rw [List.isEmpty_iff] at hne
    obtain ⟨rest, hrest⟩ := List.getLast?_eq_some_iff.mp (above_getLast? hne)
    have hbefore := above_append_lineBefore b
    rw [hrest] at hbefore
    rw [atColumn_text, above_append_lineBefore, hrest, text, ← hbefore]
    simp

theorem moveToNextLine?_text {b moved : Buffer} (h : b.moveToNextLine? = some moved) :
    moved.text = b.text := by
  unfold moveToNextLine? at h
  split at h
  · cases h
  · rename_i lineFeed rest hbelow
    cases h
    rw [atColumn_text, List.append_assoc, lineAfter_append_below, text,
      ← lineAfter_append_below b, hbelow]
    simp

theorem getD_text {b : Buffer} {move : Option Buffer}
    (h : ∀ moved, move = some moved → moved.text = b.text) : (move.getD b).text = b.text := by
  cases move with
  | none => rfl
  | some moved => exact h moved rfl

end Promptline.Buffer
