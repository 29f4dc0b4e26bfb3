import Mathlib.Data.List.Induction
import Promptline.Proofs.Buffer.Operations
import Promptline.Proofs.Buffer.Placement
import Promptline.Proofs.Text.Clusters

set_option autoImplicit false

namespace Promptline.Buffer

variable {b moved : Buffer} {above line rest : Text} {column : Nat} {ops : List Operation}

def OnBoundary (b : Buffer) : Prop := ∃ n, b.before = Text.takeClusters n b.text

def JoinsAtCursor (b : Buffer) : Prop := Text.Joins b.before b.after

theorem onBoundary_iff : b.OnBoundary ↔ ¬ b.JoinsAtCursor := by
  rw [JoinsAtCursor, Text.Joins, Bool.not_eq_true]
  exact Text.eq_takeClusters_iff

instance (b : Buffer) : Decidable b.OnBoundary :=
  have : Decidable b.JoinsAtCursor := inferInstanceAs (Decidable (Text.Joins _ _))
  decidable_of_iff _ onBoundary_iff.symm

def ReachesReturn (b : Buffer) (target : Option (Text × Text)) : Prop :=
  ∃ line rest, target = some (line, rest) ∧ line.getLast? = some '\r' ∧ rest ≠ [] ∧
    (Text.clusters line).length ≤ b.column

/-- The operation puts the cursor inside a cluster. Of the moves, only those to the end of a line do,
between a carriage return and its line feed. An edit does where the texts that it brings together at
the cursor join. -/
def Operation.Strands (b : Buffer) : Operation → Prop
  | .moveToLineEnd => b.currentLine.getLast? = some '\r' ∧ b.below ≠ []
  | .moveToPrevLine => b.ReachesReturn b.upperLine?
  | .moveToNextLine => b.ReachesReturn b.lowerLine?
  | .insert t => Text.Joins (b.before ++ t) b.after
  | .deleteBefore =>
    ∃ kept cluster, b.splitLastCluster? = some (kept, cluster) ∧ Text.Joins kept b.after
  | .deleteAfter =>
    ∃ cluster kept, b.splitFirstCluster? = some (cluster, kept) ∧ Text.Joins b.before kept
  | .replaceLine line =>
    let start := Text.takeBytes (Text.bytes line - Text.bytes b.lineAfter) line
    Text.Joins start (line.drop start.length ++ b.below)
  | .reindentLine table unit _ =>
    let indent := b.lineIndentation table unit
    Text.leadingSpace b.currentLine ≠ indent ∧
      Text.Joins (indent ++ Text.trimStart b.lineBefore) (b.contentAfter ++ b.below)
  | .reindentAll table unit _ =>
    let moved := b.reindentedStart table unit
    let content := Text.bytes b.lineBefore - Text.bytes (Text.leadingSpace b.currentLine)
    let indent := Text.bytes (Text.leadingSpace moved.lineAfter)
    let start := Text.takeBytes (indent + content) moved.lineAfter
    Text.Joins start (moved.after.drop start.length)
  | .reset | .setText _ | .moveLeft | .moveRight | .moveToStart | .moveToEnd | .moveToLineStart
  | .updateScreenRow _ => False

theorem Closed.not_continues (h : Closed above) (t : Text) :
    Text.continues above.reverse t = false := by
  rcases h with rfl | h
  · exact Text.nil_continues t
  · obtain ⟨rest, rfl⟩ := List.getLast?_eq_some_iff.mp h
    rw [List.reverse_append, List.reverse_singleton, List.singleton_append]
    cases t with
    | nil => rfl
    | cons c t => exact Text.Cluster.joins_after_lineFeed rest.reverse c

theorem Closed.joins_append (h : Closed above) (s t : Text) :
    Text.Joins (above ++ s) t ↔ Text.Joins s t := by
  unfold Text.Joins
  cases t with
  | nil => rfl
  | cons d t =>
    cases s with
    | nil => rw [List.append_nil, h.not_continues, List.reverse_nil, Text.nil_continues]
    | cons c s =>
      -- No rule looks back past the end of the lines above.
      have hstart : Text.Cluster.joins above.reverse c = false := h.not_continues (c :: s)
      have hjoins := Text.Cluster.joins_append hstart s.reverse d
      rw [List.reverse_append, List.reverse_cons, List.append_assoc, List.singleton_append,
        Text.continues_cons, Text.continues_cons, hjoins]

theorem Closed.getLast? (h : Closed above) (line : Text) :
    (above ++ line).getLast? = some '\r' ↔ line.getLast? = some '\r' := by
  rcases List.eq_nil_or_concat line with rfl | ⟨line, c, rfl⟩
  · rcases h with rfl | h <;> simp [*]
  · simp

/-- At the end of a line only a line feed can join, and only a carriage return. -/
theorem continues_of_opened (hrest : Opened rest) (t : Text) :
    Text.continues t.reverse rest = true ↔ t.getLast? = some '\r' ∧ rest ≠ [] := by
  cases rest with
  | nil => simp [Text.continues_nil]
  | cons c rest =>
    obtain rfl : c = '\n' := by simpa [Opened] using hrest
    rw [Text.continues_cons, Text.Cluster.joins_lineFeed, List.head?_reverse]
    simp

theorem atColumn_joinsAtCursor (habove : Closed above) (hrest : Opened rest) :
    (b.atColumn above line rest column).JoinsAtCursor ↔
      line.getLast? = some '\r' ∧ rest ≠ [] ∧ (Text.clusters line).length ≤ column := by
  have hline := Text.takeClusters_append column line
  have hdrop : line.drop (Text.takeClusters column line).length =
      ((Text.clusters line).drop column).flatten := by
    rw [← List.append_cancel_left_eq, hline, List.prefix_iff_eq_append.mp]
    exact Text.takeClusters_isPrefix column line
  change Text.continues (above ++ Text.takeClusters column line).reverse
    (line.drop (Text.takeClusters column line).length ++ rest) = true ↔ _
  rw [hdrop]
  by_cases hlength : (Text.clusters line).length ≤ column
  · rw [List.drop_of_length_le hlength, List.flatten_nil, List.append_nil] at hline
    rw [hline, List.drop_of_length_le hlength, List.flatten_nil, List.nil_append,
      continues_of_opened hrest, habove.getLast?]
    simp [hlength]
  · have hsplit := (List.take_append_drop column (Text.clusters line)).symm
    have hmore : ((Text.clusters line).drop column).flatten ≠ [] :=
      Text.flatten_clusters_ne_nil hsplit (mt List.drop_eq_nil_iff.mp hlength)
    have hbreak := Text.not_continues_of_clusters (habove.not_continues line) hsplit
    rw [Text.continues_append hmore, List.reverse_append]
    exact iff_of_false (Bool.eq_false_iff.mp hbreak) fun h => hlength h.2.2

theorem empty_onBoundary : empty.OnBoundary := ⟨0, rfl⟩

theorem onBoundary_of_before (h : b.before = []) : b.OnBoundary := by
  rw [onBoundary_iff, JoinsAtCursor, Text.Joins, h, List.reverse_nil, Text.nil_continues]
  exact Bool.false_ne_true

theorem onBoundary_of_after (h : b.after = []) : b.OnBoundary := by
  rw [onBoundary_iff, JoinsAtCursor, Text.Joins, h, Text.continues_nil]
  exact Bool.false_ne_true

theorem moveToLineStart_onBoundary (b : Buffer) : b.moveToLineStart.OnBoundary :=
  onBoundary_iff.mpr (Bool.eq_false_iff.mp (b.closed_above.not_continues _))

theorem moveToLineEnd_joinsAtCursor (b : Buffer) :
    b.moveToLineEnd.JoinsAtCursor ↔ b.currentLine.getLast? = some '\r' ∧ b.below ≠ [] := by
  have hbefore : b.before ++ b.lineAfter = b.above ++ b.currentLine := by
    rw [currentLine, ← List.append_assoc, above_append_lineBefore]
  rw [← b.closed_above.getLast? b.currentLine, ← hbefore]
  exact continues_of_opened b.opened_below _

theorem moveLeft?_onBoundary (h : b.moveLeft? = some moved) : moved.OnBoundary := by
  obtain ⟨⟨kept, cluster⟩, hs, rfl⟩ := Option.map_eq_some_iff.mp h
  obtain ⟨last, hlast, heq⟩ := Option.map_eq_some_iff.mp hs
  obtain ⟨rfl, rfl⟩ := Prod.mk.inj heq
  obtain ⟨done, hsplit⟩ := List.getLast?_eq_some_iff.mp hlast
  have hne := Text.flatten_clusters_ne_nil hsplit (List.cons_ne_nil _ _)
  have hbreak := Text.not_continues_of_clusters (Text.nil_continues b.before) hsplit
  rw [List.flatten_singleton] at hne hbreak
  rw [List.append_nil, ← Text.continues_append hne _ b.after] at hbreak
  rw [onBoundary_iff, JoinsAtCursor, Text.Joins]
  simpa [hsplit] using hbreak

theorem moveRight?_onBoundary (hb : b.OnBoundary) (h : b.moveRight? = some moved) :
    moved.OnBoundary := by
  obtain ⟨⟨cluster, kept⟩, hs, rfl⟩ := Option.map_eq_some_iff.mp h
  unfold splitFirstCluster? at hs
  split at hs
  · cases hs
  · rename_i rest hsplit
    cases hs
    have hclear := Bool.eq_false_iff.mpr (onBoundary_iff.mp hb)
    have hbreak := Text.not_continues_of_clusters hclear (hsplit.trans List.singleton_append.symm)
    rw [onBoundary_iff, JoinsAtCursor, Text.Joins]
    simpa using hbreak

theorem getD_onBoundary {move : Option Buffer} (hb : b.OnBoundary)
    (h : ∀ moved, move = some moved → moved.OnBoundary) : (move.getD b).OnBoundary := by
  cases move with
  | none => exact hb
  | some moved => exact h moved rfl

theorem getD_map_onBoundary_iff {parts : Option (Text × Text)} {edit : Text × Text → Buffer}
    (hb : b.OnBoundary) : ((parts.map edit).getD b).OnBoundary ↔
      ¬ ∃ s t, parts = some (s, t) ∧ (edit (s, t)).JoinsAtCursor := by
  rcases parts with - | ⟨s, t⟩
  · exact iff_of_true hb nofun
  · simp [onBoundary_iff]

theorem reindentLine_joinsAtCursor (hb : b.OnBoundary) (table : Indent.Table) (unit : Text)
    (ctx : Display.Context) :
    (b.reindentLine table unit ctx).1.JoinsAtCursor ↔
      (Operation.reindentLine table unit ctx).Strands b := by
  unfold reindentLine Operation.Strands
  dsimp only
  split
  · rename_i hsame
    exact iff_of_false (onBoundary_iff.mp hb) fun h => h.1 hsame
  · rename_i hchanged
    rw [and_iff_right hchanged, ← b.closed_above.joins_append, ← List.append_assoc]
    rfl

theorem map_atColumn_onBoundary_iff {target : Option (Text × Text)} (hb : b.OnBoundary)
    (habove : Closed above) (hrest : ∀ line rest, target = some (line, rest) → Opened rest) :
    ((target.map fun (line, rest) => b.atColumn above line rest b.column).getD b).OnBoundary ↔
      ¬ b.ReachesReturn target := by
  cases target with
  | none => exact iff_of_true hb nofun
  | some target =>
    rw [Option.map_some, Option.getD_some, onBoundary_iff,
      atColumn_joinsAtCursor habove (hrest target.1 target.2 rfl)]
    refine not_congr ⟨fun h => ⟨target.1, target.2, rfl, h⟩, ?_⟩
    rintro ⟨line, rest, heq, h⟩
    cases heq
    exact h

theorem apply_onBoundary_iff (hb : b.OnBoundary) (op : Operation) :
    (b.apply op).OnBoundary ↔ ¬ op.Strands b := by
  cases op with
  | reset => exact iff_of_true empty_onBoundary not_false
  | setText t => exact iff_of_true (onBoundary_of_after rfl) not_false
  | moveToStart => exact iff_of_true (onBoundary_of_before rfl) not_false
  | moveToEnd => exact iff_of_true (onBoundary_of_after rfl) not_false
  | moveToLineStart => exact iff_of_true b.moveToLineStart_onBoundary not_false
  | moveLeft =>
    exact iff_of_true (getD_onBoundary hb fun _ => moveLeft?_onBoundary) not_false
  | moveRight =>
    exact iff_of_true (getD_onBoundary hb fun _ => moveRight?_onBoundary hb) not_false
  | moveToLineEnd => exact onBoundary_iff.trans (not_congr b.moveToLineEnd_joinsAtCursor)
  | moveToPrevLine =>
    rw [apply, moveToPrevLine?_eq]
    exact map_atColumn_onBoundary_iff hb (closed_above _) fun _ _ => opened_of_upperLine?
  | moveToNextLine =>
    have hclosed : Closed (b.before ++ b.lineAfter ++ ['\n']) := Or.inr (by simp)
    rw [apply, moveToNextLine?_eq]
    exact map_atColumn_onBoundary_iff hb hclosed fun _ _ => opened_of_lowerLine?
  | updateScreenRow ctx => exact iff_of_true hb not_false
  | deleteBefore | deleteAfter => exact getD_map_onBoundary_iff hb
  | insert t => exact onBoundary_iff
  | replaceLine line => exact onBoundary_iff.trans (not_congr (b.closed_above.joins_append _ _))
  | reindentLine table unit ctx =>
    exact onBoundary_iff.trans (not_congr (reindentLine_joinsAtCursor hb table unit ctx))
  | reindentAll table unit ctx =>
    have hclosed := (reindentedStart_before b table unit).2
    exact onBoundary_iff.trans (not_congr (hclosed.joins_append _ _))

/-- The cursor stands between clusters after every operation, as long as no operation strands it. -/
theorem run_onBoundary_iff (ops : List Operation) :
    (∀ done, done <+: ops → (run done).OnBoundary) ↔
      ∀ done op, done ++ [op] <+: ops → ¬ op.Strands (run done) := by
  constructor
  · intro h done op hprefix
    have hnext := h _ hprefix
    have hdone := h done ((List.prefix_append done [op]).trans hprefix)
    rw [run_concat] at hnext
    exact (apply_onBoundary_iff hdone op).mp hnext
  · intro h done
    induction done using List.reverseRecOn with
    | nil => exact fun _ => empty_onBoundary
    | append_singleton earlier op ih =>
      intro hprefix
      have hb := ih ((List.prefix_append earlier [op]).trans hprefix)
      rw [run_concat]
      exact (apply_onBoundary_iff hb op).mpr (h earlier op hprefix)

/-- An `e` typed before an accent takes the accent to itself. -/
theorem typed_before_accent :
    ¬ (run [.insert ['\u0301'], .moveToStart, .insert ['e']]).OnBoundary := by
  decide +kernel

def Operation.input : Operation → Text
  | .setText t | .insert t | .replaceLine t | .reindentLine _ t _ | .reindentAll _ t _ => t
  | _ => []

theorem getD_subset {move : Option Buffer} {t : Text} (hb : b.text ⊆ t)
    (h : ∀ moved, move = some moved → moved.text ⊆ t) : (move.getD b).text ⊆ t := by
  cases move with
  | none => exact hb
  | some moved => exact h moved rfl

theorem apply_subset (b : Buffer) (op : Operation) :
    (b.apply op).text ⊆ '\n' :: (b.text ++ op.input) := by
  have hkept : b.text ⊆ '\n' :: (b.text ++ op.input) :=
    List.subset_cons_of_subset _ (List.subset_append_left _ _)
  cases op with
  | reset => exact List.nil_subset _
  | setText t =>
    rw [apply, setText, text, List.append_nil]
    exact List.subset_cons_of_subset _ (List.subset_append_right _ _)
  | insert t => exact List.subset_cons_of_subset _ (b.insert_subset t)
  | deleteBefore => exact getD_subset hkept fun _ h => List.Subset.trans (deleteBefore?_subset h) hkept
  | deleteAfter => exact getD_subset hkept fun _ h => List.Subset.trans (deleteAfter?_subset h) hkept
  | moveLeft => exact getD_subset hkept fun _ h => (moveLeft?_text h).symm ▸ hkept
  | moveRight => exact getD_subset hkept fun _ h => (moveRight?_text h).symm ▸ hkept
  | moveToStart => exact hkept
  | moveToEnd => exact b.moveToEnd_text.symm ▸ hkept
  | moveToLineStart => exact b.moveToLineStart_text.symm ▸ hkept
  | moveToLineEnd => exact b.moveToLineEnd_text.symm ▸ hkept
  | moveToPrevLine => exact getD_subset hkept fun _ h => (moveToPrevLine?_text h).symm ▸ hkept
  | moveToNextLine => exact getD_subset hkept fun _ h => (moveToNextLine?_text h).symm ▸ hkept
  | replaceLine line => exact List.subset_cons_of_subset _ (b.replaceLine_subset line)
  | reindentLine table unit ctx =>
    exact List.subset_cons_of_subset _ (b.reindentLine_subset table unit ctx)
  | reindentAll table unit ctx => exact b.reindentAll_subset table unit ctx
  | updateScreenRow ctx => exact hkept

theorem onBoundary_of_solitary (h : ∀ c ∈ b.text, Text.Cluster.Solitary c) : b.OnBoundary := by
  rw [onBoundary_iff, JoinsAtCursor, Text.Joins, Bool.not_eq_true]
  cases hafter : b.after with
  | nil => rfl
  | cons c rest =>
    rw [Text.continues_cons]
    cases hbefore : b.before.reverse with
    | nil => rfl
    | cons d earlier =>
      have hd : d ∈ b.before := by
        rw [← List.mem_reverse, hbefore]
        exact List.mem_cons_self
      have hc : c ∈ b.after := by
        rw [hafter]
        exact List.mem_cons_self
      exact (h d (List.mem_append_left _ hd)).not_joins (h c (List.mem_append_right _ hc)) earlier

/-- While only solitary characters come in, the cursor is always between clusters. -/
theorem run_onBoundary_of_solitary (h : ∀ op ∈ ops, ∀ c ∈ op.input, Text.Cluster.Solitary c) :
    (run ops).OnBoundary := by
  refine onBoundary_of_solitary ?_
  induction ops using List.reverseRecOn with
  | nil => exact List.forall_mem_nil _
  | append_singleton earlier op ih =>
    rw [List.forall_mem_append] at h
    intro c hc
    rw [run_concat] at hc
    rcases List.mem_cons.mp (apply_subset _ op hc) with rfl | hc
    · exact Or.inr (Or.inr (by decide))
    · rcases List.mem_append.mp hc with hc | hc
      · exact ih h.1 c hc
      · exact h.2 op (List.mem_singleton_self op) c hc

theorem run_onBoundary_of_ascii (h : ∀ op ∈ ops, ∀ c ∈ op.input, c.toNat < 0x80 ∧ c ≠ '\r') :
    (run ops).OnBoundary := by
  refine run_onBoundary_of_solitary fun op hop c hc => ?_
  obtain ⟨hascii, hreturn⟩ := h op hop c hc
  exact Text.Cluster.solitary_of_ascii hascii hreturn

end Promptline.Buffer
