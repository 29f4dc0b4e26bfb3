import Promptline.Proofs.Buffer.Views
import Promptline.Proofs.Session.Drawing
import Promptline.Proofs.Session.Invariant

set_option autoImplicit false

namespace Promptline.Session

open Keys

variable {setup : Setup} {s : Session} {action : Action} {go : History → Option History}
  {move back : Buffer → Option Buffer} {atEdge : Bool} {edge : Prop} {index : Nat}

structure WentTo (setup : Setup) (s : Session) (moved : Buffer) (s' : Session) : Prop where
  buffer : s'.editor.buffer = moved.updateScreenRow (s.context setup)
  history : s'.editor.history = s.editor.history

theorem ends_moveWith (setup : Setup) (s : Session) (move : Buffer → Buffer) :
    Ends (moveWith setup move) s (fun _ => WentTo setup s (move s.editor.buffer))
      (WentTo setup s (move s.editor.buffer)) := by
  rw [moveWith, ends_bind, ends_modifyEditor]
  exact ((ends_redraw_placed false).and (ends_redraw setup false)).mono
    (fun _ _ h => ⟨h.1, h.2.history⟩) fun _ h => ⟨h.1, h.2.history⟩

/-- A key that browses the history with the cursor `atEdge` and otherwise goes to the line `index`. -/
structure LineKey (setup : Setup) (s : Session) (action : Action) (go : History → Option History)
    (atEdge : Bool) (index : Nat) : Prop where
  browses : atEdge = true → runAction setup action s = (browse setup go *> pure none) s
  moves : atEdge = false → index ≠ s.editor.buffer.lineIndex ∧ ∃ moved,
    s.editor.buffer.MovedToLine moved index ∧ WentTo setup s moved (ending (runAction setup action) s)

/-- Not at the edge there is a line to go to. -/
theorem LineKey.of_move (hedge : atEdge = true ↔ edge) (hindex : ¬ edge → index ≠ s.editor.buffer.lineIndex)
    (hmove : s.editor.buffer.LineMove move back edge index)
    (hbrowses : atEdge = true → runAction setup action s = (browse setup go *> pure none) s)
    (hmoves : atEdge = false → runAction setup action s =
      (moveWith setup (fun b => (move b).getD b) *> pure none) s) :
    LineKey setup s action go atEdge index where
  browses := hbrowses
  moves := by
    intro hinside
    have hnot : ¬ edge := fun h => Bool.false_ne_true (hinside.symm.trans (hedge.mpr h))
    obtain ⟨moved, hmoved⟩ := Option.ne_none_iff_exists'.mp (mt hmove.fails.mp hnot)
    refine ⟨hindex hnot, moved, hmove.moves moved hmoved, ?_⟩
    have hends : Ends (moveWith setup (fun b => (move b).getD b) *> pure none) s
        (fun (_ : Option Event) => WentTo setup s moved) (WentTo setup s moved) := by
      have hwent := ends_moveWith setup s fun b => (move b).getD b
      simp only [hmoved, Option.getD_some] at hwent
      exact (ends_seqRight _ _ _).mpr hwent
    rw [ending, hmoves hinside]
    exact hends.ending

theorem up_lineKey (setup : Setup) (s : Session) :
    LineKey setup s .up History.prev? s.editor.buffer.isOnFirstLine (s.editor.buffer.lineIndex - 1) := by
  have hup : runAction setup .up s = ((if s.editor.buffer.isOnFirstLine then browse setup History.prev?
      else moveWith setup fun b => b.moveToPrevLine?.getD b) *> pure none) s := rfl
  refine .of_move s.editor.buffer.isOnFirstLine_iff (fun hnot => ?_)
    s.editor.buffer.moveToPrevLine?_lineMove (fun hfirst => ?_) fun hfirst => ?_
  · omega
  · rw [hup, if_pos hfirst]
  · rw [hup, hfirst, if_neg Bool.false_ne_true]

theorem down_lineKey (setup : Setup) (s : Session) :
    LineKey setup s .down History.next? s.editor.buffer.isOnLastLine (s.editor.buffer.lineIndex + 1) := by
  have hdown : runAction setup .down s = ((if s.editor.buffer.isOnLastLine then browse setup History.next?
      else moveWith setup fun b => b.moveToNextLine?.getD b) *> pure none) s := rfl
  have hlast : s.editor.buffer.isOnLastLine = true ↔
      s.editor.buffer.lineIndex + 1 = (Text.lines s.editor.buffer.text).length := by
    have hcount := Text.split_length '\n' s.editor.buffer.text
    rw [Buffer.isOnLastLine_iff, Text.countLines, Text.lines]
    omega
  refine .of_move hlast (fun _ => Nat.succ_ne_self _) s.editor.buffer.moveToNextLine?_lineMove
    (fun hend => ?_) fun hend => ?_
  · rw [hdown, if_pos hend]
  · rw [hdown, hend, if_neg Bool.false_ne_true]

/-- Every way to find the lines of a text and the cursor's line among them finds the same ones, and with the
cursor on any of them Up and Down move it to the line before or after, if there is one. -/
theorem line_views_agree (b : Buffer) : Text.LinesAgree b.text ∧ b.LineFound ∧
    ∀ (setup : Setup) (s : Session),
      LineKey setup (s.withBuffer b) .up History.prev? b.isOnFirstLine (b.lineIndex - 1) ∧
        LineKey setup (s.withBuffer b) .down History.next? b.isOnLastLine (b.lineIndex + 1) :=
  ⟨Text.linesAgree b.text, b.lineFound, fun setup s =>
    ⟨up_lineKey setup (s.withBuffer b), down_lineKey setup (s.withBuffer b)⟩⟩

end Promptline.Session
