import Promptline.Proofs.Buffer.Reindent
import Promptline.Proofs.Session.Drawing
import Promptline.Proofs.Session.Invariant

set_option autoImplicit false

namespace Promptline

open Indent

namespace Buffer

variable {table : Table} {unit t : Text} {b : Buffer} {ctx : Display.Context}

/-- The cursor is at the end of the text, below indented lines. A line of blanks need not be indented
as long as nothing else is typed on it. -/
structure Typed (table : Table) (unit : Text) (b : Buffer) : Prop where
  after : b.after = []
  above : Indented table unit b.linesAbove
  line : Text.isBlank b.lineBefore = true ∨ Indented table unit (Text.lines b.text)

theorem typed_of_indented (hafter : b.after = []) (h : Indented table unit (Text.lines b.text)) :
    Typed table unit b := by
  refine ⟨hafter, ?_, Or.inr h⟩
  rw [text_of_after hafter, lines_before, indented_concat] at h
  exact h.1

theorem typed_empty (h : b.text = []) : Typed table unit b := by
  obtain ⟨hbefore, hafter⟩ := List.append_eq_nil_iff.mp h
  have hline : b.lineBefore = [] := by rw [lineBefore, hbefore]; rfl
  refine ⟨hafter, ?_, Or.inl ?_⟩
  · rw [linesAbove, above, hbefore]
    exact indented_nil
  · rw [hline]
    rfl

theorem insert_lines (ht : '\n' ∉ t) :
    (b.insert t).linesAbove = b.linesAbove ∧ (b.insert t).lineBefore = b.lineBefore ++ t := by
  refine linesAbove_of_lines ?_
  have hnone : '\n' ∉ b.lineBefore ++ t := by
    intro h
    rcases List.mem_append.mp h with h | h
    · exact lineFeed_not_mem_lineBefore b h
    · exact ht h
  rw [← lines_above_append b hnone, ← List.append_assoc, above_append_lineBefore]
  rfl

theorem insert_lineFeed_lines (b : Buffer) :
    (b.insert ['\n']).linesAbove = Text.lines b.before ∧ (b.insert ['\n']).lineBefore = [] :=
  linesAbove_of_lines (Text.lines_append_lineFeed b.before [])

/-- A blank behind a line leaves it as it is for all that its indentation depends on. -/
theorem Typed.insert_blank (h : Typed table unit b) (hadvances : table.Advances) :
    Typed table unit (b.insert [' ']) := by
  have hblank : Text.isBlank [' '] = true := rfl
  obtain ⟨habove, hline⟩ := insert_lines (b := b) (t := [' ']) (by decide)
  refine ⟨h.after, by rw [habove]; exact h.above, ?_⟩
  cases hb : Text.isBlank b.lineBefore with
  | true =>
    left
    rw [hline]
    exact Text.isBlank_append_iff.mpr ⟨hb, hblank⟩
  | false =>
    right
    have hindented := h.line.resolve_left (by simp [hb])
    rw [text_of_after h.after, lines_before, indented_concat] at hindented
    rw [text_of_after (b := b.insert [' ']) h.after, lines_before, habove, hline, indented_concat]
    refine ⟨h.above, ?_⟩
    rw [Text.leadingSpace_append hb, depthBelow_congr (hadvances.finishes _) (Text.trim_append_blank hblank _)]
    exact hindented.2

/-- What is typed but a lone blank: text for the line, or a line feed behind a line with something on
it. -/
def Extends (b : Buffer) (t : Text) : Prop :=
  '\n' ∉ t ∨ t = ['\n'] ∧ Text.isBlank b.lineBefore = false

theorem Typed.insert_above (h : Typed table unit b) (ht : Extends b t) :
    Indented table unit (b.insert t).linesAbove := by
  rcases ht with ht | ⟨rfl, hb⟩
  · rw [(insert_lines ht).1]
    exact h.above
  · rw [(insert_lineFeed_lines b).1, ← text_of_after h.after]
    exact h.line.resolve_left (by simp [hb])

end Buffer

namespace Session

open Keys Buffer

structure Indents (setup : Setup) : Prop where
  quiet : ∀ n, setup.fails n = false
  blank : Text.isBlank setup.config.indentUnit = true
  noLineFeed : '\n' ∉ setup.config.indentUnit

structure Typing (setup : Setup) (s : Session) : Prop where
  listening : s.editor.isListening = true
  presses : s.editor.presses ≠ none → s.editor.buffer.text = []
  typed : s.editor.buffer.Typed Table.standard setup.config.indentUnit

def Types (s : Session) (p : KeyPress) : Prop :=
  match Action.ofPress? p with
  | some (.insert t) => '\n' ∉ t
  | some .insertNewline => Text.isBlank s.editor.buffer.currentLine = false
  | some .enter =>
    s.editor.readiness = .collecting ∧ Text.isBlank s.editor.buffer.currentLine = false
  | _ => False

/-- The sessions in which text is typed from an empty prompt on. What leaves the editor alone may
happen in between. -/
inductive TypedFrom (setup : Setup) (start : Session) : Session → Prop
  | empty : TypedFrom setup start start
  | typed {s : Session} {p : KeyPress} : TypedFrom setup start s → Types s p →
      TypedFrom setup start (step setup (.key p) s).2
  | expired {s : Session} :
      TypedFrom setup start s → TypedFrom setup start (ending (settle setup) s)
  | meanwhile {s s' : Session} :
      TypedFrom setup start s → s'.editor = s.editor → TypedFrom setup start s'

variable {setup : Setup} {s : Session} {t : Text} {p : KeyPress} {E : Session → Prop}

theorem ends_follow (hquiet : ∀ n, setup.fails n = false) {b : Buffer} {Q : Unit → Session → Prop}
    (h : ∀ s', s'.editor.buffer = b.updateScreenRow (s.context setup) →
      s'.editor.isListening = s.editor.isListening → s'.editor.presses = s.editor.presses →
      Q () s') : Ends (afterTextChange setup) (s.withBuffer b) Q E := by
  rw [afterTextChange, ends_bind, ends_modifyEditor]
  exact ends_redraw_ok hquiet false fun _ => h _ rfl rfl rfl

/-- The last line is reindented below indented lines. -/
theorem ends_reindentLine (hi : Indents setup) {b : Buffer} (hafter : b.after = [])
    (habove : Indented Table.standard setup.config.indentUnit b.linesAbove) :
    Ends (reindentLine setup >>= fun _ => afterTextChange setup) (s.withBuffer b)
      (fun _ s' => s'.editor.buffer.after = [] ∧
        Indented Table.standard setup.config.indentUnit (Text.lines s'.editor.buffer.text) ∧
        s'.editor.isListening = s.editor.isListening ∧ s'.editor.presses = s.editor.presses) E := by
  have hreindented := indented_reindentLine hafter advances_standard hi.blank hi.noLineFeed habove
    (s.context setup)
  have hend := reindentLine_of_after hafter Table.standard setup.config.indentUnit (s.context setup)
  rw [ends_bind, reindentLine, ends_modify]
  refine ends_follow (s := s) (b := (b.reindentLine Table.standard setup.config.indentUnit
    (s.context setup)).1) hi.quiet fun s' hbuffer hl hpresses => ?_
  rw [hbuffer]
  exact ⟨hend.1, hreindented, hl, hpresses⟩

theorem Typing.insertText (h : Typing setup s) (hi : Indents setup) (hp : s.editor.presses = none)
    (ht : Extends s.editor.buffer t) : Ends (insertText setup t) s
      (fun _ s' => Typing setup s' ∧ (t ≠ [' '] →
        Indented Table.standard setup.config.indentUnit (Text.lines s'.editor.buffer.text))) E := by
  rw [Session.insertText, ends_bind, ends_modifyEditor]
  split
  · refine (ends_reindentLine (s := s) (b := s.editor.buffer.insert t) hi h.typed.after
      (h.typed.insert_above ht)).mono (fun _ s' hs => ?_) fun _ h => h
    obtain ⟨hafter, hindented, hl, hpresses⟩ := hs
    refine ⟨⟨hl.trans h.listening, fun harmed => ?_, typed_of_indented hafter hindented⟩,
      fun _ => hindented⟩
    exact absurd (hpresses.trans hp) harmed
  · rename_i hblank
    rw [not_not] at hblank
    have htyped := h.typed.insert_blank advances_standard
    rw [← hblank] at htyped
    refine ends_follow (s := s) hi.quiet fun s' hbuffer hl hpresses => ?_
    refine ⟨⟨hl.trans h.listening, fun harmed => absurd (hpresses.trans hp) harmed, ?_⟩,
      fun hother => absurd hblank hother⟩
    rw [hbuffer]
    exact ⟨htyped.after, htyped.above, htyped.line⟩

theorem Typing.runSingle (h : Typing setup s) (hi : Indents setup) (hp : s.editor.presses = none)
    (key : TwiceKey) : Ends (runSingle setup key) s
      (fun _ s' => Typing setup s' ∧ s'.editor.presses = none) E := by
  cases key with
  | tab =>
    let noted : Session := { s with notices := s.notices ++ [.singlePress .tab] }
    have hreindented := ends_reindentLine (s := noted) (E := E) hi h.typed.after h.typed.above
    refine hreindented.mono (fun _ s' hs => ?_) fun _ h => h
    obtain ⟨hafter, hindented, hl, hpresses⟩ := hs
    have hnone := hpresses.trans hp
    exact ⟨⟨hl.trans h.listening, fun harmed => absurd hnone harmed,
      typed_of_indented hafter hindented⟩, hnone⟩
  | copy =>
    change Ends (copyText _) _ _ _
    rw [copyText, ends_bind, ends_get]
    split <;> exact ⟨⟨h.listening, h.presses, h.typed⟩, hp⟩

theorem Typing.settle (h : Typing setup s) (hi : Indents setup) : Ends (settle setup) s
    (fun _ s' => Typing setup s' ∧ s'.editor.presses = none) E := by
  rw [Session.settle, ends_bind, ends_get]
  cases hp : s.editor.presses with
  | none => exact ⟨h, hp⟩
  | some q =>
    have hsettled : Typing setup { s with editor := { s.editor with presses := none } } :=
      ⟨h.listening, fun harmed => absurd rfl harmed, h.typed⟩
    exact hsettled.runSingle hi rfl q.key

theorem Typing.handleKey (h : Typing setup s) (hi : Indents setup) (hp : Types s p) :
    Ends (handleKey setup p) s (fun e s' => e = none ∧ Typing setup s' ∧
      (Action.ofPress? p ≠ some (.insert [' ']) →
        Indented Table.standard setup.config.indentUnit (Text.lines s'.editor.buffer.text))) E := by
  -- A pending press is settled on an empty prompt: behind a line there is none.
  have hunpressed (hline : Text.isBlank s.editor.buffer.currentLine = false) :
      s.editor.presses = none := by
    by_contra hpresses
    obtain ⟨hbefore, hafter⟩ := List.append_eq_nil_iff.mp (h.presses hpresses)
    have hempty : s.editor.buffer.currentLine = [] := by
      rw [currentLine_of_after hafter, lineBefore, hbefore]
      rfl
    rw [hempty] at hline
    cases hline
  have hbroken (hline : Text.isBlank s.editor.buffer.currentLine = false) :
      Extends s.editor.buffer ['\n'] := by
    rw [currentLine_of_after h.typed.after] at hline
    exact Or.inr ⟨rfl, hline⟩
  have hnoted (n : Log.Notice) : Typing setup { s with notices := s.notices ++ [n] } :=
    ⟨h.listening, h.presses, h.typed⟩
  unfold Types at hp
  split at hp
  · rename_i t ha
    unfold Ends
    rw [handleKey_of_action h.listening ha]
    change Ends (Session.settle setup >>= fun _ => Session.insertText setup t *> pure none) _ _ _
    rw [ends_bind]
    refine ((hnoted _).settle hi).mono (fun _ a hs => ?_) fun _ h => h
    refine (ends_seqRight _ _ _).mpr ((hs.1.insertText hi hs.2 (Or.inl hp)).mono
      (fun _ s' hs' => ⟨rfl, hs'.1, fun hother => hs'.2 fun ht => hother ?_⟩) fun _ h => h)
    rw [ha, ht]
  · rename_i ha
    refine ends_handleKey_of_settled h.listening ha (hunpressed hp) ⟨by simp, by simp⟩ ?_
    refine (ends_seqRight _ _ _).mpr (((hnoted _).insertText hi (hunpressed hp) (hbroken hp)).mono
      (fun _ s' hs' => ⟨rfl, hs'.1, fun _ => hs'.2 (by simp)⟩) fun _ h => h)
  · rename_i ha
    obtain ⟨hcollecting, hline⟩ := hp
    have hincomplete : s.editor.readiness ≠ .ready := by simp [hcollecting]
    refine ends_handleKey_of_settled h.listening ha (hunpressed hline) ⟨by simp, by simp⟩ ?_
    change Ends (enter setup) _ _ _
    rw [enter, ends_bind, ends_get, if_neg hincomplete, ends_bind]
    exact ((hnoted _).insertText hi (hunpressed hline) (hbroken hline)).mono
      (fun _ s' hs' => ⟨rfl, hs'.1, fun _ => hs'.2 (by simp)⟩) fun _ h => h
  · exact hp.elim

theorem TypedFrom.typing {start : Session} (hi : Indents setup)
    (hl : start.editor.isListening = true) (hempty : start.editor.buffer.text = [])
    (h : TypedFrom setup start s) : Typing setup s := by
  induction h with
  | empty => exact ⟨hl, fun _ => hempty, typed_empty hempty⟩
  | @typed s p _ hp ih =>
    have hhandled : Ends (perform setup (.key p)) s _ fun _ => False := ih.handleKey hi hp
    obtain ⟨_, s', hstep, _, htyping, -⟩ := hhandled.replied
    rw [hstep]
    exact htyping
  | @expired s _ ih =>
    have hsettled : Ends (settle setup) s _ fun s' => Typing setup s' := ih.settle hi
    exact Ends.ending (hsettled.mono (fun _ _ hs => hs.1) fun _ h => h)
  | meanwhile _ he ih =>
    refine ⟨?_, ?_, ?_⟩
    · rw [he]
      exact ih.listening
    · rw [he]
      exact ih.presses
    · rw [he]
      exact ih.typed

/-- Typing at an empty prompt never fails and keeps the cursor at the end of the text. After every
key but a lone blank, reindenting the whole text would change nothing in it. -/
theorem typing_is_reindented {start : Session} (hi : Indents setup)
    (hl : start.editor.isListening = true) (hempty : start.editor.buffer.text = [])
    (h : TypedFrom setup start s) (hp : Types s p) :
    ∃ s', step setup (.key p) s = (.done, s') ∧ s'.editor.buffer.after = [] ∧
      (Action.ofPress? p ≠ some (.insert [' ']) → ∀ ctx,
        (s'.editor.buffer.reindentAll Table.standard setup.config.indentUnit ctx).text =
          s'.editor.buffer.text) := by
  have hhandled : Ends (perform setup (.key p)) s _ fun _ => False :=
    (h.typing hi hl hempty).handleKey hi hp
  obtain ⟨_, s', hstep, rfl, htyping, hindented⟩ := hhandled.replied
  exact ⟨s', hstep, htyping.typed.after, fun hother ctx => reindentAll_of_indented (hindented hother) ctx⟩

/-- The last letter of `end` takes its line back to the depth of the line before. -/
theorem end_is_reindented : ∃ start s s', create Setup.plain .standard [] [] = .ok start ∧
    TypedFrom Setup.plain start s ∧ s.editor.buffer.text = "fun\n  en".toList ∧
    step Setup.plain (.key (.ofChar 'd')) s = (.done, s') ∧
    s'.editor.buffer.text = "fun\nend".toList ∧ s'.editor.buffer.after = [] ∧
    ∀ ctx, (s'.editor.buffer.reindentAll Table.standard [' ', ' '] ctx).text =
      s'.editor.buffer.text := by
  let opened := KeyPress.ofText "fun".toList
  let broken := KeyPress.ofName .enter
  let closing := KeyPress.ofText "en".toList
  let next (p : KeyPress) (s : Session) : Session := (step Setup.plain (.key p) s).2
  have hrun : (create Setup.plain .standard [] []).toOption.any (fun start =>
      let first := next opened start
      let s := next closing (next broken first)
      start.editor.isListening && start.editor.buffer.text == [] &&
        first.editor.readiness == .collecting && !Text.isBlank first.editor.buffer.currentLine &&
        s.editor.buffer.text == "fun\n  en".toList &&
        (next (.ofChar 'd') s).editor.buffer.text == "fun\nend".toList) = true := by
    decide +kernel
  obtain ⟨start, hstart, hfacts⟩ := (Option.any_eq_true _ _).mp hrun
  simp only [Bool.and_eq_true, beq_iff_eq, Bool.not_eq_true'] at hfacts
  obtain ⟨⟨⟨⟨⟨hlistening, hempty⟩, hcollecting⟩, hline⟩, htext⟩, hlast⟩ := hfacts
  have hopened : Types start opened := by
    change '\n' ∉ "fun".toList
    decide
  have hclosing (s : Session) : Types s closing := by
    change '\n' ∉ "en".toList
    decide
  have hletter (s : Session) : Types s (.ofChar 'd') := by
    change '\n' ∉ ['d']
    decide
  have htyped := ((TypedFrom.empty.typed hopened).typed (p := broken) ⟨hcollecting, hline⟩).typed
    (hclosing _)
  have hindents : Indents Setup.plain := ⟨fun _ => rfl, by decide, by decide⟩
  obtain ⟨s', hstep, hafter, hsame⟩ :=
    typing_is_reindented hindents hlistening hempty htyped (hletter _)
  refine ⟨start, _, s', created_of_toOption hstart, htyped, htext, hstep, ?_, hafter,
    hsame (by decide)⟩
  rw [← hlast]
  exact congrArg (fun r : Reply × Session => r.2.editor.buffer.text) hstep.symm

end Session
end Promptline
