import Promptline.Proofs.Display.Shown
import Promptline.Proofs.Terminal.Screen
import Promptline.Terminal.Sequence

set_option autoImplicit false

namespace Promptline.Terminal

open Display

inductive Reading
  | text
  | escape
  /-- The numbers that a semicolon has ended, and what has been read of the next one. -/
  | numbers (ended : List Nat) (next : Nat)
  deriving DecidableEq

namespace Screen

def obey (width : Nat) (s : Screen) (numbers : List Nat) (final : Char) : Screen :=
  let first := max (numbers.getD 0 0) 1
  let second := max (numbers.getD 1 0) 1
  match final with
  | 'A' => { s with row := s.row - first, column := s.cursorColumn width }
  | 'B' => { s with row := s.row + first, column := s.cursorColumn width }
  | 'C' => { s with column := min (s.cursorColumn width + first) (width - 1) }
  | 'D' => { s with column := s.cursorColumn width - first }
  | 'G' => { s with column := min (first - 1) (width - 1) }
  | 'H' => { s with row := first - 1, column := min (second - 1) (width - 1) }
  | 'J' => if numbers.getD 0 0 = 0 then s.exec width .clearToEnd else s
  | _ => s

def showChar (width : Nat) (s : Screen) (c : Char) : Screen :=
  if c = '\r' then { s with column := 0 }
  else if c = '\n' then { s with row := s.row + 1, column := s.cursorColumn width }
  else if isControl c then s
  else s.put width c

end Screen

structure Raw where
  screen : Screen
  reading : Reading

namespace Raw

def read (width : Nat) (r : Raw) (c : Char) : Raw :=
  match r.reading with
  | .text =>
    if c = '\x1b' then { r with reading := .escape }
    else { r with screen := r.screen.showChar width c }
  | .escape => { r with reading := if c = '[' then .numbers [] 0 else .text }
  | .numbers ended next =>
    if c.isDigit then { r with reading := .numbers ended (10 * next + (c.toNat - '0'.toNat)) }
    else if c = ';' then { r with reading := .numbers (ended ++ [next]) 0 }
    else ⟨r.screen.obey width (ended ++ [next]) c, .text⟩

def readAll (width : Nat) (r : Raw) (t : Text) : Raw := t.foldl (read width) r

/-- `none` if the bytes are not UTF-8. -/
def receive? (width : Nat) (r : Raw) (bytes : ByteArray) : Option Raw :=
  bytes.utf8Decode?.map fun t => r.readAll width t.toList

end Raw

def emitted (calls : List Call) : ByteArray := (String.ofList (calls.flatMap Call.sequence)).toUTF8

/-- Coordinates and distances that the sequences can hold, and text that shows as it is. -/
def Call.Admissible : Call → Prop
  | .cursorTo column row => column < 65535 ∧ row.getD 0 < 65535
  | .moveCursor columns rows => columns.natAbs < 65535 ∧ rows.natAbs < 65535
  | .write t => Clean t
  | .clearToEnd | .flush => True

instance : (call : Call) → Decidable call.Admissible
  | .cursorTo _ _ | .moveCursor _ _ => inferInstanceAs (Decidable (_ ∧ _))
  | .write t => inferInstanceAs (Decidable (Clean t))
  | .clearToEnd | .flush => isTrue trivial

namespace Screen

/-- What a call asks for. A move by nothing does not move, and a wrap that is pending stays so. -/
def perform (width : Nat) (s : Screen) (call : Call) : Screen :=
  if call = .moveCursor 0 0 then s else s.exec width call

variable {width : Nat} {s : Screen} {call : Call} {calls : List Call} {t : Text}

theorem perform_of_ne (h : call ≠ .moveCursor 0 0) : s.perform width call = s.exec width call := if_neg h

/-- Only a wrap that is pending tells the two apart. -/
theorem perform_eq_exec (h : s.column < width) (call : Call) :
    s.perform width call = s.exec width call := by
  by_cases hcall : call = .moveCursor 0 0
  · subst hcall
    have hcolumn : min s.column (width - 1) = s.column := by omega
    simp [perform, exec, cursorColumn, hcolumn]
  · exact perform_of_ne hcall

def moveColumns (width : Nat) (s : Screen) (delta : Int) : Screen :=
  if delta = 0 then s
  else { s with column := min (s.cursorColumn width + delta).toNat (width - 1) }

def moveRows (width : Nat) (s : Screen) (delta : Int) : Screen :=
  if delta = 0 then s else { s with row := (s.row + delta).toNat, column := s.cursorColumn width }

theorem cursorColumn_le (width : Nat) (s : Screen) : s.cursorColumn width ≤ width - 1 :=
  Nat.min_le_right _ _

theorem perform_moveCursor (width : Nat) (s : Screen) (columns rows : Int) :
    s.perform width (.moveCursor columns rows) = (s.moveColumns width columns).moveRows width rows := by
  have hcursor := s.cursorColumn_le width
  by_cases hcolumns : columns = 0
  · by_cases hrows : rows = 0
    · simp [perform, moveColumns, moveRows, hcolumns, hrows]
    · rw [perform_of_ne (by simp [hrows]), moveColumns, if_pos hcolumns, moveRows, if_neg hrows, exec,
        hcolumns, Int.add_zero, Int.toNat_natCast, Nat.min_eq_left hcursor]
  · rw [perform_of_ne (by simp [hcolumns]), moveColumns, if_neg hcolumns, moveRows]
    by_cases hrows : rows = 0
    · rw [if_pos hrows, exec, hrows, Int.add_zero, Int.toNat_natCast]
    · rw [if_neg hrows, exec, cursorColumn, cursorColumn, Nat.min_assoc, Nat.min_self]

theorem put_mode (width : Nat) (s : Screen) (c : Char) : (s.put width c).mode = s.mode := by
  unfold Screen.put
  split
  · rfl
  · split <;> rfl

theorem foldl_put_mode (width : Nat) (s : Screen) (t : Text) :
    (t.foldl (put width) s).mode = s.mode := by
  induction t generalizing s with
  | nil => rfl
  | cons c rest ih => exact (ih _).trans (put_mode width s c)

theorem write_clean (hs : s.mode = .ground) (h : Clean t) : s.write width t = t.foldl (put width) s := by
  have hmode := (foldl_put_mode width s t).trans hs
  rw [write, hs, run_clean h, ← hmode]

theorem exec_mode (hs : s.mode = .ground) (h : call.Admissible) :
    (s.exec width call).mode = .ground := by
  cases call with
  | write t => rw [exec, write_clean hs h, foldl_put_mode, hs]
  | _ => exact hs

theorem perform_mode (hs : s.mode = .ground) (h : call.Admissible) :
    (s.perform width call).mode = .ground := by
  unfold perform
  split
  · exact hs
  · exact exec_mode hs h

end Screen

namespace Raw

variable {width : Nat} {s : Screen} {c : Char} {t u : Text} {n : Nat} {call : Call} {calls : List Call}

theorem readAll_append (r : Raw) (t u : Text) :
    r.readAll width (t ++ u) = (r.readAll width t).readAll width u := List.foldl_append

abbrev IsFinal (c : Char) : Prop := c.isDigit = false ∧ c ≠ ';'

theorem read_final (hc : IsFinal c) (ended : List Nat) (next : Nat) :
    (Raw.mk s (.numbers ended next)).read width c = ⟨s.obey width (ended ++ [next]) c, .text⟩ := by
  simp [read, hc.1, hc.2]

theorem readAll_digits (h : ∀ c ∈ t, c.isDigit = true) (ended : List Nat) (next : Nat) :
    (Raw.mk s (.numbers ended next)).readAll width t =
      ⟨s, .numbers ended (Nat.ofDigitChars 10 t next)⟩ := by
  induction t generalizing next with
  | nil => rfl
  | cons c t ih =>
    have hstep : (Raw.mk s (.numbers ended next)).read width c =
        ⟨s, .numbers ended (10 * next + (c.toNat - '0'.toNat))⟩ := by
      simp [read, h c List.mem_cons_self]
    rw [readAll, List.foldl_cons, hstep, Nat.ofDigitChars_cons]
    exact ih (fun d hd => h d (List.mem_cons_of_mem _ hd)) _

/-- The digits of a number are read as the number. -/
theorem readAll_decimal (ended : List Nat) (n : Nat) :
    (Raw.mk s (.numbers ended 0)).readAll width (decimal n) = ⟨s, .numbers ended n⟩ := by
  have hdigits : ∀ c ∈ decimal n, c.isDigit = true := fun c hc =>
    Nat.isDigit_of_mem_toDigits (by decide) (by decide) hc
  rw [readAll_digits hdigits, decimal, Nat.ofDigitChars_ten_toDigits]

theorem readAll_introducer (t : Text) : (Raw.mk s .text).readAll width ('\x1b' :: '[' :: t) =
    (Raw.mk s (.numbers [] 0)).readAll width t := rfl

theorem readAll_control (hc : IsFinal c) (n : Nat) :
    (Raw.mk s .text).readAll width (control n c) = ⟨s.obey width [n] c, .text⟩ := by
  rw [control, readAll_introducer, readAll_append, readAll_decimal]
  exact read_final hc [] n

theorem readAll_position (hc : IsFinal c) (n m : Nat) :
    (Raw.mk s .text).readAll width ('\x1b' :: '[' :: (decimal n ++ ';' :: (decimal m ++ [c]))) =
      ⟨s.obey width [n, m] c, .text⟩ := by
  have hseparator : (Raw.mk s (.numbers [] n)).read width ';' = ⟨s, .numbers [n] 0⟩ := rfl
  rw [readAll_introducer, readAll_append, readAll_decimal, readAll, List.foldl_cons, hseparator]
  change (Raw.mk s (.numbers [n] 0)).readAll width (decimal m ++ [c]) = _
  rw [readAll_append, readAll_decimal]
  exact read_final hc [n] m

theorem limit_of_lt (h : n < 65535) : limit n = n := Nat.min_eq_left (Nat.le_of_lt h)

theorem readAll_columns {delta : Int} (h : delta.natAbs < 65535) :
    (Raw.mk s .text).readAll width (relative delta 'D' 'C') = ⟨s.moveColumns width delta, .text⟩ := by
  have hcursor := s.cursorColumn_le width
  rw [relative, limit_of_lt h, Screen.moveColumns]
  split
  · have hcolumn : s.cursorColumn width - max delta.natAbs 1 =
        min (s.cursorColumn width + delta).toNat (width - 1) := by omega
    rw [readAll_control (by decide), if_neg (by omega), ← hcolumn]
    rfl
  · split
    · have hcolumn : min (s.cursorColumn width + max delta.natAbs 1) (width - 1) =
          min (s.cursorColumn width + delta).toNat (width - 1) := by omega
      rw [readAll_control (by decide), if_neg (by omega), ← hcolumn]
      rfl
    · rw [if_pos (by omega)]
      rfl

theorem readAll_rows {delta : Int} (h : delta.natAbs < 65535) :
    (Raw.mk s .text).readAll width (relative delta 'A' 'B') = ⟨s.moveRows width delta, .text⟩ := by
  rw [relative, limit_of_lt h, Screen.moveRows]
  split
  · have hrow : s.row - max delta.natAbs 1 = (s.row + delta).toNat := by omega
    rw [readAll_control (by decide), if_neg (by omega), ← hrow]
    rfl
  · split
    · have hrow : s.row + max delta.natAbs 1 = (s.row + delta).toNat := by omega
      rw [readAll_control (by decide), if_neg (by omega), ← hrow]
      rfl
    · rw [if_pos (by omega)]
      rfl

theorem readAll_visible (h : isControl c = false) :
    (Raw.mk s .text).readAll width [c] = ⟨s.put width c, .text⟩ := by
  have hne {d : Char} (hd : isControl d = true) : c ≠ d := by
    rintro rfl
    rw [hd] at h
    cases h
  have hescape : c ≠ '\x1b' := hne (by decide)
  have hreturn : c ≠ '\r' := hne (by decide)
  have hfeed : c ≠ '\n' := hne (by decide)
  simp [readAll, read, Screen.showChar, hescape, hreturn, hfeed, h]

/-- After a carriage return the line feed arrives in the first column, also from a full row. -/
theorem readAll_newline :
    (Raw.mk s .text).readAll width ['\r', '\n'] = ⟨s.put width '\n', .text⟩ := by
  simp [readAll, read, Screen.showChar, Screen.put, Screen.cursorColumn]

theorem readAll_written (h : Clean t) : (Raw.mk s .text).readAll width (withCarriageReturns t) =
    ⟨t.foldl (Screen.put width) s, .text⟩ := by
  induction t generalizing s with
  | nil => rfl
  | cons c t ih =>
    have hfirst : (Raw.mk s .text).readAll width (if c = '\n' then ['\r', '\n'] else [c]) =
        ⟨s.put width c, .text⟩ := by
      split
      · rename_i hfeed
        rw [hfeed, readAll_newline]
      · rename_i hfeed
        exact readAll_visible ((h c List.mem_cons_self).resolve_left hfeed)
    rw [withCarriageReturns, List.flatMap_cons, readAll_append, hfirst]
    exact ih fun d hd => h d (List.mem_cons_of_mem _ hd)

/-- A call is carried out by what it is written with. -/
theorem readAll_sequence (hs : s.mode = .ground) (h : call.Admissible) :
    (Raw.mk s .text).readAll width call.sequence = ⟨s.perform width call, .text⟩ := by
  cases call with
  | cursorTo column row =>
    rw [Screen.perform_of_ne (by simp)]
    have hcolumn : max (limit column + 1) 1 - 1 = column := by
      rw [limit_of_lt h.1]
      omega
    cases row with
    | none =>
      rw [Call.sequence, readAll_control (by decide)]
      simp only [Screen.obey, Screen.exec, List.getD_cons_zero, hcolumn, Option.getD_none]
    | some row =>
      have hlimit : limit row = row := limit_of_lt h.2
      have hrow : max (limit row + 1) 1 - 1 = row := by omega
      rw [Call.sequence, readAll_position (by decide)]
      simp only [Screen.obey, Screen.exec, List.getD_cons_zero, List.getD_cons_succ, hcolumn, hrow,
        Option.getD_some]
  | moveCursor columns rows =>
    rw [Call.sequence, readAll_append, readAll_columns h.1, readAll_rows h.2,
      Screen.perform_moveCursor]
  | clearToEnd =>
    rw [Screen.perform_of_ne (by simp)]
    rfl
  | write t =>
    rw [Screen.perform_of_ne (by simp), Call.sequence, readAll_written h, Screen.exec,
      Screen.write_clean hs h]
  | flush => rfl

theorem readAll_sequences (hs : s.mode = .ground) (h : ∀ call ∈ calls, call.Admissible) :
    (Raw.mk s .text).readAll width (calls.flatMap Call.sequence) =
      ⟨calls.foldl (Screen.perform width) s, .text⟩ := by
  induction calls generalizing s with
  | nil => rfl
  | cons call calls ih =>
    have hcall := h call List.mem_cons_self
    rw [List.flatMap_cons, readAll_append, readAll_sequence hs hcall]
    exact ih (Screen.perform_mode hs hcall) fun c hc => h c (List.mem_cons_of_mem _ hc)

/-- The bytes of some calls do on a terminal in raw mode what the calls ask for, one after the other,
and leave it outside of control sequences. -/
theorem receive?_emitted (hs : s.mode = .ground) (h : ∀ call ∈ calls, call.Admissible) :
    (Raw.mk s .text).receive? width (emitted calls) =
      some ⟨calls.foldl (Screen.perform width) s, .text⟩ := by
  rw [receive?, emitted, String.toUTF8_eq_toByteArray, String.toByteArray_ofList,
    List.utf8Decode?_utf8Encode, Option.map_some, List.toList_toArray, readAll_sequences hs h]

/-- A full row that is left by a line feed, cleared, moved from along both axes, and moved from by
nothing while it is full. -/
theorem receive?_full_rows :
    let calls : List Call := [.cursorTo 1 (some 2), .write "ab\nabc".toList, .moveCursor 0 0,
      .write "d".toList, .moveCursor (-1) (-2), .clearToEnd, .moveCursor 7 1, .cursorTo 0 none, .flush]
    Screen.blank.mode = .ground ∧ (∀ call ∈ calls, call.Admissible) ∧
      (Raw.mk .blank .text).receive? 3 (emitted calls) =
        some ⟨calls.foldl (Screen.perform 3) .blank, .text⟩ ∧
      (calls.foldl (Screen.perform 3) .blank).row = 3 ∧
      (calls.foldl (Screen.perform 3) .blank).column = 0 := by
  intro calls
  have hcalls : ∀ call ∈ calls, call.Admissible := by decide
  exact ⟨rfl, hcalls, receive?_emitted rfl hcalls, by decide, by decide⟩

end Raw
end Promptline.Terminal
