import Promptline.Display.Layout
import Promptline.Proofs.Text.Offsets

set_option autoImplicit false

namespace Promptline.Display

open Text

variable {width : Nat}

def Layout.wrap? (width offset : Nat) : Option Layout := do
  let columns ← mod? offset width
  let rows ← div? offset width
  if 0 < offset && columns = 0 then
    let rows ← sub? rows 1
    return ⟨width, rows⟩
  else return ⟨columns, rows⟩

def Pen.advance? (width : Nat) (p : Pen) (c : Char) : Option Pen := do
  if c = '\n' then
    let wrapped ← Layout.wrap? width p.offset
    return ⟨0, p.rows + 1 + wrapped.rows⟩
  else
    let column ← mod? (p.offset + 1) width
    if charWidth c = 2 && column = 0 then return { p with offset := p.offset + 3 }
    else return { p with offset := p.offset + charWidth c }

def layout? (width : Nat) (t : Text) : Option Layout := do
  let p ← (strip t).foldlM (Pen.advance? (max width 1)) ⟨0, 0⟩
  let tail ← Layout.wrap? (max width 1) p.offset
  return ⟨tail.columns, p.rows + tail.rows⟩

def Context.layoutOf? (ctx : Context) (t : Text) : Option Layout :=
  layout? ctx.width (ctx.prompts.decorate t)

theorem wrap?_eq (hw : 0 < width) (offset : Nat) :
    Layout.wrap? width offset = some (Layout.wrap width offset) := by
  have hmod : mod? offset width = some (offset % width) := if_neg (Nat.ne_of_gt hw)
  have hdiv : div? offset width = some (offset / width) := if_neg (Nat.ne_of_gt hw)
  simp only [Layout.wrap?, Layout.wrap, hmod, hdiv, Option.bind_eq_bind, Option.bind_some]
  split
  · rename_i hfull
    simp only [Bool.and_eq_true, decide_eq_true_eq] at hfull
    have hrow : 1 ≤ offset / width :=
      Nat.div_pos (Nat.le_of_dvd hfull.1 (Nat.dvd_of_mod_eq_zero hfull.2)) hw
    rw [sub?, if_pos hrow]
    rfl
  · rfl

theorem advance?_eq (hw : 0 < width) (p : Pen) (c : Char) :
    Pen.advance? width p c = some (p.advance width c) := by
  have hmod : mod? (p.offset + 1) width = some ((p.offset + 1) % width) := if_neg (Nat.ne_of_gt hw)
  simp only [Pen.advance?, Pen.advance, wrap?_eq hw, hmod, Option.bind_eq_bind, Option.bind_some]
  split
  · rfl
  · split <;> rfl

theorem layout?_eq (width : Nat) (t : Text) : layout? width t = some (layout width t) := by
  have hw : 0 < max width 1 := Nat.lt_of_lt_of_le Nat.one_pos (Nat.le_max_right width 1)
  have hfold (shown : Text) (p : Pen) : shown.foldlM (Pen.advance? (max width 1)) p =
      some (shown.foldl (Pen.advance (max width 1)) p) := by
    induction shown generalizing p with
    | nil => rfl
    | cons c shown ih =>
      rw [List.foldlM_cons, advance?_eq hw]
      exact ih _
  rw [layout?, hfold]
  simp only [Option.bind_eq_bind, Option.bind_some, wrap?_eq hw]
  rfl

theorem layoutOf?_eq (ctx : Context) (t : Text) : ctx.layoutOf? t = some (ctx.layoutOf t) :=
  layout?_eq _ _

end Promptline.Display
