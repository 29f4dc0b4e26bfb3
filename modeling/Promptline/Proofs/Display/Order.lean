import Mathlib.Data.Prod.Lex
import Promptline.Buffer.Basic
import Promptline.Proofs.Display.Pen
import Promptline.Proofs.Display.Shown
import Promptline.Proofs.Text.Offsets

set_option autoImplicit false

namespace Promptline.Display

variable {s t u x : Text} {p : Prompts} {ctx : Context} {width i j : Nat}

def Layout.cell (l : Layout) (width : Nat) : ℕ ×ₗ ℕ :=
  toLex ((l.screen width).rows, (l.screen width).columns)

def Context.cell (ctx : Context) (t : Text) : ℕ ×ₗ ℕ := (ctx.layoutOf t).cell ctx.width

/-- The cells are numbered in reading order. -/
theorem cell_strictMono (width : Nat) :
    StrictMono fun n : Nat => (toLex (n / width, n % width) : ℕ ×ₗ ℕ) := by
  intro m n hmn
  rw [Prod.Lex.toLex_lt_toLex']
  refine ⟨Nat.div_le_div_right (Nat.le_of_lt hmn), fun hrow => ?_⟩
  have hrow : m / width = n / width := hrow
  have hm := Nat.div_add_mod m width
  have hn := Nat.div_add_mod n width
  rw [hrow] at hm
  change m % width < n % width
  omega

theorem Layout.screen_max (l : Layout) (width : Nat) : l.screen (max width 1) = l.screen width := by
  have hmax : max (max width 1) 1 = max width 1 := by omega
  rw [Layout.screen, Layout.screen, Layout.isPending, Layout.isPending, hmax]

def cellsOf (width : Nat) (t : Text) : Nat :=
  ((strip t).foldl (Pen.advance (max width 1)) ⟨0, 0⟩).index (max width 1)

theorem layout_cell (width : Nat) (t : Text) : (layout width t).cell width =
    toLex (cellsOf width t / max width 1, cellsOf width t % max width 1) := by
  have hw : 0 < max width 1 := Nat.le_max_right _ _
  rw [Layout.cell, ← Layout.screen_max, layout, layoutShown, Pen.screen_eq hw]
  rfl

/-- Stripping a longer text gives more of the same, whatever escape sequences there are. -/
theorem cellsOf_le (width : Nat) (s t : Text) : cellsOf width s ≤ cellsOf width (s ++ t) := by
  rw [cellsOf, cellsOf, strip, strip, run_append, List.foldl_append]
  exact index_le_foldl (Nat.le_max_right _ _) _ _

theorem cellsOf_lt (hs : Clean s) (hx : Clean x) (h : ∃ c ∈ x, c ≠ '\n') (width : Nat) :
    cellsOf width s < cellsOf width (s ++ x) := by
  rw [cellsOf, cellsOf, strip, strip, run_ground_append (run_clean hs) (run_clean hx), run_clean hs,
    List.foldl_append]
  exact index_lt_foldl (Nat.le_max_right _ _) h _

def Prompts.shownFor (p : Prompts) (c : Char) : Text :=
  if c = '\n' then '\n' :: p.continuation else [c]

theorem decorate_eq (p : Prompts) (t : Text) : p.decorate t = p.first ++ t.flatMap p.shownFor := by
  have hlines : ∃ line rest, Text.lines t = line :: rest ∧
      (line ++ rest.flatMap fun l => '\n' :: p.continuation ++ l) = t.flatMap p.shownFor := by
    induction t with
    | nil => exact ⟨[], [], rfl, rfl⟩
    | cons c t ih =>
      obtain ⟨line, rest, hcons, hrest⟩ := ih
      rw [List.flatMap_cons, ← hrest]
      by_cases hc : c = '\n'
      · refine ⟨[], line :: rest, ?_, by simp [Prompts.shownFor, hc]⟩
        rw [← hcons, hc]
        rfl
      · refine ⟨c :: line, rest, ?_, by simp [Prompts.shownFor, hc]⟩
        unfold Text.lines at hcons ⊢
        rw [Text.split, if_neg hc, hcons]
  obtain ⟨line, rest, hcons, hrest⟩ := hlines
  rw [Prompts.decorate, hcons, ← hrest, ← List.append_assoc]
  rfl

theorem decorate_append (p : Prompts) (s t : Text) :
    p.decorate (s ++ t) = p.decorate s ++ t.flatMap p.shownFor := by
  rw [decorate_eq, decorate_eq, List.flatMap_append, List.append_assoc]

theorem clean_shown (hcontinuation : Printable p.continuation) (ht : Clean t) :
    Clean (t.flatMap p.shownFor) := by
  intro d hd
  obtain ⟨c, hc, hd⟩ := List.mem_flatMap.mp hd
  unfold Prompts.shownFor at hd
  split at hd
  · rcases List.mem_cons.mp hd with hd | hd
    · exact .inl hd
    · exact .inr (hcontinuation d hd)
  · rw [List.mem_singleton.mp hd]
    exact ht c hc

theorem clean_decorate (hfirst : Printable p.first) (hcontinuation : Printable p.continuation)
    (ht : Clean t) : Clean (p.decorate t) := by
  rw [decorate_eq]
  intro d hd
  rcases List.mem_append.mp hd with hd | hd
  · exact .inr (hfirst d hd)
  · exact clean_shown hcontinuation ht d hd

/-- What is shown for a line feed ends in a glyph if there is a continuation prompt. -/
theorem glyph_shown (hcontinuation : Printable p.continuation) (hne : p.continuation ≠ [])
    (hx : x ≠ []) : ∃ d ∈ x.flatMap p.shownFor, d ≠ '\n' := by
  obtain ⟨c, rest, rfl⟩ := List.exists_cons_of_ne_nil hx
  suffices h : ∃ d ∈ p.shownFor c, d ≠ '\n' by
    obtain ⟨d, hd, hfeed⟩ := h
    exact ⟨d, List.mem_flatMap.mpr ⟨c, List.mem_cons_self, hd⟩, hfeed⟩
  unfold Prompts.shownFor
  split
  · obtain ⟨d, hd⟩ := List.exists_mem_of_ne_nil _ hne
    refine ⟨d, List.mem_cons_of_mem _ hd, fun hfeed => ?_⟩
    exact hcontinuation.not_mem (hfeed ▸ hd)
  · rename_i hc
    exact ⟨c, List.mem_singleton_self c, hc⟩

theorem Context.cell_eq (ctx : Context) (t : Text) : ctx.cell t =
    toLex (cellsOf ctx.width (ctx.prompts.decorate t) / max ctx.width 1,
      cellsOf ctx.width (ctx.prompts.decorate t) % max ctx.width 1) := layout_cell _ _

theorem Context.cell_le (ctx : Context) (s t : Text) : ctx.cell s ≤ ctx.cell (s ++ t) := by
  rw [Context.cell_eq, Context.cell_eq, decorate_append]
  exact (cell_strictMono _).monotone (cellsOf_le _ _ _)

theorem Context.cell_lt (hfirst : Printable ctx.prompts.first)
    (hcontinuation : Printable ctx.prompts.continuation) (hne : ctx.prompts.continuation ≠ [])
    (hclean : Clean (s ++ x)) (hx : x ≠ []) : ctx.cell s < ctx.cell (s ++ x) := by
  have hs : Clean s := fun c hc => hclean c (List.mem_append_left _ hc)
  have hrest : Clean x := fun c hc => hclean c (List.mem_append_right _ hc)
  rw [Context.cell_eq, Context.cell_eq, decorate_append]
  refine cell_strictMono _ ?_
  exact cellsOf_lt (clean_decorate hfirst hcontinuation hs) (clean_shown hcontinuation hrest)
    (glyph_shown hcontinuation hne hx) _

/-- The cursor of a text is not below the end of the text. -/
theorem Context.layoutOf_screen_le (ctx : Context) (s t : Text) :
    ((ctx.layoutOf s).screen ctx.width).rows ≤ ((ctx.layoutOf (s ++ t)).screen ctx.width).rows :=
  Prod.Lex.monotone_fst _ _ (ctx.cell_le s t)

/-- Between two offsets of a text. -/
theorem slice?_lt (hs : Text.slice? 0 i t = some s) (hu : Text.slice? 0 j t = some u) (hij : i < j) :
    ∃ x, x ≠ [] ∧ u = s ++ x ∧ ∃ rest, t = u ++ rest := by
  have hcut {n : Nat} {part : Text} (h : Text.slice? 0 n t = some part) :
      (∃ rest, t = part ++ rest) ∧ Text.bytes part = n := by
    simp only [Text.slice?, Option.bind_eq_bind, Option.bind_eq_some_iff, Prod.exists,
      Text.splitAt?_eq_some_iff, Option.pure_def, Option.some.injEq] at h
    obtain ⟨before, after, ⟨ht, hbytes⟩, left, right, ⟨rfl, hleft⟩, rfl⟩ := h
    cases left with
    | nil => exact ⟨⟨after, ht⟩, hbytes⟩
    | cons c left => exact absurd (Text.bytes_pos (List.cons_ne_nil c left)) (by omega)
  obtain ⟨⟨after, hafter⟩, hsbytes⟩ := hcut hs
  obtain ⟨⟨rest, hrest⟩, hubytes⟩ := hcut hu
  rcases List.prefix_or_prefix_of_prefix ⟨after, hafter.symm⟩ ⟨rest, hrest.symm⟩ with h | h
  · obtain ⟨x, hx⟩ := h
    refine ⟨x, fun hnil => ?_, hx.symm, rest, hrest⟩
    rw [hnil, List.append_nil] at hx
    rw [hx] at hsbytes
    omega
  · obtain ⟨y, hy⟩ := h
    rw [← hy, Text.bytes_append] at hsbytes
    omega

/-- The cursor moves on in reading order as its offset grows. Where no escape sequences interfere and
a continuation prompt sets the lines apart, no two offsets are shown in the same cell. In particular
the cursor is never below the end of the text. -/
theorem cells_in_reading_order (ctx : Context) (t : Text) :
    (∀ {i j : Nat} {s u : Text}, Text.slice? 0 i t = some s → Text.slice? 0 j t = some u → i < j →
      ctx.cell s ≤ ctx.cell u ∧
        (Printable ctx.prompts.first → Printable ctx.prompts.continuation →
          ctx.prompts.continuation ≠ [] → Clean t → ctx.cell s < ctx.cell u)) ∧
    ∀ b : Buffer, b.text = t → b.cursorRow ctx ≤ ((b.textLayout ctx).screen ctx.width).rows := by
  refine ⟨fun {i j s u} hs hu hij => ?_, fun b _ => ctx.layoutOf_screen_le b.before b.after⟩
  obtain ⟨x, hx, rfl, rest, rfl⟩ := slice?_lt hs hu hij
  refine ⟨ctx.cell_le s x, fun hfirst hcontinuation hne hclean => ?_⟩
  have hshorter : Clean (s ++ x) := fun c hc => hclean c (List.mem_append_left _ hc)
  exact Context.cell_lt hfirst hcontinuation hne hshorter hx

/-- The first line fills its row, so its end is shown at the start of the next row. There the line
feed leads as well, and the continuation prompt takes the second line on from it. -/
theorem full_row_before_lineFeed :
    let ctx : Context := ⟨⟨"> ".toList, "· ".toList⟩, 3⟩
    let t : Text := "a\nb".toList
    Text.slice? 0 1 t = some "a".toList ∧ Text.slice? 0 2 t = some "a\n".toList ∧
      ctx.cell "a".toList = toLex (1, 0) ∧ ctx.cell "a".toList < ctx.cell "a\n".toList ∧
      ctx.cell "a\n".toList = toLex (1, 2) := by
  intro ctx t
  have hone : Text.slice? 0 1 t = some "a".toList := by decide
  have htwo : Text.slice? 0 2 t = some "a\n".toList := by decide
  have horder := (cells_in_reading_order ctx t).1 hone htwo (by decide)
  refine ⟨hone, htwo, by decide, ?_, by decide⟩
  exact horder.2 (by decide) (by decide) (by decide) (by decide)

/-- Without a continuation prompt both offsets are shown in one cell. -/
example :
    let ctx : Context := ⟨⟨"> ".toList, []⟩, 3⟩
    ctx.cell "a".toList = ctx.cell "a\n".toList := by decide

end Promptline.Display
