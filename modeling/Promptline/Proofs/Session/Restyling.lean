import Promptline.Proofs.Display.Restyling
import Promptline.Proofs.Session.Coupling

set_option autoImplicit false

namespace Promptline.Session

open Display Keys Terminal

/-- Setups that differ in the style of the lines and in nothing else. Without a continuation prompt a
style that leaves empty lines empty goes with such styles only. -/
structure Restyled (setup setup' : Setup) : Prop where
  config : setup'.config = setup.config
  fails : setup'.fails = setup.fails
  first : Printable setup.config.prompts.first
  continuation : Printable setup.config.prompts.continuation
  indentUnit : Clean setup.config.indentUnit
  faithful : Faithful setup.presenter
  faithful' : Faithful setup'.presenter
  emptyLine : setup.config.prompts.continuation ≠ [] ∨
    (setup.presenter [] = [] ↔ setup'.presenter [] = [])

inductive CallAlike (setup setup' : Setup) : Call → Call → Prop
  | same (c : Call) : CallAlike setup setup' c c
  | display (size : Size) (jump : Bool) (last : Nat) (b : Buffer) :
      strip (View.ofBuffer setup' size jump last b).display =
        strip (View.ofBuffer setup size jump last b).display →
      CallAlike setup setup' (.write (View.ofBuffer setup size jump last b).display)
        (.write (View.ofBuffer setup' size jump last b).display)

structure DrawnAlike (setup setup' : Setup) (s s' : Session) : Prop where
  rest : s' = { s with drawn := s'.drawn }
  drawn : List.Forall₂ (CallAlike setup setup') s.drawn s'.drawn

/-- What happens to a session: a request, or the deadline of a pending key. -/
inductive Happening
  | asked (r : Request)
  | expired

def Happening.occur (setup : Setup) : Happening → Session → Reply × Session
  | asked r, s => step setup r s
  | expired, s =>
    match settle setup s with
    | .ok _ s' => (.done, s')
    | .error e s' => (.failed e, s')

def course (setup : Setup) : List Happening → Session → List Reply × Session
  | [], s => ([], s)
  | h :: rest, s =>
    let (reply, s') := h.occur setup s
    let (replies, last) := course setup rest s'
    (reply :: replies, last)

def Happening.TypesClean : Happening → Prop
  | asked (.key p) => TypesOnly Clean p
  | asked (.setClipboard t) => Clean (Text.normalizeNewlines t)
  | _ => True

variable {setup setup' : Setup} {s s' : Session}

namespace Restyled

theorem display_same (h : Restyled setup setup') {b : Buffer} (hb : Clean b.text) (size : Size)
    (jump : Bool) (last : Nat) : SameShown (View.ofBuffer setup size jump last b).display
      (View.ofBuffer setup' size jump last b).display := by
  obtain ⟨config, presenter, fails⟩ := setup'
  obtain ⟨hconfig, -, hfirst, hcontinuation, -, hstyle, hstyle', hempty⟩ := h
  subst hconfig
  have hlines := hb.lines
  simp only [View.ofBuffer, styledText]
  split
  · exact linesBefore_same hstyle hstyle' hfirst hcontinuation hempty hlines _ _
  · exact ⟨_, run_showLines hstyle hfirst hcontinuation hlines,
      run_showLines hstyle' hfirst hcontinuation hlines⟩

theorem calls_alike (h : Restyled setup setup') {b : Buffer} (hb : Clean b.text) (size : Size)
    (jump : Bool) (last width : Nat) :
    List.Forall₂ (CallAlike setup setup') ((View.ofBuffer setup size jump last b).calls width)
      ((View.ofBuffer setup' size jump last b).calls width) := by
  have hsame := h.display_same hb size jump last
  have hcursor : (View.ofBuffer setup' size jump last b).cursor =
      (View.ofBuffer setup size jump last b).cursor := by
    simp only [View.ofBuffer, h.config]
  simp only [View.calls, hsame.layout, hcursor]
  have htail (cs : List Call) : List.Forall₂ (CallAlike setup setup') cs cs :=
    List.forall₂_same.mpr fun c _ => .same c
  exact .cons (.same _) (.cons (.same _) (.cons (.display size jump last b hsame.strip) (htail _)))

end Restyled

structure StyleOnly (setup setup' : Setup) (a a' : Aside) : Prop where
  rest : a' = { a with drawn := a'.drawn }
  drawn : List.Forall₂ (CallAlike setup setup') a.drawn a'.drawn
  typed : ∀ k ∈ a.feed.keys, TypesOnly Clean k.2

theorem beside_iff : Beside (StyleOnly setup setup') s s' ↔
    DrawnAlike setup setup' s s' ∧ ∀ k ∈ s.feed.keys, TypesOnly Clean k.2 := by
  constructor
  · intro h
    have hrest := h.rest
    rw [h.aside.rest] at hrest
    exact ⟨⟨hrest, h.aside.drawn⟩, h.aside.typed⟩
  · rintro ⟨h, htyped⟩
    refine ⟨?_, ?_, h.drawn, htyped⟩
    · rw [h.rest]
      rfl
    · rw [h.rest]
      rfl

/-- A change that takes no notice of what has been drawn. -/
theorem agree_change (f : Session → Session)
    (hf : ∀ s d, f { s with drawn := d } = { f s with drawn := d })
    (hdrawn : ∀ s, (f s).drawn = s.drawn)
    (htyped : ∀ s, (∀ k ∈ s.feed.keys, TypesOnly Clean k.2) →
      ∀ k ∈ (f s).feed.keys, TypesOnly Clean k.2)
    (hwithin : ∀ s, Within Visible s → Within Visible (f s)) :
    Agree True Visible (StyleOnly setup setup') (modify f : Act Unit) (modify f) := by
  intro s s' hs hw
  obtain ⟨halike, hkeys⟩ := beside_iff.mp hs
  refine .ok (beside_iff.mpr ⟨⟨?_, ?_⟩, htyped s hkeys⟩) (hwithin s hw)
  · rw [hdrawn, ← hf, ← halike.rest]
  · rw [hdrawn, hdrawn]
    exact halike.drawn

theorem agree_passTime (time : Nat) :
    Agree True Visible (StyleOnly setup setup') (passTime time) (passTime time) :=
  agree_change _ (fun _ _ => rfl) (fun _ => rfl) (fun _ hk => hk) fun _ hw => hw.keep rfl rfl rfl

namespace Restyled

theorem draw (h : Restyled setup setup') {c c' : Call} (hc : CallAlike setup setup' c c') :
    Agree True Visible (StyleOnly setup setup') (draw setup c) (draw setup' c') := by
  intro s s' hs hw
  obtain ⟨halike, hkeys⟩ := beside_iff.mp hs
  have hcalls : s'.calls = s.calls := by rw [halike.rest]
  have hdrawn := List.rel_append halike.drawn (.cons hc .nil)
  simp only [Session.draw, hcalls, h.fails]
  split
  · refine .error trivial (beside_iff.mpr ⟨⟨?_, halike.drawn⟩, hkeys⟩) (hw.keep rfl rfl rfl)
    rw [halike.rest]
  · refine .ok (beside_iff.mpr ⟨⟨?_, hdrawn⟩, hkeys⟩) (hw.keep rfl rfl rfl)
    rw [halike.rest]

theorem synchrony (h : Restyled setup setup') :
    Synchrony True Visible (StyleOnly setup setup') setup setup' where
  config := h.config
  lineFeed := Or.inl rfl
  indentUnit := h.indentUnit
  noted _ := agree_change _ (fun _ _ => rfl) (fun _ => rfl) (fun _ hk => hk)
    fun _ hw => hw.keep rfl rfl rfl
  drew c := h.draw (.same c)
  redrew := agree_redraw h.config (fun c => h.draw (.same c)) fun size jump last _ width hb =>
    agree_drawAll ((h.calls_alike hb size jump last width).imp fun _ _ => h.draw)
  presses ha := by rw [ha.rest]
  now ha := by rw [ha.rest]
  pressed _ ha := ⟨by rw [ha.rest], ha.drawn, ha.typed⟩

theorem takeKey (h : Restyled setup setup') (delay : Nat) {rest : List (Nat × KeyPress)}
    (hrest : ∀ k ∈ rest, TypesOnly Clean k.2) : Agree True Visible (StyleOnly setup setup')
      (takeKey setup delay rest) (takeKey setup' delay rest) := by
  have hawait (arrival : Nat) : Agree True Visible (StyleOnly setup setup')
      (await setup arrival) (await setup' arrival) := by
    refine agree_bind (agree_change _ (fun _ _ => rfl) (fun _ => rfl) (fun _ hk => hk)
      fun _ hw => hw.keep rfl rfl rfl) fun _ => agree_get fun s s' hs _ => ?_
    rw [(beside_iff.mp hs).1.rest]
    cases s.editor.presses.deadline? with
    | none => exact agree_passTime arrival
    | some deadline =>
      refine agree_ite ?_ (agree_passTime arrival)
      exact agree_bind (agree_passTime deadline) fun _ =>
        agree_bind h.synchrony.settle fun _ => agree_passTime arrival
  refine agree_get fun s s' hs _ => ?_
  rw [(beside_iff.mp hs).1.rest]
  exact agree_bind (hawait _) fun _ => agree_change _ (fun _ _ => rfl) (fun _ => rfl)
    (fun _ _ => hrest) fun _ hw => hw.keep rfl rfl rfl

theorem readKeys (h : Restyled setup setup') {keys : List (Nat × KeyPress)}
    (hkeys : ∀ k ∈ keys, TypesOnly Clean k.2) : Agree True Visible (StyleOnly setup setup')
      (readKeys setup keys) (readKeys setup' keys) := by
  induction keys with
  | nil => exact h.synchrony.close
  | cons k rest ih =>
    have hrest : ∀ k ∈ rest, TypesOnly Clean k.2 := fun k hk => hkeys k (List.mem_cons_of_mem _ hk)
    refine agree_bind (h.takeKey k.1 hrest) fun _ => ?_
    refine agree_bind (h.synchrony.handleKey (hkeys k List.mem_cons_self)) fun e => ?_
    cases e with
    | none => exact ih hrest
    | some e => exact agree_pure e

theorem readline (h : Restyled setup setup') : Agree True Visible (StyleOnly setup setup')
    (readline setup) (readline setup') := by
  refine agree_get fun s s' hs _ => ?_
  obtain ⟨halike, hkeys⟩ := beside_iff.mp hs
  rw [halike.rest]
  refine agree_ite ?_ (h.readKeys hkeys)
  exact agree_bind (fun _ _ ht hw => .error trivial ht hw) fun _ => h.readKeys hkeys

theorem perform (h : Restyled setup setup') {r : Request} (hr : (Happening.asked r).TypesClean) :
    Agree True Visible (StyleOnly setup setup') (perform setup r) (perform setup' r) := by
  have hdone {m m' : Act Unit} (hm : Agree True Visible (StyleOnly setup setup') m m') :
      Agree True Visible (StyleOnly setup setup') (m *> pure (none : Option Event))
        (m' *> pure none) :=
    agree_seqRight hm (agree_pure _)
  have hchange (f : Session → Session)
      (hf : ∀ s d, f { s with drawn := d } = { f s with drawn := d })
      (hdrawn : ∀ s, (f s).drawn = s.drawn) (hfeed : ∀ s, (f s).feed = s.feed)
      (hwithin : ∀ s, Within Visible s → Within Visible (f s)) :=
    hdone (agree_change f hf hdrawn (fun s hk => (hfeed s).symm ▸ hk) hwithin)
  cases r with
  | key p => exact h.synchrony.handleKey hr
  | readline => exact agree_map _ h.readline
  | prompt => exact hdone (h.synchrony.showPrompt true)
  | print t => exact hdone (agree_drawAll_same h.synchrony.drew _)
  | setClipboard t =>
    exact hchange _ (fun _ _ => rfl) (fun _ => rfl) (fun _ => rfl)
      fun _ hw => ⟨hw.text, hw.history, hr⟩
  | _ =>
    exact hchange _ (fun _ _ => rfl) (fun _ => rfl) (fun _ => rfl) fun _ hw => hw.keep rfl rfl rfl

theorem occur (h : Restyled setup setup') {e : Happening} (he : e.TypesClean)
    (hs : Beside (StyleOnly setup setup') s s') (hw : Within Visible s) :
    (e.occur setup' s').1 = (e.occur setup s).1 ∧
      Beside (StyleOnly setup setup') (e.occur setup s).2 (e.occur setup' s').2 ∧
      Within Visible (e.occur setup s).2 := by
  cases e with
  | asked r =>
    have hmeets := h.perform he s s' hs hw
    simp only [Happening.occur, step]
    generalize Session.perform setup r s = q at hmeets ⊢
    generalize Session.perform setup' r s' = q' at hmeets ⊢
    cases hmeets with
    | @ok event _ _ hb hw => cases event <;> exact ⟨rfl, hb, hw⟩
    | error _ hb hw => exact ⟨rfl, hb, hw⟩
  | expired =>
    have hmeets := h.synchrony.settle s s' hs hw
    simp only [Happening.occur]
    generalize settle setup s = q at hmeets ⊢
    generalize settle setup' s' = q' at hmeets ⊢
    cases hmeets with
    | ok hb hw => exact ⟨rfl, hb, hw⟩
    | error _ hb hw => exact ⟨rfl, hb, hw⟩

theorem course (h : Restyled setup setup') {es : List Happening} (hes : ∀ e ∈ es, e.TypesClean)
    (hs : Beside (StyleOnly setup setup') s s') (hw : Within Visible s) :
    (course setup' es s').1 = (course setup es s).1 ∧
      DrawnAlike setup setup' (course setup es s).2 (course setup' es s').2 := by
  induction es generalizing s s' with
  | nil => exact ⟨rfl, (beside_iff.mp hs).1⟩
  | cons e rest ih =>
    obtain ⟨hreply, hb, hw⟩ := h.occur (hes e List.mem_cons_self) hs hw
    obtain ⟨hreplies, halike⟩ := ih (fun e he => hes e (List.mem_cons_of_mem _ he)) hb hw
    exact ⟨congrArg₂ List.cons hreply hreplies, halike⟩

end Restyled

/-- A style that adds nothing but escape sequences to the lines has no influence on a session. Two
sessions that differ in it are created alike. Whatever keys, deadlines, prompts, prints and changes
of the geometry come after that, both give the same replies, and are the same in all but the styled
text that redraws have written, which shows the same. -/
theorem styling_unobservable (h : Restyled setup setup') (size : Size) {clipboard : Text}
    {keys : List (Nat × KeyPress)} (hclipboard : Clean (Text.normalizeNewlines clipboard))
    (hkeys : ∀ k ∈ keys, TypesOnly Clean k.2) :
    (∃ e, create setup size clipboard keys = .error e ∧
      create setup' size clipboard keys = .error e) ∨
    ∃ s s', create setup size clipboard keys = .ok s ∧ create setup' size clipboard keys = .ok s' ∧
      ∀ es : List Happening, (∀ e ∈ es, e.TypesClean) →
        (course setup' es s').1 = (course setup es s).1 ∧
          DrawnAlike setup setup' (course setup es s).2 (course setup' es s').2 := by
  have hinitial : initial setup' size clipboard keys = initial setup size clipboard keys := by
    rw [initial, initial, h.config]
  have hs : Beside (StyleOnly setup setup') (initial setup size clipboard keys)
      (initial setup size clipboard keys) := beside_iff.mpr ⟨⟨rfl, .nil⟩, hkeys⟩
  have hmeets := h.synchrony.showPrompt false _ _ hs (within_initial setup size keys hclipboard)
  simp only [create, hinitial]
  generalize showPrompt setup false _ = q at hmeets ⊢
  generalize showPrompt setup' false _ = q' at hmeets ⊢
  cases hmeets with
  | ok hb hw => exact .inr ⟨_, _, rfl, rfl, fun es hes => h.course hes hb hw⟩
  | error _ _ _ => exact .inl ⟨_, rfl, rfl⟩

def Setup.styled (config : Config) (presenter : Presenter) : Setup :=
  ⟨config, presenter, fun _ => false⟩

def thirdLine : List Happening :=
  [.asked (.key (.ofChar 'a')), .asked (.key (.ofCtrl 'n')), .asked (.key (.ofChar 'b')),
    .asked (.key (.ofCtrl 'n'))]

theorem thirdLine_clean : ∀ e ∈ thirdLine, e.TypesClean := by
  simp only [thirdLine, List.forall_mem_cons, Happening.TypesClean]
  refine ⟨?_, ?_, ?_, ?_, List.forall_mem_nil _⟩ <;> intro t ht <;> cases ht <;> decide

/-- On a terminal that is too low for the text, plain and bold text is drawn by the same calls. -/
theorem bold_drawn_like_plain : ∃ s s',
    create (.styled .standard .plain) ⟨80, 2⟩ [] [] = .ok s ∧
    create (.styled .standard .bold) ⟨80, 2⟩ [] [] = .ok s' ∧
    DrawnAlike (.styled .standard .plain) (.styled .standard .bold)
      (course (.styled .standard .plain) thirdLine s).2
      (course (.styled .standard .bold) thirdLine s').2 ∧
    (course (.styled .standard .plain) thirdLine s).2.drawn ≠
      (course (.styled .standard .bold) thirdLine s').2.drawn := by
  let plain : Setup := .styled .standard .plain
  let bold : Setup := .styled .standard .bold
  have hrun : (create plain ⟨80, 2⟩ [] []).toOption.any (fun s =>
      (create bold ⟨80, 2⟩ [] []).toOption.any fun s' =>
        !((course plain thirdLine s).2.drawn == (course bold thirdLine s').2.drawn)) = true := by
    decide +kernel
  obtain ⟨s, hs, hrun⟩ := (Option.any_eq_true _ _).mp hrun
  obtain ⟨s', hs', hdiffer⟩ := (Option.any_eq_true _ _).mp hrun
  have hs := created_of_toOption hs
  have hs' := created_of_toOption hs'
  have hrestyled : Restyled plain bold := ⟨rfl, rfl, by decide, by decide, by decide, faithful_plain,
    faithful_bold, .inl (by decide)⟩
  have hclipboard : Clean (Text.normalizeNewlines []) := by decide
  have hkeys : ∀ k ∈ ([] : List (Nat × KeyPress)), TypesOnly Clean k.2 := List.forall_mem_nil _
  rcases styling_unobservable hrestyled ⟨80, 2⟩ hclipboard hkeys with
    ⟨e, he, -⟩ | ⟨t, t', ht, ht', hall⟩
  · cases hs.symm.trans he
  · cases hs.symm.trans ht
    cases hs'.symm.trans ht'
    refine ⟨s, s', hs, hs', (hall thirdLine thirdLine_clean).2, ?_⟩
    simpa using hdiffer

/-- Without a continuation prompt an empty line at the end of a text that is clipped is drawn in bold
and not in plain style, so that only there the cursor has to be moved down. -/
theorem empty_line_left_out : ∃ s s', Faithful Presenter.plain ∧ Faithful Presenter.bold ∧
    create (.styled (.withContinuation .standard []) .plain) ⟨80, 2⟩ [] [] = .ok s ∧
    create (.styled (.withContinuation .standard []) .bold) ⟨80, 2⟩ [] [] = .ok s' ∧
    (∀ e ∈ thirdLine, e.TypesClean) ∧
    ¬ DrawnAlike (.styled (.withContinuation .standard []) .plain)
      (.styled (.withContinuation .standard []) .bold)
      (course (.styled (.withContinuation .standard []) .plain) thirdLine s).2
      (course (.styled (.withContinuation .standard []) .bold) thirdLine s').2 := by
  let plain : Setup := .styled (.withContinuation .standard []) .plain
  let bold : Setup := .styled (.withContinuation .standard []) .bold
  have hrun : (create plain ⟨80, 2⟩ [] []).toOption.any (fun s =>
      (create bold ⟨80, 2⟩ [] []).toOption.any fun s' =>
        !((course plain thirdLine s).2.drawn.length ==
          (course bold thirdLine s').2.drawn.length)) = true := by
    decide +kernel
  obtain ⟨s, hs, hrun⟩ := (Option.any_eq_true _ _).mp hrun
  obtain ⟨s', hs', hdiffer⟩ := (Option.any_eq_true _ _).mp hrun
  refine ⟨s, s', faithful_plain, faithful_bold, created_of_toOption hs, created_of_toOption hs',
    thirdLine_clean, fun halike => ?_⟩
  have hlength := halike.drawn.length_eq
  simp [hlength, plain, bold] at hdiffer

end Promptline.Session
