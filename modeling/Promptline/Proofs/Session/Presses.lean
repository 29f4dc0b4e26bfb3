import Promptline.Proofs.Session.Invariant

set_option autoImplicit false

namespace Promptline

namespace Keys

def Action.twiceKey? : Action → Option TwiceKey
  | .tab => some .tab
  | .copy => some .copy
  | _ => none

namespace DoublePress

def keys (d : DoublePress) : List TwiceKey := d.pendingKey?.toList

end DoublePress
end Keys

namespace Session

open Keys Log

/-- How presses are acted on. -/
inductive Resolution
  | single (key : TwiceKey)
  | double (key : TwiceKey)
  deriving DecidableEq

namespace Resolution

def keys : Resolution → List TwiceKey
  | single key => [key]
  | double key => [key, key]

def ofNotice? : Notice → Option Resolution
  | .singlePress key => some (single key)
  | .doublePress key => some (double key)
  | _ => none

end Resolution

def actionOfNotice? : Notice → Option Action
  | .keyPress action => some action
  | _ => none

def actions (s : Session) : List Action := s.notices.filterMap actionOfNotice?

def resolutions (s : Session) : List Resolution := s.notices.filterMap Resolution.ofNotice?

def resolvedKeys (s : Session) : List TwiceKey := s.resolutions.flatMap Resolution.keys

/-- From `s` to `t` presses were acted on as `rs` tells, and `d` is pending then. No key was taken. -/
structure Resolved (rs : List Resolution) (d : DoublePress) (s t : Session) : Prop where
  presses : t.editor.presses = d
  resolutions : t.resolutions = s.resolutions ++ rs
  actions : t.actions = s.actions

abbrev Unpressed (s t : Session) : Prop := Resolved [] s.editor.presses s t

variable {setup : Setup} {s t u : Session} {rs : List Resolution} {d : DoublePress} {key : TwiceKey}

theorem unpressed_of_eq (hp : t.editor.presses = s.editor.presses) (hn : t.notices = s.notices) :
    Unpressed s t :=
  ⟨hp, by rw [resolutions, resolutions, hn, List.append_nil], by rw [actions, actions, hn]⟩

theorem Unpressed.refl (s : Session) : Unpressed s s := unpressed_of_eq rfl rfl

theorem Resolved.keep (h : Resolved rs d s t) (h' : Unpressed t u) : Resolved rs d s u :=
  ⟨h'.presses.trans h.presses, by rw [h'.resolutions, h.resolutions, List.append_nil],
    h'.actions.trans h.actions⟩

theorem Resolved.of_notices (h : Resolved rs d t u) (hn : t.notices = s.notices) : Resolved rs d s u :=
  ⟨h.presses, by rw [h.resolutions, Session.resolutions, Session.resolutions, hn],
    by rw [h.actions, Session.actions, Session.actions, hn]⟩

theorem Redrew.unpressed (h : Redrew s t) : Unpressed s t :=
  unpressed_of_eq h.presses (by rw [h.session])

theorem Drew.unpressed (h : Drew s t) : Unpressed s t := h.redrew.unpressed

def KeepsPresses {α : Type} (m : Act α) : Prop := ∀ s, Ends m s (fun _ => Unpressed s) (Unpressed s)

namespace KeepsPresses

variable {α β : Type} {m : Act α}

theorem after (h : KeepsPresses m) (hs : Resolved rs d s t) :
    Ends m t (fun _ => Resolved rs d s) (Resolved rs d s) :=
  (h t).imp hs.keep

theorem pure (a : α) : KeepsPresses (Pure.pure a) := Unpressed.refl

theorem bind {f : α → Act β} (h : KeepsPresses m) (hf : ∀ a, KeepsPresses (f a)) :
    KeepsPresses (m >>= f) := by
  intro s
  rw [ends_bind]
  exact (h s).mono (fun a _ ht => (hf a).after ht) fun _ => id

theorem seqRight {n : Act β} (h : KeepsPresses m) (hn : KeepsPresses n) : KeepsPresses (m *> n) := by
  intro s
  rw [ends_seqRight]
  exact (h s).mono (fun _ _ => hn.after) fun _ => id

theorem map (f : α → β) (h : KeepsPresses m) : KeepsPresses (f <$> m) := by
  intro s
  rw [ends_map]
  exact h s

theorem ite {c : Prop} [Decidable c] {n : Act α} (h : KeepsPresses m) (hn : KeepsPresses n) :
    KeepsPresses (if c then m else n) := by
  split
  · exact h
  · exact hn

theorem get : KeepsPresses (MonadState.get : Act Session) := Unpressed.refl

theorem modify {f : Session → Session} (hp : ∀ s, (f s).editor.presses = s.editor.presses)
    (hn : ∀ s, (f s).notices = s.notices) : KeepsPresses (modify f : Act Unit) :=
  fun s => unpressed_of_eq (hp s) (hn s)

theorem modifyEditor {f : Editor → Editor} (hp : ∀ e, (f e).presses = e.presses) :
    KeepsPresses (Session.modifyEditor f) :=
  fun s => unpressed_of_eq (hp s.editor) rfl

theorem publish (e : Event) : KeepsPresses (Session.publish e) := fun _ => unpressed_of_eq rfl rfl

theorem note {n : Notice} (hn : Resolution.ofNotice? n = none) (ha : actionOfNotice? n = none) :
    KeepsPresses (Session.note n) :=
  fun s => ⟨rfl, by simp [resolutions, hn], by simp [actions, ha]⟩

theorem draw (setup : Setup) (c : Terminal.Call) : KeepsPresses (Session.draw setup c) :=
  fun _ => (ends_draw setup c).imp Drew.unpressed

theorem drawAll (setup : Setup) (cs : List Terminal.Call) : KeepsPresses (Session.drawAll setup cs) :=
  fun _ => (ends_drawAll setup cs).imp Drew.unpressed

theorem redraw (setup : Setup) (jump : Bool) : KeepsPresses (Session.redraw setup jump) :=
  fun _ => (ends_redraw setup jump).imp Redrew.unpressed

theorem showPrompt (setup : Setup) (onNewLine : Bool) :
    KeepsPresses (Session.showPrompt setup onNewLine) := by
  have hlisten : KeepsPresses (Session.modifyEditor fun e => { e with isListening := true }) :=
    modifyEditor fun _ => rfl
  refine bind (modifyEditor fun _ => rfl) fun _ => ?_
  split
  · exact bind (draw setup _) fun _ => bind (redraw setup false) fun _ => hlisten
  · exact bind (redraw setup false) fun _ => hlisten

theorem close : KeepsPresses Session.close :=
  bind get fun _ => bind (modifyEditor fun _ => rfl) fun _ => bind (note rfl rfl) fun _ =>
    bind (publish .close) fun _ => pure _

theorem afterTextChange (setup : Setup) : KeepsPresses (Session.afterTextChange setup) :=
  bind (modifyEditor fun _ => rfl) fun _ => redraw setup false

theorem reindentLine (setup : Setup) : KeepsPresses (Session.reindentLine setup) :=
  modify (fun _ => rfl) fun _ => rfl

theorem reindentAll (setup : Setup) : KeepsPresses (Session.reindentAll setup) :=
  modify (fun _ => rfl) fun _ => rfl

theorem insertText (setup : Setup) (typed : Text) : KeepsPresses (Session.insertText setup typed) := by
  refine bind (modifyEditor fun _ => rfl) fun _ => ?_
  split
  · exact bind (reindentLine setup) fun _ => afterTextChange setup
  · exact afterTextChange setup

theorem deleteWith (setup : Setup) (delete : Buffer → Option Buffer) :
    KeepsPresses (Session.deleteWith setup delete) := by
  refine bind get fun s => ?_
  split
  · exact pure _
  · exact bind (modifyEditor fun _ => rfl) fun _ => afterTextChange setup

theorem copyText (copied : Text) : KeepsPresses (Session.copyText copied) :=
  bind get fun _ => ite (modify (fun _ => rfl) fun _ => rfl) (note rfl rfl)

theorem paste (setup : Setup) : KeepsPresses (Session.paste setup) :=
  bind get fun _ => ite (insertText setup _) (note rfl rfl)

theorem browse (setup : Setup) (go : History → Option History) :
    KeepsPresses (Session.browse setup go) := by
  refine bind get fun s => ?_
  split
  · exact pure _
  · exact bind (modifyEditor fun _ => rfl) fun _ => redraw setup true

theorem moveWith (setup : Setup) (move : Buffer → Buffer) : KeepsPresses (Session.moveWith setup move) :=
  bind (modifyEditor fun _ => rfl) fun _ => redraw setup false

theorem moveUp (setup : Setup) : KeepsPresses (Session.moveUp setup) :=
  bind get fun _ => ite (browse setup _) (moveWith setup _)

theorem moveDown (setup : Setup) : KeepsPresses (Session.moveDown setup) :=
  bind get fun _ => ite (browse setup _) (moveWith setup _)

theorem clearScreen (setup : Setup) : KeepsPresses (Session.clearScreen setup) :=
  bind (drawAll setup _) fun _ => bind (modifyEditor fun _ => rfl) fun _ => redraw setup false

theorem submit (setup : Setup) : KeepsPresses (Session.submit setup) := by
  have hrecord : KeepsPresses (recordSubmission setup) :=
    bind get fun _ => bind (modifyEditor fun _ => rfl) fun _ => bind (note rfl rfl) fun _ =>
      bind (redraw setup true) fun _ => bind (drawAll setup _) fun _ => note rfl rfl
  have hhandOver (command : Text) : KeepsPresses (handOver command) :=
    bind (modifyEditor fun _ => rfl) fun _ => bind (publish _) fun _ => pure _
  exact bind get fun _ => bind hrecord fun _ => hhandOver _

theorem interrupt (setup : Setup) : KeepsPresses (Session.interrupt setup) := by
  refine bind (redraw setup true) fun _ => bind get fun _ => ite (map _ close) ?_
  exact bind (note rfl rfl) fun _ => bind (modifyEditor fun _ => rfl) fun _ =>
    bind (showPrompt setup true) fun _ => pure _

theorem enter (setup : Setup) : KeepsPresses (Session.enter setup) :=
  bind get fun _ => ite (map _ (submit setup)) (bind (insertText setup _) fun _ => pure _)

theorem runAction (setup : Setup) (action : Action) : KeepsPresses (Session.runAction setup action) := by
  cases action with
  | enter => exact enter setup
  | tab | copy => exact pure _
  | insertNewline | insert => exact seqRight (insertText setup _) (pure _)
  | paste => exact seqRight (paste setup) (pure _)
  | up => exact seqRight (moveUp setup) (pure _)
  | down => exact seqRight (moveDown setup) (pure _)
  | left | right | lineStart | lineEnd => exact seqRight (moveWith setup _) (pure _)
  | backspace | delete => exact seqRight (deleteWith setup _) (pure _)
  | clearScreen => exact seqRight (clearScreen setup) (pure _)
  | interrupt => exact interrupt setup
  | exit => exact map _ close

end KeepsPresses

def Resolution.ofOutcome : DoublePress.Outcome → List Resolution
  | .double key => [double key]
  | .armed flushed => flushed.toList.map single

/-- What a key for `action` at the time `now` acts on when `d` is pending, and what is pending then. A
key without an action leaves everything as it is. -/
def settlement (setup : Setup) (d : DoublePress) (now : Nat) :
    Option Action → List Resolution × DoublePress
  | none => ([], d)
  | some action =>
    match action.twiceKey? with
    | none => (d.keys.map .single, none)
    | some key =>
      let (outcome, pending) := d.press key now (setup.config.window key)
      (Resolution.ofOutcome outcome, pending)

/-- The action for which a session takes a key press, if it listens. -/
def accepted? (s : Session) (p : KeyPress) : Option Action :=
  if s.editor.isListening then Action.ofPress? p else none

theorem ends_noted {α : Type} {n : Notice} {r : Resolution} (hn : Resolution.ofNotice? n = some r)
    (ha : actionOfNotice? n = none) {m : Unit → Act α} (hm : ∀ a, KeepsPresses (m a)) (s : Session) :
    Ends (note n >>= m) s (fun _ => Resolved [r] s.editor.presses s)
      (Resolved [r] s.editor.presses s) := by
  rw [ends_bind, ends_note]
  exact (hm ()).after ⟨rfl, by simp [resolutions, hn], by simp [actions, ha]⟩

theorem ends_runSingle_resolved (setup : Setup) (key : TwiceKey) (s : Session) :
    Ends (runSingle setup key) s (fun _ => Resolved [.single key] s.editor.presses s)
      (Resolved [.single key] s.editor.presses s) := by
  refine ends_noted rfl rfl (fun _ => ?_) s
  cases key with
  | tab => exact .bind (.reindentLine setup) fun _ => .afterTextChange setup
  | copy => exact .bind .get fun _ => .copyText _

theorem ends_runDouble_resolved (setup : Setup) (key : TwiceKey) (s : Session) :
    Ends (runDouble setup key) s (fun _ => Resolved [.double key] s.editor.presses s)
      (Resolved [.double key] s.editor.presses s) := by
  refine ends_noted rfl rfl (fun _ => ?_) s
  cases key with
  | tab => exact .bind (.reindentAll setup) fun _ => .afterTextChange setup
  | copy => exact .bind .get fun _ => .copyText _

theorem ends_settle_resolved (setup : Setup) (s : Session) :
    Ends (settle setup) s (fun _ => Resolved (s.editor.presses.keys.map .single) none s)
      (Resolved (s.editor.presses.keys.map .single) none s) := by
  rw [settle, ends_bind, ends_get]
  cases hp : s.editor.presses with
  | none => exact ⟨hp, (List.append_nil _).symm, rfl⟩
  | some p =>
    exact (ends_runSingle_resolved setup p.key _).imp fun h => h.of_notices rfl

theorem ends_pressTwiceKey_resolved (setup : Setup) (key : TwiceKey) (s : Session) :
    let r := s.editor.presses.press key s.now (setup.config.window key)
    Ends (pressTwiceKey setup key) s (fun _ => Resolved (Resolution.ofOutcome r.1) r.2 s)
      (Resolved (Resolution.ofOutcome r.1) r.2 s) := by
  rw [pressTwiceKey, ends_bind, ends_get]
  rcases s.editor.presses.press key s.now (setup.config.window key) with ⟨outcome, presses⟩
  simp only [ends_bind, ends_modifyEditor]
  cases outcome with
  | double k => exact (ends_runDouble_resolved setup k _).imp fun h => h.of_notices rfl
  | armed flushed =>
    cases flushed with
    | none => exact ⟨rfl, by simp [resolutions, Resolution.ofOutcome], rfl⟩
    | some k => exact (ends_runSingle_resolved setup k _).imp fun h => h.of_notices rfl

theorem ends_applyAction_resolved (setup : Setup) (action : Action) (s : Session) :
    let r := settlement setup s.editor.presses s.now (some action)
    Ends (applyAction setup action) s (fun _ => Resolved r.1 r.2 s) (Resolved r.1 r.2 s) := by
  have hsettled : Ends (settle setup >>= fun _ => runAction setup action) s
      (fun _ => Resolved (s.editor.presses.keys.map .single) none s)
      (Resolved (s.editor.presses.keys.map .single) none s) := by
    rw [ends_bind]
    exact (ends_settle_resolved setup s).mono
      (fun _ _ h => (KeepsPresses.runAction setup action).after h) fun _ => id
  cases action with
  | tab => exact (ends_seqRight _ _ _).mpr (ends_pressTwiceKey_resolved setup .tab s)
  | copy => exact (ends_seqRight _ _ _).mpr (ends_pressTwiceKey_resolved setup .copy s)
  | _ => exact hsettled

def taking (s : Session) (action : Option Action) : Session :=
  { s with notices := s.notices ++ action.toList.map .keyPress }

theorem ends_handleKey_resolved (setup : Setup) (p : KeyPress) (s : Session) :
    let r := settlement setup s.editor.presses s.now (s.accepted? p)
    Ends (handleKey setup p) s (fun _ => Resolved r.1 r.2 (s.taking (s.accepted? p)))
      (Resolved r.1 r.2 (s.taking (s.accepted? p))) := by
  have hnone : Unpressed (s.taking none) s := unpressed_of_eq rfl (List.append_nil _).symm
  rw [handleKey, ends_bind, ends_get, accepted?]
  split
  · cases Action.ofPress? p with
    | none => exact hnone
    | some action =>
      rw [ends_bind, ends_note]
      exact ends_applyAction_resolved setup action _
  · exact hnone

theorem taking_resolutions (s : Session) (action : Option Action) :
    (s.taking action).resolutions = s.resolutions := by
  cases action <;> simp [resolutions, taking, Resolution.ofNotice?]

theorem taking_actions (s : Session) (action : Option Action) :
    (s.taking action).actions = s.actions ++ action.toList := by
  cases action <;> simp [actions, taking, actionOfNotice?]

def Resolution.run (setup : Setup) : Resolution → Act Unit
  | single key => runSingle setup key
  | double key => runDouble setup key

def Resolution.runAll (setup : Setup) : List Resolution → Act Unit
  | [] => pure ()
  | r :: rs => do
    r.run setup
    runAll setup rs

theorem Resolution.runAll_singleton (setup : Setup) (r : Resolution) :
    runAll setup [r] = r.run setup := bind_pure_unit

def pending (s : Session) (d : DoublePress) : Session := { s with editor.presses := d }

theorem settle_eq (setup : Setup) (s : Session) : settle setup s =
    Resolution.runAll setup (s.editor.presses.keys.map .single) (s.pending none) := by
  rw [settle, get_bind]
  cases hp : s.editor.presses with
  | none =>
    have hsame : s.pending none = s := by
      rw [← hp]
      rfl
    rw [hsame]
    rfl
  | some p =>
    change _ = Resolution.runAll setup [.single p.key] _
    rw [Resolution.runAll_singleton]
    rfl

theorem pressTwiceKey_eq (setup : Setup) (key : TwiceKey) (s : Session) :
    let r := s.editor.presses.press key s.now (setup.config.window key)
    pressTwiceKey setup key s =
      Resolution.runAll setup (Resolution.ofOutcome r.1) (s.pending r.2) := by
  rw [pressTwiceKey, get_bind]
  rcases s.editor.presses.press key s.now (setup.config.window key) with ⟨outcome, presses⟩
  cases outcome with
  | double k => exact congrFun (Resolution.runAll_singleton setup (.double k)).symm _
  | armed flushed =>
    cases flushed with
    | none => rfl
    | some k => exact congrFun (Resolution.runAll_singleton setup (.single k)).symm _

theorem bind_congr_of_eq {α : Type} {m n : Act Unit} (h : m s = n t) (f : Unit → Act α) :
    (m >>= f) s = (n >>= f) t := by
  simp only [bind, EStateM.bind, h]

theorem applyAction_eq (setup : Setup) (action : Action) (s : Session) :
    let r := settlement setup s.editor.presses s.now (some action)
    ∃ rest, KeepsPresses rest ∧ applyAction setup action s =
      (Resolution.runAll setup r.1 >>= fun _ => rest) (s.pending r.2) := by
  have htwice (key : TwiceKey) := bind_congr_of_eq (pressTwiceKey_eq setup key s)
    fun _ => (pure none : Act (Option Event))
  have hother (action : Action) := bind_congr_of_eq (settle_eq setup s) fun _ => runAction setup action
  have hkept := KeepsPresses.runAction setup
  cases action with
  | tab => exact ⟨pure none, .pure none, htwice .tab⟩
  | copy => exact ⟨pure none, .pure none, htwice .copy⟩
  | _ => exact ⟨_, hkept _, hother _⟩

theorem accepted?_eq_some {p : KeyPress} {action : Action} :
    s.accepted? p = some action ↔ s.editor.isListening = true ∧ Action.ofPress? p = some action := by
  simp [accepted?]

theorem handleKey_of_not_accepted {p : KeyPress} (h : s.accepted? p = none) :
    handleKey setup p s = .ok none s := by
  cases hp : Action.ofPress? p with
  | none => exact handleKey_of_none hp
  | some action =>
    have hl : ¬ s.editor.isListening = true := by
      simpa [accepted?, hp] using h
    rw [handleKey, get_bind, if_neg hl]
    rfl

theorem taking_none (s : Session) : s.taking none = s := by
  simp [taking]

/-- A key runs what the notices of the presses that it settles announce, and then what acts on none. -/
theorem handleKey_eq (setup : Setup) (p : KeyPress) (s : Session) :
    let r := settlement setup s.editor.presses s.now (s.accepted? p)
    ∃ rest, KeepsPresses rest ∧ handleKey setup p s =
      (Resolution.runAll setup r.1 >>= fun _ => rest) ((s.taking (s.accepted? p)).pending r.2) := by
  intro r
  cases haccepted : s.accepted? p with
  | none =>
    have hr : r = ([], s.editor.presses) := by
      simp only [r, haccepted, settlement]
    refine ⟨pure none, .pure none, ?_⟩
    rw [hr, taking_none, handleKey_of_not_accepted haccepted]
    rfl
  | some action =>
    have hr : r = settlement setup s.editor.presses s.now (some action) := by
      simp only [r, haccepted]
    obtain ⟨hl, hp⟩ := accepted?_eq_some.mp haccepted
    obtain ⟨rest, hrest, hrun⟩ := applyAction_eq setup action (s.taking (some action))
    rw [hr]
    exact ⟨rest, hrest, (handleKey_of_action hl hp).trans hrun⟩

theorem flatMap_keys_single (ks : List TwiceKey) :
    (ks.map Resolution.single).flatMap Resolution.keys = ks := by
  simp [List.flatMap_map, Resolution.keys]

theorem press_balanced (d : DoublePress) (key : TwiceKey) (now window : Nat) :
    let r := d.press key now window
    d.keys ++ [key] = (Resolution.ofOutcome r.1).flatMap Resolution.keys ++ r.2.keys := by
  cases d with
  | none => rfl
  | some p =>
    rw [DoublePress.press]
    split
    · rename_i hsecond
      rw [← hsecond.1]
      rfl
    · rfl

theorem settlement_balanced (setup : Setup) (d : DoublePress) (now : Nat) (action : Option Action) :
    let r := settlement setup d now action
    d.keys ++ (action.bind Action.twiceKey?).toList = r.1.flatMap Resolution.keys ++ r.2.keys := by
  cases action with
  | none => exact List.append_nil _
  | some action =>
    simp only [settlement, Option.bind_some]
    cases action.twiceKey? with
    | none => exact congrArg (· ++ []) (flatMap_keys_single d.keys).symm
    | some key => exact press_balanced d key now _

/-- A press completes the one that is pending, or it is pending itself. -/
theorem press_cases (d : DoublePress) (key : TwiceKey) (now window : Nat) :
    (∃ p, d = some p ∧ p.key = key ∧ now ≤ p.deadline ∧
      d.press key now window = (.double key, none)) ∨
    ∃ flushed, d.press key now window = (.armed flushed, some ⟨key, now + window⟩) := by
  cases d with
  | none => exact .inr ⟨none, rfl⟩
  | some p =>
    by_cases hsecond : p.key = key ∧ now ≤ p.deadline
    · exact .inl ⟨p, rfl, hsecond.1, hsecond.2, if_pos hsecond⟩
    · exact .inr ⟨some p.key, if_neg hsecond⟩

/-- Presses are acted on as a double one only by the second of them, before the deadline of the first. -/
theorem settlement_double {now : Nat} {action : Option Action}
    (h : .double key ∈ (settlement setup d now action).1) :
    action.bind Action.twiceKey? = some key ∧ ∃ p, d = some p ∧ p.key = key ∧ now ≤ p.deadline := by
  cases action with
  | none => cases h
  | some action =>
    simp only [settlement, Option.bind_some] at h ⊢
    cases htwice : action.twiceKey? with
    | none => simp [htwice] at h
    | some pressed =>
      simp only [htwice] at h
      rcases press_cases d pressed now (setup.config.window pressed) with
        ⟨p, hd, hkey, hdeadline, hpress⟩ | ⟨flushed, hpress⟩
      · obtain rfl : key = pressed := by simpa [hpress, Resolution.ofOutcome] using h
        exact ⟨rfl, p, hd, hkey, hdeadline⟩
      · simp [hpress, Resolution.ofOutcome] at h

/-- What is pending after a key was pending before it, or is the press of the key. -/
theorem settlement_pending {now : Nat} {action : Option Action} {p : Pending}
    (h : (settlement setup d now action).2 = some p) :
    action = none ∧ d = some p ∨
      action.bind Action.twiceKey? = some p.key ∧ p.deadline = now + setup.config.window p.key := by
  cases action with
  | none => exact .inl ⟨rfl, h⟩
  | some action =>
    simp only [settlement, Option.bind_some] at h ⊢
    cases htwice : action.twiceKey? with
    | none => simp [htwice] at h
    | some pressed =>
      simp only [htwice] at h
      rcases press_cases d pressed now (setup.config.window pressed) with
        ⟨_, _, _, _, hpress⟩ | ⟨flushed, hpress⟩
      · simp [hpress] at h
      · obtain rfl : p = ⟨pressed, now + setup.config.window pressed⟩ := by
          simpa [hpress] using h.symm
        exact .inr ⟨rfl, rfl⟩

end Session
end Promptline
