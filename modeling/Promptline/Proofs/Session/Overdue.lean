import Promptline.Proofs.Session.Coupling
import Promptline.Proofs.Session.Drawing
import Promptline.Proofs.Session.Invariant

/-!
Pending presses and their deadlines, when no call fails. A press whose deadline has passed can be
settled by its deadline or by the next key for an action: that makes no difference after this key,
and neither way a press stays pending beyond its deadline.
-/

set_option autoImplicit false

namespace Promptline.Session

open Keys Terminal

variable {setup : Setup} {s s' : Session} {f : Feed}

abbrev AnyChar (_ : Char) : Prop := True

theorem within_any (s : Session) : Within AnyChar s :=
  ⟨fun _ _ => trivial, fun _ _ => ⟨fun _ _ => trivial, fun _ _ => trivial⟩, fun _ _ => trivial⟩

theorem coupling_of_quiet {A : Aside → Aside → Prop} (hquiet : ∀ n, setup.fails n = false)
    (hnoted : ∀ {a a' : Aside} (n : Log.Notice), A a a' →
      A { a with notices := a.notices ++ [n] } { a' with notices := a'.notices ++ [n] })
    (hdrew : ∀ {a a' : Aside} (c : Call), A a a' →
      A { a with drawn := a.drawn ++ [c] } { a' with drawn := a'.drawn ++ [c] }) :
    Coupling False AnyChar A setup setup := by
  have hdraw (c : Call) : Agree False AnyChar A (draw setup c) (draw setup c) := by
    intro s s' hs _
    rw [draw_ok hquiet, draw_ok hquiet]
    refine .ok ⟨?_, hdrew c hs.aside⟩ (within_any _)
    rw [hs.rest]
    rfl
  have hview (v : View) (width : Nat) := agree_drawAll_same hdraw (v.calls width)
  refine ⟨rfl, trivial, fun _ _ => trivial, fun n s s' hs _ => ?_, hdraw,
    agree_redraw rfl hdraw fun _ _ _ _ _ _ => hview _ _⟩
  refine .ok ⟨?_, hnoted n hs.aside⟩ (within_any _)
  rw [hs.rest]
  rfl

/-- The same but for the keys to come, which are `f`, and the notices. -/
def Level (f : Feed) (a a' : Aside) : Prop := a' = { a with feed := f, notices := a'.notices }

theorem level_iff :
    Beside (Level f) s s' ↔ s' = { s with feed := f, notices := s'.notices } := by
  constructor
  · intro h
    have hrest := h.rest
    rw [h.aside] at hrest
    exact hrest
  · intro h
    constructor <;> rw [h] <;> rfl

theorem level_synchrony (hquiet : ∀ n, setup.fails n = false) (f : Feed) :
    Synchrony False AnyChar (Level f) setup setup where
  toCoupling := coupling_of_quiet hquiet
    (fun _ h => by rw [h]; rfl) fun _ h => by rw [h]; rfl
  presses h := by rw [h]
  now h := by rw [h]
  pressed _ h := by rw [h]; rfl

theorem level_refl (s : Session) : Beside (Level s.feed) s s := ⟨rfl, rfl⟩

theorem level_trans {a b c : Session} {g : Feed} (h : Beside (Level f) a b)
    (h' : Beside (Level g) b c) : Beside (Level g) a c := by
  rw [level_iff] at h h' ⊢
  rw [h', h]

def moved (s : Session) (d : DoublePress) (n : Nat) (f : Feed) : Session :=
  { s with editor := { s.editor with presses := d }, now := n, feed := f }

/-- The same but for what is pending, the time and the keys to come. -/
def Elsewhere (d : DoublePress) (n : Nat) (f : Feed) (a a' : Aside) : Prop :=
  a' = { a with presses := d, now := n, feed := f }

theorem elsewhere_coupling (hquiet : ∀ n, setup.fails n = false) (d : DoublePress) (n : Nat)
    (f : Feed) : Coupling False AnyChar (Elsewhere d n f) setup setup :=
  coupling_of_quiet hquiet (fun _ h => by rw [h]; rfl) fun _ h => by rw [h]; rfl

/-- What runs alike elsewhere stays where it is. -/
theorem ends_in_place {α : Type} {m : Act α} (h : ∀ d n f, Agree False AnyChar (Elsewhere d n f) m m)
    (s : Session) : Ends m s (fun _ t => t.editor.presses = s.editor.presses ∧ t.now = s.now)
      fun _ => False := by
  have hmeets := h s.editor.presses s.now s.feed s s ⟨rfl, rfl⟩ (within_any s)
  obtain ⟨x, t, t', ht, ht', hb⟩ := hmeets.exists_ok
  have hplace := hb.aside
  cases ht.symm.trans ht'
  exact ends_of_ok ht ⟨congrArg Aside.presses hplace, congrArg Aside.now hplace⟩

def single (setup : Setup) (key : TwiceKey) (s : Session) : Session :=
  ending (runSingle setup key) s

theorem runSingle_eq (hquiet : ∀ n, setup.fails n = false) (key : TwiceKey) (s : Session) :
    runSingle setup key s = .ok () (single setup key s) := by
  obtain ⟨_, t, _, ht, -, -⟩ :=
    ((level_synchrony hquiet s.feed).runSingle key s s (level_refl s) (within_any s)).exists_ok
  rw [single, ending, ht]

theorem single_level (hquiet : ∀ n, setup.fails n = false) (key : TwiceKey)
    (h : Beside (Level f) s s') : Beside (Level f) (single setup key s) (single setup key s') := by
  have hmeets := (level_synchrony hquiet f).runSingle key s s' h (within_any s)
  obtain ⟨_, t, t', ht, ht', hb⟩ := hmeets.exists_ok
  simpa only [single, ending, ht, ht'] using hb

/-- A single press neither reads nor changes when it happens and what is pending then. -/
theorem single_moved (hquiet : ∀ n, setup.fails n = false) (key : TwiceKey) (s : Session)
    (d : DoublePress) (n : Nat) (f : Feed) :
    single setup key (s.moved d n f) = (single setup key s).moved d n f := by
  have hbeside : Beside (Elsewhere d n f) s (s.moved d n f) := ⟨rfl, rfl⟩
  have hmeets := (elsewhere_coupling hquiet d n f).runSingle key _ _ hbeside (within_any s)
  obtain ⟨_, t, t', ht, ht', hb⟩ := hmeets.exists_ok
  have hrest := hb.rest
  rw [hb.aside] at hrest
  simp only [single, ending, ht, ht']
  exact hrest

theorem settle_of_some (hquiet : ∀ n, setup.fails n = false) {p : Pending}
    (hp : s.editor.presses = some p) :
    settle setup s = .ok () ((single setup p.key s).moved none s.now s.feed) := by
  rw [settle, get_bind, hp, ← single_moved hquiet]
  exact runSingle_eq hquiet p.key _

def Overdue (p : Pending) (s : Session) : Prop := s.editor.presses = some p ∧ p.deadline < s.now

def Punctual (s : Session) : Prop := ∀ p, ¬Overdue p s

theorem overdue_or_punctual (s : Session) : (∃ p, Overdue p s) ∨ Punctual s := by
  by_cases hdue : ∃ p, Overdue p s
  · exact .inl hdue
  · exact .inr fun p hp => hdue ⟨p, hp⟩

theorem punctual_of_none (h : s.editor.presses = none) : Punctual s := by
  rintro p ⟨hp, -⟩
  cases h.symm.trans hp

def caughtUp (setup : Setup) (s : Session) : Session :=
  match s.editor.presses with
  | none => s
  | some p => if p.deadline < s.now then ending (settle setup) s else s

theorem caughtUp_of_overdue (hquiet : ∀ n, setup.fails n = false) {p : Pending} (h : Overdue p s) :
    caughtUp setup s = (single setup p.key s).moved none s.now s.feed := by
  simp only [caughtUp, h.1, if_pos h.2, ending, settle_of_some hquiet h.1]

theorem caughtUp_of_punctual (h : Punctual s) : caughtUp setup s = s := by
  unfold caughtUp
  split
  · rfl
  · rename_i p hp
    exact if_neg fun hd => h p ⟨hp, hd⟩

theorem punctual_caughtUp (hquiet : ∀ n, setup.fails n = false) (s : Session) :
    Punctual (caughtUp setup s) := by
  obtain ⟨p, hp⟩ | hs := overdue_or_punctual s
  · rw [caughtUp_of_overdue hquiet hp]
    exact punctual_of_none rfl
  · rwa [caughtUp_of_punctual hs]

theorem caughtUp_level (hquiet : ∀ n, setup.fails n = false) (h : Beside (Level f) s s') :
    Beside (Level f) (caughtUp setup s) (caughtUp setup s') := by
  have hs' := level_iff.mp h
  obtain ⟨p, hp⟩ | hpunctual := overdue_or_punctual s
  · have hp' : Overdue p s' := by
      rw [hs']
      exact hp
    have hsingle := level_iff.mp (single_level hquiet p.key h)
    rw [caughtUp_of_overdue hquiet hp, caughtUp_of_overdue hquiet hp', level_iff, hsingle, hs']
    rfl
  · have hpunctual' : Punctual s' := by
      rw [hs']
      exact hpunctual
    rwa [caughtUp_of_punctual hpunctual, caughtUp_of_punctual hpunctual']

theorem caughtUp_frame (hquiet : ∀ n, setup.fails n = false) (s : Session) :
    (caughtUp setup s).now = s.now ∧ (caughtUp setup s).feed = s.feed ∧
      (caughtUp setup s).editor.isListening = s.editor.isListening := by
  obtain ⟨p, hp⟩ | hpunctual := overdue_or_punctual s
  · rw [caughtUp_of_overdue hquiet hp]
    have hlistening := (ends_runSingle_frame setup p.key).of_ok (runSingle_eq hquiet p.key s)
    exact ⟨rfl, rfl, hlistening.1⟩
  · rw [caughtUp_of_punctual hpunctual]
    exact ⟨rfl, rfl, rfl⟩

/-- It makes no difference at a later moment whether an overdue press has been settled before. -/
theorem caughtUp_later (hquiet : ∀ n, setup.fails n = false) {n : Nat} (hn : s.now ≤ n) (f : Feed) :
    caughtUp setup { caughtUp setup s with now := n, feed := f } =
      caughtUp setup { s with now := n, feed := f } := by
  obtain ⟨p, hp⟩ | hpunctual := overdue_or_punctual s
  · have hlater : Overdue p { s with now := n, feed := f } := ⟨hp.1, Nat.lt_of_lt_of_le hp.2 hn⟩
    have hsingle := single_moved hquiet p.key s s.editor.presses n f
    rw [caughtUp_of_overdue hquiet hp, caughtUp_of_punctual (punctual_of_none rfl),
      caughtUp_of_overdue hquiet hlater]
    exact (congrArg (fun t => moved t none n f) hsingle).symm
  · rw [caughtUp_of_punctual hpunctual]

/-- Taking a key lets the time pass until it comes and settles a press that is overdue by then. -/
theorem takeKey_eq (hquiet : ∀ n, setup.fails n = false) (hf : s.feed.arrival = none) (delay : Nat)
    (rest : List (Nat × KeyPress)) :
    takeKey setup delay rest s =
      .ok () (caughtUp setup { s with now := s.now + delay, feed := ⟨rest, none⟩ }) := by
  have harrival : arrivalTime delay s = s.now + delay := by simp [arrivalTime, hf]
  let later : Session := { s with now := s.now + delay, feed := ⟨rest, none⟩ }
  suffices htaken : Ends (takeKey setup delay rest) s
      (fun _ s' => s' = caughtUp setup later) fun _ => False by
    obtain ⟨_, _, ht, rfl⟩ := htaken.exists_ok
    exact ht
  simp only [takeKey, await, passTime, ends_bind, ends_get, ends_modify, harrival]
  cases hp : s.editor.presses with
  | none =>
    rw [caughtUp_of_punctual (s := later) (punctual_of_none hp)]
    simp [DoublePress.deadline?, later]
  | some p =>
    simp only [DoublePress.deadline?, Option.map_some]
    split
    · rename_i hdue
      have hover : Overdue p later := ⟨hp, hdue⟩
      -- The press is settled at its deadline, but a single press does not see when that is.
      let waiting : Session := { s with
        now := max s.now p.deadline, feed.arrival := some (s.now + delay) }
      have hwaiting : single setup p.key waiting = _ := single_moved hquiet p.key s _ _ _
      have hlater : single setup p.key later = _ := single_moved hquiet p.key s _ _ _
      have hnow : max (max s.now p.deadline) (s.now + delay) = s.now + delay := by omega
      simp only [ends_bind, ends_modify]
      refine ends_of_ok (settle_of_some hquiet (s := waiting) hp) ?_
      rw [caughtUp_of_overdue hquiet hover, hwaiting, hlater]
      change moved _ none (max (max s.now p.deadline) (s.now + delay)) ⟨rest, none⟩ = _
      rw [hnow]
      rfl
    · rename_i hdue
      have hpunctual : Punctual later := by
        rintro q ⟨hq, hd⟩
        cases hp.symm.trans hq
        exact hdue hd
      rw [caughtUp_of_punctual hpunctual]
      simp [later]

theorem Overdue.press {p : Pending} (h : Overdue p s) (key : TwiceKey) (window : Nat) :
    s.editor.presses.press key s.now window =
      (.armed (some p.key), some ⟨key, s.now + window⟩) := by
  have hlate : ¬(p.key = key ∧ s.now ≤ p.deadline) := fun hk => by
    have hdue := h.2
    omega
  rw [h.1, DoublePress.press, if_neg hlate]

/-- A press settles one that is overdue, whichever of the two keys it is. -/
theorem pressTwiceKey_overdue (hquiet : ∀ n, setup.fails n = false) {p : Pending}
    (hp : Overdue p s) (hb : Beside (Level f) (caughtUp setup s) s') (key : TwiceKey) :
    Meets False AnyChar (Level f) (pressTwiceKey setup key s) (pressTwiceKey setup key s') := by
  let new : DoublePress := some ⟨key, s.now + setup.config.window key⟩
  rw [caughtUp_of_overdue hquiet hp, level_iff] at hb
  have hsettled : pressTwiceKey setup key s =
      .ok () ((single setup p.key s).moved new s.now s.feed) := by
    rw [pressTwiceKey, get_bind, hp.press, ← single_moved hquiet]
    exact runSingle_eq hquiet p.key _
  have harmed : pressTwiceKey setup key s' =
      .ok () { s' with editor := { s'.editor with presses := new } } := by
    rw [hb]
    rfl
  rw [hsettled, harmed]
  refine .ok ?_ (within_any _)
  rw [level_iff, hb]
  rfl

theorem applyAction_overdue (hquiet : ∀ n, setup.fails n = false) {p : Pending}
    (hp : Overdue p s) (hb : Beside (Level f) (caughtUp setup s) s') (action : Action) :
    Meets False AnyChar (Level f) (applyAction setup action s) (applyAction setup action s') := by
  have hsettle : Meets False AnyChar (Level f) (settle setup s) (settle setup s') := by
    have hnone : s'.editor.presses = none := by
      rw [caughtUp_of_overdue hquiet hp, level_iff] at hb
      rw [hb]
      rfl
    rw [settle_of_some hquiet hp.1, settle_none setup hnone, ← caughtUp_of_overdue hquiet hp]
    exact .ok hb (within_any _)
  have hsettled := hsettle.bind fun _ =>
    (level_synchrony hquiet f).runAction action fun _ _ _ _ => trivial
  cases action with
  | tab => exact (pressTwiceKey_overdue hquiet hp hb .tab).seqRight (agree_pure _)
  | copy => exact (pressTwiceKey_overdue hquiet hp hb .copy).seqRight (agree_pure _)
  | _ => exact hsettled

/-- A key for an action makes up for a press that has not been settled in time. -/
theorem handleKey_caughtUp (hquiet : ∀ n, setup.fails n = false)
    (hl : s.editor.isListening = true) {p : KeyPress} {action : Action}
    (ha : Action.ofPress? p = some action) (hb : Beside (Level f) (caughtUp setup s) s') :
    Meets False AnyChar (Level f) (handleKey setup p s) (handleKey setup p s') := by
  obtain ⟨q, hq⟩ | hpunctual := overdue_or_punctual s
  · let noted : Session := { s with notices := s.notices ++ [.keyPress action] }
    have hs' := level_iff.mp hb
    have hl' : s'.editor.isListening = true := by
      rw [hs']
      exact (caughtUp_frame hquiet s).2.2.trans hl
    have hnoted : Beside (Level s.feed) noted s := ⟨rfl, rfl⟩
    have hboth := level_trans (caughtUp_level hquiet hnoted) hb
    have hnoted' : Beside (Level f) (caughtUp setup noted)
        { s' with notices := s'.notices ++ [.keyPress action] } := by
      rw [level_iff] at hboth ⊢
      rw [hboth]
    rw [handleKey_of_action hl ha, handleKey_of_action hl' ha]
    exact applyAction_overdue hquiet (s := noted) hq hnoted' action
  · rw [caughtUp_of_punctual hpunctual] at hb
    exact (level_synchrony hquiet f).handleKey (fun _ _ _ _ => trivial) s s' hb (within_any s)

theorem ends_settle (hquiet : ∀ n, setup.fails n = false) (s : Session) :
    Ends (settle setup) s (fun _ t => t.editor.presses = none) fun _ => False := by
  cases hp : s.editor.presses with
  | none => exact ends_of_ok (settle_none setup hp) hp
  | some p => exact ends_of_ok (settle_of_some hquiet hp) rfl

theorem press_deadline {d d' : DoublePress} {key : TwiceKey} {now window : Nat}
    {outcome : DoublePress.Outcome} {p : Pending} (h : d.press key now window = (outcome, d'))
    (hp : d' = some p) : now ≤ p.deadline := by
  have hnew : d' = none ∨ d' = some ⟨key, now + window⟩ := by
    unfold DoublePress.press at h
    split at h
    · exact .inr (congrArg Prod.snd h).symm
    · split at h
      · exact .inl (congrArg Prod.snd h).symm
      · exact .inr (congrArg Prod.snd h).symm
  obtain hnone | hnew := hnew
  · cases hnone.symm.trans hp
  · cases hnew.symm.trans hp
    exact Nat.le_add_right now window

theorem ends_pressTwiceKey (hquiet : ∀ n, setup.fails n = false) (key : TwiceKey) (s : Session) :
    Ends (pressTwiceKey setup key) s (fun _ => Punctual) fun _ => False := by
  have hcoupling (d : DoublePress) (n : Nat) (f : Feed) := elsewhere_coupling hquiet d n f
  rw [pressTwiceKey, ends_bind, ends_get]
  rcases hpress : s.editor.presses.press key s.now (setup.config.window key) with ⟨outcome, new⟩
  let armed : Session := { s with editor := { s.editor with presses := new } }
  have hpunctual {t : Session} (ht : t.editor.presses = new ∧ t.now = s.now) : Punctual t := by
    rintro p ⟨hp, hd⟩
    have hle := press_deadline hpress (ht.1.symm.trans hp)
    omega
  have hrun {m : Act Unit} (h : ∀ d n f, Agree False AnyChar (Elsewhere d n f) m m) :
      Ends m armed (fun _ => Punctual) fun _ => False :=
    (ends_in_place h armed).mono (fun _ _ ht => hpunctual ht) fun _ => id
  simp only [ends_bind, ends_modifyEditor]
  cases outcome with
  | double k => exact hrun fun d n f => (hcoupling d n f).runDouble k
  | armed flushed =>
    cases flushed with
    | none => exact hpunctual ⟨rfl, rfl⟩
    | some k => exact hrun fun d n f => (hcoupling d n f).runSingle k

theorem ends_applyAction_punctual (hquiet : ∀ n, setup.fails n = false) (action : Action)
    (s : Session) : Ends (applyAction setup action) s (fun _ => Punctual) fun _ => False := by
  refine ends_applyAction_of_settled (fun key => ends_pressTwiceKey hquiet key s) ?_
  refine (ends_settle hquiet s).mono (fun _ a ha => ?_) fun _ => id
  have hplace := ends_in_place (fun d n f =>
    (elsewhere_coupling hquiet d n f).runAction action fun _ _ _ _ => trivial) a
  exact hplace.mono (fun _ t ht => punctual_of_none (ht.1.trans ha)) fun _ => id

/-- A key leaves no press that is overdue. -/
theorem ends_handleKey_punctual (hquiet : ∀ n, setup.fails n = false) (hs : Punctual s)
    (p : KeyPress) : Ends (handleKey setup p) s (fun _ => Punctual) fun _ => False := by
  cases ha : Action.ofPress? p with
  | none => exact ends_of_ok (handleKey_of_none ha) hs
  | some action =>
    rw [handleKey, ends_bind, ends_get, ha]
    split
    · exact (ends_bind _ _ _).mpr (ends_applyAction_punctual hquiet action _)
    · exact hs

end Promptline.Session
