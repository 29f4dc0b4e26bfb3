import Promptline.Proofs.Session.Awaiting
import Promptline.Proofs.Session.Overdue
import Promptline.Proofs.Session.Presses

/-!
The presses of a run. A run is cut into turns, the keys that the session is given and the deadlines
that pass meanwhile. After any number of them the presses made so far are those that have been acted on,
in the same order, followed by the one that is pending.
-/

set_option autoImplicit false

namespace Promptline.Session

open Keys

/-- A key that a session is given, or the deadline of its pending press when no key is. -/
structure Turn where
  press? : Option KeyPress
  before : Session

namespace Turn

def after (setup : Setup) (t : Turn) : Session :=
  match t.press? with
  | some p => ending (handleKey setup p) t.before
  | none => ending (settle setup) t.before

def action? (t : Turn) : Option Action := t.press?.bind t.before.accepted?

def key? (t : Turn) : Option TwiceKey := t.action?.bind Action.twiceKey?

/-- How presses are acted on in this turn. -/
def resolutions (setup : Setup) (t : Turn) : List Resolution :=
  (t.after setup).resolutions.drop t.before.resolutions.length

def Unmapped (t : Turn) : Prop := ∃ p, t.press? = some p ∧ Action.ofPress? p = none

end Turn

def dueTurn (arrival : Nat) (s : Session) : List Turn :=
  match s.editor.presses.deadline? with
  | none => []
  | some deadline =>
    if deadline < arrival then
      [⟨none, { s with now := max s.now deadline, feed.arrival := some arrival }⟩]
    else []

/-- The turns while keys are read until one of them causes an event. -/
def readTurns (setup : Setup) : List (Nat × KeyPress) → Session → List Turn
  | [], _ => []
  | (delay, press) :: rest, s =>
    dueTurn (arrivalTime delay s) s ++
      match takeKey setup delay rest s with
      | .error _ _ => []
      | .ok _ taken =>
        ⟨some press, taken⟩ ::
          match handleKey setup press taken with
          | .ok none s' => readTurns setup rest s'
          | _ => []

def requestTurns (setup : Setup) (s : Session) : Request → List Turn
  | .key press => [⟨some press, s⟩]
  | .readline => if s.editor.isClosed then [] else readTurns setup s.feed.keys s
  | _ => []

def turns (setup : Setup) : List Request → Session → List Turn
  | [], _ => []
  | r :: rest, s => requestTurns setup s r ++ turns setup rest (step setup r s).2

def pressedKeys (ts : List Turn) : List TwiceKey := ts.filterMap Turn.key?

/-- The press `p` was made in one of the turns, and all keys since then stand for no action. -/
def PendingSince (setup : Setup) (ts : List Turn) (p : Pending) : Prop :=
  ∃ before made since, ts = before ++ made :: since ∧ made.key? = some p.key ∧
    p.deadline = made.before.now + setup.config.window p.key ∧
    (made.after setup).editor.presses = some p ∧ ∀ t ∈ since, t.Unmapped

/-- What a turn does after earlier ones. -/
structure Turn.Proper (setup : Setup) (earlier : List Turn) (t : Turn) : Prop where
  /-- The presses before it have been acted on in their order, but for one that is pending. -/
  balanced : pressedKeys earlier = t.before.resolvedKeys ++ t.before.editor.presses.keys
  /-- A double press is made of the press that is pending since the last key with an action and of
  another one of the same key before the deadline. -/
  doubles : ∀ key, .double key ∈ t.resolutions setup → t.key? = some key ∧
    ∃ p, PendingSince setup earlier p ∧ p.key = key ∧ t.before.editor.presses = some p ∧
      t.before.now ≤ p.deadline
  /-- Before any other action is run no press is left that has not been acted on. -/
  settles : ∀ press action, t.press? = some press → t.action? = some action →
    action.twiceKey? = none → ∃ q,
      settle setup (t.before.taking (some action)) = .ok () q ∧
      q.editor.presses = none ∧ q.resolvedKeys = pressedKeys earlier ∧
      handleKey setup press t.before = runAction setup action q ∧
      (t.after setup).resolutions = q.resolutions

structure Accounted (setup : Setup) (ts : List Turn) (s : Session) : Prop where
  /-- Keys are taken in these turns only. -/
  taken : s.actions = ts.filterMap Turn.action?
  /-- Presses are acted on in these turns only. -/
  complete : s.resolutions = ts.flatMap (Turn.resolutions setup)
  /-- The presses have been acted on in their order, but for one that is pending. -/
  balanced : pressedKeys ts = s.resolvedKeys ++ s.editor.presses.keys
  pending : ∀ p, s.editor.presses = some p → PendingSince setup ts p
  proper : ∀ earlier t later, ts = earlier ++ t :: later → t.Proper setup earlier

variable {setup : Setup} {s t : Session} {ts : List Turn}

namespace Turn

def settlement (setup : Setup) (t : Turn) : List Resolution × DoublePress :=
  match t.press? with
  | some _ => Session.settlement setup t.before.editor.presses t.before.now t.action?
  | none => (t.before.editor.presses.keys.map .single, none)

theorem resolved (setup : Setup) (t : Turn) :
    Resolved (t.settlement setup).1 (t.settlement setup).2 (t.before.taking t.action?)
      (t.after setup) := by
  obtain ⟨_ | p, before⟩ := t
  · exact (ends_settle_resolved setup before).ending.of_notices (List.append_nil _).symm
  · exact (ends_handleKey_resolved setup p before).ending

theorem resolutions_eq (setup : Setup) (t : Turn) :
    t.resolutions setup = (t.settlement setup).1 := by
  rw [resolutions, (t.resolved setup).resolutions, taking_resolutions, List.drop_left]

/-- Each notice that presses are acted on comes from a run of what it announces. The turn runs these one
after the other, and then what acts on no press. -/
theorem runs_resolutions (setup : Setup) (t : Turn) :
    ∃ rest : Act (Option Event), KeepsPresses rest ∧ t.after setup =
      ending (Resolution.runAll setup (t.resolutions setup) >>= fun _ => rest)
        ((t.before.taking t.action?).pending (t.settlement setup).2) := by
  rw [t.resolutions_eq]
  obtain ⟨_ | p, before⟩ := t
  · have hsettled := bind_congr_of_eq (settle_eq setup before)
      fun _ => (pure none : Act (Option Event))
    refine ⟨pure none, .pure none, ?_⟩
    change ending (settle setup) before = ending (Resolution.runAll setup
      (before.editor.presses.keys.map .single) >>= fun _ => pure none) ((before.taking none).pending none)
    rw [taking_none, ending, ending, ← hsettled]
    simp only [bind, EStateM.bind]
    cases settle setup before <;> rfl
  · obtain ⟨rest, hrest, hrun⟩ := handleKey_eq setup p before
    refine ⟨rest, hrest, ?_⟩
    change ending (handleKey setup p) before = _
    rw [ending, hrun]
    rfl

theorem settlement_balanced (setup : Setup) (t : Turn) :
    t.before.editor.presses.keys ++ t.key?.toList =
      (t.settlement setup).1.flatMap Resolution.keys ++ (t.settlement setup).2.keys := by
  obtain ⟨_ | p, before⟩ := t
  · exact congrArg (· ++ []) (flatMap_keys_single before.editor.presses.keys).symm
  · exact Session.settlement_balanced setup before.editor.presses before.now _

theorem settlement_double {key : TwiceKey} {t : Turn} (h : .double key ∈ (t.settlement setup).1) :
    t.key? = some key ∧
      ∃ p, t.before.editor.presses = some p ∧ p.key = key ∧ t.before.now ≤ p.deadline := by
  obtain ⟨_ | p, before⟩ := t
  · simp [settlement] at h
  · exact Session.settlement_double h

/-- What is pending after a turn is its own press, or was pending before a key without an action. -/
theorem settlement_pending {p : Pending} {t : Turn}
    (harmed : t.before.editor.presses ≠ none → t.before.editor.isListening = true)
    (h : (t.settlement setup).2 = some p) :
    t.Unmapped ∧ t.before.editor.presses = some p ∨
      t.key? = some p.key ∧ p.deadline = t.before.now + setup.config.window p.key := by
  obtain ⟨_ | press, before⟩ := t
  · cases h
  · refine (Session.settlement_pending h).imp_left fun ⟨hnone, hp⟩ => ⟨⟨press, rfl, ?_⟩, hp⟩
    have hl : before.editor.isListening = true := harmed (by rw [hp]; exact Option.some_ne_none p)
    simpa [action?, accepted?, hl] using hnone

end Turn

theorem pressedKeys_append (ts ts' : List Turn) :
    pressedKeys (ts ++ ts') = pressedKeys ts ++ pressedKeys ts' := List.filterMap_append

theorem filterMap_singleton {α β : Type} (f : α → Option β) (a : α) :
    [a].filterMap f = (f a).toList := by
  cases h : f a <;> simp [h]

theorem pressedKeys_singleton (t : Turn) : pressedKeys [t] = t.key?.toList :=
  filterMap_singleton Turn.key? t

theorem Resolved.resolvedKeys {rs : List Resolution} {d : DoublePress} (h : Resolved rs d s t) :
    t.resolvedKeys = s.resolvedKeys ++ rs.flatMap Resolution.keys := by
  rw [Session.resolvedKeys, h.resolutions, List.flatMap_append, Session.resolvedKeys]

theorem taking_resolvedKeys (s : Session) (action : Option Action) :
    (s.taking action).resolvedKeys = s.resolvedKeys :=
  congrArg (List.flatMap Resolution.keys) (taking_resolutions s action)

theorem settle_ok (hquiet : ∀ n, setup.fails n = false) (s : Session) :
    ∃ q, settle setup s = .ok () q := by
  obtain ⟨_, q, hq, -⟩ := (ends_settle hquiet s).exists_ok
  exact ⟨q, hq⟩

theorem applyAction_of_settle {action : Action} (htwice : action.twiceKey? = none)
    (h : settle setup s = .ok () t) : applyAction setup action s = runAction setup action t := by
  have hrun : (settle setup >>= fun _ => runAction setup action) s = runAction setup action t := by
    simp only [bind, EStateM.bind, h]
  cases action with
  | tab | copy => cases htwice
  | _ => exact hrun

namespace Accounted

theorem unpressed (h : Accounted setup ts s) (hs : Unpressed s t) : Accounted setup ts t where
  taken := hs.actions.trans h.taken
  complete := by rw [hs.resolutions, List.append_nil, h.complete]
  balanced := by rw [hs.resolvedKeys, List.flatMap_nil, List.append_nil, hs.presses, h.balanced]
  pending p hp := h.pending p (hs.presses.symm.trans hp)
  proper := h.proper

/-- The account of the turns before it shows that the next one does what it may. -/
theorem next_proper (hquiet : ∀ n, setup.fails n = false) {t : Turn}
    (h : Accounted setup ts t.before) : t.Proper setup ts where
  balanced := h.balanced
  doubles key hkey := by
    rw [t.resolutions_eq] at hkey
    obtain ⟨hpressed, p, hp, hk, hdeadline⟩ := Turn.settlement_double hkey
    exact ⟨hpressed, p, h.pending p hp, hk, hp, hdeadline⟩
  settles press action hpress haction htwice := by
    obtain ⟨q, hq⟩ := settle_ok hquiet (t.before.taking (some action))
    have hsettled := (ends_settle_resolved setup _).of_ok hq
    have hkeys : q.resolvedKeys = pressedKeys ts := by
      rw [hsettled.resolvedKeys, taking_resolvedKeys, flatMap_keys_single, h.balanced]
      rfl
    obtain ⟨hl, hmapped⟩ : t.before.editor.isListening = true ∧ Action.ofPress? press = some action := by
      rw [Turn.action?, hpress, Option.bind_some] at haction
      exact accepted?_eq_some.mp haction
    have hrun : handleKey setup press t.before = runAction setup action q :=
      (handleKey_of_action hl hmapped).trans (applyAction_of_settle htwice hq)
    have hafter : t.after setup = ending (runAction setup action) q := by
      simp only [Turn.after, hpress, ending, hrun]
    have hkept := (KeepsPresses.runAction setup action q).ending
    refine ⟨q, hq, hsettled.presses, hkeys, hrun, ?_⟩
    rw [hafter, hkept.resolutions, List.append_nil]

/-- One more turn. -/
theorem turn (hquiet : ∀ n, setup.fails n = false) {t : Turn} (h : Accounted setup ts t.before)
    (harmed : t.before.editor.presses ≠ none → t.before.editor.isListening = true) :
    Accounted setup (ts ++ [t]) (t.after setup) := by
  have hresolved := t.resolved setup
  have hbalanced := t.settlement_balanced setup
  refine ⟨?_, ?_, ?_, fun p hp => ?_, fun earlier t' later hts => ?_⟩
  · rw [hresolved.actions, taking_actions, h.taken, List.filterMap_append, filterMap_singleton]
  · rw [hresolved.resolutions, taking_resolutions, h.complete, List.flatMap_append, List.flatMap_singleton,
      t.resolutions_eq]
  · rw [pressedKeys_append, h.balanced, pressedKeys_singleton, List.append_assoc, hbalanced,
      hresolved.resolvedKeys, taking_resolvedKeys, hresolved.presses, List.append_assoc]
  · rw [hresolved.presses] at hp
    obtain ⟨hunmapped, hp⟩ | ⟨hkey, hdeadline⟩ := t.settlement_pending harmed hp
    -- A key without an action prolongs the wait of the press that is pending, any other ends it.
    · obtain ⟨before, made, since, rfl, hmade, hdue, hafter, hsince⟩ := h.pending p hp
      refine ⟨before, made, since ++ [t], by simp, hmade, hdue, hafter, ?_⟩
      simpa [or_imp, forall_and] using ⟨hsince, hunmapped⟩
    · exact ⟨ts, t, [], rfl, hkey, hdeadline, hresolved.presses.trans hp, by simp⟩
  · rcases List.eq_nil_or_concat later with rfl | ⟨later, last, rfl⟩
    · obtain ⟨rfl, hlast⟩ := List.append_inj' hts rfl
      cases hlast
      exact h.next_proper hquiet
    · rw [List.concat_eq_append, ← List.cons_append, ← List.append_assoc] at hts
      exact h.proper earlier t' later (List.append_inj' hts rfl).1

/-- The result itself is what can be said of the way in which an operation ends. -/
theorem ends_eq {α : Type} (m : Act α) (s : Session) :
    Ends m s (fun a t => m s = .ok a t) fun t => ∃ e, m s = .error e t := by
  unfold Ends
  cases m s with
  | ok a t => rfl
  | error e t => exact ⟨e, rfl⟩

theorem ends_of_ending {α : Type} {m : Act α} {P : Session → Prop} (h : P (ending m s)) :
    Ends m s (fun _ => P) P := by
  unfold ending at h
  unfold Ends
  split <;> simp_all

theorem takeKey (hquiet : ∀ n, setup.fails n = false) (h : Accounted setup ts s)
    (harmed : s.editor.presses ≠ none → s.editor.isListening = true) (delay : Nat)
    (rest : List (Nat × KeyPress)) :
    Ends (takeKey setup delay rest) s
      (fun _ => Accounted setup (ts ++ dueTurn (arrivalTime delay s) s))
      (Accounted setup (ts ++ dueTurn (arrivalTime delay s) s)) := by
  have htaken {ts : List Turn} {s : Session} (h : Accounted setup ts s) (now : Nat) :
      Accounted setup ts { s with now, feed := ⟨rest, none⟩ } := h.unpressed (unpressed_of_eq rfl rfl)
  simp only [Session.takeKey, await, passTime, ends_bind, ends_get, ends_modify]
  cases hdeadline : s.editor.presses.deadline? with
  | none =>
    simp only [dueTurn, hdeadline, List.append_nil]
    exact htaken h _
  | some deadline =>
    by_cases hpassed : deadline < arrivalTime delay s
    · let waiting : Session := { s with
        now := max s.now deadline, feed.arrival := some (arrivalTime delay s) }
      have hwaiting : Accounted setup ts waiting := h.unpressed (unpressed_of_eq rfl rfl)
      have hdue := hwaiting.turn hquiet (t := ⟨none, waiting⟩) harmed
      simp only [dueTurn, hdeadline, if_pos hpassed, ends_bind, ends_modify]
      exact (ends_of_ending hdue).mono (fun _ _ h => htaken h _) fun _ => id
    · simp only [dueTurn, hdeadline, if_neg hpassed, List.append_nil]
      exact htaken h _

theorem readKeys (hquiet : ∀ n, setup.fails n = false) (keys : List (Nat × KeyPress))
    (h : Accounted setup ts s) (hs : Quiescent s) :
    Ends (readKeys setup keys) s (fun _ => Accounted setup (ts ++ readTurns setup keys s))
      (Accounted setup (ts ++ readTurns setup keys s)) := by
  induction keys generalizing ts s with
  | nil =>
    rw [readTurns, List.append_nil]
    exact (KeepsPresses.close s).imp h.unpressed
  | cons k rest ih =>
    obtain ⟨delay, press⟩ := k
    have hquiescent := quiescent_invariant setup
    have htaken := (h.takeKey hquiet hs.armed delay rest).and (hquiescent.takeKey hs delay rest)
    rw [Session.readKeys, ends_bind, readTurns]
    refine (htaken.and (ends_eq _ s)).mono (fun _ taken ht => ?_) fun _ hfailed => ?_
    · obtain ⟨⟨haccounted, hs'⟩, htake⟩ := ht
      have hkey : Accounted setup (ts ++ dueTurn (arrivalTime delay s) s ++ [⟨some press, taken⟩])
          (ending (handleKey setup press) taken) := haccounted.turn hquiet hs'.armed
      have hanswered := hquiescent.handleKey hs' (p := press) fun _ _ => trivial
      rw [ends_bind]
      refine (hanswered.and (ends_eq _ taken)).mono (fun e s' hok => ?_) fun s' hfailed => ?_
      · obtain ⟨hs'', hhandle⟩ := hok
        rw [ending, hhandle] at hkey
        simp only [htake, hhandle]
        cases e with
        | none =>
          have hrest := ih hkey hs''
          simpa only [List.append_assoc, List.singleton_append] using hrest
        | some e =>
          rw [List.append_assoc] at hkey
          exact hkey
      · obtain ⟨-, e, hhandle⟩ := hfailed
        rw [ending, hhandle] at hkey
        simpa only [htake, hhandle, List.append_assoc] using hkey
    · obtain ⟨⟨haccounted, -⟩, e, htake⟩ := hfailed
      simpa only [htake, List.append_nil] using haccounted

theorem perform (hquiet : ∀ n, setup.fails n = false) (h : Accounted setup ts s) (hs : Quiescent s)
    (r : Request) : Ends (perform setup r) s
      (fun _ => Accounted setup (ts ++ requestTurns setup s r))
      (Accounted setup (ts ++ requestTurns setup s r)) := by
  have hkept {m : Act (Option Event)} (hm : KeepsPresses m) :
      Ends m s (fun _ => Accounted setup (ts ++ [])) (Accounted setup (ts ++ [])) := by
    rw [List.append_nil]
    exact (hm s).imp h.unpressed
  cases r with
  | key p => exact ends_of_ending (h.turn hquiet (t := ⟨some p, s⟩) hs.armed)
  | readline =>
    refine (ends_map _ _ _).mpr ?_
    rw [Session.readline, ends_bind, ends_get, requestTurns]
    split
    · rw [List.append_nil]
      exact (ends_bind _ _ _).mpr h
    · exact h.readKeys hquiet s.feed.keys hs
  | prompt => exact hkept (.seqRight (.showPrompt setup true) (.pure none))
  | print t => exact hkept (.seqRight (.drawAll setup _) (.pure none))
  | _ => exact hkept (.seqRight (.modify (fun _ => rfl) fun _ => rfl) (.pure none))

theorem step (hquiet : ∀ n, setup.fails n = false) (h : Accounted setup ts s) (hs : Quiescent s)
    (r : Request) : Accounted setup (ts ++ requestTurns setup s r) (step setup r s).2 := by
  have hreplied := (h.perform hquiet hs r).step
  rcases hstep : Session.step setup r s with ⟨_ | _ | _, s'⟩ <;> rw [hstep] at hreplied <;>
    exact hreplied

theorem run (hquiet : ∀ n, setup.fails n = false) (rs : List Request) (h : Accounted setup ts s)
    (hs : Reachable setup s) :
    Accounted setup (ts ++ turns setup rs s) (run setup rs s).2 := by
  induction rs generalizing ts s with
  | nil =>
    rw [turns, List.append_nil]
    exact h
  | cons r rest ih =>
    have hrest := ih (h.step hquiet hs.quiescent r) (hs.requested r)
    rwa [List.append_assoc] at hrest

theorem created {size : Size} {clipboard : Text} {keys : List (Nat × KeyPress)}
    (hs : create setup size clipboard keys = .ok s) : Accounted setup [] s := by
  have hkept := (KeepsPresses.showPrompt setup false (initial setup size clipboard keys)).created hs
  have hnone : s.resolutions = [] := hkept.resolutions
  have hpresses : s.editor.presses = none := hkept.presses
  refine ⟨hkept.actions, hnone, ?_, fun p hp => ?_, fun earlier t later hts => ?_⟩
  · rw [resolvedKeys, hnone, hpresses]
    rfl
  · cases hpresses.symm.trans hp
  · simp at hts

end Accounted

theorem count_resolvedKeys (s : Session) (key : TwiceKey) : s.resolvedKeys.count key =
    2 * s.notices.count (.doublePress key) + s.notices.count (.singlePress key) := by
  rw [resolvedKeys, resolutions]
  induction s.notices with
  | nil => rfl
  | cons n ns ih =>
    cases n with
    | singlePress k | doublePress k =>
      simp [Resolution.ofNotice?, Resolution.keys, List.count_cons, ih]
      split <;> omega
    | _ =>
      rw [List.filterMap_cons_none rfl]
      simpa [List.count_cons] using ih

theorem count_keys (d : DoublePress) (key : TwiceKey) :
    d.keys.count key = if d.pendingKey? = some key then 1 else 0 := by
  cases d with
  | none => rfl
  | some p => simp [DoublePress.keys, DoublePress.pendingKey?, List.count_cons]

/-- Every press of a key that is taken is acted on once, alone or as half of a double press, or it is
pending: in the order of the presses, before any other action, and as a double press only with a press
of the same key right before it whose window has not passed. -/
theorem presses_accounted (hquiet : ∀ n, setup.fails n = false) {size : Size} {clipboard : Text}
    {keys : List (Nat × KeyPress)} (hs : create setup size clipboard keys = .ok s)
    (rs : List Request) :
    let last := (run setup rs s).2
    Accounted setup (turns setup rs s) last ∧
      ∀ key, (pressedKeys (turns setup rs s)).count key =
        2 * last.notices.count (.doublePress key) + last.notices.count (.singlePress key) +
          if last.editor.presses.pendingKey? = some key then 1 else 0 := by
  intro last
  have haccounted : Accounted setup (turns setup rs s) last :=
    (Accounted.created hs).run hquiet rs (.created hs)
  refine ⟨haccounted, fun key => ?_⟩
  rw [haccounted.balanced, List.count_append, count_resolvedKeys, count_keys]

/-- A double press at the very end of the window, with a key without an action in between; presses
that end with another key, with a late one of their own, with their deadline and not at all. -/
theorem presses_accounted_mixed : ∃ s : Session, ∃ rs : List Request,
    create Setup.plain .standard []
      [(10, .ofName .tab), (500, .ofChar 'x'), (10, .ofName .tab)] = .ok s ∧
    Accounted Setup.plain (turns Setup.plain rs s) (run Setup.plain rs s).2 ∧
    pressedKeys (turns Setup.plain rs s) = [.tab, .tab, .tab, .copy, .copy, .tab, .tab] ∧
    (run Setup.plain rs s).2.resolutions =
      [.double .tab, .single .tab, .single .copy, .single .copy, .single .tab] ∧
    (run Setup.plain rs s).2.editor.presses.pendingKey? = some .tab := by
  let keys : List (Nat × KeyPress) := [(10, .ofName .tab), (500, .ofChar 'x'), (10, .ofName .tab)]
  let rs : List Request := [.key (.ofName .tab), .wait 200, .key (.ofName .escape),
    .key (.ofName .tab), .key (.ofName .tab), .key (.ofCtrl 'y'), .wait 301, .key (.ofCtrl 'y'),
    .readline]
  have hrun : (create Setup.plain .standard [] keys).toOption.any (fun s =>
      pressedKeys (turns Setup.plain rs s) == [.tab, .tab, .tab, .copy, .copy, .tab, .tab] &&
      (run Setup.plain rs s).2.resolutions ==
        [.double .tab, .single .tab, .single .copy, .single .copy, .single .tab] &&
      (run Setup.plain rs s).2.editor.presses.pendingKey? == some .tab) = true := by
    decide +kernel
  obtain ⟨s, hs, hfacts⟩ := (Option.any_eq_true _ _).mp hrun
  simp only [Bool.and_eq_true, beq_iff_eq] at hfacts
  have hs := created_of_toOption hs
  exact ⟨s, rs, hs, (presses_accounted (fun _ => rfl) hs rs).1, hfacts.1.1, hfacts.1.2, hfacts.2⟩

end Promptline.Session
