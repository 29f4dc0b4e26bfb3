import Promptline.Proofs.Session.Retry

set_option autoImplicit false

namespace Promptline.Session

open Keys

variable {setup : Setup} {start s s' q : Session} {e : Event} {es : List Event}
  {rs : List Subscriber} {senders : List Nat}

def Request.register : Request → List Subscriber → List Subscriber
  | .subscribe, rs => rs ++ [⟨true, []⟩]
  | .unsubscribe index, rs => rs.modify index fun r => { r with isLive := false }
  | _, rs => rs

inductive Request.Reads : Request → Prop
  | key (p : KeyPress) : Reads (.key p)
  | readline : Reads .readline

structure Mute (start s : Session) : Prop where
  armed : s.editor.presses ≠ none → s.editor.isListening = true
  subscribers : s.subscribers = start.subscribers
  isClosed : s.editor.isClosed = start.editor.isClosed

structure Spoke (start : Session) (e : Event) (s : Session) : Prop where
  subscribers : s.subscribers = start.subscribers.map (Subscriber.receive e)
  isClosed : s.editor.isClosed = true ↔ start.editor.isClosed = true ∨ e = .close

theorem Mute.redrew (h : Mute start s) (hr : Redrew s s') : Mute start s' := by
  refine ⟨?_, hr.subscribers.trans h.subscribers, hr.isClosed.trans h.isClosed⟩
  rw [hr.presses, hr.isListening]
  exact h.armed

theorem Mute.prompted (h : Mute start s) :
    Ends (showPrompt setup true) s (fun _ => Mute start) (Mute start) := by
  have hcleared : Mute start s.atPrompt := ⟨h.armed, h.subscribers, h.isClosed⟩
  refine (ends_showPrompt_redrew setup true).mono (fun _ s' hs => ?_) fun _ => hcleared.redrew
  obtain ⟨a, ha, rfl⟩ := hs
  have hshown := hcleared.redrew ha
  exact ⟨fun _ => rfl, hshown.subscribers, hshown.isClosed⟩

theorem Mute.submitted (h : Mute start s) (hp : s.editor.presses = none) :
    Ends (submit setup) s (Spoke start) (Mute start) := by
  refine ends_submit_calls.mono (fun e s' hs => ?_) fun q hq => ?_
  · obtain ⟨rfl, hsubmitted, -⟩ := hs
    refine ⟨?_, ?_⟩
    · rw [hsubmitted.subscribers, h.subscribers]
    · have hsame : s'.editor.isClosed = start.editor.isClosed := by
        rw [hsubmitted.editor]
        exact h.isClosed
      simp [hsame]
  · refine ⟨fun harmed => absurd ?_ harmed, ?_, ?_⟩
    · rw [hq.1.editor]
      exact hp
    · rw [hq.1.session]
      exact h.subscribers
    · rw [hq.1.editor]
      exact h.isClosed

theorem mute_invariant (setup : Setup) (start : Session) :
    Invariant setup (fun _ => True) (Mute start) (Spoke start) where
  lineFeed := trivial
  pasted _ := trivial
  armed h := h.armed
  noted _ h := ⟨h.armed, h.subscribers, h.isClosed⟩
  passed _ _ h := ⟨h.armed, h.subscribers, h.isClosed⟩
  pressed _ h hl := ⟨fun _ => hl, h.subscribers, h.isClosed⟩
  copied h _ := ⟨h.armed, h.subscribers, h.isClosed⟩
  synced h _ := ⟨h.armed, h.subscribers, h.isClosed⟩
  redrawn {s b} jump h _ _ := by
    have hplaced : Mute start (s.withBuffer b) := ⟨h.armed, h.subscribers, h.isClosed⟩
    exact (ends_redraw setup jump).imp hplaced.redrew
  edited {s b} h _ _ := by
    have hfollowed : Mute start (s.withBuffer b).followed := ⟨h.armed, h.subscribers, h.isClosed⟩
    exact (ends_afterTextChange setup).imp hfollowed.redrew
  browsed {s slot} h _ _ := by
    have hbrowsed : Mute start (s.browsed slot) := ⟨h.armed, h.subscribers, h.isClosed⟩
    exact (ends_redraw setup true).imp hbrowsed.redrew
  cleared h _ := (ends_clearScreen setup).imp h.redrew
  submitted h _ hp _ := h.submitted hp
  prompted h := h.prompted
  closed {s} h := by
    simp only [close, ends_bind, ends_get, ends_modifyEditor, ends_note, ends_publish, ends_pure]
    exact ⟨congrArg (List.map _) h.subscribers, by simp⟩

def told (rs : List Subscriber) : Option Event → List Subscriber
  | none => rs
  | some e => rs.map (Subscriber.receive e)

structure Transmits (r : Request) (s : Session) (e : Option Event) (q : Session) : Prop where
  subscribers : q.subscribers = told (r.register s.subscribers) e
  isClosed : q.editor.isClosed = true ↔ s.editor.isClosed = true ∨ e = some .close
  reads : e ≠ none → r.Reads

theorem Mute.transmits {r : Request} (h : Mute s q) (hr : ∀ rs, r.register rs = rs) :
    Transmits r s none q := by
  refine ⟨?_, ?_, fun hne => absurd rfl hne⟩
  · rw [hr]
    exact h.subscribers
  · simp [h.isClosed]

theorem Spoke.transmits {r : Request} (h : Spoke s e q) (hr : ∀ rs, r.register rs = rs)
    (hreads : r.Reads) : Transmits r s (some e) q := by
  refine ⟨?_, ?_, fun _ => hreads⟩
  · rw [hr]
    exact h.subscribers
  · simp [h.isClosed]

theorem Mute.perform (h : Mute s s) (setup : Setup) (r : Request) :
    Ends (perform setup r) s (Transmits r s) (Mute s) := by
  have hinv := mute_invariant setup s
  have hkept (q : Session) (he : q.editor = s.editor)
      (hs : q.subscribers = r.register s.subscribers) : Transmits r s none q :=
    ⟨hs, by simp [he], fun hne => absurd rfl hne⟩
  cases r with
  | key p =>
    refine (hinv.handleKey h fun _ _ => trivial).mono (fun e q hq => ?_) fun _ hq => hq
    cases e with
    | none => exact Mute.transmits hq fun _ => rfl
    | some e => exact Spoke.transmits hq (fun _ => rfl) (.key p)
  | readline =>
    refine (ends_map _ _ _).mpr ?_
    exact (hinv.readline (fun _ _ _ _ => trivial) h).mono
      (fun _ _ hq => hq.transmits (fun _ => rfl) .readline) fun _ hq => hq
  | prompt =>
    refine (ends_seqRight _ _ _).mpr ?_
    exact h.prompted.mono (fun _ _ hq => hq.transmits fun _ => rfl) fun _ hq => hq
  | print t =>
    refine (ends_seqRight _ _ _).mpr ?_
    exact (ends_drawAll setup _).mono (fun _ _ hd => (h.redrew hd.redrew).transmits fun _ => rfl)
      fun _ hd => h.redrew hd.redrew
  | _ => exact (ends_seqRight _ _ _).mpr (hkept _ rfl rfl)

theorem Reachable.mute (h : Reachable setup s) : Mute s s := ⟨h.recorded.armed, rfl, rfl⟩

theorem Reachable.mute_of_failed {r : Request} {err : Error} (h : Reachable setup s)
    (hstep : step setup r s = (.failed err, q)) : Mute s q := by
  have hreplied := (h.mute.perform setup r).step
  rw [hstep] at hreplied
  exact hreplied

/-- What a request that does not fail transmits, and that one that fails transmits nothing. -/
theorem Reachable.transmits (h : Reachable setup s) (r : Request) :
    Transmits r s (step setup r s).1.event? (step setup r s).2 ∨
      (∃ e, (step setup r s).1 = .failed e) ∧ Mute s (step setup r s).2 := by
  have hreplied := (h.mute.perform setup r).step
  rcases hstep : step setup r s with ⟨_ | e | e, q⟩ <;> rw [hstep] at hreplied
  · exact Or.inl hreplied
  · exact Or.inl hreplied
  · exact Or.inr ⟨⟨e, rfl⟩, h.mute_of_failed hstep⟩

theorem Reachable.settled_mute (h : Reachable setup s) : Mute s (ending (settle setup) s) :=
  Ends.ending (((mute_invariant setup s).settle h.mute).mono (fun _ _ hs => hs.1) fun _ hs => hs)

/-- What receiver number `n` has received is the beginning of `es`, and all of it as long as it has not
been dropped. -/
def Hears (n : Nat) (es : List Event) (s : Session) : Prop :=
  ∃ r, s.subscribers[n]? = some r ∧ r.received <+: es ∧ (r.isLive = true → r.received = es)

theorem Hears.of_eq {n : Nat} (h : Hears n es s) (hs : q.subscribers = s.subscribers) :
    Hears n es q := by
  unfold Hears
  rw [hs]
  exact h

theorem Hears.receive {n : Nat} (h : Hears n es s)
    (hs : q.subscribers = s.subscribers.map (Subscriber.receive e)) : Hears n (es ++ [e]) q := by
  obtain ⟨r, hr, hbegins, hlive⟩ := h
  refine ⟨r.receive e, by simp [hs, hr], ?_⟩
  unfold Subscriber.receive
  split
  · rename_i hl
    rw [hlive hl]
    exact ⟨List.prefix_refl _, fun _ => rfl⟩
  · rename_i hl
    exact ⟨hbegins.trans (List.prefix_append _ _), fun h => absurd h hl⟩

theorem Hears.register {n : Nat} (h : Hears n es s) (r : Request)
    (hs : q.subscribers = r.register s.subscribers) : Hears n es q := by
  obtain ⟨receiver, hr, hbegins, hlive⟩ := h
  cases r with
  | subscribe =>
    have hlt : n < s.subscribers.length := (List.getElem?_eq_some_iff.mp hr).1
    refine ⟨receiver, ?_, hbegins, hlive⟩
    rw [hs, Request.register, List.getElem?_append_left hlt, hr]
  | unsubscribe index =>
    by_cases hi : index = n
    · exact ⟨⟨false, receiver.received⟩, by simp [hs, Request.register, hr, hi], hbegins, by simp⟩
    · exact ⟨receiver, by simp [hs, Request.register, hr, hi], hbegins, hlive⟩
  | _ => exact ⟨receiver, by rw [hs]; exact hr, hbegins, hlive⟩

theorem Hears.step {n : Nat} (h : Hears n es s) (hs : Reachable setup s) (r : Request) :
    Hears n (es ++ (step setup r s).1.event?.toList) (step setup r s).2 := by
  rcases hs.transmits r with ht | ⟨⟨e, hfailed⟩, hmute⟩
  · cases he : (Session.step setup r s).1.event? with
    | none =>
      rw [he] at ht
      simpa using h.register r ht.subscribers
    | some e =>
      rw [he] at ht
      have hreads := ht.reads (by simp)
      cases hreads <;> exact h.receive ht.subscribers
  · rw [hfailed]
    simpa [Reply.event?] using h.of_eq hmute.subscribers

def reached (e : Event) : List Nat → List Subscriber → List Subscriber
  | [], rs => rs
  | i :: rest, rs => reached e rest (rs.modify i (Subscriber.receive e))

def retained (rs : List Subscriber) (senders : List Nat) : List Nat :=
  senders.filter fun i => rs[i]?.any Subscriber.isLive

/-- A session and the numbers of the receivers that its editor has not given up. -/
structure Outlet where
  session : Session
  senders : List Nat

def Outlet.after (setup : Setup) (r : Request) (o : Outlet) : Outlet where
  session := (step setup r o.session).2
  senders :=
    if (step setup r o.session).1.event?.isSome then retained o.session.subscribers o.senders
    else if r = .subscribe then o.senders ++ [o.session.subscribers.length]
    else o.senders

structure Covers (senders : List Nat) (rs : List Subscriber) : Prop where
  nodup : senders.Nodup
  lt : ∀ i ∈ senders, i < rs.length
  live : ∀ {i r}, rs[i]? = some r → r.isLive = true → i ∈ senders

theorem reached_getElem? (hn : senders.Nodup) (i : Nat) :
    (reached e senders rs)[i]? = if i ∈ senders then rs[i]?.map (Subscriber.receive e) else rs[i]? := by
  induction senders generalizing rs with
  | nil => rfl
  | cons j rest ih =>
    obtain ⟨hj, hrest⟩ := List.nodup_cons.mp hn
    rw [reached, ih hrest, List.getElem?_modify]
    by_cases hi : i = j
    · subst hi
      simp [hj]
    · simp [hi, Ne.symm hi]

theorem Covers.reached (h : Covers senders rs) (e : Event) :
    reached e senders rs = rs.map (Subscriber.receive e) := by
  apply List.ext_getElem?
  intro i
  -- One that has been given up is not live, so it does not take the event either.
  rw [reached_getElem? h.nodup, List.getElem?_map]
  split
  · rfl
  · rename_i hi
    cases hr : rs[i]? with
    | none => rfl
    | some r =>
      have hdropped : ¬ r.isLive = true := fun hl => hi (h.live hr hl)
      simp [Subscriber.receive, hdropped]

theorem Covers.retained (h : Covers senders rs) (e : Event) :
    Covers (retained rs senders) (rs.map (Subscriber.receive e)) := by
  refine ⟨h.nodup.filter _, fun i hi => ?_, fun {i r} hr hl => ?_⟩
  · rw [List.length_map]
    exact h.lt i (List.mem_of_mem_filter hi)
  · rw [List.getElem?_map] at hr
    obtain ⟨old, hold, rfl⟩ := Option.map_eq_some_iff.mp hr
    have hlive : old.isLive = true := by
      unfold Subscriber.receive at hl
      split at hl <;> assumption
    exact List.mem_filter.mpr ⟨h.live hold hlive, by simp [hold, hlive]⟩

theorem Covers.subscribe (h : Covers senders rs) :
    Covers (senders ++ [rs.length]) (rs ++ [⟨true, []⟩]) := by
  refine ⟨?_, fun i hi => ?_, fun {i r} hr hl => ?_⟩
  · refine h.nodup.append (List.nodup_singleton _) fun i hi hlast => ?_
    rw [List.mem_singleton] at hlast
    exact absurd (h.lt i hi) (by omega)
  · rw [List.length_append, List.length_singleton]
    rcases List.mem_append.mp hi with hi | hi
    · exact Nat.lt_succ_of_lt (h.lt i hi)
    · rw [List.mem_singleton.mp hi]
      exact Nat.lt_succ_self _
  · rw [List.mem_append, List.mem_singleton]
    rcases Nat.lt_or_ge i rs.length with hi | hi
    · rw [List.getElem?_append_left hi] at hr
      exact Or.inl (h.live hr hl)
    · have hlt := (List.getElem?_eq_some_iff.mp hr).1
      rw [List.length_append, List.length_singleton] at hlt
      exact Or.inr (by omega)

theorem Covers.unsubscribe (h : Covers senders rs) (index : Nat) :
    Covers senders (rs.modify index fun r => { r with isLive := false }) := by
  refine ⟨h.nodup, fun i hi => by rw [List.length_modify]; exact h.lt i hi, fun {i r} hr hl => ?_⟩
  rw [List.getElem?_modify] at hr
  obtain ⟨old, hold, rfl⟩ := Option.map_eq_some_iff.mp hr
  by_cases hi : index = i
  · simp [hi] at hl
  · simp only [hi, if_false] at hl
    exact h.live hold hl

theorem Covers.after {o : Outlet} (h : Covers o.senders o.session.subscribers)
    (hs : Reachable setup o.session) (r : Request) :
    Covers (o.after setup r).senders (o.after setup r).session.subscribers := by
  simp only [Outlet.after]
  rcases hs.transmits r with ht | ⟨⟨e, hfailed⟩, hmute⟩
  · cases he : (Session.step setup r o.session).1.event? with
    | some e =>
      rw [he] at ht
      have hreads := ht.reads (by simp)
      rw [ht.subscribers]
      cases hreads <;> exact h.retained e
    | none =>
      rw [he] at ht
      rw [ht.subscribers]
      cases r with
      | subscribe => exact h.subscribe
      | unsubscribe index => exact h.unsubscribe index
      | _ => exact h
  · have hne : r ≠ .subscribe := by
      rintro rfl
      cases hfailed
    rw [hfailed, hmute.subscribers, if_neg (by simp [Reply.event?]), if_neg hne]
    exact h

/-- Requests of which `Allowed` holds, and timers, lead from one session to another; they are answered
with the events `es`. -/
inductive Delivers (setup : Setup) (Allowed : Request → Prop) (start : Outlet) :
    List Event → Outlet → Prop
  | start : Delivers setup Allowed start [] start
  | requested {es : List Event} {o : Outlet} {r : Request} : Delivers setup Allowed start es o →
      Allowed r → Delivers setup Allowed start (es ++ (step setup r o.session).1.event?.toList)
        (o.after setup r)
  | expired {es : List Event} {o : Outlet} : Delivers setup Allowed start es o →
      Delivers setup Allowed start es { o with session := ending (settle setup) o.session }

variable {Allowed : Request → Prop} {o o' : Outlet}

theorem Delivers.reachable (h : Delivers setup Allowed o es o') (hs : Reachable setup o.session) :
    Reachable setup o'.session := by
  induction h with
  | start => exact hs
  | requested _ _ ih => exact ih.requested _
  | expired _ ih => exact ih.expired

theorem Delivers.requests {requests : List Request} (h : Delivers setup Allowed o es o')
    (hr : ∀ r ∈ requests, Allowed r) : Delivers setup Allowed o
      (es ++ (run setup requests o'.session).1.filterMap Reply.event?)
      (requests.foldl (fun o r => o.after setup r) o') := by
  induction requests generalizing es o' with
  | nil => simpa [run] using h
  | cons r rest ih =>
    have hrest := ih (h.requested (hr r List.mem_cons_self)) fun r' hr' =>
      hr r' (List.mem_cons_of_mem _ hr')
    cases he : (step setup r o'.session).1.event? <;>
      simpa [run, he, List.filterMap_cons, Outlet.after] using hrest

theorem Delivers.hears {n : Nat} (h : Delivers setup Allowed o es o')
    (hs : Reachable setup o.session) (hn : Hears n [] o.session) : Hears n es o'.session := by
  induction h with
  | start => exact hn
  | @requested es o₁ r hprevious _ ih => exact ih.step (hprevious.reachable hs) r
  | expired hprevious ih => exact ih.of_eq (hprevious.reachable hs).settled_mute.subscribers

theorem Delivers.covers (h : Delivers setup Allowed o es o') (hs : Reachable setup o.session)
    (hc : Covers o.senders o.session.subscribers) : Covers o'.senders o'.session.subscribers := by
  induction h with
  | start => exact hc
  | @requested es o₁ r hprevious _ ih => exact ih.after (hprevious.reachable hs) r
  | expired hprevious ih =>
    rw [(hprevious.reachable hs).settled_mute.subscribers]
    exact ih

/-- Where lines are read and no keys are handled one by one, an editor that has closed has said so
last. -/
theorem Delivers.closes (h : Delivers setup Allowed o es o') (hkeyed : ∀ p, ¬ Allowed (.key p))
    (hs : Reachable setup o.session) (hopen : o.session.editor.isClosed = false) :
    (o'.session.editor.isClosed = true ↔ Event.close ∈ es) ∧
      (Event.close ∈ es → ∃ cs, es = cs ++ [.close] ∧ Event.close ∉ cs) := by
  induction h with
  | start => simp [hopen]
  | @requested es o₁ r hprevious hallowed ih =>
    simp only [Outlet.after]
    rcases (hprevious.reachable hs).transmits r with ht | ⟨⟨e, hfailed⟩, hmute⟩
    · cases he : (step setup r o₁.session).1.event? with
      | none =>
        rw [he] at ht
        simpa [ht.isClosed] using ih
      | some e =>
        rw [he] at ht
        cases ht.reads (by simp) with
        | key p => exact absurd hallowed (hkeyed p)
        | readline =>
          -- A closed editor reads no line, so this one is the first to close it, if it does.
          have hbefore : ¬ o₁.session.editor.isClosed = true := by
            intro hc
            rw [step_readline_closed hc] at he
            cases he
          have hnone : Event.close ∉ es := fun hmem => hbefore (ih.1.mpr hmem)
          simp only [Option.toList_some]
          refine ⟨?_, fun hmem => ⟨es, ?_, hnone⟩⟩
          · rw [ht.isClosed]
            simp [hbefore, hnone, eq_comm]
          · rw [List.mem_append, List.mem_singleton] at hmem
            rw [hmem.resolve_left hnone]
    · rw [hfailed, hmute.isClosed]
      simpa [Reply.event?] using ih
  | expired hprevious ih =>
    rw [(hprevious.reachable hs).settled_mute.isClosed]
    exact ih

theorem unheard_of_create {size : Size} {clipboard : Text} {keys : List (Nat × KeyPress)}
    (h : create setup size clipboard keys = .ok s) :
    s.subscribers = [] ∧ s.editor.isClosed = false := by
  have hshown : Ends (showPrompt setup false) (initial setup size clipboard keys)
      (fun _ s => s.subscribers = [] ∧ s.editor.isClosed = false) fun _ => True := by
    refine (ends_showPrompt_redrew setup false).mono (fun _ s' hs => ?_) fun _ _ => trivial
    obtain ⟨a, ha, rfl⟩ := hs
    exact ⟨ha.subscribers, ha.isClosed⟩
  exact hshown.created h

/-- At any point of a run, whoever subscribes receives exactly the events with which requests are
answered from then on, in order, until it is dropped. A request that fails sends nothing, and to give
up on dropped receivers makes no difference to the others. If keys are read from the input only, the
editor closes once and last, and no line is read after that. -/
theorem events_delivered_once {size : Size} {clipboard : Text} {keys : List (Nat × KeyPress)}
    (hcreated : create setup size clipboard keys = .ok s)
    (hrun : Delivers setup Allowed ⟨s, []⟩ es o) :
    (∀ es' o', Delivers setup (fun _ => True) (o.after setup .subscribe) es' o' →
      Hears o.session.subscribers.length es' o'.session) ∧
    (∀ r e q, step setup r o.session = (.failed e, q) →
      q.subscribers = o.session.subscribers) ∧
    (∀ r e q, step setup r o.session = (.event e, q) →
      r.Reads ∧ q.subscribers = reached e o.senders o.session.subscribers) ∧
    ((∀ p, ¬ Allowed (.key p)) → Event.close ∈ es →
      (∃ cs, es = cs ++ [.close] ∧ Event.close ∉ cs) ∧
        step setup .readline o.session = (.failed .closed, o.session)) := by
  obtain ⟨hnone, hopen⟩ := unheard_of_create hcreated
  have hfirst : Reachable setup s := .created hcreated
  have hreach := hrun.reachable hfirst
  have hcovers : Covers o.senders o.session.subscribers := by
    refine hrun.covers hfirst ⟨List.nodup_nil, by simp, ?_⟩
    simp [hnone]
  refine ⟨fun es' o' hafter => ?_, fun r e q hstep => ?_, fun r e q hstep => ?_, fun hkeyed hmem => ?_⟩
  · refine hafter.hears (hreach.requested .subscribe) ⟨⟨true, []⟩, ?_, List.prefix_refl _, fun _ => rfl⟩
    exact List.getElem?_concat_length
  · exact (hreach.mute_of_failed hstep).subscribers
  · have htransmits := hreach.transmits r
    rw [hstep] at htransmits
    rcases htransmits with ht | ⟨⟨_, hfailed⟩, -⟩
    · have hreads := ht.reads (by simp [Reply.event?])
      refine ⟨hreads, ?_⟩
      rw [hcovers.reached]
      cases hreads <;> exact ht.subscribers
    · cases hfailed
  · obtain ⟨hclosed, hlast⟩ := hrun.closes hkeyed hfirst hopen
    exact ⟨hlast hmem, step_readline_closed (hclosed.mpr hmem)⟩

/-- Two receivers subscribe. The first one is dropped before the other one hears of a command and of the
end of the input. -/
theorem second_receiver_told : ∃ s o last,
    create Setup.plain .standard [] [(0, .ofChar 'a'), (0, .ofName .enter), (0, .ofChar 'b')] = .ok s ∧
    Delivers Setup.plain (fun r => ∀ p, r ≠ .key p) ⟨s, []⟩ [] o ∧
    o.session.subscribers.length = 1 ∧
    Delivers Setup.plain (fun _ => True) (o.after Setup.plain .subscribe)
      [.command "a".toList, .close] last ∧
    last.senders = [1] ∧ last.session.subscribers[0]? = some ⟨false, []⟩ ∧
    Hears 1 [.command "a".toList, .close] last.session ∧
    Delivers Setup.plain (fun r => ∀ p, r ≠ .key p) ⟨s, []⟩ [.command "a".toList, .close] last ∧
    step Setup.plain .readline last.session = (.failed .closed, last.session) := by
  let keys : List (Nat × KeyPress) := [(0, .ofChar 'a'), (0, .ofName .enter), (0, .ofChar 'b')]
  let rest : List Request := [.unsubscribe 0, .readline, .readline]
  have hrun : (create Setup.plain .standard [] keys).toOption.any (fun s =>
      let o := Outlet.after Setup.plain .subscribe ⟨s, []⟩
      let second := o.after Setup.plain .subscribe
      let last := rest.foldl (fun o r => o.after Setup.plain r) second
      (step Setup.plain .subscribe s).1.event? == none &&
        (step Setup.plain .subscribe o.session).1.event? == none &&
        o.session.subscribers.length == 1 &&
        (run Setup.plain rest second.session).1.filterMap Reply.event? ==
          [.command "a".toList, .close] &&
        last.senders == [1] && last.session.subscribers[0]? == some ⟨false, []⟩) = true := by
    decide +kernel
  obtain ⟨s, hcreated, hfacts⟩ := (Option.any_eq_true _ _).mp hrun
  have hcreated := created_of_toOption hcreated
  simp only [Bool.and_eq_true, beq_iff_eq] at hfacts
  obtain ⟨⟨⟨⟨⟨hfirst, hsecond⟩, hlength⟩, hevents⟩, hsenders⟩, hdropped⟩ := hfacts
  let o := Outlet.after Setup.plain .subscribe ⟨s, []⟩
  have hunkeyed : ∀ r ∈ rest, ∀ p, r ≠ .key p := by simp [rest]
  have hbefore : Delivers Setup.plain (fun r => ∀ p, r ≠ .key p) ⟨s, []⟩ [] o := by
    have hsubscribed := (@Delivers.start Setup.plain (fun r => ∀ p, r ≠ .key p) ⟨s, []⟩).requested
      (r := .subscribe) (by simp)
    rw [hfirst] at hsubscribed
    exact hsubscribed
  have hallowed : ∀ r ∈ rest, (fun _ => True) r := fun _ _ => trivial
  have hevents : (run Setup.plain rest (o.after Setup.plain .subscribe).session).1.filterMap
    Reply.event? = [.command "a".toList, .close] := hevents
  have hafter := (@Delivers.start Setup.plain _ (o.after Setup.plain .subscribe)).requests hallowed
  have hwhole := (hbefore.requested (r := .subscribe) (by simp)).requests hunkeyed
  rw [hsecond] at hwhole
  simp only [Option.toList_none, List.nil_append, hevents] at hafter hwhole
  have hheard := (events_delivered_once hcreated hbefore).1 _ _ hafter
  rw [hlength] at hheard
  have hclosed := (events_delivered_once hcreated hwhole).2.2.2 (by simp) (by simp)
  exact ⟨s, o, _, hcreated, hbefore, hlength, hafter, hsenders, hdropped, hheard, hwhole, hclosed.2⟩

end Promptline.Session
