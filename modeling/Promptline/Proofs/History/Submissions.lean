import Mathlib.Data.List.Destutter
import Promptline.History

set_option autoImplicit false

namespace Promptline.History

/-- The submissions that are not blank, repeats in a row collapsed, newest first. -/
def recorded (ts : List Text) : List Text :=
  ((ts.filter fun t => !Text.isBlank t).destutter (· ≠ ·)).reverse

/-- A history with a cap has one slot less for submissions, and always one. -/
def kept (cap : Option Nat) (ts : List Text) : List Text :=
  match cap with
  | none => recorded ts
  | some n => (recorded ts).take (max n 2 - 1)

def ofSubmissions (cap : Option Nat) (ts : List Text) : History where
  entries := Entry.blank :: (kept cap ts).map Entry.ofSubmission
  index := 0
  watermark := 0
  cap := cap.map (max · 2)

inductive Operation
  | sync (t : Text)
  | commit (t : Text)
  | prev
  | next

def apply (h : History) : Operation → History
  | .sync t => h.sync t
  | .commit t => h.commit t
  | .prev => h.prev?.getD h
  | .next => h.next?.getD h

def Operation.submission? : Operation → Option Text
  | .commit t => some t
  | _ => none

variable {cap : Option Nat} {ts : List Text} {h h' : History} {t : Text}

theorem destutter'_concat {α : Type} [DecidableEq α] (b a : α) (l : List α) :
    (l ++ [a]).destutter' (· ≠ ·) b =
      if (l.destutter' (· ≠ ·) b).getLast? = some a then l.destutter' (· ≠ ·) b
      else l.destutter' (· ≠ ·) b ++ [a] := by
  induction l generalizing b with
  | nil => by_cases hb : b = a <;> simp [hb]
  | cons c l ih =>
    by_cases hc : b = c
    · simp only [List.cons_append, hc, List.destutter', ne_eq, not_true, if_false]
      exact ih c
    · have hne : l.destutter' (· ≠ ·) c ≠ [] := List.destutter'_ne_nil _ _
      simp only [List.cons_append, List.destutter', ne_eq, hc, not_false_eq_true, if_true, ih c,
        List.getLast?_cons_of_ne_nil hne]
      split <;> simp

theorem destutter_concat {α : Type} [DecidableEq α] (a : α) (l : List α) :
    (l ++ [a]).destutter (· ≠ ·) =
      if (l.destutter (· ≠ ·)).getLast? = some a then l.destutter (· ≠ ·)
      else l.destutter (· ≠ ·) ++ [a] := by
  cases l with
  | nil => simp
  | cons c l => exact destutter'_concat c a l

theorem recorded_concat (ts : List Text) (t : Text) :
    recorded (ts ++ [t]) =
      if Text.isBlank t ∨ (recorded ts).head? = some t then recorded ts else t :: recorded ts := by
  by_cases hb : Text.isBlank t
  · simp [recorded, hb]
  · have hkept : [t].filter (fun u => !Text.isBlank u) = [t] := by simp [hb]
    simp only [recorded, List.filter_append, hkept, destutter_concat, List.head?_reverse, hb,
      Bool.false_eq_true, false_or]
    split <;> simp

theorem recorded_concat_head? (ts : List Text) (hb : Text.isBlank t = false) :
    (recorded (ts ++ [t])).head? = some t := by
  rw [recorded_concat]
  by_cases hr : (recorded ts).head? = some t
  · simp [hr]
  · simp [hr, hb]

theorem kept_getElem?_zero (cap : Option Nat) (ts : List Text) :
    (kept cap ts)[0]? = (recorded ts).head? := by
  cases cap with
  | none => simp [kept, List.head?_eq_getElem?]
  | some n =>
    have hpos : 0 < max n 2 - 1 := by omega
    simp [kept, List.head?_eq_getElem?, hpos]

theorem kept_eq_of_recorded_eq {ts' : List Text} (hr : recorded ts' = recorded ts) :
    kept cap ts' = kept cap ts := by
  cases cap <;> simp [kept, hr]

theorem kept_concat_self (cap : Option Nat) (ts : List Text) (t : Text) :
    kept cap (ts ++ [t] ++ [t]) = kept cap (ts ++ [t]) := by
  apply kept_eq_of_recorded_eq
  rw [recorded_concat]
  cases hb : Text.isBlank t with
  | true => exact if_pos (Or.inl rfl)
  | false => exact if_pos (Or.inr (recorded_concat_head? ts hb))

/-- With a cap the oldest kept submission may have to go. -/
theorem kept_of_recorded_cons {ts' : List Text} (hr : recorded ts' = t :: recorded ts) :
    kept cap ts' =
      match cap with
      | none => t :: kept cap ts
      | some n => (t :: kept cap ts).take (max n 2 - 1) := by
  cases cap with
  | none => simp [kept, hr]
  | some n =>
    obtain ⟨k, hk⟩ : ∃ k, max n 2 - 1 = k + 1 := ⟨max n 2 - 2, by omega⟩
    simp [kept, hr, hk, List.take_take]

structure Records (cap : Option Nat) (ts : List Text) (h : History) : Prop where
  reverted : h.entries.map Entry.reverted = (ofSubmissions cap ts).entries
  cap : h.cap = cap.map (max · 2)

theorem records_new (cap : Option Nat) : Records cap [] (new.withCap cap) := by
  refine ⟨?_, rfl⟩
  cases cap with
  | none => rfl
  | some n => simp [ofSubmissions, kept, recorded, withCap, new, Entry.reverted, Entry.blank]

theorem reverted_ofSubmissions (cap : Option Nat) (ts : List Text) :
    (ofSubmissions cap ts).entries.map Entry.reverted = (ofSubmissions cap ts).entries := by
  simp only [ofSubmissions, List.map_cons, List.map_map]
  rfl

theorem records_ofSubmissions (cap : Option Nat) (ts : List Text) :
    Records cap ts (ofSubmissions cap ts) :=
  ⟨reverted_ofSubmissions cap ts, rfl⟩

/-- The newest submission is what Up shows first. -/
theorem ofSubmissions_prev? (cap : Option Nat) (ts : List Text) (hb : Text.isBlank t = false) :
    ∃ h, (ofSubmissions cap (ts ++ [t])).prev? = some h ∧ h.shown? = some t := by
  have hnewest := kept_getElem?_zero cap (ts ++ [t])
  rw [recorded_concat_head? ts hb] at hnewest
  have hlt : 0 < (kept cap (ts ++ [t])).length := (List.getElem?_eq_some_iff.mp hnewest).1
  refine ⟨{ ofSubmissions cap (ts ++ [t]) with index := 1 }, ?_, ?_⟩
  · simp [prev?, ofSubmissions, hlt]
  · simp [shown?, slot?, ofSubmissions, hnewest, Entry.ofSubmission]

theorem sync_reverted (h : History) (t : Text) :
    (h.sync t).entries.map Entry.reverted = h.entries.map Entry.reverted := by
  apply List.ext_getElem?
  intro i
  rw [sync, List.getElem?_map, List.getElem?_modify, List.getElem?_map]
  cases h.entries[i]? with
  | none => rfl
  | some e => by_cases hi : h.index = i <;> simp [hi, Entry.reverted]

theorem prev?_entries (hp : h.prev? = some h') : h'.entries = h.entries ∧ h'.cap = h.cap := by
  unfold prev? at hp
  split at hp
  · cases hp
    exact ⟨rfl, rfl⟩
  · cases hp

theorem next?_entries (hn : h.next? = some h') : h'.entries = h.entries ∧ h'.cap = h.cap := by
  unfold next? at hn
  split at hn
  · cases hn
  · cases hn
    exact ⟨rfl, rfl⟩

theorem Records.sync (hr : Records cap ts h) (t : Text) : Records cap ts (h.sync t) :=
  ⟨(sync_reverted h t).trans hr.reverted, hr.cap⟩

theorem Records.of_entries (hr : Records cap ts h) (he : h'.entries = h.entries ∧ h'.cap = h.cap) :
    Records cap ts h' :=
  ⟨by rw [he.1, hr.reverted], by rw [he.2, hr.cap]⟩

theorem Records.slot_committed (hr : Records cap ts h) (i : Nat) :
    (h.slot? (i + 1)).map Entry.committed = (kept cap ts)[i]? := by
  have hslot := congrArg (fun l => (l[i + 1]?).map Entry.committed) hr.reverted
  simp only [ofSubmissions, List.getElem?_cons_succ, List.getElem?_map, Option.map_map] at hslot
  calc (h.slot? (i + 1)).map Entry.committed
      = (h.entries[i + 1]?).map (Entry.committed ∘ Entry.reverted) := rfl
    _ = ((kept cap ts)[i]?).map (Entry.committed ∘ Entry.ofSubmission) := hslot
    _ = (kept cap ts)[i]? := Option.map_id_apply

theorem Records.accepts_iff (hr : Records cap ts h) (t : Text) :
    h.accepts t = true ↔ ¬(Text.isBlank t ∨ (recorded ts).head? = some t) := by
  have hnewest := hr.slot_committed 0
  rw [kept_getElem?_zero] at hnewest
  simp [accepts, hnewest]

theorem Records.recorded_concat (hr : Records cap ts h) (t : Text) :
    recorded (ts ++ [t]) = if h.accepts t then t :: recorded ts else recorded ts := by
  rw [History.recorded_concat]
  by_cases ha : h.accepts t
  · rw [if_neg ((hr.accepts_iff t).mp ha), if_pos ha]
  · rw [if_pos (not_not.mp (mt (hr.accepts_iff t).mpr ha)), if_neg ha]

/-- Nothing but the submissions bears on the history after the next one. -/
theorem Records.commit_eq (hr : Records cap ts h) (t : Text) :
    h.commit t = ofSubmissions cap (ts ++ [t]) := by
  have hrecorded := hr.recorded_concat t
  simp only [commit, ofSubmissions, hr.reverted, hr.cap]
  by_cases ha : h.accepts t
  · rw [if_pos ha] at hrecorded ⊢
    rw [kept_of_recorded_cons hrecorded]
    cases cap with
    | none => rfl
    | some n =>
      obtain ⟨k, hk⟩ : ∃ k, max n 2 = k + 2 := ⟨max n 2 - 2, by omega⟩
      simp [hk, List.map_take]
  · rw [if_neg ha] at hrecorded ⊢
    rw [kept_eq_of_recorded_eq hrecorded]

/-- A text that was submitted can be submitted again without a trace. -/
theorem Records.commit_commit (hr : Records cap ts h) (t : Text) :
    (h.commit t).commit t = h.commit t := by
  have hsubmitted := records_ofSubmissions cap (ts ++ [t])
  rw [hr.commit_eq, hsubmitted.commit_eq]
  simp only [ofSubmissions, kept_concat_self]

/-- A submission is accepted exactly when it changes what is kept. -/
theorem Records.accepts_eq_false_iff (hr : Records cap ts h) (t : Text) :
    h.accepts t = false ↔ kept cap (ts ++ [t]) = kept cap ts := by
  have hrecorded := hr.recorded_concat t
  by_cases ha : h.accepts t
  · rw [if_pos ha] at hrecorded
    have hnewest : (kept cap (ts ++ [t]))[0]? = some t := by
      rw [kept_getElem?_zero, hrecorded, List.head?_cons]
    refine ⟨fun hf => absurd (ha.symm.trans hf) (by simp), fun hk => ?_⟩
    rw [hk, kept_getElem?_zero] at hnewest
    exact absurd (Or.inr hnewest) ((hr.accepts_iff t).mp ha)
  · rw [if_neg ha] at hrecorded
    exact ⟨fun _ => kept_eq_of_recorded_eq hrecorded, fun _ => Bool.eq_false_iff.mpr ha⟩

/-- The submissions after one more operation. -/
theorem Records.apply (hr : Records cap ts h) (op : Operation) :
    Records cap (ts ++ op.submission?.toList) (h.apply op) := by
  cases op with
  | sync t => simpa [Operation.submission?, History.apply] using hr.sync t
  | commit t =>
    simp only [Operation.submission?, Option.toList_some, History.apply, hr.commit_eq t]
    exact records_ofSubmissions cap _
  | prev =>
    simp only [Operation.submission?, Option.toList_none, List.append_nil, History.apply]
    cases hp : h.prev? with
    | none => exact hr
    | some h' => exact hr.of_entries (prev?_entries hp)
  | next =>
    simp only [Operation.submission?, Option.toList_none, List.append_nil, History.apply]
    cases hn : h.next? with
    | none => exact hr
    | some h' => exact hr.of_entries (next?_entries hn)

theorem Records.run (hr : Records cap ts h) (ops : List Operation) :
    Records cap (ts ++ ops.filterMap Operation.submission?) (ops.foldl History.apply h) := by
  induction ops generalizing ts h with
  | nil => simpa using hr
  | cons op ops ih =>
    have hrest := ih (hr.apply op)
    cases hs : op.submission? <;> simpa [hs, List.filterMap_cons] using hrest

/-- Whatever is done to a history, its slots hold the newest of the submissions recorded so far; a
submission is accepted exactly when it is one of them, and after it the history is one of the
submissions alone. -/
theorem history_of_submissions (cap : Option Nat) (ops : List Operation) :
    let h := ops.foldl apply (new.withCap cap)
    let ts := ops.filterMap Operation.submission?
    (∀ i, (h.slot? (i + 1)).map Entry.committed = (kept cap ts)[i]?) ∧
      ∀ t, (h.accepts t = true ↔ recorded (ts ++ [t]) = t :: recorded ts) ∧
        (h.accepts t = false ↔ kept cap (ts ++ [t]) = kept cap ts) ∧
        h.commit t = ofSubmissions cap (ts ++ [t]) := by
  intro h ts
  have hr : Records cap ts h := by simpa using (records_new cap).run ops
  refine ⟨hr.slot_committed, fun t => ⟨?_, hr.accepts_eq_false_iff t, hr.commit_eq t⟩⟩
  rw [hr.recorded_concat t]
  by_cases ha : h.accepts t
  · simp [ha]
  · simp [ha]

end Promptline.History
