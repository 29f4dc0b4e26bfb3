import Promptline.Proofs.History.Submissions
import Promptline.Proofs.Text.Offsets

/-!
What a history keeps to under all its operations, a new cap among them: a fresh slot above submissions no
two neighbours of which are alike, the slot shown among them, and no edit at the watermark or beyond. So a
submission has nothing to drop there, and every slot that an operation reads or writes exists.
-/

set_option autoImplicit false

namespace Promptline.History

variable {h h' : History} {entries : List Entry} {t : Text}

def Entry.IsSubmission (e : Entry) : Prop :=
  Text.isBlank e.committed = false ∧
    e.block = if '\n' ∈ e.committed then some e.committed else none

/-- Entries of submissions below the slot being typed into, edits aside. -/
structure Recorded (entries : List Entry) : Prop where
  newest : ∀ e ∈ entries.head?, e.committed = [] ∧ e.block = none
  submitted : ∀ e ∈ entries.tail, e.IsSubmission
  distinct : entries.tail.IsChain fun newer older => newer.committed ≠ older.committed

structure WellFormed (h : History) : Prop where
  recorded : Recorded h.entries
  index_lt : h.index < h.entries.length
  watermark_le : h.watermark ≤ h.entries.length
  untouched : ∀ e ∈ h.entries.drop h.watermark, e.current = e.committed
  cap_le : ∀ cap ∈ h.cap, 2 ≤ cap

inductive Change
  | operate (op : Operation)
  | limit (cap : Option Nat)

def change (h : History) : Change → History
  | .operate op => h.apply op
  | .limit cap => h.withCap cap

/-- Reverting edits shows nowhere but in the live values. -/
theorem recorded_reverted (entries : List Entry) :
    Recorded (entries.map Entry.reverted) ↔ Recorded entries := by
  cases entries with
  | nil => exact Iff.rfl
  | cons newest older =>
    have hsubmitted : (∀ e ∈ older.map Entry.reverted, e.IsSubmission) ↔ ∀ e ∈ older, e.IsSubmission :=
      List.forall_mem_map
    have hdistinct := List.isChain_map (R := fun newer older : Entry => newer.committed ≠ older.committed)
      Entry.reverted (l := older)
    constructor
    · intro h
      refine ⟨?_, hsubmitted.mp h.submitted, hdistinct.mp h.distinct⟩
      rintro _ ⟨⟩
      exact h.newest newest.reverted rfl
    · intro h
      refine ⟨?_, hsubmitted.mpr h.submitted, hdistinct.mpr h.distinct⟩
      rintro _ ⟨⟩
      exact h.newest newest rfl

theorem isSubmission_ofSubmission (ht : Text.isBlank t = false) :
    (Entry.ofSubmission t).IsSubmission :=
  ⟨ht, by simp [Entry.ofSubmission]⟩

theorem Recorded.take (hr : Recorded entries) {cap : Nat} (hcap : 2 ≤ cap) : Recorded (entries.take cap) := by
  obtain ⟨cap, rfl⟩ := Nat.exists_eq_add_of_le' hcap
  cases entries with
  | nil => exact hr
  | cons newest older =>
    exact ⟨hr.newest, fun e he => hr.submitted e (List.mem_of_mem_take he), hr.distinct.take _⟩

/-- An accepted text is not the one below it. -/
theorem Recorded.grow (hr : Recorded h.entries) (ha : h.accepts t = true) :
    Recorded (Entry.blank :: Entry.ofSubmission t :: (h.entries.map Entry.reverted).tail) := by
  have hreverted := (recorded_reverted h.entries).mpr hr
  rw [accepts, Bool.and_eq_true, Bool.not_eq_true', bne_iff_ne, slot?] at ha
  refine ⟨?_, ?_, List.isChain_cons.mpr ⟨?_, hreverted.distinct⟩⟩
  · rintro _ ⟨⟩
    exact ⟨rfl, rfl⟩
  · exact List.forall_mem_cons.mpr ⟨isSubmission_ofSubmission ha.1, hreverted.submitted⟩
  · intro e he hsame
    rw [List.head?_tail, List.getElem?_map] at he
    obtain ⟨older, holder, rfl⟩ := Option.map_eq_some_iff.mp he
    exact ha.2 (by rw [holder]; exact congrArg some hsame.symm)

theorem wellFormed_new : new.WellFormed where
  recorded := ⟨by rintro _ ⟨⟩; exact ⟨rfl, rfl⟩, List.forall_mem_nil _, List.isChain_nil⟩
  index_lt := Nat.one_pos
  watermark_le := Nat.zero_le _
  untouched := List.forall_mem_singleton.mpr rfl
  cap_le := by rintro _ ⟨⟩

theorem WellFormed.withCap (hw : h.WellFormed) (cap : Option Nat) : (h.withCap cap).WellFormed where
  recorded := hw.recorded
  index_lt := hw.index_lt
  watermark_le := hw.watermark_le
  untouched := hw.untouched
  cap_le := by
    intro n hn
    obtain ⟨m, -, rfl⟩ := Option.map_eq_some_iff.mp hn
    exact Nat.le_max_right m 2

theorem WellFormed.sync (hw : h.WellFormed) (t : Text) : (h.sync t).WellFormed where
  recorded := by rw [← recorded_reverted, sync_reverted, recorded_reverted]; exact hw.recorded
  index_lt := by
    rw [History.sync, List.length_modify]
    exact hw.index_lt
  watermark_le := by
    rw [History.sync, List.length_modify]
    exact Nat.max_le.mpr ⟨hw.watermark_le, hw.index_lt⟩
  untouched := by
    intro e he
    rw [History.sync, List.drop_modify_of_lt _ _ _ _ (Nat.lt_of_succ_le (Nat.le_max_right _ _))] at he
    exact hw.untouched e (List.drop_subset_drop_left _ (Nat.le_max_left _ _) he)
  cap_le := hw.cap_le

theorem commit_entries_cases (h : History) (t : Text) :
    (h.commit t).entries = h.entries.map Entry.reverted ∨ h.accepts t = true ∧
      ((h.commit t).entries = Entry.blank :: Entry.ofSubmission t :: (h.entries.map Entry.reverted).tail ∨
        ∃ cap ∈ h.cap, (h.commit t).entries =
          (Entry.blank :: Entry.ofSubmission t :: (h.entries.map Entry.reverted).tail).take cap) := by
  unfold History.commit
  dsimp only
  split
  · rename_i ha
    refine Or.inr ⟨ha, ?_⟩
    cases hcap : h.cap with
    | none => exact Or.inl rfl
    | some cap => exact Or.inr ⟨cap, rfl, rfl⟩
  · exact Or.inl rfl

theorem commit_untouched (h : History) (t : Text) :
    ∀ e ∈ (h.commit t).entries, e.current = e.committed := by
  have hreverted : ∀ e ∈ h.entries.map Entry.reverted, e.current = e.committed :=
    List.forall_mem_map.mpr fun _ _ => rfl
  have hgrown : ∀ e ∈ Entry.blank :: Entry.ofSubmission t :: (h.entries.map Entry.reverted).tail,
      e.current = e.committed :=
    List.forall_mem_cons.mpr ⟨rfl, List.forall_mem_cons.mpr
      ⟨rfl, fun e he => hreverted e (List.mem_of_mem_tail he)⟩⟩
  rcases commit_entries_cases h t with heq | ⟨-, heq | ⟨cap, -, heq⟩⟩
  · rwa [heq]
  · rwa [heq]
  · rw [heq]
    exact fun e he => hgrown e (List.mem_of_mem_take he)

theorem WellFormed.commit (hw : h.WellFormed) (t : Text) : (h.commit t).WellFormed where
  recorded := by
    rcases commit_entries_cases h t with heq | ⟨ha, heq | ⟨cap, hcap, heq⟩⟩
    · rw [heq, recorded_reverted]
      exact hw.recorded
    · rw [heq]
      exact hw.recorded.grow ha
    · rw [heq]
      exact (hw.recorded.grow ha).take (hw.cap_le cap hcap)
  index_lt := by
    change 0 < (h.commit t).entries.length
    have hpos := Nat.lt_of_le_of_lt (Nat.zero_le _) hw.index_lt
    rcases commit_entries_cases h t with heq | ⟨ha, heq | ⟨cap, hcap, heq⟩⟩
    · rwa [heq, List.length_map]
    · rw [heq]
      exact Nat.succ_pos _
    · have hle := hw.cap_le cap hcap
      rw [heq, List.length_take, List.length_cons]
      omega
  watermark_le := Nat.zero_le _
  untouched := fun e he => commit_untouched h t e (List.mem_of_mem_drop he)
  cap_le := hw.cap_le

theorem WellFormed.prev (hw : h.WellFormed) (hp : h.prev? = some h') : h'.WellFormed := by
  unfold prev? at hp
  split at hp
  · rename_i hlt
    cases hp
    exact { hw with index_lt := hlt }
  · cases hp

/-- The slot shown exists, so that there is no need to look for a nearer one. -/
theorem WellFormed.next?_eq (hw : h.WellFormed) :
    h.next? = if h.index = 0 then none else some { h with index := h.index - 1 } := by
  have hlt := hw.index_lt
  have hmin : min (h.index - 1) (h.entries.length - 1) = h.index - 1 := by omega
  rw [next?, hmin]

theorem WellFormed.next (hw : h.WellFormed) (hn : h.next? = some h') : h'.WellFormed := by
  rw [hw.next?_eq] at hn
  split at hn
  · cases hn
  · cases hn
    exact { hw with index_lt := Nat.lt_of_le_of_lt (Nat.sub_le _ _) hw.index_lt }

theorem WellFormed.change (hw : h.WellFormed) (c : Change) : (h.change c).WellFormed := by
  cases c with
  | limit cap => exact hw.withCap cap
  | operate op =>
    cases op with
    | sync t => exact hw.sync t
    | commit t => exact hw.commit t
    | prev =>
      cases hp : h.prev? with
      | none => simpa [History.change, apply, hp] using hw
      | some h' => simpa [History.change, apply, hp] using hw.prev hp
    | next =>
      cases hn : h.next? with
      | none => simpa [History.change, apply, hn] using hw
      | some h' => simpa [History.change, apply, hn] using hw.next hn

theorem WellFormed.run (hw : h.WellFormed) (cs : List Change) : (cs.foldl History.change h).WellFormed := by
  induction cs generalizing h with
  | nil => exact hw
  | cons c cs ih => exact ih (hw.change c)

/-- A history without any slot would begin again. -/
def ensured (h : History) : History :=
  if h.entries.isEmpty then { h with entries := [Entry.blank], index := 0, watermark := 0 } else h

def set? (entries : List Entry) (index : Nat) (e : Entry) : Option (List Entry) :=
  if index < entries.length then some (entries.set index e) else none

def commitWith? (h : History) (reverted : List Entry) (t : Text) : Option History := do
  if ({ h with entries := reverted } : History).accepts t then
    let grown := Entry.blank :: (← set? reverted 0 (Entry.ofSubmission t))
    let entries :=
      match h.cap with
      | none => grown
      | some cap => grown.take cap
    return { h with entries, index := 0, watermark := 0 }
  else return { h with entries := reverted, index := 0, watermark := 0 }

/-- The entries with only those below the watermark reverted. -/
def editsReverted (h : History) : List Entry :=
  (h.entries.take h.watermark).map Entry.reverted ++ h.entries.drop h.watermark

def showAt? (h : History) (index : Nat) : Option (History × Option Text) := do
  let e ← h.slot? index
  return ({ h with index }, some e.current)

/-- An operation with every access checked, and the text that it shows. -/
def operate? (h : History) : Operation → Option (History × Option Text)
  | .sync t => some (h.ensured.sync t, none)
  | .commit t => do
    let submitted ← h.ensured.commitWith? (h.ensured.entries.map Entry.reverted) t
    return (submitted, none)
  | .prev =>
    let h := h.ensured
    if h.entries.length ≤ h.index + 1 then some (h, none) else h.showAt? (h.index + 1)
  | .next => do
    let h := h.ensured
    if h.index = 0 then return (h, none)
    else
      let newer ← Text.sub? h.index 1
      let oldest ← Text.sub? h.entries.length 1
      h.showAt? (min newer oldest)

def reply (h : History) : Operation → Option Text
  | .prev => h.prev?.bind shown?
  | .next => h.next?.bind shown?
  | _ => none

theorem WellFormed.entries_ne_nil (hw : h.WellFormed) : h.entries ≠ [] :=
  List.ne_nil_of_length_pos (Nat.lt_of_le_of_lt (Nat.zero_le _) hw.index_lt)

theorem WellFormed.ensured_eq (hw : h.WellFormed) : h.ensured = h := by
  rw [ensured, if_neg]
  rw [List.isEmpty_iff]
  exact hw.entries_ne_nil

theorem WellFormed.editsReverted_eq (hw : h.WellFormed) : h.editsReverted = h.entries.map Entry.reverted := by
  have hkept : (h.entries.drop h.watermark).map Entry.reverted = h.entries.drop h.watermark := by
    refine (List.map_congr_left fun e he => ?_).trans (List.map_id _)
    exact congrArg (Entry.mk e.committed · e.block) (hw.untouched e he).symm
  rw [editsReverted, ← hkept, ← List.map_append, List.take_append_drop]

theorem accepts_reverted (h : History) (t : Text) :
    ({ h with entries := h.entries.map Entry.reverted } : History).accepts t = h.accepts t := by
  simp only [accepts, slot?, List.getElem?_map, Option.map_map]
  rfl

theorem WellFormed.commitWith?_eq (hw : h.WellFormed) (t : Text) :
    h.commitWith? (h.entries.map Entry.reverted) t = some (h.commit t) := by
  obtain ⟨newest, older, hentries⟩ := List.exists_cons_of_ne_nil hw.entries_ne_nil
  rw [commitWith?, History.commit, accepts_reverted]
  split
  · rw [hentries]
    rfl
  · rfl

theorem showAt?_eq {index : Nat} (hlt : index < h.entries.length) :
    h.showAt? index = some ({ h with index }, ({ h with index } : History).shown?) := by
  simp [showAt?, shown?, slot?, hlt]

theorem WellFormed.operate?_eq (hw : h.WellFormed) (op : Operation) :
    h.operate? op = some (h.apply op, h.reply op) := by
  have hlt := hw.index_lt
  cases op with
  | sync t => rw [operate?, hw.ensured_eq]; rfl
  | commit t =>
    simp only [operate?, hw.ensured_eq, hw.commitWith?_eq]
    rfl
  | prev =>
    rw [operate?, hw.ensured_eq, apply, reply, prev?]
    split
    · rename_i hge
      rw [if_neg (Nat.not_lt.mpr hge)]
      rfl
    · rename_i hnext
      rw [if_pos (Nat.not_le.mp hnext), showAt?_eq (Nat.not_le.mp hnext)]
      rfl
  | next =>
    rw [operate?, hw.ensured_eq, apply, reply, hw.next?_eq]
    split
    · rfl
    · rename_i hindex
      have hnewer : Text.sub? h.index 1 = some (h.index - 1) := if_pos (Nat.one_le_iff_ne_zero.mpr hindex)
      have holdest : Text.sub? h.entries.length 1 = some (h.entries.length - 1) :=
        if_pos (Nat.one_le_of_lt hlt)
      have hmin : min (h.index - 1) (h.entries.length - 1) = h.index - 1 := by omega
      simp only [hnewer, holdest, hmin, Option.bind_eq_bind, Option.bind_some]
      exact showAt?_eq (Nat.lt_of_le_of_lt (Nat.sub_le _ _) hlt)

/-- Whatever is done to a new history, its entries, the slot shown and the watermark fit together. So
dropping the edits of the slots below the watermark is dropping all edits, the next newer slot is always
there, and no operation reads or writes a slot that is not. -/
theorem reachable_wellFormed (cs : List Change) :
    let h := cs.foldl change new
    h.WellFormed ∧
      (∀ t, h.commitWith? h.editsReverted t = some (h.commit t)) ∧
      h.next? = (if h.index = 0 then none else some { h with index := h.index - 1 }) ∧
      ∀ op, h.operate? op = some (h.apply op, h.reply op) := by
  intro h
  have hw : h.WellFormed := wellFormed_new.run cs
  refine ⟨hw, fun t => ?_, hw.next?_eq, hw.operate?_eq⟩
  rw [hw.editsReverted_eq, hw.commitWith?_eq]

end Promptline.History
