import Promptline.Proofs.Buffer.Characters
import Promptline.Proofs.Session.Invariant
import Promptline.Proofs.Text.Newlines

set_option autoImplicit false

namespace Promptline

variable {A : Char → Prop}

namespace History

def Within (A : Char → Prop) (h : History) : Prop :=
  ∀ e ∈ h.entries, (∀ c ∈ e.committed, A c) ∧ ∀ c ∈ e.current, A c

variable {h h' : History} {t : Text}

theorem Within.sync (hh : Within A h) (ht : ∀ c ∈ t, A c) : Within A (h.sync t) := by
  intro e he
  obtain ⟨i, hi⟩ := List.mem_iff_getElem?.mp he
  simp only [History.sync, List.getElem?_modify] at hi
  obtain ⟨e₀, he₀, rfl⟩ := Option.map_eq_some_iff.mp hi
  have hold := hh e₀ (List.mem_of_getElem? he₀)
  split
  · exact ⟨hold.1, ht⟩
  · exact hold

theorem Within.commit (hh : Within A h) (ht : ∀ c ∈ t, A c) : Within A (h.commit t) := by
  have hreverted : ∀ e ∈ h.entries.map Entry.reverted,
      (∀ c ∈ e.committed, A c) ∧ ∀ c ∈ e.current, A c := by
    intro e he
    obtain ⟨e₀, he₀, rfl⟩ := List.mem_map.mp he
    exact ⟨(hh e₀ he₀).1, (hh e₀ he₀).1⟩
  have hgrown : ∀ e ∈ Entry.blank :: Entry.ofSubmission t :: (h.entries.map Entry.reverted).tail,
      (∀ c ∈ e.committed, A c) ∧ ∀ c ∈ e.current, A c := by
    intro e he
    rcases List.mem_cons.mp he with rfl | he
    · exact ⟨List.forall_mem_nil A, List.forall_mem_nil A⟩
    · rcases List.mem_cons.mp he with rfl | he
      · exact ⟨ht, ht⟩
      · exact hreverted e (List.mem_of_mem_tail he)
  intro e he
  unfold History.commit at he
  dsimp only at he
  split at he
  · split at he
    · exact hgrown e he
    · exact hgrown e (List.mem_of_mem_take he)
  · exact hreverted e he

theorem Within.shown (hh : Within A h) : ∀ c ∈ h.shown?.getD [], A c := by
  cases hs : h.shown? with
  | none => simp
  | some t =>
    obtain ⟨e, he, rfl⟩ := Option.map_eq_some_iff.mp hs
    exact (hh e (List.mem_of_getElem? he)).2

theorem Within.prev (hh : Within A h) (hp : h.prev? = some h') : Within A h' := by
  unfold prev? at hp
  split at hp
  · cases hp
    exact hh
  · cases hp

theorem Within.next (hh : Within A h) (hn : h.next? = some h') : Within A h' := by
  unfold next? at hn
  split at hn
  · cases hn
  · cases hn
    exact hh

end History

namespace Session

open Keys

def Only (A : Char → Prop) (t : Text) : Prop := ∀ c ∈ t, A c

structure Within (A : Char → Prop) (s : Session) : Prop where
  text : Only A s.editor.buffer.text
  history : History.Within A s.editor.history
  clipboard : Only A (Text.normalizeNewlines s.clipboard.content)

variable {s s' : Session} {b : Buffer} {setup : Setup}

theorem Within.keep (h : Within A s) (htext : s'.editor.buffer.text = s.editor.buffer.text)
    (hhistory : s'.editor.history = s.editor.history)
    (hclipboard : s'.clipboard.content = s.clipboard.content) : Within A s' := by
  refine ⟨?_, ?_, ?_⟩
  · rw [htext]
    exact h.text
  · rw [hhistory]
    exact h.history
  · rw [hclipboard]
    exact h.clipboard

theorem Only.subset {t u : Text} (h : Only A u) (hsub : t ⊆ u) : Only A t :=
  fun c hc => h c (hsub hc)

theorem Only.append {t u : Text} (ht : Only A t) (hu : Only A u) : Only A (t ++ u) := by
  intro c hc
  rcases List.mem_append.mp hc with hc | hc
  · exact ht c hc
  · exact hu c hc

theorem Only.normalizeNewlines {t : Text} (ht : Only A t) (hfeed : A '\n') :
    Only A (Text.normalizeNewlines t) := by
  fun_induction Text.normalizeNewlines t with
  | case1 t ih =>
    have htail : Only A t := fun c hc => ht c (by simp [hc])
    exact List.forall_mem_cons.mpr ⟨hfeed, ih htail⟩
  | case2 c t _ ih =>
    have hhead : A (if c = '\r' then '\n' else c) := by
      split
      · exact hfeed
      · exact ht c List.mem_cons_self
    exact List.forall_mem_cons.mpr ⟨hhead, ih fun d hd => ht d (List.mem_cons_of_mem c hd)⟩
  | case3 => exact List.forall_mem_nil A

theorem Edit.only (h : Edit setup (Only A) s b) (hs : Only A s.editor.buffer.text)
    (hfeed : A '\n') (hunit : Only A setup.config.indentUnit) : Only A b.text := by
  cases h with
  | insert ht => exact (hs.append ht).subset (Buffer.insert_subset _ _)
  | insertReindented ht =>
    have hinserted := (hs.append ht).subset (Buffer.insert_subset _ _)
    exact (hinserted.append hunit).subset (Buffer.reindentLine_subset _ _ _ _)
  | reindentLine => exact (hs.append hunit).subset (Buffer.reindentLine_subset _ _ _ _)
  | reindentAll =>
    refine Only.subset (fun c hc => ?_) (Buffer.reindentAll_subset _ _ _ _)
    rcases List.mem_cons.mp hc with rfl | hc
    · exact hfeed
    · exact hs.append hunit c hc
  | deleteBefore hb => exact hs.subset (Buffer.deleteBefore?_subset hb)
  | deleteAfter hb => exact hs.subset (Buffer.deleteAfter?_subset hb)

theorem within_initial (setup : Setup) (size : Size) (keys : List (Nat × KeyPress))
    {clipboard : Text} (h : Only A (Text.normalizeNewlines clipboard)) :
    Within A (initial setup size clipboard keys) := by
  refine ⟨List.forall_mem_nil A, fun e he => ?_, h⟩
  rw [List.mem_singleton.mp he]
  exact ⟨List.forall_mem_nil A, List.forall_mem_nil A⟩

end Session
end Promptline
