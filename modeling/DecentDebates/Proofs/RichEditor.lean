import DecentDebates.RichEditor

set_option autoImplicit false

/-! # The shared rich-text editor: proofs

Without an overlap the editor is blank, or holds the nodes of the one call that waits to be read, or
waits to be cleared. -/

namespace DecentDebates

open Transition

variable {Node EditorState : Type} {L : Lexical Node EditorState}

/-- Whatever is inserted next is the whole document. -/
def RichEditor.Blank (L : Lexical Node EditorState) (s : RichEditor Node EditorState) : Prop :=
  ∀ nodes, L.stringify (L.insertNodes s.editor nodes) = L.document nodes

/-- One call at a time. -/
inductive RichEditor.Phase (L : Lexical Node EditorState) (s : RichEditor Node EditorState) : Prop
  | idle (hreading : s.reading = []) (hclearing : s.clearing = 0) (hblank : s.Blank L)
  | inserted (nodes : List Node) (hreading : s.reading = [nodes]) (hclearing : s.clearing = 0)
      (heditor : L.stringify s.editor = L.document nodes)
  | read (hreading : s.reading = []) (hclearing : s.clearing = 1)

/-- What holds while no calls overlap. -/
structure RichEditor.Separate (L : Lexical Node EditorState) (s : RichEditor Node EditorState) :
    Prop where
  phase : s.Phase L
  resolved : ∀ r ∈ s.resolved, r.content = L.document r.nodes

theorem separate_init : (RichEditor.init L).Separate L :=
  ⟨.idle rfl rfl fun _ => rfl, nofun⟩

theorem separate_step (hL : L.Clears) (s : RichEditor Node EditorState) (l : EditorStep Node)
    (h : s.Separate L) (hl : ¬ s.Overlaps l) : (editorStep L s l).Separate L := by
  cases l with
  | insertNodes nodes =>
    simp only [RichEditor.Overlaps, not_or, not_not] at hl
    refine ⟨?_, h.resolved⟩
    cases h.phase with
    | idle hreading hclearing hblank =>
      exact .inserted nodes (by simp [editorStep, hreading]) hclearing (hblank nodes)
    | inserted nodes' hreading => simp [hreading] at hl
    | read hreading hclearing => simp [hclearing] at hl
  | read position =>
    simp only [editorStep]
    split
    · exact h
    · next nodes hnodes =>
      cases h.phase with
      | idle hreading => simp [hreading] at hnodes
      | inserted nodes' hreading hclearing heditor =>
        -- the only call that waits is the one at position 0
        rw [hreading] at hnodes
        obtain ⟨rfl, rfl⟩ : position = 0 ∧ nodes' = nodes := by
          cases position with
          | zero => simpa using hnodes
          | succ n => simp at hnodes
        refine ⟨.read (by simp [hreading]) (by simp [hclearing]), fun r hr => ?_⟩
        rcases List.mem_append.1 hr with hr | hr
        · exact h.resolved r hr
        · rw [List.mem_singleton.1 hr]
          exact heditor
      | read hreading => simp [hreading] at hnodes
  | clearEditor =>
    simp only [editorStep]
    split
    · exact h
    · next hne =>
      refine ⟨?_, h.resolved⟩
      cases h.phase with
      | idle hreading hclearing => exact absurd hclearing hne
      | inserted nodes hreading hclearing => exact absurd hclearing hne
      | read hreading hclearing =>
        exact .idle hreading (by simp [hclearing]) (hL s.editor)

/-- **Contents do not mix unless calls overlap.** In every state of a run in which nodes are
    inserted only while no other call is under way, every promise that has been resolved has the
    document of its own nodes. -/
theorem contents_do_not_mix (L : Lexical Node EditorState) (hL : L.Clears)
    (ls : List (EditorStep Node))
    (h : ∀ p ∈ steps (editorStep L) (.init L) ls, ¬ p.1.Overlaps p.2) :
    ∀ s ∈ states (editorStep L) (.init L) ls, ∀ r ∈ s.resolved, r.content = L.document r.nodes := by
  have hseparate : ∀ s ∈ states (editorStep L) (.init L) ls, s.Separate L :=
    states_invariant_of_steps (I := RichEditor.Separate L)
      (C := fun s l => ¬ RichEditor.Overlaps s l) (separate_step hL) separate_init h
  exact fun s hs => (hseparate s hs).resolved

/-- Lexical, as far as plain texts go: the document is the list of the nodes inserted. -/
def plainTexts : Lexical String (List String) where
  createEditor := []
  insertNodes := (· ++ ·)
  clearRoot := fun _ => []
  stringify := fun texts => "[" ++ ",".intercalate texts ++ "]"

theorem plainTexts_clears : plainTexts.Clears := fun _ _ => rfl

theorem contents_do_not_mix_sample :
    let s := run (editorStep plainTexts) (.init plainTexts)
      [.insertNodes ["first"], .read 0, .clearEditor, .insertNodes ["second"], .read 0]
    s.resolved.length = 2 ∧ ∀ r ∈ s.resolved, r.content = plainTexts.document r.nodes := by
  intro s
  refine ⟨by decide +kernel, contents_do_not_mix plainTexts plainTexts_clears _ ?_ s
    (run_mem_states _ _)⟩
  simp [steps, editorStep, RichEditor.init, RichEditor.Overlaps]

/-- Two calls in one tick: the first gets the nodes of both and the second an empty document. -/
theorem overlapping_contents_mix :
    ¬ ∀ ls : List (EditorStep String), ∀ s ∈ states (editorStep plainTexts) (.init plainTexts) ls,
      ∀ r ∈ s.resolved, r.content = plainTexts.document r.nodes := by
  intro h
  have hmixed := h [.insertNodes ["first"], .insertNodes ["second"], .read 0, .clearEditor, .read 0]
    _ (run_mem_states _ _)
  exact absurd hmixed (by decide +kernel)

end DecentDebates
