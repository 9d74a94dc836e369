import DecentDebates.Lib.Transition

set_option autoImplicit false

/-! # The shared rich-text editor (`utils/rich-editor.ts`)

Every notification text is made with one module-level Lexical editor: the nodes are inserted in the
caller's tick, the editor state is serialised in a later `setImmediate`, and the editor is cleared
after that. Lexical itself is a parameter: what its updates make of an editor state, and the text
of a state. -/

namespace DecentDebates

variable {Node EditorState : Type}

structure Lexical (Node EditorState : Type) where
  /-- The state of the editor that `createEditor` makes. -/
  createEditor : EditorState
  /-- `$insertNodes` -/
  insertNodes : EditorState → List Node → EditorState
  /-- `$getRoot().clear()` -/
  clearRoot : EditorState → EditorState
  /-- `JSON.stringify(editor.getEditorState())` -/
  stringify : EditorState → String

/-- The serialisation of an editor that holds these nodes and nothing else. -/
def Lexical.document (L : Lexical Node EditorState) (nodes : List Node) : String :=
  L.stringify (L.insertNodes L.createEditor nodes)

/-- A cleared editor holds nothing: nodes that are inserted into it are its whole document. -/
def Lexical.Clears (L : Lexical Node EditorState) : Prop :=
  ∀ s nodes, L.stringify (L.insertNodes (L.clearRoot s) nodes) = L.document nodes

/-- A promise of `getContent` that has been resolved, with the nodes of its own factory. -/
structure Resolved (Node : Type) where
  nodes : List Node
  content : String
deriving DecidableEq, Repr

structure RichEditor (Node EditorState : Type) where
  editor : EditorState
  /-- The nodes of the calls whose `setImmediate` callback has not run. -/
  reading : List (List Node)
  /-- The number of promises that are resolved and have not run `clearEditor`. -/
  clearing : Nat
  resolved : List (Resolved Node)

inductive EditorStep (Node : Type) where
  /-- `richEditor.insertNodes(nodesFactory).getContent()`, for the nodes that the factory makes. -/
  | insertNodes (nodes : List Node)
  /-- The `setImmediate` callback of the call at this position. -/
  | read (position : Nat)
  /-- A `finally` callback. -/
  | clearEditor

def RichEditor.init (L : Lexical Node EditorState) : RichEditor Node EditorState where
  editor := L.createEditor
  reading := []
  clearing := 0
  resolved := []

def editorStep (L : Lexical Node EditorState) (s : RichEditor Node EditorState) :
    EditorStep Node → RichEditor Node EditorState
  | .insertNodes nodes =>
    { s with
      editor := L.insertNodes s.editor nodes
      reading := s.reading ++ [nodes] }
  | .read position =>
    match s.reading[position]? with
    | none => s
    | some nodes =>
      { s with
        reading := s.reading.eraseIdx position
        clearing := s.clearing + 1
        resolved := s.resolved ++ [⟨nodes, L.stringify s.editor⟩] }
  | .clearEditor =>
    if s.clearing = 0 then s
    else
      { s with
        editor := L.clearRoot s.editor
        clearing := s.clearing - 1 }

/-- Nodes are inserted while an earlier call has not been read or not been cleared away. -/
def RichEditor.Overlaps (s : RichEditor Node EditorState) : EditorStep Node → Prop
  | .insertNodes _ => s.reading ≠ [] ∨ s.clearing ≠ 0
  | _ => False

instance (s : RichEditor Node EditorState) [DecidableEq Node] :
    (l : EditorStep Node) → Decidable (s.Overlaps l)
  | .insertNodes _ => inferInstanceAs (Decidable (_ ∨ _))
  | .read _ => isFalse id
  | .clearEditor => isFalse id

end DecentDebates
