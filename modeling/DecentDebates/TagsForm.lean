import DecentDebates.Lib.Transition

set_option autoImplicit false

/-! # Selecting and creating tags (`Tags.tsx`)

The form of a new debate and the filters let a user choose among tags, and the former also make new
ones. What is selected is kept as ids; a tag that the user has made gets the current time as its
id. -/

namespace DecentDebates.TagsForm

structure Tag where
  id : Int
  name : String
deriving DecidableEq, Repr

structure State where
  /-- `props.debateTags` as of the last render. -/
  props : List Tag
  debateTags : List Tag
  selectedTagsIds : List Int
  /-- The keys of the object. -/
  createdTagsIds : List Int
deriving DecidableEq, Repr

def State.mount (tags : List Tag) : State where
  props := tags
  debateTags := tags
  selectedTagsIds := []
  createdTagsIds := []

def State.find (s : State) (tId : Int) : Option Tag := s.debateTags.find? (·.id = tId)

/-- The tags may contain an `undefined`; the names of the created ones are read, which would throw
    (`none`) at one. -/
def getSelectedTags (s : State) : Option (List (Option Tag) × List String) := do
  let existingSelectedTags := (s.selectedTagsIds.filter (· ∉ s.createdTagsIds)).map s.find
  let createdTagsNames ←
    (s.selectedTagsIds.filter (· ∈ s.createdTagsIds)).mapM fun tId => (s.find tId).map Tag.name
  return (existingSelectedTags, createdTagsNames)

/-- `!!selectedTags.find((tId) => tId === tag.id)`: an id that is found may still be falsy. -/
def isItemSelected (selectedTags : List Int) (tag : Tag) : Bool :=
  (selectedTags.find? (· = tag.id)).any (· ≠ 0)

def handleItemSelect (tag : Tag) (s : State) : State :=
  let doesTagExist := (s.find tag.id).isSome
  { s with
    debateTags := if doesTagExist then s.debateTags else s.debateTags ++ [tag]
    createdTagsIds := if doesTagExist then s.createdTagsIds else tag.id :: s.createdTagsIds
    selectedTagsIds :=
      if isItemSelected s.selectedTagsIds tag then s.selectedTagsIds.filter (· ≠ tag.id)
      else s.selectedTagsIds ++ [tag.id] }

def deselectTag (tagIdx : Nat) (s : State) : State :=
  { s with selectedTagsIds := s.selectedTagsIds.eraseIdx tagIdx }

def handleOnClear (s : State) : State :=
  { s with selectedTagsIds := [], createdTagsIds := [], debateTags := s.props }

inductive Event where
  /-- One of the items of the menu, which shows `debateTags`. -/
  | select (i : Nat)
  /-- The item "Create", at a time. -/
  | create (now : Int) (query : String)
  | remove (tagIdx : Nat)
  | clear
  /-- The form is rendered with other tags. -/
  | rerender (tags : List Tag)

def step (canCreateTags : Bool) (s : State) : Event → State
  | .select i => (s.debateTags[i]?).elim s fun tag => handleItemSelect tag s
  | .create now query => if canCreateTags then handleItemSelect ⟨now, query⟩ s else s
  | .remove tagIdx => deselectTag tagIdx s
  | .clear => handleOnClear s
  | .rerender tags => { s with props := tags }

/-- The tag has been passed to the form. -/
def Offered (tags : List Tag) (events : List Event) (tag : Tag) : Prop :=
  tag ∈ tags ∨ ∃ tags', .rerender tags' ∈ events ∧ tag ∈ tags'

/-- The user has made the tag. -/
def Created (canCreateTags : Bool) (events : List Event) (tag : Tag) : Prop :=
  canCreateTags = true ∧ .create tag.id tag.name ∈ events

/-- Ids are those of rows, which start at 1, or times. -/
def Event.Nonzero : Event → Prop
  | .create now _ => now ≠ 0
  | .rerender tags => ∀ tag ∈ tags, tag.id ≠ 0
  | _ => True

end DecentDebates.TagsForm
