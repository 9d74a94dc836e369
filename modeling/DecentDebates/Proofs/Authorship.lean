import DecentDebates.Authorship
import DecentDebates.Proofs.Comments

set_option autoImplicit false

/-! # What a user's call leaves alone: proofs

Each table's frame is read off the list of the ways a call changes a row of it: a change of a
debate, an argument or a comment names its author as the caller. -/

namespace DecentDebates

open Relational Transition

variable {db db' : Database} {c : Call} {userId : Int}

theorem DebateChange.eq_or_author {x x' : DebateRow} (h : DebateChange db c x x')
    (hc : c.actor = some userId) : x' = x ∨ x.createdBy = userId := by
  cases h with
  | same => exact Or.inl rfl
  | retitled title ht hw =>
    exact Or.inr ((updateDebateWhere_holds.1 hw).2.1.trans (Option.some.inj hc))

theorem ArgumentChange.eq_or_author {a a' : ArgumentRow} (h : ArgumentChange db c a a')
    (hc : c.actor = some userId) : a' = a ∨ a.createdBy = userId := by
  cases h with
  | same => exact Or.inl rfl
  | redrafted hcols hw =>
    exact Or.inr ((updateDraftWhere_holds.1 hw).2.1.trans (Option.some.inj hc))
  | submitted hd hw =>
    exact Or.inr ((submitDraftWhere_holds.1 hw).2.2.trans (Option.some.inj hc))
  | edited title content ht hw =>
    exact Or.inr ((updateArgumentWhere_holds.1 hw).2.1.trans (Option.some.inj hc))

theorem CommentChange.eq_or_author {tc tc' : TicketCommentRow} (h : CommentChange c tc tc')
    (hc : c.actor = some userId) : tc' = tc ∨ tc.commenterId = userId := by
  cases h with
  | same => exact Or.inl rfl
  | edited content hauthor => exact Or.inr (hauthor.trans (Option.some.inj hc))

theorem TicketChange.eq_of_author {t t' : TicketRow} (h : TicketChange c t t')
    (hc : c.byModerator = false) : t' = t := by
  cases h with
  | same => rfl
  | moved => exact nomatch hc
  | approved => exact nomatch hc

theorem Database.CommentsOn.actor {ticketId commenterId : Int}
    (h : db.CommentsOn c ticketId commenterId) : c.actor = some commenterId := by
  cases h <;> rfl

/-- The frame of a table whose rows a call follows one by one. -/
theorem AuthorFrame.of_changes {ρ : Type} [SerialRow ρ] {author : ρ → Int} {t t' : SerialTable ρ}
    {Change : ρ → ρ → Prop} {New : ρ → Prop}
    (hnext : ∀ r ∈ t.rows, ∃ r' ∈ t'.rows, Change r r')
    (hprev : ∀ r' ∈ t'.rows, (∃ r ∈ t.rows, Change r r') ∨ New r')
    (hid : ∀ r r', Change r r' → SerialRow.rowId r' = SerialRow.rowId r)
    (hauthor : ∀ r r', Change r r' → r' = r ∨ author r = userId)
    (hnew : ∀ r, New r → author r = userId) : AuthorFrame author userId t t' where
  others := by
    intro r hr hne
    obtain ⟨r', hr', hchange⟩ := hnext r hr
    rcases hauthor r r' hchange with rfl | hby
    · exact hr'
    · exact absurd hby hne
  new := by
    intro r' hr' hfresh
    rcases hprev r' hr' with ⟨r, hr, hchange⟩ | h
    · exact absurd (hid r r' hchange).symm (hfresh r hr)
    · exact hnew r' h
  kept := by
    intro r hr
    obtain ⟨r', hr', hchange⟩ := hnext r hr
    exact ⟨r', hr', hid r r' hchange⟩

/-- **Authorship.** Whatever ids and payloads a user's call has, it changes no debate, argument or
    comment of another author's and, unless it is a moderator's, no ticket of another's; what it
    adds is the user's, and nothing is deleted. -/
theorem authorship_frame (db : Database) (c : Call) (userId : Int) (hc : c.actor = some userId) :
    db.Confined c userId := by
  have heff := step_effect db c
  have hframe := step_frame db c
  refine ⟨?_, ?_, ?_, ?_, ?_, ?_, ?_, hframe.debateTags, hframe.assocDebateTags⟩
  · exact .of_changes (fun _ => heff.debate_next) (fun _ => heff.debate_prev)
      (fun _ _ h => h.id) (fun _ _ h => h.eq_or_author hc)
      (fun _ h => Option.some.inj (h.createdBy.symm.trans hc))
  · exact .of_changes (fun _ => heff.argument_next) (fun _ => heff.argument_prev)
      (fun _ _ h => h.id) (fun _ _ h => h.eq_or_author hc)
      (fun _ h => Option.some.inj (h.createdBy.symm.trans hc))
  · exact .of_changes hframe.comment_next hframe.comment_prev
      (fun _ _ h => h.id) (fun _ _ h => h.eq_or_author hc)
      (fun _ h => Option.some.inj (h.commentsOn.actor.symm.trans hc))
  · intro t ht _ hauthor
    obtain ⟨t', ht', hchange⟩ := heff.ticket_next ht
    exact hchange.eq_of_author hauthor ▸ ht'
  · intro t' ht' hfresh
    rcases heff.ticket_prev ht' with ⟨t, ht, hchange⟩ | hnew
    · exact absurd hchange.id.symm (hfresh t ht)
    · exact Option.some.inj (hnew.createdBy.symm.trans hc)
  · intro t ht
    obtain ⟨t', ht', hchange⟩ := heff.ticket_next ht
    exact ⟨t', ht', hchange.id⟩
  · exact fun u hu => heff.user_next hu

/-- Another user's submission of draft 1 leaves the argument as it is. -/
theorem authorship_frame_sample :
    let db := run step (Database.empty String.toLower) (createUsers ++ [proposeDebate,
      .saveArgumentAsDraft 2 ⟨testUser, .int 1, sampleArgument "draft"⟩])
    db.arguments.rows ≠ [] ∧
      db.Confined (.submitDraft ⟨moderatorOne, .int 1, .int 1, sampleArgument "mine"⟩) 2 :=
  ⟨by decide, authorship_frame _ _ 2 rfl⟩

end DecentDebates
