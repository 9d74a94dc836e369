import DecentDebates.Comments
import DecentDebates.Proofs.Linkage

set_option autoImplicit false

/-! # Who comments on a ticket: proofs

`Effect` follows submissions and tickets; this file follows comments. Only the two conditional
inserts add one and only `updateComment` changes one, so a comment goes back to the call that
inserted it and keeps its ticket and its commenter from there on. -/

namespace DecentDebates

open Relational Transition

variable {db db' : Database} {c : Call}

/-! ## The conditional insert -/

theorem debateReferences_iff {ticketId : Int} :
    debateReferences db ticketId = true ↔ ∃ x ∈ db.debates.rows, x.ticketId = ticketId := by
  simp [debateReferences]

theorem argumentReferences_iff {ticketId : Int} :
    argumentReferences db ticketId = true ↔
      ∃ a ∈ db.arguments.rows, a.ticketId = some ticketId := by
  simp [argumentReferences]

theorem participantWhere_any {ticketId userId : Int} :
    (db.tickets.rows.any fun t => (participantWhere ticketId userId t).holds) = true ↔
      db.ConnectedTo ticketId userId := by
  simp [participantWhere, Database.ConnectedTo]

/-- The comment that the conditional insert stores. -/
def AddCommentData.row (d : AddCommentData) (now : Timestamp) (ticketId : Int) (content : String)
    (id : Int) : TicketCommentRow :=
  ⟨id, ticketId, content, d.commenterId, now, now⟩

/-- The author of a comment has one account, so the join returns the comment once. -/
theorem innerJoin_author (tc : TicketCommentRow) {u : UserRow} (hu : u ∈ db.users.rows)
    (hid : u.id = tc.commenterId) :
    (innerJoin [tc] db.users.rows fun ic u =>
      Truth.eq (some ic.commenterId) (some u.id)).map Comment.ofRows = [Comment.ofRows (tc, u)] := by
  have hjoin := innerJoin_rowId [tc] db.users fun tc => some tc.commenterId
  have hfind : db.users.find? tc.commenterId = some u := SerialTable.find?_eq_some.2 ⟨hu, hid⟩
  refine (congrArg (List.map Comment.ofRows) hjoin).trans ?_
  simp [hfind]

/-- What the conditional insert does: it inserts one comment and returns it, or it rejects. -/
theorem addComment_cases (linked : Database → Int → Bool) (now : Timestamp) (d : AddCommentData)
    (db : Database) :
    (∃ ticketId content u, int4 d.ticketId = .ok ticketId ∧ linked db ticketId = true ∧
      db.ConnectedTo ticketId d.commenterId ∧ u ∈ db.users.rows ∧ u.id = d.commenterId ∧
      addComment linked now d db =
        .resolve (Comment.ofRows (d.row now ticketId content db.ticketComments.next, u))
          { db with ticketComments := db.ticketComments.insert (d.row now ticketId content) }) ∨
    ∃ e, addComment linked now d db = .reject e db := by
  rcases Sql.commit_cases (addCommentSql linked now d) db with
    ⟨comments, db', hok, hcommit⟩ | ⟨e, -, hcommit⟩
  · simp only [addComment, hcommit]
    simp only [addCommentSql, Sql.bind_eq_ok, Sql.get_eq_ok, Sql.lift_eq_ok] at hok
    obtain ⟨_, _, ⟨rfl, rfl⟩, ticketId, _, ⟨hticket, rfl⟩, content, _, ⟨-, rfl⟩, hok⟩ := hok
    split at hok
    · next hcond =>
      simp only [Sql.bind_eq_ok, Sql.check_eq_ok, Sql.set_eq_ok, Sql.pure_eq_ok] at hok
      obtain ⟨_, _, ⟨-, rfl⟩, _, _, ⟨huser, rfl⟩, _, _, rfl, hcomments, rfl⟩ := hok
      rw [Bool.and_eq_true, participantWhere_any] at hcond
      simp only [List.any_eq_true, decide_eq_true_eq] at huser
      obtain ⟨u, hu, hid⟩ := huser
      have hrow : comments =
          [Comment.ofRows (d.row now ticketId content db.ticketComments.next, u)] := by
        rw [← hcomments]
        exact innerJoin_author (d.row now ticketId content db.ticketComments.next) hu hid
      rw [hrow]
      exact Or.inl ⟨ticketId, content, u, hticket, hcond.1, hcond.2, hu, hid, rfl⟩
    · rw [Sql.pure_eq_ok] at hok
      obtain ⟨rfl, rfl⟩ := hok
      exact Or.inr ⟨_, rfl⟩
  · simp only [addComment, hcommit]
    exact Or.inr ⟨_, rfl⟩

/-! ## Comments through a call -/

/-- The ways a call changes a comment. -/
inductive CommentChange : Call → TicketCommentRow → TicketCommentRow → Prop
  | same (c : Call) (tc : TicketCommentRow) : CommentChange c tc tc
  | edited {now : Timestamp} {user : UserCookieData} {d : UpdateCommentData}
      {tc : TicketCommentRow} (content : String) (hauthor : tc.commenterId = user.id) :
      CommentChange (.updateComment now user d) tc { tc with content := content, modifiedAt := now }

/-- A comment that a call has inserted. -/
structure NewComment (db : Database) (c : Call) (tc : TicketCommentRow) : Prop where
  id : tc.id = db.ticketComments.next
  commentsOn : db.CommentsOn c tc.ticketId tc.commenterId
  connected : db.ConnectedTo tc.ticketId tc.commenterId
  user : ∃ u ∈ db.users.rows, u.id = tc.commenterId

theorem CommentChange.id {tc tc' : TicketCommentRow} (h : CommentChange c tc tc') :
    tc'.id = tc.id := by
  cases h <;> rfl

theorem CommentChange.ticketId {tc tc' : TicketCommentRow} (h : CommentChange c tc tc') :
    tc'.ticketId = tc.ticketId := by
  cases h <;> rfl

theorem CommentChange.commenterId {tc tc' : TicketCommentRow} (h : CommentChange c tc tc') :
    tc'.commenterId = tc.commenterId := by
  cases h <;> rfl

/-- What a call does to the tables that `Effect` does not follow row by row. -/
structure Frame (db : Database) (c : Call) (db' : Database) : Prop where
  debateTags : ∀ g ∈ db.debateTags.rows, g ∈ db'.debateTags.rows
  assocDebateTags : ∀ x ∈ db.assocDebateTags.rows, x ∈ db'.assocDebateTags.rows
  comment_next : ∀ tc ∈ db.ticketComments.rows, ∃ tc' ∈ db'.ticketComments.rows,
    CommentChange c tc tc'
  comment_prev : ∀ tc' ∈ db'.ticketComments.rows,
    (∃ tc ∈ db.ticketComments.rows, CommentChange c tc tc') ∨ NewComment db c tc'

/-- A call that leaves the comments alone. -/
theorem Frame.of_comments (c : Call) (htags : ∀ g ∈ db.debateTags.rows, g ∈ db'.debateTags.rows)
    (hassoc : ∀ x ∈ db.assocDebateTags.rows, x ∈ db'.assocDebateTags.rows)
    (hcomments : db'.ticketComments.rows = db.ticketComments.rows) : Frame db c db' where
  debateTags := htags
  assocDebateTags := hassoc
  comment_next := fun tc htc => ⟨tc, hcomments ▸ htc, .same c tc⟩
  comment_prev := fun tc htc => Or.inl ⟨tc, hcomments ▸ htc, .same c tc⟩

theorem Frame.refl (db : Database) (c : Call) : Frame db c db :=
  .of_comments c (fun _ h => h) (fun _ h => h) rfl

theorem createDebate_frame (now : Timestamp) (user : UserCookieData) (d : CreateDebateDTO)
    (db : Database) : Frame db (.createDebate now user d) (createDebate now user d db).db := by
  rw [createDebate_commit]
  refine Sql.commit_rule (.refl db _) fun ticketId db' hok => ?_
  obtain ⟨title, tags, assoc, -, -, -, htags, hassoc, rfl⟩ := createDebateSql_ok hok
  exact .of_comments _ htags hassoc rfl

theorem createArgument_frame (now : Timestamp) (d : CreateArgumentData) (db : Database) :
    Frame db (.createArgument now d) (createArgument now d db).db := by
  rw [createArgument_commit]
  refine Sql.commit_rule (.refl db _) fun ticketId db' hok => ?_
  obtain ⟨debateId, c, -, -, -, -, -, -, -, rfl⟩ := createArgumentSql_eq_ok.1 hok
  exact .of_comments _ (fun _ h => h) (fun _ h => h) rfl

theorem saveArgumentAsDraft_frame (now : Timestamp) (d : CreateArgumentData) (db : Database) :
    Frame db (.saveArgumentAsDraft now d) (saveArgumentAsDraft now d db).db := by
  rw [saveArgumentAsDraft_commit]
  refine Sql.commit_rule (.refl db _) fun id db' hok => ?_
  obtain ⟨debateId, c, -, -, -, -, -, -, rfl⟩ := insertArgument_eq_ok.1 hok
  exact .of_comments _ (fun _ h => h) (fun _ h => h) rfl

theorem updateDraft_frame (d : UpdateDraftData) (db : Database) :
    Frame db (.updateDraft d) (updateDraft d db).db := by
  rw [updateDraft_commit]
  refine Sql.commit_rule (.refl db _) fun n db' hok => ?_
  obtain ⟨c, debateId, draftId, -, -, -, rfl, -⟩ := updateDraftSql_eq_ok.1 hok
  exact .of_comments _ (fun _ h => h) (fun _ h => h) rfl

theorem submitDraft_frame (d : SubmitDraftData) (db : Database) :
    Frame db (.submitDraft d) (submitDraft d db).db := by
  rw [submitDraft_commit]
  refine Sql.commit_rule (.refl db _) fun u db' hok => ?_
  obtain ⟨c, draftId, debateId, -, rfl⟩ := submitDraftSql_eq_ok.1 hok
  exact .of_comments _ (fun _ h => h) (fun _ h => h) rfl

theorem updateArgument_frame (d : UpdateArgumentData) (db : Database) :
    Frame db (.updateArgument d) (updateArgument d db).db := by
  rw [updateArgument_commit]
  refine Sql.commit_rule (.refl db _) fun n db' hok => ?_
  obtain ⟨title, content, argumentId, -, -, rfl⟩ := updateArgumentSql_ok hok
  exact .of_comments _ (fun _ h => h) (fun _ h => h) rfl

theorem updateDebate_frame (d : UpdateDebateData) (db : Database) :
    Frame db (.updateDebate d) (updateDebate d db).db := by
  rw [updateDebate_commit]
  refine Sql.commit_rule (.refl db _) fun n db' hok => ?_
  obtain ⟨title, debateId, -, -, rfl⟩ := updateDebateSql_ok hok
  exact .of_comments _ (fun _ h => h) (fun _ h => h) rfl

theorem updateTicket_frame (d : UpdateTicketData) (db : Database) :
    Frame db (.updateTicket d) (updateTicket d db).db := by
  rw [updateTicket_commit]
  refine Sql.commit_rule (.refl db _) fun n db' hok => ?_
  obtain ⟨b, -, -, rfl, -⟩ := updateTicketSql_eq_ok.1 hok
  exact .of_comments _ (fun _ h => h) (fun _ h => h) rfl

theorem approveTicket_frame (user : UserCookieData) (ticketId : Int) (db : Database) :
    Frame db (.approveTicket user ticketId) (approveTicket user ticketId db).db := by
  rw [approveTicket_commit]
  refine Sql.commit_rule (.refl db _) fun rows db' hok => ?_
  obtain ⟨-, rfl, -⟩ := approveTicketSql_eq_ok.1 hok
  exact .of_comments _ (fun _ h => h) (fun _ h => h) rfl

theorem insertUser_frame (c : Call) (now : Timestamp) (d : RegisterUserDTO)
    (role : Option UserRole) (db : Database) :
    Frame db c ((insertUser now d role).commit db).2 := by
  refine Sql.commit_rule (.refl db c) fun row db' hok => ?_
  obtain ⟨mk, hmk, rfl⟩ := insertUser_ok hok
  exact .of_comments _ (fun _ h => h) (fun _ h => h) rfl

/-- The two calls that insert a comment differ in the submission they ask for. -/
theorem addComment_frame {linked : Database → Int → Bool} {now : Timestamp} {d : AddCommentData}
    (hon : ∀ ticketId, int4 d.ticketId = .ok ticketId → linked db ticketId = true →
      db.CommentsOn c ticketId d.commenterId) :
    Frame db c (addComment linked now d db).db := by
  rcases addComment_cases linked now d db with
    ⟨ticketId, content, u, hticket, hlinked, hconn, hu, hid, hdb⟩ | ⟨e, hdb⟩
  · rw [hdb]
    refine ⟨fun _ h => h, fun _ h => h, fun tc htc => ?_, fun tc htc => ?_⟩
    · exact ⟨tc, (SerialTable.mem_insert).2 (Or.inl htc), .same c tc⟩
    · rcases (SerialTable.mem_insert).1 htc with htc | rfl
      · exact Or.inl ⟨tc, htc, .same c tc⟩
      · exact Or.inr ⟨rfl, hon ticketId hticket hlinked, hconn, u, hu, hid⟩
  · rw [hdb]
    exact .refl db c

theorem updateCommentWhere_holds {commentId : Option Int} {userId : Int} {tc : TicketCommentRow} :
    (updateCommentWhere commentId userId tc).holds = true ↔
      some tc.id = commentId ∧ tc.commenterId = userId := by
  cases commentId <;> simp [updateCommentWhere]

theorem updateComment_frame (now : Timestamp) (user : UserCookieData) (d : UpdateCommentData)
    (db : Database) : Frame db (.updateComment now user d) (updateComment now user d db).db := by
  rw [updateComment_commit]
  refine Sql.commit_rule (.refl db _) fun n db' hok => ?_
  obtain ⟨content, commentId, -, -, rfl⟩ := updateCommentSql_ok hok
  refine ⟨fun _ h => h, fun _ h => h, fun tc htc => ?_, fun tc htc => ?_⟩
  · by_cases hw : (updateCommentWhere commentId user.id tc).holds = true
    · exact ⟨_, SerialTable.updateWhere_mem htc hw,
        .edited content (updateCommentWhere_holds.1 hw).2⟩
    · exact ⟨tc, SerialTable.updateWhere_mem_of_not htc hw, .same _ tc⟩
  · obtain ⟨tc₀, htc₀, rfl⟩ := (SerialTable.mem_updateWhere).1 htc
    split
    · next hw => exact Or.inl ⟨tc₀, htc₀, .edited content (updateCommentWhere_holds.1 hw).2⟩
    · exact Or.inl ⟨tc₀, htc₀, .same _ tc₀⟩

/-- **Every call keeps the tags, and what it does to a comment is listed.** -/
theorem step_frame (db : Database) (c : Call) : Frame db c (step db c) := by
  cases c with
  | insertOne now d =>
    rw [step, insertOne_commit]
    exact insertUser_frame _ now d _ db
  | seedUser now d role =>
    rw [step, seedUser_commit]
    exact insertUser_frame _ now d _ db
  | createDebate now user d => exact createDebate_frame now user d db
  | createArgument now d => exact createArgument_frame now d db
  | saveArgumentAsDraft now d => exact saveArgumentAsDraft_frame now d db
  | updateDraft d => exact updateDraft_frame d db
  | submitDraft d => exact submitDraft_frame d db
  | updateArgument d => exact updateArgument_frame d db
  | updateDebate d => exact updateDebate_frame d db
  | updateTicket d => exact updateTicket_frame d db
  | approveTicket user ticketId => exact approveTicket_frame user ticketId db
  | addCommentToDebate now d =>
    exact addComment_frame fun _ hticket hlinked =>
      .debate hticket (debateReferences_iff.1 hlinked)
  | addCommentToArgument now d =>
    exact addComment_frame fun _ hticket hlinked =>
      .argument hticket (argumentReferences_iff.1 hlinked)
  | updateComment now user d => exact updateComment_frame now user d db
  | skipIds gaps => exact .of_comments _ (fun _ h => h) (fun _ h => h) rfl

/-- The commenter of a comment has an account. -/
theorem Database.Reachable.commenter (h : db.Reachable) :
    ∀ tc ∈ db.ticketComments.rows, ∃ u ∈ db.users.rows, u.id = tc.commenterId := by
  refine h.invariant (I := fun db => ∀ tc ∈ db.ticketComments.rows,
    ∃ u ∈ db.users.rows, u.id = tc.commenterId) (fun lower => nofun) fun db c hdb tc' htc' => ?_
  have hold : (∃ u ∈ db.users.rows, u.id = tc'.commenterId) →
      ∃ u ∈ (step db c).users.rows, u.id = tc'.commenterId := (step_effect db c).exists_user
  rcases (step_frame db c).comment_prev tc' htc' with ⟨tc, htc, hchange⟩ | hnew
  · exact hold (hchange.commenterId ▸ hdb tc htc)
  · exact hold hnew.user

/-! ## Only participants comment -/

theorem addComment_insertsOrRejects (linked : Database → Int → Bool) (now : Timestamp)
    (d : AddCommentData) (db : Database) : (addComment linked now d db).InsertsOrRejects db := by
  rcases addComment_cases linked now d db with
    ⟨ticketId, content, u, -, -, -, hu, hid, h⟩ | ⟨e, h⟩
  · rw [h]
    refine ⟨iff_of_true ⟨_, rfl⟩ ⟨_, rfl⟩, fun comment hok => ?_, fun hnot => ?_⟩
    · exact ⟨_, u, hu, rfl, hid, (Except.ok.inj hok).symm⟩
    · exact absurd ⟨_, rfl⟩ hnot
  · rw [h]
    refine ⟨iff_of_false (fun ⟨_, hok⟩ => (nomatch hok)) fun ⟨tc, hrows⟩ => ?_,
      fun _ hok => (nomatch hok), fun _ => ⟨⟨e, rfl⟩, rfl⟩⟩
    have hlength := congrArg List.length hrows
    simp [Outcome.reject] at hlength

/-- A comment that is not there before a call and is there after it has been inserted by it. -/
theorem Database.KeepsComment.new {tc : TicketCommentRow} (hold : ¬ db.KeepsComment tc)
    (h : (step db c).KeepsComment tc) : (∀ tc' ∈ db.ticketComments.rows, tc'.id ≠ tc.id) ∧
      db.CommentsOn c tc.ticketId tc.commenterId ∧ db.ConnectedTo tc.ticketId tc.commenterId := by
  obtain ⟨tc', htc', hid, hticket, hcommenter⟩ := h
  rcases (step_frame db c).comment_prev tc' htc' with ⟨tc₀, htc₀, hchange⟩ | hnew
  · refine absurd ⟨tc₀, htc₀, hchange.id.symm.trans hid, ?_, ?_⟩ hold
    · exact hchange.ticketId.symm.trans hticket
    · exact hchange.commenterId.symm.trans hcommenter
  · rw [← hticket, ← hcommenter]
    refine ⟨fun tc₀ htc₀ hsame => ?_, hnew.commentsOn, hnew.connected⟩
    exact SerialTable.ne_next htc₀ (hsame.trans (hid.symm.trans hnew.id))

/-- **Only participants comment.** In the last state of any run, every comment was inserted by a
    call `c` of the run, in a state in which its ticket existed, was referenced by a debate or an
    argument, whichever `c` asks for, and had the commenter as its author or its assignee; it has
    had the same ticket and commenter ever since. In every state an insertion returns a comment
    exactly when it has inserted one, and otherwise rejects and changes nothing. -/
theorem comments_by_participants (lower : String → String) (calls : List Call) :
    (∀ tc ∈ (run step (Database.empty lower) calls).ticketComments.rows,
      ∃ pre c post, calls = pre ++ c :: post ∧
        (∀ tc' ∈ (run step (Database.empty lower) pre).ticketComments.rows, tc'.id ≠ tc.id) ∧
        (run step (Database.empty lower) pre).CommentsOn c tc.ticketId tc.commenterId ∧
        (run step (Database.empty lower) pre).ConnectedTo tc.ticketId tc.commenterId ∧
        ∀ mid, mid <+: post →
          (run step (Database.empty lower) (pre ++ c :: mid)).KeepsComment tc) ∧
    ∀ (db : Database) (now : Timestamp) (d : AddCommentData),
      (addCommentToDebate now d db).InsertsOrRejects db ∧
        (addCommentToArgument now d db).InsertsOrRejects db := by
  constructor
  · intro tc htc
    let Kept : Database → Prop := fun s => s.KeepsComment tc
    have hempty : ¬ Kept (Database.empty lower) := by
      rintro ⟨tc', htc', -⟩
      simp [Database.empty] at htc'
    have hnow : Kept (run step (Database.empty lower) calls) := ⟨tc, htc, rfl, rfl, rfl⟩
    obtain ⟨pre, c, post, rfl, hpre, hpost⟩ := exists_last_rise hempty hnow
    have hrise := hpost [] (List.nil_prefix)
    rw [run_append, run_cons, run_nil] at hrise
    obtain ⟨hfresh, hon, hconn⟩ := hrise.new hpre
    exact ⟨pre, c, post, rfl, hfresh, hon, hconn, hpost⟩
  · intro db now d
    exact ⟨addComment_insertsOrRejects _ now d db, addComment_insertsOrRejects _ now d db⟩

end DecentDebates
