import DecentDebates.DebateCache

set_option autoImplicit false

/-! # The cache of published debates: proofs -/

namespace DecentDebates

open Relational Transition CacheAside

theorem debateBody_eq_some {db : Database} {debateId : JsNumber} {data : DebateBody} :
    debateBody db debateId = some data ↔
      getDebateArguments debateId db >>= getDebates = .ok data := by
  unfold debateBody
  cases getDebateArguments debateId db >>= getDebates <;> simp [Except.toOption]

/-- A body that is cached is the one the endpoint answers with. -/
theorem getDebate_eq_ok {db : Database} {id : String} {debateId : JsNumber} {data : DebateBody}
    (hid : parseIntPipe id = some debateId) :
    DebatesController.getDebate id db = .ok data ↔ debateBody db debateId = some data := by
  rw [debateBody_eq_some]
  simp only [DebatesController.getDebate, hid]
  split
  · next e he =>
    rw [he]
    cases e <;> simp [HttpResponse.ofError]
  · next data' hdata =>
    rw [hdata]
    simp

/-- **When the debate cache is coherent.** In every state of a run a `GET` that is answered from the
    cache is answered with a body that is not older than the last finished request that changed
    the ACCEPTED arguments of its debate, exactly if no step of the run leaves a stale body: no such
    request finishes while a body from before it is cached, unless it deletes this very key, and
    no `GET` stores a body that it read before such a request. -/
theorem debate_cache_fresh_iff (lower : String → String) (ls : List CacheStep) :
    (∀ s ∈ states cacheStep (.init (Database.empty lower)) ls, AnswersFresh s) ↔
      ∀ p ∈ steps cacheStep (.init (Database.empty lower)) ls, ¬ p.1.LeavesStale p.2 := by
  have hfresh : ∀ s : CacheState, AnswersFresh s ↔ s.Truthful debatesSource ∧ s.Coherent := by
    intro s
    constructor
    · intro h
      refine ⟨fun debateId entry he => ?_, fun debateId entry he => (h debateId entry he).2⟩
      obtain ⟨⟨db, hdb, hbody⟩, -⟩ := h debateId entry he
      exact ⟨db, hdb, debateBody_eq_some.2 hbody⟩
    · rintro ⟨htrue, hcoherent⟩ debateId entry he
      obtain ⟨db, hdb, hbody⟩ := htrue debateId entry he
      exact ⟨⟨db, hdb, debateBody_eq_some.1 hbody⟩, hcoherent debateId entry he⟩
  simp only [hfresh]
  exact coherent_iff _ ls

/-- An argument is up for review and the debate is cached; then a moderator moves the argument's
    ticket to ACCEPTED. -/
def publishedBehindCache : List CacheStep :=
  let account := fun (u : UserCookieData) => ⟨u.username ++ "@example.com", u.username, "password"⟩
  [.write (.call (.seedUser 0 (account testUser) testUser.role) rfl),
    .write (.call (.seedUser 0 (account moderatorOne) moderatorOne.role) rfl),
    .write (.call proposeDebate rfl),
    .write (.call (.createArgument 2 ⟨testUser, .int 1, sampleArgument "An argument"⟩) rfl),
    .write (.updateTicket moderatorOne 2 ⟨"IN REVIEW"⟩), .get (.int 1), .read 0, .store 0,
    .write (.updateTicket moderatorOne 2 ⟨"ACCEPTED"⟩), .finish 5]

theorem updateTicket_leaves_stale_body :
    ¬ ∀ (lower : String → String) (ls : List CacheStep),
      ∀ s ∈ states cacheStep (.init (Database.empty lower)) ls, AnswersFresh s := by
  intro h
  have hstale := (h id publishedBehindCache _ (run_mem_states _ _) (.int 1)
    ⟨⟨some ⟨1, "Moderator review debate"⟩, []⟩, 5⟩ (by decide +kernel)).2
  exact absurd hstale (by decide +kernel)

end DecentDebates
