import DecentDebates.Shutdown
import Mathlib.Data.List.Basic

set_option autoImplicit false

/-! # Graceful shutdown: proofs

Every step is one of a few moves of the phase, and `close()` goes on behind it. -/

namespace DecentDebates.Shutdown

open Transition

variable {p : Process} {s : State}

theorem timerDelay_pos (ms : Nat) : 1 ≤ timerDelay ms := by
  unfold timerDelay
  split <;> omega

theorem Event.time_le_one (e : Event) : e.time ≤ 1 := by
  cases e <;> simp [Event.time]

/-- What a step can do while the process has not exited. -/
inductive Move (p : Process) (s : State) : Event → State → Prop
  | nothing {e : Event} (h : e.time = 0 ∨ s.phase = .running) : Move p s e s
  | signal {signal : Signal} {isOpen : Call → Bool} (h : signal ∈ s.listeners) :
      Move p s (.signal signal isOpen)
        (onSignal p signal isOpen { s with listeners := s.listeners.erase signal })
  | killed {signal : Signal} {isOpen : Call → Bool} (h : signal ∉ s.listeners)
      (hinit : p.isInit = false) :
      Move p s (.signal signal isOpen) { s with phase := .exited (.signal signal) }
  | settles {rest : List Stage} {isOpen : Call → Bool} (h : s.closing = some (.awaiting rest)) :
      Move p s (.settles (.ok ()) isOpen) (proceed p isOpen rest s)
  | rejects {rest : List Stage} {message : String} {isOpen : Call → Bool}
      (h : s.closing = some (.awaiting rest)) :
      Move p s (.settles (.error message) isOpen)
        (report p { s with closing := some (.rejected message) })
  | waits {left : Nat} (h : s.phase = .closing left) (hleft : 1 < left) :
      Move p s .tick { s with phase := .closing (left - 1) }
  | timesOut {left : Nat} (h : s.phase = .closing left) (hleft : left ≤ 1) :
      Move p s .tick (fail p (timedOut p.timeout) s)
  | flushes {code left : Nat} {ok : Bool} (h : s.phase = .flushing code left) :
      Move p s (.flushes ok) { s with phase := .exited (.exit code), telemetry := .shutDown ok }
  | flushing {code left : Nat} (h : s.phase = .flushing code left) (hleft : 1 < left) :
      Move p s .tick { s with phase := .flushing code (left - 1) }
  | gaveUp {code left : Nat} (h : s.phase = .flushing code left) (hleft : left ≤ 1) :
      Move p s .tick { s with phase := .exited (.exit code), telemetry := .shutDown false }
  | loopEmpties : Move p s .loopEmpties { s with phase := .exited .loopEmpty }

theorem step_exited {cause : Cause} (h : s.phase = .exited cause) (e : Event) :
    step p s e = s := by
  unfold step
  rw [h]

theorem step_signal (signal : Signal) (isOpen : Call → Bool)
    (h : ∀ cause, s.phase ≠ .exited cause) :
    Move p s (.signal signal isOpen) (step p s (.signal signal isOpen)) := by
  have hstep : step p s (.signal signal isOpen) =
      if signal ∈ s.listeners then
        onSignal p signal isOpen { s with listeners := s.listeners.erase signal }
      else if p.isInit then s else { s with phase := .exited (.signal signal) } := by
    unfold step
    cases hphase : s.phase with
    | exited cause => exact absurd hphase (h cause)
    | _ => rfl
  rw [hstep]
  split
  · next hmem => exact .signal hmem
  · next hmem =>
    split
    · exact .nothing (Or.inl rfl)
    · next hinit => exact .killed hmem (by simpa using hinit)

theorem step_settles (result : Except String Unit) (isOpen : Call → Bool)
    (h : ∀ cause, s.phase ≠ .exited cause) :
    Move p s (.settles result isOpen) (step p s (.settles result isOpen)) := by
  have hstep : step p s (.settles result isOpen) = onSettled p result isOpen s := by
    unfold step
    cases hphase : s.phase with
    | exited cause => exact absurd hphase (h cause)
    | _ => rfl
  rw [hstep]
  unfold onSettled
  split
  · next rest hclosing => exact .settles hclosing
  · next rest message hclosing => exact .rejects hclosing
  · exact .nothing (Or.inl rfl)

theorem step_tick (h : ∀ cause, s.phase ≠ .exited cause) : Move p s .tick (step p s .tick) := by
  cases hphase : s.phase with
  | running =>
    have hstep : step p s .tick = s := by
      unfold step
      rw [hphase]
    rw [hstep]
    exact .nothing (Or.inr hphase)
  | closing left =>
    have hstep : step p s .tick =
        if left ≤ 1 then fail p (timedOut p.timeout) s
        else { s with phase := .closing (left - 1) } := by
      unfold step
      rw [hphase]
    rw [hstep]
    split
    · next hleft => exact .timesOut hphase hleft
    · next hleft => exact .waits hphase (Nat.not_le.1 hleft)
  | flushing code left =>
    have hstep : step p s .tick =
        if left ≤ 1 then { s with phase := .exited (.exit code), telemetry := .shutDown false }
        else { s with phase := .flushing code (left - 1) } := by
      unfold step
      rw [hphase]
    rw [hstep]
    split
    · next hleft => exact .gaveUp hphase hleft
    · next hleft => exact .flushing hphase (Nat.not_le.1 hleft)
  | exited cause => exact absurd hphase (h cause)

theorem step_flushes (ok : Bool) (h : ∀ cause, s.phase ≠ .exited cause) :
    Move p s (.flushes ok) (step p s (.flushes ok)) := by
  cases hphase : s.phase with
  | flushing code left =>
    have hstep : step p s (.flushes ok) =
        { s with phase := .exited (.exit code), telemetry := .shutDown ok } := by
      unfold step
      rw [hphase]
    rw [hstep]
    exact .flushes hphase
  | exited cause => exact absurd hphase (h cause)
  | _ =>
    have hstep : step p s (.flushes ok) = s := by
      unfold step
      rw [hphase]
    rw [hstep]
    exact .nothing (Or.inl rfl)

theorem step_move (h : ∀ cause, s.phase ≠ .exited cause) (e : Event) :
    Move p s e (step p s e) := by
  cases e with
  | signal signal isOpen => exact step_signal signal isOpen h
  | settles result isOpen => exact step_settles result isOpen h
  | flushes ok => exact step_flushes ok h
  | tick => exact step_tick h
  | loopEmpties =>
    have hstep : step p s .loopEmpties = { s with phase := .exited .loopEmpty } := by
      unfold step
      cases hphase : s.phase with
      | exited cause => exact absurd hphase (h cause)
      | _ => rfl
    rw [hstep]
    exact .loopEmpties

/-- A step keeps what holds of every exit and what every move keeps. -/
theorem step_induction {I : State → Nat → Prop}
    (hexited : ∀ s n n' cause, s.phase = .exited cause → n ≤ n' → I s n → I s n')
    (hmove : ∀ s n e s', (∀ cause, s.phase ≠ .exited cause) → Move p s e s' → I s n →
      I s' (n + e.time)) (s : State) (e : Event) (n : Nat) (h : I s n) :
    I (step p s e) (n + e.time) := by
  by_cases hs : ∃ cause, s.phase = .exited cause
  · obtain ⟨cause, hcause⟩ := hs
    rw [step_exited hcause]
    exact hexited s n _ cause hcause (Nat.le_add_right ..) h
  · have hexit : ∀ cause, s.phase ≠ .exited cause := fun cause hc => hs ⟨cause, hc⟩
    exact hmove s n e _ hexit (step_move hexit e) h

/-! ## What `close()` reports -/

/-- Nobody waits for `close()` any more, or it has not settled. -/
theorem report_eq_self (h : ∀ left, s.phase = .closing left →
    ∃ rest, s.closing = some (.awaiting rest)) : report p s = s := by
  unfold report
  split
  · next left hphase hclosing =>
    obtain ⟨rest, hrest⟩ := h left hphase
    rw [hclosing] at hrest
    exact absurd hrest (by simp)
  · next left message hphase hclosing =>
    obtain ⟨rest, hrest⟩ := h left hphase
    rw [hclosing] at hrest
    exact absurd hrest (by simp)
  · rfl

theorem report_resolved {left : Nat} (hphase : s.phase = .closing left)
    (hclosing : s.closing = some .resolved) : report p s = finish p 0 s := by
  unfold report
  rw [hphase, hclosing]

theorem report_rejected {left : Nat} {message : String} (hphase : s.phase = .closing left)
    (hclosing : s.closing = some (.rejected message)) : report p s = fail p message s := by
  unfold report
  rw [hphase, hclosing]

/-! ## The code -/

/-- What holds in each phase, `time` after the start. -/
def Good (p : Process) (s : State) (time : Nat) : Prop :=
  match s.phase with
  | .running => s.started = false ∧ s.closing = none ∧ s.log = []
  | .closing left => s.started = true ∧ timerDelay p.timeout ≤ left + time ∧
      (∃ rest, s.closing = some (.awaiting rest)) ∧ ∃ signal, s.log = [received signal]
  | .flushing code _ =>
      s.started = true ∧ s.telemetry = .shuttingDown ∧ Chosen p code time s
  | .exited (.exit code) =>
      (p.isTelemetryEnabled = true → ∃ flushed, s.telemetry = .shutDown flushed) ∧
        Chosen p code time s
  | .exited _ => True

theorem Chosen.later {code time time' : Nat} (h : Chosen p code time s) (htime : time ≤ time') :
    Chosen p code time' s := by
  obtain ⟨signal, h | ⟨hcode, message, hlog, h | ⟨hmessage, hdelay⟩⟩⟩ := h
  · exact ⟨signal, Or.inl h⟩
  · exact ⟨signal, Or.inr ⟨hcode, message, hlog, Or.inl h⟩⟩
  · exact ⟨signal, Or.inr ⟨hcode, message, hlog, Or.inr ⟨hmessage, Nat.le_trans hdelay htime⟩⟩⟩

/-- A code that was chosen before `close()` settled stays chosen: it is that of the timeout. -/
theorem Chosen.settle {code time : Nat} {rest : List Stage} (h : Chosen p code time s)
    (hclosing : s.closing = some (.awaiting rest)) (closing : Option Closing) (calls : List Call) :
    Chosen p code time { s with closing, calls } := by
  obtain ⟨signal, ⟨_, hresolved, _⟩ | ⟨hcode, message, hlog, hrejected | htimeout⟩⟩ := h
  · rw [hclosing] at hresolved
    exact absurd hresolved (by simp)
  · rw [hclosing] at hrejected
    exact absurd hrejected (by simp)
  · exact ⟨signal, Or.inr ⟨hcode, message, hlog, Or.inr htimeout⟩⟩

theorem good_finish {code time : Nat} (hstarted : s.started = true) (h : Chosen p code time s) :
    Good p (finish p code s) time := by
  unfold finish
  split
  · exact ⟨hstarted, rfl, h⟩
  · next htelemetry => exact ⟨fun henabled => absurd henabled htelemetry, h⟩

/-- `close()` is waited for and has come to something. -/
theorem good_report {left time : Nat} {signal : Signal} {closing : Closing}
    (hphase : s.phase = .closing left) (hstarted : s.started = true)
    (htimer : timerDelay p.timeout ≤ left + time) (hclosing : s.closing = some closing)
    (hlog : s.log = [received signal]) : Good p (report p s) time := by
  cases closing with
  | awaiting rest =>
    rw [report_eq_self fun _ _ => ⟨rest, hclosing⟩]
    unfold Good
    rw [hphase]
    exact ⟨hstarted, htimer, ⟨rest, hclosing⟩, signal, hlog⟩
  | resolved =>
    rw [report_resolved hphase hclosing]
    exact good_finish hstarted ⟨signal, Or.inl ⟨rfl, hclosing, hlog⟩⟩
  | rejected message =>
    rw [report_rejected hphase hclosing]
    refine good_finish hstarted ⟨signal, Or.inr ⟨rfl, message, ?_, Or.inl hclosing⟩⟩
    show s.log ++ [failed message] = _
    rw [hlog]
    rfl

theorem Good.later {time time' : Nat} (h : Good p s time) (htime : time ≤ time') :
    Good p s time' := by
  unfold Good at h ⊢
  split at h
  · exact h
  · exact ⟨h.1, Nat.le_trans h.2.1 (Nat.add_le_add_left htime _), h.2.2⟩
  · exact ⟨h.1, h.2.1, h.2.2.later htime⟩
  · exact ⟨h.1, h.2.later htime⟩
  · exact trivial

theorem good_running (hphase : s.phase = .running) {time : Nat} :
    Good p s time ↔ s.started = false ∧ s.closing = none ∧ s.log = [] := by
  unfold Good
  rw [hphase]

theorem good_closing {left : Nat} (hphase : s.phase = .closing left) {time : Nat} :
    Good p s time ↔ s.started = true ∧ timerDelay p.timeout ≤ left + time ∧
      (∃ rest, s.closing = some (.awaiting rest)) ∧ ∃ signal, s.log = [received signal] := by
  unfold Good
  rw [hphase]

theorem good_flushing {code left : Nat} (hphase : s.phase = .flushing code left) {time : Nat} :
    Good p s time ↔
      s.started = true ∧ s.telemetry = .shuttingDown ∧ Chosen p code time s := by
  unfold Good
  rw [hphase]

/-- `close()` goes on: what it comes to is reported, or nobody waits for it. -/
theorem good_settle {time : Nat} {rest : List Stage} (h : Good p s time)
    (hrest : s.closing = some (.awaiting rest)) (closing : Closing) (calls : List Call) :
    Good p (report p { s with closing := some closing, calls }) time := by
  by_cases hphase : ∃ left, s.phase = .closing left
  · obtain ⟨left, hphase⟩ := hphase
    obtain ⟨hstarted, htimer, _, signal, hlog⟩ := (good_closing hphase).1 h
    exact good_report (s := { s with closing := some closing, calls }) hphase hstarted htimer rfl
      hlog
  · rw [report_eq_self (s := { s with closing := some closing, calls })
      fun left hleft => absurd ⟨left, hleft⟩ hphase]
    unfold Good at h ⊢
    obtain ⟨phase, hs⟩ : ∃ phase, s.phase = phase := ⟨_, rfl⟩
    simp only [hs] at h ⊢
    cases phase with
    | running =>
      rw [h.2.1] at hrest
      exact absurd hrest (by simp)
    | closing left => exact absurd ⟨left, hs⟩ hphase
    | flushing code left => exact ⟨h.1, h.2.1, h.2.2.settle hrest closing calls⟩
    | exited cause =>
      cases cause with
      | exit code => exact ⟨h.1, h.2.settle hrest closing calls⟩
      | _ => exact trivial

theorem good_onSignal {time : Nat} {signal : Signal} {isOpen : Call → Bool} (h : Good p s time)
    (hexit : ∀ cause, s.phase ≠ .exited cause) : Good p (onSignal p signal isOpen s) time := by
  unfold onSignal
  split
  · exact h
  · next hstarted =>
    -- nothing has started: this is the first signal
    have hlog : s.log = [] := by
      cases hphase : s.phase with
      | running => exact ((good_running hphase).1 h).2.2
      | closing left => exact absurd ((good_closing hphase).1 h).1 hstarted
      | flushing code left => exact absurd ((good_flushing hphase).1 h).1 hstarted
      | exited cause => exact absurd hphase (hexit cause)
    have hfirst : s.log ++ [received signal] = [received signal] := by
      rw [hlog]
      rfl
    exact good_report rfl rfl (Nat.le_add_right ..) rfl hfirst

theorem good_timesOut {left time : Nat} (h : Good p s time) (hphase : s.phase = .closing left)
    (hleft : left ≤ 1) : Good p (fail p (timedOut p.timeout) s) (time + 1) := by
  obtain ⟨hstarted, htimer, _, signal, hlog⟩ := (good_closing hphase).1 h
  refine good_finish hstarted ⟨signal, Or.inr ⟨rfl, timedOut p.timeout, ?_, Or.inr ⟨rfl, ?_⟩⟩⟩
  · show s.log ++ [failed _] = _
    rw [hlog]
    rfl
  · omega

theorem good_move {e : Event} {s' : State} {time : Nat} (hmove : Move p s e s')
    (hexit : ∀ cause, s.phase ≠ .exited cause) (h : Good p s time) :
    Good p s' (time + e.time) := by
  cases hmove with
  | nothing _ => exact h.later (Nat.le_add_right ..)
  | signal _ =>
    refine good_onSignal ?_ hexit
    exact h
  | killed _ _ => exact trivial
  | settles hrest => exact good_settle h hrest _ _
  | rejects hrest => exact good_settle h hrest _ _
  | waits hphase hleft =>
    obtain ⟨hstarted, htimer, hclosing, hlog⟩ := (good_closing hphase).1 h
    refine (good_closing rfl).2 ⟨hstarted, ?_, hclosing, hlog⟩
    show timerDelay p.timeout ≤ _ + (_ + 1)
    omega
  | timesOut hphase hleft => exact good_timesOut h hphase hleft
  | flushes hphase =>
    obtain ⟨_, _, hchosen⟩ := (good_flushing hphase).1 h
    exact ⟨fun _ => ⟨_, rfl⟩, hchosen⟩
  | flushing hphase hleft =>
    obtain ⟨hstarted, htelemetry, hchosen⟩ := (good_flushing hphase).1 h
    exact (good_flushing rfl).2 ⟨hstarted, htelemetry, hchosen.later (Nat.le_add_right ..)⟩
  | gaveUp hphase hleft =>
    obtain ⟨_, _, hchosen⟩ := (good_flushing hphase).1 h
    exact ⟨fun _ => ⟨_, rfl⟩, hchosen.later (Nat.le_add_right ..)⟩
  | loopEmpties => exact trivial

theorem good_step (s : State) (e : Event) (time : Nat) (h : Good p s time) :
    Good p (step p s e) (time + e.time) :=
  step_induction (I := Good p) (fun _ _ _ _ _ htime hgood => Good.later hgood htime)
    (fun _ _ _ _ hexit hmove hgood => good_move hmove hexit hgood) s e time h

/-- A process that calls `process.exit` has shut its telemetry down; one whose event loop is empty
    exits without that call, and of it nothing is said. The code is 0 when `close()` resolved in
    time, and 1 when it was rejected or the timeout passed; what it does after that changes neither
    the code nor the log. -/
theorem exit_code (events : List Event) (code : Nat)
    (hexit : (run (step p) .init events).phase = .exited (.exit code)) :
    (p.isTelemetryEnabled = true →
        ∃ flushed, (run (step p) .init events).telemetry = .shutDown flushed) ∧
      Chosen p code (elapsed events) (run (step p) .init events) := by
  have hinit : Good p .init 0 := ⟨rfl, rfl, rfl⟩
  have hgood := run_invariant_spent (w := Event.time) good_step hinit events
  rw [Nat.zero_add] at hgood
  unfold Good at hgood
  rw [hexit] at hgood
  exact hgood

/-- A shutdown in which everything settles, and then the flush. -/
def smooth : List Event :=
  [.signal .SIGTERM fun _ => true, .settles (.ok ()) fun _ => true, .settles (.ok ()) fun _ => true,
    .settles (.ok ()) fun _ => true, .settles (.ok ()) fun _ => true, .flushes true]

theorem exit_code_sample :
    (api.isTelemetryEnabled = true →
        ∃ flushed, (run (step api) .init smooth).telemetry = .shutDown flushed) ∧
      Chosen api 0 (elapsed smooth) (run (step api) .init smooth) :=
  exit_code smooth 0 rfl

/-! ## The deadline -/

/-- What is left of the two timers, the second one included while the first one runs. -/
def remaining (p : Process) : Phase → Nat
  | .running => timerDelay p.timeout + timerDelay SHUTDOWN_TIMEOUT_MS
  | .closing left => left + timerDelay SHUTDOWN_TIMEOUT_MS
  | .flushing _ left => left
  | .exited _ => 0

/-- The time that a shutdown takes at most. -/
def Process.budget (p : Process) : Nat := timerDelay p.timeout + timerDelay SHUTDOWN_TIMEOUT_MS

/-- A shutdown is under way, `time` after its signal, and what is left of it fits in the budget. -/
structure UnderWay (p : Process) (s : State) (time : Nat) : Prop where
  started : s.started = true
  phase : s.phase ≠ .running
  positive : (∀ left, s.phase = .closing left → 1 ≤ left) ∧
    ∀ code left, s.phase = .flushing code left → 1 ≤ left
  fits : remaining p s.phase + time ≤ p.budget

variable {time : Nat}

theorem exited_or_underWay_finish (code : Nat) (hstarted : s.started = true)
    (hfits : timerDelay SHUTDOWN_TIMEOUT_MS + time ≤ p.budget) :
    Exited (finish p code s) ∨ UnderWay p (finish p code s) time := by
  unfold finish
  split
  · have hpos := timerDelay_pos SHUTDOWN_TIMEOUT_MS
    exact Or.inr ⟨hstarted, by simp, by simpa using hpos, hfits⟩
  · exact Or.inl ⟨_, rfl⟩

/-- Reporting what `close()` has come to can only end the wait for it. -/
theorem exited_or_underWay_report (h : UnderWay p s time) :
    Exited (report p s) ∨ UnderWay p (report p s) time := by
  have hfits := h.fits
  unfold report
  split
  · next left hphase _ =>
    simp only [hphase, remaining] at hfits
    exact exited_or_underWay_finish 0 h.started (by omega)
  · next left message hphase _ =>
    simp only [hphase, remaining] at hfits
    exact exited_or_underWay_finish 1 h.started (by omega)
  · exact Or.inr h

theorem exited_or_underWay_move {e : Event} {s' : State} (hmove : Move p s e s')
    (h : UnderWay p s time) : Exited s' ∨ UnderWay p s' (time + e.time) := by
  obtain ⟨hstarted, hphase, hpositive, hfits⟩ := h
  cases hmove with
  | nothing htime =>
    rcases htime with htime | hrunning
    · rw [htime]
      exact Or.inr ⟨hstarted, hphase, hpositive, hfits⟩
    · exact absurd hrunning hphase
  | signal _ =>
    unfold onSignal
    rw [if_pos hstarted]
    exact Or.inr ⟨hstarted, hphase, hpositive, hfits⟩
  | killed _ _ => exact Or.inl ⟨_, rfl⟩
  | settles _ => exact exited_or_underWay_report ⟨hstarted, hphase, hpositive, hfits⟩
  | rejects _ => exact exited_or_underWay_report ⟨hstarted, hphase, hpositive, hfits⟩
  | waits hclosing hleft =>
    simp only [hclosing, remaining] at hfits
    refine Or.inr ⟨hstarted, by simp, by simp; omega, ?_⟩
    simp only [remaining, Event.time]
    omega
  | timesOut hclosing hleft =>
    have hpos := hpositive.1 _ hclosing
    simp only [hclosing, remaining] at hfits
    refine exited_or_underWay_finish 1 hstarted ?_
    simp only [Event.time]
    omega
  | flushes _ => exact Or.inl ⟨_, rfl⟩
  | flushing hflushing hleft =>
    simp only [hflushing, remaining] at hfits
    refine Or.inr ⟨hstarted, by simp, by simp; omega, ?_⟩
    simp only [remaining, Event.time]
    omega
  | gaveUp _ _ => exact Or.inl ⟨_, rfl⟩
  | loopEmpties => exact Or.inl ⟨_, rfl⟩

theorem exited_or_underWay_step (s : State) (e : Event) (time : Nat)
    (h : Exited s ∨ UnderWay p s time) :
    Exited (step p s e) ∨ UnderWay p (step p s e) (time + e.time) := by
  refine step_induction (I := fun s time => Exited s ∨ UnderWay p s time) ?_ ?_ s e time h
  · exact fun s n n' cause hcause _ _ => Or.inl ⟨cause, hcause⟩
  · rintro s n e s' hexit hmove (⟨cause, hcause⟩ | hunder)
    · exact absurd hcause (hexit cause)
    · exact exited_or_underWay_move hmove hunder

theorem UnderWay.earlier {time' : Nat} (h : UnderWay p s time) (htime : time' ≤ time) :
    UnderWay p s time' :=
  ⟨h.started, h.phase, h.positive, Nat.le_trans (Nat.add_le_add_left htime _) h.fits⟩

/-- The first signal starts both timers. -/
theorem exited_or_underWay_onSignal (signal : Signal) (isOpen : Call → Bool)
    (hstarted : s.started = false) :
    Exited (onSignal p signal isOpen s) ∨ UnderWay p (onSignal p signal isOpen s) 0 := by
  unfold onSignal
  rw [if_neg (by simp [hstarted])]
  have hpos := timerDelay_pos p.timeout
  exact exited_or_underWay_report ⟨rfl, by simp, by simpa using hpos, Nat.le_refl _⟩

/-- Before its first signal the process runs and has both listeners. -/
def Idle (s : State) : Prop :=
  s.phase = .running ∧ s.started = false ∧ s.closing = none ∧ s.listeners = [.SIGTERM, .SIGINT]

theorem idle_step (s : State) (e : Event) (h : Idle s) :
    Idle (step p s e) ∨ Exited (step p s e) ∨ UnderWay p (step p s e) 0 := by
  obtain ⟨hphase, hstarted, hclosing, hlisteners⟩ := h
  have hmove : Move p s e (step p s e) :=
    step_move (fun cause hcause => absurd (hphase.symm.trans hcause) (by simp)) e
  generalize step p s e = s' at hmove ⊢
  cases hmove with
  | nothing _ => exact Or.inl ⟨hphase, hstarted, hclosing, hlisteners⟩
  | signal _ => exact Or.inr (exited_or_underWay_onSignal _ _ hstarted)
  | killed _ _ => exact Or.inr (Or.inl ⟨_, rfl⟩)
  | settles h => exact absurd (hclosing.symm.trans h) (by simp)
  | rejects h => exact absurd (hclosing.symm.trans h) (by simp)
  | waits h _ => exact absurd (hphase.symm.trans h) (by simp)
  | timesOut h _ => exact absurd (hphase.symm.trans h) (by simp)
  | flushes h => exact absurd (hphase.symm.trans h) (by simp)
  | flushing h _ => exact absurd (hphase.symm.trans h) (by simp)
  | gaveUp h _ => exact absurd (hphase.symm.trans h) (by simp)
  | loopEmpties => exact Or.inr (Or.inl ⟨_, rfl⟩)

theorem idle_or_step (s : State) (e : Event) (h : Idle s ∨ Exited s ∨ UnderWay p s 0) :
    Idle (step p s e) ∨ Exited (step p s e) ∨ UnderWay p (step p s e) 0 := by
  rcases h with h | h
  · exact idle_step s e h
  · refine Or.inr ((exited_or_underWay_step s e 0 h).imp_right fun h' => ?_)
    exact h'.earlier (Nat.zero_le _)

/-- After a signal a shutdown is under way or over. -/
theorem exited_or_underWay_signal (signal : Signal) (isOpen : Call → Bool)
    (h : Idle s ∨ Exited s ∨ UnderWay p s 0) :
    Exited (step p s (.signal signal isOpen)) ∨ UnderWay p (step p s (.signal signal isOpen)) 0 := by
  rcases h with ⟨hphase, hstarted, _, hlisteners⟩ | h
  · have hstep : step p s (.signal signal isOpen) =
        onSignal p signal isOpen { s with listeners := s.listeners.erase signal } := by
      have hmem : signal ∈ s.listeners := by
        rw [hlisteners]
        cases signal <;> decide
      unfold step
      rw [hphase]
      exact if_pos hmem
    rw [hstep]
    exact exited_or_underWay_onSignal _ _ hstarted
  · exact exited_or_underWay_step s _ 0 h

/-- After a signal the process has exited by itself before the grace period is over, whatever
    `close()` and the flush do: nobody has to kill it. -/
theorem exits_in_time (hdefault : p.timeoutMs = none) (before : List Event) (signal : Signal)
    (isOpen : Call → Bool) (after : List Event) (hafter : stopGracePeriodMs ≤ elapsed after) :
    ∃ mid, mid <+: after ∧ elapsed mid < stopGracePeriodMs ∧
      Exited (run (step p) .init (before ++ .signal signal isOpen :: mid)) := by
  have hbudget : p.budget = 20000 := by
    unfold Process.budget Process.timeout
    rw [hdefault]
    rfl
  have hspent : p.budget ≤ elapsed after := by
    rw [hbudget]
    exact Nat.le_trans (by decide) hafter
  obtain ⟨mid, hmid, hsum⟩ := exists_prefix_spent Event.time_le_one hspent
  have hreach : Idle (run (step p) .init before) ∨ Exited (run (step p) .init before) ∨
      UnderWay p (run (step p) .init before) 0 :=
    run_invariant idle_or_step (Or.inl ⟨rfl, rfl, rfl, rfl⟩) before
  have hend := run_invariant_spent (w := Event.time) exited_or_underWay_step
    (exited_or_underWay_signal signal isOpen hreach) mid
  refine ⟨mid, hmid, ?_, ?_⟩
  · show (mid.map Event.time).sum < _
    rw [hsum, hbudget]
    decide
  · rw [run_append, run_cons]
    rcases hend with hexited | ⟨_, hphase, hpositive, hfits⟩
    · exact hexited
    · -- the whole budget is spent, and a timer that runs has something left
      rw [Nat.zero_add, hsum] at hfits
      generalize run (step p) _ mid = s' at *
      cases hs : s'.phase with
      | running => exact absurd hs hphase
      | closing left =>
        have := hpositive.1 left hs
        simp only [hs, remaining] at hfits
        omega
      | flushing code left =>
        have := hpositive.2 code left hs
        simp only [hs, remaining] at hfits
        omega
      | exited cause => exact ⟨cause, hs⟩

theorem elapsed_ticks (n : Nat) : elapsed (List.replicate n .tick) = n := by
  simp [elapsed, Event.time]

theorem exits_in_time_sample :
    ∃ mid, mid <+: List.replicate 25000 .tick ∧ elapsed mid < stopGracePeriodMs ∧
      Exited (run (step worker) .init ([] ++ .signal .SIGTERM (fun _ => true) :: mid)) :=
  exits_in_time rfl [] .SIGTERM _ (List.replicate 25000 .tick)
    (Nat.le_of_eq (elapsed_ticks 25000).symm)

/-! ## The order of the calls -/

variable {resolved resolved' : Call → Prop}

/-- How far `close()` has come. -/
inductive Progress (p : Process) (resolved : Call → Prop) : Option Closing → List Call → Prop
  | notCalled : Progress p resolved none []
  | awaiting {done rest : List Stage} {last : Stage} {calls : List Call}
      (hclose : p.close = done ++ last :: rest) (hcalls : calls.Sublist (done.map Stage.target))
      (hpassed : ∀ st ∈ done, st.Passed resolved (calls ++ [last.target])) :
      Progress p resolved (some (.awaiting rest)) (calls ++ [last.target])
  | resolved {calls : List Call} (hcalls : calls.Sublist (p.close.map Stage.target))
      (hpassed : ∀ st ∈ p.close, st.Passed resolved calls) :
      Progress p resolved (some .resolved) calls
  | rejected {done rest : List Stage} {last : Stage} {calls : List Call} {message : String}
      (hclose : p.close = done ++ last :: rest) (hcalls : calls.Sublist (done.map Stage.target))
      (hpassed : ∀ st ∈ done, st.Passed resolved (calls ++ [last.target])) :
      Progress p resolved (some (.rejected message)) (calls ++ [last.target])

theorem Stage.Passed.mono {calls : List Call} {st : Stage} (h : st.Passed resolved calls)
    (hR : ∀ c, resolved c → resolved' c) : st.Passed resolved' calls := by
  cases st with
  | call c => exact h
  | await c => exact hR c h
  | awaitIfOpen c => exact Or.imp_right (hR c) h

/-- A call of another stage leaves a stage passed. -/
theorem Stage.Passed.concat {calls : List Call} {st : Stage} (h : st.Passed resolved calls)
    {c : Call} (hc : st.target ≠ c) : st.Passed resolved (calls ++ [c]) := by
  cases st with
  | call d => exact List.mem_append_left _ h
  | await d => exact h
  | awaitIfOpen d =>
    refine Or.imp_left (fun hd => ?_) h
    simpa using ⟨hd, hc⟩

theorem Progress.mono {closing : Option Closing} {calls : List Call}
    (h : Progress p resolved closing calls) (hR : ∀ c, resolved c → resolved' c) :
    Progress p resolved' closing calls := by
  cases h with
  | notCalled => exact .notCalled
  | awaiting hclose hcalls hpassed =>
    exact .awaiting hclose hcalls fun st hst => (hpassed st hst).mono hR
  | resolved hcalls hpassed => exact .resolved hcalls fun st hst => (hpassed st hst).mono hR
  | rejected hclose hcalls hpassed =>
    exact .rejected hclose hcalls fun st hst => (hpassed st hst).mono hR

/-- The targets of the stages before a stage are not its own. -/
theorem target_ne {done rest : List Stage} {st : Stage}
    (hnodup : ((done ++ st :: rest).map Stage.target).Nodup) {st' : Stage} (hst' : st' ∈ done) :
    st'.target ≠ st.target := by
  rw [List.map_append, List.nodup_append] at hnodup
  exact hnodup.2.2 _ (List.mem_map_of_mem hst') _ (by simp)

/-- `close()` goes on from where all stages are passed, up to the next `await`. -/
theorem progress_resume (isOpen : Call → Bool) (hnodup : (p.close.map Stage.target).Nodup)
    {done rest : List Stage} {calls : List Call} (hclose : p.close = done ++ rest)
    (hcalls : calls.Sublist (done.map Stage.target))
    (hpassed : ∀ st ∈ done, st.Passed resolved calls) :
    Progress p resolved (some (resume isOpen rest).1) (calls ++ (resume isOpen rest).2) := by
  induction rest generalizing done calls with
  | nil =>
    rw [List.append_nil] at hclose
    rw [← hclose] at hcalls hpassed
    rw [resume, List.append_nil]
    exact .resolved hcalls hpassed
  | cons st rest ih =>
    have hne : ∀ st' ∈ done, st'.target ≠ st.target := by
      intro st' hst'
      rw [hclose] at hnodup
      exact target_ne hnodup hst'
    have hnext : p.close = (done ++ [st]) ++ rest := by rw [hclose, List.append_assoc]; rfl
    have hcalled : ∀ st' ∈ done, st'.Passed resolved (calls ++ [st.target]) :=
      fun st' hst' => (hpassed st' hst').concat (hne st' hst')
    cases st with
    | call c =>
      have hmade : (calls ++ [c]).Sublist ((done ++ [Stage.call c]).map Stage.target) := by
        rw [List.map_append]
        exact hcalls.append (List.Sublist.refl _)
      have hrest := ih hnext hmade (by
        intro st' hst'
        rcases List.mem_append.1 hst' with hst' | hst'
        · exact hcalled st' hst'
        · obtain rfl := List.mem_singleton.1 hst'
          exact List.mem_append_right _ List.mem_cons_self)
      rw [List.append_assoc] at hrest
      exact hrest
    | await c => exact .awaiting hclose hcalls hcalled
    | awaitIfOpen c =>
      rw [resume]
      split
      · exact .awaiting hclose hcalls hcalled
      · have hskipped : c ∉ calls := by
          intro hc
          obtain ⟨st', hst', htarget⟩ := List.mem_map.1 (hcalls.subset hc)
          exact hne st' hst' htarget
        refine ih hnext ?_ ?_
        · rw [List.map_append]
          exact hcalls.trans (List.sublist_append_left _ _)
        · intro st' hst'
          rcases List.mem_append.1 hst' with hst' | hst'
          · exact hpassed st' hst'
          · obtain rfl := List.mem_singleton.1 hst'
            exact Or.inl hskipped

@[simp] theorem finish_closing (code : Nat) (s : State) :
    (finish p code s).closing = s.closing := by
  unfold finish
  split <;> rfl

@[simp] theorem finish_calls (code : Nat) (s : State) : (finish p code s).calls = s.calls := by
  unfold finish
  split <;> rfl

@[simp] theorem finish_started (code : Nat) (s : State) :
    (finish p code s).started = s.started := by
  unfold finish
  split <;> rfl

@[simp] theorem report_closing (s : State) : (report p s).closing = s.closing := by
  unfold report
  split <;> simp [fail]

@[simp] theorem report_calls (s : State) : (report p s).calls = s.calls := by
  unfold report
  split <;> simp [fail]

@[simp] theorem report_started (s : State) : (report p s).started = s.started := by
  unfold report
  split <;> simp [fail]

/-- `close()` is called by the first signal only, and has come this far. -/
structure Ordered (p : Process) (resolved : Call → Prop) (s : State) : Prop where
  started : s.started = false → s.closing = none
  progress : Progress p resolved s.closing s.calls

theorem Ordered.isStarted {closing : Closing} (h : Ordered p resolved s)
    (hclosing : s.closing = some closing) : s.started = true := by
  cases hs : s.started with
  | true => rfl
  | false =>
    rw [h.started hs] at hclosing
    exact absurd hclosing (by simp)

theorem ordered_onSignal (hnodup : (p.close.map Stage.target).Nodup) {signal : Signal}
    {isOpen : Call → Bool} (h : Ordered p resolved s) :
    Ordered p resolved (onSignal p signal isOpen s) := by
  unfold onSignal
  split
  · exact h
  · next hstarted =>
    have hnone := h.started (by simpa using hstarted)
    have hprogress := h.progress
    rw [hnone] at hprogress
    generalize hcalls : s.calls = calls at hprogress
    cases hprogress
    have hresume : Progress p resolved (some (resume isOpen p.close).1)
        ([] ++ (resume isOpen p.close).2) :=
      progress_resume isOpen hnodup (List.nil_append _).symm (List.Sublist.refl _) (by simp)
    refine ⟨by simp [proceed], ?_⟩
    simpa [proceed, hcalls] using hresume

theorem ordered_settles (hnodup : (p.close.map Stage.target).Nodup) {rest : List Stage}
    {isOpen : Call → Bool} (h : Ordered p resolved s)
    (hrest : s.closing = some (.awaiting rest)) (hR : ∀ c, resolved c → resolved' c)
    (hnew : ∀ c, s.calls.getLast? = some c → resolved' c) :
    Ordered p resolved' (proceed p isOpen rest s) := by
  have hprogress := h.progress
  rw [hrest] at hprogress
  refine ⟨fun hstarted => ?_, ?_⟩
  · have hs : s.started = false := by simpa [proceed] using hstarted
    exact absurd (h.isStarted hrest) (by simp [hs])
  · rw [proceed, report_closing, report_calls]
    generalize s.calls = calls at hprogress hnew
    cases hprogress with
    | @awaiting done _ last calls hclose hcalls hpassed =>
      -- the last call is passed now as well
      have hnext : p.close = (done ++ [last]) ++ rest := by rw [hclose, List.append_assoc]; rfl
      have hlast : last.Passed resolved' (calls ++ [last.target]) := by
        cases last with
        | call c => exact List.mem_append_right _ List.mem_cons_self
        | await c => exact hnew c (by simp [Stage.target])
        | awaitIfOpen c => exact Or.inr (hnew c (by simp [Stage.target]))
      refine progress_resume isOpen hnodup hnext ?_ ?_
      · rw [List.map_append]
        exact hcalls.append (List.Sublist.refl _)
      · intro st hst
        rcases List.mem_append.1 hst with hst | hst
        · exact (hpassed st hst).mono hR
        · obtain rfl := List.mem_singleton.1 hst
          exact hlast

theorem ordered_rejects {rest : List Stage} {message : String} (h : Ordered p resolved s)
    (hrest : s.closing = some (.awaiting rest)) :
    Ordered p resolved (report p { s with closing := some (.rejected message) }) := by
  have hprogress := h.progress
  rw [hrest] at hprogress
  refine ⟨fun hstarted => ?_, ?_⟩
  · have hs : s.started = false := by simpa using hstarted
    exact absurd (h.isStarted hrest) (by simp [hs])
  · rw [report_closing, report_calls]
    show Progress p resolved (some (.rejected message)) s.calls
    generalize s.calls = calls at hprogress
    cases hprogress with
    | awaiting hclose hcalls hpassed => exact .rejected hclose hcalls hpassed

theorem Ordered.mono (h : Ordered p resolved s) (hR : ∀ c, resolved c → resolved' c) :
    Ordered p resolved' s :=
  ⟨h.started, h.progress.mono hR⟩

theorem ordered_step (hnodup : (p.close.map Stage.target).Nodup) (e : Event)
    (h : Ordered p resolved s) (hR : ∀ c, resolved c → resolved' c)
    (hnew : ∀ c, Resolves s e c → resolved' c) : Ordered p resolved' (step p s e) := by
  by_cases hs : ∃ cause, s.phase = .exited cause
  · obtain ⟨cause, hcause⟩ := hs
    rw [step_exited hcause]
    exact h.mono hR
  · have hexit : ∀ cause, s.phase ≠ .exited cause := fun cause hc => hs ⟨cause, hc⟩
    have hmove : Move p s e (step p s e) := step_move hexit e
    generalize step p s e = s' at hmove ⊢
    cases hmove with
    | signal _ =>
      refine ordered_onSignal hnodup ?_
      exact ⟨h.started, h.progress.mono hR⟩
    | settles hrest =>
      refine ordered_settles hnodup h hrest hR fun c hlast => ?_
      exact hnew c ⟨⟨_, rfl⟩, ⟨_, hrest⟩, hlast, hexit⟩
    | rejects hrest => exact (ordered_rejects h hrest).mono hR
    | timesOut _ _ =>
      refine ⟨?_, ?_⟩
      · simpa [fail] using h.started
      · simpa [fail] using h.progress.mono hR
    | _ => exact ⟨h.started, h.progress.mono hR⟩

theorem ordered_run (hnodup : (p.close.map Stage.target).Nodup) (events : List Event) :
    Ordered p (ResolvedIn p events) (run (step p) .init events) := by
  induction events using List.reverseRecOn with
  | nil => exact ⟨fun _ => rfl, .notCalled⟩
  | append_singleton events e ih =>
    rw [run_append, run_cons, run_nil]
    refine ordered_step hnodup e ih ?_ ?_
    · rintro c ⟨q, hq, hresolves⟩
      refine ⟨q, ?_, hresolves⟩
      rw [steps_append]
      exact List.mem_append_left _ hq
    · intro c hresolves
      exact ⟨_, last_mem_steps _ events e, hresolves⟩

/-- In a list without repetitions, what comes before something in a prefix is in the prefix and
    is not its last element. -/
theorem mem_of_target_mem {done rest pre post : List Stage} {last stage : Stage}
    (hnodup : ((done ++ last :: rest).map Stage.target).Nodup)
    (hsplit : done ++ last :: rest = pre ++ stage :: post)
    (hmem : stage.target ∈ (done ++ [last]).map Stage.target) : ∀ st ∈ pre, st ∈ done := by
  intro st hst
  have hnodup' := hnodup
  rw [hsplit] at hnodup'
  rcases List.append_eq_append_iff.1 hsplit with ⟨mid, hpre, hlast⟩ | ⟨mid, hdone, _⟩
  · -- `stage` would come after `last`
    cases mid with
    | nil => simpa [hpre] using hst
    | cons st' mid =>
      obtain ⟨rfl, hrest⟩ := List.cons.inj hlast
      obtain ⟨st'', hst'', htarget⟩ := List.mem_map.1 hmem
      have hin : st'' ∈ pre := by
        rw [hpre]
        rcases List.mem_append.1 hst'' with h | h
        · exact List.mem_append_left _ h
        · obtain rfl := List.mem_singleton.1 h
          exact List.mem_append_right _ List.mem_cons_self
      exact absurd htarget (target_ne hnodup' hin)
  · rw [hdone]
    exact List.mem_append_left _ hst

theorem passed_before (hnodup : (p.close.map Stage.target).Nodup) {done rest : List Stage}
    {last : Stage} {calls : List Call} (hclose : p.close = done ++ last :: rest)
    (hcalls : calls.Sublist (done.map Stage.target))
    (hpassed : ∀ st ∈ done, st.Passed resolved (calls ++ [last.target])) :
    (calls ++ [last.target]).Sublist (p.close.map Stage.target) ∧
      ∀ pre stage post, p.close = pre ++ stage :: post → stage.target ∈ calls ++ [last.target] →
        ∀ st ∈ pre, st.Passed resolved (calls ++ [last.target]) := by
  have hdone : (calls ++ [last.target]).Sublist ((done ++ [last]).map Stage.target) := by
    rw [List.map_append]
    exact hcalls.append (List.Sublist.refl _)
  constructor
  · refine hdone.trans (List.Sublist.map _ ?_)
    rw [hclose, show done ++ last :: rest = (done ++ [last]) ++ rest by simp]
    exact List.sublist_append_left _ _
  · intro pre stage post hsplit hmem st hst
    rw [hclose] at hnodup hsplit
    exact hpassed st (mem_of_target_mem hnodup hsplit (hdone.subset hmem) st hst)

/-- `close()` makes its calls in the order of its stages, each at most once, and a call only once
    all the stages before it are passed: their promises have resolved. -/
theorem calls_in_order (hnodup : (p.close.map Stage.target).Nodup) (events : List Event) :
    (run (step p) .init events).calls.Sublist (p.close.map Stage.target) ∧
      ∀ pre stage post, p.close = pre ++ stage :: post →
        stage.target ∈ (run (step p) .init events).calls →
        ∀ st ∈ pre, st.Passed (ResolvedIn p events) (run (step p) .init events).calls := by
  have hprogress := (ordered_run hnodup events).progress
  generalize (run (step p) .init events).closing = closing at hprogress
  generalize (run (step p) .init events).calls = calls at hprogress ⊢
  cases hprogress with
  | notCalled => exact ⟨List.nil_sublist _, fun _ _ _ _ h => absurd h (by simp)⟩
  | resolved hcalls hpassed =>
    refine ⟨hcalls, fun pre stage post hsplit _ st hst => hpassed st ?_⟩
    rw [hsplit]
    exact List.mem_append_left _ hst
  | awaiting hclose hcalls hpassed => exact passed_before hnodup hclose hcalls hpassed
  | rejected hclose hcalls hpassed => exact passed_before hnodup hclose hcalls hpassed

theorem calls_in_order_sample :
    (run (step api) .init smooth).calls.Sublist (api.close.map Stage.target) ∧
      ∀ pre stage post, api.close = pre ++ stage :: post →
        stage.target ∈ (run (step api) .init smooth).calls →
        ∀ st ∈ pre, st.Passed (ResolvedIn api smooth) (run (step api) .init smooth).calls :=
  calls_in_order (by decide) smooth

end DecentDebates.Shutdown
