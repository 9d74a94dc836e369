import DecentDebates.Lib.Transition
import Mathlib.Logic.Function.Basic

set_option autoImplicit false

/-! # A cache beside a source

The cache-aside pattern: a read that misses computes the value of its key from the source and
stores it in the cache in a later step; a write changes the source at once, and when it finishes it
deletes one key or none. Sources are numbered, so that a value can be compared with a write: it is
stale if it was computed from a source before a finished write that affects its key.

`coherent_iff` says exactly which steps bring a stale value into the cache or leave one there. -/

namespace CacheAside

open Transition

/-- A source that is written by `ω` and read by keys `κ`. -/
structure Source (σ ω κ β : Type) where
  write : σ → ω → σ
  /-- The value of a key, if it has one that can be cached. -/
  value : σ → κ → Option β
  /-- The write matters to readers of the key. -/
  affects : σ → ω → κ → Bool
  /-- The key that the write deletes when it finishes. -/
  deletes : σ → ω → Option κ

/-- A computed value, with the number of the source it was computed from. -/
structure Entry (β : Type) where
  value : β
  readAt : Nat
deriving DecidableEq, Repr

/-- A write that has changed the source and not finished yet. -/
structure Write (κ : Type) where
  deletes : Option κ
  affects : κ → Bool
  /-- The number of the source it made. -/
  version : Nat

structure State (σ κ β : Type) where
  source : σ
  /-- The sources before the current one, oldest first. -/
  past : List σ
  cache : κ → Option (Entry β)
  /-- Reads that have missed the cache. -/
  reads : List κ
  /-- Values that have been computed and not stored yet. -/
  stores : List (κ × Entry β)
  writes : List (Write κ)
  /-- The number of the last source made by a finished write that affects the key. -/
  finishedAt : κ → Nat

inductive Label (ω κ : Type) where
  | write (w : ω)
  /-- The write at this position deletes its key and ends. -/
  | finish (position : Nat)
  /-- A read asks the cache. -/
  | get (k : κ)
  /-- The read at this position computes its value. -/
  | read (position : Nat)
  /-- The value at this position is stored. -/
  | store (position : Nat)

variable {σ ω κ β : Type}

def State.init (source : σ) : State σ κ β where
  source := source
  past := []
  cache := fun _ => none
  reads := []
  stores := []
  writes := []
  finishedAt := fun _ => 0

/-- Every source so far, in the order of their numbers. -/
def State.sources (s : State σ κ β) : List σ := s.past ++ [s.source]

section Steps

variable [DecidableEq κ] (S : Source σ ω κ β)

def step (s : State σ κ β) : Label ω κ → State σ κ β
  | .write w =>
    { s with
      source := S.write s.source w
      past := s.sources
      writes := s.writes ++ [⟨S.deletes s.source w, S.affects s.source w, s.sources.length⟩] }
  | .finish position =>
    match s.writes[position]? with
    | none => s
    | some w =>
      { s with
        writes := s.writes.eraseIdx position
        cache := fun k => if w.deletes = some k then none else s.cache k
        finishedAt := fun k =>
          if w.affects k then max (s.finishedAt k) w.version else s.finishedAt k }
  | .get k =>
    match s.cache k with
    | some _ => s
    | none => { s with reads := s.reads ++ [k] }
  | .read position =>
    match s.reads[position]? with
    | none => s
    | some k =>
      { s with
        reads := s.reads.eraseIdx position
        stores := match S.value s.source k with
          | some v => s.stores ++ [(k, ⟨v, s.past.length⟩)]
          | none => s.stores }
  | .store position =>
    match s.stores[position]? with
    | none => s
    | some (k, e) =>
      { s with
        stores := s.stores.eraseIdx position
        cache := Function.update s.cache k (some e) }

/-- No cached value is older than a finished write that affects its key. -/
def State.Coherent (s : State σ κ β) : Prop :=
  ∀ k e, s.cache k = some e → s.finishedAt k ≤ e.readAt

/-- A cached value is what the source with its number has for the key. -/
def State.Truthful (s : State σ κ β) : Prop :=
  ∀ k e, s.cache k = some e →
    ∃ source, s.sources[e.readAt]? = some source ∧ S.value source k = some e.value

/-- The step finishes a write while the cache has a value that the write affects, does not delete
    and has made stale, or it stores a value that is stale. -/
def State.LeavesStale (s : State σ κ β) : Label ω κ → Prop
  | .finish position =>
    ∃ w ∈ s.writes[position]?, ∃ k, w.affects k = true ∧ w.deletes ≠ some k ∧
      ∃ e ∈ s.cache k, e.readAt < w.version
  | .store position => ∃ p ∈ s.stores[position]?, p.2.readAt < s.finishedAt p.1
  | _ => False

variable {S}

theorem coherent_step_iff {s : State σ κ β} (h : s.Coherent) (l : Label ω κ) :
    (step S s l).Coherent ↔ ¬ s.LeavesStale l := by
  cases l with
  | write w => exact iff_of_true h id
  | finish position =>
    simp only [step, State.LeavesStale]
    cases hw : s.writes[position]? with
    | none => exact iff_of_true h (by simp)
    | some w =>
      simp only [State.Coherent, Option.mem_def, Option.some.injEq]
      constructor
      · rintro hafter ⟨w', rfl, k, haff, hdel, e, he, hlt⟩
        have hle := hafter k e (by rw [if_neg hdel]; exact he)
        rw [if_pos haff] at hle
        omega
      · intro hnot k e hcache
        split at hcache
        · exact nomatch hcache
        · next hdel =>
          have hold := h k e hcache
          split
          · next haff =>
            have hnew : w.version ≤ e.readAt := by
              by_contra hlt
              exact hnot ⟨w, rfl, k, haff, hdel, e, hcache, by omega⟩
            omega
          · exact hold
  | get k =>
    have hsame : (step S s (.get k)).Coherent ↔ s.Coherent := by
      simp only [step]
      split <;> exact Iff.rfl
    exact hsame.trans (iff_of_true h id)
  | read position =>
    have hsame : (step S s (.read position)).Coherent ↔ s.Coherent := by
      simp only [step]
      split <;> exact Iff.rfl
    exact hsame.trans (iff_of_true h id)
  | store position =>
    simp only [step, State.LeavesStale]
    cases hp : s.stores[position]? with
    | none => exact iff_of_true h (by simp)
    | some p =>
      simp only [State.Coherent, Option.mem_def, Option.some.injEq]
      constructor
      · rintro hafter ⟨p', rfl, hlt⟩
        have hle := hafter p.1 p.2 (Function.update_self ..)
        omega
      · intro hnot k e hcache
        by_cases hk : k = p.1
        · subst hk
          rw [Function.update_self, Option.some.injEq] at hcache
          by_contra hlt
          exact hnot ⟨p, rfl, by rw [hcache]; omega⟩
        · rw [Function.update_of_ne hk] at hcache
          exact h k e hcache

/-- What the proof of truthfulness follows: values on their way to the cache are truthful too. -/
structure State.Recorded (S : Source σ ω κ β) (s : State σ κ β) : Prop where
  cached : s.Truthful S
  computed : ∀ p ∈ s.stores,
    ∃ source, s.sources[p.2.readAt]? = some source ∧ S.value source p.1 = some p.2.value

theorem recorded_step (s : State σ κ β) (l : Label ω κ) (h : s.Recorded S) :
    (step S s l).Recorded S := by
  cases l with
  | write w =>
    -- the numbers of the earlier sources stay
    have hkeep : ∀ {n : Nat} {source : σ}, s.sources[n]? = some source →
        (step S s (.write w)).sources[n]? = some source := by
      intro n source hn
      show (s.sources ++ [S.write s.source w])[n]? = some source
      obtain ⟨hlt, -⟩ := List.getElem?_eq_some_iff.1 hn
      rwa [List.getElem?_append_left hlt]
    refine ⟨fun k e he => ?_, fun p hp => ?_⟩
    · obtain ⟨source, hn, hv⟩ := h.cached k e he
      exact ⟨source, hkeep hn, hv⟩
    · obtain ⟨source, hn, hv⟩ := h.computed p hp
      exact ⟨source, hkeep hn, hv⟩
  | finish position =>
    simp only [step]
    split
    · exact h
    · refine ⟨fun k e he => ?_, h.computed⟩
      simp only at he
      split at he
      · exact nomatch he
      · exact h.cached k e he
  | get k =>
    simp only [step]
    split
    · exact h
    · exact ⟨h.cached, h.computed⟩
  | read position =>
    simp only [step]
    split
    · exact h
    · next k hk =>
      refine ⟨h.cached, fun p hp => ?_⟩
      simp only at hp
      split at hp
      · next v hv =>
        rcases List.mem_append.1 hp with hp | hp
        · exact h.computed p hp
        · rw [List.mem_singleton.1 hp]
          exact ⟨s.source, by simp [State.sources], hv⟩
      · exact h.computed p hp
  | store position =>
    simp only [step]
    split
    · exact h
    · next k e hp =>
      refine ⟨fun k' e' he' => ?_, fun p hp' => h.computed p (List.mem_of_mem_eraseIdx hp')⟩
      by_cases hk : k' = k
      · subst hk
        simp only [Function.update_self, Option.some.injEq] at he'
        subst he'
        exact h.computed _ (List.mem_of_getElem? hp)
      · simp only [Function.update_of_ne hk] at he'
        exact h.cached k' e' he'

/-- **When the cache is coherent.** In every state of a run every cached value is a truthful value
    that is not stale, exactly if no step of the run leaves a stale value in the cache. -/
theorem coherent_iff (source : σ) (ls : List (Label ω κ)) :
    (∀ s ∈ states (step S) (.init source) ls, s.Truthful S ∧ s.Coherent) ↔
      ∀ p ∈ steps (step S) (.init source) ls, ¬ p.1.LeavesStale p.2 := by
  have hinit : State.Recorded S (State.init source) := ⟨nofun, nofun⟩
  have htrue : ∀ s ∈ states (step S) (.init source) ls, s.Truthful S := by
    intro s hs
    exact (states_invariant recorded_step hinit ls s hs).cached
  have hempty : (State.init source : State σ κ β).Coherent := fun _ _ he => nomatch he
  have hcoherent : (∀ s ∈ states (step S) (.init source) ls, s.Coherent) ↔
      ∀ p ∈ steps (step S) (.init source) ls, ¬ p.1.LeavesStale p.2 :=
    states_iff_steps (I := State.Coherent) (J := fun _ => True)
      (C := fun s l => ¬ State.LeavesStale s l) (fun _ _ _ => trivial)
      (fun _ l _ h => coherent_step_iff h l) trivial hempty ls
  rw [← hcoherent]
  exact forall₂_congr fun s hs => and_iff_right (htrue s hs)

end Steps

end CacheAside
