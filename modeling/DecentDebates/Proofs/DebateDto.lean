import DecentDebates.DebateDto
import Mathlib.Data.List.Flatten

set_option autoImplicit false

/-! # From parents to children: proofs

The loop is a pass of `Grouping`, under the parents that are not 0. Ids are positive, so for the id
of an argument this makes no difference. -/

namespace DecentDebates.DebatePage

open Grouping

/-- The key under which the loop files an argument. -/
def parentKey (arg : DebateArgument) : Option Int := arg.counterargumentTo.filter (· ≠ 0)

theorem collect_eq : collect = add parentKey DebateArgument.argumentId := by
  funext groups arg
  cases h : arg.counterargumentTo.filter (· ≠ 0) with
  | none => rw [add_of_none parentKey _ h, collect, h]
  | some k =>
    rw [add_of_some parentKey _ h, collect, h]
    rfl

/-- The ids of the arguments against `id`. -/
def childrenOf (args : List DebateArgument) (id : Int) : List Int :=
  (args.filter fun b => b.counterargumentTo = some id).map DebateArgument.argumentId

theorem foldl_collect (args : List DebateArgument) {id : Int} (hid : 0 < id) :
    args.foldl collect (fun _ => none) id = nonempty? (childrenOf args id) := by
  have hne : id ≠ 0 := by omega
  rw [collect_eq, foldl_add, valuesAt, childrenOf]
  refine congrArg (fun bs => nonempty? (bs.map DebateArgument.argumentId))
    (List.filter_congr fun b _ => ?_)
  rw [decide_eq_decide, parentKey, Option.filter_eq_some_iff]
  constructor
  · exact fun h => h.1
  · exact fun h => ⟨h, by simpa using hne⟩

/-- What the page gets of an argument. -/
def withChildren (args : List DebateArgument) (a : DebateArgument) : DebateArgument :=
  { a with counterarguments := nonempty? (childrenOf args a.argumentId) }

/-- The empty list is no special case. -/
theorem getDebateDTO_eq (debateInfo : CurrentDebate)
    (hpos : ∀ a ∈ debateInfo.args, 0 < a.argumentId) :
    getDebateDTO debateInfo =
      { debateInfo with args := debateInfo.args.map (withChildren debateInfo.args) } := by
  unfold getDebateDTO
  split
  · next h =>
    have hnil := List.length_eq_zero_iff.1 h
    obtain ⟨args, metadata, ids⟩ := debateInfo
    obtain rfl : args = [] := hnil
    rfl
  · simp only [CurrentDebate.mk.injEq, and_true]
    refine List.map_congr_left fun a ha => ?_
    rw [foldl_collect _ (hpos a ha)]
    rfl

/-! ## The inverted relation -/

variable {args : List DebateArgument}

theorem mem_childrenOf {id n : Int} :
    n ∈ childrenOf args id ↔ ∃ b ∈ args, b.counterargumentTo = some id ∧ b.argumentId = n := by
  simp [childrenOf, and_assoc]

theorem nodup_childrenOf (hnodup : (args.map DebateArgument.argumentId).Nodup) (id : Int) :
    (childrenOf args id).Nodup :=
  hnodup.sublist (List.filter_sublist.map _)

/-- Children of different parents differ, as an argument has one parent. -/
theorem count_flatMap_childrenOf (hnodup : (args.map DebateArgument.argumentId).Nodup)
    {as : List DebateArgument} (has : (as.map DebateArgument.argumentId).Nodup)
    {a b : DebateArgument} (ha : a ∈ as) (hb : b ∈ args)
    (hparent : b.counterargumentTo = some a.argumentId) :
    (as.flatMap fun a => childrenOf args a.argumentId).count b.argumentId = 1 := by
  have hflat : (as.flatMap fun a => childrenOf args a.argumentId).Nodup := by
    rw [List.nodup_flatMap]
    refine ⟨fun a _ => nodup_childrenOf hnodup _, (List.pairwise_map.1 has).imp ?_⟩
    intro a a' hne
    refine List.disjoint_left.2 ?_
    intro n hn hn'
    obtain ⟨b, hb, hbp, rfl⟩ := mem_childrenOf.1 hn
    obtain ⟨b', hb', hbp', hid⟩ := mem_childrenOf.1 hn'
    obtain rfl := List.inj_on_of_nodup_map hnodup hb' hb hid
    exact hne (Option.some.inj (hbp.symm.trans hbp'))
  exact List.count_eq_one_of_mem hflat
    (List.mem_flatMap.2 ⟨a, ha, mem_childrenOf.2 ⟨b, hb, hparent, rfl⟩⟩)

theorem childrenOf_map_withChildren (args' : List DebateArgument) (id : Int) :
    childrenOf (args.map (withChildren args')) id = childrenOf args id := by
  unfold childrenOf
  rw [List.filter_map, List.map_map]
  rfl

/-- **The counterargument relation is inverted.** Every argument gets the list of its
    counterarguments, in their order, and nothing else is changed; doing so again changes
    nothing. -/
theorem getDebateDTO_inverts (debateInfo : CurrentDebate)
    (hnodup : (debateInfo.args.map DebateArgument.argumentId).Nodup)
    (hpos : ∀ a ∈ debateInfo.args, 0 < a.argumentId) :
    debateInfo.IsInverted (getDebateDTO debateInfo) ∧
      getDebateDTO (getDebateDTO debateInfo) = getDebateDTO debateInfo := by
  rw [getDebateDTO_eq debateInfo hpos]
  refine ⟨⟨rfl, rfl, ?_, ?_, ?_, ?_⟩, ?_⟩
  · rw [List.map_map]
    exact List.map_congr_left fun a _ => rfl
  · intro a ha
    obtain ⟨a₀, -, rfl⟩ := List.mem_map.1 ha
    rw [withChildren, nonempty?_eq_none, List.eq_nil_iff_forall_not_mem]
    constructor
    · intro h b hb hparent
      exact h _ (mem_childrenOf.2 ⟨b, hb, hparent, rfl⟩)
    · intro h n hn
      obtain ⟨b, hb, hparent, -⟩ := mem_childrenOf.1 hn
      exact h b hb hparent
  · intro a ha ids hids
    obtain ⟨a₀, -, rfl⟩ := List.mem_map.1 ha
    obtain ⟨rfl, -⟩ := nonempty?_eq_some.1 hids
    exact ⟨rfl, nodup_childrenOf hnodup _⟩
  · intro b hb a ha hparent
    have hflat : ((debateInfo.args.map (withChildren debateInfo.args)).flatMap
        fun a => a.counterarguments.getD []) =
          debateInfo.args.flatMap fun a => childrenOf debateInfo.args a.argumentId := by
      rw [List.flatMap_map]
      exact List.flatMap_congr fun a _ => getD_nonempty? _
    rw [hflat]
    exact count_flatMap_childrenOf hnodup hnodup ha hb hparent
  · rw [getDebateDTO_eq]
    · simp only [CurrentDebate.mk.injEq, and_true, List.map_map]
      refine List.map_congr_left fun a _ => ?_
      simp only [Function.comp_apply, withChildren, childrenOf_map_withChildren]
    · intro a ha
      obtain ⟨a₀, ha₀, rfl⟩ := List.mem_map.1 ha
      exact hpos a₀ ha₀

/-- An argument of which only the links matter. -/
def linkedArgument (argumentId : Int) (counterargumentTo : Option Int) : DebateArgument where
  argumentId := argumentId
  debateId := 1
  debateTitle := "t"
  ticketId := argumentId
  title := ""
  content := none
  createdById := 1
  argumentType := .pro
  createdAt := ""
  username := ""
  counterargumentTo := counterargumentTo
  counterarguments := none

/-- Three levels, a missing parent and an argument against itself. -/
def linkedDebate : CurrentDebate where
  args := [linkedArgument 4 (some 2), linkedArgument 1 none, linkedArgument 2 (some 1),
    linkedArgument 3 (some 1), linkedArgument 6 (some 9), linkedArgument 5 (some 5)]
  metadata := ⟨1, "t"⟩
  expandedArgumentsIDs := none

theorem getDebateDTO_inverts_sample :
    (getDebateDTO linkedDebate).args.map DebateArgument.counterarguments =
        [none, some [2, 3], some [4], none, none, some [5]] ∧
      linkedDebate.IsInverted (getDebateDTO linkedDebate) ∧
      getDebateDTO (getDebateDTO linkedDebate) = getDebateDTO linkedDebate :=
  ⟨by decide, getDebateDTO_inverts linkedDebate (by decide) (by decide)⟩

end DecentDebates.DebatePage
