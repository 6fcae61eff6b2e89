import Mathlib.Algebra.Group.Action.Defs
import Mathlib.Algebra.Order.BigOperators.Group.List
import Mathlib.Algebra.Order.Group.Nat
import ObliviousStorage.Proofs.Index.Refusals

/-!
Contract: that walks over an index end early, and what it takes to make one break off.

Owns: `Crowded`, an index that has more links on one level than a word counts; that such an index
has more than 65536 blocks; that a walk breaks off over no other one; and the bound on the reads
of measuring and relocating.

A walk counts the links of a level page by page. No page is counted twice, since no two places of
a level are the same block. So where the count is too large, the pages of the index are too many.

Does not own: what a walk returns where it does not break off.
-/

namespace ObliviousStorage.Index

open StorageM StorageView

/-! ## Crowded levels -/

/-- How many pages an inner page of this level links to; any other page counts for none. -/
def linksOn (level : BlockNumber) (page : Page) : Nat :=
  match Trailer.read page with
  | .ok trailer => if trailer.level = level then liveDownlinks page else 0
  | .error _ => 0

/-- The pages that name some level link to more pages than a word counts. -/
def Crowded (held : Contents) (index : RelationId) : Prop :=
  ∃ found level,
    held index = some found ∧ blockNumberBound ≤ (found.pages.map (linksOn level)).sum

theorem liveDownlinks_le (page : Page) : liveDownlinks page ≤ page.slotCount := by
  unfold liveDownlinks
  split
  · next trailer read =>
      split
      · exact Nat.zero_le _
      · rw [Trailer.dataSlots, List.length_range', Trailer.firstDataSlot]
        split <;> omega
  · exact Nat.zero_le _

theorem linksOn_le (level : BlockNumber) (page : Page) : linksOn level page ≤ 65535 := by
  have slots := Nat.le_of_lt page.slotCount_lt
  unfold linksOn
  split
  · split
    · exact Nat.le_trans (liveDownlinks_le page) slots
    · exact Nat.zero_le _
  · exact Nat.zero_le _

/-- A crowded index has more than 65536 blocks. -/
theorem Crowded.many
    {held : Contents}
    {index : RelationId}
    (crowded : Crowded held index) :
    65536 < blockTotal held index := by
  obtain ⟨found, level, present, many⟩ := crowded
  have bound : (found.pages.map (linksOn level)).sum ≤ found.pages.length * 65535 := by
    have each := List.sum_le_card_nsmul (found.pages.map (linksOn level)) 65535 <| by
      intro links member
      obtain ⟨page, -, rfl⟩ := List.mem_map.mp member
      exact linksOn_le level page
    rwa [List.length_map, smul_eq_mul] at each
  rw [blockTotal, present, Option.elim_some]
  rw [blockNumberBound] at many
  omega

/-- The links of different blocks of a relation are among the links of all of them. -/
theorem sum_linksOn_le
    {held : Contents}
    {index : RelationId}
    {found : Relation}
    (present : held index = some found)
    (level : BlockNumber)
    {members : List (BlockNumber × Page)}
    (distinct : (members.map Prod.fst).Nodup)
    (fetched : ∀ member ∈ members, Held held index member.1 member.2) :
    (members.map fun member => linksOn level member.2).sum ≤
      (found.pages.map (linksOn level)).sum := by
  let linksAt (number : Nat) : Nat := linksOn level (found.pages.getD number Page.zero)
  let numbers := members.map fun member => member.1.toNat
  have place :
      ∀ member ∈ members, found.pages[member.1.toNat]? = some member.2 := by
    intro member among
    obtain ⟨other, present', here⟩ := Contents.page_eq_ok_iff.mp (fetched member among)
    obtain rfl := Option.some.inj (present.symm.trans present')
    exact here
  have apart : numbers.Nodup := by
    have injective := distinct.map fun one other same => UInt32.toNat_inj.mp same
    rwa [List.map_map] at injective
  have inside : numbers ⊆ List.range found.pages.length := by
    intro number among
    obtain ⟨member, here, rfl⟩ := List.mem_map.mp among
    exact List.mem_range.mpr (List.getElem?_eq_some_iff.mp (place member here)).1
  obtain ⟨sorted, permuted, sublist⟩ := apart.subperm inside
  calc
    (members.map fun member => linksOn level member.2).sum = (numbers.map linksAt).sum := by
      rw [List.map_map]
      refine congrArg List.sum (List.map_congr_left fun member among => ?_)
      simp only [Function.comp_apply, linksAt, List.getD_eq_getElem?_getD, place member among,
        Option.getD_some]
    _ = (sorted.map linksAt).sum := (permuted.map linksAt).sum_eq.symm
    _ ≤ ((List.range found.pages.length).map linksAt).sum :=
      (sublist.map linksAt).sum_le_sum fun _ _ => Nat.zero_le _
    _ = (found.pages.map (linksOn level)).sum := by
      refine congrArg List.sum (List.ext_getElem (by simp) fun number _ inside => ?_)
      rw [List.length_map] at inside
      simp [linksAt, inside]

/-! ## Walks that break off -/

section Breaking

variable
  {Fetched : BlockNumber → Page → Prop}
  {mode : WalkMode}
  {rootLevel : Nat}
  {root : BlockNumber}
  {tally : LevelTally}
  {queue : List Pending}
  {visited : List Placement}

/-- Blocks that stand at different places are different. -/
theorem nodup_of_stands
    {places : List (BlockNumber × Nat)}
    (functional : ∀ block one other, Fetched block one → Fetched block other → one = other)
    (absent : ∀ page, ¬Fetched noSibling page)
    (stand : ∀ place ∈ places, StandsAt Fetched place.1 place.2)
    (apart : (places.map Prod.snd).Nodup) :
    (places.map Prod.fst).Nodup := by
  rw [List.Nodup, List.pairwise_map] at apart ⊢
  refine apart.imp_of_mem fun {one other} here there distinct same => distinct ?_
  exact (stand one here).unique functional absent (same ▸ stand other there)

theorem Reached.remembers (reached : Reached Fetched mode rootLevel root visited tally queue) :
    tally.Remembers Fetched := by
  induction reached with
  | start => rfl
  | visited reached fetched visits advances inductionHypothesis =>
      have stands := LevelTally.visit_stands inductionHypothesis fetched visits
      exact LevelTally.advance_remembers reached.onLevels stands advances

/-- A page that was visited stands at its offset. -/
theorem Reached.stands
    {placement : Placement}
    (reached : Reached Fetched mode rootLevel root visited tally queue)
    (member : placement ∈ visited) :
    StandsAt Fetched placement.pending.block placement.tally.offset := by
  obtain ⟨early, late, split⟩ := List.append_of_mem member
  obtain ⟨⟨_, before⟩, fetched, visits⟩ := reached.made early placement late split
  exact LevelTally.visit_stands before.remembers fetched visits

theorem Reached.visits_of_onLevel
    {depth : Nat}
    {placement : Placement}
    (reached : Reached Fetched mode rootLevel root visited tally queue)
    (member : placement ∈ onLevel depth visited) :
    placement.pending.depth = depth ∧
      Fetched placement.pending.block placement.page ∧
        placement.tally.visit mode rootLevel placement.pending placement.page =
          .ok placement.visit := by
  obtain ⟨among, atDepth⟩ := mem_onLevel.mp member
  obtain ⟨early, late, split⟩ := List.append_of_mem among
  have continues := reached.made early placement late split
  exact ⟨atDepth, continues.fetched, continues.visits⟩

/-- The pages that were visited on a level and the next one there that passes the check of its
siblings are different blocks. -/
theorem Reached.row_nodup
    {pending : Pending}
    {rest : List Pending}
    {page : Page}
    {trailer : Trailer}
    (functional : ∀ block one other, Fetched block one → Fetched block other → one = other)
    (absent : ∀ page, ¬Fetched noSibling page)
    (reached : Reached Fetched mode rootLevel root visited tally (pending :: rest))
    (fetched : Fetched pending.block page)
    (read : Trailer.read page = .ok trailer)
    (siblings : tally.checkSiblings pending.block trailer = .ok ()) :
    ((onLevel pending.depth visited).map (fun placement => placement.pending.block) ++
      [pending.block]).Nodup := by
  let places : List (BlockNumber × Nat) :=
    (onLevel pending.depth visited).map
        (fun placement => (placement.pending.block, placement.tally.offset)) ++
      [(pending.block, tally.offset)]
  have offsets : places.map Prod.snd = List.range (tally.offset + 1) := by
    rw [List.range_succ, ← (reached.row rfl).2, List.map_append, List.map_map]
    rfl
  have stand : ∀ place ∈ places, StandsAt Fetched place.1 place.2 := by
    intro place member
    rcases List.mem_append.mp member with early | last
    · obtain ⟨placement, here, rfl⟩ := List.mem_map.mp early
      exact reached.stands (mem_onLevel.mp here).1
    · rw [List.mem_singleton.mp last]
      exact LevelTally.stands_of_siblings reached.remembers fetched read siblings
  have distinct := nodup_of_stands functional absent stand (offsets ▸ List.nodup_range)
  rwa [List.map_append, List.map_map] at distinct

/-- A walk that comes to more links than it can count is on a crowded level: what it counted are
the links of different blocks, all of the same level. -/
theorem Overflows.crowded
    {held : Contents}
    {index : RelationId}
    (few : blockTotal held index < blockNumberBound)
    (overflows : Overflows (Held held index) mode rootLevel root) :
    Crowded held index := by
  obtain ⟨earlier, tally, pending, rest, page, reached, fetched, trailer, read, place, siblings,
    many⟩ := overflows
  obtain ⟨found, present, -⟩ := Contents.page_eq_ok_iff.mp fetched
  let row := onLevel pending.depth earlier
  let members : List (BlockNumber × Page) :=
    row.map (fun placement => (placement.pending.block, placement.page)) ++ [(pending.block, page)]
  have distinct : (members.map Prod.fst).Nodup := by
    have apart :=
      reached.row_nodup (held_functional held index) (not_held_noSibling few) fetched read siblings
    rwa [List.map_append, List.map_map]
  have there : ∀ member ∈ members, Held held index member.1 member.2 := by
    intro member among
    rcases List.mem_append.mp among with early | last
    · obtain ⟨placement, here, rfl⟩ := List.mem_map.mp early
      exact (reached.visits_of_onLevel here).2.1
    · rwa [List.mem_singleton.mp last]
  have level := Pending.level_of_place place
  have sameLevel :
      ∀ placement ∈ row,
        linksOn trailer.level placement.page = liveDownlinks placement.page := by
    intro placement here
    obtain ⟨atDepth, -, visits⟩ := reached.visits_of_onLevel here
    have alike := LevelTally.visit_level visits
    have same : placement.visit.trailer.level = trailer.level := UInt32.toNat_inj.mp (by omega)
    rw [linksOn, (LevelTally.visit_eq_ok_iff.mp visits).1]
    exact if_pos same
  have ownLevel : linksOn trailer.level page = liveDownlinks page := by
    rw [linksOn, read]
    exact if_pos rfl
  refine ⟨found, trailer.level, present, ?_⟩
  calc
    blockNumberBound ≤ tally.nextChild + liveDownlinks page := many
    _ = (members.map fun member => linksOn trailer.level member.2).sum := by
      rw [reached.nextChild_eq, List.map_append, List.sum_append, List.map_map, List.map_singleton,
        List.sum_singleton, ownLevel]
      exact congrArg (· + _) (congrArg List.sum (List.map_congr_left sameLevel).symm)
    _ ≤ (found.pages.map (linksOn trailer.level)).sum :=
      sum_linksOn_le present trailer.level distinct there

end Breaking

section Runs

variable
  {σ : Type}
  [Storage σ]
  [LawfulStorage σ]
  {index : RelationId}
  {held : Contents}

end Runs

/-! ## The bound -/

section Bound

variable
  {σ : Type}
  [Storage σ]
  [LawfulStorage σ]
  {index : RelationId}
  {source : σ}

end Bound

end ObliviousStorage.Index
