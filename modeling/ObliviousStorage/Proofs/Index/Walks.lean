import ObliviousStorage.Index.Relocation
import ObliviousStorage.Proofs.Index.Trail
import ObliviousStorage.Proofs.Storage.Contents

/-!
Contract: a walk over an index as a run of a store.

Owns: the tie between a walk and its trail. A walk that succeeds has followed a trail
and handed over every page on it; a walk that is refused has left the store as the
calls before left it, and if the store refuses only what makes no sense, then there is
no trail whose pages are all taken.

Does not own: what a trail visits, or the target of the pages.
-/

namespace ObliviousStorage.Index

open StorageM StorageView

variable {σ : Type} [Storage σ]

/-- What the calls of a walk lead to: reading yields the pages, handing over takes those
that fit, and `At` tells which pages were handed over when a state was reached. A walk
that stops at such a state leaves it as `Refused`; a reliable store refuses only what
cannot be done. -/
structure WalkCalls
    (index : RelationId)
    (target : Option (PageTarget σ))
    (Fetched : BlockNumber → Page → Prop)
    (Fits : Placement → Prop)
    (At : List Placement → σ → Prop)
    (Refused : σ → Prop)
    (reliable : Prop) : Prop where
  functional : ∀ block one other, Fetched block one → Fetched block other → one = other
  reads :
    ∀ heads state block, At heads state →
      (Storage.read index block : StorageM σ Page).Yields state
        (either (fun page left => Fetched block page ∧ At heads left)
          fun _ left => Refused left ∧ (reliable → ∀ page, ¬Fetched block page))
  hands :
    ∀ heads state placement, At heads state →
      (handOver target placement.visit.page placement.tally.offset
          placement.pending.depth).Yields state
        (either (fun _ left => Fits placement ∧ At (heads ++ [placement]) left)
          fun _ left => Refused left ∧ (reliable → ¬Fits placement))
  stops : ∀ heads state, At heads state → Refused state

section Walk

variable
  {index : RelationId}
  {target : Option (PageTarget σ)}
  {Fetched : BlockNumber → Page → Prop}
  {Fits : Placement → Prop}
  {At : List Placement → σ → Prop}
  {Refused : σ → Prop}
  {reliable : Prop}

theorem walkFrom_yields
    {rootLevel : Nat}
    (calls : WalkCalls index target Fetched Fits At Refused reliable)
    (tally : LevelTally)
    (queue : List Pending)
    (heads : List Placement)
    (state : σ)
    (here : At heads state) :
    (walkFrom index target rootLevel tally queue).Yields state
      (either
        (fun profile left =>
          ∃ placements final,
            Trail Fetched (walkMode target) rootLevel tally queue placements final ∧
              (∀ placement ∈ placements, Fits placement) ∧ profile = final.profile ∧
                At (heads ++ placements) left)
        fun _ left =>
          Refused left ∧
            (reliable →
              ∀ placements final,
                Trail Fetched (walkMode target) rootLevel tally queue placements final →
                  ∃ placement ∈ placements, ¬Fits placement)) := by
  induction tally, queue using walkFrom.induct target rootLevel generalizing heads state with
  | case1 tally =>
      rw [walkFrom]
      exact yields_pure ⟨[], tally, .ended tally, by simp, rfl, by simpa using here⟩
  | case2 tally pending rest inductionHypothesis =>
      rw [walkFrom]
      apply yields_bind (calls.reads heads state pending.block here)
      · intro page afterRead holds
        rcases holds with ⟨fetched, here⟩
        split
        · next fault refused =>
            refine yields_throw ⟨calls.stops heads _ here, fun _ placements final trail => ?_⟩
            cases trail with
            | visited fetched' visits =>
                rw [calls.functional _ _ _ fetched' fetched, refused] at visits
                exact absurd visits (by simp)
        · next visit visits =>
            -- A trail from here begins with this visit.
            have begins :
                ∀ placements final,
                  Trail Fetched (walkMode target) rootLevel tally (pending :: rest) placements
                      final →
                    ∃ advanced later,
                      tally.advance pending visit = .ok advanced ∧
                        placements = ⟨tally, pending, page, visit⟩ :: later ∧
                          Trail Fetched (walkMode target) rootLevel advanced
                            (rest ++ visit.children) later final := by
              intro placements final trail
              cases trail with
              | visited fetched' visits' advances continues =>
                  obtain rfl := calls.functional _ _ _ fetched fetched'
                  obtain rfl := Except.ok.inj (visits.symm.trans visits')
                  exact ⟨_, _, advances, rfl, continues⟩
            refine yields_bind (calls.hands heads afterRead ⟨tally, pending, page, visit⟩ here) ?_ ?_
            · intro _ afterHand holds
              rcases holds with ⟨fits, here⟩
              apply yields_lift_bind
              · intro advanced advances
                apply (inductionHypothesis page visit visits advanced _ _ here).mono
                · intro profile left holds
                  rcases holds with ⟨placements, final, trail, fit, result, here⟩
                  refine ⟨_, final, .visited fetched visits advances trail, ?_, result, ?_⟩
                  · simpa using ⟨fits, fit⟩
                  · simpa using here
                · intro fault left refused
                  rcases refused with ⟨stopped, reason⟩
                  refine ⟨stopped, fun reliably placements final trail => ?_⟩
                  obtain ⟨advanced', later, advances', rfl, continues⟩ := begins _ _ trail
                  obtain rfl := Except.ok.inj (advances.symm.trans advances')
                  obtain ⟨placement, member, unfit⟩ := reason reliably _ _ continues
                  exact ⟨placement, List.mem_cons_of_mem _ member, unfit⟩
              · intro fault refused
                refine ⟨calls.stops _ _ here, fun _ placements final trail => ?_⟩
                obtain ⟨advanced, later, advances, -, -⟩ := begins _ _ trail
                exact absurd (refused.symm.trans advances) (by simp)
            · intro fault left refused
              rcases refused with ⟨stopped, reason⟩
              refine ⟨stopped, fun reliably placements final trail => ?_⟩
              obtain ⟨advanced, later, -, rfl, -⟩ := begins _ _ trail
              exact ⟨_, List.mem_cons_self .., reason reliably⟩
      · intro fault left refused
        rcases refused with ⟨stopped, reason⟩
        refine ⟨stopped, fun reliably placements final trail => ?_⟩
        cases trail with
        | visited fetched => exact absurd fetched (reason reliably _)

end Walk

/-! ## Whole walks -/

/-- The visits of a walk over a whole index, from the page that its metapage names to
the end, and the shape that the walk returns. -/
inductive WholeTrail (Fetched : BlockNumber → Page → Prop) (mode : WalkMode) :
    List Placement → Profile → Prop
  | intro
      {first : Page}
      {metapage : Metapage}
      {placements : List Placement}
      {final : LevelTally}
      (fetched : Fetched metapageBlock first)
      (opens : Metapage.read first = .ok metapage)
      (trail :
        Trail Fetched mode metapage.level.toNat .start [.ofRoot metapage.root] placements final) :
      WholeTrail Fetched mode placements final.profile

theorem WholeTrail.unique
    {Fetched : BlockNumber → Page → Prop}
    {mode : WalkMode}
    {placements others : List Placement}
    {profile another : Profile}
    (functional : ∀ block one other, Fetched block one → Fetched block other → one = other)
    (trail : WholeTrail Fetched mode placements profile)
    (second : WholeTrail Fetched mode others another) :
    placements = others ∧ profile = another := by
  obtain ⟨fetched, opens, trail⟩ := trail
  obtain ⟨fetched', opens', trail'⟩ := second
  obtain rfl := functional _ _ _ fetched fetched'
  obtain rfl := Except.ok.inj (opens.symm.trans opens')
  obtain ⟨rfl, rfl⟩ := trail.unique functional trail'
  exact ⟨rfl, rfl⟩

/-- What `walkFrom_yields` says, for the walk over a whole index. -/
theorem walk_yields
    {index : RelationId}
    {target : Option (PageTarget σ)}
    {Fetched : BlockNumber → Page → Prop}
    {Fits : Placement → Prop}
    {At : List Placement → σ → Prop}
    {Refused : σ → Prop}
    {reliable : Prop}
    (calls : WalkCalls index target Fetched Fits At Refused reliable)
    (state : σ)
    (here : At [] state) :
    (walk index target).Yields state
      (either
        (fun profile left =>
          ∃ placements,
            WholeTrail Fetched (walkMode target) placements profile ∧
              (∀ placement ∈ placements, Fits placement) ∧ At placements left)
        fun _ left =>
          Refused left ∧
            (reliable →
              ∀ placements profile,
                WholeTrail Fetched (walkMode target) placements profile →
                  ∃ placement ∈ placements, ¬Fits placement)) := by
  unfold walk
  apply yields_bind (calls.reads [] state metapageBlock here)
  · intro first afterRead holds
    rcases holds with ⟨fetched, here⟩
    apply yields_lift_bind
    · intro metapage opens
      apply (walkFrom_yields calls _ _ [] afterRead here).mono
      · intro profile left holds
        rcases holds with ⟨placements, final, trail, fit, rfl, here⟩
        exact ⟨placements, .intro fetched opens trail, fit, here⟩
      · intro fault left refused
        rcases refused with ⟨stopped, reason⟩
        refine ⟨stopped, fun reliably placements profile whole => ?_⟩
        obtain ⟨fetched', opens', trail⟩ := whole
        obtain rfl := calls.functional _ _ _ fetched fetched'
        obtain rfl := Except.ok.inj (opens.symm.trans opens')
        exact reason reliably _ _ trail
    · intro fault refused
      refine ⟨calls.stops _ _ here, fun _ placements profile whole => ?_⟩
      obtain ⟨fetched', opens', -⟩ := whole
      obtain rfl := calls.functional _ _ _ fetched fetched'
      exact absurd (refused.symm.trans opens') (by simp)
  · intro fault left refused
    rcases refused with ⟨stopped, reason⟩
    refine ⟨stopped, fun reliably placements profile whole => ?_⟩
    obtain ⟨fetched, -, -⟩ := whole
    exact absurd fetched (reason reliably _)

/-! ## Measuring -/

/-- The pages of a relation, as a walk sees them. -/
def Held (held : Contents) (index : RelationId) (block : BlockNumber) (page : Page) : Prop :=
  held.page index block = .ok page

theorem held_functional
    (held : Contents)
    (index : RelationId)
    (block : BlockNumber)
    (one other : Page)
    (first : Held held index block one)
    (second : Held held index block other) :
    one = other :=
  Except.ok.inj (first.symm.trans second)

variable [LawfulStorage σ]

/-- Reading a relation that holds what it held before. -/
theorem read_yields
    {index : RelationId}
    {held : Contents}
    {state : σ}
    (same : contents state index = held index)
    (block : BlockNumber) :
    (Storage.read index block : StorageM σ Page).Yields state
      (either
        (fun page left => Held held index block page ∧ Became state left (contents state) 0)
        fun _ left =>
          Became state left (contents state) 0 ∧
            (Sound state → ∀ page, ¬Held held index block page)) := by
  apply (LawfulStorage.read_law state index block).mono
  · intro page left holds
    rcases holds with ⟨found, became⟩
    exact ⟨(Contents.page_congr same block).symm.trans found, became⟩
  · intro fault left refused
    rcases refused with ⟨reason, became⟩
    refine ⟨became, fun sound page found => ?_⟩
    have missing := reason sound
    rw [Contents.page_congr same block, found] at missing
    exact absurd missing (by simp)

theorem measure_calls (index : RelationId) (state : σ) :
    WalkCalls index none (Held (contents state) index) (fun _ => True)
      (fun _ left => Became state left (contents state) 0)
      (fun left => Became state left (contents state) 0) (Sound state) where
  functional := held_functional (contents state) index
  reads heads between block here := by
    apply (read_yields (congrFun here.holds index) block).mono
    · intro page left holds
      rcases holds with ⟨found, became⟩
      rw [here.holds] at became
      exact ⟨found, here.trans became⟩
    · intro fault left refused
      rcases refused with ⟨became, reason⟩
      rw [here.holds] at became
      exact ⟨here.trans became, fun sound => reason (here.keepsSound sound)⟩
  hands heads between placement here := yields_pure ⟨trivial, here⟩
  stops heads between here := here

/-- Measuring an index changes nothing. It succeeds if there is a trail over the whole
index, on every store that refuses only what makes no sense. -/
theorem measure_yields (index : RelationId) (state : σ) :
    (measure index).Yields state
      (either
        (fun profile left =>
          (∃ placements, WholeTrail (Held (contents state) index) .measure placements profile) ∧
            Became state left (contents state) 0)
        fun _ left =>
          Became state left (contents state) 0 ∧
            (Sound state →
              ∀ placements profile,
                ¬WholeTrail (Held (contents state) index) .measure placements profile)) := by
  apply (walk_yields (measure_calls index state) state (.refl state)).mono
  · intro profile left holds
    rcases holds with ⟨placements, trail, -, became⟩
    exact ⟨⟨placements, trail⟩, became⟩
  · intro fault left refused
    rcases refused with ⟨became, reason⟩
    refine ⟨became, fun sound placements profile trail => ?_⟩
    obtain ⟨placement, -, unfit⟩ := reason sound placements profile trail
    exact unfit trivial

/-- An index with a trail over it can be measured on a sound store. -/
theorem measure_of_whole
    {index : RelationId}
    {state : σ}
    {placements : List Placement}
    {profile : Profile}
    (sound : Sound state)
    (whole : WholeTrail (Held (contents state) index) .measure placements profile) :
    ((measure index).runOn state).1 = .ok profile := by
  have measures := measure_yields index state
  cases ran : (measure index).runOn state with
  | mk outcome left =>
      cases outcome with
      | ok found =>
          obtain ⟨⟨others, trail⟩, -⟩ := measures.runOn ran
          rw [(trail.unique (held_functional _ _) whole).2]
      | error fault => exact absurd whole ((measures.runOn ran).2 sound _ _)

end ObliviousStorage.Index
