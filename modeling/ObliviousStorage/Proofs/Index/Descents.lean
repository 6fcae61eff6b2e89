import ObliviousStorage.Proofs.Index.Numbering

/-!
Contract: a descent through the pages of an index next to a descent through their
images.

Owns: the simulation of one descent by the other. Both are given a way to fetch the
pages on a relocating trail, one by the block that a page lies in, the other by its
position within its level; for every key they visit the same places of the trail and
come to the same outcome, faults included.

Does not own: the stores that the pages are fetched from.
-/

namespace ObliviousStorage.Index

open StorageM

variable {σ τ : Type}

/-- What a descent ends with on a page that names no child. -/
def settledOutcome : Except Fault Route → Except Fault (Option RecordId)
  | .ok (.found record) => .ok (some record)
  | .ok _ => .ok none
  | .error fault => .error fault

section Steps

variable
  {fetch : BlockNumber → Nat → StorageM σ Page}
  {key : Int64}
  {remaining depth : Nat}
  {page : Page}
  {state : σ}

theorem descendFrom_settled
    {answer : Except Fault Route}
    (routed : route page key = answer)
    (settled : ∀ block, answer ≠ .ok (.child block)) :
    (descendFrom fetch key remaining depth page).runOn state = (settledOutcome answer, state) := by
  unfold descendFrom
  rw [runOn_bind, routed, runOn_lift]
  match answer, settled with
  | .error fault, _ => rfl
  | .ok (.found record), _ => rfl
  | .ok .absent, _ => rfl
  | .ok (.child block), settled => exact absurd rfl (settled block)

theorem descendFrom_exhausted
    {block : BlockNumber}
    (routed : route page key = .ok (.child block)) :
    (descendFrom fetch key 0 depth page).runOn state = (.error .overflow, state) := by
  unfold descendFrom
  rw [runOn_bind, routed, runOn_lift]
  rfl

theorem yields_descendFrom_child
    {block : BlockNumber}
    {after : Except Fault (Option RecordId) → σ → Prop}
    (routed : route page key = .ok (.child block))
    (descends :
      (fetch block (depth + 1) >>= fun next =>
        descendFrom fetch key remaining (depth + 1) next).Yields state after) :
    (descendFrom fetch key (remaining + 1) depth page).Yields state after := by
  rw [descendFrom.eq_def, Yields, runOn_bind, routed, runOn_lift]
  exact descends

end Steps

/-- Fetching yields the pages of a trail, each by its link, and `At` tells which of them
were fetched when a state was reached. -/
def Fetches
    (placements : List Placement)
    (link : Placement → BlockNumber)
    (shown : Placement → Page)
    (fetch : BlockNumber → Nat → StorageM σ Page)
    (At : List Placement → σ → Prop) : Prop :=
  ∀ heads state placement, placement ∈ placements → At heads state →
    (fetch (link placement) placement.pending.depth).Yields state fun outcome left =>
      outcome = .ok (shown placement) ∧ At (heads ++ [placement]) left

/-- The position of a page within its level, as a link. -/
def Placement.position (placement : Placement) : BlockNumber :=
  UInt32.ofNat placement.tally.offset

section Agreement

variable
  {Fetched : BlockNumber → Page → Prop}
  {placements : List Placement}
  {profile : Profile}
  {fetch : BlockNumber → Nat → StorageM σ Page}
  {fetchPlaced : BlockNumber → Nat → StorageM τ Page}
  {At : List Placement → σ → Prop}
  {AtPlaced : List Placement → τ → Prop}

/-- What a page on the trail and its image say about a key: the same, or the same child,
which is on the trail as well. -/
theorem route_agree
    (whole : WholeTrail Fetched .relocate placements profile)
    (small : profile.counts.sum < blockNumberBound)
    (faithful : ∀ placement ∈ placements, ∃ rootLevel, placement.Faithful rootLevel)
    (key : Int64)
    {placement : Placement}
    (member : placement ∈ placements) :
    (route placement.visit.page key = route placement.page key ∧
        ∀ block, route placement.page key ≠ .ok (.child block)) ∨
      ∃ follower ∈ placements,
        follower.pending.depth = placement.pending.depth + 1 ∧
          route placement.page key = .ok (.child follower.pending.block) ∧
            route placement.visit.page key = .ok (.child follower.position) := by
  obtain ⟨rootLevel, kept, measured, relocated⟩ := faithful placement member
  obtain ⟨number, inside, among⟩ := List.mem_iff_getElem.mp member
  have inOrder := whole.inOrder (List.getElem?_eq_some_iff.mpr ⟨inside, among⟩)
  rcases route_relocated measured relocated (inOrder.next_ne small) key with
    same | ⟨index, child, linked, onPage, onImage⟩
  · exact Or.inl same
  · obtain ⟨follower, found, pending, offset⟩ := whole.child member linked
    refine Or.inr ⟨follower, found, ?_, ?_, ?_⟩
    · rw [pending]
      exact whole.child_depth member (List.mem_of_getElem? linked)
    · rw [pending, onPage]
    · rw [onImage, Placement.position, offset]

/-- From a page on the trail and from its image, two descents visit the same places and
end alike. -/
theorem descendFrom_agree
    (whole : WholeTrail Fetched .relocate placements profile)
    (small : profile.counts.sum < blockNumberBound)
    (faithful : ∀ placement ∈ placements, ∃ rootLevel, placement.Faithful rootLevel)
    (fetches :
      Fetches placements (fun placement => placement.pending.block) Placement.page fetch At)
    (fetchesPlaced :
      Fetches placements Placement.position (fun placement => placement.visit.page) fetchPlaced
        AtPlaced)
    (key : Int64)
    (remaining : Nat)
    {placement : Placement}
    (member : placement ∈ placements) :
    ∃ path outcome,
      path ⊆ placements ∧
        (∀ heads state, At heads state →
          (descendFrom fetch key remaining placement.pending.depth placement.page).Yields state
            fun result left => result = outcome ∧ At (heads ++ path) left) ∧
          ∀ heads state, AtPlaced heads state →
            (descendFrom fetchPlaced key remaining placement.pending.depth
                placement.visit.page).Yields state
              fun result left => result = outcome ∧ AtPlaced (heads ++ path) left := by
  induction remaining generalizing placement with
  | zero =>
      rcases route_agree whole small faithful key member with
        ⟨same, settled⟩ | ⟨follower, -, -, onPage, onImage⟩
      · refine ⟨[], settledOutcome (route placement.page key), by simp, ?_, ?_⟩
        · intro heads state here
          rw [Yields, descendFrom_settled rfl settled]
          exact ⟨rfl, by simpa using here⟩
        · intro heads state here
          rw [Yields, descendFrom_settled same settled]
          exact ⟨rfl, by simpa using here⟩
      · refine ⟨[], .error .overflow, by simp, ?_, ?_⟩
        · intro heads state here
          rw [Yields, descendFrom_exhausted onPage]
          exact ⟨rfl, by simpa using here⟩
        · intro heads state here
          rw [Yields, descendFrom_exhausted onImage]
          exact ⟨rfl, by simpa using here⟩
  | succ remaining inductionHypothesis =>
      rcases route_agree whole small faithful key member with
        ⟨same, settled⟩ | ⟨follower, found, deeper, onPage, onImage⟩
      · refine ⟨[], settledOutcome (route placement.page key), by simp, ?_, ?_⟩
        · intro heads state here
          rw [Yields, descendFrom_settled rfl settled]
          exact ⟨rfl, by simpa using here⟩
        · intro heads state here
          rw [Yields, descendFrom_settled same settled]
          exact ⟨rfl, by simpa using here⟩
      · obtain ⟨path, outcome, within, original, relocated⟩ := inductionHypothesis found
        refine ⟨follower :: path, outcome, List.cons_subset.mpr ⟨found, within⟩, ?_, ?_⟩
        · intro heads state here
          apply yields_descendFrom_child onPage
          rw [← deeper]
          apply yields_bind (fetches heads state follower found here)
          · intro next between holds
            rcases holds with ⟨fetched, here⟩
            obtain rfl := Except.ok.inj fetched
            simpa using original _ between here
          · intro fault between holds
            rcases holds with ⟨fetched, -⟩
            exact absurd fetched (by simp)
        · intro heads state here
          apply yields_descendFrom_child onImage
          rw [← deeper]
          apply yields_bind (fetchesPlaced heads state follower found here)
          · intro next between holds
            rcases holds with ⟨fetched, here⟩
            obtain rfl := Except.ok.inj fetched
            simpa using relocated _ between here
          · intro fault between holds
            rcases holds with ⟨fetched, -⟩
            exact absurd fetched (by simp)

end Agreement

end ObliviousStorage.Index
