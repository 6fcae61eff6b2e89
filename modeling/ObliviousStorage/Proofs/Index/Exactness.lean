import ObliviousStorage.Proofs.Index.Lookups
import ObliviousStorage.Proofs.Index.Stacking

/-!
Contract: looking keys up in an index that was built from sorted entries.

Owns: what a leaf and an inner page say about a key; that the descent goes, level by level,
through the page that covers the key; and the exact outcome of every lookup, also where
equal keys lie on several pages. The search of a leaf begins with its first entry, so of
equal entries it finds the first one on the last leaf that has any.

Does not own: how the pages were written.
-/

namespace ObliviousStorage.Index

open StorageM StorageView Builder

/-! ## What a page says -/

section Pages

variable
  {page : Page}
  {trailer : Trailer}
  {bound : Option Entry}
  {group : List Entry}

/-- Reading these slots of the page yields these entries. -/
def Reads (page : Page) (slots : List Nat) (entries : List Entry) : Prop :=
  List.Forall₂ (fun slot entry => Entry.read page slot = .ok entry) slots entries

/-- On a built page whose bound is there exactly if another page is to its right, the data
slots hold the group. -/
theorem reads_dataSlots
    (built : BuiltOf page trailer (bound.toList ++ group))
    (bounded : trailer.isRightmost = bound.isNone) :
    Reads page (trailer.dataSlots page) group := by
  have first : trailer.firstDataSlot = bound.toList.length + 1 := by
    rw [Trailer.firstDataSlot, bounded]
    cases bound <;> rfl
  have count : page.slotCount + 1 - trailer.firstDataSlot = group.length := by
    rw [built.slotCount, first, List.length_append]
    omega
  refine List.forall₂_iff_get.mpr ⟨by rw [Trailer.dataSlots, count, List.length_range'], ?_⟩
  intro index inside within
  have among : (bound.toList ++ group)[bound.toList.length + index]? = some group[index] := by
    rw [List.getElem?_append_right (Nat.le_add_right _ _), Nat.add_sub_cancel_left,
      List.getElem?_eq_getElem within]
  have slot :
      (trailer.dataSlots page).get ⟨index, inside⟩ = bound.toList.length + index + 1 := by
    simp only [Trailer.dataSlots, List.get_eq_getElem, List.getElem_range', first]
    omega
  rw [slot]
  exact built.entry among

theorem findKey_of_reads
    {slots : List Nat}
    (reads : Reads page slots group)
    (key : Int64) :
    findKey page key slots =
      .ok (match group.find? (·.key = key) with
        | some entry => .found entry.record
        | none => .absent) := by
  induction reads with
  | nil => rfl
  | @cons slot entry slots group read reads inductionHypothesis =>
      rw [findKey, read, List.find?_cons]
      by_cases here : entry.key = key
      · simp [bind, Except.bind, here]
        rfl
      · simpa [bind, Except.bind, here] using inductionHypothesis

theorem chooseChild_of_reads
    {slots : List Nat}
    (reads : Reads page slots group)
    (ascending : (group.map Entry.key).Pairwise (· ≤ ·))
    (key : Int64)
    (first : Entry) :
    ∃ place entry,
      (first :: group)[place]? = some entry ∧
        Covers ((first :: group).map Entry.key) key place ∧
          chooseChild page key first.block slots = .ok (.child entry.block) := by
  induction reads generalizing first with
  | nil => exact ⟨0, first, rfl, .of_singleton first.key key, rfl⟩
  | @cons slot entry slots group read reads inductionHypothesis =>
      rw [chooseChild, read]
      by_cases below : key < entry.key
      · refine ⟨0, first, rfl, ⟨Nat.succ_pos _, fun first => absurd rfl first, ?_⟩, ?_⟩
        · intro later low behind among
          obtain ⟨later, rfl⟩ : ∃ more, later = more + 1 := ⟨later - 1, by omega⟩
          rw [List.map_cons, List.getElem?_cons_succ] at among
          exact Int64.lt_of_lt_of_le below
            (le_of_ascending ascending (Nat.zero_le later) rfl among)
        · simp [bind, Except.bind, below]
          rfl
      · obtain ⟨place, chosen, among, covers, child⟩ :=
          inductionHypothesis (List.pairwise_cons.mp ascending).2 entry
        refine ⟨place + 1, chosen, among, ⟨Nat.succ_lt_succ covers.inside, ?_, ?_⟩, ?_⟩
        · intro _ low here
          rw [List.map_cons, List.getElem?_cons_succ] at here
          rcases Nat.eq_zero_or_pos place with rfl | later
          · obtain rfl := Option.some.inj here
            exact Int64.not_lt.mp below
          · exact covers.reached (Nat.ne_of_gt later) low here
        · intro later low behind here
          obtain ⟨later, rfl⟩ : ∃ more, later = more + 1 := ⟨later - 1, by omega⟩
          rw [List.map_cons, List.getElem?_cons_succ] at here
          exact covers.beyond later low (Nat.lt_of_succ_lt_succ behind) here
        · simpa [bind, Except.bind, below] using child

/-- A leaf names the record of the first entry with the key. -/
theorem route_leaf
    (built : BuiltOf page trailer (bound.toList ++ group))
    (bounded : trailer.isRightmost = bound.isNone)
    (leaf : trailer.isLeaf = true)
    (key : Int64) :
    route page key =
      .ok (match group.find? (·.key = key) with
        | some entry => .found entry.record
        | none => .absent) := by
  have found := findKey_of_reads (reads_dataSlots built bounded) key
  simp [route, built.read, bind, Except.bind, leaf, found]

/-- An inner page names the child of the entry that covers the key. -/
theorem route_inner
    (built : BuiltOf page trailer (bound.toList ++ group))
    (bounded : trailer.isRightmost = bound.isNone)
    (inner : trailer.isLeaf = false)
    (notEmpty : group ≠ [])
    (ascending : (group.map Entry.key).Pairwise (· ≤ ·))
    (key : Int64) :
    ∃ place entry,
      group[place]? = some entry ∧ Covers (group.map Entry.key) key place ∧
        route page key = .ok (.child entry.block) := by
  have reads := reads_dataSlots built bounded
  cases group with
  | nil => exact absurd rfl notEmpty
  | cons first rest =>
      cases slots : trailer.dataSlots page with
      | nil =>
          rw [slots] at reads
          cases reads
      | cons slot behind =>
          rw [slots] at reads
          obtain ⟨read, reads⟩ := List.forall₂_cons.mp reads
          obtain ⟨place, entry, among, covers, child⟩ :=
            chooseChild_of_reads reads (List.pairwise_cons.mp ascending).2 key first
          refine ⟨place, entry, among, covers, ?_⟩
          simp [route, built.read, bind, Except.bind, inner, slots, read, child]

end Pages

/-! ## The page of a group -/

theorem isLeaf_levelFlags (level pages : Nat) (previous next : BlockNumber) :
    (Trailer.unplaced previous next (UInt32.ofNat level) (levelFlags level pages)).isLeaf =
      decide (level = 0) := by
  rw [Trailer.isLeaf, Trailer.unplaced, levelFlags]
  by_cases bottom : level = 0 <;> by_cases alone : pages = 1 <;>
    simp only [bottom, alone] <;> decide

/-- The trailer of a page on its level, which has so many pages in the blocks from `start` on. -/
def groupTrailer (level start pages index : Nat) : Trailer :=
  .unplaced (if index = 0 then noSibling else UInt32.ofNat (start + index - 1))
    (if index + 1 < pages then UInt32.ofNat (start + index + 1) else noSibling)
    (UInt32.ofNat level) (levelFlags level pages)

/-- What is on the page of a group, and that it has a bound unless it is the last of its level. -/
theorem builtOf_group
    (level start : Nat)
    {index : Nat}
    {groups : List (List Entry)}
    {group : List Entry}
    (among : groups[index]? = some group)
    (few : group.length ≤ mostEntries)
    (small : start + groups.length < blockNumberBound) :
    ∃ (page : Page) (bound : Option Entry),
      (wholeLevel level start groups)[index]? = some page ∧
        BuiltOf page (groupTrailer level start groups.length index) (bound.toList ++ group) ∧
          (groupTrailer level start groups.length index).isRightmost = bound.isNone := by
  have onLevel :=
    getElem?_levelPages level (levelFlags level groups.length) noSibling start groups index
  rw [among, Option.map_some] at onLevel
  refine ⟨_, _, onLevel, (groupPage_builtOf few ..).2, ?_⟩
  rw [Trailer.isRightmost, groupTrailer, Trailer.unplaced, Option.isNone_map]
  rcases Nat.lt_or_ge (index + 1) groups.length with further | last
  · have linked : UInt32.ofNat (start + index + 1) ≠ noSibling := by
      intro same
      have number := congrArg UInt32.toNat same
      simp only [blockNumberBound] at small
      rw [UInt32.toNat_ofNat_of_lt' (show start + index + 1 < 4294967296 by omega)] at number
      have none : noSibling.toNat = 4294967295 := rfl
      omega
    rw [if_pos further, List.getElem?_eq_getElem further]
    simpa using linked
  · rw [if_neg (Nat.not_lt_of_le last), List.getElem?_eq_none last]
    rfl

/-- The page of a group on its level: what is on it, and what its trailer says. -/
theorem page_of_group
    (level start : Nat)
    {index : Nat}
    {groups : List (List Entry)}
    {group : List Entry}
    (among : groups[index]? = some group)
    (few : group.length ≤ mostEntries)
    (small : start + groups.length < blockNumberBound) :
    ∃ (page : Page) (trailer : Trailer) (bound : Option Entry),
      (wholeLevel level start groups)[index]? = some page ∧
        BuiltOf page trailer (bound.toList ++ group) ∧
          trailer.isRightmost = bound.isNone ∧ trailer.isLeaf = decide (level = 0) := by
  obtain ⟨page, bound, onLevel, built, bounded⟩ := builtOf_group level start among few small
  exact ⟨page, _, bound, onLevel, built, bounded, isLeaf_levelFlags ..⟩

/-! ## The descent -/

section Descent

variable
  {σ : Type}
  [Storage σ]
  [LawfulStorage σ]
  {held : Contents}
  {relation : RelationId}
  {key : Int64}
  {answer : Option RecordId}

/-- From this page, with so many levels left to count, a descent on a sound store that holds
these relations returns this answer and changes nothing. -/
def Answers
    (σ : Type)
    [Storage σ]
    [LawfulStorage σ]
    (held : Contents)
    (relation : RelationId)
    (key : Int64)
    (answer : Option RecordId)
    (remaining : Nat)
    (page : Page) : Prop :=
  ∀ depth (state : σ), Sound state → contents state = held →
    (descendFrom (fun child _ => Storage.read relation child) key remaining depth page).Yields state
      fun outcome left => outcome = .ok answer ∧ Sound left ∧ contents left = held

/-- The relation has these pages from block `start` on. -/
def Placed (held : Contents) (relation : RelationId) (start : Nat) (pages : List Page) : Prop :=
  ∀ index page, pages[index]? = some page →
    held.page relation (UInt32.ofNat (start + index)) = .ok page

theorem Placed.left
    {start : Nat}
    {pages more : List Page}
    (placed : Placed held relation start (pages ++ more)) :
    Placed held relation start pages := by
  intro index page among
  refine placed index page ?_
  rw [List.getElem?_append_left (List.getElem?_eq_some_iff.mp among).1, among]

theorem Placed.right
    {start : Nat}
    {pages more : List Page}
    (placed : Placed held relation start (pages ++ more)) :
    Placed held relation (start + pages.length) more := by
  intro index page among
  rw [Nat.add_assoc]
  refine placed (pages.length + index) page ?_
  rw [List.getElem?_append_right (Nat.le_add_right _ _), Nat.add_sub_cancel_left, among]

/-- Behind the metapage of a relation come its other pages. -/
theorem placed_of_present
    {pages : List Page}
    {first blank : Page}
    (present : held relation = some ⟨first :: pages, blank⟩)
    (few : 1 + pages.length < blockNumberBound) :
    Placed held relation 1 pages := by
  intro index page among
  have inside := (List.getElem?_eq_some_iff.mp among).1
  have small : 1 + index < 4294967296 := by
    simp only [blockNumberBound] at few
    omega
  refine Contents.page_of_some present ?_
  rw [UInt32.toNat_ofNat_of_lt' small, Nat.add_comm, List.getElem?_cons_succ, among]

theorem answers_leaf
    {page : Page}
    {trailer : Trailer}
    {bound : Option Entry}
    {group : List Entry}
    {remaining : Nat}
    (built : BuiltOf page trailer (bound.toList ++ group))
    (bounded : trailer.isRightmost = bound.isNone)
    (leaf : trailer.isLeaf = true) :
    Answers σ held relation key ((group.find? (·.key = key)).map Entry.record) remaining page := by
  intro depth state sound holds
  have routed := route_leaf built bounded leaf key
  rw [Yields]
  cases found : group.find? (·.key = key) with
  | none =>
      rw [found] at routed
      rw [descendFrom_settled routed (by simp)]
      exact ⟨rfl, sound, holds⟩
  | some entry =>
      rw [found] at routed
      rw [descendFrom_settled routed (by simp)]
      exact ⟨rfl, sound, holds⟩

theorem answers_child
    {page child : Page}
    {block : BlockNumber}
    {remaining : Nat}
    (routed : route page key = .ok (.child block))
    (found : held.page relation block = .ok child)
    (below : Answers σ held relation key answer remaining child) :
    Answers σ held relation key answer (remaining + 1) page := by
  intro depth state sound holds
  refine yields_descendFrom_child routed ?_
  apply yields_bind_value (read_of_page sound holds found)
  rintro between ⟨stillSound, became⟩
  exact below (depth + 1) between stillSound became

/-- The child that an inner page names is the one that covers the key on its own level. -/
theorem covers_child
    {builder : Builder}
    {start index place : Nat}
    {groups : List (List Entry)}
    {parent : List Entry}
    {entry : Entry}
    (ascending : (groups.map lowestKey).Pairwise (· ≤ ·))
    (among :
      (groupsOf builder.innerCapacity
        (parentEntries (blocksFrom start groups.length) groups))[index]? = some parent)
    (outer :
      Covers
        ((groupsOf builder.innerCapacity
          (parentEntries (blocksFrom start groups.length) groups)).map lowestKey)
        key index)
    (chosen : parent[place]? = some entry)
    (inner : Covers (parent.map Entry.key) key place) :
    ∃ number group,
      groups[number]? = some group ∧ Covers (groups.map lowestKey) key number ∧
        entry.block = UInt32.ofNat (start + number) := by
  have keys := map_key_parentEntries start groups
  have sampled := getElem?_lowestKeys builder.inner_pos
    (parentEntries (blocksFrom start groups.length) groups)
  have part := getElem?_group builder.inner_pos among
  rw [keys] at sampled
  have covers : Covers (groups.map lowestKey) key (builder.innerCapacity * index + place) := by
    refine .within ascending sampled outer (fun number => ?_) inner
    rw [List.getElem?_map, part, ← keys, List.getElem?_map]
    split <;> rfl
  rw [part] at chosen
  split at chosen
  · rw [getElem?_parentEntries] at chosen
    obtain ⟨group, found, rfl⟩ := Option.map_eq_some_iff.mp chosen
    exact ⟨_, group, found, covers, rfl⟩
  · exact absurd chosen (by simp)

/-- If on some level the page that covers the key answers, then so does the root. -/
theorem Builder.Stacked.answers
    {builder : Builder}
    {level start : Nat}
    {groups : List (List Entry)}
    {pages : List Page}
    {metapage : Metapage}
    (stacked : Stacked builder level start groups pages metapage)
    (innerFits : builder.innerCapacity ≤ mostEntries)
    (fits : ∀ group ∈ groups, group.length ≤ mostEntries)
    (ascending : (groups.map lowestKey).Pairwise (· ≤ ·))
    (placed : Placed held relation start pages)
    (few : start + pages.length < blockNumberBound)
    (reachable : level + pages.length ≤ deepest + 1)
    (below :
      ∀ index group page remaining,
        groups[index]? = some group → (wholeLevel level start groups)[index]? = some page →
          Covers (groups.map lowestKey) key index → level ≤ remaining →
            Answers σ held relation key answer remaining page) :
    ∃ root, held.page relation metapage.root = .ok root ∧
      Answers σ held relation key answer deepest root := by
  induction stacked with
  | @top level start group =>
      rw [length_levelPages] at few reachable
      obtain ⟨page, -, -, onLevel, -⟩ :=
        page_of_group level start (show [group][0]? = some group from rfl)
          (fits group (List.mem_singleton_self group)) few
      refine ⟨page, placed 0 page onLevel, ?_⟩
      refine below 0 group page deepest rfl onLevel (.of_singleton _ key) ?_
      exact Nat.le_of_succ_le_succ reachable
  | @under level start groups pages metapage several above inductionHypothesis =>
      have length := length_levelPages level (levelFlags level groups.length) noSibling start groups
      rw [List.length_append, length] at few reachable
      have sorted :
          ((parentEntries (blocksFrom start groups.length) groups).map Entry.key).Pairwise
            (· ≤ ·) := by
        rw [map_key_parentEntries]
        exact ascending
      have behind := placed.right
      rw [length] at behind
      have aboveFits :
          ∀ group ∈ groupsOf builder.innerCapacity
            (parentEntries (blocksFrom start groups.length) groups),
            group.length ≤ mostEntries := fun group member =>
        Nat.le_trans (length_le_of_mem_groupsOf builder.inner_pos member) innerFits
      have aboveFew := above.length_groups_le
      refine inductionHypothesis aboveFits (ascending_lowestKeys builder.inner_pos sorted) behind
        (by omega) (by omega) ?_
      intro index parent page remaining among onLevel covers counted
      have member := List.mem_of_getElem? among
      obtain ⟨remaining, rfl⟩ : ∃ more, remaining = more + 1 := ⟨remaining - 1, by omega⟩
      obtain ⟨found, trailer, bound, here, built, bounded, leaf⟩ :=
        page_of_group (level + 1) (start + groups.length) among (aboveFits parent member)
          (by omega)
      obtain rfl := Option.some.inj (here.symm.trans onLevel)
      obtain ⟨place, entry, chosen, inner, routed⟩ :=
        route_inner built bounded leaf (ne_nil_of_mem_groupsOf builder.inner_pos member)
          (sorted.sublist ((sublist_of_mem_groupsOf builder.inner_pos member).map Entry.key)) key
      obtain ⟨number, group, onLower, coversLower, block⟩ :=
        covers_child ascending among covers chosen inner
      obtain ⟨child, -, -, onLevel, -⟩ :=
        page_of_group level start onLower (fits group (List.mem_of_getElem? onLower)) (by omega)
      refine answers_child routed ?_
        (below number group child remaining onLower onLevel coversLower (by omega))
      rw [block]
      exact placed.left number child onLevel

end Descent

/-! ## The exact answer -/

/-- The last place of a key. -/
structure LastWith (entries : List Entry) (key : Int64) (last : Nat) : Prop where
  here : ∃ entry, entries[last]? = some entry ∧ entry.key = key
  behind : ∀ later entry, last < later → entries[later]? = some entry → entry.key ≠ key

/-- The first place of a key from `start` on, and the entry there. -/
structure FirstFrom
    (entries : List Entry)
    (key : Int64)
    (start place : Nat)
    (entry : Entry) : Prop where
  reached : start ≤ place
  here : entries[place]? = some entry
  same : entry.key = key
  before :
    ∀ earlier other, start ≤ earlier → earlier < place → entries[earlier]? = some other →
      other.key ≠ key

/-- What looking a key up has to answer if every leaf but the last holds `capacity` of the
entries: the record of the first entry with the key on the leaf of the last one. -/
inductive Exact (capacity : Nat) (entries : List Entry) (key : Int64) : Option RecordId → Prop
  | missing (absent : ∀ entry ∈ entries, entry.key ≠ key) : Exact capacity entries key none
  | found
      {last place : Nat}
      {entry : Entry}
      (ends : LastWith entries key last)
      (begins : FirstFrom entries key (capacity * (last / capacity)) place entry) :
      Exact capacity entries key (some entry.record)

section Exactly

variable
  {entries : List Entry}
  {key : Int64}

theorem exists_lastWith
    (present : ∃ entry ∈ entries, entry.key = key) :
    ∃ last, LastWith entries key last := by
  induction entries with
  | nil =>
      obtain ⟨entry, member, -⟩ := present
      exact absurd member List.not_mem_nil
  | cons first rest inductionHypothesis =>
      by_cases further : ∃ entry ∈ rest, entry.key = key
      · obtain ⟨last, here, behind⟩ := inductionHypothesis further
        refine ⟨last + 1, here, fun later entry after among => ?_⟩
        obtain ⟨later, rfl⟩ : ∃ more, later = more + 1 := ⟨later - 1, by omega⟩
        exact behind later entry (Nat.lt_of_succ_lt_succ after) among
      · obtain ⟨entry, member, same⟩ := present
        have here : first.key = key := by
          rcases List.mem_cons.mp member with rfl | among
          · exact same
          · exact absurd ⟨entry, among, same⟩ further
        refine ⟨0, ⟨first, rfl, here⟩, fun later other after among equal => further ?_⟩
        obtain ⟨later, rfl⟩ : ∃ more, later = more + 1 := ⟨later - 1, by omega⟩
        exact ⟨other, List.mem_of_getElem? among, equal⟩

theorem FirstFrom.find?_drop
    {start place : Nat}
    {entry : Entry}
    (first : FirstFrom entries key start place entry)
    {count : Nat}
    (near : place < start + count) :
    ((entries.drop start).take count).find? (·.key = key) = some entry := by
  obtain ⟨more, rfl⟩ := Nat.exists_eq_add_of_le first.reached
  obtain ⟨inside, here⟩ := List.getElem?_eq_some_iff.mp first.here
  rw [List.find?_eq_some_iff_getElem]
  refine ⟨decide_eq_true first.same, more, ?_, ?_, fun earlier before => ?_⟩
  · rw [List.length_take, List.length_drop]
    omega
  · rw [List.getElem_take, List.getElem_drop, here]
  · rw [List.getElem_take, List.getElem_drop]
    have different :=
      first.before (start + earlier) _ (Nat.le_add_right ..) (by omega)
        (List.getElem?_eq_getElem (by omega))
    simpa using different

theorem FirstFrom.le_last
    {start place last : Nat}
    {entry : Entry}
    (begins : FirstFrom entries key start place entry)
    (within : start ≤ last)
    (ends : LastWith entries key last) :
    place ≤ last := by
  obtain ⟨other, here, same⟩ := ends.here
  rcases Nat.lt_or_ge last place with before | notBefore
  · exact absurd same (begins.before last other within before here)
  · exact notBefore

theorem exists_firstFrom
    {start last : Nat}
    (within : start ≤ last)
    {entry : Entry}
    (here : entries[last]? = some entry)
    (same : entry.key = key) :
    ∃ place first, FirstFrom entries key start place first := by
  obtain ⟨more, rfl⟩ := Nat.exists_eq_add_of_le within
  rw [← List.getElem?_drop] at here
  have some : ((entries.drop start).find? (·.key = key)).isSome := by
    rw [List.find?_isSome]
    exact ⟨entry, List.mem_of_getElem? here, decide_eq_true same⟩
  obtain ⟨first, found⟩ := Option.isSome_iff_exists.mp some
  obtain ⟨equal, place, inside, among, before⟩ := List.find?_eq_some_iff_getElem.mp found
  refine ⟨start + place, first, Nat.le_add_right .., ?_, of_decide_eq_true equal, ?_⟩
  · rw [← List.getElem?_drop, List.getElem?_eq_getElem inside, among]
  · intro earlier other after ahead earlierHere
    obtain ⟨more, rfl⟩ := Nat.exists_eq_add_of_le after
    rw [← List.getElem?_drop] at earlierHere
    obtain ⟨_, rfl⟩ := List.getElem?_eq_some_iff.mp earlierHere
    simpa using before more (by omega)

theorem LastWith.unique
    {last other : Nat}
    (first : LastWith entries key last)
    (second : LastWith entries key other) :
    last = other := by
  obtain ⟨one, here, same⟩ := first.here
  obtain ⟨another, there, alike⟩ := second.here
  rcases Nat.lt_trichotomy last other with before | equal | after
  · exact absurd alike (first.behind other another before there)
  · exact equal
  · exact absurd same (second.behind last one after here)

theorem FirstFrom.unique
    {start place other : Nat}
    {entry another : Entry}
    (first : FirstFrom entries key start place entry)
    (second : FirstFrom entries key start other another) :
    entry = another := by
  rcases Nat.lt_trichotomy place other with before | rfl | after
  · exact absurd first.same (second.before place entry first.reached before first.here)
  · exact Option.some.inj (first.here.symm.trans second.here)
  · exact absurd second.same (first.before other another second.reached after second.here)

/-- A key has one exact answer. -/
theorem Exact.unique
    {capacity : Nat}
    {answer other : Option RecordId}
    (first : Exact capacity entries key answer)
    (second : Exact capacity entries key other) :
    answer = other := by
  cases first with
  | missing absent =>
      cases second with
      | missing => rfl
      | found _ begins => exact absurd begins.same (absent _ (List.mem_of_getElem? begins.here))
  | found ends begins =>
      cases second with
      | missing absent => exact absurd begins.same (absent _ (List.mem_of_getElem? begins.here))
      | found otherEnds otherBegins =>
          obtain rfl := ends.unique otherEnds
          rw [begins.unique otherBegins]

theorem exists_exact (capacity : Nat) (entries : List Entry) (key : Int64) :
    ∃ answer, Exact capacity entries key answer := by
  by_cases present : ∃ entry ∈ entries, entry.key = key
  · obtain ⟨last, ends⟩ := exists_lastWith present
    obtain ⟨entry, here, same⟩ := ends.here
    obtain ⟨place, first, begins⟩ := exists_firstFrom (Nat.mul_div_le last capacity) here same
    exact ⟨_, .found ends begins⟩
  · exact ⟨none, .missing fun entry member same => present ⟨entry, member, same⟩⟩

/-- Among different keys every entry is the answer to its own key. -/
theorem exact_of_nodup
    (different : (entries.map Entry.key).Nodup)
    {entry : Entry}
    (member : entry ∈ entries)
    (capacity : Nat) :
    Exact capacity entries entry.key (some entry.record) := by
  obtain ⟨place, here⟩ := List.mem_iff_getElem?.mp member
  have alone :
      ∀ other number, entries[number]? = some other → other.key = entry.key → number = place := by
    intro other number among same
    have inside := (List.getElem?_eq_some_iff.mp among).1
    have mapped : (entries.map Entry.key)[number]? = (entries.map Entry.key)[place]? := by
      rw [List.getElem?_map, List.getElem?_map, among, here, Option.map_some, Option.map_some, same]
    exact (List.getElem?_inj (by rwa [List.length_map]) different).mp mapped
  have ends : LastWith entries entry.key place := by
    refine ⟨⟨entry, here, rfl⟩, fun later other after among same => ?_⟩
    exact absurd (alone other later among same) (Nat.ne_of_gt after)
  refine .found ends ⟨Nat.mul_div_le place capacity, here, rfl, ?_⟩
  intro earlier other _ before among same
  exact absurd (alone other earlier among same) (Nat.ne_of_lt before)

end Exactly

/-- The leaf of the last entry with a key covers it. -/
theorem covers_last
    {size : Nat}
    (positive : 0 < size)
    {entries : List Entry}
    {key : Int64}
    (ascending : (entries.map Entry.key).Pairwise (· ≤ ·))
    {last : Nat}
    (ends : LastWith entries key last) :
    Covers ((groupsOf size entries).map lowestKey) key (last / size) := by
  obtain ⟨entry, here, same⟩ := ends.here
  have sampled := getElem?_lowestKeys positive entries
  have lastKey : (entries.map Entry.key)[last]? = some key := by
    rw [List.getElem?_map, here, ← same]
    rfl
  have lastInside := (List.getElem?_eq_some_iff.mp lastKey).1
  have first : size * (last / size) ≤ last := Nat.mul_div_le last size
  have low := List.getElem?_eq_getElem (Nat.lt_of_le_of_lt first lastInside)
  rw [← sampled] at low
  refine ⟨(List.getElem?_eq_some_iff.mp low).1, fun _ other among => ?_,
    fun later other after among => ?_⟩
  · rw [sampled] at among
    exact le_of_ascending ascending first among lastKey
  · rw [sampled] at among
    have beyond : last < size * later := by
      rw [Nat.mul_comm]
      exact (Nat.div_lt_iff_lt_mul positive).mp after
    have least := le_of_ascending ascending (Nat.le_of_lt beyond) lastKey among
    rw [List.getElem?_map] at among
    obtain ⟨later, atLater, rfl⟩ := Option.map_eq_some_iff.mp among
    exact Int64.lt_of_le_of_ne least (ends.behind _ later beyond atLater).symm

/-- On the leaf that covers a key, the first entry with it is the exact answer. -/
theorem find?_leaf
    {builder : Builder}
    {entries : List Entry}
    {key : Int64}
    {answer : Option RecordId}
    (ascending : (entries.map Entry.key).Pairwise (· ≤ ·))
    (exact : Exact builder.leafCapacity entries key answer)
    {index : Nat}
    {group : List Entry}
    (among : (builder.leafGroups entries)[index]? = some group)
    (covers : Covers ((builder.leafGroups entries).map lowestKey) key index) :
    (group.find? (·.key = key)).map Entry.record = answer := by
  cases exact with
  | missing absent =>
      have nowhere : group.find? (·.key = key) = none := by
        refine List.find?_eq_none.mpr fun entry member => ?_
        simpa using absent entry (mem_of_mem_leafGroups (List.mem_of_getElem? among) member)
      rw [nowhere]
      rfl
  | @found last place entry ends begins =>
      have some : entries ≠ [] := List.ne_nil_of_mem (List.mem_of_getElem? begins.here)
      have positive := builder.leaf_pos
      rw [leafGroups, if_neg (by simpa using some)] at among covers
      obtain rfl := covers.unique (covers_last positive ascending ends)
      have near :
          place < builder.leafCapacity * (last / builder.leafCapacity) + builder.leafCapacity := by
        have notBehind := begins.le_last (Nat.mul_div_le last builder.leafCapacity) ends
        have split := Nat.div_add_mod last builder.leafCapacity
        have short := Nat.mod_lt last positive
        omega
      rw [(group_eq_of_getElem?_groupsOf positive among).2, begins.find?_drop near]
      rfl

/-! ## Built indexes -/

section Built

variable
  {σ : Type}
  [Storage σ]
  [LawfulStorage σ]
  {held : Contents}
  {relation : RelationId}
  {builder : Builder}
  {entries : List Entry}
  {pages : List Page}
  {metapage : Metapage}
  {key : Int64}
  {answer : Option RecordId}

/-- A relation that holds a metapage and the stack of levels over sorted entries gives the
exact answer. -/
theorem lookup_stacked
    (stacked : Stacked builder 0 1 (builder.leafGroups entries) pages metapage)
    (leafFits : builder.leafCapacity ≤ mostEntries)
    (innerFits : builder.innerCapacity ≤ mostEntries)
    (ascending : keysAscend entries = true)
    (few : 1 + pages.length < blockNumberBound)
    {state : σ}
    (sound : Sound state)
    (present : contents state relation = some ⟨metapage.page :: pages, Page.zero⟩)
    (exact : Exact builder.leafCapacity entries key answer) :
    (lookup relation key).Yields state fun outcome left =>
      outcome = .ok answer ∧ Sound left ∧ contents left = contents state := by
  rw [keysAscend_iff_pairwise] at ascending
  have placed : Placed (contents state) relation 1 pages := placed_of_present present few
  have groupsAscend : ((builder.leafGroups entries).map lowestKey).Pairwise (· ≤ ·) := by
    rw [leafGroups]
    split
    · exact List.pairwise_singleton ..
    · exact ascending_lowestKeys builder.leaf_pos ascending
  have leaves : ∀ group ∈ builder.leafGroups entries, group.length ≤ mostEntries :=
    fun group member => Nat.le_trans (length_le_of_mem_leafGroups member) leafFits
  have reachable : 0 + pages.length ≤ deepest + 1 := by
    simp only [deepest, blockNumberBound] at few ⊢
    omega
  have onLeaves := stacked.length_groups_le
  have below :
      ∀ index group page remaining,
        (builder.leafGroups entries)[index]? = some group →
          (wholeLevel 0 1 (builder.leafGroups entries))[index]? = some page →
            Covers ((builder.leafGroups entries).map lowestKey) key index → 0 ≤ remaining →
              Answers σ (contents state) relation key answer remaining page := by
    intro index group page remaining among onLevel covers _
    obtain ⟨found, trailer, bound, here, built, bounded, leaf⟩ :=
      page_of_group 0 1 among (leaves group (List.mem_of_getElem? among)) (by omega)
    obtain rfl := Option.some.inj (here.symm.trans onLevel)
    rw [← find?_leaf ascending exact among covers]
    exact answers_leaf built bounded leaf
  obtain ⟨root, rootFound, rootAnswers⟩ :=
    stacked.answers innerFits leaves groupsAscend placed few reachable below
  have first : (contents state).page relation metapageBlock = .ok metapage.page :=
    Contents.page_of_some present rfl
  apply yields_bind_value (read_of_page sound rfl first)
  rintro opened ⟨openedSound, openedHolds⟩
  apply yields_lift_bind_value metapage.read_page
  apply yields_bind_value (read_of_page openedSound openedHolds rootFound)
  rintro atRoot ⟨rootSound, rootHolds⟩
  exact rootAnswers 0 atRoot rootSound rootHolds

end Built

/-- Building an index from sorted entries and looking keys up in it is exact, for all
capacities that a builder accepts and all keys. The store has to have an identity for the
index, and block numbers for its pages. Then building succeeds; and whatever else happens
to the store, as long as it stays sound and the index is not written to, looking a key up
succeeds with the exact answer and changes nothing. If no key is there twice, every entry
is found by its key. -/
theorem lookup_build
    {leaf inner : Nat}
    {builder : Builder}
    (created : Builder.create leaf inner = .ok builder)
    {entries : List Entry}
    (ascending : keysAscend entries = true)
    (few :
      1 + (builder.levelCounts (builder.leafCount entries.length)).sum < blockNumberBound)
    {σ : Type}
    [Storage σ]
    [LawfulStorage σ]
    {state : σ}
    (sound : Sound state)
    (roomy : 0 < room state) :
    ∃ relation left,
      (builder.build entries).runOn state = (.ok relation, left) ∧ Sound left ∧
        ∀ later : σ, Sound later → contents later relation = contents left relation →
          (∀ key, ∃ answer, Exact leaf entries key answer ∧
            (lookup relation key).Yields later fun outcome behind =>
              outcome = .ok answer ∧ Sound behind ∧ contents behind = contents later) ∧
            ((entries.map Entry.key).Nodup →
              ∀ entry ∈ entries,
                ((lookup relation entry.key).runOn later).1 = .ok (some entry.record)) := by
  obtain ⟨rfl, rfl, leafFits, innerFits⟩ := create_eq_ok_iff.mp created
  have leaves := length_leafGroups builder entries
  have some : 0 < (builder.leafGroups entries).length := by
    rw [leaves]
    exact Nat.le_max_left ..
  obtain ⟨pages, metapage, stacked⟩ := exists_stacked builder 0 1 some
  have size := stacked.length_pages
  rw [leaves] at size
  rw [← size] at few
  obtain ⟨relation, built, -, leftSound, leftHolds⟩ :=
    build_yields stacked leafFits innerFits ascending sound roomy few
  refine ⟨relation, _, runOn_eq_of_outcome built, leftSound, fun later laterSound kept => ?_⟩
  have present : contents later relation = Option.some ⟨metapage.page :: pages, Page.zero⟩ := by
    rw [kept, leftHolds, Contents.put_same]
  have answers :
      ∀ {key answer}, Exact builder.leafCapacity entries key answer →
        (lookup relation key).Yields later fun outcome behind =>
          outcome = .ok answer ∧ Sound behind ∧ contents behind = contents later :=
    fun exact => lookup_stacked stacked leafFits innerFits ascending few laterSound present exact
  refine ⟨fun key => ?_, fun different entry member => ?_⟩
  · obtain ⟨answer, exact⟩ := exists_exact builder.leafCapacity entries key
    exact ⟨answer, exact, answers exact⟩
  · exact (answers (exact_of_nodup different member builder.leafCapacity)).1

/-- Three entries with the key 7, the first of them on the leaf before the others. -/
def straddlingEntries : List Entry := [⟨1, 10, 1⟩, ⟨7, 11, 1⟩, ⟨7, 12, 1⟩, ⟨7, 13, 1⟩, ⟨9, 14, 1⟩]

/-- On leaves of two entries, the second entry with the key is found. -/
theorem lookup_build_straddling :
    Builder.create 2 2 = .ok ⟨2, 2, by decide, by decide⟩ ∧
      ∃ relation left,
        ((⟨2, 2, by decide, by decide⟩ : Builder).build straddlingEntries).runOn
            MemoryStorage.empty = (.ok relation, left) ∧
          ((lookup relation 7).runOn left).1 = .ok (some ⟨12, 1⟩) ∧
            ((lookup relation 8).runOn left).1 = .ok none := by
  have created : Builder.create 2 2 = .ok ⟨2, 2, by decide, by decide⟩ := rfl
  have few :
      1 +
          ((⟨2, 2, by decide, by decide⟩ : Builder).levelCounts
            ((⟨2, 2, by decide, by decide⟩ : Builder).leafCount straddlingEntries.length)).sum <
        blockNumberBound := by
    simp [straddlingEntries, Builder.leafCount, Builder.levelCounts, Builder.parentCount,
      blockNumberBound]
  obtain ⟨relation, left, built, sound, exactly⟩ :=
    lookup_build created (show keysAscend straddlingEntries = true by decide) few
      (show Sound MemoryStorage.empty from rfl) (by decide)
  have answers := (exactly left sound rfl).1
  have onLastLeaf : Exact 2 straddlingEntries 7 (some ⟨12, 1⟩) := by
    have ends : LastWith straddlingEntries 7 3 := by
      refine ⟨⟨⟨7, 13, 1⟩, rfl, rfl⟩, fun later entry after among => ?_⟩
      have inside : later < 5 := (List.getElem?_eq_some_iff.mp among).1
      obtain rfl : later = 4 := by omega
      obtain rfl := Option.some.inj among
      decide
    have begins : FirstFrom straddlingEntries 7 (2 * (3 / 2)) 2 ⟨7, 12, 1⟩ :=
      ⟨Nat.le_refl 2, rfl, rfl, fun earlier other reached before => absurd before (by omega)⟩
    exact .found ends begins
  have missing : Exact 2 straddlingEntries 8 none := .missing (by decide)
  obtain ⟨found, exactFound, looksFound⟩ := answers 7
  obtain ⟨nothing, exactNothing, looksNothing⟩ := answers 8
  obtain rfl := exactFound.unique onLastLeaf
  obtain rfl := exactNothing.unique missing
  exact ⟨created, relation, left, built, looksFound.1, looksNothing.1⟩

end ObliviousStorage.Index
