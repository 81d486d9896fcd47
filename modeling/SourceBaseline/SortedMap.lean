/-!
# Maps with keys in increasing order

A map is the list of its entries in strictly increasing key order, so two maps with the same
look-ups are equal and every listing of a map comes out in key order. `find?_insert`,
`find?_erase` and `find?_filter` say what each operation does to a look-up.
-/

set_option autoImplicit false
set_option linter.unusedSectionVars false

namespace SourceBaseline

universe u v

variable {κ : Type u} {α : Type v}

/-- Keys of which any two can be compared in exactly one way. -/
class KeyOrder (κ : Type u) [LT κ] : Prop where
  irrefl : ∀ key : κ, ¬ key < key
  trans : ∀ {first second third : κ}, first < second → second < third → first < third
  connex : ∀ left right : κ, left < right ∨ left = right ∨ right < left

instance : KeyOrder String where
  irrefl := String.lt_irrefl
  trans := String.lt_trans
  connex left right := by
    by_cases below : left < right
    · exact .inl below
    · by_cases above : right < left
      · exact .inr (.inr above)
      · exact .inr (.inl (String.le_antisymm (String.not_lt.1 above) (String.not_lt.1 below)))

theorem connex_list [LT κ] [KeyOrder κ] (left right : List κ) :
    left < right ∨ left = right ∨ right < left := by
  have : Std.Trichotomous fun left right : κ => left < right :=
    ⟨fun left right below above =>
      ((KeyOrder.connex left right).resolve_left below).resolve_right above⟩
  by_cases below : left < right
  · exact .inl below
  · by_cases above : right < left
    · exact .inr (.inr above)
    · exact .inr (.inl (List.le_antisymm (List.not_lt.1 above) (List.not_lt.1 below)))

instance [LT κ] [KeyOrder κ] : KeyOrder (List κ) where
  irrefl :=
    have : Std.Irrefl fun left right : κ => left < right := ⟨KeyOrder.irrefl⟩
    List.lt_irrefl
  trans :=
    have : Trans (fun left right : κ => left < right) (fun left right : κ => left < right)
      (fun left right : κ => left < right) := ⟨KeyOrder.trans⟩
    List.lt_trans
  connex := connex_list

/-- A finite map whose entries are kept in strictly increasing key order. -/
structure SortedMap (κ : Type u) [LT κ] (α : Type v) where
  entries : List (κ × α)
  sorted : entries.Pairwise (fun left right => left.1 < right.1)

namespace SortedMap

/-- Put an entry at its place in a sorted list, replacing an entry with the same key. -/
def insertEntry [LT κ] [DecidableLT κ] [DecidableEq κ] (key : κ) (value : α) :
    List (κ × α) → List (κ × α)
  | [] => [(key, value)]
  | (other, old) :: rest =>
      if key = other then (key, value) :: rest
      else if key < other then (key, value) :: (other, old) :: rest
      else (other, old) :: insertEntry key value rest

theorem mem_insertEntry [LT κ] [DecidableLT κ] [DecidableEq κ] {key : κ} {value : α}
    {entries : List (κ × α)} {entry : κ × α} (member : entry ∈ insertEntry key value entries) :
    entry = (key, value) ∨ entry ∈ entries := by
  induction entries with
  | nil => simpa [insertEntry] using member
  | cons head rest ih =>
      obtain ⟨other, old⟩ := head
      simp only [insertEntry] at member
      split at member
      · rcases List.mem_cons.1 member with same | inRest
        · exact .inl same
        · exact .inr (List.mem_cons_of_mem _ inRest)
      · split at member
        · rcases List.mem_cons.1 member with same | inRest
          · exact .inl same
          · exact .inr inRest
        · rcases List.mem_cons.1 member with same | inRest
          · exact .inr (same ▸ List.mem_cons_self ..)
          · exact (ih inRest).imp_right (List.mem_cons_of_mem _)

variable [LT κ] [DecidableLT κ] [DecidableEq κ] [KeyOrder κ]

theorem sorted_insertEntry {key : κ} {value : α} {entries : List (κ × α)}
    (sorted : entries.Pairwise (fun left right => left.1 < right.1)) :
    (insertEntry key value entries).Pairwise (fun left right => left.1 < right.1) := by
  induction entries with
  | nil => simp [insertEntry]
  | cons head rest ih =>
      obtain ⟨other, old⟩ := head
      obtain ⟨below, restSorted⟩ := List.pairwise_cons.1 sorted
      simp only [insertEntry]
      split
      next same =>
        subst same
        exact List.pairwise_cons.2 ⟨below, restSorted⟩
      next different =>
        split
        next less =>
          refine List.pairwise_cons.2 ⟨fun entry member => ?_, sorted⟩
          rcases List.mem_cons.1 member with same | inRest
          · exact same ▸ less
          · exact KeyOrder.trans less (below entry inRest)
        next notLess =>
          refine List.pairwise_cons.2 ⟨fun entry member => ?_, ih restSorted⟩
          rcases mem_insertEntry member with same | inRest
          · rw [same]
            rcases KeyOrder.connex key other with less | same | less
            · exact absurd less notLess
            · exact absurd same different
            · exact less
          · exact below entry inRest

def empty : SortedMap κ α := ⟨[], .nil⟩

instance : EmptyCollection (SortedMap κ α) := ⟨empty⟩

instance : Inhabited (SortedMap κ α) := ⟨empty⟩

def insert (map : SortedMap κ α) (key : κ) (value : α) : SortedMap κ α :=
  ⟨insertEntry key value map.entries, sorted_insertEntry map.sorted⟩

def filter (map : SortedMap κ α) (keep : κ → α → Bool) : SortedMap κ α :=
  ⟨map.entries.filter fun entry => keep entry.1 entry.2, map.sorted.filter _⟩

def erase (map : SortedMap κ α) (key : κ) : SortedMap κ α :=
  map.filter fun other _ => other ≠ key

def find? (map : SortedMap κ α) (key : κ) : Option α :=
  (map.entries.find? fun entry => entry.1 = key).map Prod.snd

def contains (map : SortedMap κ α) (key : κ) : Bool :=
  (map.find? key).isSome

def keys (map : SortedMap κ α) : List κ :=
  map.entries.map Prod.fst

def values (map : SortedMap κ α) : List α :=
  map.entries.map Prod.snd

def size (map : SortedMap κ α) : Nat :=
  map.entries.length

/-- Insert the entries from left to right, so that the last of several entries with one key
stays. -/
def ofList (entries : List (κ × α)) : SortedMap κ α :=
  entries.foldl (fun map entry => map.insert entry.1 entry.2) empty

instance [DecidableEq α] : DecidableEq (SortedMap κ α) := fun left right =>
  decidable_of_iff (left.entries = right.entries)
    ⟨fun same => by cases left; cases right; cases same; rfl, fun same => same ▸ rfl⟩

theorem ext {left right : SortedMap κ α} (same : left.entries = right.entries) : left = right := by
  cases left; cases right; cases same; rfl

theorem find?_insertEntry (entries : List (κ × α)) (key other : κ) (value : α) :
    ((insertEntry key value entries).find? fun entry => entry.1 = other).map Prod.snd =
      if key = other then some value
      else (entries.find? fun entry => entry.1 = other).map Prod.snd := by
  induction entries with
  | nil => by_cases same : key = other <;> simp [insertEntry, same]
  | cons head rest ih =>
      obtain ⟨name, old⟩ := head
      simp only [insertEntry]
      split
      next same =>
        subst same
        by_cases found : key = other <;> simp [found]
      next different =>
        split
        next => by_cases found : key = other <;> simp [List.find?_cons, found]
        next =>
          by_cases found : name = other
          · subst found
            simp [different]
          · simp only [List.find?_cons, found, decide_false]
            exact ih

theorem find?_insert (map : SortedMap κ α) (key other : κ) (value : α) :
    (map.insert key value).find? other = if key = other then some value else map.find? other :=
  find?_insertEntry map.entries key other value

private theorem find?_of_mem {entries : List (κ × α)} {key : κ} {value : α}
    (sorted : entries.Pairwise (fun left right => left.1 < right.1))
    (irreflexive : ∀ name : κ, ¬ name < name) (member : (key, value) ∈ entries) :
    (entries.find? fun entry => entry.1 = key) = some (key, value) := by
  induction entries with
  | nil => cases member
  | cons head rest ih =>
      obtain ⟨below, restSorted⟩ := List.pairwise_cons.1 sorted
      rcases List.mem_cons.1 member with same | inRest
      · subst same; simp
      · have less := below _ inRest
        have different : head.1 ≠ key := fun same => irreflexive key (same ▸ less)
        simpa [List.find?_cons, different] using ih restSorted inRest

theorem find?_eq_some_iff {map : SortedMap κ α} {key : κ} {value : α} :
    map.find? key = some value ↔ (key, value) ∈ map.entries := by
  constructor
  · intro found
    obtain ⟨entry, located, same⟩ := Option.map_eq_some_iff.1 found
    have here := List.mem_of_find?_eq_some located
    have name : entry.1 = key := by simpa using List.find?_some located
    obtain ⟨other, old⟩ := entry
    cases name; cases same
    exact here
  · intro member
    rw [find?, find?_of_mem map.sorted KeyOrder.irrefl member]
    rfl

private theorem eq_of_mem_iff {left right : List (κ × α)}
    (sorted : left.Pairwise fun first second => first.1 < second.1)
    (sortedToo : right.Pairwise fun first second => first.1 < second.1)
    (same : ∀ entry, entry ∈ left ↔ entry ∈ right) : left = right := by
  induction left generalizing right with
  | nil => exact (List.eq_nil_iff_forall_not_mem.2 fun entry member => nomatch (same entry).2 member).symm
  | cons head rest ih =>
      cases right with
      | nil => exact nomatch (same head).1 (.head _)
      | cons other others =>
          obtain ⟨below, restSorted⟩ := List.pairwise_cons.1 sorted
          obtain ⟨belowToo, othersSorted⟩ := List.pairwise_cons.1 sortedToo
          have heads : head = other := by
            rcases List.mem_cons.1 ((same head).1 (.head _)) with heads | later
            · exact heads
            · rcases List.mem_cons.1 ((same other).2 (.head _)) with heads | laterToo
              · exact heads.symm
              · exact absurd (KeyOrder.trans (below other laterToo) (belowToo head later))
                  (KeyOrder.irrefl _)
          subst heads
          refine congrArg _ (ih restSorted othersSorted fun entry => ⟨fun member => ?_, fun member => ?_⟩)
          · refine (List.mem_cons.1 ((same entry).1 (.tail _ member))).resolve_left ?_
            rintro rfl
            exact KeyOrder.irrefl _ (below entry member)
          · refine (List.mem_cons.1 ((same entry).2 (.tail _ member))).resolve_left ?_
            rintro rfl
            exact KeyOrder.irrefl _ (belowToo entry member)

theorem ext_find? {left right : SortedMap κ α} (same : ∀ key, left.find? key = right.find? key) :
    left = right := by
  apply ext
  apply eq_of_mem_iff left.sorted right.sorted
  intro entry
  obtain ⟨key, value⟩ := entry
  rw [← find?_eq_some_iff, ← find?_eq_some_iff, same]
theorem find?_filter (map : SortedMap κ α) (keep : κ → α → Bool) (key : κ) :
    (map.filter keep).find? key = (map.find? key).filter (keep key) := by
  apply Option.ext
  intro value
  rw [find?_eq_some_iff, Option.filter_eq_some_iff, find?_eq_some_iff]
  simp [filter]

theorem find?_erase (map : SortedMap κ α) (key other : κ) :
    (map.erase key).find? other = if other = key then none else map.find? other := by
  rw [erase, find?_filter]
  split
  next same => cases map.find? other <;> simp [same]
  next different => cases map.find? other <;> simp [different]

theorem insertEntry_of_forall_lt {key : κ} {value : α} {entries : List (κ × α)}
    (above : ∀ entry ∈ entries, entry.1 < key) :
    insertEntry key value entries = entries ++ [(key, value)] := by
  induction entries with
  | nil => rfl
  | cons head rest ih =>
      have less : head.1 < key := above head (.head _)
      have different : key ≠ head.1 := fun same => KeyOrder.irrefl _ (same ▸ less)
      have notLess : ¬ key < head.1 := fun greater => KeyOrder.irrefl _ (KeyOrder.trans less greater)
      rw [insertEntry, if_neg different, if_neg notLess,
        ih fun entry member => above entry (.tail _ member)]
      rfl

/-- Entries that stand in strict key order are the entries of their map. -/
theorem entries_ofList {entries : List (κ × α)}
    (sorted : entries.Pairwise fun left right => left.1 < right.1) :
    (ofList entries).entries = entries := by
  have inserted : ∀ (map : SortedMap κ α),
      (∀ old ∈ map.entries, ∀ entry ∈ entries, old.1 < entry.1) →
      (entries.foldl (fun map entry => map.insert entry.1 entry.2) map).entries =
        map.entries ++ entries := by
    induction entries with
    | nil => simp
    | cons head rest ih =>
        obtain ⟨first, restSorted⟩ := List.pairwise_cons.1 sorted
        intro map below
        have last : (map.insert head.1 head.2).entries = map.entries ++ [head] :=
          insertEntry_of_forall_lt fun old member => below old member head (.head _)
        rw [List.foldl_cons, ih restSorted, last, List.append_assoc]
        · rfl
        · intro old member entry inside
          rw [last] at member
          rcases List.mem_append.1 member with before | added
          · exact below old before entry (.tail _ inside)
          · rw [List.mem_singleton.1 added]
            exact first entry inside
  exact inserted empty nofun

theorem ofList_entries (map : SortedMap κ α) : ofList map.entries = map :=
  ext (entries_ofList map.sorted)

theorem mem_keys_iff {map : SortedMap κ α} {key : κ} :
    key ∈ map.keys ↔ ∃ value, map.find? key = some value := by
  simp only [find?_eq_some_iff, keys, List.mem_map]
  constructor
  · rintro ⟨⟨name, value⟩, member, rfl⟩; exact ⟨value, member⟩
  · rintro ⟨value, member⟩; exact ⟨_, member, rfl⟩

theorem length_insertEntry_le (key : κ) (value : α) (entries : List (κ × α)) :
    (insertEntry key value entries).length ≤ entries.length + 1 := by
  induction entries with
  | nil => simp [insertEntry]
  | cons head rest ih =>
      rw [insertEntry]
      split
      · simp
      · split
        · simp
        · simpa using ih

theorem size_ofList_le (entries : List (κ × α)) : (ofList entries).size ≤ entries.length := by
  have inserted : ∀ (map : SortedMap κ α),
      (entries.foldl (fun map entry => map.insert entry.1 entry.2) map).size ≤
        map.size + entries.length := by
    induction entries with
    | nil => exact fun map => Nat.le_refl _
    | cons head rest ih =>
        intro map
        have added : (map.insert head.1 head.2).size ≤ map.size + 1 := length_insertEntry_le _ _ _
        have later := ih (map.insert head.1 head.2)
        simp only [List.foldl_cons, List.length_cons]
        omega
  exact Nat.le_trans (inserted empty) (by simp [size, empty])

theorem filter_eq_self {map : SortedMap κ α} {keep : κ → α → Bool}
    (kept : ∀ entry ∈ map.entries, keep entry.1 entry.2 = true) : map.filter keep = map :=
  ext (List.filter_eq_self.2 kept)

theorem mem_of_mem_ofList {entries : List (κ × α)} {entry : κ × α}
    (member : entry ∈ (ofList entries).entries) : entry ∈ entries := by
  have inserted : ∀ (map : SortedMap κ α),
      entry ∈ (entries.foldl (fun map entry => map.insert entry.1 entry.2) map).entries →
      entry ∈ map.entries ∨ entry ∈ entries := by
    clear member
    induction entries with
    | nil => exact fun map member => .inl member
    | cons head rest ih =>
        intro map member
        rcases ih _ member with before | later
        · rcases mem_insertEntry before with rfl | old
          · exact .inr (.head _)
          · exact .inl old
        · exact .inr (.tail _ later)
  exact (inserted empty member).resolve_left nofun

/-- A look-up finds the last of several entries with one key. -/
theorem find?_ofList (entries : List (κ × α)) (key : κ) :
    (ofList entries).find? key =
      (entries.reverse.find? fun entry => entry.1 = key).map Prod.snd := by
  have inserted : ∀ (map : SortedMap κ α),
      (entries.foldl (fun map entry => map.insert entry.1 entry.2) map).find? key =
        ((entries.reverse.find? fun entry => entry.1 = key).map Prod.snd).or (map.find? key) := by
    induction entries with
    | nil => exact fun map => rfl
    | cons head rest ih =>
        intro map
        rw [List.foldl_cons, ih, find?_insert, List.reverse_cons, List.find?_append]
        by_cases same : head.1 = key
        · cases rest.reverse.find? fun entry => entry.1 = key <;> simp [same]
        · simp [same]
  exact (inserted empty).trans (Option.or_none)

theorem find?_ofList_eq_none_iff {entries : List (κ × α)} {key : κ} :
    (ofList entries).find? key = none ↔ ∀ entry ∈ entries, entry.1 ≠ key := by
  simp [find?_ofList]

/-- Where no two entries have one key, a look-up finds every entry. -/
theorem find?_ofList_of_mem {entries : List (κ × α)} {key : κ} {value : α}
    (distinct : entries.Pairwise fun left right => left.1 ≠ right.1)
    (member : (key, value) ∈ entries) : (ofList entries).find? key = some value := by
  obtain ⟨before, after, rfl⟩ := List.append_of_mem member
  obtain ⟨_, later, _⟩ := List.pairwise_append.1 distinct
  have apart : ∀ other ∈ after.reverse, ¬ decide (other.1 = key) = true := by
    intro other inside same
    exact (List.pairwise_cons.1 later).1 other (List.mem_reverse.1 inside)
      (of_decide_eq_true same).symm
  rw [find?_ofList, List.reverse_append, List.reverse_cons, List.find?_append, List.find?_append,
    List.find?_eq_none.2 apart]
  simp

end SortedMap

end SourceBaseline
