import SourceBaseline.Proofs.Baseline.Document

/-!
# What a settled value keeps

An object is settled by letting the last of several members with one name win. So its members can be
looked up one name at a time, and what is put among them under other names changes nothing.
-/

set_option autoImplicit false

namespace SourceBaseline

/-- A list into which further elements were put, at any places, while its own elements became others. -/
inductive Strewn {α : Type} (extra : α → Prop) (became : α → α → Prop) : List α → List α → Prop
  | nil : Strewn extra became [] []
  | added {element clean damaged} :
      extra element → Strewn extra became clean damaged →
      Strewn extra became clean (element :: damaged)
  | kept {element changed clean damaged} :
      became element changed → Strewn extra became clean damaged →
      Strewn extra became (element :: clean) (changed :: damaged)

namespace Strewn

variable {α β : Type} {extra : α → Prop} {became : α → α → Prop} {clean damaged : List α}

/-- What skips the further elements and reads the others as before finds the same. -/
theorem filterMap_eq {read : α → Option β} (strewn : Strewn extra became clean damaged)
    (skips : ∀ element, extra element → read element = none)
    (reads : ∀ element changed, became element changed → read changed = read element) :
    damaged.filterMap read = clean.filterMap read := by
  induction strewn with
  | nil => rfl
  | added further _ ih => rw [List.filterMap_cons, skips _ further, ih]
  | kept same _ ih => rw [List.filterMap_cons, List.filterMap_cons, reads _ _ same, ih]

theorem cases_of_mem (strewn : Strewn extra became clean damaged) {element : α}
    (member : element ∈ damaged) :
    extra element ∨ ∃ before ∈ clean, became before element := by
  induction strewn with
  | nil => cases member
  | added further _ ih =>
      rcases List.mem_cons.1 member with rfl | later
      · exact .inl further
      · exact ih later
  | kept same _ ih =>
      rcases List.mem_cons.1 member with rfl | later
      · exact .inr ⟨_, .head _, same⟩
      · obtain further | ⟨before, inside, same⟩ := ih later
        · exact .inl further
        · exact .inr ⟨before, .tail _ inside, same⟩

end Strewn

namespace Json

/-! ## Settled objects -/

/-- The members of an object after the last of several with one name has won. -/
def settled (members : List (Option String × Json)) : SortedMap String Json :=
  .ofList (settleMembers members)

section Settled

variable {members : List (Option String × Json)} {name : String}

theorem settle_object : (object members).settle = ofMembers (settled members).entries := by
  rw [settle]
  rfl

theorem settleItems_eq_map (items : List Json) : settleItems items = items.map settle := by
  induction items with
  | nil => rfl
  | cons item rest ih => rw [settleItems, ih, List.map_cons]

theorem settleMembers_eq_filterMap (members : List (Option String × Json)) :
    settleMembers members = members.filterMap fun member => member.1.map (·, member.2.settle) := by
  induction members with
  | nil => rfl
  | cons member rest ih =>
      obtain ⟨name, value⟩ := member
      cases name with
      | none => rw [settleMembers, ih]; rfl
      | some name => rw [settleMembers, ih]; rfl

theorem lookup_entries (map : SortedMap String Json) (name : String) :
    map.entries.lookup name = map.find? name := by
  rw [SortedMap.find?]
  induction map.entries with
  | nil => rfl
  | cons entry rest ih =>
      rw [List.lookup_cons, List.find?_cons, ih]
      by_cases same : entry.1 = name
      · simp [same]
      · have different : (name == entry.1) = false := beq_eq_false_iff_ne.2 (Ne.symm same)
        simp [same, different]

theorem member?_settle : (object members).settle.member? name = (settled members).find? name := by
  rw [settle_object, member?_ofMembers (settled members).sorted, lookup_entries]

theorem fields?_settle (names : List String) (least : Nat) :
    (object members).settle.fields? names least = some (names.map (settled members).find?) := by
  rw [settle_object, fields?_ofMembers (settled members).sorted]
  simp only [lookup_entries]

theorem members?_settle : (object members).settle.members? = some (settled members).entries := by
  rw [settle_object, members?_ofMembers]

theorem items?_settle (json : Json) : json.settle.items? = json.items?.map (·.map settle) := by
  cases json with
  | array items =>
      rw [settle, settleItems_eq_map]
      rfl
  | object members => rw [settle_object]; rfl
  | null => rfl
  | boolean value => rfl
  | number value => rfl
  | string text => rfl

theorem find?_settled (members : List (Option String × Json)) (name : String) :
    (settled members).find? name = (members.filterMap fun member =>
      if member.1 = some name then some member.2.settle else none).getLast? := by
  have first : ∀ entries : List (String × Json),
      (entries.find? fun entry => entry.1 = name).map Prod.snd =
        (entries.filterMap fun entry => if entry.1 = name then some entry.2 else none).head? := by
    intro entries
    induction entries with
    | nil => rfl
    | cons entry rest ih => by_cases same : entry.1 = name <;> simp [same, ih]
  rw [settled, SortedMap.find?_ofList, first, List.filterMap_reverse, List.head?_reverse,
    settleMembers_eq_filterMap, List.filterMap_filterMap]
  congr 2
  funext member
  cases member.1 <;> simp

theorem exists_of_find?_settled {value : Json} (found : (settled members).find? name = some value) :
    ∃ member ∈ members, member.1 = some name ∧ value = member.2.settle := by
  rw [find?_settled] at found
  obtain ⟨member, inside, read⟩ := List.mem_filterMap.1 (List.mem_of_getLast? found)
  split at read
  next here => exact ⟨member, inside, here, (Option.some.inj read).symm⟩
  next => cases read

end Settled

section Strewn

variable {extra : Option String × Json → Prop}
  {became : Option String × Json → Option String × Json → Prop}
  {clean damaged : List (Option String × Json)} {name : String}

/-- Further members with other names do not change what is read of the members of a name. -/
theorem map_find?_settled {α : Type} (read : Json → α) (name : String)
    (strewn : Strewn extra became clean damaged)
    (apart : ∀ member, extra member → member.1 ≠ some name)
    (named : ∀ member changed, became member changed → changed.1 = member.1)
    (reads : ∀ member changed, became member changed → member.1 = some name →
      read changed.2.settle = read member.2.settle) :
    ((settled damaged).find? name).map read = ((settled clean).find? name).map read := by
  rw [find?_settled, find?_settled, ← List.getLast?_map, ← List.getLast?_map, List.map_filterMap,
    List.map_filterMap]
  congr 1
  apply strewn.filterMap_eq
  · intro member further
    simp [apart member further]
  · intro member changed same
    rw [named member changed same]
    by_cases here : member.1 = some name
    · simp [here, reads member changed same here]
    · simp [here]

theorem find?_settled_eq (strewn : Strewn extra became clean damaged)
    (apart : ∀ member, extra member → member.1 ≠ some name)
    (named : ∀ member changed, became member changed → changed.1 = member.1)
    (same : ∀ member changed, became member changed → member.1 = some name →
      changed.2 = member.2) :
    (settled damaged).find? name = (settled clean).find? name := by
  have found := map_find?_settled id name strewn apart named
    fun member changed became here => by rw [same member changed became here]
  rwa [Option.map_id, id, id] at found

end Strewn

end Json

end SourceBaseline
