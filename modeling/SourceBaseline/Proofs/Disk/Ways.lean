import SourceBaseline.Proofs.Disk.Change

/-!
# Ways that are kept

A walk that ends at a directory passes directories and links that lead to directories. As long as a
change keeps all of these, the walk comes to the same directory and may be continued from there,
with as many links left to follow.
-/

set_option autoImplicit false

namespace SourceBaseline.Disk

variable {disk before after : Disk}

/-! ## Where names lead -/

theorem find?_dropLast {location : Location} (stands : disk.find? location = some .directory) :
    disk.find? location.dropLast = some .directory := by
  rcases List.eq_nil_or_concat location with rfl | ⟨directory, name, split⟩
  · exact stands
  · rw [List.concat_eq_append] at split
    subst split
    rw [List.dropLast_concat]
    apply Classical.byContradiction
    intro leaf
    rw [find?_below_leaf leaf (by simp)] at stands
    cases stands

theorem Leads.of_stay {here place : Location} {rest : List String}
    (leads : disk.Leads true here ("." :: rest) place) : disk.Leads true here rest place := by
  generalize spelled : "." :: rest = names at leads
  cases leads with
  | nil => cases spelled
  | stay further =>
      cases spelled
      exact further
  | up => exact absurd (List.cons.inj spelled).1 (by decide)
  | enter notHere => exact absurd (List.cons.inj spelled).1.symm notHere
  | file notHere => exact absurd (List.cons.inj spelled).1.symm notHere
  | last _ _ _ unfollowed => cases unfollowed
  | follow notHere => exact absurd (List.cons.inj spelled).1.symm notHere

theorem Leads.of_up {here place : Location} {rest : List String}
    (leads : disk.Leads true here (".." :: rest) place) : disk.Leads true here.dropLast rest place := by
  generalize spelled : ".." :: rest = names at leads
  cases leads with
  | nil => cases spelled
  | stay => exact absurd (List.cons.inj spelled).1 (by decide)
  | up further =>
      cases spelled
      exact further
  | enter _ notUp => exact absurd (List.cons.inj spelled).1.symm notUp
  | file _ notUp => exact absurd (List.cons.inj spelled).1.symm notUp
  | last _ _ _ unfollowed => cases unfollowed
  | follow _ notUp => exact absurd (List.cons.inj spelled).1.symm notUp

theorem Leads.unique {here place other : Location} {names : List String}
    (leads : disk.Leads true here names place) (leadsToo : disk.Leads true here names other) :
    place = other := by
  induction leads with
  | nil =>
      cases leadsToo
      rfl
  | stay _ ih => exact ih leadsToo.of_stay
  | up _ ih => exact ih leadsToo.of_up
  | enter notHere notUp stands _ ih =>
      cases leadsToo with
      | stay => exact absurd rfl notHere
      | up => exact absurd rfl notUp
      | enter _ _ _ leadsToo => exact ih leadsToo
      | file _ _ file => exact nomatch stands.symm.trans file
      | last _ _ _ unfollowed => cases unfollowed
      | follow _ _ link => exact nomatch stands.symm.trans link
  | file notHere notUp stands =>
      cases leadsToo with
      | stay => exact absurd rfl notHere
      | up => exact absurd rfl notUp
      | enter _ _ directory => exact nomatch stands.symm.trans directory
      | file => rfl
      | last => rfl
      | follow _ _ link => exact nomatch stands.symm.trans link
  | last _ _ _ unfollowed => cases unfollowed
  | follow notHere notUp stands _ ih =>
      cases leadsToo with
      | stay => exact absurd rfl notHere
      | up => exact absurd rfl notUp
      | enter _ _ directory => exact nomatch stands.symm.trans directory
      | file _ _ file => exact nomatch stands.symm.trans file
      | last _ _ _ unfollowed => cases unfollowed
      | follow _ _ link leadsToo =>
          cases stands.symm.trans link
          exact ih leadsToo

theorem Leads.append {here middle place : Location} {first second : List String}
    (leads : disk.Leads true here first middle) (stands : disk.find? middle = some .directory)
    (further : disk.Leads true middle second place) :
    disk.Leads true here (first ++ second) place := by
  induction leads with
  | nil => exact further
  | stay _ ih => exact .stay (ih stands further)
  | up _ ih => exact .up (ih stands further)
  | enter notHere notUp entry _ ih => exact .enter notHere notUp entry (ih stands further)
  | file _ _ file => exact nomatch stands.symm.trans file
  | last _ _ _ unfollowed => cases unfollowed
  | follow notHere notUp link _ ih =>
      have beyond := ih stands further
      rw [List.append_assoc] at beyond
      exact .follow notHere notUp link beyond

/-- What leads to a directory leads to one after each of the names on the way. -/
theorem Leads.split {here place : Location} {names first second : List String}
    (leads : disk.Leads true here names place) (same : names = first ++ second)
    (start : disk.find? here = some .directory) (stands : disk.find? place = some .directory) :
    ∃ middle, disk.Leads true here first middle ∧ disk.find? middle = some .directory ∧
      disk.Leads true middle second place := by
  induction leads generalizing first with
  | nil =>
      obtain ⟨rfl, rfl⟩ := List.append_eq_nil_iff.1 same.symm
      exact ⟨_, .nil, start, .nil⟩
  | stay leads ih =>
      rcases List.append_eq_cons_iff.1 same.symm with ⟨rfl, rfl⟩ | ⟨more, rfl, rfl⟩
      · exact ⟨_, .nil, start, .stay leads⟩
      · obtain ⟨middle, ahead, directory, further⟩ := ih rfl start stands
        exact ⟨middle, .stay ahead, directory, further⟩
  | up leads ih =>
      rcases List.append_eq_cons_iff.1 same.symm with ⟨rfl, rfl⟩ | ⟨more, rfl, rfl⟩
      · exact ⟨_, .nil, start, .up leads⟩
      · obtain ⟨middle, ahead, directory, further⟩ := ih rfl (find?_dropLast start) stands
        exact ⟨middle, .up ahead, directory, further⟩
  | enter notHere notUp entry leads ih =>
      rcases List.append_eq_cons_iff.1 same.symm with ⟨rfl, rfl⟩ | ⟨more, rfl, rfl⟩
      · exact ⟨_, .nil, start, .enter notHere notUp entry leads⟩
      · obtain ⟨middle, ahead, directory, further⟩ := ih rfl entry stands
        exact ⟨middle, .enter notHere notUp entry ahead, directory, further⟩
  | file _ _ file => exact nomatch stands.symm.trans file
  | last _ _ _ unfollowed => cases unfollowed
  | @follow here _ _ target _ notHere notUp link leads ih =>
      rcases List.append_eq_cons_iff.1 same.symm with ⟨rfl, rfl⟩ | ⟨more, rfl, rfl⟩
      · exact ⟨here, .nil, start, .follow notHere notUp link leads⟩
      · have beginning : disk.find? (if target.isAbsolute then [] else here) = some .directory := by
          split
          · rfl
          · exact start
        obtain ⟨middle, ahead, directory, further⟩ :=
          ih (List.append_assoc _ _ _).symm beginning stands
        exact ⟨middle, .follow notHere notUp link ahead, directory, further⟩

/-- The names lead to a directory, with every link followed. -/
def LeadsToDirectory (disk : Disk) (here : Location) (names : List String) : Prop :=
  ∃ place, disk.Leads true here names place ∧ disk.find? place = some .directory

theorem LeadsToDirectory.concat {here middle : Location} {names : List String} {name : String}
    (leads : disk.Leads true here names middle) (stands : disk.find? middle = some .directory)
    (further : disk.LeadsToDirectory middle [name]) : disk.LeadsToDirectory here (names ++ [name]) := by
  obtain ⟨place, leadsOn, directory⟩ := further
  exact ⟨place, leads.append stands leadsOn, directory⟩

theorem LeadsToDirectory.transfer {here : Location} {names : List String}
    (directories : ∀ location, before.find? location = some .directory →
      after.find? location = some .directory)
    (links : ∀ location target, before.find? location = some (.link target) →
      after.find? location = some (.link target))
    (leads : before.LeadsToDirectory here names) : after.LeadsToDirectory here names := by
  obtain ⟨place, leads, stands⟩ := leads
  refine ⟨place, ?_, directories place stands⟩
  induction leads with
  | nil => exact .nil
  | stay _ ih => exact .stay (ih stands)
  | up _ ih => exact .up (ih stands)
  | enter notHere notUp entry _ ih => exact .enter notHere notUp (directories _ entry) (ih stands)
  | file _ _ file => exact nomatch stands.symm.trans file
  | last _ _ _ unfollowed => cases unfollowed
  | follow notHere notUp link _ ih => exact .follow notHere notUp (links _ _ link) (ih stands)

/-! ## Changes that keep ways -/

/-- Every directory, and every link that leads to one, stayed. -/
structure KeepsWays (before after : Disk) : Prop where
  directory : ∀ location, before.find? location = some .directory →
    after.find? location = some .directory
  link : ∀ here name target, before.find? (here ++ [name]) = some (.link target) →
    before.LeadsToDirectory here [name] → after.find? (here ++ [name]) = some (.link target)

section Cursors

variable {cursor : Cursor} {name : String}

theorem find?_of_reached (reached : Cursor.Reached disk.tree cursor) :
    disk.find? cursor.location = some .directory := by
  rw [find?, Tree.standing?, reached.find?]
  rfl

theorem child?_of_directory (reached : Cursor.Reached disk.tree cursor)
    (stands : disk.find? (cursor.location ++ [name]) = some .directory) :
    ∃ inner, cursor.tree.child? name = some (.directory inner) := by
  rw [find?, reached.standing?] at stands
  obtain ⟨node, found, entry⟩ := Option.map_eq_some_iff.1 stands
  cases node <;> cases entry
  exact ⟨_, found⟩

theorem child?_of_link {target : Path} (reached : Cursor.Reached disk.tree cursor)
    (stands : disk.find? (cursor.location ++ [name]) = some (.link target)) :
    cursor.tree.child? name = some (.link target) := by
  rw [find?, reached.standing?] at stands
  obtain ⟨node, found, entry⟩ := Option.map_eq_some_iff.1 stands
  cases node <;> cases entry
  exact found

theorem child?_of_file {content : ByteArray} {age : Nat} (reached : Cursor.Reached disk.tree cursor)
    (stands : disk.find? (cursor.location ++ [name]) = some (.file content age)) :
    cursor.tree.child? name = some (.file content age) := by
  rw [find?, reached.standing?] at stands
  obtain ⟨node, found, entry⟩ := Option.map_eq_some_iff.1 stands
  cases node <;> cases entry
  exact found

end Cursors

theorem not_leadsToDirectory_of_file {here : Location} {name : String} {content : ByteArray} {age : Nat}
    (stands : disk.find? (here ++ [name]) = some (.file content age)) (plain : name ≠ "." ∧ name ≠ "..") :
    ¬ disk.LeadsToDirectory here [name] := by
  rintro ⟨place, leads, directory⟩
  have same := leads.unique (.file plain.1 plain.2 stands)
  rw [same, stands] at directory
  cases directory

/-- Ways are kept where nothing is taken away but what leads to no directory. -/
theorem keepsWays_of_forall
    (kept : ∀ location entry, before.find? location = some entry →
      after.find? location = some entry ∨ entry ≠ .directory ∧
        ∀ here name, location = here ++ [name] → ¬ before.LeadsToDirectory here [name]) :
    before.KeepsWays after := by
  constructor
  · intro location stands
    rcases kept location _ stands with same | ⟨leaf, _⟩
    · exact same
    · exact absurd rfl leaf
  · intro here name target stands leads
    rcases kept _ _ stands with same | ⟨_, idle⟩
    · exact same
    · exact absurd leads (idle here name rfl)

theorem Becomes.keepsWays {place : Location} {value : Option Entry} (becomes : before.Becomes place value after)
    (idle : ∀ entry, before.find? place = some entry → entry ≠ .directory ∧
      ∀ here name, place = here ++ [name] → ¬ before.LeadsToDirectory here [name]) :
    before.KeepsWays after := by
  apply keepsWays_of_forall
  intro location entry stands
  by_cases here : location = place
  · subst here
    exact .inr (idle entry stands)
  · rw [becomes location, if_neg here]
    exact .inl stands

/-- The walk that is left after some names continues from the directory they led to. -/
def Continues (after : Disk) (links left : Nat) (there : Cursor) (names : List String)
    (place : Location) : Prop :=
  ∃ cursor, Cursor.Reached after.tree cursor ∧ cursor.location = place ∧
    ∀ more, after.walkTo true links there (names ++ more) = after.walkTo true left cursor more

theorem Continues.step {links left : Nat} {there next : Cursor} {name : String} {rest : List String}
    {place : Location}
    (moves : ∀ more, after.walkTo true links there (name :: more) = after.walkTo true links next more)
    (continues : after.Continues links left next rest place) :
    after.Continues links left there (name :: rest) place := by
  obtain ⟨cursor, reached, located, further⟩ := continues
  exact ⟨cursor, reached, located, fun more => (moves _).trans (further more)⟩

theorem KeepsWays.continues_of_proceed {count left : Nat} {here there : Cursor}
    {names : List String} {place : Location} (keeps : before.KeepsWays after)
    {onLink : Cursor → List String → Except Fault (Location × Nat)}
    (onLinkAfter : Cursor → List String → Except Fault (Location × Nat))
    (leads : ∀ {here : Cursor} {names : List String}, Cursor.Reached before.tree here →
      onLink here names = .ok (place, left) → before.Leads true here.location names place)
    (hop : ∀ {here there : Cursor} {names : List String}, Cursor.Reached before.tree here →
      Cursor.Reached after.tree there → here.location = there.location →
      onLink here names = .ok (place, left) →
      ∃ cursor, Cursor.Reached after.tree cursor ∧ cursor.location = place ∧
        ∀ more, onLinkAfter there (names ++ more) = after.walkTo true left cursor more)
    (walks : ∀ cursor names, after.walkTo true count cursor names =
      after.proceed true (·, count) onLinkAfter cursor names)
    (reached : Cursor.Reached before.tree here) (reachedToo : Cursor.Reached after.tree there)
    (same : here.location = there.location) (stands : before.find? place = some .directory)
    (found : before.proceed true (·, count) onLink here names = .ok (place, left)) :
    after.Continues count left there names place := by
  have proceeds := proceeds_of_proceed found
  clear found
  -- Both cursors stay at one location: the second walk makes each step of the first in its own tree.
  induction proceeds generalizing there with
  | ends last =>
      cases last
      exact ⟨there, reachedToo, same.symm, fun _ => rfl⟩
  | stay _ ih =>
      refine (ih reached reachedToo same).step fun more => ?_
      rw [walks, walks, proceed_here]
  | @up here rest _ ih =>
      have above : here.up.location = there.up.location := by
        rw [Cursor.location_up, Cursor.location_up, same]
      refine (ih reached.up reachedToo.up above).step fun more => ?_
      rw [walks, walks, proceed_up]
  | @enter here name rest inner looked inside _ ih =>
      have kept := keeps.directory _ (find?_of_child? reached inside)
      rw [same] at kept
      obtain ⟨innerToo, insideToo⟩ := child?_of_directory reachedToo kept
      have below : (here.down name inner).location = (there.down name innerToo).location := by
        rw [Cursor.location_down, Cursor.location_down, same]
      refine (ih (reached.down inside) (reachedToo.down insideToo) below).step fun more => ?_
      rw [walks, walks, proceed_of_directory looked insideToo]
  | file _ inside last =>
      cases last
      cases stands.symm.trans (find?_of_child? reached inside)
  | last _ _ unfollowed => cases unfollowed
  | @follow here name rest target looked inside _ answered =>
      have entry := find?_of_child? reached inside
      have sameStart : (if target.isAbsolute then before.start else here).location =
          (if target.isAbsolute then after.start else there).location := by
        split
        · rfl
        · exact same
      have beyond := leads (reached_start reached target) answered
      rw [apply_ite Cursor.location] at beyond
      -- The link is kept because it leads to a directory, which the walk passes or ends at.
      have whole : before.Leads true here.location (name :: rest) place :=
        .follow looked.notHere looked.notUp entry beyond
      obtain ⟨middle, ahead, directory, _⟩ :=
        whole.split (List.singleton_append ..).symm (find?_of_reached reached) stands
      have kept := keeps.link _ _ _ entry ⟨middle, ahead, directory⟩
      rw [same] at kept
      obtain ⟨cursor, reachedLast, located, further⟩ :=
        hop (reached_start reached target) (reached_start reachedToo target) sameStart answered
      refine ⟨cursor, reachedLast, located, fun more => ?_⟩
      rw [walks, List.cons_append, proceed_of_link looked (child?_of_link reachedToo kept) (by simp),
        ← List.append_assoc]
      exact further more

/-- A walk to a directory comes there again, and goes on from there, after a change that keeps
ways. -/
theorem KeepsWays.continues {links left : Nat} {here there : Cursor} {names : List String}
    {place : Location} (keeps : before.KeepsWays after) (reached : Cursor.Reached before.tree here)
    (reachedToo : Cursor.Reached after.tree there) (same : here.location = there.location)
    (walked : before.walkTo true links here names = .ok (place, left))
    (stands : before.find? place = some .directory) :
    after.Continues links left there names place := by
  induction links generalizing here there names with
  | zero =>
      exact keeps.continues_of_proceed (fun _ _ => .error .tooManyLinks)
        (fun _ refused => by cases refused) (fun _ _ _ refused => by cases refused)
        (fun _ _ => rfl) reached reachedToo same stands walked
  | succ links ih =>
      exact keeps.continues_of_proceed (walkTo after true links)
        (fun reached found => leads_of_walkTo reached found)
        (fun reached reachedToo same found => ih reached reachedToo same found)
        (fun _ _ => rfl) reached reachedToo same stands walked

/-! ## Slots -/

section Slots

variable {route : Route} {parent : Location} {name : String} {special other : Fault}

theorem slot_eq_ok_iff :
    disk.slot special route = .ok (parent, name) ↔
      checkPath route.path = .ok () ∧ ∃ front left, route.names = front ++ [name] ∧
        disk.walkTo true linkLimit disk.start front = .ok (parent, left) ∧
        disk.find? parent = some .directory ∧ name ≠ "." ∧ name ≠ ".." := by
  constructor
  · intro found
    obtain ⟨_, clean, found⟩ := bind_eq_ok_iff.1 found
    obtain ⟨⟨slot, left⟩, found, same⟩ := bind_eq_ok_iff.1 found
    cases same
    refine ⟨clean, ?_⟩
    unfold slotFrom at found
    split at found
    next => cases found
    next last spelled =>
      obtain ⟨front, spelled⟩ := List.getLast?_eq_some_iff.1 spelled
      rw [spelled, List.dropLast_concat] at found
      obtain ⟨⟨place, left⟩, walked, found⟩ := bind_eq_ok_iff.1 found
      dsimp only at found
      split at found
      next => cases found
      next ready =>
        split at found
        next => cases found
        next plain =>
          cases found
          rw [not_or] at plain
          exact ⟨front, _, spelled, walked, by simpa [isDirectoryAt] using ready, plain⟩
  · rintro ⟨clean, front, left, spelled, walked, ready, notHere, notUp⟩
    unfold slot slotFrom
    rw [clean, spelled, List.getLast?_concat, List.dropLast_concat]
    simp [bind, Except.bind, walked, isDirectoryAt, ready, notHere, notUp, pure, Except.pure]

theorem walkTo_nil (links : Nat) (here : Cursor) :
    disk.walkTo true links here [] = .ok (here.location, links) := by
  cases links <;> rfl

/-- A name is still to be changed in the same directory after a change that keeps ways. -/
theorem KeepsWays.slot (keeps : before.KeepsWays after)
    (found : before.slot special route = .ok (parent, name)) :
    after.slot other route = .ok (parent, name) := by
  obtain ⟨clean, front, left, spelled, walked, ready, plain⟩ := slot_eq_ok_iff.1 found
  obtain ⟨cursor, _, located, further⟩ := keeps.continues .top .top rfl walked ready
  have walkedToo := further []
  rw [List.append_nil, walkTo_nil, located] at walkedToo
  exact slot_eq_ok_iff.2 ⟨clean, front, left, spelled, walkedToo, keeps.directory _ ready, plain⟩

theorem walkTo_single {cursor : Cursor} (left : Nat) (reached : Cursor.Reached disk.tree cursor)
    (notHere : name ≠ ".") (notUp : name ≠ "..")
    (solid : ∀ target, disk.find? (cursor.location ++ [name]) ≠ some (.link target)) :
    disk.walkTo true left cursor [name] =
      if nameLimit < name.utf8ByteSize then .error .nameTooLong
      else if disk.find? (cursor.location ++ [name]) = none then .error .notFound
      else .ok (cursor.location ++ [name], left) := by
  obtain ⟨onLink, walks⟩ : ∃ onLink, disk.walkTo true left cursor [name] =
      disk.proceed true (·, left) onLink cursor [name] := by
    cases left <;> exact ⟨_, rfl⟩
  have entry : disk.find? (cursor.location ++ [name]) = (cursor.tree.child? name).map Node.entry :=
    reached.standing? name
  rw [walks, proceed, if_neg notHere, if_neg notUp]
  split
  next => rfl
  next =>
    cases inside : cursor.tree.child? name with
    | none =>
        rw [inside] at entry
        exact (if_pos entry).symm
    | some node =>
        rw [inside] at entry
        have present : disk.find? (cursor.location ++ [name]) ≠ none := by simp [entry]
        rw [if_neg present]
        cases node with
        | directory inner =>
            rw [← Cursor.location_down cursor name inner]
            rfl
        | file content age => exact if_pos rfl
        | link target => exact absurd entry (solid target)

/-- What stands in a slot is what the route leads to, unless it is a link. -/
theorem inspect_of_slot (found : disk.slot special route = .ok (parent, name))
    (solid : ∀ target, disk.find? (parent ++ [name]) ≠ some (.link target)) :
    disk.inspect route =
      if nameLimit < name.utf8ByteSize then .error .nameTooLong
      else
        match disk.find? (parent ++ [name]) with
        | some entry => .ok entry
        | none => .error .notFound := by
  obtain ⟨clean, front, left, spelled, walked, ready, notHere, notUp⟩ := slot_eq_ok_iff.1 found
  -- The disk keeps its own ways, so the walk to the slot goes on from the directory to the name.
  have keeps : disk.KeepsWays disk := ⟨fun _ stands => stands, fun _ _ _ stands _ => stands⟩
  obtain ⟨cursor, reached, located, further⟩ := keeps.continues .top .top rfl walked ready
  subst located
  have whole : disk.walkTo true linkLimit disk.start (front ++ [name]) =
      disk.walkTo true left cursor [name] :=
    further [name]
  unfold inspect locate
  rw [clean, spelled, whole, walkTo_single left reached notHere notUp solid]
  split
  next => rfl
  next =>
    split
    next missing =>
      rw [missing]
      rfl
    next => rfl

theorem read_of_slot {content : ByteArray} {age : Nat}
    (found : disk.slot special route = .ok (parent, name)) (short : name.utf8ByteSize ≤ nameLimit)
    (stands : disk.find? (parent ++ [name]) = some (.file content age)) :
    disk.read route = .ok content := by
  have solid : ∀ target, disk.find? (parent ++ [name]) ≠ some (.link target) := by
    rw [stands]
    exact fun _ => nofun
  rw [read, inspect_of_slot found solid, if_neg (Nat.not_lt.2 short), stands]
  rfl

theorem leads_of_read {content : ByteArray} (found : disk.read route = .ok content) :
    ∃ place age, disk.Leads true [] route.names place ∧
      disk.find? place = some (.file content age) := by
  obtain ⟨entry, inspected, same⟩ := bind_eq_ok_iff.1 found
  obtain ⟨place, located, looked⟩ := bind_eq_ok_iff.1 inspected
  obtain ⟨_, _, located⟩ := bind_eq_ok_iff.1 located
  obtain ⟨⟨reached, left⟩, walked, ends⟩ := bind_eq_ok_iff.1 located
  cases ends
  split at looked
  next stands =>
    cases looked
    split at same
    next =>
      cases same
      exact ⟨_, _, leads_of_walkTo .top walked, stands⟩
    next => cases same
  next => cases looked

theorem leads_of_slot (found : disk.slot special route = .ok (parent, name)) :
    ∃ front, route.names = front ++ [name] ∧ disk.Leads true [] front parent ∧
      disk.find? parent = some .directory ∧ name ≠ "." ∧ name ≠ ".." := by
  obtain ⟨_, front, left, spelled, walked, ready, plain⟩ := slot_eq_ok_iff.1 found
  exact ⟨front, spelled, leads_of_walkTo .top walked, ready, plain⟩

end Slots

/-! ## Changes by any route -/

section Changes

variable {route newRoute : Route} {content : ByteArray}

theorem exists_of_createFile (created : disk.createFile route content = .ok after) :
    ∃ parent name, disk.slot .exists route = .ok (parent, name) ∧
      disk.find? (parent ++ [name]) = none ∧
      disk.Becomes (parent ++ [name]) (some (.file content 0)) after := by
  obtain ⟨⟨parent, name⟩, found, created⟩ := bind_eq_ok_iff.1 created
  obtain ⟨_, free, becomes⟩ := becomes_of_create created
  exact ⟨parent, name, found, free, becomes⟩

theorem exists_of_removeFile (removed : disk.removeFile route = .ok after) :
    ∃ parent name entry, disk.slot .isDirectory route = .ok (parent, name) ∧
      disk.find? (parent ++ [name]) = some entry ∧ entry ≠ .directory ∧
      disk.Becomes (parent ++ [name]) none after := by
  obtain ⟨⟨parent, name⟩, found, removed⟩ := bind_eq_ok_iff.1 removed
  obtain ⟨⟨entry, stands, leaf⟩, becomes⟩ := becomes_of_unlink removed
  exact ⟨parent, name, entry, found, stands, leaf, becomes⟩

/-- What is moved leaves its old place and stands at the new one, where no directory stood. -/
theorem exists_of_rename (renamed : disk.rename route newRoute = .ok after) :
    ∃ parent name newParent newName entry, disk.slot .busy route = .ok (parent, name) ∧
      disk.slot .busy newRoute = .ok (newParent, newName) ∧
      newName.utf8ByteSize ≤ nameLimit ∧
      disk.find? (parent ++ [name]) = some entry ∧ entry ≠ .directory ∧
      disk.find? (newParent ++ [newName]) ≠ some .directory ∧
      ∀ location, after.find? location =
        if location = newParent ++ [newName] then some entry
        else if location = parent ++ [name] then none
        else disk.find? location := by
  obtain ⟨⟨parent, name⟩, found, renamed⟩ := bind_eq_ok_iff.1 renamed
  obtain ⟨⟨newParent, newName⟩, newFound, moved⟩ := bind_eq_ok_iff.1 renamed
  clear renamed
  dsimp only at moved
  split at moved
  next => cases moved
  next => cases moved
  next entry leaf stands =>
    split at moved
    next => cases moved
    next short =>
      split at moved
      next => cases moved
      next separator =>
        have bare : newRoute.bareNames = newRoute.names := by simp [Route.bareNames, separator]
        rw [bare] at newFound
        refine ⟨parent, name, newParent, newName, entry, found, newFound, Nat.not_lt.1 short, stands,
          leaf, ?_⟩
        split at moved
        next same =>
          cases moved
          refine ⟨by rw [← same, stands]; simpa using leaf, fun location => ?_⟩
          split
          next here => rw [here, ← same, stands]
          next elsewhere => rw [if_neg (by rwa [same])]
        next different =>
          obtain ⟨placed, added, unlinked⟩ := bind_eq_ok_iff.1 moved
          obtain ⟨_, free, becomes⟩ := becomes_of_place added
          refine ⟨free, fun location => ?_⟩
          rw [(becomes_of_unlink unlinked).2 location, becomes location]
          by_cases new : location = newParent ++ [newName]
          · rw [if_neg (by rw [new]; exact Ne.symm different)]
            simp [new]
          · simp [new]

end Changes

end SourceBaseline.Disk
